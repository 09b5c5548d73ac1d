import CodeGraph.Syntax.Walk

/-!
# A walk is a recursion over the tree

* `Node.preorder` — a node and its descendants in source order.
* `Node.traverse` — the recursion that a walk carries out: a node, then the trees below it one after the
  other, until the visitor stops.
* `TreeCursor.walk_eq_traverse` — from its start a walk visits the tree below and nothing around it.
* `Node.walk_descend` — a walk that leaves nothing out folds over the nodes in preorder.
-/

namespace CodeGraph.Syntax

mutual
/-- A node and its descendants in source order. -/
def Node.preorder : Node → List Node
  | .node l cs => .node l cs :: forestPreorder cs

/-- The nodes of several trees, one tree after the other. -/
def forestPreorder : List Node → List Node
  | [] => []
  | n :: ns => n.preorder ++ forestPreorder ns
end

section Traversal

variable {σ : Type} (visit : σ → Node → σ × Step)

mutual
/-- Visit a tree; the flag tells whether the visitor stopped. -/
def Node.traverse : Node → σ → σ × Bool
  | .node l cs, s =>
    match visit s (.node l cs) with
    | (s, .stop) => (s, true)
    | (s, .skip) => (s, false)
    | (s, .descend) => forestTraverse cs s

/-- Visit several trees one after the other. -/
def forestTraverse : List Node → σ → σ × Bool
  | [], s => (s, false)
  | n :: ns, s =>
    match n.traverse s with
    | (s, true) => (s, true)
    | (s, false) => forestTraverse ns s
end

theorem forestTraverse_append (ms ns : List Node) (s : σ) : forestTraverse visit (ms ++ ns) s =
    match forestTraverse visit ms s with
    | (s, true) => (s, true)
    | (s, false) => forestTraverse visit ns s := by
  induction ms generalizing s with
  | nil => rfl
  | cons m ms ih =>
    rw [List.cons_append, forestTraverse, forestTraverse]
    split
    next => rfl
    next s _ => exact ih s

theorem Node.forestSize_append (ms ns : List Node) :
    forestSize (ms ++ ns) = forestSize ms + forestSize ns := by
  induction ms with
  | nil => rw [List.nil_append, forestSize, Nat.zero_add]
  | cons m ms ih => rw [List.cons_append, forestSize, forestSize, ih, Nat.add_assoc]

namespace TreeCursor

/-- What is still to be visited after the focus, `depth` levels below the start. -/
def pending (depth : Nat) (c : TreeCursor) : List Node := (c.ahead.take depth).flatten

/-- Past the focus the walk goes on with the first of what is pending. -/
theorem advance_spec (depth : Nat) (c : TreeCursor) :
    (c.advance depth = none ∧ c.pending depth = []) ∨
      ∃ depth' c', c.advance depth = some (depth', c') ∧
        c.pending depth = c'.focus :: c'.pending depth' := by
  induction depth generalizing c with
  | zero => exact .inl ⟨rfl, rfl⟩
  | succ depth ih =>
    obtain ⟨focus, ahead⟩ := c
    match ahead with
    | (n :: ns) :: up => exact .inr ⟨depth + 1, ⟨n, ns :: up⟩, rfl, rfl⟩
    | [] :: up => exact ih ⟨focus, up⟩
    | [] =>
      have hnone (depth : Nat) : pending depth ⟨focus, []⟩ = [] := by
        rw [pending, List.take_nil]
        rfl
      obtain ⟨hstop, -⟩ | ⟨depth', c', -, hpending⟩ := ih ⟨focus, []⟩
      · exact .inl ⟨hstop, hnone _⟩
      · cases (hnone depth).symm.trans hpending

end TreeCursor

/-- Go on at a place, if there is one. -/
def goOn (fuel : Nat) (s : σ) : Option (Nat × TreeCursor) → σ
  | some (depth, next) => walkFrom visit fuel depth next s
  | none => s

/-- Enough fuel is one visit for every node that is pending. -/
theorem walkFrom_eq_traverse (fuel depth : Nat) (c : TreeCursor) (s : σ)
    (hfuel : Node.forestSize (c.focus :: c.pending depth) ≤ fuel) :
    walkFrom visit fuel depth c s = (forestTraverse visit (c.focus :: c.pending depth) s).1 := by
  induction fuel generalizing depth c s with
  | zero =>
    obtain ⟨⟨l, cs⟩, ahead⟩ := c
    rw [Node.forestSize, Node.size] at hfuel
    omega
  | succ fuel ih =>
    obtain ⟨⟨l, cs⟩, ahead⟩ := c
    have hpast (s : σ) : goOn visit fuel s (TreeCursor.advance depth ⟨.node l cs, ahead⟩) =
        (forestTraverse visit (TreeCursor.pending depth ⟨.node l cs, ahead⟩) s).1 := by
      obtain ⟨hstop, hpending⟩ | ⟨depth', c', hgo, hpending⟩ :=
        TreeCursor.advance_spec depth ⟨.node l cs, ahead⟩
      · rw [hstop, hpending, forestTraverse, goOn]
      · rw [hgo, hpending]
        refine ih depth' c' s ?_
        rw [Node.forestSize, Node.size, hpending] at hfuel
        omega
    rw [walkFrom, forestTraverse, Node.traverse]
    rcases visit s (.node l cs) with ⟨s', step⟩
    cases step with
    | stop => rfl
    | skip => exact hpast s'
    | descend =>
      cases cs with
      | nil => exact hpast s'
      | cons child cs =>
        have hinto : child :: TreeCursor.pending (depth + 1) ⟨child, cs :: ahead⟩ =
            child :: cs ++ TreeCursor.pending depth ⟨.node l (child :: cs), ahead⟩ := rfl
        rw [Node.forestSize, Node.size] at hfuel
        refine (ih (depth + 1) ⟨child, cs :: ahead⟩ s' ?_).trans ?_
        · rw [hinto, Node.forestSize_append]
          omega
        · rw [hinto, forestTraverse_append]

/-- **A walk from a cursor visits the tree under its focus as the recursion does**, whatever the visitor
does and wherever in a larger tree the cursor stands. -/
theorem TreeCursor.walk_eq_traverse (c : TreeCursor) (s : σ) :
    c.walk visit s = (c.focus.traverse visit s).1 := by
  have hsize : Node.forestSize (c.focus :: c.pending 0) ≤ c.focus.size := Nat.le_refl _
  rw [TreeCursor.walk, walkFrom_eq_traverse visit _ 0 c s hsize]
  show (forestTraverse visit [c.focus] s).1 = _
  rw [forestTraverse]
  split
  next heq => rw [heq]
  next heq => rw [heq, forestTraverse]

end Traversal

section Descent

variable {σ : Type} (visit : σ → Node → σ)

mutual
theorem Node.traverse_descend (n : Node) (s : σ) :
    n.traverse (fun s m => (visit s m, .descend)) s = (n.preorder.foldl visit s, false) := by
  obtain ⟨l, cs⟩ := n
  rw [Node.traverse, Node.preorder, List.foldl_cons]
  exact forestTraverse_descend cs _

theorem forestTraverse_descend (ns : List Node) (s : σ) :
    forestTraverse (fun s m => (visit s m, .descend)) ns s = ((forestPreorder ns).foldl visit s, false) := by
  cases ns with
  | nil => rfl
  | cons n ns =>
    rw [forestTraverse, Node.traverse_descend n, forestPreorder, List.foldl_append]
    exact forestTraverse_descend ns _
end

/-- A walk that leaves nothing out folds over the nodes of the tree in preorder. -/
theorem Node.walk_descend (n : Node) (s : σ) :
    n.walk (fun s m => (visit s m, .descend)) s = n.preorder.foldl visit s := by
  rw [Node.walk, TreeCursor.walk_eq_traverse]
  exact congrArg Prod.fst (Node.traverse_descend visit n s)

end Descent

end CodeGraph.Syntax
