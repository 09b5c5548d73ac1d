import CodeGraph.Proofs.Syntax.Walk

/-!
# The first defect of a tree

* `Node.FlagsExact` — the flag of every node tells whether it or a node below it is an error or missing node.
* `Node.firstDefect?` — the first such node of all.
* `Node.traverse_seek` — a search that goes by the flags finds it; `FlagsExact.firstDefectLine_eq` gives its
  line.
-/

namespace CodeGraph.Syntax

/-- The flag of every node of a tree tells whether it or a node below it is an error or missing node. -/
def Node.FlagsExact (root : Node) : Prop :=
  ∀ n ∈ root.preorder, n.hasDefect = true ↔ ∃ m ∈ n.preorder, m.isDefect = true

instance : DecidablePred Node.FlagsExact := fun root =>
  inferInstanceAs (Decidable (∀ n ∈ root.preorder, n.hasDefect = true ↔ ∃ m ∈ n.preorder, m.isDefect = true))

/-- The first error or missing node of a tree, in the order of the text. -/
def Node.firstDefect? (root : Node) : Option Node := root.preorder.find? Node.isDefect

/-- The same for several trees, one after the other. -/
def forestFirstDefect? (ns : List Node) : Option Node := (forestPreorder ns).find? Node.isDefect

theorem Node.self_mem_preorder (n : Node) : n ∈ n.preorder := by
  obtain ⟨l, cs⟩ := n
  rw [preorder]
  exact List.mem_cons_self

theorem mem_forestPreorder {ns : List Node} {m : Node} :
    m ∈ forestPreorder ns ↔ ∃ n ∈ ns, m ∈ n.preorder := by
  induction ns with
  | nil => simp [forestPreorder]
  | cons n ns ih => simp [forestPreorder, ih]

/-- The flags of the trees below the root are exact, too. -/
theorem Node.FlagsExact.of_mem {l : Label} {cs : List Node} (h : (Node.node l cs).FlagsExact) {c : Node}
    (hc : c ∈ cs) : c.FlagsExact := by
  intro n hn
  have hmem : n ∈ (Node.node l cs).preorder := by
    rw [preorder]
    exact List.mem_cons_of_mem _ (mem_forestPreorder.mpr ⟨c, hc, hn⟩)
  exact h n hmem

theorem Node.FlagsExact.hasDefect_iff {n : Node} (h : n.FlagsExact) :
    n.hasDefect = true ↔ n.firstDefect?.isSome := by
  rw [firstDefect?, List.find?_isSome]
  exact h n n.self_mem_preorder

theorem Node.firstDefect?_of_isDefect {n : Node} (h : n.isDefect = true) : n.firstDefect? = some n := by
  obtain ⟨l, cs⟩ := n
  rw [firstDefect?, preorder, List.find?_cons_of_pos h]

theorem Node.firstDefect?_node {l : Label} {cs : List Node} (h : ¬(Node.node l cs).isDefect = true) :
    (Node.node l cs).firstDefect? = forestFirstDefect? cs := by
  rw [firstDefect?, preorder, List.find?_cons_of_neg h, forestFirstDefect?]

theorem forestFirstDefect?_cons (n : Node) (ns : List Node) :
    forestFirstDefect? (n :: ns) = n.firstDefect?.or (forestFirstDefect? ns) := by
  rw [forestFirstDefect?, forestPreorder, List.find?_append]
  rfl

/-! ### The search -/

/-- What the search does at a node. -/
def seek (found : Option Nat) (n : Node) : Option Nat × Step :=
  if n.isDefect then (some n.startLine, .stop)
  else if n.hasDefect then (found, .descend)
  else (found, .skip)

/-- What the search comes to, given the first defect: it ends there, with the line. -/
def sought (found : Option Nat) : Option Node → Option Nat × Bool
  | some n => (some n.startLine, true)
  | none => (found, false)

mutual
/-- A search that goes by the flags finds the first defect of the whole tree. -/
theorem Node.traverse_seek (n : Node) (h : n.FlagsExact) (found : Option Nat) :
    n.traverse seek found = sought found n.firstDefect? := by
  have hflag := h.hasDefect_iff
  obtain ⟨l, cs⟩ := n
  rw [Node.traverse, seek]
  by_cases hdefect : (Node.node l cs).isDefect = true
  · rw [if_pos hdefect, Node.firstDefect?_of_isDefect hdefect]
    rfl
  · rw [if_neg hdefect]
    by_cases hdamaged : (Node.node l cs).hasDefect = true
    · rw [if_pos hdamaged, Node.firstDefect?_node hdefect]
      exact forestTraverse_seek cs (fun _ hc => h.of_mem hc) found
    · have hnone : (Node.node l cs).firstDefect? = none :=
        Option.not_isSome_iff_eq_none.mp (mt hflag.mpr hdamaged)
      rw [if_neg hdamaged, hnone]
      rfl

theorem forestTraverse_seek (ns : List Node) (h : ∀ n ∈ ns, n.FlagsExact) (found : Option Nat) :
    forestTraverse seek ns found = sought found (forestFirstDefect? ns) := by
  cases ns with
  | nil => rfl
  | cons n ns =>
    obtain ⟨hn, hns⟩ := List.forall_mem_cons.mp h
    rw [forestTraverse, Node.traverse_seek n hn found, forestFirstDefect?_cons]
    cases n.firstDefect? with
    | some m => rfl
    | none => exact forestTraverse_seek ns hns found
end

/-- Where the flags are exact, the line that is found by them is that of the first defect. -/
theorem Node.FlagsExact.firstDefectLine_eq {root : Node} (h : root.FlagsExact) :
    root.firstDefectLine = root.firstDefect?.map Node.startLine := by
  have hwalk : root.walk seek none = (sought none root.firstDefect?).1 := by
    rw [Node.walk, TreeCursor.walk_eq_traverse]
    exact congrArg Prod.fst (root.traverse_seek h none)
  show (root.walk seek none <|> _) = _
  rw [hwalk]
  cases hfirst : root.firstDefect? with
  | some n => rfl
  | none =>
    have hflag : ¬root.hasDefect = true := by
      rw [h.hasDefect_iff, hfirst]
      exact Bool.false_ne_true
    rw [if_neg hflag]
    rfl

end CodeGraph.Syntax
