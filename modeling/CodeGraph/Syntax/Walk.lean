import CodeGraph.Syntax.Node

/-!
# Walking a tree in preorder

* `TreeCursor` — a place in a tree: the node in focus and, level by level, the siblings still to come.
* `Node.walk` — visits the subtree of a node with a stateful visitor that may descend, skip or stop.
* `Node.firstDefectLine` — the line of the first error or missing node, found by a walk that leaves
  undamaged subtrees out.
-/

namespace CodeGraph.Syntax

/-- What a walk does after visiting a node. -/
inductive Step where
  | descend
  | skip
  | stop
  deriving DecidableEq, Repr

/-- A place in a tree: the node in focus and, from its own level upwards, the siblings to come. -/
structure TreeCursor where
  focus : Node
  ahead : List (List Node)

namespace TreeCursor

/-- A cursor on a node that has nothing around it. -/
def ofNode (n : Node) : TreeCursor := ⟨n, [[]]⟩

/-- Move to the first child of the focus. -/
def firstChild? : TreeCursor → Option TreeCursor
  | ⟨.node _ [], _⟩ => none
  | ⟨.node _ (c :: cs), up⟩ => some ⟨c, cs :: up⟩

/-- Move to the next sibling of the focus. -/
def nextSibling? : TreeCursor → Option TreeCursor
  | ⟨_, (s :: ss) :: up⟩ => some ⟨s, ss :: up⟩
  | _ => none

/-- Leave the level of the focus; the next sibling of this cursor is the parent's. -/
def leaveLevel (c : TreeCursor) : TreeCursor := ⟨c.focus, c.ahead.tail⟩

/-- From a focus whose subtree is done, `depth` levels below the start: the next place to visit. -/
def advance : Nat → TreeCursor → Option (Nat × TreeCursor)
  | 0, _ => none
  | d + 1, c =>
    match c.nextSibling? with
    | some next => some (d + 1, next)
    | none => advance d c.leaveLevel

/-- The place to visit after the focus, with its depth: into the subtree or past it. -/
def next? (into : Bool) (depth : Nat) (c : TreeCursor) : Option (Nat × TreeCursor) :=
  match into, c.firstChild? with
  | true, some child => some (depth + 1, child)
  | _, _ => advance depth c

end TreeCursor

/-- Visit from a cursor `depth` levels below the start; `fuel` bounds the number of visits. -/
def walkFrom {σ : Type} (visit : σ → Node → σ × Step) :
    (fuel depth : Nat) → TreeCursor → σ → σ
  | 0, _, _, s => s
  | fuel + 1, depth, cursor, s =>
    match visit s cursor.focus with
    | (s, .stop) => s
    | (s, step) =>
      match cursor.next? (step == .descend) depth with
      | some (depth, next) => walkFrom visit fuel depth next s
      | none => s

/-- Visit the subtree under a cursor's focus in source order. -/
def TreeCursor.walk {σ : Type} (c : TreeCursor) (visit : σ → Node → σ × Step) (s : σ) : σ :=
  walkFrom visit c.focus.size 0 c s

/-- Visit a node and its descendants in source order. -/
def Node.walk {σ : Type} (n : Node) (visit : σ → Node → σ × Step) (s : σ) : σ :=
  (TreeCursor.ofNode n).walk visit s

/-- The line of the first error or missing node, if the tree's flags lead to one. -/
def Node.firstDefectLine (root : Node) : Option Nat :=
  let found := root.walk (σ := Option Nat) (fun found n =>
    if n.isDefect then (some n.startLine, .stop)
    else if n.hasDefect then (found, .descend)
    else (found, .skip)) none
  found <|> if root.hasDefect then some root.startLine else none

end CodeGraph.Syntax
