import CodeGraph.Names.Order

/-!
# Import cycles

* `Cycle` — packages each of which imports the next, the last one the first.
* `Cycle.canonical` — the rotation that starts with the first package in order.
* `Cycle.edges` — the imports along a cycle.
-/

namespace CodeGraph

/-- Packages along a closed path, the first one not repeated. -/
structure Cycle where
  packages : List String
  deriving DecidableEq, Repr, Inhabited

namespace Cycle

/-- The least of several texts, if there are any. -/
def least? : List String → Option String
  | [] => none
  | p :: ps => some (ps.foldl (fun m q => if q < m then q else m) p)

/-- The rotation of a closed path that starts at its least package. -/
def canonical (packages : List String) : Cycle :=
  match least? packages with
  | none => ⟨packages⟩
  | some m => ⟨packages.dropWhile (· ≠ m) ++ packages.takeWhile (· ≠ m)⟩

/-- Each package with the next one, the last one with the first. -/
def edges (c : Cycle) : List (String × String) :=
  match c.packages with
  | [] => []
  | p :: ps => (p :: ps).zip (ps ++ [p])

/-- The packages with arrows between them, back to the first. -/
def text (c : Cycle) : String :=
  match c.packages with
  | [] => ""
  | p :: ps => " -> ".intercalate (p :: ps ++ [p])

/-- By the packages, one after the other. -/
def lessOrEqual (a b : Cycle) : Bool := textsLessOrEqual a.packages b.packages

end Cycle

end CodeGraph
