import CodeGraph.Names.Basic

/-!
# Calls between functions

* `CallTarget` — a function of the project, one from outside, or one that could not be found.
* `CallEdge` — a caller, what it calls and how; the line is that of the first such call.
-/

namespace CodeGraph

/-- What a call leads to. -/
inductive CallTarget where
  | resolved (function : FunctionId)
  | external (package name : String)
  | unresolved (name reason : String)
  deriving DecidableEq, Repr, Inhabited

namespace CallTarget

/-- The position of a target's case in the order of targets. -/
def rank : CallTarget → Nat
  | resolved _ => 0
  | external _ _ => 1
  | unresolved _ _ => 2

/-- The parts of a target after its case, as a name. -/
def key : CallTarget → FunctionId
  | resolved f => f
  | external package name => ⟨package, none, name⟩
  | unresolved name reason => ⟨name, none, reason⟩

/-- By case and then by the parts. -/
instance : Ord CallTarget where
  compare a b := (compare a.rank b.rank).then (compare a.key b.key)

/-- The function of the project that a call leads to. -/
def function? : CallTarget → Option FunctionId
  | resolved f => some f
  | _ => none

end CallTarget

/-- What tells call edges apart. -/
structure CallKey where
  caller : FunctionId
  target : CallTarget
  kind : CallKind
  deriving DecidableEq, Repr, Inhabited

instance : Ord CallKey where
  compare a b :=
    (compare a.caller b.caller).then
      ((compare a.target b.target).then (compare a.kind.rank b.kind.rank))

/-- All calls of one function that lead to the same target in the same way. -/
structure CallEdge where
  caller : FunctionId
  target : CallTarget
  kind : CallKind
  /-- Whether the target was found by its name alone, the receiver's type being unknown. -/
  nameMatched : Bool
  /-- The line of the first of the calls. -/
  line : Nat
  deriving DecidableEq, Repr, Inhabited

def CallEdge.key (e : CallEdge) : CallKey := ⟨e.caller, e.target, e.kind⟩

end CodeGraph
