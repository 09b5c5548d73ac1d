import CodeGraph.Names.Order
import CodeGraph.Source.Declaration

/-!
# Names across packages

* `TypeId` — a named type with the import path of its package.
* `FunctionId` — a function or method with the import path of its package.
* Both are ordered by their parts, and written as `package.name` and `package.(receiver).name`.
-/

namespace CodeGraph

/-- A named type with the import path of its package. -/
structure TypeId where
  package : String
  name : String
  deriving DecidableEq, Repr, Inhabited

namespace TypeId

def text (t : TypeId) : String := t.package ++ "." ++ t.name

instance : Ord TypeId where
  compare a b := (compare a.package b.package).then (compare a.name b.name)

end TypeId

/-- A function, or a method with the name of its receiver's type. -/
structure FunctionId where
  package : String
  receiver : Option String
  name : String
  deriving DecidableEq, Repr, Inhabited

namespace FunctionId

def text (f : FunctionId) : String :=
  match f.receiver with
  | some r => f.package ++ ".(" ++ r ++ ")." ++ f.name
  | none => f.package ++ "." ++ f.name

/-- By package, then functions before methods, then by receiver and name. -/
instance : Ord FunctionId where
  compare a b :=
    (compare a.package b.package).then
      ((compare a.receiver b.receiver).then (compare a.name b.name))

/-- The name of a declaration of a package. -/
def ofDecl (package : String) (f : FunctionDecl) : FunctionId :=
  ⟨package, if f.isMethod then some f.receiver else none, f.name⟩

end FunctionId

end CodeGraph
