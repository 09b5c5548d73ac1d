import CodeGraph.Names.MethodSet
import CodeGraph.Names.Signature

/-!
# Implementations of interfaces

* `Implementation` — a struct that has every method an interface asks for.
* `SymbolTable.implementations` — all implementations of a project, by interface and struct.
* `SymbolTable.flattenDegradations` — the interfaces for which there is no telling.
-/

namespace CodeGraph

/-- Something that could not be settled; the analysis goes on. -/
structure Degradation where
  package : String
  subject : String
  reason : String
  deriving DecidableEq, Repr, Inhabited

/-- A struct that has every method an interface asks for. -/
structure Implementation where
  interface : TypeId
  struct : TypeId
  /-- Whether only a pointer to the struct has all of them. -/
  pointer : Bool
  deriving DecidableEq, Repr, Inhabited

namespace Implementation

/-- Whether the methods of a struct cover those asked for, and if so whether that takes a
pointer. -/
def covers? (required : List MethodSignature) (provided : List MethodEntry) : Option Bool :=
  let entries := required.map fun m => (methodNamed? provided m.name).filter fun e =>
    signaturesMatch m e.signature
  if entries.all Option.isSome then
    some (entries.any fun e => (e.map MethodEntry.pointerOnly).getD false)
  else none

/-- The implementations of an interface whose methods are known; an interface that asks for none has
no implementations. -/
def ofInterface (structs : List (TypeId × List MethodEntry)) (interface : TypeId)
    (required : List MethodSignature) : List Implementation :=
  if required.isEmpty then []
  else structs.filterMap fun (struct, provided) =>
    (covers? required provided).map fun pointer => ⟨interface, struct, pointer⟩

end Implementation

/-- All structs with their methods. -/
def SymbolTable.methodSets (t : SymbolTable) : List (TypeId × List MethodEntry) :=
  t.structs.map fun k => (k, t.structMethods k)

/-- All implementations, by interface and struct. -/
def SymbolTable.implementations (t : SymbolTable) : List Implementation :=
  let sets := t.methodSets
  t.interfaces.flatMap fun interface =>
    match t.interfaceMethods interface with
    | .ok required => Implementation.ofInterface sets interface required
    | .error _ => []

/-- The interfaces without a flattened method set. -/
def SymbolTable.flattenDegradations (t : SymbolTable) : List Degradation :=
  t.interfaces.filterMap fun interface =>
    match t.interfaceMethods interface with
    | .ok _ => none
    | .error f => some ⟨interface.package, interface.name, f.message⟩

end CodeGraph
