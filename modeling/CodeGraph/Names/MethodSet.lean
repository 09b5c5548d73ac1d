import CodeGraph.Names.SymbolTable

/-!
# Method sets

* `SymbolTable.interfaceMethods` — the methods an interface asks for, those of embedded interfaces
  included, or why there is no such set (`FlattenFault.message`).
* `SymbolTable.structMethods` — the methods a pointer to a struct has, those promoted from embedded
  fields included.
* In both, what is declared directly wins over what is embedded, and an earlier embedding over a
  later one.
-/

namespace CodeGraph

/-- A list of named things, at most one of each name. -/
def addMissing (name : α → String) (as bs : List α) : List α :=
  as ++ bs.filter fun b => !as.any fun a => name a == name b

/-- Why an interface has no flattened method set. -/
inductive FlattenFault where
  | unknown (k : TypeId)
  | embedsItself (k : TypeId)
  | unresolved (written : String)
  deriving DecidableEq, Repr

def FlattenFault.message : FlattenFault → String
  | .unknown k => "unknown interface " ++ k.text
  | .embedsItself k => "interface " ++ k.text ++ " embeds itself"
  | .unresolved written => "embeds unresolved interface " ++ written

/-- The method of the predeclared interface `error`. -/
def errorMethod : MethodSignature := ⟨"Error", [], ["string"]⟩

/-- Methods by name; of several declarations of one name the last counts. -/
def lastOfEach (ms : List MethodSignature) : List MethodSignature :=
  (addMissing MethodSignature.name [] (firstOfEach MethodSignature.name
    (sortedBy MethodSignature.name ms.reverse)))

namespace SymbolTable

/-- The methods of an interface, given the interfaces whose embedding led here; `fuel` bounds their
number. -/
def flatten (t : SymbolTable) :
    (fuel : Nat) → (above : List TypeId) → TypeId → Except FlattenFault (List MethodSignature)
  | 0, _, k => .error (.unknown k)
  | fuel + 1, above, k =>
    match t.interface? k with
    | none => .error (.unknown k)
    | some (decl, file) =>
      if above.contains k then .error (.embedsItself k)
      else decl.embeds.foldlM (fun found embed =>
        if embed = "error" then .ok (addMissing MethodSignature.name found [errorMethod])
        else
          match t.resolve? k.package file embed with
          | none => .error (.unresolved embed)
          | some inner =>
            (flatten t fuel (k :: above) inner).map (addMissing MethodSignature.name found))
        (lastOfEach decl.methods)

/-- The methods an interface asks for, by name. -/
def interfaceMethods (t : SymbolTable) (k : TypeId) :
    Except FlattenFault (List MethodSignature) :=
  (flatten t (t.interfaces.length + 2) [] k).map (sortedBy MethodSignature.name)

end SymbolTable

/-- A method that a struct has. -/
structure MethodEntry where
  /-- Where it is declared; nothing if it comes from an embedded interface. -/
  function : Option FunctionId
  signature : MethodSignature
  /-- Whether only a pointer to the struct has it. -/
  pointerOnly : Bool
  deriving DecidableEq, Repr, Inhabited

def MethodEntry.name (e : MethodEntry) : String := e.signature.name

namespace SymbolTable

/-- The methods that are declared on a type itself. -/
def ownMethods (p : Package) (k : TypeId) : List MethodEntry :=
  let names := sortedDistinct
    ((p.functions.filter fun f => f.isMethod && f.receiver = k.name).map (·.name))
  names.filterMap fun name => (p.method? k.name name).map fun f =>
    ⟨some ⟨k.package, some k.name, name⟩, ⟨name, f.params, f.results⟩, f.pointerReceiver⟩

/-- A method promoted from an interface. -/
def entryOfInterface (m : MethodSignature) : MethodEntry := ⟨none, m, false⟩

/-- A method promoted through a field: by way of a pointer the value has it too. -/
def promote (field : FieldDecl) (e : MethodEntry) : MethodEntry :=
  if field.typeName.toList.head? = some '*' then { e with pointerOnly := false } else e

/-- The methods of a type, given the types whose embedding led here; `fuel` bounds their number. -/
def gather (t : SymbolTable) :
    (fuel : Nat) → (above : List TypeId) → TypeId → List MethodEntry
  | 0, _, _ => []
  | fuel + 1, above, k =>
    match t.package? k.package with
    | none => []
    | some p =>
      if above.contains k then []
      else
        match p.struct? k.name with
        | none => ownMethods p k
        | some (decl, file) =>
          (decl.fields.filter (·.embedded)).foldl (fun found field =>
            let promoted :=
              match t.resolve? k.package file field.typeName with
              | none => []
              | some inner =>
                if (t.struct? inner).isSome then gather t fuel (k :: above) inner
                else
                  match t.interfaceMethods inner with
                  | .ok ms => ms.map entryOfInterface
                  | .error _ => []
            addMissing MethodEntry.name found (promoted.map (promote field)))
            (ownMethods p k)

/-- The methods that a pointer to a struct has, by name. -/
def structMethods (t : SymbolTable) (k : TypeId) : List MethodEntry :=
  sortedBy MethodEntry.name (gather t (t.structs.length + 2) [] k)

end SymbolTable

/-- The entry of a name. -/
def methodNamed? (methods : List MethodEntry) (name : String) : Option MethodEntry :=
  methods.find? (·.name = name)

end CodeGraph
