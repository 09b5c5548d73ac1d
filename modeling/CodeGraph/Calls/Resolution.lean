import CodeGraph.Calls.Edge
import CodeGraph.Names.Implementation

/-!
# Resolution of calls

* `Resolver.resolve` — the targets of a call site: of a call by name, of a method on a known or an
  unknown receiver, of a call through an interface.
* `UnresolvedReason.message` — why a target could not be found, in words.
* `resolveCalls` — the call edges of a project.
-/

namespace CodeGraph

/-- Why the target of a call is not known. -/
inductive UnresolvedReason where
  | functionValue
  | noFunction (name package : String)
  | noMethod (type : TypeId) (name : String)
  | unknownReceiver (type : TypeId)
  | dispatchOff (interface : TypeId)
  | noImplementation (interface : TypeId) (name : String)
  | receiverUnknown
  | ambiguous (name : String) (candidates : Nat)
  deriving DecidableEq, Repr

def UnresolvedReason.message : UnresolvedReason → String
  | .functionValue => "call through a function value"
  | .noFunction name package => "no function " ++ name ++ " in " ++ package
  | .noMethod type name => type.text ++ " has no method " ++ name
  | .unknownReceiver type => "unknown receiver type " ++ type.text
  | .dispatchOff interface => "dispatch through " ++ interface.text ++ " not resolved"
  | .noImplementation interface name =>
    "no implementation of " ++ interface.text ++ " provides " ++ name
  | .receiverUnknown => "receiver type unknown"
  | .ambiguous name candidates =>
    "ambiguous method " ++ name ++ " (" ++ toString candidates ++ " candidates)"

/-- The functions that every package has. -/
def builtinFunctions : List String :=
  ["append", "cap", "clear", "close", "complex", "copy", "delete", "imag", "len", "make", "max",
   "min", "new", "panic", "print", "println", "real", "recover"]

/-- The types that every package has. -/
def builtinTypes : List String :=
  ["any", "bool", "byte", "complex64", "complex128", "error", "float32", "float64", "int", "int8",
   "int16", "int32", "int64", "rune", "string", "uint", "uint8", "uint16", "uint32", "uint64",
   "uintptr"]

/-- One target of a call site. -/
structure Resolution where
  target : CallTarget
  kind : CallKind
  nameMatched : Bool
  deriving DecidableEq, Repr

namespace Resolution

/-- A target found with certainty. -/
def found (target : CallTarget) (kind : CallKind) : Resolution := ⟨target, kind, false⟩

/-- A target that could not be found. -/
def missing (name : String) (reason : UnresolvedReason) (kind : CallKind) : Resolution :=
  ⟨.unresolved name reason.message, kind, false⟩

end Resolution

/-- All that call sites are resolved against. -/
structure Resolver where
  symbols : SymbolTable
  implementations : List Implementation
  /-- Whether calls through interfaces lead to the implementations. -/
  dispatch : Bool

namespace Resolver

/-- A call by name, of the same package or of another one.  A conversion leads nowhere. -/
def direct (r : Resolver) (package : String) (site : CallSite) : List Resolution :=
  let name := site.callee
  let owner := site.qualifier.getD package
  match r.symbols.package? owner with
  | none =>
    if site.qualifier.isSome then [.found (.external owner name) .direct] else []
  | some p =>
    if (p.function? name).isSome then [.found (.resolved ⟨owner, none, name⟩) .direct]
    else if (p.type? name).isSome then []
    else if site.qualifier.isNone && builtinTypes.contains name then []
    else if site.qualifier.isNone && builtinFunctions.contains name then
      [.found (.external "builtin" name) .direct]
    else [.missing name (.noFunction name owner) .direct]

/-- The functions that implementations of an interface have for a method. -/
def dispatchTargets (r : Resolver) (interface : TypeId) (method : String) : List FunctionId :=
  sortedDistinct ((r.implementations.filter (·.interface = interface)).filterMap fun i =>
    (methodNamed? (r.symbols.structMethods i.struct) method).bind (·.function))

/-- A call of a method through an interface. -/
def throughInterface (r : Resolver) (interface : TypeId) (method : String) : List Resolution :=
  if !r.dispatch then [.missing method (.dispatchOff interface) .interfaceDispatch]
  else
    match r.dispatchTargets interface method with
    | [] => [.missing method (.noImplementation interface method) .interfaceDispatch]
    | targets => targets.map fun f => .found (.resolved f) .interfaceDispatch

/-- A call of a method on a receiver whose type is known. -/
def typedMethod (r : Resolver) (owner receiver method : String) : List Resolution :=
  let type : TypeId := ⟨owner, receiver⟩
  match r.symbols.package? owner with
  | none => [.found (.external owner (receiver ++ "." ++ method)) .method]
  | some p =>
    if (p.interface? receiver).isSome then r.throughInterface type method
    else if (p.struct? receiver).isSome then
      match (methodNamed? (r.symbols.structMethods type) method).bind (·.function) with
      | some f => [.found (.resolved f) .method]
      | none => [.missing method (.noMethod type method) .method]
    else if (p.method? receiver method).isSome then
      [.found (.resolved ⟨owner, some receiver, method⟩) .method]
    else [.missing method (.unknownReceiver type) .method]

/-- All methods of a name, in their order. -/
def methodsNamed (t : SymbolTable) (name : String) : List FunctionId :=
  sortedDistinct (t.packages.flatMap fun p =>
    (p.functions.filter fun f => f.isMethod && f.name = name).map
      (FunctionId.ofDecl p.importPath))

/-- A call of a method on a receiver whose type is unknown: the only method of that name in the
caller's package, or the only one at all if the package has none. -/
def byName (r : Resolver) (package method : String) : Resolution :=
  let candidates := methodsNamed r.symbols method
  match candidates.filter (·.package = package), candidates with
  | [f], _ => ⟨.resolved f, .method, true⟩
  | [], [f] => ⟨.resolved f, .method, true⟩
  | _, [] => .missing method .receiverUnknown .method
  | _, _ => .missing method (.ambiguous method candidates.length) .method

/-- The targets of a call site in a package. -/
def resolve (r : Resolver) (package : String) (site : CallSite) : List Resolution :=
  match site.kind, site.receiverType with
  | .direct, _ => r.direct package site
  | .dynamic, _ => [.missing site.callee .functionValue .dynamic]
  | _, some receiver => r.typedMethod (site.qualifier.getD package) receiver site.callee
  | _, none => [r.byName package site.callee]

/-- The edges of one function, call by call. -/
def edgesOf (r : Resolver) (package : String) (f : FunctionDecl) : List CallEdge :=
  f.calls.flatMap fun site => (r.resolve package site).map fun x =>
    ⟨FunctionId.ofDecl package f, x.target, x.kind, x.nameMatched, site.line⟩

end Resolver

/-- The call edges of packages: one for every caller, target and kind, made from the first call. -/
def resolveCalls (r : Resolver) (packages : List Package) : List CallEdge :=
  firstOfEach CallEdge.key (sortedBy CallEdge.key
    (packages.flatMap fun p => p.functions.flatMap (r.edgesOf p.importPath)))

end CodeGraph
