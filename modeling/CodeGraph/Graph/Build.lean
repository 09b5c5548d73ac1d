import CodeGraph.Graph.Identity
import CodeGraph.Report.Basic

/-!
# Building the graph of a project

* `NodeIndex` — the identifiers that later passes look up, by the names of what they stand for.
* `BuildState` — the nodes and relationships made so far, and what was noted on the way.
* `Builder` — what every pass goes by; its passes add nodes and relationships to a state.
* `Graph.ofReport` — the graph that all passes make, one after the other.
-/

namespace CodeGraph

open Hash (Uuid)

/-- The node of a draft. -/
def Draft.node (ids : Identities) (projectId : String) (now : Instant) (d : Draft) : GraphNode :=
  ⟨ids.node d, projectId, d.label, d.name, d.path, d.properties, now⟩

/-! ### States -/

/-- Note a value under a key that has none yet. -/
def insertNew [BEq κ] (known : List (κ × β)) (key : κ) (value : β) : List (κ × β) :=
  if (known.lookup key).isSome then known else (key, value) :: known

/-- Identifiers by the names of what the nodes stand for.  An entry hides those behind it. -/
structure NodeIndex where
  packages : List (String × Uuid)
  files : List (String × Uuid)
  types : List (TypeId × Uuid)
  functions : List (FunctionId × Uuid)
  imports : List (String × Uuid)
  deriving Inhabited

/-- A graph under construction. -/
structure BuildState extends NodeIndex where
  nodes : Array GraphNode
  relationships : Array GraphRelationship
  project : Uuid
  /-- The callers that are linked to an import path, each with the node of the path. -/
  importCalls : List (Uuid × Uuid)
  unresolvedCalls : Nat
  deriving Inhabited

namespace BuildState

def empty : BuildState := ⟨⟨[], [], [], [], []⟩, #[], #[], Uuid.nil, [], 0⟩

/-- Go through the files of a project, each with its node, which has to be found. -/
def overFiles (s : BuildState) (p : Project) (visit : BuildState → FileSlot → Uuid → BuildState) :
    Option BuildState :=
  p.slots.foldlM (fun s slot => (s.files.lookup slot.file.path).map (visit s slot)) s

/-- Number of nodes with a label. -/
def count (s : BuildState) (label : NodeType) : Nat := s.nodes.countP (·.label = label)

/-- What a call leads to, if it is to be linked.  Of the calls that leave a function for one import
path only the first is, and a call whose target was not found is counted. -/
def callTarget (s : BuildState) (caller : Uuid) : CallTarget → Option Uuid × BuildState
  | .resolved f => (s.functions.lookup f, s)
  | .external package _ =>
    match s.imports.lookup package with
    | some id =>
      if s.importCalls.contains (caller, id) then (none, s)
      else (some id, { s with importCalls := (caller, id) :: s.importCalls })
    | none => (none, s)
  | .unresolved _ _ => (none, { s with unresolvedCalls := s.unresolvedCalls + 1 })

/-- The figures of a graph, its project and its report. -/
def summary (s : BuildState) (p : Project) (r : Report) : Summary :=
  { files := s.count .file
    packages := s.count .package
    functions := s.count .function
    methods := s.count .method
    structs := s.count .struct
    interfaces := s.count .interface
    externalImports := s.count .importPath
    implementations := s.relationships.countP (·.label = .implements)
    resolvedCalls := r.calls.countP (·.target.function?.isSome)
    unresolvedCalls := s.unresolvedCalls
    cycles := r.cycles.length
    parseErrors := p.issues.length }

end BuildState

/-! ### Passes -/

/-- What every pass goes by. -/
structure Builder where
  ids : Identities
  now : Instant
  projectId : String
  /-- The import paths that belong to no package of the project. -/
  external : List String

namespace Builder

/-- A builder for a project; the import paths of all files are looked through first. -/
def ofProject (ids : Identities) (now : Instant) (projectId : String) (p : Project) : Builder :=
  let internal := p.packages.map (·.importPath)
  let imported := (p.packages.flatMap (·.files)).flatMap (·.imports)
  ⟨ids, now, projectId, (imported.map (·.path)).filter fun path => !internal.contains path⟩

section

variable (b : Builder) (s : BuildState)

/-- Add a node; its identifier is handed on. -/
def addNode (x : Draft) : Uuid × BuildState :=
  let node := x.node b.ids b.projectId b.now
  (node.id, { s with nodes := s.nodes.push node })

/-- Add a relationship; its place is the number of those before it. -/
def relate (source target : Uuid) (p : RelationshipProperties) : BuildState :=
  let id := b.ids.relationship s.relationships.size source target p
  { s with relationships :=
      s.relationships.push ⟨id, b.projectId, p.label, source, target, p, b.now⟩ }

def contain (owner child : Uuid) : BuildState := b.relate s owner child .contains

/-! #### The project, packages and files -/

def addProject (p : Project) : BuildState :=
  let (id, s) := b.addNode s (p.draft b.projectId)
  { s with project := id }

/-- A file hides those before it that have its path. -/
def addFile (package : Uuid) (slot : FileSlot) : BuildState :=
  let (id, s) := b.addNode s slot.draft
  let s := b.contain s package id
  { s with files := (slot.file.path, id) :: s.files }

/-- A package hides those before it that have its import path. -/
def addPackage (k : Package) (place : Nat) : BuildState :=
  let (id, s) := b.addNode s (k.draft place)
  let s := b.contain s s.project id
  let s := { s with packages := (k.importPath, id) :: s.packages }
  k.files.zipIdx.foldl (fun s (file, i) => b.addFile s id ⟨place, i, k, file⟩) s

def addPackages (p : Project) : BuildState :=
  p.packages.zipIdx.foldl (fun s (k, i) => b.addPackage s k i) s

/-! #### Types and values -/

def addField (file type : Uuid) (field : FieldDecl) (x : Draft) : BuildState :=
  let (id, s) := b.addNode s x
  let s := b.contain s file id
  b.relate s type id (.hasField field.embedded)

/-- Add a type with its fields, unless there is one of its name. -/
def addType (slot : FileSlot) (file : Uuid) (t : TypeDecl) (place : Nat) : BuildState :=
  let key := slot.typeId t
  if (s.types.lookup key).isSome then s
  else
    let (id, s) := b.addNode s (slot.typeDraft t place)
    let s := b.contain s file id
    let s := { s with types := (key, id) :: s.types }
    (slot.fieldDrafts t place).foldl (fun s (field, x) => b.addField s file id field x) s

def addValue (file : Uuid) (x : Draft) : BuildState :=
  let (id, s) := b.addNode s x
  b.contain s file id

/-- Add the types of a file, then its constants and variables. -/
def addTypesAndValues (slot : FileSlot) (file : Uuid) : BuildState :=
  let s := slot.types.foldl (fun s (t, i) => b.addType s slot file t i) s
  slot.valueDrafts.foldl (fun s x => b.addValue s file x) s

/-! #### Functions -/

/-- Count a call that leads to no node, for its caller: one that leaves the project, or one whose
target was not found. -/
def countCall (counters : List (FunctionId × Nat × Nat)) (e : CallEdge) :
    List (FunctionId × Nat × Nat) :=
  let (outside, notFound) := (counters.lookup e.caller).getD (0, 0)
  match e.target with
  | .external package _ =>
    if b.external.contains package then counters else (e.caller, outside + 1, notFound) :: counters
  | .unresolved _ _ => (e.caller, outside, notFound + 1) :: counters
  | .resolved _ => counters

/-- Add a function; a method also belongs to the type of its receiver. -/
def addFunction (counters : List (FunctionId × Nat × Nat)) (slot : FileSlot) (file : Uuid)
    (f : FunctionDecl) (place : Nat) : BuildState :=
  let key := slot.functionId f
  let (outside, notFound) := (counters.lookup key).getD (0, 0)
  let (id, s) := b.addNode s (slot.functionDraft f place outside notFound)
  let s := b.contain s file id
  let s := { s with functions := insertNew s.functions key id }
  let owner := if f.isMethod then s.types.lookup ⟨slot.package.importPath, f.receiver⟩ else none
  match owner with
  | some type => b.relate s type id (.hasMethod f.pointerReceiver)
  | none => s

/-- Add the functions and methods of a file. -/
def addFunctions (counters : List (FunctionId × Nat × Nat)) (slot : FileSlot) (file : Uuid) :
    BuildState :=
  slot.functions.foldl (fun s (f, i) => b.addFunction s counters slot file f i) s

/-! #### Imports -/

/-- The node of an import path that belongs to no package, made at its first use. -/
def importNode (path : String) : Uuid × BuildState :=
  match s.imports.lookup path with
  | some id => (id, s)
  | none =>
    let (id, s) := b.addNode s (importDraft path)
    let s := b.contain s s.project id
    (id, { s with imports := (path, id) :: s.imports })

def addImport (file : Uuid) (i : ImportDecl) : BuildState :=
  let (target, s) :=
    match s.packages.lookup i.path with
    | some package => (package, s)
    | none => b.importNode s i.path
  b.relate s file target (.imports i.givenName i.line)

/-- Add the imports of a file. -/
def addImports (slot : FileSlot) (file : Uuid) : BuildState :=
  slot.file.imports.foldl (fun s i => b.addImport s file i) s

/-! #### Dependencies, implementations and calls -/

def addDependency (e : Dependency) : BuildState :=
  match s.packages.lookup e.source, s.packages.lookup e.target with
  | some source, some target => b.relate s source target (.dependsOn e.weight e.inCycle)
  | _, _ => s

def addImplementation (i : Implementation) : BuildState :=
  match s.types.lookup i.struct, s.types.lookup i.interface with
  | some struct, some interface => b.relate s struct interface (.implements i.pointer)
  | _, _ => s

def addCall (e : CallEdge) : BuildState :=
  match s.functions.lookup e.caller with
  | some caller =>
    match s.callTarget caller e.target with
    | (some target, s) => b.relate s caller target (.calls e.kind e.line e.nameMatched)
    | (none, s) => s
  | none => s

end

/-- All passes over a project and its report, unless a file is not found. -/
def build (b : Builder) (p : Project) (r : Report) : Option BuildState := do
  let s := b.addProject .empty p
  let s := b.addPackages s p
  let s ← s.overFiles p b.addTypesAndValues
  let counters := r.calls.foldl b.countCall []
  let s ← s.overFiles p fun s => b.addFunctions s counters
  let s ← s.overFiles p b.addImports
  let s := r.dependencies.edges.foldl b.addDependency s
  let s := r.implementations.foldl b.addImplementation s
  pure (r.calls.foldl b.addCall s)

end Builder

/-- The graph of a project and its report. -/
def Graph.ofReport (ids : Identities) (now : Instant) (projectId : String) (p : Project)
    (r : Report) : Graph :=
  match (Builder.ofProject ids now projectId p).build p r with
  | some s =>
    { projectId
      nodes := s.nodes.toList
      relationships := s.relationships.toList
      summary := s.summary p r
      analyzedAt := now }
  | none => default

end CodeGraph
