import CodeGraph.Graph.Build

/-!
# The parts of a graph

* `Link` — a relationship between two drafts.
* `Directory` — which draft an import path, a file, a type or a function goes by.
* `Directory.drafts`, `Directory.links` — the nodes and relationships of a project and its report.
* `Directory.graph` — the graph of these, with identifiers.
-/

namespace CodeGraph

open Hash (Uuid)

/-- A relationship between two drafts. -/
structure Link where
  source : Draft
  target : Draft
  properties : RelationshipProperties
  deriving DecidableEq, Repr, Inhabited

/-- A draft belongs to another. -/
def Link.contains (owner child : Draft) : Link := ⟨owner, child, .contains⟩

/-- The relationship of a link at its place. -/
def Link.relationship (ids : Identities) (projectId : String) (now : Instant) (place : Nat)
    (l : Link) : GraphRelationship :=
  let source := ids.node l.source
  let target := ids.node l.target
  ⟨ids.relationship place source target l.properties, projectId, l.properties.label, source, target,
    l.properties, now⟩

/-- A project and its report, by the names of their parts. -/
structure Directory where
  projectId : String
  project : Project
  report : Report

namespace Directory

def root (d : Directory) : Draft := d.project.draft d.projectId

def slots (d : Directory) : List FileSlot := d.project.slots

/-! ### Look-ups -/

/-- The last package with an import path. -/
def package? (d : Directory) (path : String) : Option Draft :=
  (d.project.packages.zipIdx.reverse.find? (·.1.importPath = path)).map fun (k, i) => k.draft i

/-- The draft that the declarations of a file belong to: the last file with its path. -/
def fileOf (d : Directory) (s : FileSlot) : Draft :=
  ((d.slots.reverse.find? (·.file.path = s.file.path)).getD s).draft

/-- The first declaration of a type. -/
def type? (d : Directory) (id : TypeId) : Option Draft :=
  d.slots.findSome? fun s =>
    (s.types.find? fun (t, _) => s.typeId t = id).map fun (t, i) => s.typeDraft t i

/-- The types of a file that are not declared before. -/
def typesOf (d : Directory) (s : FileSlot) : List (TypeDecl × Nat) :=
  s.types.filter fun (t, i) => (d.type? (s.typeId t)).map Draft.site = some (.type s.p s.f i)

/-- The import paths that belong to no package, in the order of their first use. -/
def importPaths (d : Directory) : List String :=
  ((d.slots.flatMap fun s => s.file.imports.map (·.path)).filter fun path =>
    (d.package? path).isNone).eraseDups

/-- The draft of an import path that some file imports and that belongs to no package. -/
def import? (d : Directory) (path : String) : Option Draft :=
  if d.importPaths.contains path then some (importDraft path) else none

/-- Number of edges that leave a function for a place outside without a node. -/
def externalCalls (d : Directory) (f : FunctionId) : Nat :=
  d.report.calls.countP fun e => e.caller = f &&
    match e.target with
    | .external package _ => (d.import? package).isNone
    | _ => false

/-- Number of edges of a function whose targets were not found. -/
def unresolvedCalls (d : Directory) (f : FunctionId) : Nat :=
  d.report.calls.countP fun e => e.caller = f &&
    match e.target with
    | .unresolved _ _ => true
    | _ => false

def functionDraft (d : Directory) (s : FileSlot) (f : FunctionDecl) (place : Nat) : Draft :=
  let id := s.functionId f
  s.functionDraft f place (d.externalCalls id) (d.unresolvedCalls id)

/-- The first declaration of a function. -/
def function? (d : Directory) (id : FunctionId) : Option Draft :=
  d.slots.findSome? fun s =>
    (s.functions.find? fun (f, _) => s.functionId f = id).map fun (f, i) => d.functionDraft s f i

/-! ### Nodes -/

def packageDrafts (d : Directory) : List Draft :=
  d.project.packages.zipIdx.flatMap fun (k, i) =>
    k.draft i :: k.files.zipIdx.map fun (file, j) => FileSlot.draft ⟨i, j, k, file⟩

def typeDrafts (d : Directory) (s : FileSlot) : List Draft :=
  (d.typesOf s).flatMap fun (t, i) => s.typeDraft t i :: (s.fieldDrafts t i).map (·.2)

def functionDrafts (d : Directory) (s : FileSlot) : List Draft :=
  s.functions.map fun (f, i) => d.functionDraft s f i

/-- The nodes: the project, packages with their files, types with their fields and values file by
file, then functions, then imports. -/
def drafts (d : Directory) : List Draft :=
  d.root :: d.packageDrafts ++ (d.slots.flatMap fun s => d.typeDrafts s ++ s.valueDrafts) ++
    d.slots.flatMap d.functionDrafts ++ d.importPaths.map importDraft

/-! ### Relationships -/

def packageLinks (d : Directory) : List Link :=
  d.project.packages.zipIdx.flatMap fun (k, i) =>
    Link.contains d.root (k.draft i) ::
      k.files.zipIdx.map fun (file, j) => .contains (k.draft i) (FileSlot.draft ⟨i, j, k, file⟩)

def typeLinks (d : Directory) (s : FileSlot) : List Link :=
  (d.typesOf s).flatMap fun (t, i) =>
    Link.contains (d.fileOf s) (s.typeDraft t i) :: (s.fieldDrafts t i).flatMap fun (field, draft) =>
      [.contains (d.fileOf s) draft, ⟨s.typeDraft t i, draft, .hasField field.embedded⟩]

def valueLinks (d : Directory) (s : FileSlot) : List Link :=
  s.valueDrafts.map (.contains (d.fileOf s))

/-- A method also belongs to the type of its receiver. -/
def functionLinks (d : Directory) (s : FileSlot) : List Link :=
  s.functions.flatMap fun (f, i) =>
    let draft := d.functionDraft s f i
    let owner := if f.isMethod then d.type? ⟨s.package.importPath, f.receiver⟩ else none
    .contains (d.fileOf s) draft ::
      owner.toList.map fun type => ⟨type, draft, .hasMethod f.pointerReceiver⟩

/-- The imports of files; an import path belongs to the project from its first use on. -/
def importLinks (d : Directory) : (known : List String) → List (FileSlot × ImportDecl) → List Link
  | _, [] => []
  | known, (s, i) :: rest =>
    let link (target : Draft) : Link := ⟨d.fileOf s, target, .imports i.givenName i.line⟩
    match d.package? i.path with
    | some package => link package :: d.importLinks known rest
    | none =>
      let draft := importDraft i.path
      if known.contains i.path then link draft :: d.importLinks known rest
      else .contains d.root draft :: link draft :: d.importLinks (i.path :: known) rest

def dependencyLinks (d : Directory) : List Link :=
  d.report.dependencies.edges.filterMap fun e => do
    pure ⟨← d.package? e.source, ← d.package? e.target, .dependsOn e.weight e.inCycle⟩

def implementationLinks (d : Directory) : List Link :=
  d.report.implementations.filterMap fun i => do
    pure ⟨← d.type? i.struct, ← d.type? i.interface, .implements i.pointer⟩

/-- The calls of functions that have nodes; of the calls that leave a function for one import path
only the first is kept. -/
def callLinks (d : Directory) (ids : Identities) :
    (known : List (Uuid × Uuid)) → List CallEdge → List Link
  | _, [] => []
  | known, e :: rest =>
    let link (caller target : Draft) : Link :=
      ⟨caller, target, .calls e.kind e.line e.nameMatched⟩
    match d.function? e.caller, e.target with
    | some caller, .resolved f =>
      (d.function? f).toList.map (link caller) ++ d.callLinks ids known rest
    | some caller, .external package _ =>
      match d.import? package with
      | some target =>
        let ends := (ids.node caller, ids.node target)
        if known.contains ends then d.callLinks ids known rest
        else link caller target :: d.callLinks ids (ends :: known) rest
      | none => d.callLinks ids known rest
    | _, _ => d.callLinks ids known rest

/-- The relationships, stage by stage. -/
def links (d : Directory) (ids : Identities) : List Link :=
  d.packageLinks ++ (d.slots.flatMap fun s => d.typeLinks s ++ d.valueLinks s) ++
    d.slots.flatMap d.functionLinks ++
    d.importLinks [] (d.slots.flatMap fun s => s.file.imports.map fun i => (s, i)) ++
    d.dependencyLinks ++ d.implementationLinks ++ d.callLinks ids [] d.report.calls

/-- Number of edges without a target, of functions that have nodes. -/
def unresolvedCount (d : Directory) : Nat :=
  d.report.calls.countP fun e => (d.function? e.caller).isSome &&
    match e.target with
    | .unresolved _ _ => true
    | _ => false

/-! ### The graph -/

/-- The graph of a project and its report, written down at once. -/
def graph (d : Directory) (ids : Identities) (now : Instant) : Graph :=
  let drafts := d.drafts
  let links := d.links ids
  let count (label : NodeType) := drafts.countP (·.label = label)
  { projectId := d.projectId
    nodes := drafts.map (·.node ids d.projectId now)
    relationships := links.zipIdx.map fun (l, i) => l.relationship ids d.projectId now i
    summary :=
      { files := count .file
        packages := count .package
        functions := count .function
        methods := count .method
        structs := count .struct
        interfaces := count .interface
        externalImports := count .importPath
        implementations := links.countP (·.properties.label = .implements)
        resolvedCalls := d.report.calls.countP (·.target.function?.isSome)
        unresolvedCalls := d.unresolvedCount
        cycles := d.report.cycles.length
        parseErrors := d.project.issues.length }
    analyzedAt := now }

end Directory

end CodeGraph
