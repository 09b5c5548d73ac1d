import CodeGraph.Graph.Basic
import CodeGraph.Names.Basic
import CodeGraph.Project.Basic

/-!
# Drafts of nodes

* `Site` — what a node of a graph stands for, as a place within the project.
* `Draft` — a node without its identifier.
* `FileSlot` — a file with its place; the drafts of its declarations are read off it.
-/

namespace CodeGraph

/-- What a node stands for; packages, files and declarations are counted from zero. -/
inductive Site where
  | project
  | package (p : Nat)
  | file (p f : Nat)
  | type (p f t : Nat)
  | field (p f t i : Nat)
  | value (p f v : Nat)
  | function (p f n : Nat)
  | importPath (path : String)
  deriving DecidableEq, Repr, Inhabited

/-- The words of a site. -/
def Site.text : Site → String
  | project => "project"
  | package p => joined "package" [p]
  | file p f => joined "file" [p, f]
  | type p f t => joined "type" [p, f, t]
  | field p f t i => joined "field" [p, f, t, i]
  | value p f v => joined "value" [p, f, v]
  | function p f n => joined "function" [p, f, n]
  | importPath path => "import " ++ path
where
  joined (kind : String) (places : List Nat) : String :=
    " ".intercalate (kind :: places.map toString)

/-- A node without its identifier. -/
structure Draft where
  site : Site
  label : NodeType
  qualifiedName : String
  name : String
  path : Option String
  line : Nat
  properties : NodeProperties
  deriving DecidableEq, Repr, Inhabited

/-- What tells a node from others of the same project by its content. -/
def Draft.key (d : Draft) : String :=
  "\x00".intercalate [d.label.word, d.qualifiedName, d.path.getD "", toString d.line]

/-! ### Projects, packages and imports -/

/-- The draft of the project itself. -/
def Project.draft (p : Project) (projectId : String) : Draft :=
  ⟨.project, .project, projectId, projectId, some p.root, 0,
    .project p.root p.modulePath p.issues.length⟩

/-- The draft of a package with its place; the folder of the root is written as a point. -/
def Package.draft (k : Package) (place : Nat) : Draft :=
  ⟨.package place, .package, k.importPath, k.name, some (if k.folder = "" then "." else k.folder), 0,
    .package k.importPath k.name k.folder k.files.length⟩

/-- Whether an import path is one of the standard library: its first part has no point. -/
def inStandardLibrary (path : String) : Bool :=
  !(path.toList.takeWhile (· ≠ '/')).contains '.'

/-- The draft of an import path that belongs to no package of the project. -/
def importDraft (path : String) : Draft :=
  ⟨.importPath path, .importPath, path, path, none, 0, .importPath path (inStandardLibrary path)⟩

/-! ### Files and their declarations -/

/-- A file with its package, and the places of both. -/
structure FileSlot where
  p : Nat
  f : Nat
  package : Package
  file : SourceFile
  deriving Inhabited

namespace FileSlot

def draft (s : FileSlot) : Draft :=
  ⟨.file s.p s.f, .file, s.file.path, lastPart '/' s.file.path, some s.file.path, 0,
    .file s.package.importPath s.file.contentHash s.file.lineCount⟩

/-- The types of a file with their places. -/
def types (s : FileSlot) : List (TypeDecl × Nat) := s.file.types.zipIdx

def typeId (s : FileSlot) (t : TypeDecl) : TypeId := ⟨s.package.importPath, t.name⟩

def typeDraft (s : FileSlot) (t : TypeDecl) (place : Nat) : Draft :=
  ⟨.type s.p s.f place,
    match t.form with
    | .struct => .struct
    | .interface => .interface,
    (s.typeId t).text, t.name, some s.file.path, t.span.first,
    .type ⟨s.package.importPath, s.file.path, t.visibility, t.span, t.fields.length,
      t.methods.map MethodSignature.text, t.embeds⟩⟩

/-- The drafts of the fields of a type, each with the field. -/
def fieldDrafts (s : FileSlot) (t : TypeDecl) (place : Nat) : List (FieldDecl × Draft) :=
  t.fields.zipIdx.map fun (d, i) =>
    (d, ⟨.field s.p s.f place i, .field, (s.typeId t).text ++ "." ++ d.name, d.name,
      some s.file.path, d.line,
      .field s.package.importPath t.name d.typeName d.visibility d.embedded d.line⟩)

def valueDrafts (s : FileSlot) : List Draft :=
  s.file.values.zipIdx.map fun (v, i) =>
    ⟨.value s.p s.f i,
      match v.form with
      | .constant => .constant
      | .variable => .variable,
      s.package.importPath ++ "." ++ v.name, v.name, some s.file.path, v.line,
      .value ⟨s.package.importPath, s.file.path, v.typeName, v.visibility, v.line⟩⟩

/-- The functions of a file with their places. -/
def functions (s : FileSlot) : List (FunctionDecl × Nat) := s.file.functions.zipIdx

def functionId (s : FileSlot) (d : FunctionDecl) : FunctionId :=
  .ofDecl s.package.importPath d

/-- The draft of a function with the numbers of its calls that lead to no node. -/
def functionDraft (s : FileSlot) (d : FunctionDecl) (place externalCalls unresolvedCalls : Nat) :
    Draft :=
  ⟨.function s.p s.f place, if d.isMethod then .method else .function,
    (s.functionId d).text, d.name, some s.file.path, d.span.first,
    .function ⟨s.package.importPath, s.file.path, if d.isMethod then some d.receiver else none,
      d.pointerReceiver, d.signature, d.visibility, d.span, d.complexity, externalCalls,
      unresolvedCalls⟩⟩

end FileSlot

/-- All files of a project with their places. -/
def Project.slots (p : Project) : List FileSlot :=
  p.packages.zipIdx.flatMap fun (package, i) =>
    package.files.zipIdx.map fun (file, j) => ⟨i, j, package, file⟩

end CodeGraph
