import CodeGraph.Names.Basic
import CodeGraph.Project.Basic

/-!
# The symbol table of a project

* `Package.function?`, `Package.method?`, `Package.type?` — what a package declares under a name; of
  several declarations of one name the first counts.
* `SymbolTable.package?` — the package behind an import path; of several the last counts.
* `SymbolTable.resolve?` — the type that a type expression in a file is about.
* `SymbolTable.structs`, `SymbolTable.interfaces` — all types of a form, in their order.
-/

namespace CodeGraph

namespace Package

/-- All functions and methods, file by file. -/
def functions (p : Package) : List FunctionDecl := p.files.flatMap (·.functions)

/-- All types, each with its file. -/
def types (p : Package) : List (TypeDecl × SourceFile) :=
  p.files.flatMap fun f => f.types.map fun t => (t, f)

/-- The function of a name. -/
def function? (p : Package) (name : String) : Option FunctionDecl :=
  p.functions.find? fun f => !f.isMethod && f.name = name

/-- The method of a receiver and a name. -/
def method? (p : Package) (receiver name : String) : Option FunctionDecl :=
  p.functions.find? fun f => f.isMethod && f.receiver = receiver && f.name = name

/-- The type of a name, with its file. -/
def type? (p : Package) (name : String) : Option (TypeDecl × SourceFile) :=
  p.types.find? (·.1.name = name)

/-- The type of a name if it has a form. -/
def typeOfForm? (form : TypeForm) (p : Package) (name : String) :
    Option (TypeDecl × SourceFile) :=
  (p.type? name).filter (·.1.form = form)

def struct? : Package → String → Option (TypeDecl × SourceFile) := typeOfForm? .struct
def interface? : Package → String → Option (TypeDecl × SourceFile) := typeOfForm? .interface

/-- The names of the types of a form, in their order. -/
def namesOfForm (p : Package) (form : TypeForm) : List String :=
  sortedDistinct ((p.types.map (·.1.name)).filter fun n => (p.typeOfForm? form n).isSome)

end Package

/-- What a project declares, package by package. -/
structure SymbolTable where
  /-- One package for every import path, in the order of the paths. -/
  packages : List Package
  deriving Inhabited

namespace SymbolTable

/-- The symbol table of packages; of several with one import path the last counts. -/
def ofPackages (ps : List Package) : SymbolTable :=
  ⟨firstOfEach Package.importPath (sortedBy Package.importPath ps.reverse)⟩

def ofProject (p : Project) : SymbolTable := ofPackages p.packages

/-- The package behind an import path. -/
def package? (t : SymbolTable) (path : String) : Option Package :=
  t.packages.find? (·.importPath = path)

def containsPackage (t : SymbolTable) (path : String) : Bool := (t.package? path).isSome

/-- All types of a form, in their order. -/
def typesOfForm (t : SymbolTable) (form : TypeForm) : List TypeId :=
  t.packages.flatMap fun p => (p.namesOfForm form).map fun n => ⟨p.importPath, n⟩

def structs (t : SymbolTable) : List TypeId := t.typesOfForm .struct
def interfaces (t : SymbolTable) : List TypeId := t.typesOfForm .interface

def struct? (t : SymbolTable) (k : TypeId) : Option (TypeDecl × SourceFile) :=
  (t.package? k.package).bind (·.struct? k.name)

def interface? (t : SymbolTable) (k : TypeId) : Option (TypeDecl × SourceFile) :=
  (t.package? k.package).bind (·.interface? k.name)

/-- A type expression without leading stars and without type arguments. -/
def bareTypeText (written : String) : List Char :=
  (written.toList.dropWhile (· = '*')).takeWhile (· ≠ '[')

/-- The type that a type expression is about: one of the file's package, or one of a package that
the file imports. -/
def resolve? (t : SymbolTable) (package : String) (file : SourceFile) (written : String) :
    Option TypeId := do
  let bare := bareTypeText written
  let before := bare.takeWhile (· ≠ '.')
  match bare.drop before.length with
  | [] =>
    let name := String.ofList bare
    let p ← t.package? package
    let _ ← p.type? name
    pure ⟨package, name⟩
  | _ :: after =>
    let qualifier := String.ofList before
    let name := String.ofList after
    let i ← file.imports.find? (·.localName = qualifier)
    let p ← t.package? i.path
    let _ ← p.type? name
    pure ⟨i.path, name⟩

end SymbolTable

end CodeGraph
