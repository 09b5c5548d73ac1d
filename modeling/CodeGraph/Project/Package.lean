import CodeGraph.Project.Language

/-!
# Packages

* `Package` — the files of one folder that share a package clause.
* `modulePath?` — the module path that a `go.mod` text declares.
* `groupPackages` — the packages of a list of files, each under an import path.
* `settleRivals` — of packages that would share an import path one keeps it, and the others are told
  apart by their names.
-/

namespace CodeGraph

/-- The files of one folder that share a package clause. -/
structure Package where
  importPath : String
  name : String
  /-- The folder below the root of the project, empty for the root itself. -/
  folder : String
  files : List SourceFile
  deriving DecidableEq, Repr, Inhabited

/-! ### Module paths -/

/-- The module path that a line declares. -/
def moduleOfLine? (line : String) : Option String :=
  let cs := (Text.trim line).toList
  let word := "module".toList
  if word.isPrefixOf cs then
    let rest := cs.drop word.length
    match rest with
    | c :: _ =>
      if Text.isBlank c then
        let path := Text.trimBy (· = '"') (Text.trim (String.ofList rest))
        if path = "" then none else some path
      else none
    | [] => none
  else none

/-- The module path that a `go.mod` text declares: that of the first line with one. -/
def modulePath? (text : String) : Option String := (Text.lines text).findSome? moduleOfLine?

/-! ### Import paths -/

/-- The import path of a folder of a module. -/
def folderImportPath : Option String → String → String
  | some m, "" => m
  | some m, folder => m ++ "/" ++ folder
  | none, "" => "."
  | none, folder => folder

/-- What the names and import paths of test packages end with. -/
def testMark : String := "_test"

/-- A text without any test marks at its end. -/
def withoutTestMarks (s : String) : String :=
  let rec cut : Nat → List Char → List Char
    | 0, back => back
    | fuel + 1, back =>
      let mark := testMark.toList.reverse
      if mark.isPrefixOf back then cut fuel (back.drop mark.length) else back
  String.ofList (cut s.length s.toList.reverse).reverse

/-- The import path of a package before rivals are settled. -/
def plainImportPath (module : Option String) (folder name : String) : String :=
  folderImportPath module folder ++ if Path.endsWith name testMark then testMark else ""

/-! ### Grouping -/

/-- What files of one package share: their folder and their package clause. -/
def packageKey (f : SourceFile) : String × String := (Path.parent f.path, f.package)

/-- The order of package keys. -/
def keyLessOrEqual (a b : String × String) : Bool :=
  if a.1 = b.1 then a.2 ≤ b.2 else a.1 ≤ b.1

/-- The packages of files with package clauses, in the order of their keys. -/
def packagesByKey (module : Option String) (files : List SourceFile) : List Package :=
  let keys := ((files.map packageKey).eraseDups).mergeSort keyLessOrEqual
  keys.map fun key =>
    { importPath := plainImportPath module key.1 key.2
      name := key.2
      folder := key.1
      files := (files.filter fun f => packageKey f = key).mergeSort fun a b => a.path ≤ b.path }

/-- Whether the second of two rivals has the better or an equal claim to their import path: first
the one named after the folder, then the one with more files, then the one whose name comes
first. -/
def claimsNoLess (folderName : String) (a b : Package) : Bool :=
  let named (p : Package) := withoutTestMarks p.name = folderName
  if named a != named b then named b
  else if a.files.length ≠ b.files.length then a.files.length < b.files.length
  else b.name ≤ a.name

/-- The best of several rivals, the later of two equal ones. -/
def bestRival? (folderName : String) : List Package → Option Package
  | [] => none
  | p :: ps => some (ps.foldl (fun best q => if claimsNoLess folderName best q then q else best) p)

/-- A package that need not share its import path: the best of its rivals, or the package under a path
with its name. -/
def settle (packages : List Package) (p : Package) : Package :=
  let rivals := packages.filter (·.importPath = p.importPath)
  let folderName := lastPart '/' (withoutTestMarks p.importPath)
  match bestRival? folderName rivals with
  | some best =>
    if rivals.length < 2 || (best.folder = p.folder && best.name = p.name) then p
    else { p with importPath := p.importPath ++ "#" ++ p.name }
  | none => p

/-- Let one of the packages that share an import path keep it and tell the others apart. -/
def settleRivals (packages : List Package) : List Package := packages.map (settle packages)

/-- The packages of files with package clauses, in the order of their import paths. -/
def groupPackages (module : Option String) (files : List SourceFile) : List Package :=
  (settleRivals (packagesByKey module files)).mergeSort fun a b => a.importPath ≤ b.importPath

end CodeGraph
