import CodeGraph.Project.Discovery
import CodeGraph.Project.Package
import CodeGraph.Run.Basic
import CodeGraph.Text.Quoted

/-!
# Projects

* `Project` — the packages below a folder, and the files that were left out.
* `Project.read` — reads a project from a file tree.  A file that cannot be read is left out and the
  others count all the same; a project without any package is an error.
* `ReadError.message` — the reasons not to get a project at all, in words.
-/

namespace CodeGraph

/-- The packages below a folder. -/
structure Project where
  root : String
  /-- The module path that the project's `go.mod` declares. -/
  modulePath : Option String
  packages : List Package
  /-- The files that were left out. -/
  issues : List FileIssue
  deriving DecidableEq, Repr, Inhabited

namespace Project

/-- Number of files in all packages. -/
def fileCount (p : Project) : Nat := sumOf (·.files.length) p.packages

/-- The package with an import path. -/
def package? (p : Project) (importPath : String) : Option Package :=
  p.packages.find? (·.importPath = importPath)

end Project

/-- Why there is no project. -/
inductive ReadError where
  | settings (fault : SettingsFault)
  | invalidPath (path : String) (fault : AccessFault)
  | notAFolder (path : String)
  | unwalkable (path : String) (fault : AccessFault)
  | noPackages (root : String)
  | cancelled
  deriving DecidableEq, Repr

def ReadError.message : ReadError → String
  | .settings f => f.message
  | .invalidPath path f => "invalid project path " ++ Text.quoted path ++ ": " ++ f.message
  | .notAFolder path => "project path " ++ Text.quoted path ++ " is not a directory"
  | .unwalkable path f =>
    "failed to walk " ++ Text.quoted path ++ ": " ++ f.walkMessage path
  | .noPackages root => "no Go packages found under " ++ Text.quoted root
  | .cancelled => "parsing cancelled"

/-! ### The root -/

/-- The text of a place in the file tree. -/
def placeText (place : List FileName) : String := "/" ++ Path.join (place.map FileName.text)

/-- The place of the folder that a path leads to. -/
def rootPlace (tree : FileTree) (path : String) : Except ReadError (List FileName) :=
  match tree.resolve path with
  | .error f => .error (.invalidPath path f)
  | .ok place =>
    if tree.isFolderAt place then .ok place else .error (.notAFolder (placeText place))

/-- The module path of the folder at a place. -/
def modulePathAt (tree : FileTree) (place : List FileName) : Option String :=
  match tree.read (placeText (place ++ [FileName.ofText "go.mod"])) with
  | .ok content => (Text.Utf8.decode? content).bind modulePath?
  | .error _ => none

/-- Whether a path ends in a link. -/
def endsInLink (tree : FileTree) (path : String) : Bool :=
  match tree.resolve (Path.parent path) with
  | .ok up => (tree.at? (up ++ [FileName.ofText ((Path.fileName? path).getD "")])).any FileTree.isLink
  | .error _ => false

/-- What is found below a path that need not be settled yet: a link to a folder is followed, one to
anything else holds no sources.  A folder below that cannot be listed is an issue; the root must be
listed. -/
def discoverAt (languages : List Language) (settings : ReadingSettings) (tree : FileTree)
    (path : String) : Except ReadError Discovery :=
  match parsePatterns settings.ignoredPatterns with
  | .error f => .error (.settings f)
  | .ok _ =>
    match tree.resolve path with
    | .error f => .error (.unwalkable path f)
    | .ok place =>
      match tree.at? place with
      | none => .ok ⟨[], []⟩
      | some (.lockedFolder fault) => .error (.unwalkable path fault)
      | some t =>
        if endsInLink tree path && !t.isFolder then .ok ⟨[], []⟩
        else (discover languages settings path t).mapError .settings

/-! ### Reading -/

/-- The files that were read. -/
def filesRead (outcomes : List (Except FileIssue SourceFile)) : List SourceFile :=
  outcomes.filterMap Except.toOption

/-- The issue of a file that was read and has no package clause. -/
def namelessIssue (f : SourceFile) : FileIssue := ⟨f.path, .syntaxError, "missing package clause"⟩

/-- The issues of files that could not be read, and of those that were read and have no package
clause. -/
def fileIssues (outcomes : List (Except FileIssue SourceFile)) : List FileIssue :=
  let unread := outcomes.filterMap fun
    | .ok _ => none
    | .error i => some i
  unread ++ ((filesRead outcomes).filter (·.package = "")).map namelessIssue

/-- The packages of files that were read, and the issues of what was left out: first those of the
walk that found the files. -/
def assemble (root : String) (module : Option String) (found : List FileIssue)
    (outcomes : List (Except FileIssue SourceFile)) : Except ReadError Project :=
  match groupPackages module ((filesRead outcomes).filter (·.package ≠ "")) with
  | [] => .error (.noPackages root)
  | packages =>
    .ok ⟨root, module, packages,
      (found ++ fileIssues outcomes).mergeSort fun a b => Path.lessOrEqual a.path b.path⟩

/-- The declarations of one source. -/
def readSource (languages : List Language) (s : Source) : Except FileIssue SourceFile :=
  readFile languages s.path s.path s.2

/-- Report that so many files are finished; this is done for about ten of them, evenly spread. -/
def reportParsed (total finished : Nat) : Run ReadError Unit :=
  if finished % max 1 (total / 10) = 0 || finished = total then
    Run.report .parse finished (max 1 total)
      ("parsed " ++ toString finished ++ "/" ++ toString total ++ " files")
  else pure ()

/-- Read sources one after the other. -/
def readSources (languages : List Language) (total : Nat) :
    (finished : Nat) → List Source → Run ReadError (List (Except FileIssue SourceFile))
  | _, [] => pure []
  | finished, s :: rest => do
    Run.check .cancelled
    let outcome := readSource languages s
    reportParsed total (finished + 1)
    let others ← readSources languages total (finished + 1) rest
    pure (outcome :: others)

/-- Reading takes a worker. -/
def requireWorkers (settings : ReadingSettings) : Run ReadError Unit :=
  if settings.workers = 0 then Run.fail (.settings .noWorkers) else pure ()

/-- Read the project below a path. -/
def Project.read (languages : List Language) (settings : ReadingSettings) (tree : FileTree)
    (path : String) : Run ReadError Project := do
  requireWorkers settings
  let place ← Run.ofExcept (rootPlace tree path)
  Run.check .cancelled
  let module := modulePathAt tree place
  let root := placeText place
  let found ← Run.ofExcept (discoverAt languages settings tree root)
  let total := found.sources.length
  Run.report .parse 0 1 (toString total ++ " files to parse")
  let outcomes ← readSources languages total 0 found.sources
  Run.check .cancelled
  Run.ofExcept (assemble root module found.issues outcomes)

end CodeGraph
