import CodeGraph.Names.Order
import CodeGraph.Project.Language
import CodeGraph.Settings.Basic

/-!
# Discovery of source files

* `FileTree.leaves` — all that stands in a folder and those below, other than such folders, with its
  place.
* `Selection` — which files are sources: by language, by the folders they lie in, by whether they are
  tests, and by the patterns of files left out; and where folders are looked into at all.
* `discover` — the sources below a folder, and the issues of the folders that could not be listed, each
  in the order of their places.
-/

namespace CodeGraph

mutual
/-- All that a tree ends in, each with its place below `place`. -/
def FileTree.leavesFrom (place : List FileName) : FileTree → List (List FileName × FileTree)
  | .folder entries => leavesOfEntries place entries
  | t => [(place, t)]

/-- The same over the entries of a folder. -/
def leavesOfEntries (place : List FileName) :
    List (FileName × FileTree) → List (List FileName × FileTree)
  | [] => []
  | (name, t) :: entries => t.leavesFrom (place ++ [name]) ++ leavesOfEntries place entries
end

/-- A source: its place below the root and what comes of reading it. -/
abbrev Source := List FileName × Except AccessFault (List UInt8)

/-- The path of a source, as it is shown. -/
def Source.path (s : Source) : String := Path.join (s.1.map FileName.text)

namespace FileTree

/-- All that a tree ends in, with its places.  Links are not followed. -/
def leaves (t : FileTree) : List (List FileName × FileTree) := t.leavesFrom []

/-- What is taken of some leaves, with their places. -/
def taken (take : FileTree → Option α) (t : FileTree) : List (List FileName × α) :=
  t.leaves.filterMap fun u => (take u.2).map fun a => (u.1, a)

/-- All regular files of a tree. -/
def files (t : FileTree) : List Source := t.taken answer?

/-- All folders of a tree that cannot be listed. -/
def refusals (t : FileTree) : List (List FileName × AccessFault) := t.taken refusal?

end FileTree

/-- Which files count as sources. -/
structure Selection where
  languages : List Language
  settings : ReadingSettings
  /-- The pieces of the patterns of files left out. -/
  ignored : List (List Text.Glob.Piece)

namespace Selection

/-- Whether a folder of that name is left out with everything in it. -/
def skipsFolder (s : Selection) (name : FileName) : Bool :=
  name.text.toList.head? = some '.' || (name.text = "vendor" && !s.settings.includeVendor) ||
    s.settings.ignoredFolders.contains name.text

/-- Whether the file at a place is a source; a file that is its own root goes by `rootName`. -/
def selects (s : Selection) (rootName : String) (place : List FileName) : Bool :=
  let name := (place.getLast?.map FileName.text).getD rootName
  !place.dropLast.any s.skipsFolder &&
    match Languages.ofPath? s.languages name with
    | none => false
    | some l =>
      (s.settings.includeTests || !l.isTestFile name) &&
        !s.ignored.any fun pieces => Text.Glob.isMatch pieces (Path.join (place.map FileName.text))

/-- Whether the folder at a place is looked into. -/
def entersAt (s : Selection) (place : List FileName) : Bool := !place.any s.skipsFolder

end Selection

/-- What is found below a folder. -/
structure Discovery where
  sources : List Source
  /-- The issues of folders that could not be listed. -/
  issues : List FileIssue

/-- The issue of a folder that cannot be listed, below a root with a path. -/
def refusalIssue (root : String) (r : List FileName × AccessFault) : FileIssue :=
  let path := Path.join (r.1.map FileName.text)
  ⟨path, .io, r.2.walkMessage (Path.below root path)⟩

/-- What is found below a folder with a path: the sources, and the folders that cannot be listed although
they are not left out, in the order of their places. -/
def discover (languages : List Language) (settings : ReadingSettings) (path : String) (t : FileTree) :
    Except SettingsFault Discovery :=
  (parsePatterns settings.ignoredPatterns).map fun ignored =>
    let selection : Selection := ⟨languages, settings, ignored⟩
    let rootName := (Path.fileName? path).getD ""
    ⟨sortedBy (·.1) (t.files.filter fun f => selection.selects rootName f.1),
      (sortedBy (·.1) (t.refusals.filter fun r => selection.entersAt r.1)).map (refusalIssue path)⟩

end CodeGraph
