import CodeGraph.Hash.Sha256
import CodeGraph.Project.FileTree
import CodeGraph.Source.Outline
import CodeGraph.Syntax.File
import CodeGraph.Text.Utf8

/-!
# Languages

* `Language` — a name, the extension of its files, which of them are tests, the tree of a text and what
  is taken from it; `Language.read` takes nothing from a tree with a fault in it.
* `Language.go` — the language Go; `Languages.standard` lists all languages there are.
* `Languages.ofPath?` — the language of a file, by its extension in either case.
* `readFile`, `readAtPath` — the declarations of a file, or what is wrong with it (`FileIssue`).
-/

namespace CodeGraph

/-- Kinds of reasons to leave a file out. -/
inductive IssueKind where
  | io
  | syntaxError
  | unsupported
  deriving DecidableEq, Repr, Inhabited

def IssueKind.word : IssueKind → String
  | .io => "io"
  | .syntaxError => "syntax"
  | .unsupported => "unsupported"

def IssueKind.phrase : IssueKind → String
  | .io => "I/O error"
  | .syntaxError => "syntax error"
  | .unsupported => "unsupported"

/-- A file that is left out, and why. -/
structure FileIssue where
  path : String
  kind : IssueKind
  message : String
  deriving DecidableEq, Repr, Inhabited

def FileIssue.text (i : FileIssue) : String :=
  i.path ++ ": " ++ i.message ++ " (" ++ i.kind.phrase ++ ")"

/-- A language that files are written in. -/
structure Language where
  name : String
  extension : String
  /-- How the names of test files end. -/
  testEnding : String
  /-- The syntax tree of a text. -/
  tree : String → Syntax.Node
  /-- The declarations in a text, taken from its tree. -/
  outline : Syntax.SourceText → Syntax.Node → SourceFile

namespace Language

def go : Language where
  name := "go"
  extension := "go"
  testEnding := "_test.go"
  tree := Syntax.Node.ofText
  outline := Source.outline

/-- The declarations of a text, or the line of the first thing that does not belong there. -/
def read (l : Language) (text : String) : Except Nat SourceFile :=
  let root := l.tree text
  match root.firstDefectLine with
  | some line => .error line
  | none => .ok (l.outline (Syntax.SourceText.ofString text) root)

/-- Whether a file holds tests, by its name. -/
def isTestFile (l : Language) (name : String) : Bool := Path.endsWith name l.testEnding

end Language

namespace Languages

/-- All languages that can be read. -/
def standard : List Language := [.go]

/-- The language of files with an extension. -/
def ofExtension? (ls : List Language) (extension : String) : Option Language :=
  ls.find? fun l => l.extension.map Char.toLower == extension.map Char.toLower

/-- The language of a file. -/
def ofPath? (ls : List Language) (path : String) : Option Language :=
  (Path.extension? path).bind (ofExtension? ls)

end Languages

/-- The declarations of a file with the given content. -/
def readContent (l : Language) (path : String) (content : List UInt8) :
    Except FileIssue SourceFile :=
  let text := Text.Utf8.decode content
  match l.read text with
  | .error line =>
    .error ⟨path, .syntaxError, "syntax error near line " ++ toString line⟩
  | .ok file =>
    .ok { file with
      path
      contentHash := Hash.hexText (Hash.sha256 (Text.Utf8.encode text))
      lineCount := Text.lineCount text }

/-- The declarations of the file at a path that is shown as `shown`, given what comes of reading it. -/
def readFile (ls : List Language) (path shown : String) (answer : Except AccessFault (List UInt8)) :
    Except FileIssue SourceFile :=
  match Languages.ofPath? ls path with
  | none => .error ⟨shown, .unsupported, "no language support"⟩
  | some l =>
    match answer with
    | .error f => .error ⟨shown, .io, f.message⟩
    | .ok content => readContent l shown content

/-- The declarations of the file that a path below a root leads to. -/
def readAtPath (ls : List Language) (tree : FileTree) (root path : String) :
    Except FileIssue SourceFile :=
  readFile ls path (Path.join (Path.parts path)) (tree.read (root ++ "/" ++ path))

end CodeGraph
