import CodeGraph.Proofs.Project.Discovery
import CodeGraph.Proofs.Syntax.Defects

/-!
# Files with and without defects

* `Language.read_eq`, `readContent_eq` — where the flags of a tree are exact, the declarations are taken from
  a text or the first defect is told, whatever the flags led past.
* `readAtPath_by_preorder` — the same for files, with the search by flags against the one of all nodes.
-/

namespace CodeGraph

open Syntax (Node)

/-- What is told of a file with an error or missing node in it. -/
def FileIssue.ofDefect (path : String) (n : Node) : FileIssue :=
  ⟨path, .syntaxError, "syntax error near line " ++ toString n.startLine⟩

/-- What is taken from a file with nothing wrong in it. -/
def Language.fileOf (l : Language) (path text : String) : SourceFile :=
  { l.outline (.ofString text) (l.tree text) with
    path
    contentHash := Hash.hexText (Hash.sha256 (Text.Utf8.encode text))
    lineCount := Text.lineCount text }

section Reading

variable {l : Language}

theorem Language.read_eq {text : String} (h : (l.tree text).FlagsExact) :
    l.read text = match (l.tree text).firstDefect? with
      | some n => .error n.startLine
      | none => .ok (l.outline (.ofString text) (l.tree text)) := by
  simp only [read, h.firstDefectLine_eq]
  cases (l.tree text).firstDefect? with
  | some n => rfl
  | none => rfl

theorem readContent_eq {path : String} {content : List UInt8}
    (h : (l.tree (Text.Utf8.decode content)).FlagsExact) :
    readContent l path content = match (l.tree (Text.Utf8.decode content)).firstDefect? with
      | some n => .error (.ofDefect path n)
      | none => .ok (l.fileOf path (Text.Utf8.decode content)) := by
  simp only [readContent, Language.read_eq h]
  cases (l.tree (Text.Utf8.decode content)).firstDefect? with
  | some n => rfl
  | none => rfl

theorem readAtPath_eq_readContent {languages : List Language} {files : FileTree} {folder path : String}
    {content : List UInt8} (hlanguage : Languages.ofPath? languages path = some l)
    (hcontent : files.read (folder ++ "/" ++ path) = .ok content) :
    readAtPath languages files folder path = readContent l (Path.join (Path.parts path)) content := by
  simp only [readAtPath, readFile, hlanguage, hcontent]

end Reading

/-- **Where every node's flag tells whether there is an error or missing node in its subtree, the search by
flags comes to the line of the first such node of all, and to nothing only if there is none.**  So the
declarations are taken from exactly those files that have no such node anywhere in their trees, and of any
other file the first one is told. -/
theorem readAtPath_by_preorder {root : Node} (hflags : root.FlagsExact) :
    root.firstDefectLine = (root.preorder.find? Node.isDefect).map Node.startLine ∧
      (root.firstDefectLine = none ↔ ∀ n ∈ root.preorder, n.isDefect = false) ∧
      ∀ {languages : List Language} {l : Language} {files : FileTree} {folder path : String}
        {content : List UInt8}, Languages.ofPath? languages path = some l →
        files.read (folder ++ "/" ++ path) = .ok content → l.tree (Text.Utf8.decode content) = root →
        let shown := Path.join (Path.parts path)
        ((∃ file, readAtPath languages files folder path = .ok file) ↔
            ∀ n ∈ root.preorder, n.isDefect = false) ∧
          readAtPath languages files folder path = match root.preorder.find? Node.isDefect with
            | some n => .error (.ofDefect shown n)
            | none => .ok (l.fileOf shown (Text.Utf8.decode content)) := by
  have hnone : root.preorder.find? Node.isDefect = none ↔ ∀ n ∈ root.preorder, n.isDefect = false := by
    simp only [List.find?_eq_none, Bool.not_eq_true]
  refine ⟨hflags.firstDefectLine_eq, ?_, ?_⟩
  · rw [hflags.firstDefectLine_eq, Option.map_eq_none_iff]
    exact hnone
  · rintro languages l files folder path content hlanguage hcontent rfl shown
    have hresult := (readAtPath_eq_readContent hlanguage hcontent).trans (readContent_eq hflags)
    refine ⟨?_, hresult⟩
    rw [← hnone, hresult, Node.firstDefect?]
    cases (l.tree (Text.Utf8.decode content)).preorder.find? Node.isDefect with
    | some n =>
      refine iff_of_false ?_ (Option.some_ne_none n)
      rintro ⟨file, hfile⟩
      cases hfile
    | none => exact iff_of_true ⟨_, rfl⟩ rfl

/-- A tree with a missing brace in its third line, in a function that is whole up to there, and with an error
in its fifth line. -/
def brokenTree : Node :=
  let word (row : Nat) := Node.leaf .token ⟨0, row⟩ ⟨0, row⟩
  let brace := Node.node ⟨.token, none, ⟨0, 2⟩, ⟨0, 2⟩, some .missing, true⟩ []
  .branch .sourceFile [
    .branch .packageClause [word 0],
    .branch .functionDeclaration [word 1, .branch .parameterList [word 1], .branch .block [word 2, brace]],
    .defective ⟨0, 4⟩ ⟨0, 4⟩ [word 4]]

/-- A language whose texts all have this tree. -/
def Language.broken : Language := { Language.go with tree := fun _ => brokenTree }

theorem Languages.ofPath?_single {l : Language} (h : l.extension = "go") :
    Languages.ofPath? [l] "a.go" = some l := by
  have hextension : Path.extension? "a.go" = some "go" := by decide
  simp [Languages.ofPath?, Languages.ofExtension?, hextension, h]

theorem FileTree.read_single (content : List UInt8) :
    (FileTree.folder [("a.go", .file content)]).read ("" ++ "/" ++ "a.go") = .ok content := by
  have hsteps : FileTree.steps ("" ++ "/" ++ "a.go") = ["a.go"] := by decide +kernel
  rw [FileTree.read, FileTree.resolve, hsteps]
  simp [FileTree.follow, FileTree.linkLimit, FileTree.resolveFrom, FileTree.walk, FileTree.at?,
    FileTree.child?]

/-- The brace is told of and nothing is taken from the file.  From one in Go with its package clause only,
the package is. -/
theorem readAtPath_by_preorder_broken :
    (brokenTree.FlagsExact ∧ brokenTree.firstDefectLine = some 3 ∧
      readAtPath [.broken] (.folder [("a.go", .file [])]) "" "a.go" =
        .error ⟨"a.go", .syntaxError, "syntax error near line 3"⟩) ∧
    ((Node.ofText "package a\n").FlagsExact ∧ ∃ file,
      readAtPath [.go] (.folder [("a.go", .file (Text.Utf8.encode "package a\n"))]) "" "a.go" = .ok file) := by
  constructor
  · have hflags : brokenTree.FlagsExact := by decide +kernel
    have hfirst : (brokenTree.preorder.find? Node.isDefect).map Node.startLine = some 3 := by decide +kernel
    have hshown : Path.join (Path.parts "a.go") = "a.go" := by decide
    obtain ⟨hline, -, hread⟩ := readAtPath_by_preorder hflags
    refine ⟨hflags, hline.trans hfirst, ?_⟩
    obtain ⟨n, hn, hstart⟩ := Option.map_eq_some_iff.mp hfirst
    refine (hread (Languages.ofPath?_single rfl) (FileTree.read_single []) rfl).2.trans ?_
    simp only [hn, hshown, FileIssue.ofDefect, hstart]
    rfl
  · have hflags : (Node.ofText "package a\n").FlagsExact := by decide +kernel
    have htext : Text.Utf8.decode (Text.Utf8.encode "package a\n") = "package a\n" := by decide +kernel
    have hwhole : ∀ n ∈ (Node.ofText "package a\n").preorder, n.isDefect = false := by decide +kernel
    obtain ⟨-, -, hread⟩ := readAtPath_by_preorder hflags
    refine ⟨hflags, (hread (Languages.ofPath?_single rfl) (FileTree.read_single _) ?_).1.mpr hwhole⟩
    exact congrArg Node.ofText htext

end CodeGraph
