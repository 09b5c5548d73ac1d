import CodeGraph.Proofs.Project.Files

/-!
# Import paths of a project

* `Project.read_importPaths` — when the import paths of a project are distinct: a package that
  shares its folder with a better one gets a path with a number sign, and that may be the path of a
  folder that has a number sign in its own name.
-/

namespace CodeGraph

variable {languages : List Language} {settings : ReadingSettings} {tree : FileTree} {path : String}
  {signal : Signal} {p : Project}

/-! ### Two packages with one import path -/

/-- A module of which one folder holds two packages, and another is called like a package that is
set aside. -/
def clashFolder : FileTree :=
  let text (s : String) : FileTree := .file (Text.Utf8.encode s)
  .folder [("go.mod", text "module m\n"),
    ("a", .folder [("a.go", text "package a\n"), ("b.go", text "package b\n")]),
    ("a#b", .folder [("c.go", text "package c\n")])]

/-- The module in a folder of its own. -/
def clashTree : FileTree := .folder [("p", clashFolder)]

/-- The sources of the module. -/
def clashSources : List Source :=
  [(["a", "a.go"], .ok (Text.Utf8.encode "package a\n")), (["a", "b.go"], .ok (Text.Utf8.encode "package b\n")),
    (["a#b", "c.go"], .ok (Text.Utf8.encode "package c\n"))]

/-- The files that are read from them. -/
def clashFiles : List SourceFile :=
  (filesRead (clashSources.map (readSource Languages.standard))).filter (·.package ≠ "")

theorem paths_clash : (groupPackages (some "m") clashFiles).map (·.importPath) =
    ["m/a", "m/a#b", "m/a#b"] := by
  have hkeys : (clashFiles.map packageKey).eraseDups = [("a", "a"), ("a", "b"), ("a#b", "c")] := by
    decide +kernel
  have hsorted : [("a", "a"), ("a", "b"), ("a#b", "c")].Pairwise fun a b =>
      keyLessOrEqual a b = true := by
    decide +kernel
  have hsettled : (settleRivals (packagesByKey (some "m") clashFiles)).map (·.importPath) =
      ["m/a", "m/a#b", "m/a#b"] := by
    rw [packagesByKey, hkeys, List.mergeSort_of_pairwise hsorted]
    decide +kernel
  exact map_groupPackages id (fun _ => rfl) hsettled (by decide +kernel)

/-! ### Distinct import paths -/

/-- **When the import paths of a project are distinct.**  They are exactly if no package that is set
aside, for another one in its folder, meets a third one.  Packages can only meet where one of them
lies in a folder with a number sign in its name. -/
theorem Project.read_importPaths
    (h : (Project.read languages settings tree path).outcome signal = .ok p) :
    ((p.packages.map (·.importPath)).Nodup ↔
      ∀ a ∈ p.packages, ∀ b ∈ p.packages, a ≠ b → a.SetAside p.modulePath →
        a.importPath ≠ b.importPath) ∧
    (tree.Named → ∀ a ∈ p.packages, ∀ b ∈ p.packages, a ≠ b → a.importPath = b.importPath →
      '#' ∈ a.folder.toList ∨ '#' ∈ b.folder.toList) := by
  obtain ⟨files, hpackages, hfolders⟩ := Project.read_groups h
  rw [hpackages]
  refine ⟨nodup_importPaths_iff, fun htree a ha b hb hne hpath => ?_⟩
  have hdot {q : Package} (hq : q ∈ groupPackages p.modulePath files) : q.folder ≠ "." := by
    obtain ⟨f, hf, hfolder⟩ := folder_of_mem_groupPackages hq
    rw [hfolder]
    exact hfolders htree f hf
  exact folder_hash_of_clash ha hb hne hpath ⟨hdot ha, hdot hb⟩

/-- A package that is set aside meets the one of a folder that has a number sign in its name. -/
theorem Project.read_importPaths_clash :
    clashTree.Named ∧
      ∃ p, (Project.read Languages.standard {} clashTree "/p").outcome .never = .ok p ∧
      p.packages.map (·.importPath) = ["m/a", "m/a#b", "m/a#b"] ∧
      ∃ a ∈ p.packages, ∃ b ∈ p.packages, a ≠ b ∧ a.SetAside p.modulePath ∧
        a.importPath = b.importPath := by
  have hmodule : modulePathAt clashTree ["p"] = some "m" := by decide +kernel
  have hfiles : clashFiles ≠ [] := by
    intro hnone
    have hpaths := paths_clash
    rw [hnone, groupPackages_nil] at hpaths
    cases hpaths
  obtain ⟨p, hread, -, hpackages⟩ := Project.exists_read_child Languages.standard {} clashTree
    clashSources rfl (by decide) rfl (by decide +kernel) (by decide +kernel) hfiles
  have hpaths : p.packages.map (·.importPath) = ["m/a", "m/a#b", "m/a#b"] := by
    rw [hpackages, hmodule]
    exact paths_clash
  have hnames : clashTree.Named := by
    simp only [clashTree, clashFolder, FileTree.Named, FileTree.Each, EachEntry]
    decide +kernel
  have hrepeated : ¬(p.packages.map (·.importPath)).Nodup := by
    rw [hpaths]
    decide
  rw [(Project.read_importPaths hread).1] at hrepeated
  push Not at hrepeated
  exact ⟨hnames, p, hread, hpaths, hrepeated⟩

end CodeGraph
