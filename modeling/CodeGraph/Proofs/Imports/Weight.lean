import CodeGraph.Proofs.Imports.Dependency
import Mathlib.Logic.Function.Basic

/-!
# The weights of dependencies

* `SourceFile.Imports`, `importingFiles` — a file imports a path; how many files of an import path import
  another one.
* `Tally` — the same number reckoned up by going through packages, files and the distinct paths that a file
  imports; `countFile_apply` is one file, and `tally_apply` all of them.
* `Dependencies.edges_by_files` — the main result: the dependencies in their order, with their weights, and
  what is imported from outside.
-/

namespace CodeGraph

/-- A file imports a path, once or more. -/
def SourceFile.Imports (f : SourceFile) (path : String) : Prop := ∃ i ∈ f.imports, i.path = path

instance (f : SourceFile) : DecidablePred f.Imports := fun path =>
  inferInstanceAs (Decidable (∃ i ∈ f.imports, i.path = path))

namespace Dependencies

variable {ps : List Package} {p q : String}

theorem mem_importsOf {f : SourceFile} : q ∈ importsOf f ↔ f.Imports q := List.mem_map

/-- The files of all packages, each with the import path of its package. -/
def filesByPath (ps : List Package) : List (String × SourceFile) :=
  ps.flatMap fun k => k.files.map fun f => (k.importPath, f)

/-- How many files of the packages with one import path import another one. -/
def importingFiles (ps : List Package) (p q : String) : Nat :=
  (filesByPath ps).countP fun u => u.1 = p ∧ u.2.Imports q

theorem importingFiles_cons (k : Package) : importingFiles (k :: ps) p q =
    (if k.importPath = p then k.files.countP (·.Imports q) else 0) + importingFiles ps p q := by
  rw [importingFiles, filesByPath, List.flatMap_cons, List.countP_append, List.countP_map]
  congr 1
  split
  next hpath => exact List.countP_congr fun f _ => by simp [hpath]
  next hpath => exact List.countP_eq_zero.mpr fun f _ => by simp [hpath]

theorem importingFiles_eq (ps : List Package) (p q : String) : importingFiles ps p q =
    (filesOf ps p).countP fun f => (importsOf f).contains q := by
  have hsame (files : List SourceFile) : files.countP (·.Imports q) =
      files.countP fun f => (importsOf f).contains q :=
    List.countP_congr fun f _ => by simp [mem_importsOf]
  induction ps with
  | nil => rfl
  | cons k ps ih =>
    rw [importingFiles_cons, ih, hsame, filesOf, filesOf, List.filter_cons]
    split
    next hpath => rw [if_pos (by simpa using hpath), List.flatMap_cons, List.countP_append]
    next hpath => rw [if_neg (by simpa using hpath), Nat.zero_add]

theorem importingFiles_pos_iff : 0 < importingFiles ps p q ↔
    ∃ k ∈ ps, k.importPath = p ∧ ∃ f ∈ k.files, f.Imports q := by
  simp only [importingFiles, List.countP_pos_iff, filesByPath, List.mem_flatMap, List.mem_map,
    decide_eq_true_eq]
  constructor
  · rintro ⟨_, ⟨k, hk, f, hf, rfl⟩, hpath, himports⟩
    exact ⟨k, hk, hpath, f, hf, himports⟩
  · rintro ⟨k, hk, hpath, f, hf, himports⟩
    exact ⟨_, ⟨k, hk, f, hf, rfl⟩, hpath, himports⟩

/-! ### Reckoning up -/

/-- How many files have been found to import a target, by source and target. -/
abbrev Tally := String × String → Nat

/-- Count one target of a file, unless it is the source itself or no package of the project. -/
def countTarget (paths : List String) (source : String) (t : Tally) (target : String) : Tally :=
  if target ≠ source ∧ target ∈ paths then
    Function.update t (source, target) (t (source, target) + 1)
  else t

/-- Count the distinct targets of a file. -/
def countFile (paths : List String) (source : String) (t : Tally) (f : SourceFile) : Tally :=
  (sortedDistinct (importsOf f)).foldl (countTarget paths source) t

/-- Count the files of a package. -/
def countPackage (paths : List String) (t : Tally) (k : Package) : Tally :=
  k.files.foldl (countFile paths k.importPath) t

/-- Count the files of all packages. -/
def tally (ps : List Package) : Tally :=
  ps.foldl (countPackage (ps.map (·.importPath))) fun _ => 0

section

variable {paths : List String} {source : String}

theorem countTarget_apply (t : Tally) (target : String) : countTarget paths source t target (p, q) =
    t (p, q) + if source = p ∧ target = q ∧ q ≠ p ∧ q ∈ paths then 1 else 0 := by
  rw [countTarget]
  by_cases hends : source = p ∧ target = q
  · obtain ⟨rfl, rfl⟩ := hends
    by_cases hcounts : target ≠ source ∧ target ∈ paths
    · rw [if_pos hcounts, Function.update_self, if_pos ⟨rfl, rfl, hcounts⟩]
    · rw [if_neg hcounts, if_neg fun h => hcounts h.2.2]
      rfl
  · have hnone : ¬(source = p ∧ target = q ∧ q ≠ p ∧ q ∈ paths) := fun h => hends ⟨h.1, h.2.1⟩
    rw [if_neg hnone, Nat.add_zero]
    split
    next => exact Function.update_of_ne (fun h => hends (Prod.mk.inj h.symm)) _ _
    next => rfl

/-- Among distinct targets each one counts once. -/
theorem foldl_countTarget_apply {targets : List String} (hnodup : targets.Nodup) (t : Tally) :
    targets.foldl (countTarget paths source) t (p, q) =
      t (p, q) + if source = p ∧ q ∈ targets ∧ q ≠ p ∧ q ∈ paths then 1 else 0 := by
  induction targets generalizing t with
  | nil => simp
  | cons target targets ih =>
    obtain ⟨hfresh, hnodup⟩ := List.nodup_cons.mp hnodup
    rw [List.foldl_cons, ih hnodup, countTarget_apply, Nat.add_assoc]
    congr 1
    by_cases hq : target = q
    · subst hq
      simp [hfresh]
    · simp [hq, Ne.symm hq]

/-- One file adds one to each target that it imports, however often it does so. -/
theorem countFile_apply (t : Tally) (f : SourceFile) : countFile paths source t f (p, q) =
    t (p, q) + if source = p ∧ f.Imports q ∧ q ≠ p ∧ q ∈ paths then 1 else 0 := by
  rw [countFile, foldl_countTarget_apply (nodup_sortedDistinct _)]
  simp only [mem_sortedDistinct, mem_importsOf]

theorem countPackage_apply (t : Tally) (k : Package) : countPackage paths t k (p, q) =
    t (p, q) + if q ≠ p ∧ q ∈ paths then
      if k.importPath = p then k.files.countP (·.Imports q) else 0
    else 0 := by
  rw [countPackage]
  generalize k.files = files
  induction files generalizing t with
  | nil => simp
  | cons f files ih =>
    rw [List.foldl_cons, ih, countFile_apply, List.countP_cons]
    by_cases hcounts : q ≠ p ∧ q ∈ paths
    · by_cases hpath : k.importPath = p
      · by_cases himports : f.Imports q <;> simp [hcounts, hpath, himports]
        omega
      · simp [hcounts, hpath]
    · simp [hcounts]

theorem foldl_countPackage_apply (ks : List Package) (t : Tally) :
    ks.foldl (countPackage paths) t (p, q) =
      t (p, q) + if q ≠ p ∧ q ∈ paths then importingFiles ks p q else 0 := by
  induction ks generalizing t with
  | nil => simp [importingFiles, filesByPath]
  | cons k ks ih =>
    rw [List.foldl_cons, ih, countPackage_apply, importingFiles_cons]
    split <;> omega

end

/-- Going through all files comes to the number of files that import the target. -/
theorem tally_apply (ps : List Package) (p q : String) : tally ps (p, q) =
    if q ≠ p ∧ q ∈ ps.map (·.importPath) then importingFiles ps p q else 0 := by
  rw [tally, foldl_countPackage_apply, Nat.zero_add]

/-! ### Dependencies -/

theorem weight_eq_importingFiles {e : Dependency} (he : e ∈ (ofPackages ps).edges) :
    e.weight = importingFiles ps e.source e.target := by
  obtain ⟨source, -, hedge⟩ := List.mem_flatMap.mp he
  obtain ⟨target, -, rfl⟩ := List.mem_map.mp hedge
  exact (importingFiles_eq ps source target).symm

/-- There is one dependency for two packages of which one imports the other, with the number of files that do
so. -/
theorem mem_edges_iff {e : Dependency} : e ∈ (ofPackages ps).edges ↔
    e.source ≠ e.target ∧
      (∃ k ∈ ps, k.importPath = e.source ∧ ∃ f ∈ k.files, f.Imports e.target) ∧
      (∃ k ∈ ps, k.importPath = e.target) ∧
      e.weight = importingFiles ps e.source e.target ∧ e.inCycle = false := by
  constructor
  · intro he
    obtain ⟨hne, hfile, htarget⟩ := dependsOn_ofPackages.mp ⟨e, he, rfl, rfl⟩
    exact ⟨hne, hfile, htarget, weight_eq_importingFiles he, inCycle_ofPackages he⟩
  · rintro ⟨hne, hfile, htarget, hweight, hflag⟩
    obtain ⟨e', he', hsource', htarget'⟩ := dependsOn_ofPackages.mpr ⟨hne, hfile, htarget⟩
    have hweight' := weight_eq_importingFiles he'
    rw [hsource', htarget', ← hweight] at hweight'
    have hsame : e' = e := by
      cases e
      cases e'
      exact Dependency.mk.injEq .. ▸
        ⟨hsource', htarget', hweight', (inCycle_ofPackages he').trans hflag.symm⟩
    exact hsame ▸ he'

/-- The dependencies are what the reckoning comes to. -/
theorem mem_edges_iff_tally {e : Dependency} : e ∈ (ofPackages ps).edges ↔
    0 < e.weight ∧ e.weight = tally ps (e.source, e.target) ∧ e.inCycle = false := by
  rw [mem_edges_iff, ← importingFiles_pos_iff, tally_apply]
  split
  next hcounts =>
    constructor
    · rintro ⟨-, hpos, -, hweight, hflag⟩
      exact ⟨hweight ▸ hpos, hweight, hflag⟩
    · rintro ⟨hpos, hweight, hflag⟩
      exact ⟨Ne.symm hcounts.1, hweight ▸ hpos, List.mem_map.mp hcounts.2, hweight, hflag⟩
  next hcounts =>
    constructor
    · rintro ⟨hne, -, htarget, -⟩
      exact absurd ⟨Ne.symm hne, List.mem_map.mpr htarget⟩ hcounts
    · rintro ⟨hpos, hweight, -⟩
      exact absurd hweight (Nat.ne_of_gt hpos)

theorem mem_externals_iff {path : String} : path ∈ (ofPackages ps).externals ↔
    (∃ k ∈ ps, ∃ f ∈ k.files, f.Imports path) ∧ ∀ k ∈ ps, k.importPath ≠ path := by
  simp only [ofPackages, mem_sortedDistinct, List.mem_filter, List.mem_flatMap, mem_importsOf,
    Bool.not_eq_true', List.contains_eq_mem, decide_eq_false_iff_not, List.mem_map, not_exists, not_and]

/-- **Dependencies and their weights.**  Whatever the packages and their imports are, the dependencies stand in
strictly ascending order by source and target.  There is one exactly for two different import paths of
packages where a file of the first imports the second; its weight is the number of such files, each counted
once, and no flag is set.  The same weights are got by going through all files and adding one for each of the
distinct paths that a file imports.  Imported from outside are the imported paths that no package has. -/
theorem edges_by_files (ps : List Package) :
    let d := ofPackages ps
    d.edges.Pairwise (fun e e' => toLex (e.source, e.target) < toLex (e'.source, e'.target)) ∧
      (∀ e, e ∈ d.edges ↔ e.source ≠ e.target ∧
        (∃ k ∈ ps, k.importPath = e.source ∧ ∃ f ∈ k.files, f.Imports e.target) ∧
        (∃ k ∈ ps, k.importPath = e.target) ∧
        e.weight = importingFiles ps e.source e.target ∧ e.inCycle = false) ∧
      (∀ e, e ∈ d.edges ↔
        0 < e.weight ∧ e.weight = tally ps (e.source, e.target) ∧ e.inCycle = false) ∧
      (∀ path, path ∈ d.externals ↔
        (∃ k ∈ ps, ∃ f ∈ k.files, f.Imports path) ∧ ∀ k ∈ ps, k.importPath ≠ path) ∧
      d.externals.Pairwise (· < ·) := by
  refine ⟨pairwise_edges ps, fun _ => mem_edges_iff, fun _ => mem_edges_iff_tally,
    fun _ => mem_externals_iff, ?_⟩
  exact (pairwise_sortedDistinct _).imp precedes_text.mp

end Dependencies

end CodeGraph
