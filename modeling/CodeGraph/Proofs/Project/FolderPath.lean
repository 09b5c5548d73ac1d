import CodeGraph.Proofs.Graph.Relationships
import CodeGraph.Proofs.Names.Declared
import CodeGraph.Proofs.Project.Partition
import Mathlib.Data.Prod.Lex

/-!
# Which package has the import path of a folder

* `Package.claim` — the claim of a package to an import path, of which there is one order;
  `bestRival?_spec` says that the best of several rivals has the strongest claim.
* `exists_keeper` — a path that a folder gives its packages is kept by the one with the strongest claim.
* `Package.Ordinary`, `Package.Intrudes` — packages that have the import path of their folder, and test
  packages that have the one of another folder.
* `Project.KnowsFolder` — exactly one package has the import path of a folder, and it lies there.
* `Project.read_folderPaths` — the main result.
-/

namespace CodeGraph

open OrderDual (toDual)

variable {module : Option String} {files : List SourceFile} {packages : List Package}
  {folderName d : String} {p q k : Package}

/-! ### Claims -/

/-- The claim that a package has to an import path: the one named after the folder comes first, then the
one with more files, then the one whose name is less. -/
def Package.claim (folderName : String) (k : Package) : Bool ×ₗ Nat ×ₗ Stringᵒᵈ :=
  toLex (withoutTestMarks k.name = folderName, toLex (k.files.length, toDual k.name))

theorem claimsNoLess_iff : claimsNoLess folderName p q ↔ p.claim folderName ≤ q.claim folderName := by
  simp only [claimsNoLess, Package.claim, Prod.Lex.toLex_le_toLex, OrderDual.toDual_le_toDual]
  by_cases hp : withoutTestMarks p.name = folderName <;>
    by_cases hq : withoutTestMarks q.name = folderName <;>
    by_cases hlength : p.files.length = q.files.length <;>
    simp [hp, hq, hlength]

/-- No two packages of different names have the same claim. -/
theorem name_eq_of_claim_eq (h : p.claim folderName = q.claim folderName) : p.name = q.name := by
  rw [Package.claim, Package.claim, toLex_inj, Prod.mk.injEq, toLex_inj, Prod.mk.injEq,
    OrderDual.toDual_inj] at h
  exact h.2.2

theorem bestRival?_spec {best : Package} (h : bestRival? folderName packages = some best) :
    best ∈ packages ∧ ∀ q ∈ packages, q.claim folderName ≤ best.claim folderName := by
  cases packages with
  | nil => cases h
  | cons p rest =>
    obtain rfl := Option.some.inj h
    clear h
    induction rest generalizing p with
    | nil => simp
    | cons r rest ih =>
      rw [List.foldl_cons]
      split
      next hless =>
        have hclaim := claimsNoLess_iff.mp hless
        obtain ⟨hmem, hbest⟩ := ih r
        refine ⟨List.mem_cons_of_mem _ hmem, List.forall_mem_cons.mpr ⟨?_, hbest⟩⟩
        exact hclaim.trans (hbest r List.mem_cons_self)
      next hmore =>
        have hclaim : r.claim folderName ≤ p.claim folderName :=
          le_of_not_ge fun h => hmore (claimsNoLess_iff.mpr h)
        obtain ⟨hmem, hbest⟩ := ih p
        obtain ⟨hp, hrest⟩ := List.forall_mem_cons.mp hbest
        refine ⟨?_, List.forall_mem_cons.mpr ⟨hp, List.forall_mem_cons.mpr ⟨hclaim.trans hp, hrest⟩⟩⟩
        rcases List.mem_cons.mp hmem with heq | hmem
        · exact List.mem_cons.mpr (Or.inl heq)
        · exact List.mem_cons_of_mem _ (List.mem_cons_of_mem _ hmem)

/-! ### The package that keeps a path -/

/-- Packages are those that share a folder and a name, under the path that they keep or another one. -/
theorem exists_unsettled (hq : q ∈ groupPackages module files) :
    ∃ q₀ ∈ packagesByKey module files, settle (packagesByKey module files) q₀ = q ∧
      q₀.importPath = plainImportPath module q.folder q.name ∧
      q₀.claim folderName = q.claim folderName := by
  obtain ⟨q₀, hq₀, rfl⟩ := List.mem_map.mp ((perm_groupPackages module files).mem_iff.mp hq)
  obtain ⟨hfolder, hname⟩ := Prod.mk.inj (key_settle (packagesByKey module files) q₀)
  refine ⟨q₀, hq₀, rfl, ?_, ?_⟩
  · rw [hfolder, hname]
    exact keeps_of_mem_packagesByKey hq₀
  · rw [Package.claim, Package.claim, hname, files_settle]

/-- The package with the strongest claim to a path keeps it. -/
theorem exists_keeper {path : String} (hp : p ∈ groupPackages module files)
    (hpath : plainImportPath module p.folder p.name = path) :
    ∃ k ∈ groupPackages module files, k.Keeps module ∧ k.importPath = path ∧
      ∀ q ∈ groupPackages module files, plainImportPath module q.folder q.name = path →
        q.claim (lastPart '/' (withoutTestMarks path)) ≤
          k.claim (lastPart '/' (withoutTestMarks path)) := by
  have hrival {q : Package} (hq : q ∈ groupPackages module files)
      (hsame : plainImportPath module q.folder q.name = path) :
      ∃ q₀ ∈ (packagesByKey module files).filter (·.importPath = path),
        q₀.claim (lastPart '/' (withoutTestMarks path)) =
          q.claim (lastPart '/' (withoutTestMarks path)) := by
    obtain ⟨q₀, hq₀, -, hplain, hclaim⟩ := exists_unsettled hq
    exact ⟨q₀, List.mem_filter.mpr ⟨hq₀, decide_eq_true (hplain.trans hsame)⟩, hclaim⟩
  obtain ⟨p₀, hp₀, -⟩ := hrival hp hpath
  obtain ⟨best, hbest⟩ := bestRival?_isSome (lastPart '/' (withoutTestMarks path))
    (List.ne_nil_of_mem hp₀)
  obtain ⟨hmem, hstrongest⟩ := bestRival?_spec hbest
  obtain ⟨hby, hpathBest⟩ := List.mem_filter.mp hmem
  have hpathBest : best.importPath = path := of_decide_eq_true hpathBest
  have hkept : settle (packagesByKey module files) best = best := by
    rw [settle, hpathBest, hbest]
    simp
  refine ⟨best, ?_, keeps_of_mem_packagesByKey hby, hpathBest, fun q hq hsame => ?_⟩
  · rw [(perm_groupPackages module files).mem_iff]
    exact List.mem_map.mpr ⟨best, hby, hkept⟩
  · obtain ⟨q₀, hq₀, hclaim⟩ := hrival hq hsame
    rw [← hclaim]
    exact hstrongest q₀ hq₀

/-! ### Import paths of folders -/

namespace Package

/-- The package has the import path of its folder before rivals are settled. -/
def Ordinary (k : Package) : Prop := Path.endsWith k.name testMark = false

/-- The package holds external tests of its folder, and another folder is called like that one with the
mark of tests. -/
def Intrudes (d : String) (k : Package) : Prop :=
  Path.endsWith k.name testMark = true ∧ k.folder ≠ "" ∧ d = k.folder ++ testMark

end Package

theorem folderTail_append_mark {folder : String} (hd : d.toList.head? ≠ some '.') :
    folderTail module folder ++ testMark.toList = folderTail module d ↔
      folder ≠ "" ∧ d = folder ++ testMark := by
  have hmarked : d = folder ++ testMark ↔ folder.toList ++ testMark.toList = d.toList := by
    rw [← String.toList_append, String.toList_inj, eq_comm]
  have hmark : testMark.toList = ['_', 't', 'e', 's', 't'] := rfl
  rw [hmarked, hmark]
  cases module with
  | some m =>
    by_cases hfolder : folder = "" <;> by_cases hempty : d = "" <;>
      simp [folderTail, hfolder, hempty]
  | none =>
    by_cases hfolder : folder = "" <;> by_cases hempty : d = ""
    · simp [folderTail, hfolder, hempty]
    · simp only [folderTail, hfolder, hempty]
      refine iff_of_false (fun h => hd ?_) fun h => h.1 rfl
      simp only [if_true, if_false] at h
      rw [← h]
      rfl
    · -- the mark alone is longer than a point
      refine iff_of_false (fun h => ?_) fun h => ?_
      · have hlength := congrArg List.length h
        simp [folderTail, hfolder, hempty] at hlength
      · simp [hempty] at h
    · simp [folderTail, hfolder, hempty]

/-- The packages of a folder have its import path, but for tests, and so do the tests of a folder that
this one is called after. -/
theorem plainImportPath_eq_iff (hk : k.folder ≠ ".") (hd : d.toList.head? ≠ some '.') :
    plainImportPath module k.folder k.name = folderImportPath module d ↔
      (k.Ordinary ∧ k.folder = d) ∨ k.Intrudes d := by
  rw [← String.toList_inj, toList_plainImportPath, toList_folderImportPath,
    List.append_cancel_left_eq, markTail, Package.Ordinary, Package.Intrudes]
  have hdot : d ≠ "." := by
    rintro rfl
    exact hd rfl
  split
  next htest => simp [htest, folderTail_append_mark hd]
  next hplain =>
    rw [Bool.not_eq_true] at hplain
    rw [List.append_nil]
    simp only [hplain, true_and, Bool.false_eq_true, false_and, or_false]
    exact ⟨folderTail_inj hk hdot, fun h => congrArg _ h⟩

theorem Package.Intrudes.endsWith (h : k.Intrudes d) : Path.endsWith d testMark = true := by
  obtain ⟨-, -, rfl⟩ := h
  rw [Path.endsWith, String.toList_append, List.reverse_append, List.isPrefixOf_iff_prefix]
  exact List.prefix_append _ _

/-- A folder whose path a package gets that is set aside has a number sign in its name. -/
theorem hash_mem_of_setAside (h : k.SetAside module)
    (hpath : k.importPath = folderImportPath module d) : '#' ∈ d.toList := by
  by_contra hclean
  have hchars := congrArg String.toList hpath
  rw [toList_setAside h, toList_folderImportPath, List.append_cancel_left_eq] at hchars
  have hhash : '#' ∉ folderTail module d := hash_notMem_folderTail hclean
  rw [← hchars] at hhash
  simp at hhash

/-! ### Folders that are known by their paths -/

/-- Where no package that is set aside has a path, one that keeps it has it alone. -/
theorem filter_importPath_eq {path : String}
    (haside : ∀ q ∈ groupPackages module files, q.SetAside module → q.importPath ≠ path)
    (hk : k ∈ groupPackages module files) (hkeeps : k.Keeps module) (hpath : k.importPath = path) :
    (groupPackages module files).filter (·.importPath = path) = [k] := by
  have hnodup : (groupPackages module files).Nodup := (nodup_keys_groupPackages module files).of_map
  refine filter_eq_of_mem_and_iff hnodup fun q => ⟨?_, ?_⟩
  · rintro ⟨hq, hsame⟩
    rcases mem_groupPackages hq with ⟨hkept, -⟩ | hset
    · exact keeps_inj hq hk hkept hkeeps (hsame.trans hpath.symm)
    · exact absurd hsame (haside q hq hset)
  · rintro rfl
    exact ⟨hk, hpath⟩

/-- The packages of a folder do not intrude on it. -/
theorem Package.Intrudes.folder_ne (h : k.Intrudes d) : k.folder ≠ d := by
  obtain ⟨-, -, rfl⟩ := h
  intro hsame
  have hlength := congrArg String.length hsame
  rw [String.length_append] at hlength
  have hmark : testMark.length = 5 := rfl
  omega

/-- A package that has the import path of its folder is not set aside. -/
theorem not_setAside_of_path (hpath : k.importPath = folderImportPath module k.folder) :
    ¬k.SetAside module := by
  intro hset
  have hlength := congrArg String.length (hset.symm.trans hpath)
  simp only [plainImportPath, String.length_append] at hlength
  have hmark : "#".length = 1 := rfl
  omega

/-- One package alone has the import path of a folder and lies there exactly if none that is set aside
has it, and the claim of an ordinary one is no less than those of packages that intrude. -/
theorem knowsFolder_groupPackages
    (hheads : ∀ q ∈ groupPackages module files, q.folder.toList.head? ≠ some '.')
    (hd : d.toList.head? ≠ some '.') :
    (∃ k, (groupPackages module files).filter (·.importPath = folderImportPath module d) = [k] ∧
        k.folder = d) ↔
      (∀ q ∈ groupPackages module files, q.SetAside module →
        q.importPath ≠ folderImportPath module d) ∧
      ∃ k ∈ groupPackages module files, k.Ordinary ∧ k.folder = d ∧
        ∀ q ∈ groupPackages module files, q.Intrudes d →
          claimsNoLess (lastPart '/' (withoutTestMarks (folderImportPath module d))) q k := by
  have hplain {q : Package} (hq : q ∈ groupPackages module files) :
      plainImportPath module q.folder q.name = folderImportPath module d ↔
        (q.Ordinary ∧ q.folder = d) ∨ q.Intrudes d :=
    plainImportPath_eq_iff (fun hdot => hheads q hq (hdot ▸ rfl)) hd
  constructor
  · rintro ⟨k, halone, hfolder⟩
    have honly {q : Package} : q ∈ groupPackages module files ∧
        q.importPath = folderImportPath module d ↔ q = k := mem_and_iff_of_filter_eq halone
    obtain ⟨hk, hpath⟩ := honly.mpr rfl
    have hnot : ¬k.SetAside module := not_setAside_of_path (hfolder.symm ▸ hpath)
    have hkeeps : k.Keeps module := by
      rcases mem_groupPackages hk with ⟨hkeeps, -⟩ | hset
      · exact hkeeps
      · exact absurd hset hnot
    have hown : plainImportPath module k.folder k.name = folderImportPath module d :=
      hkeeps.symm.trans hpath
    refine ⟨fun q hq hset hsame => hnot (honly.mp ⟨hq, hsame⟩ ▸ hset), k, hk, ?_, hfolder,
      fun q hq hintrudes => claimsNoLess_iff.mpr ?_⟩
    · rcases (hplain hk).mp hown with ⟨hordinary, -⟩ | hintrudes
      · exact hordinary
      · exact absurd hfolder hintrudes.folder_ne
    · obtain ⟨best, hbest, -, hpathBest, hstrongest⟩ := exists_keeper hk hown
      obtain rfl := honly.mp ⟨hbest, hpathBest⟩
      exact hstrongest q hq ((hplain hq).mpr (Or.inr hintrudes))
  · rintro ⟨haside, k, hk, hordinary, hfolder, hclaims⟩
    obtain ⟨best, hbest, hkeeps, hpath, hstrongest⟩ :=
      exists_keeper hk ((hplain hk).mpr (Or.inl ⟨hordinary, hfolder⟩))
    refine ⟨best, filter_importPath_eq haside hbest hkeeps hpath, ?_⟩
    rcases (hplain hbest).mp (hkeeps.symm.trans hpath) with ⟨-, hsame⟩ | hintrudes
    · exact hsame
    · -- otherwise a test package and an ordinary one have the same name
      have hequal := le_antisymm (claimsNoLess_iff.mp (hclaims best hbest hintrudes))
        (hstrongest k hk ((hplain hk).mpr (Or.inl ⟨hordinary, hfolder⟩)))
      have htest := hintrudes.1
      rw [name_eq_of_claim_eq hequal, hordinary] at htest
      cases htest

/-! ### Projects -/

section

variable {languages : List Language} {settings : ReadingSettings} {tree : FileTree} {path : String}
  {signal : Signal} {p : Project}

theorem Path.head?_join_ne {ps : List String} (h : ∀ q ∈ ps, q.toList.head? ≠ some '.') :
    (Path.join ps).toList.head? ≠ some '.' := by
  induction ps using List.reverseRecOn with
  | nil => simp [Path.join]
  | append_singleton ps q ih =>
    cases ps with
    | nil =>
      rw [List.nil_append, Path.join, String.intercalate_singleton]
      exact h q (List.mem_singleton_self q)
    | cons r rs =>
      have hrest := ih fun s hs => h s (List.mem_append_left _ hs)
      rw [Path.toList_join_concat (List.cons_ne_nil r rs), List.head?_append]
      cases hhead : (Path.join (r :: rs)).toList.head? with
      | none => simp
      | some c =>
        rw [hhead] at hrest
        exact hrest

/-- No package lies below a folder that is hidden. -/
theorem Project.head?_folder_ne
    (h : (Project.read languages settings tree path).outcome signal = .ok p) (hnamed : tree.Named)
    {k : Package} (hk : k ∈ p.packages) : k.folder.toList.head? ≠ some '.' := by
  obtain ⟨place, found, -, hfound, hassemble⟩ := Project.read_eq_ok h
  rw [(assemble_eq_ok hassemble).2.2] at hk
  obtain ⟨f, hf, hfolder⟩ := folder_of_mem_groupPackages hk
  obtain ⟨s, hs, hpath⟩ := path_of_mem_filesRead (List.mem_filter.mp hf).1
  have hnames := discoverAt_each hfound hnamed hs
  have hshown := shown_of_mem_discoverAt hfound hs
  rw [hfolder, hpath, Source.path]
  rcases List.eq_nil_or_concat' s.1 with hnil | ⟨ps, q, hplace⟩
  · rw [hnil]
    decide
  · rw [hplace] at hnames hshown ⊢
    rw [List.map_append, List.map_singleton, Path.parent_join _ (hnames q (by simp)).text.2]
    exact Path.head?_join_ne (by simpa using hshown)

/-- Exactly one package has the import path of a folder, and it lies there. -/
def Project.KnowsFolder (p : Project) (d : String) : Prop :=
  ∃ k, p.packages.filter (·.importPath = folderImportPath p.modulePath d) = [k] ∧ k.folder = d

/-- All that look for the import path of a folder that is known find its package. -/
theorem Project.KnowsFolder.found (h : p.KnowsFolder d) :
    ∃ k ∈ p.packages, k.folder = d ∧ p.package? (folderImportPath p.modulePath d) = some k ∧
      (SymbolTable.ofProject p).package? (folderImportPath p.modulePath d) = some k ∧
      ∀ projectId report, ∃ i, p.packages[i]? = some k ∧
        Directory.package? ⟨projectId, p, report⟩ (folderImportPath p.modulePath d) =
          some (k.draft i) := by
  obtain ⟨k, halone, hfolder⟩ := h
  have honly {q : Package} : q ∈ p.packages ∧
      q.importPath = folderImportPath p.modulePath d ↔ q = k := mem_and_iff_of_filter_eq halone
  obtain ⟨hk, hpath⟩ := honly.mpr rfl
  refine ⟨k, hk, hfolder, ?_, ?_, fun projectId report => ?_⟩
  · rw [Project.package?, ← List.head?_filter, halone]
    rfl
  · obtain ⟨k', hfound⟩ := SymbolTable.exists_package? hk
    rw [hpath] at hfound
    obtain rfl := honly.mp (SymbolTable.mem_of_package? hfound)
    exact hfound
  · obtain ⟨x, hx⟩ := Directory.exists_package? (d := ⟨projectId, p, report⟩) ⟨k, hk, hpath⟩
    obtain ⟨k', i, hplaced, hsame, rfl⟩ := Directory.package?_eq_some hx
    have hplace := List.mk_mem_zipIdx_iff_getElem?.mp hplaced
    obtain rfl := honly.mp ⟨List.mem_of_getElem? hplace, hsame⟩
    exact ⟨i, hplace, hx⟩

/-- **When a folder is known by its import path.**  A folder with an ordinary package has its import path
for one package of its own exactly if no package that is set aside has it, and one of its ordinary
packages has no less a claim than the tests of a folder that this one is called after.  Then all imports
of the path lead to that package.  A folder is known at least where its name has no number sign and does
not end with the mark of tests. -/
theorem Project.read_folderPaths
    (h : (Project.read languages settings tree path).outcome signal = .ok p) (hnamed : tree.Named)
    {o : Package} (ho : o ∈ p.packages) (hordinary : o.Ordinary) :
    let importPath := folderImportPath p.modulePath o.folder
    (p.KnowsFolder o.folder ↔
      (∀ q ∈ p.packages, q.SetAside p.modulePath → q.importPath ≠ importPath) ∧
      ∃ k ∈ p.packages, k.Ordinary ∧ k.folder = o.folder ∧
        ∀ q ∈ p.packages, q.Intrudes o.folder →
          claimsNoLess (lastPart '/' (withoutTestMarks importPath)) q k) ∧
    (p.KnowsFolder o.folder → ∃ k ∈ p.packages, k.folder = o.folder ∧
      p.package? importPath = some k ∧ (SymbolTable.ofProject p).package? importPath = some k ∧
      ∀ projectId report, ∃ i, p.packages[i]? = some k ∧
        Directory.package? ⟨projectId, p, report⟩ importPath = some (k.draft i)) ∧
    ('#' ∉ o.folder.toList → Path.endsWith o.folder testMark = false → p.KnowsFolder o.folder) := by
  intro importPath
  have hheads := fun q hq => Project.head?_folder_ne h hnamed (k := q) hq
  have hknows : p.KnowsFolder o.folder ↔
      (∀ q ∈ p.packages, q.SetAside p.modulePath → q.importPath ≠ importPath) ∧
      ∃ k ∈ p.packages, k.Ordinary ∧ k.folder = o.folder ∧
        ∀ q ∈ p.packages, q.Intrudes o.folder →
          claimsNoLess (lastPart '/' (withoutTestMarks importPath)) q k := by
    obtain ⟨files, hpackages, -⟩ := Project.read_groups h
    have hhead := hheads o ho
    rw [Project.KnowsFolder]
    rw [hpackages] at hheads ⊢
    exact knowsFolder_groupPackages hheads hhead
  refine ⟨hknows, Project.KnowsFolder.found, fun hhash hmark => hknows.mpr ⟨?_, o, ho, hordinary, rfl, ?_⟩⟩
  · exact fun q _ hset hpath => hhash (hash_mem_of_setAside hset hpath)
  · intro q _ hintrudes
    rw [hintrudes.endsWith] at hmark
    cases hmark

/-- A module of which one folder holds tests, and another is called like that one with the mark of tests. -/
def testedTree : FileTree :=
  let text (s : String) : FileTree := .file (Text.Utf8.encode s)
  .folder [("p", .folder [("go.mod", text "module m\n"),
    ("x", .folder [("x.go", text "package x\n"), ("x_test.go", text "package x_test\n")]),
    ("x_test", .folder [("l.go", text "package l\n")])])]

/-- Its sources. -/
def testedSources : List Source :=
  [(["x", "x.go"], .ok (Text.Utf8.encode "package x\n")),
    (["x", "x_test.go"], .ok (Text.Utf8.encode "package x_test\n")),
    (["x_test", "l.go"], .ok (Text.Utf8.encode "package l\n"))]

/-- The files that are read from them. -/
def testedFiles : List SourceFile :=
  (filesRead (testedSources.map (readSource Languages.standard))).filter (·.package ≠ "")

/-- The packages of the module: import path, folder and name. -/
def testedListing : List (String × String × String) :=
  [("m/x", "x", "x"), ("m/x_test", "x", "x_test"), ("m/x_test#l", "x_test", "l")]

theorem listing_tested :
    (groupPackages (some "m") testedFiles).map (fun k => (k.importPath, k.key)) = testedListing := by
  have hkeys : (testedFiles.map packageKey).eraseDups =
      [("x", "x"), ("x", "x_test"), ("x_test", "l")] := by
    decide +kernel
  have hsorted : [("x", "x"), ("x", "x_test"), ("x_test", "l")].Pairwise fun a b =>
      keyLessOrEqual a b = true := by
    decide +kernel
  have hsettled : (settleRivals (packagesByKey (some "m") testedFiles)).map
      (fun k => (k.importPath, k.key)) = testedListing := by
    rw [packagesByKey, hkeys, List.mergeSort_of_pairwise hsorted]
    decide +kernel
  exact map_groupPackages Prod.fst (fun _ => rfl) hsettled (by decide +kernel)

/-- An import of the folder `x_test` leads to the tests of the folder `x`. -/
theorem Project.read_folderPaths_tested :
    testedTree.Named ∧ ∃ p,
      (Project.read Languages.standard { includeTests := true } testedTree "/p").outcome .never = .ok p ∧
      (∃ o ∈ p.packages, o.Ordinary ∧ o.folder = "x_test" ∧ o.importPath = "m/x_test#l") ∧
      ¬p.KnowsFolder "x_test" ∧
      ∃ q, p.package? (folderImportPath p.modulePath "x_test") = some q ∧ q.folder = "x" := by
  obtain ⟨p, hread, hmodule, hpackages⟩ := Project.exists_read_child Languages.standard
    { includeTests := true } testedTree testedSources rfl (by decide) rfl (by decide +kernel)
    (by decide +kernel) (by decide +kernel)
  have hm : modulePathAt testedTree ["p"] = some "m" := by decide +kernel
  have hnamed : testedTree.Named := by
    simp only [testedTree, FileTree.Named, FileTree.Each, EachEntry]
    decide +kernel
  rw [hm] at hmodule hpackages
  have hlisted : p.packages.map (fun k => (k.importPath, k.key)) = testedListing := by
    rw [hpackages]
    exact listing_tested
  have hmem {u : String × String × String} (hu : u ∈ testedListing) :
      ∃ k ∈ p.packages, k.importPath = u.1 ∧ k.folder = u.2.1 ∧ k.name = u.2.2 := by
    rw [← hlisted] at hu
    obtain ⟨k, hk, rfl⟩ := List.mem_map.mp hu
    exact ⟨k, hk, rfl, rfl, rfl⟩
  obtain ⟨o, ho, hpath, hfolder, hname⟩ := hmem (u := ("m/x_test#l", "x_test", "l")) (by decide)
  obtain ⟨q, hq, -, hqfolder, hqname⟩ := hmem (u := ("m/x_test", "x", "x_test")) (by decide)
  have hordinary : o.Ordinary := by
    rw [Package.Ordinary, hname]
    decide +kernel
  refine ⟨hnamed, p, hread, ⟨o, ho, hordinary, hfolder, hpath⟩, ?_, ?_⟩
  · have hknows := (Project.read_folderPaths hread hnamed ho hordinary).1
    rw [hfolder, hmodule] at hknows
    rw [hknows]
    rintro ⟨-, k, hk, -, hkfolder, hclaims⟩
    have hkname : k.name = "l" := by
      have hlistedk : (k.importPath, k.folder, k.name) ∈ testedListing :=
        hlisted ▸ List.mem_map_of_mem hk
      have hrest : k.importPath = "m/x_test#l" ∧ k.name = "l" := by
        simpa [testedListing, hkfolder] using hlistedk
      exact hrest.2
    have hintrudes : q.Intrudes "x_test" := by
      rw [Package.Intrudes, hqname, hqfolder]
      decide +kernel
    have hclaim := hclaims q hq hintrudes
    -- the tests are named after the folder `x`, and `l` is not
    rw [show lastPart '/' (withoutTestMarks (folderImportPath (some "m") "x_test")) = "x" by
      decide +kernel] at hclaim
    have htests : withoutTestMarks "x_test" = "x" := by decide +kernel
    have hother : withoutTestMarks "l" ≠ "x" := by decide +kernel
    simp [claimsNoLess, hqname, hkname, htests, hother] at hclaim
  · have hfound : (p.packages.map fun k => (k.importPath, k.key)).find? (·.1 = "m/x_test") =
        some ("m/x_test", "x", "x_test") := by
      rw [hlisted]
      decide +kernel
    rw [List.find?_map] at hfound
    obtain ⟨r, hr, hsame⟩ := Option.map_eq_some_iff.mp hfound
    rw [hmodule]
    exact ⟨r, hr, (Prod.mk.inj (Prod.mk.inj hsame).2).1⟩

end

end CodeGraph
