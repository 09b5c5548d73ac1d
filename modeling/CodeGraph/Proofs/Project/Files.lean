import CodeGraph.Proofs.Project.Discovery
import CodeGraph.Proofs.Project.Reading
import CodeGraph.Proofs.Project.Rivals
import Mathlib.Data.List.Induction

/-!
# The files of a project

* `FileTree.Distinct` — no folder of a tree has two entries of one name.
* `Path.join_inj` — a place of names is known by its path.
* `Project.read_groups` — the packages of a project are grouped from the files of its sources.
* `Project.exists_readSource` — every file of a project was read from a source.
* `Project.nodup_paths` — so the files of a project have distinct paths, where names are texts.
* `Project.packages_apart` — no two packages of a project agree in their import paths and folders.
-/

namespace CodeGraph

/-! ### Paths -/

namespace Path

variable {ps qs : List String}

theorem join_ne_empty (h : ps ≠ []) (hnames : ∀ p ∈ ps, IsName p) : join ps ≠ "" := by
  obtain ⟨qs, p, rfl⟩ := (List.eq_nil_or_concat' ps).resolve_left h
  intro hempty
  cases qs with
  | nil =>
    rw [List.nil_append, join, String.intercalate_singleton] at hempty
    exact (hnames p (by simp)).1 hempty
  | cons q qs =>
    have hchars := toList_join_concat (List.cons_ne_nil q qs) p
    rw [hempty] at hchars
    simp at hchars

/-- A place of names is known by its path. -/
theorem join_inj (hps : ∀ p ∈ ps, IsName p) (hqs : ∀ q ∈ qs, IsName q) (h : join ps = join qs) :
    ps = qs := by
  induction ps using List.reverseRecOn generalizing qs with
  | nil =>
    by_contra hne
    exact join_ne_empty (Ne.symm hne) hqs h.symm
  | append_singleton ps p ih =>
    rcases List.eq_nil_or_concat' qs with rfl | ⟨qs, q, rfl⟩
    · exact absurd h (join_ne_empty (by simp) hps)
    · have hfolder : join ps = join qs := by
        rw [← parent_join ps (hps p (by simp)).2, h, parent_join qs (hqs q (by simp)).2]
      obtain rfl : ps = qs := ih (fun r hr => hps r (List.mem_append_left _ hr))
        (fun r hr => hqs r (List.mem_append_left _ hr)) hfolder
      cases ps with
      | nil =>
        simp only [List.nil_append, join, String.intercalate_singleton] at h
        rw [h]
      | cons r rs =>
        have hchars := congrArg String.toList h
        rw [toList_join_concat (List.cons_ne_nil r rs), toList_join_concat (List.cons_ne_nil r rs),
          List.append_cancel_left_eq] at hchars
        rw [String.toList_inj.mp (List.cons.inj hchars).2]

end Path

/-! ### Trees -/

mutual
/-- No folder of a tree has two entries of one name. -/
def FileTree.Distinct : FileTree → Prop
  | .folder entries => EntriesDistinct entries
  | _ => True

/-- The same over the entries of a folder. -/
def EntriesDistinct : List (FileName × FileTree) → Prop
  | [] => True
  | (name, t) :: entries =>
    name ∉ entries.map (·.1) ∧ t.Distinct ∧ EntriesDistinct entries
end

theorem FileTree.Distinct.entry {entries : List (FileName × FileTree)} {name : FileName}
    {t : FileTree} (h : EntriesDistinct entries) (ht : entries.lookup name = some t) :
    t.Distinct := by
  induction entries with
  | nil => cases ht
  | cons e entries ih =>
    obtain ⟨-, he, hentries⟩ := h
    rw [List.lookup_cons] at ht
    split at ht
    next => exact Option.some.inj ht ▸ he
    next => exact ih hentries ht

theorem FileTree.Distinct.at? {t u : FileTree} (h : t.Distinct) {place : List FileName}
    (hu : t.at? place = some u) : u.Distinct :=
  FileTree.at?_ind (P := FileTree.Distinct) (fun hfolder ht => FileTree.Distinct.entry hfolder ht) h
    hu

mutual
/-- The leaves of a tree lie at different places below its own. -/
theorem FileTree.nodup_leavesFrom (place : List FileName) :
    ∀ (t : FileTree), t.Distinct → ((t.leavesFrom place).map (·.1)).Nodup ∧
      ∀ u ∈ t.leavesFrom place, place <+: u.1
  | .folder entries, h => by
    rw [FileTree.leavesFrom]
    obtain ⟨hnodup, hplaces⟩ := nodup_leavesOfEntries place entries h
    refine ⟨hnodup, fun u hu => ?_⟩
    obtain ⟨name, -, hbelow⟩ := hplaces u hu
    exact (List.prefix_append place [name]).trans hbelow
  | .file _, _ | .lockedFile _, _ | .lockedFolder _, _ | .link _, _ => by
    refine ⟨List.nodup_singleton _, fun u hu => ?_⟩
    obtain rfl := List.mem_singleton.mp hu
    exact List.prefix_rfl

theorem nodup_leavesOfEntries (place : List FileName) :
    ∀ (entries : List (FileName × FileTree)), EntriesDistinct entries →
      ((leavesOfEntries place entries).map (·.1)).Nodup ∧
        ∀ u ∈ leavesOfEntries place entries, ∃ name ∈ entries.map (·.1), place ++ [name] <+: u.1
  | [], _ => by
    rw [leavesOfEntries]
    exact ⟨List.nodup_nil, fun u hu => absurd hu List.not_mem_nil⟩
  | (name, t) :: entries, h => by
    obtain ⟨hname, ht, hentries⟩ := h
    obtain ⟨hnodup, hplaces⟩ := FileTree.nodup_leavesFrom (place ++ [name]) t ht
    obtain ⟨hothers, hotherPlaces⟩ := nodup_leavesOfEntries place entries hentries
    rw [leavesOfEntries, List.map_append, List.nodup_append']
    refine ⟨⟨hnodup, hothers, ?_⟩, fun u hu => ?_⟩
    · -- below different entries, places differ in their step after `place`
      intro q hq hq'
      obtain ⟨u, hu, rfl⟩ := List.mem_map.mp hq
      obtain ⟨v, hv, hplace⟩ := List.mem_map.mp hq'
      obtain ⟨other, hother, hbelow⟩ := hotherPlaces v hv
      rw [hplace] at hbelow
      have hstep : place ++ [name] = place ++ [other] :=
        (List.prefix_of_prefix_length_le (hplaces u hu) hbelow (by simp)).eq_of_length (by simp)
      rw [List.append_cancel_left_eq, List.singleton_inj] at hstep
      exact hname (hstep ▸ hother)
    · rcases List.mem_append.mp hu with hu | hu
      · exact ⟨name, List.mem_cons_self, hplaces u hu⟩
      · obtain ⟨other, hother, hbelow⟩ := hotherPlaces u hu
        exact ⟨other, List.mem_cons_of_mem _ hother, hbelow⟩
end

/-- Whatever is taken of a tree, no two things are taken of one place. -/
theorem FileTree.nodup_taken {α : Type} (take : FileTree → Option α) {t : FileTree} (h : t.Distinct) :
    ((t.taken take).map (·.1)).Nodup := by
  refine (map_filterMap_sublist (Prod.fst : List FileName × FileTree → _)
    (Prod.fst : List FileName × α → _) fun u _ x hx => ?_).nodup (FileTree.nodup_leavesFrom [] t h).1
  obtain ⟨a, -, rfl⟩ := Option.map_eq_some_iff.mp hx
  rfl

/-- No place holds both a file and a folder that cannot be listed. -/
theorem FileTree.nodup_files_refusals {t : FileTree} (h : t.Distinct) :
    (t.files.map (·.1) ++ t.refusals.map (·.1)).Nodup := by
  refine List.nodup_append'.mpr ⟨FileTree.nodup_taken _ h, FileTree.nodup_taken _ h, ?_⟩
  intro place hfile hrefused
  obtain ⟨s, hs, rfl⟩ := List.mem_map.mp hfile
  obtain ⟨r, hr, hplace⟩ := List.mem_map.mp hrefused
  obtain ⟨u, hu, hanswer⟩ := FileTree.mem_taken.mp hs
  obtain ⟨v, hv, hrefusal⟩ := FileTree.mem_taken.mp hr
  obtain ⟨-, rfl⟩ := Prod.mk.inj (List.inj_on_of_nodup_map (FileTree.nodup_leavesFrom [] t h).1 hu hv
    hplace.symm)
  cases u with
  | file _ | lockedFile _ => cases hrefusal
  | folder _ | lockedFolder _ | link _ => cases hanswer

/-! ### Sources -/

variable {languages : List Language} {settings : ReadingSettings} {tree : FileTree} {path : String}
  {found : Discovery}

/-- Sources and the folders that could not be listed lie at different places, and those have names as the
tree has them. -/
theorem discoverAt_places (h : discoverAt languages settings tree path = .ok found)
    (htree : tree.Distinct) : ∃ refused : List (List FileName × AccessFault),
      found.issues = refused.map (refusalIssue path) ∧
      (found.sources.map (·.1) ++ refused.map (·.1)).Nodup ∧
      ∀ P, tree.Each P → ∀ r ∈ refused, ∀ n ∈ r.1, P n := by
  rcases discoverAt_eq_ok h with rfl | ⟨place, t, ht, hfound⟩
  · exact ⟨[], rfl, List.nodup_nil, fun _ _ r hr => absurd hr List.not_mem_nil⟩
  · unfold discover at hfound
    cases hparse : parsePatterns settings.ignoredPatterns with
    | error f => simp [hparse, Except.map] at hfound
    | ok ignored =>
      simp only [hparse, Except.map, Except.ok.injEq] at hfound
      subst hfound
      refine ⟨_, rfl, ?_, fun P hP r hr => ?_⟩
      · rw [(((sortedBy_perm _ _).map _).append ((sortedBy_perm _ _).map _)).nodup_iff]
        exact ((List.filter_sublist.map _).append (List.filter_sublist.map _)).nodup
          (FileTree.nodup_files_refusals (htree.at? ht))
      · have hrefused := (List.mem_filter.mp ((sortedBy_perm _ _).mem_iff.mp hr)).1
        obtain ⟨u, hu, -⟩ := FileTree.mem_taken.mp hrefused
        exact FileTree.each_of_mem_leavesFrom (by simp) t (hP.at? ht) _ hu

/-- Sources lie at different places. -/
theorem nodup_places_discoverAt (h : discoverAt languages settings tree path = .ok found)
    (htree : tree.Distinct) : (found.sources.map (·.1)).Nodup := by
  obtain ⟨refused, -, hnodup, -⟩ := discoverAt_places h htree
  exact hnodup.of_append_left

/-- Where names are texts, sources and the folders that could not be listed have different paths. -/
theorem nodup_paths_discoverAt (h : discoverAt languages settings tree path = .ok found)
    (hnamed : tree.Named) (hdistinct : tree.Distinct) (hlegible : tree.Legible) :
    (found.sources.map Source.path ++ found.issues.map (·.path)).Nodup := by
  obtain ⟨refused, hissues, hnodup, hrefused⟩ := discoverAt_places h hdistinct
  have hshown : found.sources.map Source.path ++ found.issues.map (·.path) =
      (found.sources.map (·.1) ++ refused.map (·.1)).map
        fun place => Path.join (place.map FileName.text) := by
    rw [hissues, List.map_append, List.map_map, List.map_map, List.map_map]
    rfl
  have hnames (P : FileName → Prop) (hP : tree.Each P) :
      ∀ place ∈ found.sources.map (·.1) ++ refused.map (·.1), ∀ n ∈ place, P n := by
    refine List.forall_mem_append.mpr ⟨List.forall_mem_map.mpr fun s hs => discoverAt_each h hP hs,
      List.forall_mem_map.mpr (hrefused P hP)⟩
  rw [hshown]
  refine hnodup.map_on fun a ha b hb hjoin => ?_
  exact FileName.map_text_inj (hnames _ hlegible a ha) (hnames _ hlegible b hb)
    (Path.join_inj (FileName.forall_text (hnames _ hnamed a ha))
      (FileName.forall_text (hnames _ hnamed b hb)) hjoin)

/-- The paths of the files that are read are among those of their sources. -/
theorem paths_filesRead_sublist (languages : List Language) (sources : List Source) :
    ((filesRead (sources.map (readSource languages))).map (·.path)).Sublist
      (sources.map Source.path) := by
  rw [filesRead, List.filterMap_map]
  refine map_filterMap_sublist Source.path SourceFile.path fun s _ f hf => ?_
  cases hread : readSource languages s with
  | error i => simp [hread, Except.toOption] at hf
  | ok g =>
    obtain rfl : g = f := by simpa [hread, Except.toOption] using hf
    exact path_readSource hread

/-! ### Packages -/

/-- Every file is in one package. -/
theorem files_groupPackages_perm (module : Option String) (files : List SourceFile) :
    ((groupPackages module files).flatMap (·.files)).Perm files := by
  have hsettled : ((packagesByKey module files).map
      (settle (packagesByKey module files))).flatMap (·.files) =
        (packagesByKey module files).flatMap (·.files) := by
    rw [List.flatMap_map]
    exact List.flatMap_congr fun k _ => files_settle _ k
  refine ((perm_groupPackages module files).flatMap_right _).trans ?_
  rw [hsettled, packagesByKey, List.flatMap_map]
  refine (List.Perm.flatMap_left _ fun key _ => List.mergeSort_perm _ _).trans ?_
  refine flatMap_filter_perm packageKey ?_ files fun f hf => ?_
  · rw [(List.mergeSort_perm _ _).nodup_iff]
    exact nodup_eraseDups _
  · rw [(List.mergeSort_perm _ _).mem_iff, List.mem_eraseDups]
    exact List.mem_map.mpr ⟨f, hf, rfl⟩

theorem groupPackages_nil (module : Option String) : groupPackages module [] = [] := by
  refine List.eq_nil_iff_forall_not_mem.mpr fun p hp => ?_
  obtain ⟨f, hf, -⟩ := folder_of_mem_groupPackages hp
  cases hf

theorem groupPackages_ne_nil (module : Option String) {files : List SourceFile} (h : files ≠ []) :
    groupPackages module files ≠ [] := by
  intro hnone
  have hperm := files_groupPackages_perm module files
  rw [hnone] at hperm
  exact h hperm.nil_eq.symm

/-- The folder of a package as it is shown: the root is written as a point. -/
def Package.shownFolder (k : Package) : String := if k.folder = "" then "." else k.folder

variable {signal : Signal} {p : Project}

/-- The packages of a project are grouped from the files of its sources. -/
theorem Project.read_groups
    (h : (Project.read languages settings tree path).outcome signal = .ok p) :
    ∃ files, p.packages = groupPackages p.modulePath files ∧
      (tree.Named → ∀ f ∈ files, Path.parent f.path ≠ ".") := by
  obtain ⟨place, found, -, hfound, hassemble⟩ := Project.read_eq_ok h
  obtain ⟨-, hmodule, hpackages⟩ := assemble_eq_ok hassemble
  rw [← hmodule] at hpackages
  refine ⟨_, hpackages, fun htree f hf => ?_⟩
  obtain ⟨s, hs, hpath⟩ := path_of_mem_filesRead (List.mem_filter.mp hf).1
  rw [hpath]
  exact parent_ne_dot hfound htree hs

/-- Every file of a project was read from a source. -/
theorem Project.exists_readSource
    (h : (Project.read languages settings tree path).outcome signal = .ok p) {k : Package}
    {f : SourceFile} (hk : k ∈ p.packages) (hf : f ∈ k.files) :
    ∃ s, readSource languages s = .ok f := by
  obtain ⟨place, found, -, -, hassemble⟩ := Project.read_eq_ok h
  have hmem : f ∈ p.packages.flatMap (·.files) := List.mem_flatMap.mpr ⟨k, hk, hf⟩
  rw [(assemble_eq_ok hassemble).2.2, (files_groupPackages_perm _ _).mem_iff] at hmem
  obtain ⟨s, -, hread⟩ := mem_filesRead.mp (List.mem_filter.mp hmem).1
  exact ⟨s, hread⟩

/-- The files of a project have distinct paths, where names are texts. -/
theorem Project.nodup_paths
    (h : (Project.read languages settings tree path).outcome signal = .ok p)
    (hnamed : tree.Named) (hdistinct : tree.Distinct) (hlegible : tree.Legible) :
    ((p.packages.flatMap (·.files)).map (·.path)).Nodup := by
  obtain ⟨place, found, -, hfound, hassemble⟩ := Project.read_eq_ok h
  rw [(assemble_eq_ok hassemble).2.2, ((files_groupPackages_perm _ _).map _).nodup_iff]
  exact ((List.filter_sublist.map _).trans (paths_filesRead_sublist languages found.sources)).nodup
    (nodup_paths_discoverAt hfound hnamed hdistinct hlegible).of_append_left

/-- No two packages of a project agree in their import paths and the folders that are shown. -/
theorem Project.packages_apart
    (h : (Project.read languages settings tree path).outcome signal = .ok p)
    (hnamed : tree.Named) :
    (p.packages.map fun k => (k.importPath, k.shownFolder)).Nodup := by
  obtain ⟨files, hpackages, hfolders⟩ := Project.read_groups h
  have hdot : ∀ k ∈ p.packages, k.folder ≠ "." := by
    intro k hk
    rw [hpackages] at hk
    obtain ⟨f, hf, hfolder⟩ := folder_of_mem_groupPackages hk
    rw [hfolder]
    exact hfolders hnamed f hf
  rw [hpackages] at hdot ⊢
  refine (nodup_keys_groupPackages _ _).of_map.map_on fun a ha b hb heq => ?_
  obtain ⟨hpath, hshown⟩ := Prod.mk.inj heq
  refine importPath_inj_in_folder ha hb ?_ hpath
  unfold Package.shownFolder at hshown
  split at hshown <;> split at hshown
  next ha' hb' => rw [ha', hb']
  next => exact absurd hshown.symm (hdot b hb)
  next => exact absurd hshown (hdot a ha)
  next => exact hshown

/-- The only folder of a tree can be read where some of its sources have a package clause. -/
theorem Project.exists_read_child (languages : List Language) (settings : ReadingSettings)
    (tree : FileTree) (sources : List Source) {entries : List (FileName × FileTree)}
    {ignored : List (List Text.Glob.Piece)} (htree : tree = .folder [("p", .folder entries)])
    (hworkers : settings.workers ≠ 0)
    (hpatterns : parsePatterns settings.ignoredPatterns = .ok ignored)
    (hselected : (FileTree.folder entries).files.filter (fun f =>
      (Selection.mk languages settings ignored).selects "p" f.1) = sources)
    (hsorted : sources.Pairwise fun a b => (compare a.1 b.1).isLE = true)
    (hread : (filesRead (sources.map (readSource languages))).filter (·.package ≠ "") ≠ []) :
    ∃ p, (Project.read languages settings tree "/p").outcome .never = .ok p ∧
      p.modulePath = modulePathAt tree ["p"] ∧
      p.packages = groupPackages (modulePathAt tree ["p"])
        ((filesRead (sources.map (readSource languages))).filter (·.package ≠ "")) := by
  subst htree
  have hfound := discoverAt_child hpatterns hselected hsorted
  rw [← placeText_child] at hfound
  obtain ⟨p, hassemble⟩ := exists_assemble (placeText ["p"]) _
    (groupPackages_ne_nil (modulePathAt (.folder [("p", .folder entries)]) ["p"]) hread)
  exact ⟨p, Project.read_never hworkers (rootPlace_child entries) hfound hassemble,
    (assemble_eq_ok hassemble).2⟩

/-- A source alone in the only folder of a tree makes a package of its own. -/
theorem Project.exists_read_source (languages : List Language) (settings : ReadingSettings)
    (tree : FileTree) (s : Source) {entries : List (FileName × FileTree)}
    {ignored : List (List Text.Glob.Piece)} {file : SourceFile}
    (htree : tree = .folder [("p", .folder entries)]) (hworkers : settings.workers ≠ 0)
    (hpatterns : parsePatterns settings.ignoredPatterns = .ok ignored)
    (hselected : (FileTree.folder entries).files.filter (fun f =>
      (Selection.mk languages settings ignored).selects "p" f.1) = [s])
    (hread : readSource languages s = .ok file) (hpackage : file.package ≠ "") :
    ∃ p, (Project.read languages settings tree "/p").outcome .never = .ok p ∧
      p.packages = [⟨plainImportPath (modulePathAt tree ["p"]) (Path.parent s.path)
        file.package, file.package, Path.parent s.path, [file]⟩] := by
  have hfile : (filesRead ([s].map (readSource languages))).filter (·.package ≠ "") = [file] := by
    rw [List.map_singleton, hread]
    exact List.filter_eq_self.mpr fun f hf => by
      rw [List.mem_singleton.mp hf]
      exact decide_eq_true hpackage
  obtain ⟨p, hp, -, hpackages⟩ := Project.exists_read_child languages settings tree [s] htree hworkers
    hpatterns hselected (List.pairwise_singleton _ _)
    (by rw [hfile]; exact List.cons_ne_nil _ _)
  have hkeys : ([file].map packageKey).eraseDups = [(Path.parent s.path, file.package)] := by
    rw [List.map_singleton, packageKey, path_readSource hread, List.eraseDups_cons, List.filter_nil,
      List.eraseDups_nil]
  rw [hfile, groupPackages_of_one_key _ hkeys (List.pairwise_singleton _ _)] at hpackages
  exact ⟨p, hp, hpackages⟩

end CodeGraph
