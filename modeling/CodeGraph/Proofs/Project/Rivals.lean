import CodeGraph.Project.Package
import CodeGraph.Proofs.Lists

/-!
# Packages that share an import path

* `Package.key` — the folder and the name of a package, which no two packages share.
* `Package.Keeps`, `Package.SetAside` — a package under the import path of its folder, and one under
  a path with its name.
* `keeps_inj` — of the packages with one import path only one keeps it.
* `importPath_inj_in_folder` — within one folder, packages are known by their import paths.
* `folder_hash_of_clash` — where two packages end up with one import path all the same, a folder has
  a number sign in its name.
-/

namespace CodeGraph

variable {module : Option String} {files : List SourceFile} {packages : List Package}
  {p q : Package}

/-! ### Import paths of folders -/

/-- What follows the module path in the import path of a folder. -/
def folderTail (module : Option String) (folder : String) : List Char :=
  match module with
  | some _ => if folder = "" then [] else '/' :: folder.toList
  | none => if folder = "" then ['.'] else folder.toList

/-- The mark of test packages, for a name that has it. -/
def markTail (name : String) : List Char :=
  if Path.endsWith name testMark then testMark.toList else []

theorem toList_folderImportPath (module : Option String) (folder : String) :
    (folderImportPath module folder).toList =
      (module.getD "").toList ++ folderTail module folder := by
  unfold folderImportPath folderTail
  split <;> simp_all

theorem toList_plainImportPath (module : Option String) (folder name : String) :
    (plainImportPath module folder name).toList =
      (module.getD "").toList ++ (folderTail module folder ++ markTail name) := by
  have hmark : (if Path.endsWith name testMark then testMark else "").toList = markTail name := by
    unfold markTail
    split <;> rfl
  rw [plainImportPath, String.toList_append, toList_folderImportPath, hmark, List.append_assoc]

theorem hash_notMem_folderTail {folder : String} (h : '#' ∉ folder.toList) :
    '#' ∉ folderTail module folder := by
  unfold folderTail
  split <;> split <;> simp [h]

theorem hash_notMem_markTail (name : String) : '#' ∉ markTail name := by
  unfold markTail
  split <;> decide

/-- A folder is known by its import path, but for one that is called `.` itself. -/
theorem folderTail_inj {folder folder' : String} (h : folder ≠ ".") (h' : folder' ≠ ".")
    (heq : folderTail module folder = folderTail module folder') : folder = folder' := by
  have hdot {s : String} (hs : s.toList = ['.']) : s = "." := String.toList_inj.mp hs
  have hempty {s : String} (hs : s.toList = []) : s = "" := String.toList_inj.mp hs
  unfold folderTail at heq
  split at heq
  · split at heq <;> split at heq
    next h₁ h₂ => rw [h₁, h₂]
    next => cases heq
    next => cases heq
    next => exact String.toList_inj.mp (List.cons.inj heq).2
  · split at heq <;> split at heq
    next h₁ h₂ => rw [h₁, h₂]
    next => exact absurd (hdot heq.symm) h'
    next => exact absurd (hdot heq) h
    next => exact String.toList_inj.mp heq

/-! ### Packages by folder and name -/

namespace Package

/-- The folder and the name of a package. -/
def key (p : Package) : String × String := (p.folder, p.name)

/-- The package has the import path of its folder. -/
def Keeps (module : Option String) (p : Package) : Prop :=
  p.importPath = plainImportPath module p.folder p.name

/-- The package has a path with its name, as others have a better claim to that of its folder. -/
def SetAside (module : Option String) (p : Package) : Prop :=
  p.importPath = plainImportPath module p.folder p.name ++ "#" ++ p.name

end Package

theorem nodup_keys_packagesByKey (module : Option String) (files : List SourceFile) :
    ((packagesByKey module files).map Package.key).Nodup := by
  have hkeys : (packagesByKey module files).map Package.key =
      ((files.map packageKey).eraseDups).mergeSort keyLessOrEqual := by
    rw [packagesByKey, List.map_map]
    exact List.map_id _
  rw [hkeys, (List.mergeSort_perm _ _).nodup_iff]
  exact nodup_eraseDups _

theorem keeps_of_mem_packagesByKey (h : p ∈ packagesByKey module files) : p.Keeps module := by
  obtain ⟨key, -, rfl⟩ := List.mem_map.mp h
  rfl

/-! ### Settling -/

theorem bestRival?_isSome (folderName : String) (h : packages ≠ []) :
    ∃ best, bestRival? folderName packages = some best := by
  cases packages with
  | nil => exact absurd rfl h
  | cons p ps => exact ⟨_, rfl⟩

/-- A package keeps its path only if it has no rival or is the best of them. -/
theorem settle_eq_self (hp : p ∈ packages) (h : settle packages p = p) :
    (packages.filter (·.importPath = p.importPath)).length < 2 ∨
      ∃ best, bestRival? (lastPart '/' (withoutTestMarks p.importPath))
        (packages.filter (·.importPath = p.importPath)) = some best ∧ best.key = p.key := by
  have hmem : p ∈ packages.filter (·.importPath = p.importPath) :=
    List.mem_filter.mpr ⟨hp, decide_eq_true rfl⟩
  obtain ⟨best, hbest⟩ := bestRival?_isSome
    (lastPart '/' (withoutTestMarks p.importPath)) (List.ne_nil_of_mem hmem)
  by_cases hkeeps : (packages.filter (·.importPath = p.importPath)).length < 2 ∨
      best.folder = p.folder ∧ best.name = p.name
  · rcases hkeeps with hfew | ⟨hfolder, hname⟩
    · exact Or.inl hfew
    · exact Or.inr ⟨best, hbest, Prod.ext hfolder hname⟩
  · -- a path with the name is longer than the path alone
    have hlonger : (settle packages p).importPath.length =
        p.importPath.length + (1 + p.name.length) := by
      simp only [settle, hbest]
      rw [if_neg (by simpa using hkeeps), String.length_append, String.length_append, Nat.add_assoc]
      rfl
    rw [h] at hlonger
    omega

theorem settle_cases (packages : List Package) (p : Package) :
    settle packages p = p ∨
      settle packages p = { p with importPath := p.importPath ++ "#" ++ p.name } := by
  simp only [settle]
  split
  · split
    · exact Or.inl rfl
    · exact Or.inr rfl
  · exact Or.inl rfl

/-- Of the packages with one import path only one keeps it. -/
theorem settle_inj (hkeys : (packages.map Package.key).Nodup) (hp : p ∈ packages)
    (hq : q ∈ packages) (hsp : settle packages p = p) (hsq : settle packages q = q)
    (hpath : p.importPath = q.importPath) : p = q := by
  have hkey (h : p.key = q.key) : p = q := List.inj_on_of_nodup_map hkeys hp hq h
  have hpr := settle_eq_self hp hsp
  have hqr := settle_eq_self hq hsq
  rw [hpath] at hpr
  have hmp : p ∈ packages.filter (·.importPath = q.importPath) :=
    List.mem_filter.mpr ⟨hp, decide_eq_true hpath⟩
  have hmq : q ∈ packages.filter (·.importPath = q.importPath) :=
    List.mem_filter.mpr ⟨hq, decide_eq_true rfl⟩
  have hfew : (packages.filter (·.importPath = q.importPath)).length < 2 → p = q := by
    intro hlt
    match hrivals : packages.filter (·.importPath = q.importPath) with
    | [] => simp [hrivals] at hmp
    | [r] =>
      rw [hrivals] at hmp hmq
      rw [List.mem_singleton.mp hmp, List.mem_singleton.mp hmq]
    | _ :: _ :: _ =>
      simp only [hrivals, List.length_cons] at hlt
      omega
  rcases hpr with hlt | ⟨best, hbest, hbestp⟩
  · exact hfew hlt
  · rcases hqr with hlt | ⟨best', hbest', hbestq⟩
    · exact hfew hlt
    · rw [hbest, Option.some.injEq] at hbest'
      exact hkey (hbestp.symm.trans (hbest' ▸ hbestq))

/-! ### Packages of a project -/

theorem perm_groupPackages (module : Option String) (files : List SourceFile) :
    (groupPackages module files).Perm
      ((packagesByKey module files).map (settle (packagesByKey module files))) :=
  List.mergeSort_perm _ _

/-- Packages are in the order of their import paths, whatever is shown of them. -/
theorem map_groupPackages {β : Type} {view : Package → β} {listing : List β} (path : β → String)
    (hpath : ∀ k, path (view k) = k.importPath)
    (hsettled : (settleRivals (packagesByKey module files)).map view = listing)
    (hordered : listing.Pairwise fun a b => decide (path a ≤ path b) = true) :
    (groupPackages module files).map view = listing := by
  rw [← hsettled, List.pairwise_map] at hordered
  simp only [hpath] at hordered
  rw [groupPackages, List.mergeSort_of_pairwise hordered, hsettled]

theorem key_settle (packages : List Package) (p : Package) : (settle packages p).key = p.key := by
  rcases settle_cases packages p with h | h
  · rw [h]
  · rw [h]
    rfl

theorem files_settle (packages : List Package) (p : Package) : (settle packages p).files = p.files := by
  rcases settle_cases packages p with h | h <;> rw [h]

/-- Files of one folder and one package clause, in order, make one package. -/
theorem groupPackages_of_one_key (module : Option String) {key : String × String}
    (hkeys : (files.map packageKey).eraseDups = [key])
    (hsorted : files.Pairwise fun f g => decide (f.path ≤ g.path) = true) :
    groupPackages module files =
      [⟨plainImportPath module key.1 key.2, key.2, key.1, files⟩] := by
  have hall : files.filter (fun f => packageKey f = key) = files := by
    refine List.filter_eq_self.mpr fun f hf => decide_eq_true ?_
    have hkey : packageKey f ∈ (files.map packageKey).eraseDups :=
      List.mem_eraseDups.mpr (List.mem_map_of_mem hf)
    exact List.mem_singleton.mp (hkeys ▸ hkey)
  have hpackages : packagesByKey module files =
      [⟨plainImportPath module key.1 key.2, key.2, key.1, files⟩] := by
    rw [packagesByKey, hkeys, List.mergeSort_singleton, List.map_singleton, hall,
      List.mergeSort_of_pairwise hsorted]
  have halone (k : Package) : settle [k] k = k := by
    simp [settle, bestRival?]
  rw [groupPackages, settleRivals, hpackages, List.map_singleton, halone, List.mergeSort_singleton]

theorem nodup_keys_groupPackages (module : Option String) (files : List SourceFile) :
    ((groupPackages module files).map Package.key).Nodup := by
  rw [((perm_groupPackages module files).map _).nodup_iff, List.map_map]
  have hkeys : Package.key ∘ settle (packagesByKey module files) = Package.key :=
    funext (key_settle _)
  rw [hkeys]
  exact nodup_keys_packagesByKey module files

theorem not_keeps_and_setAside (p : Package) : ¬(p.Keeps module ∧ p.SetAside module) := by
  rintro ⟨hkeeps, haside⟩
  have hlength := congrArg String.length (hkeeps.symm.trans haside)
  simp only [String.length_append] at hlength
  have hmark : "#".length = 1 := rfl
  omega

/-- A package of a project has the import path of its folder or one with its name. -/
theorem mem_groupPackages (h : q ∈ groupPackages module files) :
    (q.Keeps module ∧ q ∈ packagesByKey module files ∧
        settle (packagesByKey module files) q = q) ∨
      q.SetAside module := by
  obtain ⟨p, hp, rfl⟩ := List.mem_map.mp ((perm_groupPackages module files).mem_iff.mp h)
  have hkeeps := keeps_of_mem_packagesByKey hp
  rcases settle_cases (packagesByKey module files) p with hs | hs
  · rw [hs]
    exact Or.inl ⟨hkeeps, hp, hs⟩
  · right
    rw [hs, Package.SetAside]
    show p.importPath ++ "#" ++ p.name = _
    rw [hkeeps]

theorem keeps_inj (hp : p ∈ groupPackages module files) (hq : q ∈ groupPackages module files)
    (hkp : p.Keeps module) (hkq : q.Keeps module) (hpath : p.importPath = q.importPath) :
    p = q := by
  rcases mem_groupPackages hp with ⟨-, hmp, hsp⟩ | hap
  · rcases mem_groupPackages hq with ⟨-, hmq, hsq⟩ | haq
    · exact settle_inj (nodup_keys_packagesByKey module files) hmp hmq hsp hsq hpath
    · exact absurd ⟨hkq, haq⟩ (not_keeps_and_setAside q)
  · exact absurd ⟨hkp, hap⟩ (not_keeps_and_setAside p)

/-- Import paths are distinct exactly if no package that is set aside meets another one. -/
theorem nodup_importPaths_iff :
    ((groupPackages module files).map (·.importPath)).Nodup ↔
      ∀ a ∈ groupPackages module files, ∀ b ∈ groupPackages module files, a ≠ b →
        a.SetAside module → a.importPath ≠ b.importPath := by
  constructor
  · intro h a ha b hb hne _ hpath
    exact hne (List.inj_on_of_nodup_map h ha hb hpath)
  · intro h
    refine List.Nodup.map_on ?_ (nodup_keys_groupPackages module files).of_map
    intro a ha b hb hpath
    by_contra hne
    rcases mem_groupPackages ha with ⟨hka, -⟩ | haa
    · rcases mem_groupPackages hb with ⟨hkb, -⟩ | hab
      · exact hne (keeps_inj ha hb hka hkb hpath)
      · exact h b hb a ha (Ne.symm hne) hab hpath.symm
    · exact h a ha b hb hne haa hpath

/-- A package lies in the folder of its files. -/
theorem folder_of_mem_groupPackages (h : q ∈ groupPackages module files) :
    ∃ f ∈ files, q.folder = Path.parent f.path := by
  obtain ⟨p, hp, rfl⟩ := List.mem_map.mp ((perm_groupPackages module files).mem_iff.mp h)
  obtain ⟨key, hkey, rfl⟩ := List.mem_map.mp hp
  rw [(List.mergeSort_perm _ _).mem_iff, List.mem_eraseDups] at hkey
  obtain ⟨f, hf, rfl⟩ := List.mem_map.mp hkey
  exact ⟨f, hf, congrArg Prod.fst (key_settle _ _)⟩

/-! ### Folders with a number sign -/

theorem toList_setAside (h : p.SetAside module) :
    p.importPath.toList = (module.getD "").toList ++
      (folderTail module p.folder ++ markTail p.name ++ '#' :: p.name.toList) := by
  rw [h, String.toList_append, String.toList_append, toList_plainImportPath]
  simp

theorem hash_notMem_tails (module : Option String) {folder : String} (name : String)
    (h : '#' ∉ folder.toList) :
    '#' ∉ folderTail module folder ++ markTail name := by
  rw [List.mem_append, not_or]
  exact ⟨hash_notMem_folderTail h, hash_notMem_markTail name⟩

/-- Within one folder, packages are known by their import paths. -/
theorem importPath_inj_in_folder (hp : p ∈ groupPackages module files)
    (hq : q ∈ groupPackages module files) (hfolder : p.folder = q.folder)
    (hpath : p.importPath = q.importPath) : p = q := by
  have hname (h : p.name = q.name) : p = q :=
    List.inj_on_of_nodup_map (nodup_keys_groupPackages module files) hp hq (Prod.ext hfolder h)
  have hchars := congrArg String.toList hpath
  rcases mem_groupPackages hp with ⟨hkp, -⟩ | hap
  · rcases mem_groupPackages hq with ⟨hkq, -⟩ | haq
    · exact keeps_inj hp hq hkp hkq hpath
    · rw [toList_setAside haq, hkp, toList_plainImportPath, hfolder, List.append_assoc,
        List.append_cancel_left_eq, List.append_cancel_left_eq] at hchars
      exact absurd (hchars ▸ by simp) (hash_notMem_markTail p.name)
  · rcases mem_groupPackages hq with ⟨hkq, -⟩ | haq
    · rw [toList_setAside hap, hkq, toList_plainImportPath, hfolder, List.append_assoc,
        List.append_cancel_left_eq, List.append_cancel_left_eq] at hchars
      exact absurd (hchars ▸ by simp) (hash_notMem_markTail q.name)
    · rw [toList_setAside hap, toList_setAside haq, hfolder, List.append_assoc, List.append_assoc,
        List.append_cancel_left_eq, List.append_cancel_left_eq] at hchars
      obtain ⟨-, hnames⟩ :=
        append_cons_inj (hash_notMem_markTail p.name) (hash_notMem_markTail q.name) hchars
      exact hname (String.toList_inj.mp hnames)

/-- Where two packages have one import path, one of them lies in a folder with a number sign. -/
theorem folder_hash_of_clash (hp : p ∈ groupPackages module files)
    (hq : q ∈ groupPackages module files) (hne : p ≠ q) (hpath : p.importPath = q.importPath)
    (hdot : p.folder ≠ "." ∧ q.folder ≠ ".") : '#' ∈ p.folder.toList ∨ '#' ∈ q.folder.toList := by
  by_contra hclean
  rw [not_or] at hclean
  obtain ⟨hcp, hcq⟩ := hclean
  have hchars := congrArg String.toList hpath
  rcases mem_groupPackages hp with ⟨hkp, -⟩ | hap
  · rcases mem_groupPackages hq with ⟨hkq, -⟩ | haq
    · exact hne (keeps_inj hp hq hkp hkq hpath)
    · rw [toList_setAside haq, hkp, toList_plainImportPath, List.append_cancel_left_eq] at hchars
      refine hash_notMem_tails module p.name hcp ?_
      rw [hchars]
      simp
  · rcases mem_groupPackages hq with ⟨hkq, -⟩ | haq
    · rw [toList_setAside hap, hkq, toList_plainImportPath, List.append_cancel_left_eq] at hchars
      refine hash_notMem_tails module q.name hcq ?_
      rw [← hchars]
      simp
    · -- what comes before the first number sign is the path of the folder, what follows is the name
      rw [toList_setAside hap, toList_setAside haq, List.append_cancel_left_eq] at hchars
      obtain ⟨htails, hnames⟩ := append_cons_inj (hash_notMem_tails _ _ hcp)
        (hash_notMem_tails _ _ hcq) hchars
      have hname : p.name = q.name := String.toList_inj.mp hnames
      rw [hname, List.append_cancel_right_eq] at htails
      have hfolder : p.folder = q.folder := folderTail_inj hdot.1 hdot.2 htails
      exact hne (List.inj_on_of_nodup_map (nodup_keys_groupPackages module files) hp hq
        (Prod.ext hfolder hname))

end CodeGraph
