import CodeGraph.Proofs.Graph.Directory
import CodeGraph.Proofs.Lists
import Mathlib.Data.List.Basic
import Mathlib.Data.List.Flatten
import Mathlib.Data.List.Sigma

/-!
# The drafts of a project

* `Project.flatMap_slots` — files are read in the order of packages.
* `Directory.inSlots` — what files have, with their places; what is found first in all files is found
  first in those of its package (`Directory.find?_package_of_inSlots`).
* `Directory.Holds` — what the nodes of a project are drafted from; `Directory.mem_drafts` says that
  there are no other drafts.
* `Directory.eq_of_site` — no two drafts stand for one site.
* `Directory.holds_of_package?`, … — whatever a look-up finds is a draft of the project.
* `Directory.exists_fileOf` — the look-up of the file that declarations belong to always succeeds.
* `Directory.mem_typesOf` — a type is recorded where no type of its name was declared before.
-/

namespace CodeGraph

theorem Project.mem_slots {p : Project} {s : FileSlot} :
    s ∈ p.slots ↔ (s.package, s.p) ∈ p.packages.zipIdx ∧ (s.file, s.f) ∈ s.package.files.zipIdx := by
  simp only [Project.slots, List.mem_flatMap, List.mem_map, Prod.exists]
  constructor
  · rintro ⟨k, i, hk, file, j, hfile, rfl⟩
    exact ⟨hk, hfile⟩
  · rintro ⟨hk, hfile⟩
    exact ⟨s.package, s.p, hk, s.file, s.f, hfile, rfl⟩

theorem Project.mem_of_mem_slots {p : Project} {s : FileSlot} (h : s ∈ p.slots) :
    s.package ∈ p.packages ∧ s.file ∈ s.package.files := by
  obtain ⟨hpackage, hfile⟩ := Project.mem_slots.mp h
  exact ⟨List.fst_mem_of_mem_zipIdx hpackage, List.fst_mem_of_mem_zipIdx hfile⟩

/-- What is read off the files of a project, slot by slot or package by package. -/
theorem Project.flatMap_slots {β : Type} (part : Package → SourceFile → List β) (p : Project) :
    (p.slots.flatMap fun s => part s.package s.file) =
      p.packages.flatMap fun k => k.files.flatMap (part k) := by
  rw [Project.slots, List.flatMap_assoc, ← flatMap_zipIdx_fst _ p.packages]
  refine List.flatMap_congr fun u _ => ?_
  rw [List.flatMap_map, ← flatMap_zipIdx_fst _ u.1.files]

theorem Project.nodup_slots (p : Project) : p.slots.Nodup := by
  refine nodup_flatMap_of_keys Prod.snd FileSlot.p (List.nodup_zipIdx_map_snd _) ?_ ?_
  · rintro ⟨k, i⟩ _ s hs
    obtain ⟨u, -, rfl⟩ := List.mem_map.mp hs
    rfl
  · rintro ⟨k, i⟩ _
    refine List.Nodup.of_map FileSlot.f ?_
    rw [List.map_map]
    exact List.nodup_zipIdx_map_snd _

namespace Directory

variable {d : Directory} {s : FileSlot} {x : Draft}

/-! ### Parts of files -/

section

variable {α β : Type} {part : FileSlot → List α}

/-- What files have, with their slots. -/
def inSlots (d : Directory) (part : FileSlot → List α) : List (FileSlot × α) :=
  d.slots.flatMap fun s => (part s).map fun a => (s, a)

theorem mem_inSlots {u : FileSlot × α} :
    u ∈ d.inSlots part ↔ u.1 ∈ d.slots ∧ u.2 ∈ part u.1 := by
  simp only [inSlots, List.mem_flatMap, List.mem_map]
  constructor
  · rintro ⟨s, hs, a, ha, rfl⟩
    exact ⟨hs, ha⟩
  · rintro ⟨hs, ha⟩
    exact ⟨u.1, hs, u.2, ha, rfl⟩

theorem map_inSlots (f : FileSlot → α → β) :
    (d.inSlots part).map (fun u => f u.1 u.2) = d.slots.flatMap fun s => (part s).map (f s) := by
  rw [inSlots, List.map_flatMap]
  refine List.flatMap_congr fun s _ => ?_
  rw [List.map_map]
  rfl

theorem filterMap_inSlots (f : FileSlot → α → Option β) :
    (d.inSlots part).filterMap (fun u => f u.1 u.2) =
      d.slots.flatMap fun s => (part s).filterMap (f s) := by
  rw [inSlots, List.filterMap_flatMap]
  refine List.flatMap_congr fun s _ => ?_
  rw [List.filterMap_map]
  rfl

/-- What is found file by file is found in one search. -/
theorem findSome?_inSlots (select : FileSlot → α → Bool) (make : FileSlot → α → β) :
    (d.slots.findSome? fun s => ((part s).find? (select s)).map (make s)) =
      ((d.inSlots part).find? fun u => select u.1 u.2).map fun u => make u.1 u.2 := by
  rw [inSlots, List.find?_flatMap, List.map_findSome?]
  refine congrArg (fun search => d.slots.findSome? search) (funext fun s => ?_)
  rw [Function.comp_apply, List.find?_map, Option.map_map]
  rfl

/-- What files have, package by package. -/
theorem map_inSlots_zipIdx (part : SourceFile → List α) :
    ((d.inSlots fun s => (part s.file).zipIdx).map fun u => (u.1.package, u.2.1, u.1.file)) =
      d.project.packages.flatMap fun k => (k.files.flatMap fun file =>
        (part file).map fun a => (a, file)).map fun v => (k, v) := by
  rw [map_inSlots fun s (u : α × Nat) => (s.package, u.1, s.file)]
  have hslot (s : FileSlot) : ((part s.file).zipIdx.map fun u => (s.package, u.1, s.file)) =
      (part s.file).map fun a => (s.package, a, s.file) :=
    map_zipIdx_fst (fun a => (s.package, a, s.file)) (part s.file)
  simp only [hslot]
  rw [slots, Project.flatMap_slots fun k file => (part file).map fun a => (k, a, file)]
  refine List.flatMap_congr fun k _ => ?_
  rw [List.map_flatMap]
  simp only [List.map_map]
  rfl

/-- What is found first in all files is found first in those of its package. -/
theorem find?_package_of_inSlots (part : SourceFile → List α) (test : Package → α → Bool) {i : Nat}
    {a : α} (h : (d.inSlots fun s => (part s.file).zipIdx).find? (fun u => test u.1.package u.2.1) =
      some (s, a, i)) :
    (s.package.files.flatMap fun file => (part file).map fun a => (a, file)).find?
      (fun v => test s.package v.1) = some (a, s.file) := by
  have hfirst : ((d.inSlots fun s => (part s.file).zipIdx).map fun u =>
      (u.1.package, u.2.1, u.1.file)).find? (fun v => test v.1 v.2.1) = some (s.package, a, s.file) := by
    rw [List.find?_map]
    exact congrArg (Option.map _) h
  rw [map_inSlots_zipIdx, List.find?_flatMap] at hfirst
  obtain ⟨k, -, hfound⟩ := List.exists_of_findSome?_eq_some hfirst
  rw [List.find?_map] at hfound
  obtain ⟨v, hv, hpair⟩ := Option.map_eq_some_iff.mp hfound
  obtain ⟨rfl, rfl⟩ := Prod.mk.inj hpair
  exact hv

/-- What passes a test with its package is found, or something else that does. -/
theorem exists_find?_inSlots (part : SourceFile → List α) (test : Package → α → Bool) {k : Package}
    {file : SourceFile} {a : α} (hk : k ∈ d.project.packages) (hfile : file ∈ k.files)
    (ha : a ∈ part file) (htest : test k a = true) :
    ∃ u, (d.inSlots fun s => (part s.file).zipIdx).find? (fun u => test u.1.package u.2.1) = some u := by
  have hmem : (k, a, file) ∈ (d.inSlots fun s => (part s.file).zipIdx).map fun u =>
      (u.1.package, u.2.1, u.1.file) := by
    rw [map_inSlots_zipIdx]
    refine List.mem_flatMap.mpr ⟨k, hk, List.mem_map.mpr ⟨(a, file), ?_, rfl⟩⟩
    exact List.mem_flatMap.mpr ⟨file, hfile, List.mem_map.mpr ⟨a, ha, rfl⟩⟩
  obtain ⟨u, hu, hsame⟩ := List.mem_map.mp hmem
  obtain ⟨rfl, hrest⟩ := Prod.mk.inj hsame
  obtain ⟨rfl, rfl⟩ := Prod.mk.inj hrest
  rw [← Option.isSome_iff_exists, List.find?_isSome]
  exact ⟨u, hu, htest⟩

theorem inSlots_sublist {part' : FileSlot → List α} (h : ∀ s, (part s).Sublist (part' s)) :
    (d.inSlots part).Sublist (d.inSlots part') :=
  List.Sublist.flatMap_right _ fun s _ => (h s).map _

theorem nodup_inSlots (h : ∀ s ∈ d.slots, (part s).Nodup) : (d.inSlots part).Nodup := by
  refine nodup_flatMap_of_keys id Prod.fst ((List.map_id _).symm ▸ d.project.nodup_slots) ?_ ?_
  · intro s _ u hu
    obtain ⟨a, -, rfl⟩ := List.mem_map.mp hu
    rfl
  · intro s hs
    exact (h s hs).map fun a b hab => (Prod.mk.inj hab).2

end

/-! ### Drafts -/

/-- The drafts of what a file declares, in the order of kinds. -/
def declared (d : Directory) (s : FileSlot) : List Draft :=
  d.typeDrafts s ++ s.valueDrafts ++ d.functionDrafts s

/-- What the nodes of a project are drafted from. -/
inductive Holds (d : Directory) : Draft → Prop
  | root : Holds d d.root
  | package {k : Package} {i : Nat} (hk : (k, i) ∈ d.project.packages.zipIdx) : Holds d (k.draft i)
  | file {s : FileSlot} (hs : s ∈ d.slots) : Holds d s.draft
  | declared {s : FileSlot} {x : Draft} (hs : s ∈ d.slots) (hx : x ∈ d.declared s) : Holds d x
  | importPath {path : String} (hpath : path ∈ d.importPaths) : Holds d (importDraft path)

theorem mem_packageDrafts : x ∈ d.packageDrafts ↔
    (∃ k i, (k, i) ∈ d.project.packages.zipIdx ∧ x = k.draft i) ∨ ∃ s ∈ d.slots, x = s.draft := by
  simp only [packageDrafts, List.mem_flatMap, List.mem_cons, List.mem_map, Prod.exists, slots]
  constructor
  · rintro ⟨k, i, hk, rfl | ⟨file, j, hfile, rfl⟩⟩
    · exact Or.inl ⟨k, i, hk, rfl⟩
    · exact Or.inr ⟨⟨i, j, k, file⟩, Project.mem_slots.mpr ⟨hk, hfile⟩, rfl⟩
  · rintro (⟨k, i, hk, rfl⟩ | ⟨s, hs, rfl⟩)
    · exact ⟨k, i, hk, Or.inl rfl⟩
    · obtain ⟨hk, hfile⟩ := Project.mem_slots.mp hs
      exact ⟨s.package, s.p, hk, Or.inr ⟨s.file, s.f, hfile, rfl⟩⟩

/-- The drafts of a project are those of what it holds. -/
theorem mem_drafts : x ∈ d.drafts ↔ d.Holds x := by
  simp only [drafts, List.mem_cons, List.mem_append, List.mem_flatMap, List.mem_map,
    List.cons_append, mem_packageDrafts]
  constructor
  · rintro (rfl | (((⟨k, i, hk, rfl⟩ | ⟨s, hs, rfl⟩) | ⟨s, hs, hx⟩) | ⟨s, hs, hx⟩) |
      ⟨path, hpath, rfl⟩)
    · exact .root
    · exact .package hk
    · exact .file hs
    · exact .declared hs (List.mem_append_left _ (List.mem_append.mpr hx))
    · exact .declared hs (List.mem_append_right _ hx)
    · exact .importPath hpath
  · rintro (_ | hk | hs | ⟨hs, hx⟩ | hpath)
    · exact Or.inl rfl
    · exact Or.inr (Or.inl (Or.inl (Or.inl (Or.inl ⟨_, _, hk, rfl⟩))))
    · exact Or.inr (Or.inl (Or.inl (Or.inl (Or.inr ⟨_, hs, rfl⟩))))
    · rcases List.mem_append.mp hx with hx | hx
      · exact Or.inr (Or.inl (Or.inl (Or.inr ⟨_, hs, List.mem_append.mp hx⟩)))
      · exact Or.inr (Or.inl (Or.inr ⟨_, hs, hx⟩))
    · exact Or.inr (Or.inr ⟨_, hpath, rfl⟩)

/-! ### Sites -/

/-- The file at a place. -/
def slotAt? (d : Directory) (i j : Nat) : Option FileSlot :=
  d.project.packages[i]?.bind fun k => k.files[j]?.map fun file => ⟨i, j, k, file⟩

/-- What a site stands for. -/
def draftAt? (d : Directory) : Site → Option Draft
  | .project => some d.root
  | .package i => d.project.packages[i]?.map (·.draft i)
  | .file i j => (d.slotAt? i j).map FileSlot.draft
  | .type i j n => (d.slotAt? i j).bind fun s => s.file.types[n]?.map fun t => s.typeDraft t n
  | .field i j n m => (d.slotAt? i j).bind fun s =>
      s.file.types[n]?.bind fun t => (s.fieldDrafts t n)[m]?.map (·.2)
  | .value i j n => (d.slotAt? i j).bind fun s => s.valueDrafts[n]?
  | .function i j n => (d.slotAt? i j).bind fun s =>
      s.file.functions[n]?.map fun f => d.functionDraft s f n
  | .importPath path => some (importDraft path)

theorem slotAt?_of_mem_slots (hs : s ∈ d.slots) : d.slotAt? s.p s.f = some s := by
  obtain ⟨hk, hfile⟩ := Project.mem_slots.mp hs
  rw [slotAt?, List.mk_mem_zipIdx_iff_getElem?.mp hk, Option.bind_some,
    List.mk_mem_zipIdx_iff_getElem?.mp hfile]
  rfl

/-- A draft is what its site stands for. -/
theorem draftAt?_site (h : d.Holds x) : d.draftAt? x.site = some x := by
  cases h with
  | root => rfl
  | package hk =>
    rw [Package.draft, draftAt?, List.mk_mem_zipIdx_iff_getElem?.mp hk]
    rfl
  | file hs =>
    rw [FileSlot.draft, draftAt?, slotAt?_of_mem_slots hs]
    rfl
  | importPath hpath => rfl
  | @declared s x hs hx =>
    simp only [declared, typeDrafts, functionDrafts, List.mem_append, List.mem_flatMap,
      List.mem_cons, List.mem_map, Prod.exists] at hx
    rcases hx with (⟨t, i, ht, rfl | ⟨field, y, hy, rfl⟩⟩ | hx) | ⟨f, i, hf, rfl⟩
    · have htype := List.mk_mem_zipIdx_iff_getElem?.mp (List.mem_filter.mp ht).1
      rw [FileSlot.typeDraft, draftAt?, slotAt?_of_mem_slots hs, Option.bind_some, htype]
      rfl
    · have htype := List.mk_mem_zipIdx_iff_getElem?.mp (List.mem_filter.mp ht).1
      obtain ⟨j, hj⟩ := List.mem_iff_getElem?.mp hy
      have hsite : y.site = .field s.p s.f i j := by
        rw [FileSlot.fieldDrafts, List.getElem?_map, List.getElem?_zipIdx, Option.map_map] at hj
        obtain ⟨f, -, hpair⟩ := Option.map_eq_some_iff.mp hj
        rw [← (Prod.mk.inj hpair).2]
        exact congrArg (Site.field s.p s.f i) (Nat.zero_add j)
      rw [hsite, draftAt?, slotAt?_of_mem_slots hs, Option.bind_some, htype, Option.bind_some, hj]
      rfl
    · obtain ⟨j, hj⟩ := List.mem_iff_getElem?.mp hx
      have hsite : x.site = .value s.p s.f j := by
        rw [FileSlot.valueDrafts, List.getElem?_map, List.getElem?_zipIdx, Option.map_map] at hj
        obtain ⟨v, -, rfl⟩ := Option.map_eq_some_iff.mp hj
        exact congrArg (Site.value s.p s.f) (Nat.zero_add j)
      rw [hsite, draftAt?, slotAt?_of_mem_slots hs, Option.bind_some, hj]
    · rw [functionDraft, FileSlot.functionDraft, draftAt?, slotAt?_of_mem_slots hs, Option.bind_some,
        List.mk_mem_zipIdx_iff_getElem?.mp hf]
      rfl

/-- No two drafts stand for one site. -/
theorem eq_of_site {y : Draft} (hx : d.Holds x) (hy : d.Holds y) (h : x.site = y.site) : x = y :=
  Option.some.inj ((draftAt?_site hx).symm.trans (h ▸ draftAt?_site hy))

/-! ### Look-ups -/

theorem package?_eq_some {path : String} (h : d.package? path = some x) :
    ∃ k i, (k, i) ∈ d.project.packages.zipIdx ∧ k.importPath = path ∧ x = k.draft i := by
  obtain ⟨⟨k, i⟩, hfind, rfl⟩ := Option.map_eq_some_iff.mp h
  have hpath : k.importPath = path := by simpa using List.find?_some hfind
  exact ⟨k, i, List.mem_reverse.mp (List.mem_of_find?_eq_some hfind), hpath, rfl⟩

theorem holds_of_package? {path : String} (h : d.package? path = some x) : d.Holds x := by
  obtain ⟨k, i, hk, -, rfl⟩ := package?_eq_some h
  exact .package hk

/-- The look-up of the file that declarations belong to always succeeds. -/
theorem exists_fileOf (hs : s ∈ d.slots) :
    ∃ t ∈ d.slots, d.slots.reverse.find? (·.file.path = s.file.path) = some t ∧
      t.file.path = s.file.path ∧ d.fileOf s = t.draft := by
  cases hfind : d.slots.reverse.find? (·.file.path = s.file.path) with
  | none =>
    have hnone := List.find?_eq_none.mp hfind s (List.mem_reverse.mpr hs)
    simp at hnone
  | some t =>
    have hpath : t.file.path = s.file.path := by simpa using List.find?_some hfind
    refine ⟨t, List.mem_reverse.mp (List.mem_of_find?_eq_some hfind), rfl, hpath, ?_⟩
    rw [fileOf, hfind]
    rfl

theorem holds_fileOf (hs : s ∈ d.slots) : d.Holds (d.fileOf s) := by
  obtain ⟨t, ht, -, -, hdraft⟩ := exists_fileOf hs
  exact hdraft ▸ .file ht

/-- A type is found as its first declaration, which is the one that is recorded. -/
theorem type?_eq_some {id : TypeId} (h : d.type? id = some x) :
    ∃ s ∈ d.slots, ∃ t i, (t, i) ∈ d.typesOf s ∧ s.typeId t = id ∧ x = s.typeDraft t i := by
  obtain ⟨s, hs, hfound⟩ := List.exists_of_findSome?_eq_some h
  obtain ⟨⟨t, i⟩, hfind, rfl⟩ := Option.map_eq_some_iff.mp hfound
  have hid : s.typeId t = id := by simpa using List.find?_some hfind
  refine ⟨s, hs, t, i, List.mem_filter.mpr ⟨List.mem_of_find?_eq_some hfind, ?_⟩, hid, rfl⟩
  rw [← hid] at h
  exact decide_eq_true (by rw [h]; rfl)

theorem typeDraft_mem_declared {t : TypeDecl} {i : Nat} (ht : (t, i) ∈ d.typesOf s) :
    s.typeDraft t i ∈ d.declared s := by
  simp only [declared, typeDrafts, List.mem_append, List.mem_flatMap]
  exact Or.inl (Or.inl ⟨(t, i), ht, List.mem_cons_self⟩)

theorem fieldDraft_mem_declared {t : TypeDecl} {i : Nat} {field : FieldDecl}
    (ht : (t, i) ∈ d.typesOf s) (hx : (field, x) ∈ s.fieldDrafts t i) : x ∈ d.declared s := by
  simp only [declared, typeDrafts, List.mem_append, List.mem_flatMap]
  exact Or.inl (Or.inl ⟨(t, i), ht, List.mem_cons_of_mem _ (List.mem_map.mpr ⟨_, hx, rfl⟩)⟩)

theorem holds_of_type? {id : TypeId} (h : d.type? id = some x) : d.Holds x := by
  obtain ⟨s, hs, t, i, ht, -, rfl⟩ := type?_eq_some h
  exact .declared hs (typeDraft_mem_declared ht)

theorem function?_eq_some {id : FunctionId} (h : d.function? id = some x) :
    ∃ s ∈ d.slots, ∃ f i, (f, i) ∈ s.functions ∧ s.functionId f = id ∧ x = d.functionDraft s f i := by
  obtain ⟨s, hs, hfound⟩ := List.exists_of_findSome?_eq_some h
  obtain ⟨⟨f, i⟩, hfind, rfl⟩ := Option.map_eq_some_iff.mp hfound
  have hid : s.functionId f = id := by simpa using List.find?_some hfind
  exact ⟨s, hs, f, i, List.mem_of_find?_eq_some hfind, hid, rfl⟩

theorem functionDraft_mem_declared {f : FunctionDecl} {i : Nat} (hf : (f, i) ∈ s.functions) :
    d.functionDraft s f i ∈ d.declared s :=
  List.mem_append_right _ (List.mem_map.mpr ⟨(f, i), hf, rfl⟩)

theorem holds_of_function? {id : FunctionId} (h : d.function? id = some x) : d.Holds x := by
  obtain ⟨s, hs, f, i, hf, -, rfl⟩ := function?_eq_some h
  exact .declared hs (functionDraft_mem_declared hf)

theorem import?_eq_some {path : String} (h : d.import? path = some x) :
    path ∈ d.importPaths ∧ x = importDraft path := by
  rw [import?] at h
  split at h
  next hpath => exact ⟨List.contains_iff_mem.mp hpath, (Option.some.inj h).symm⟩
  next => cases h

theorem holds_of_import? {path : String} (h : d.import? path = some x) : d.Holds x := by
  obtain ⟨hpath, rfl⟩ := import?_eq_some h
  exact .importPath hpath

/-- A path that some file imports and that belongs to no package has a draft. -/
theorem mem_importPaths {path : String} : path ∈ d.importPaths ↔
    (∃ s ∈ d.slots, ∃ i ∈ s.file.imports, i.path = path) ∧ d.package? path = none := by
  simp only [importPaths, List.mem_eraseDups, List.mem_filter, List.mem_flatMap, List.mem_map,
    Option.isNone_iff_eq_none]

/-! ### Types that are recorded -/

/-- All declarations of types, with their slots and their places. -/
def typeDeclarations (d : Directory) : List (FileSlot × TypeDecl × Nat) := d.inSlots FileSlot.types

/-- The name of a type across packages. -/
def declaredId (u : FileSlot × TypeDecl × Nat) : TypeId := u.1.typeId u.2.1

/-- A type is found as its first declaration. -/
theorem type?_eq_find? (d : Directory) (id : TypeId) :
    d.type? id = (d.typeDeclarations.find? (declaredId · = id)).map fun u =>
      u.1.typeDraft u.2.1 u.2.2 :=
  findSome?_inSlots (fun s (u : TypeDecl × Nat) => s.typeId u.1 = id) fun s u => s.typeDraft u.1 u.2

/-- A type is recorded if it is found under its name. -/
theorem mem_typesOf_iff_find? (hs : s ∈ d.slots) {t : TypeDecl} {i : Nat} : (t, i) ∈ d.typesOf s ↔
    d.typeDeclarations.find? (declaredId · = s.typeId t) = some (s, t, i) := by
  rw [typesOf, List.mem_filter, decide_eq_true_eq, type?_eq_find?, Option.map_map]
  constructor
  · rintro ⟨ht, hsite⟩
    obtain ⟨⟨s', t', i'⟩, hfind, hsite⟩ := Option.map_eq_some_iff.mp hsite
    obtain ⟨hs', ht'⟩ := mem_inSlots.mp (List.mem_of_find?_eq_some hfind)
    -- a site belongs to one declaration
    obtain ⟨hp, hf, hi⟩ := Site.type.inj hsite
    obtain rfl : s' = s := Option.some.inj
      ((slotAt?_of_mem_slots hs').symm.trans (hp ▸ hf ▸ slotAt?_of_mem_slots hs))
    obtain rfl : i' = i := hi
    have htype := List.mk_mem_zipIdx_iff_getElem?.mp ht
    have htype' := List.mk_mem_zipIdx_iff_getElem?.mp ht'
    obtain rfl := Option.some.inj (htype'.symm.trans htype)
    exact hfind
  · intro hfind
    exact ⟨(mem_inSlots.mp (List.mem_of_find?_eq_some hfind)).2, by rw [hfind]; rfl⟩

/-- A type is recorded if none of its name was declared before. -/
theorem mem_typesOf (hs : s ∈ d.slots) {t : TypeDecl} {i : Nat} : (t, i) ∈ d.typesOf s ↔
    ∃ before after, d.typeDeclarations = before ++ (s, t, i) :: after ∧
      ∀ u ∈ before, declaredId u ≠ s.typeId t := by
  rw [mem_typesOf_iff_find? hs, List.find?_eq_some_iff_append]
  simp only [decide_eq_true_eq, Bool.not_eq_true', decide_eq_false_iff_not]
  exact and_iff_right rfl

theorem nodup_typeDeclarations (d : Directory) : d.typeDeclarations.Nodup :=
  nodup_inSlots fun s _ => List.Nodup.of_map Prod.snd (List.nodup_zipIdx_map_snd s.file.types)

/-- Going through all declarations, a type is recorded if none of its name was met. -/
theorem mem_typesOf_iff_of_append {before after : List (FileSlot × TypeDecl × Nat)} {t : TypeDecl}
    {i : Nat} (hs : s ∈ d.slots) (h : d.typeDeclarations = before ++ (s, t, i) :: after) :
    (t, i) ∈ d.typesOf s ↔ before.find? (declaredId · = s.typeId t) = none := by
  rw [mem_typesOf_iff_find? hs, h, List.find?_append]
  cases hfind : before.find? (declaredId · = s.typeId t) with
  | none =>
    have hthis : decide (declaredId (s, t, i) = s.typeId t) = true := decide_eq_true rfl
    rw [Option.none_or, List.find?_cons, hthis]
    exact iff_of_true rfl rfl
  | some u =>
    refine iff_of_false (fun hsame => ?_) (Option.some_ne_none u)
    obtain rfl := Option.some.inj hsame
    have hnodup : (before ++ (s, t, i) :: after).Nodup := h ▸ d.nodup_typeDeclarations
    exact List.disjoint_of_nodup_append hnodup (List.mem_of_find?_eq_some hfind) List.mem_cons_self

end Directory

end CodeGraph
