import CodeGraph.Proofs.Graph.Imports
import CodeGraph.Proofs.Report.Order

/-!
# Drafts without places

Packages in another order stand at other places, and the drafts of a project tell of their places.

* `Draft.unplaced`, `FileSlot.unplaced` — what is left if places are ignored.
* `Directory.Reordered` — the packages of one project in two orders, with reports that agree.
* `Reordered.flatMap_slots_perm` — what files make is the same up to order if it does not depend on places.
* `Reordered.package?`, `Reordered.type?`, `Reordered.function?`, … — every look-up finds the same, places
  ignored.
-/

namespace CodeGraph

/-- What is left of a draft if its place is ignored. -/
def Draft.unplaced (x : Draft) : Draft := { x with site := .project }

/-- What is left of a file if the place of its package is ignored. -/
def FileSlot.unplaced (s : FileSlot) : FileSlot := { s with p := 0 }

/-- The files of a package with their places in it. -/
def Package.slots (k : Package) : List FileSlot := k.files.zipIdx.map fun (file, j) => ⟨0, j, k, file⟩

theorem Project.map_unplaced_slots (p : Project) :
    p.slots.map FileSlot.unplaced = p.packages.flatMap Package.slots := by
  rw [slots, List.map_flatMap, ← flatMap_zipIdx_fst Package.slots p.packages]
  refine List.flatMap_congr fun u _ => ?_
  rw [List.map_map]
  rfl

/-- Files that are alike but for the place of their package. -/
theorem FileSlot.exists_place {s s' : FileSlot} (h : s.unplaced = s'.unplaced) :
    ∃ i, s' = { s with p := i } := by
  obtain ⟨p, f, k, file⟩ := s
  obtain ⟨p', f', k', file'⟩ := s'
  obtain ⟨-, rfl, rfl, rfl⟩ := FileSlot.mk.inj h
  exact ⟨p', rfl⟩

namespace Directory

/-- The packages of one project in two orders, with reports that agree on what becomes of them. -/
structure Reordered (d d' : Directory) : Prop where
  packages : d.project.packages.Perm d'.project.packages
  importPaths : (d.project.packages.map (·.importPath)).Nodup
  filePaths : ((d.project.packages.flatMap (·.files)).map (·.path)).Nodup
  root : d.root = d'.root
  dependencies : d.report.dependencies.edges = d'.report.dependencies.edges
  implementations : d.report.implementations = d'.report.implementations
  calls : d.report.calls = d'.report.calls

namespace Reordered

variable {d d' : Directory} {s s' : FileSlot}

theorem symm (h : d.Reordered d') : d'.Reordered d where
  packages := h.packages.symm
  importPaths := (h.packages.map _).nodup_iff.mp h.importPaths
  filePaths := ((h.packages.flatMap_right _).map _).nodup_iff.mp h.filePaths
  root := h.root.symm
  dependencies := h.dependencies.symm
  implementations := h.implementations.symm
  calls := h.calls.symm

/-! ### Files -/

theorem map_unplaced_slots_perm (h : d.Reordered d') :
    (d.slots.map FileSlot.unplaced).Perm (d'.slots.map FileSlot.unplaced) := by
  rw [slots, slots, Project.map_unplaced_slots, Project.map_unplaced_slots]
  exact h.packages.flatMap_right _

/-- What files make is the same up to order if it does not depend on the places of packages. -/
theorem flatMap_slots_perm {β : Type} {part part' : FileSlot → List β} (h : d.Reordered d')
    (hpart : ∀ s ∈ d.slots, ∀ i, { s with p := i } ∈ d'.slots → part s = part' { s with p := i }) :
    (d.slots.flatMap part).Perm (d'.slots.flatMap part') := by
  refine flatMap_perm_of_keys h.map_unplaced_slots_perm fun s hs s' hs' hsame => ?_
  obtain ⟨i, rfl⟩ := FileSlot.exists_place hsame
  rw [hpart s hs i hs']

theorem nodup_paths (h : d.Reordered d') : (d.slots.map (·.file.path)).Nodup :=
  d.project.map_path_slots ▸ h.filePaths

/-- A file has one place. -/
theorem eq_of_unplaced (h : d.Reordered d') (hs : s ∈ d.slots) (hs' : s' ∈ d.slots)
    (hsame : s.unplaced = s'.unplaced) : s = s' :=
  List.inj_on_of_nodup_map h.nodup_paths hs hs' (congrArg (·.file.path) hsame)

theorem fileOf (h : d.Reordered d') {i : Nat} (hs : s ∈ d.slots) (hs' : { s with p := i } ∈ d'.slots) :
    (d.fileOf s).unplaced = (d'.fileOf { s with p := i }).unplaced := by
  rw [draft_fileOf h.nodup_paths hs, draft_fileOf h.symm.nodup_paths hs']
  rfl

/-- What is found first among the parts of files stands in one package. -/
theorem find?_inSlots {α : Type} {part : FileSlot → List α} {test : FileSlot × α → Bool} {path : String}
    (h : d.Reordered d') (hpart : ∀ s, part s.unplaced = part s)
    (htest : ∀ s a, test (s.unplaced, a) = test (s, a))
    (hpath : ∀ u, test u = true → u.1.package.importPath = path) :
    ((d.inSlots part).find? test).map (Prod.map FileSlot.unplaced id) =
      ((d'.inSlots part).find? test).map (Prod.map FileSlot.unplaced id) := by
  have hparts (d : Directory) : (d.inSlots part).map (Prod.map FileSlot.unplaced id) =
      d.project.packages.flatMap fun k => k.slots.flatMap fun s => (part s).map fun a => (s, a) := by
    rw [← List.flatMap_assoc, ← Project.map_unplaced_slots, List.flatMap_map, inSlots, List.map_flatMap]
    refine List.flatMap_congr fun s _ => ?_
    rw [List.map_map, hpart]
    rfl
  have hfind (d : Directory) : ((d.inSlots part).find? test).map (Prod.map FileSlot.unplaced id) =
      ((d.inSlots part).map (Prod.map FileSlot.unplaced id)).find? test := by
    rw [List.find?_map, show test ∘ Prod.map FileSlot.unplaced id = test from funext fun u => htest u.1 u.2]
  have howner : ∀ k : Package, ∀ u ∈ k.slots.flatMap fun s => (part s).map fun a => (s, a),
      u.1.package.importPath = k.importPath := by
    intro k u hu
    obtain ⟨s, hs, hu⟩ := List.mem_flatMap.mp hu
    obtain ⟨file, -, rfl⟩ := List.mem_map.mp hs
    obtain ⟨a, -, rfl⟩ := List.mem_map.mp hu
    rfl
  rw [hfind, hfind, hparts, hparts]
  exact find?_flatMap_perm h.packages h.importPaths howner hpath

/-! ### Packages and imports -/

theorem package? (h : d.Reordered d') (path : String) :
    (d.package? path).map Draft.unplaced = (d'.package? path).map Draft.unplaced := by
  have hfind (d : Directory) : (d.package? path).map Draft.unplaced =
      (d.project.packages.reverse.find? (·.importPath = path)).map fun k => (k.draft 0).unplaced := by
    rw [← List.zipIdx_map_fst 0 d.project.packages, ← List.map_reverse, List.find?_map, Option.map_map,
      Directory.package?, Option.map_map]
    rfl
  have hreverse : d.project.packages.reverse.Perm d'.project.packages.reverse :=
    (List.reverse_perm _).trans (h.packages.trans (List.reverse_perm _).symm)
  have hnodup : (d.project.packages.reverse.map (·.importPath)).Nodup :=
    ((List.reverse_perm _).map _).nodup_iff.mpr h.importPaths
  rw [hfind, hfind, find?_key_perm hreverse hnodup]

theorem importPaths_perm (h : d.Reordered d') : d.importPaths.Perm d'.importPaths := by
  refine d.importPaths_perm.trans ?_
  rw [Dependencies.externals_perm h.packages]
  exact d'.importPaths_perm.symm

theorem import? (h : d.Reordered d') : d.import? = d'.import? := by
  funext path
  rw [Directory.import?, Directory.import?, h.importPaths_perm.contains_eq]

/-! ### Types -/

theorem map_declaration (h : d.Reordered d') (k : TypeId) :
    (d.typeDeclarations.find? (declaredId · = k)).map (Prod.map FileSlot.unplaced id) =
      (d'.typeDeclarations.find? (declaredId · = k)).map (Prod.map FileSlot.unplaced id) :=
  h.find?_inSlots (fun _ => rfl) (fun _ _ => rfl) fun _ hu => congrArg TypeId.package (of_decide_eq_true hu)

theorem type? (h : d.Reordered d') (k : TypeId) :
    (d.type? k).map Draft.unplaced = (d'.type? k).map Draft.unplaced := by
  have hdraft (d : Directory) : (d.type? k).map Draft.unplaced =
      ((d.typeDeclarations.find? (declaredId · = k)).map (Prod.map FileSlot.unplaced id)).map fun u =>
        (u.1.typeDraft u.2.1 u.2.2).unplaced := by
    rw [type?_eq_find?, Option.map_map, Option.map_map]
    rfl
  rw [hdraft, hdraft, h.map_declaration]

/-- The first declaration of a type is the first one in any order. -/
theorem mem_typesOf (h : d.Reordered d') {i : Nat} (hs : s ∈ d.slots) (hs' : { s with p := i } ∈ d'.slots)
    {u : TypeDecl × Nat} (hu : u ∈ d.typesOf s) : u ∈ d'.typesOf { s with p := i } := by
  rw [mem_typesOf_iff_find? hs] at hu
  rw [mem_typesOf_iff_find? hs']
  have hfound := h.map_declaration (s.typeId u.1)
  rw [hu] at hfound
  obtain ⟨⟨s', u'⟩, hfind, hsame⟩ := Option.map_eq_some_iff.mp hfound.symm
  obtain ⟨hplace, rfl⟩ := Prod.mk.inj hsame
  have hslot : s' = { s with p := i } :=
    h.symm.eq_of_unplaced (mem_inSlots.mp (List.mem_of_find?_eq_some hfind)).1 hs' hplace
  rw [hslot] at hfind
  exact hfind

theorem typesOf (h : d.Reordered d') {i : Nat} (hs : s ∈ d.slots) (hs' : { s with p := i } ∈ d'.slots) :
    d.typesOf s = d'.typesOf { s with p := i } := by
  refine List.filter_congr fun u hu => Bool.eq_iff_iff.mpr ?_
  constructor
  · intro hfirst
    exact (List.mem_filter.mp (h.mem_typesOf hs hs' (List.mem_filter.mpr ⟨hu, hfirst⟩))).2
  · intro hfirst
    exact (List.mem_filter.mp (h.symm.mem_typesOf hs' hs (List.mem_filter.mpr ⟨hu, hfirst⟩))).2

/-! ### Functions -/

theorem functionDraft (h : d.Reordered d') (s : FileSlot) (i : Nat) (f : FunctionDecl) (n : Nat) :
    (d.functionDraft s f n).unplaced = (d'.functionDraft { s with p := i } f n).unplaced := by
  rw [Directory.functionDraft, Directory.functionDraft, externalCalls, externalCalls, unresolvedCalls,
    unresolvedCalls, h.calls, h.import?]
  rfl

theorem function? (h : d.Reordered d') (k : FunctionId) :
    (d.function? k).map Draft.unplaced = (d'.function? k).map Draft.unplaced := by
  have hdraft (d : Directory) : (d.function? k).map Draft.unplaced =
      ((d.declarations.find? fun u => u.1.functionId u.2.1 = k).map (Prod.map FileSlot.unplaced id)).map
        fun u => (d.functionDraft u.1 u.2.1 u.2.2).unplaced := by
    rw [function?_eq_find?, Option.map_map, Option.map_map]
    rfl
  have hfound : (d.declarations.find? fun u => u.1.functionId u.2.1 = k).map
        (Prod.map FileSlot.unplaced id) =
      (d'.declarations.find? fun u => u.1.functionId u.2.1 = k).map (Prod.map FileSlot.unplaced id) :=
    h.find?_inSlots (fun _ => rfl) (fun _ _ => rfl) fun _ hu =>
      congrArg FunctionId.package (of_decide_eq_true hu)
  rw [hdraft, hdraft, hfound]
  exact congrArg (Option.map · _) (funext fun u => h.functionDraft u.1 u.1.p u.2.1 u.2.2)

end Reordered

end Directory

end CodeGraph
