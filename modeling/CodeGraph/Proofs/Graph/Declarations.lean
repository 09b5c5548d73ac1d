import CodeGraph.Proofs.Graph.Distinct
import CodeGraph.Proofs.Graph.Relationships

/-!
# The nodes of declarations

* `Declaration` — what a file declares; `SourceFile.declarations` lists it, and `Declaration.shown` is
  what a node shows of it.
* `Directory.shown_declared` — the nodes of a file are those of the declarations that are recorded.
* `Directory.drafts_filter_declared`, `Directory.drafts_filter_labels` — the drafts of chosen labels.
* `Directory.allRecorded_eq_iff` — everything is recorded exactly if no two types with one import path
  have one name.
* `Graph.exists_container` — the one file node that contains the node of a declaration.
* `Graph.one_node_per_declaration` — the main result.
-/

namespace CodeGraph

/-! ### Declarations -/

/-- What a file declares: a type, a field of a type, a constant or variable, a function or method. -/
inductive Declaration where
  | type (t : TypeDecl)
  | field (f : FieldDecl)
  | value (v : ValueDecl)
  | function (f : FunctionDecl)

/-- The labels of declarations. -/
def NodeType.isDeclared : NodeType → Bool
  | .function | .method | .struct | .interface | .field | .constant | .variable => true
  | .project | .package | .file | .importPath => false

/-- What a node shows of a declaration: its label, its name, the path of its file and its line. -/
structure Shown where
  label : NodeType
  name : String
  path : Option String
  line : Option Nat
  deriving DecidableEq, Repr

namespace Declaration

def label : Declaration → NodeType
  | type t => match t.form with
    | .struct => .struct
    | .interface => .interface
  | field _ => .field
  | value v => match v.form with
    | .constant => .constant
    | .variable => .variable
  | function f => if f.isMethod then .method else .function

def name : Declaration → String
  | type t => t.name
  | field f => f.name
  | value v => v.name
  | function f => f.name

def line : Declaration → Nat
  | type t => t.span.first
  | field f => f.line
  | value v => v.line
  | function f => f.span.first

/-- What the node of a declaration shows. -/
def shown (path : String) (c : Declaration) : Shown := ⟨c.label, c.name, some path, some c.line⟩

/-- The name of a type that is declared, across packages. -/
def typeId? (s : FileSlot) : Declaration → Option TypeId
  | type t => some (s.typeId t)
  | _ => none

end Declaration

/-- A type and its fields. -/
def TypeDecl.declarations (t : TypeDecl) : List Declaration := .type t :: t.fields.map .field

/-- What a file declares, if of its types some count only. -/
def SourceFile.declarationsWith (file : SourceFile) (types : List TypeDecl) : List Declaration :=
  types.flatMap TypeDecl.declarations ++ file.values.map .value ++ file.functions.map .function

/-- Everything that a file declares. -/
def SourceFile.declarations (file : SourceFile) : List Declaration := file.declarationsWith file.types

/-- The line of a declaration that is known of its node. -/
def NodeProperties.line? : NodeProperties → Option Nat
  | .function p => some p.span.first
  | .type p => some p.span.first
  | .field _ _ _ _ _ line => some line
  | .value p => some p.line
  | _ => none

/-- What a node shows if it is one of a declaration. -/
def GraphNode.shown (n : GraphNode) : Shown := ⟨n.label, n.name, n.path, n.properties.line?⟩

/-- What the node of a draft shows. -/
def Draft.shown (x : Draft) : Shown := ⟨x.label, x.name, x.path, x.properties.line?⟩

namespace Directory

variable {d : Directory} {s : FileSlot}

/-! ### Recorded declarations -/

/-- The declarations of a file that are recorded: types that are the first ones of their names, with
their fields, and all values and functions. -/
def recorded (d : Directory) (s : FileSlot) : List Declaration :=
  s.file.declarationsWith ((d.typesOf s).map Prod.fst)

/-- All declarations of a project, with their slots. -/
def allDeclarations (d : Directory) : List (FileSlot × Declaration) :=
  d.inSlots fun s => s.file.declarations

/-- All declarations that are recorded, with their slots. -/
def allRecorded (d : Directory) : List (FileSlot × Declaration) := d.inSlots d.recorded

/-- The names of all types that are declared. -/
def typeIds (d : Directory) : List TypeId := d.slots.flatMap fun s => s.file.types.map s.typeId

theorem map_fst_types (s : FileSlot) : s.types.map Prod.fst = s.file.types :=
  List.zipIdx_map_fst 0 s.file.types

theorem map_declaredId (d : Directory) (part : FileSlot → List (TypeDecl × Nat)) :
    (d.inSlots part).map declaredId =
      d.slots.flatMap fun s => ((part s).map Prod.fst).map s.typeId := by
  refine (map_inSlots fun s (u : TypeDecl × Nat) => s.typeId u.1).trans ?_
  refine List.flatMap_congr fun s _ => ?_
  rw [List.map_map]
  rfl

theorem map_declaredId_types (d : Directory) : d.typeDeclarations.map declaredId = d.typeIds := by
  rw [typeDeclarations, map_declaredId, typeIds]
  exact List.flatMap_congr fun s _ => by rw [map_fst_types]

theorem recorded_sublist (d : Directory) (s : FileSlot) :
    (d.recorded s).Sublist s.file.declarations := by
  have htypes : ((d.typesOf s).map Prod.fst).Sublist s.file.types := by
    rw [← map_fst_types]
    exact List.filter_sublist.map _
  exact ((htypes.flatMap _).append_right _).append_right _

theorem allRecorded_sublist (d : Directory) : d.allRecorded.Sublist d.allDeclarations :=
  inSlots_sublist d.recorded_sublist

/-- The types that are recorded, with their slots and their places. -/
def recordedTypes (d : Directory) : List (FileSlot × TypeDecl × Nat) := d.inSlots d.typesOf

theorem recordedTypes_sublist (d : Directory) : d.recordedTypes.Sublist d.typeDeclarations :=
  inSlots_sublist fun _ => List.filter_sublist

/-- No two types that are recorded have one name. -/
theorem nodup_recordedTypes (d : Directory) : (d.recordedTypes.map declaredId).Nodup := by
  refine (d.nodup_typeDeclarations.sublist d.recordedTypes_sublist).map_on fun u hu v hv hid => ?_
  have hfound {w : FileSlot × TypeDecl × Nat} (hw : w ∈ d.recordedTypes) :
      d.typeDeclarations.find? (declaredId · = declaredId w) = some w := by
    obtain ⟨hs, hrecorded⟩ := mem_inSlots.mp hw
    exact (mem_typesOf_iff_find? hs).mp hrecorded
  exact Option.some.inj ((hfound hu).symm.trans (hid ▸ hfound hv))

theorem filterMap_typeId?_declarationsWith (s : FileSlot) (types : List TypeDecl) :
    (s.file.declarationsWith types).filterMap (Declaration.typeId? s) = types.map s.typeId := by
  have hnone {α : Type} (make : α → Declaration) (hmake : ∀ a, (make a).typeId? s = none)
      (as : List α) : (as.map make).filterMap (Declaration.typeId? s) = [] := by
    rw [List.filterMap_map]
    exact List.filterMap_eq_nil_iff.mpr fun a _ => hmake a
  rw [SourceFile.declarationsWith, List.filterMap_append, List.filterMap_append,
    hnone _ fun _ => rfl, hnone _ fun _ => rfl, List.append_nil, List.append_nil]
  induction types with
  | nil => rfl
  | cons t types ih =>
    have htype : Declaration.typeId? s (.type t) = some (s.typeId t) := rfl
    rw [List.flatMap_cons, List.filterMap_append, ih, TypeDecl.declarations,
      List.filterMap_cons_some htype, hnone _ fun _ => rfl]
    rfl

theorem typesOf_eq_types (h : d.typeIds.Nodup) (hs : s ∈ d.slots) : d.typesOf s = s.types := by
  rw [← map_declaredId_types] at h
  refine List.filter_eq_self.mpr fun u hu => ?_
  have hmem : (s, u) ∈ d.typeDeclarations := mem_inSlots.mpr ⟨hs, hu⟩
  have hrecorded := (mem_typesOf_iff_find? hs).mpr ((find?_key_eq_some h).mpr ⟨hmem, rfl⟩)
  exact (List.mem_filter.mp hrecorded).2

/-- Everything is recorded exactly if no type is declared twice. -/
theorem allRecorded_eq_iff (d : Directory) :
    d.allRecorded = d.allDeclarations ↔ d.typeIds.Nodup := by
  constructor
  · intro h
    -- the types among all declarations are those among the recorded ones, which differ in their names
    have htypes := congrArg (List.filterMap fun u => u.2.typeId? u.1) h
    simp only [allRecorded, allDeclarations, filterMap_inSlots (Declaration.typeId? ·), recorded,
      SourceFile.declarations, filterMap_typeId?_declarationsWith] at htypes
    rw [typeIds, ← htypes, ← map_declaredId]
    exact d.nodup_recordedTypes
  · intro h
    refine List.flatMap_congr fun s hs => ?_
    rw [recorded, typesOf_eq_types h hs, map_fst_types]
    rfl

/-! ### Nodes of declarations -/

theorem shown_typeDraft (s : FileSlot) (t : TypeDecl) (i : Nat) :
    (s.typeDraft t i :: (s.fieldDrafts t i).map (·.2)).map Draft.shown =
      t.declarations.map (Declaration.shown s.file.path) := by
  have htype : Draft.shown (s.typeDraft t i) = Declaration.shown s.file.path (.type t) := by
    rw [Draft.shown, FileSlot.typeDraft, Declaration.shown, Declaration.label]
    cases t.form <;> rfl
  have hfields : ((s.fieldDrafts t i).map (·.2)).map Draft.shown =
      (t.fields.map Declaration.field).map (Declaration.shown s.file.path) := by
    rw [FileSlot.fieldDrafts, List.map_map, List.map_map, List.map_map]
    exact map_zipIdx_fst (Declaration.shown s.file.path ∘ Declaration.field) t.fields
  rw [List.map_cons, htype, hfields, TypeDecl.declarations, List.map_cons]

/-- The nodes of a file show the declarations that are recorded. -/
theorem shown_declared (d : Directory) (s : FileSlot) :
    (d.declared s).map Draft.shown = (d.recorded s).map (Declaration.shown s.file.path) := by
  have htypes : (d.typeDrafts s).map Draft.shown =
      (((d.typesOf s).map Prod.fst).flatMap TypeDecl.declarations).map
        (Declaration.shown s.file.path) := by
    rw [typeDrafts, List.map_flatMap, List.flatMap_map, List.map_flatMap]
    exact List.flatMap_congr fun u _ => shown_typeDraft s u.1 u.2
  have hvalues : s.valueDrafts.map Draft.shown =
      (s.file.values.map Declaration.value).map (Declaration.shown s.file.path) := by
    rw [FileSlot.valueDrafts, List.map_map, List.map_map]
    refine (List.map_congr_left fun u _ => ?_).trans
      (map_zipIdx_fst (Declaration.shown s.file.path ∘ Declaration.value) s.file.values)
    obtain ⟨v, i⟩ := u
    simp only [Function.comp_apply, Draft.shown, Declaration.shown, Declaration.label]
    cases v.form <;> rfl
  have hfunctions : (d.functionDrafts s).map Draft.shown =
      (s.file.functions.map Declaration.function).map (Declaration.shown s.file.path) := by
    rw [functionDrafts, List.map_map, List.map_map]
    exact map_zipIdx_fst (Declaration.shown s.file.path ∘ Declaration.function) s.file.functions
  rw [declared, List.map_append, List.map_append, htypes, hvalues, hfunctions, recorded,
    SourceFile.declarationsWith, List.map_append, List.map_append]

/-- What is drafted in a file stands for one of its declarations. -/
theorem exists_declaration {x : Draft} (hx : x ∈ d.declared s) :
    ∃ c ∈ s.file.declarations, x.shown = c.shown s.file.path := by
  have hmem : x.shown ∈ (d.declared s).map Draft.shown := List.mem_map_of_mem hx
  rw [shown_declared] at hmem
  obtain ⟨c, hc, hshown⟩ := List.mem_map.mp hmem
  exact ⟨c, (d.recorded_sublist s).subset hc, hshown.symm⟩

/-- Where labels of declarations are chosen, so are the drafts of files. -/
theorem drafts_filter_declared {choose : NodeType → Bool}
    (h : ∀ label, choose label = true → label.isDeclared = true) (d : Directory) :
    d.drafts.filter (choose ·.label) =
      (d.slots.flatMap fun s => (d.typeDrafts s ++ s.valueDrafts).filter (choose ·.label)) ++
        d.slots.flatMap fun s => (d.functionDrafts s).filter (choose ·.label) := by
  have hother {xs : List Draft} (hxs : ∀ x ∈ xs, x.label.isDeclared = false) :
      xs.filter (choose ·.label) = [] := by
    refine List.filter_eq_nil_iff.mpr fun x hx hchosen => ?_
    exact Bool.false_ne_true ((hxs x hx).symm.trans (h x.label hchosen))
  have hpackages : ∀ x ∈ d.root :: d.packageDrafts, x.label.isDeclared = false := by
    refine List.forall_mem_cons.mpr ⟨rfl, fun x hx => ?_⟩
    rcases mem_packageDrafts.mp hx with ⟨k, i, -, rfl⟩ | ⟨s, -, rfl⟩ <;> rfl
  have himports : ∀ x ∈ d.importPaths.map importDraft, x.label.isDeclared = false :=
    List.forall_mem_map.mpr fun path _ => rfl
  rw [drafts, List.filter_append, List.filter_append, List.filter_append, hother hpackages,
    hother himports, List.filter_flatMap, List.filter_flatMap, List.nil_append, List.append_nil]

theorem drafts_filter_tier (tier : Nat × List Draft) (htier : tier ∈ d.tiers) :
    (d.drafts.filter (·.label.tier = tier.1)).Perm tier.2 := by
  have hkeys : (d.tiers.map Prod.fst).Nodup := by simp [tiers]
  have hgroup : (d.tiers.flatMap Prod.snd).filter (·.label.tier = tier.1) = tier.2 := by
    rw [filter_flatMap_of_keys tier_of_mem_tiers,
      filter_key_eq_singleton hkeys htier, List.flatMap_singleton]
  exact hgroup ▸ d.drafts_perm.filter _

/-- Where labels are chosen that make up a tier, so are the drafts of the tier. -/
theorem drafts_filter_labels (choose : NodeType → Bool) (tier : Nat) {xs : List Draft}
    (htier : (tier, xs) ∈ d.tiers) (h : ∀ label, choose label = true ↔ label.tier = tier) :
    (d.drafts.filter (choose ·.label)).Perm xs := by
  have hsame : d.drafts.filter (choose ·.label) = d.drafts.filter (·.label.tier = tier) :=
    List.filter_congr fun x _ => Bool.eq_iff_iff.mpr (by rw [h, decide_eq_true_eq])
  rw [hsame]
  exact drafts_filter_tier (tier, xs) htier

/-- The drafts of declarations, and no others, have their labels. -/
theorem drafts_filter_isDeclared (d : Directory) :
    (d.drafts.filter (·.label.isDeclared)).Perm (d.slots.flatMap d.declared) :=
  drafts_filter_labels NodeType.isDeclared 3 (by simp [tiers]) fun label => by cases label <;> decide

/-- The drafts of files, and no others, have their label. -/
theorem drafts_filter_files (d : Directory) :
    (d.drafts.filter (·.label = .file)).Perm (d.slots.map FileSlot.draft) :=
  drafts_filter_labels (fun label => label = .file) 2 (by simp [tiers])
    fun label => by cases label <;> decide

/-- The drafts of import paths, and no others, have their label. -/
theorem drafts_filter_importPaths (d : Directory) :
    (d.drafts.filter (·.label = .importPath)).Perm (d.importPaths.map importDraft) :=
  drafts_filter_labels (fun label => label = .importPath) 4 (by simp [tiers])
    fun label => by cases label <;> decide

/-- Where paths are distinct, one draft alone stands for a file. -/
theorem drafts_filter_file (h : (d.slots.map (·.file.path)).Nodup) (hs : s ∈ d.slots) :
    d.drafts.filter (fun x => x.label = .file ∧ x.path = some s.file.path) = [s.draft] := by
  have hpaths : ((d.slots.map FileSlot.draft).map Draft.path).Nodup := by
    have hsome : (d.slots.map FileSlot.draft).map Draft.path = (d.slots.map (·.file.path)).map some := by
      rw [List.map_map, List.map_map]
      rfl
    exact hsome ▸ h.map (Option.some_injective _)
  have halone : (s.draft :: []) = (d.slots.map FileSlot.draft).filter (·.path = some s.file.path) :=
    (filter_key_eq_singleton hpaths (List.mem_map_of_mem hs)).symm
  refine List.perm_singleton.mp ?_
  rw [halone]
  have hboth : d.drafts.filter (fun x => x.label = .file ∧ x.path = some s.file.path) =
      (d.drafts.filter (·.label = .file)).filter (·.path = some s.file.path) := by
    rw [List.filter_filter]
    refine List.filter_congr fun x _ => ?_
    rw [Bool.decide_and, Bool.and_comm]
  rw [hboth]
  exact d.drafts_filter_files.filter _

/-- Nodes show everything exactly if no type is declared twice. -/
theorem shown_recorded_perm_iff (d : Directory) :
    (d.slots.flatMap fun s => (d.recorded s).map (Declaration.shown s.file.path)).Perm
        (d.slots.flatMap fun s => s.file.declarations.map (Declaration.shown s.file.path)) ↔
      d.typeIds.Nodup := by
  have hshown (part : FileSlot → List Declaration) :
      (d.slots.flatMap fun s => (part s).map (Declaration.shown s.file.path)) =
        (d.inSlots part).map fun u => Declaration.shown u.1.file.path u.2 :=
    (map_inSlots fun s => Declaration.shown s.file.path).symm
  rw [hshown, hshown, ← allRecorded_eq_iff]
  constructor
  · intro h
    have hlength := h.length_eq
    rw [List.length_map, List.length_map] at hlength
    exact d.allRecorded_sublist.eq_of_length hlength
  · intro h
    exact List.Perm.of_eq (congrArg _ h)

/-- What is drafted with the label of a declaration is declared in some file. -/
theorem exists_declared {x : Draft} (hx : x ∈ d.drafts) (hlabel : x.label.isDeclared = true) :
    ∃ s ∈ d.slots, x ∈ d.declared s := by
  have hmem := d.drafts_filter_isDeclared.mem_iff.mp (List.mem_filter.mpr ⟨hx, hlabel⟩)
  exact List.mem_flatMap.mp hmem

end Directory

namespace Graph

section

variable {ids : Identities} {now : Instant} {projectId : String} {p : Project} {report : Report}

/-- Nodes are selected as their drafts are. -/
theorem filter_nodes_ofReport {choose : GraphNode → Bool} (select : Draft → Bool)
    (h : ∀ x : Draft, choose (x.node ids projectId now) = select x) :
    (ofReport ids now projectId p report).nodes.filter choose =
      ((Directory.mk projectId p report).drafts.filter select).map (·.node ids projectId now) := by
  rw [nodes_ofReport, List.filter_map]
  exact congrArg _ (List.filter_congr fun x _ => h x)

/-- The nodes of declarations show those that are recorded. -/
theorem shown_nodes_perm :
    (((ofReport ids now projectId p report).nodes.filter (·.label.isDeclared)).map
        GraphNode.shown).Perm
      ((Directory.mk projectId p report).slots.flatMap fun s =>
        ((Directory.mk projectId p report).recorded s).map (Declaration.shown s.file.path)) := by
  let d : Directory := ⟨projectId, p, report⟩
  have hdeclared : (d.slots.flatMap d.declared).map Draft.shown =
      d.slots.flatMap fun s => (d.recorded s).map (Declaration.shown s.file.path) := by
    rw [List.map_flatMap]
    exact List.flatMap_congr fun s _ => d.shown_declared s
  have hshown : GraphNode.shown ∘ (·.node ids projectId now) = Draft.shown := rfl
  rw [filter_nodes_ofReport (fun x => x.label.isDeclared) fun _ => rfl, List.map_map, hshown,
    ← hdeclared]
  exact d.drafts_filter_isDeclared.map _

/-- A file node with the path of a declaration contains the node of the declaration, and it is the only one
with that path if files have distinct paths. -/
theorem exists_container {n : GraphNode}
    (hn : n ∈ (ofReport ids now projectId p report).nodes) (hlabel : n.label.isDeclared = true) :
    ∃ f ∈ (ofReport ids now projectId p report).nodes.filter
        (fun m => m.label = .file ∧ m.path = n.path),
      (((Directory.mk projectId p report).slots.map (·.file.path)).Nodup →
        (ofReport ids now projectId p report).nodes.filter
          (fun m => m.label = .file ∧ m.path = n.path) = [f]) ∧
      ∃ r ∈ (ofReport ids now projectId p report).relationships,
        r.label = .contains ∧ r.source = f.id ∧ r.target = n.id := by
  let d : Directory := ⟨projectId, p, report⟩
  obtain ⟨x, hx, rfl⟩ := mem_nodes_ofReport.mp hn
  obtain ⟨s, hs, hdeclared⟩ := Directory.exists_declared hx hlabel
  have hpath : x.path = some s.file.path := (Directory.heading_of_mem_declared hdeclared).2
  -- the file that contains the declaration is the last one with the path
  obtain ⟨t, ht, -, htpath, hfile⟩ := Directory.exists_fileOf (d := d) hs
  have hfilter : (ofReport ids now projectId p report).nodes.filter
      (fun m => m.label = .file ∧ m.path = x.path) =
        (d.drafts.filter fun y => y.label = .file ∧ y.path = some s.file.path).map
          (·.node ids projectId now) := by
    rw [filter_nodes_ofReport (fun y => y.label = .file ∧ y.path = x.path) fun _ => rfl, hpath]
  refine ⟨t.draft.node ids projectId now, ?_, fun hpaths => ?_, ?_⟩
  · show _ ∈ (ofReport ids now projectId p report).nodes.filter
      (fun m => m.label = .file ∧ m.path = x.path)
    rw [hfilter]
    refine List.mem_map_of_mem (List.mem_filter.mpr ⟨Directory.mem_drafts.mpr (.file ht), ?_⟩)
    exact decide_eq_true ⟨rfl, congrArg some htpath⟩
  · show (ofReport ids now projectId p report).nodes.filter
      (fun m => m.label = .file ∧ m.path = x.path) = _
    rw [hfilter, Directory.drafts_filter_file hpaths hs,
      List.inj_on_of_nodup_map hpaths ht hs htpath]
    rfl
  · have hlink : Link.contains t.draft x ∈ d.links ids := by
      rw [← hfile]
      exact (d.contains_declared_sublist ids hs).subset (List.mem_map_of_mem hdeclared)
    obtain ⟨e, he, hmade⟩ := exists_made ids now projectId p report hlink
    exact ⟨e, he, hmade.label, hmade.source, hmade.target⟩

end

/-- **Which declarations have nodes.**  Let a project be read, and let a graph be built of it.  The
nodes with labels of declarations are, one for one, those of the declarations that are recorded: all
values and functions, and of the types of one name and one import path the first with its fields.  So
every declaration has a node exactly if no two types have one name and one import path.  Each of these
nodes has the path of a file node that contains it, and where names are texts no other file node has that
path. -/
theorem one_node_per_declaration {languages : List Language} {settings : ReadingSettings}
    {tree : FileTree} {path : String} {signal : Signal} {p : Project}
    (hread : (Project.read languages settings tree path).outcome signal = .ok p)
    (hnamed : tree.Named) (hdistinct : tree.Distinct) (ids : Identities) (now : Instant)
    (projectId : String) (report : Report) :
    let d : Directory := ⟨projectId, p, report⟩
    let g := ofReport ids now projectId p report
    let shown := (g.nodes.filter (·.label.isDeclared)).map GraphNode.shown
    shown.Perm (d.slots.flatMap fun s => (d.recorded s).map (Declaration.shown s.file.path)) ∧
      (∀ s ∈ d.slots, ∀ t i, (t, i) ∈ d.typesOf s ↔
        ∃ before after, d.typeDeclarations = before ++ (s, t, i) :: after ∧
          ∀ u ∈ before, Directory.declaredId u ≠ s.typeId t) ∧
      (shown.Perm (d.slots.flatMap fun s =>
          s.file.declarations.map (Declaration.shown s.file.path)) ↔ d.typeIds.Nodup) ∧
      ∀ n ∈ g.nodes, n.label.isDeclared = true →
        ∃ f ∈ g.nodes.filter (fun m => m.label = .file ∧ m.path = n.path),
          (tree.Legible → g.nodes.filter (fun m => m.label = .file ∧ m.path = n.path) = [f]) ∧
          ∃ r ∈ g.relationships, r.label = .contains ∧ r.source = f.id ∧ r.target = n.id := by
  intro d g shown
  have hrecorded : shown.Perm
      (d.slots.flatMap fun s => (d.recorded s).map (Declaration.shown s.file.path)) := shown_nodes_perm
  refine ⟨hrecorded, fun s hs t i => Directory.mem_typesOf hs, ?_, fun n hn hlabel => ?_⟩
  · rw [← d.shown_recorded_perm_iff]
    constructor
    · intro h
      exact hrecorded.symm.trans h
    · intro h
      exact hrecorded.trans h
  · obtain ⟨f, hf, halone, hcontains⟩ := exists_container hn hlabel
    exact ⟨f, hf, fun hlegible => halone (Project.nodup_slot_paths hread hnamed hdistinct hlegible),
      hcontains⟩

/-! ### A type for each platform -/

def linuxText : String := "package a\n\ntype T struct \x7b\n\tFd int\n\x7d\n"

def windowsText : String := "package a\n\ntype T struct \x7b\n\tHandle int\n\x7d\n"

/-- A package of two files, of which only one is compiled at a time. -/
def platformTree : FileTree :=
  let text (s : String) : FileTree := .file (Text.Utf8.encode s)
  .folder [("p", .folder [("go.mod", text "module m\n"), ("a_linux.go", text linuxText),
    ("a_windows.go", text windowsText)])]

def platformSources : List Source :=
  [(["a_linux.go"], .ok (Text.Utf8.encode linuxText)), (["a_windows.go"], .ok (Text.Utf8.encode windowsText))]

def platformFiles : List SourceFile :=
  (filesRead (platformSources.map (readSource Languages.standard))).filter (·.package ≠ "")

/-- What its files are: their paths, their package clauses, what they declare and the names of their
types. -/
def platformListing : List (String × String × List Shown × List String) :=
  [("a_linux.go", "a", [⟨.struct, "T", some "a_linux.go", some 3⟩,
      ⟨.field, "Fd", some "a_linux.go", some 4⟩], ["T"]),
    ("a_windows.go", "a", [⟨.struct, "T", some "a_windows.go", some 3⟩,
      ⟨.field, "Handle", some "a_windows.go", some 4⟩], ["T"])]

theorem listing_platformFiles :
    platformFiles.map (fun f => (f.path, f.package, f.declarations.map (Declaration.shown f.path),
      f.types.map (·.name))) = platformListing := by
  decide +kernel

theorem platformFiles_ne_nil : platformFiles ≠ [] := by
  intro h
  have hlisting := listing_platformFiles
  rw [h] at hlisting
  cases hlisting

theorem groupPackages_platformFiles :
    groupPackages (some "m") platformFiles = [⟨"m", "a", "", platformFiles⟩] := by
  have hkeys : (platformFiles.map packageKey).eraseDups = [("", "a")] := by
    have hlisted : platformFiles.map packageKey =
        platformListing.map fun u => (Path.parent u.1, u.2.1) := by
      rw [← listing_platformFiles, List.map_map]
      rfl
    rw [hlisted]
    decide +kernel
  have hsorted : platformFiles.Pairwise fun f g => decide (f.path ≤ g.path) = true := by
    have hlisted : platformListing.Pairwise fun u v => decide (u.1 ≤ v.1) = true := by decide +kernel
    rw [← listing_platformFiles, List.pairwise_map] at hlisted
    exact hlisted
  have hpath : plainImportPath (some "m") "" "a" = "m" := by decide +kernel
  have hone := groupPackages_of_one_key (some "m") hkeys hsorted
  dsimp only at hone
  rw [hone, hpath]

/-- The type of the second platform, and its field, have no node. -/
theorem one_node_per_declaration_platforms :
    platformTree.Named ∧ platformTree.Distinct ∧ ∃ p,
      (Project.read Languages.standard {} platformTree "/p").outcome .never = .ok p ∧
      ∀ (ids : Identities) (now : Instant) (projectId : String) (report : Report),
        let d : Directory := ⟨projectId, p, report⟩
        let g := ofReport ids now projectId p report
        d.typeIds = [⟨"m", "T"⟩, ⟨"m", "T"⟩] ∧
          (d.slots.flatMap fun s => s.file.declarations.map (Declaration.shown s.file.path)) =
            platformListing.flatMap (·.2.2.1) ∧
          ¬((g.nodes.filter (·.label.isDeclared)).map GraphNode.shown).Perm
            (d.slots.flatMap fun s => s.file.declarations.map (Declaration.shown s.file.path)) := by
  obtain ⟨p, hread, -, hpackages⟩ := Project.exists_read_child Languages.standard {} platformTree
    platformSources rfl (by decide) rfl (by decide +kernel) (by decide +kernel) platformFiles_ne_nil
  have hmodule : modulePathAt platformTree ["p"] = some "m" := by decide +kernel
  have hnamed : platformTree.Named := by
    simp only [platformTree, FileTree.Named, FileTree.Each, EachEntry]
    decide +kernel
  have hdistinct : platformTree.Distinct := by
    simp [platformTree, FileTree.Distinct, EntriesDistinct]
  rw [hmodule] at hpackages
  have hpackages : p.packages = [⟨"m", "a", "", platformFiles⟩] :=
    hpackages.trans groupPackages_platformFiles
  refine ⟨hnamed, hdistinct, p, hread, fun ids now projectId report => ?_⟩
  intro d g
  have hparts {β : Type} (part : Package → SourceFile → List β) :
      (d.slots.flatMap fun s => part s.package s.file) =
        platformFiles.flatMap (part ⟨"m", "a", "", platformFiles⟩) := by
    have hfiles := p.flatMap_slots part
    rw [hpackages, List.flatMap_singleton] at hfiles
    exact hfiles
  have hids : d.typeIds = [⟨"m", "T"⟩, ⟨"m", "T"⟩] := by
    have hlisted : (platformFiles.flatMap fun f => f.types.map fun t => TypeId.mk "m" t.name) =
        platformListing.flatMap fun u => u.2.2.2.map (TypeId.mk "m") := by
      rw [← listing_platformFiles, List.flatMap_map]
      simp only [List.map_map, Function.comp_def]
    exact (hparts fun k f => f.types.map fun t => TypeId.mk k.importPath t.name).trans hlisted
  refine ⟨hids, ?_, fun hall => ?_⟩
  · rw [hparts fun _ f => f.declarations.map (Declaration.shown f.path), ← listing_platformFiles,
      List.flatMap_map]
  · obtain ⟨-, -, hiff, -⟩ :=
      one_node_per_declaration hread hnamed hdistinct ids now projectId report
    have honce := hiff.mp hall
    rw [hids] at honce
    simp at honce

end Graph

end CodeGraph
