import CodeGraph.Proofs.Graph.Counters
import CodeGraph.Proofs.Names.Satisfaction

/-!
# Types and what belongs to them

* `SourceFile.FieldsOfStructs` — only structs have fields; so it is in every project that is read
  (`Project.fieldsOfStructs`).
* `Directory.exists_type?_iff` — the node of a type has the form that the symbol table tells of.
* `NodeProperties.owner?` — the type that a field or a method belongs to, by its name.
* `Directory.targets_hasField`, `Directory.targets_hasMethod` — every field is handed to a type, and
  every method whose receiver is found among the types.
-/

namespace CodeGraph

/-! ### Fields of types -/

/-- Only structs have fields. -/
def SourceFile.FieldsOfStructs (f : SourceFile) : Prop :=
  ∀ t ∈ f.types, t.fields ≠ [] → t.form = .struct

theorem Source.form_of_typeDecl? {text : Syntax.SourceText} {spec : Syntax.Node} {t : TypeDecl}
    (h : Source.typeDecl? text spec = some t) (hfields : t.fields ≠ []) : t.form = .struct := by
  obtain ⟨name, -, h⟩ := Option.bind_eq_some_iff.mp h
  obtain ⟨type, -, h⟩ := Option.bind_eq_some_iff.mp h
  dsimp only at h
  split at h
  next =>
    rw [← Option.some.inj h]
  next =>
    rw [← Option.some.inj h] at hfields
    exact absurd rfl hfields
  next => cases h

theorem Language.fieldsOfStructs_read {text : String} {f : SourceFile} (h : go.read text = .ok f) :
    f.FieldsOfStructs := by
  obtain rfl := eq_outline_of_read h
  intro t ht
  obtain ⟨n, -, ht⟩ := List.mem_flatMap.mp ht
  obtain ⟨spec, -, ht⟩ := List.mem_filterMap.mp ht
  exact Source.form_of_typeDecl? ht

theorem Project.fieldsOfStructs {settings : ReadingSettings} {tree : FileTree} {path : String}
    {signal : Signal} {p : Project} {k : Package} {f : SourceFile}
    (h : (Project.read Languages.standard settings tree path).outcome signal = .ok p)
    (hk : k ∈ p.packages) (hf : f ∈ k.files) : f.FieldsOfStructs := by
  obtain ⟨s, hs⟩ := Project.exists_readSource h hk hf
  obtain ⟨l, content, file, hl, -, hread, rfl⟩ := readSource_eq_ok hs
  -- there is one language only
  obtain ⟨extension, -, hfound⟩ := Option.bind_eq_some_iff.mp hl
  obtain rfl := List.mem_singleton.mp (List.mem_of_find?_eq_some hfound)
  have hfile : file.FieldsOfStructs := Language.fieldsOfStructs_read hread
  exact hfile

/-! ### Forms of types -/

/-- The label of the types of a form. -/
def TypeForm.label : TypeForm → NodeType
  | struct => .struct
  | interface => .interface

theorem TypeForm.label_inj {a b : TypeForm} : a.label = b.label ↔ a = b := by
  cases a <;> cases b <;> decide

/-- The type that a field or a method belongs to, by its name. -/
def NodeProperties.owner? : NodeProperties → Option TypeId
  | field path owner _ _ _ _ => some ⟨path, owner⟩
  | function q => q.receiver.map (TypeId.mk q.package)
  | _ => none

/-- The type that a node stands for. -/
def GraphNode.typeId? (n : GraphNode) : Option TypeId :=
  match n.properties with
  | .type q => some ⟨q.package, n.name⟩
  | _ => none

namespace Directory

variable {d : Directory} {s : FileSlot} {x : Draft} {id : TypeId} {l : Link}
  {ids : Identities}

theorem label_typeDraft (s : FileSlot) (t : TypeDecl) (i : Nat) :
    (s.typeDraft t i).label = t.form.label := by
  rw [FileSlot.typeDraft]
  cases t.form <;> rfl

/-- The node of a type is made of the declaration that its package finds. -/
theorem package_type?_of_type? (h : d.type? id = some x) :
    ∃ s ∈ d.slots, ∃ t i, x = s.typeDraft t i ∧ s.package.importPath = id.package ∧
      s.package.type? id.name = some (t, s.file) := by
  rw [type?_eq_find?] at h
  obtain ⟨⟨s, t, i⟩, hfind, rfl⟩ := Option.map_eq_some_iff.mp h
  obtain ⟨hs, -⟩ := mem_inSlots.mp (List.mem_of_find?_eq_some hfind)
  -- the first declaration of all is the first one of its package
  have hfirst := find?_package_of_inSlots SourceFile.types
    (fun k t => TypeId.mk k.importPath t.name = id) hfind
  have hid : declaredId (s, t, i) = id := by simpa using List.find?_some hfind
  subst hid
  refine ⟨s, hs, t, i, rfl, rfl, ?_⟩
  simp only [declaredId, FileSlot.typeId, TypeId.mk.injEq, true_and] at hfirst
  exact hfirst

/-- Every declared type has a node. -/
theorem exists_type? {k : Package} {name : String} (hk : k ∈ d.project.packages)
    (h : (k.type? name).isSome) : ∃ x, d.type? ⟨k.importPath, name⟩ = some x := by
  obtain ⟨⟨t, file⟩, htype⟩ := Option.isSome_iff_exists.mp h
  have hname : t.name = name := by simpa using List.find?_some htype
  obtain ⟨file', hfile, ht⟩ := List.mem_flatMap.mp (List.mem_of_find?_eq_some htype)
  obtain ⟨t', ht', hpair⟩ := List.mem_map.mp ht
  obtain ⟨rfl, rfl⟩ := Prod.mk.inj hpair
  obtain ⟨u, hfind⟩ := exists_find?_inSlots (d := d) SourceFile.types
    (fun k' t => TypeId.mk k'.importPath t.name = ⟨k.importPath, name⟩) hk hfile ht'
    (by simp [hname])
  rw [type?_eq_find?]
  exact ⟨_, congrArg (Option.map _) hfind⟩

section

variable (hpaths : (d.project.packages.map (·.importPath)).Nodup)

include hpaths

/-- Where import paths are distinct, the node of a type is made of the declaration that the symbol table
holds. -/
theorem held_of_type? (h : d.type? id = some x) : ∃ k t file,
    (SymbolTable.ofProject d.project).package? id.package = some k ∧
      k.type? id.name = some (t, file) ∧ x.label = t.form.label := by
  obtain ⟨s, hs, t, i, rfl, hpath, htype⟩ := package_type?_of_type? h
  exact ⟨s.package, t, s.file, hpath ▸ held_package hpaths hs, htype, label_typeDraft s t i⟩

/-- Where import paths are distinct, the node of a type has the form that the symbol table tells of. -/
theorem exists_type?_iff (form : TypeForm) : (∃ x, d.type? id = some x ∧ x.label = form.label) ↔
    (((SymbolTable.ofProject d.project).package? id.package).bind fun k =>
      k.typeOfForm? form id.name).isSome := by
  constructor
  · rintro ⟨x, hx, hlabel⟩
    obtain ⟨k, t, file, hk, htype, hform⟩ := held_of_type? hpaths hx
    have hsame : t.form = form := TypeForm.label_inj.mp (hform.symm.trans hlabel)
    rw [hk, Option.bind_some, Package.typeOfForm?, htype]
    simp [hsame]
  · intro h
    obtain ⟨v, hv⟩ := Option.isSome_iff_exists.mp h
    obtain ⟨k, hk, htype⟩ := Option.bind_eq_some_iff.mp hv
    obtain ⟨htype, hsame⟩ := Option.filter_eq_some_iff.mp htype
    obtain ⟨hpackage, hpath⟩ := SymbolTable.mem_of_package? hk
    obtain ⟨x, hx⟩ := exists_type? (d := d) hpackage (Option.isSome_iff_exists.mpr ⟨v, htype⟩)
    rw [hpath] at hx
    obtain ⟨k', t, file, hk', htype', hform⟩ := held_of_type? hpaths hx
    obtain rfl : k' = k := Option.some.inj (hk'.symm.trans hk)
    obtain rfl : (t, file) = v := Option.some.inj (htype'.symm.trans htype)
    exact ⟨x, hx, hform.trans (TypeForm.label_inj.mpr (of_decide_eq_true hsame))⟩

end

/-! ### What belongs to types -/

/-- The drafts of fields, and no others, have their label. -/
theorem drafts_filter_field (d : Directory) : d.drafts.filter (·.label = .field) =
    d.slots.flatMap fun s => (d.typesOf s).flatMap fun (t, i) => (s.fieldDrafts t i).map (·.2) := by
  have hdeclared (label : NodeType) (h : decide (label = .field) = true) : label.isDeclared = true := by
    rw [of_decide_eq_true h]
    rfl
  have hvalues (s : FileSlot) : s.valueDrafts.filter (·.label = .field) = [] := by
    refine List.filter_eq_nil_iff.mpr (List.forall_mem_map.mpr fun u _ => ?_)
    obtain ⟨v, i⟩ := u
    cases hform : v.form <;> simp [hform]
  have hfunctions (s : FileSlot) : (d.functionDrafts s).filter (·.label = .field) = [] := by
    refine List.filter_eq_nil_iff.mpr (List.forall_mem_map.mpr fun u _ => ?_)
    have hcallable := isCallable_functionDraft (d := d) s u.1 u.2
    intro hfield
    rw [of_decide_eq_true hfield] at hcallable
    cases hcallable
  have htype (s : FileSlot) (t : TypeDecl) (i : Nat) :
      (s.typeDraft t i :: (s.fieldDrafts t i).map (·.2)).filter (·.label = .field) =
        (s.fieldDrafts t i).map (·.2) := by
    rw [List.filter_cons_of_neg]
    · refine List.filter_eq_self.mpr (List.forall_mem_map.mpr fun u hu => ?_)
      obtain ⟨v, -, rfl⟩ := List.mem_map.mp hu
      rfl
    · rw [label_typeDraft]
      cases t.form <;> decide
  have htypes (s : FileSlot) : (d.typeDrafts s).filter (·.label = .field) =
      (d.typesOf s).flatMap fun (t, i) => (s.fieldDrafts t i).map (·.2) := by
    rw [typeDrafts, List.filter_flatMap]
    exact List.flatMap_congr fun u _ => htype s u.1 u.2
  rw [drafts_filter_declared hdeclared]
  simp only [List.filter_append, hvalues, hfunctions, htypes, flatMap_none, List.append_nil]

/-- Every field is handed to a type. -/
theorem targets_hasField (d : Directory) (ids : Identities) :
    (labelled .hasField (d.links ids)).map (·.target) = d.drafts.filter (·.label = .field) := by
  rw [drafts_filter_field, hasField_links, List.map_flatMap]
  refine List.flatMap_congr fun s _ => ?_
  rw [hasField_typeLinks, List.map_flatMap]
  refine List.flatMap_congr fun u _ => ?_
  rw [List.map_map]
  rfl

theorem label_functionDraft (s : FileSlot) (f : FunctionDecl) (i : Nat) :
    (d.functionDraft s f i).label = if f.isMethod then .method else .function := rfl

/-- A method belongs to its receiver, and a function to no type. -/
theorem owner?_functionDraft (s : FileSlot) (f : FunctionDecl) (i : Nat) :
    (d.functionDraft s f i).properties.owner? =
      if f.isMethod then some ⟨s.package.importPath, f.receiver⟩ else none := by
  rw [functionDraft, FileSlot.functionDraft]
  cases f.isMethod <;> rfl

/-- A method is handed to a type exactly if its receiver is found among the types. -/
theorem targets_hasMethod (d : Directory) (ids : Identities) :
    (labelled .hasMethod (d.links ids)).map (·.target) = d.drafts.filter fun x =>
      x.label = .method && (x.properties.owner?.bind d.type?).isSome := by
  have hcallable : (d.drafts.filter fun x =>
        x.label = .method && (x.properties.owner?.bind d.type?).isSome) =
      (d.drafts.filter (·.label.isCallable)).filter fun x =>
        x.label = .method && (x.properties.owner?.bind d.type?).isSome := by
    rw [List.filter_filter]
    refine List.filter_congr fun x _ => ?_
    by_cases h : x.label = .method <;> simp [h, NodeType.isCallable]
  rw [hcallable, drafts_filter_isCallable, List.filter_flatMap, hasMethod_links, List.map_flatMap]
  refine List.flatMap_congr fun s _ => ?_
  rw [hasMethod_functionLinks, List.map_filterMap, functionDrafts, ← List.filterMap_eq_filter,
    List.filterMap_map]
  refine List.filterMap_congr fun u _ => ?_
  obtain ⟨f, i⟩ := u
  show Option.map _ (Option.map _ _) = Option.guard _ (d.functionDraft s f i)
  rw [Option.map_map, Option.guard, owner?_functionDraft, label_functionDraft]
  cases f.isMethod with
  | false => rfl
  | true => cases h : d.type? ⟨s.package.importPath, f.receiver⟩ <;> simp [h]

/-- A field is handed to the type that declares it. -/
theorem exists_typeDraft_of_hasField (h : l ∈ labelled .hasField (d.links ids)) :
    ∃ s ∈ d.slots, ∃ t ∈ s.file.types, ∃ i, t.fields ≠ [] ∧ l.source = s.typeDraft t i ∧
      l.target.label = .field ∧ l.target.properties.owner? = some (s.typeId t) := by
  rw [hasField_links] at h
  obtain ⟨s, hs, h⟩ := List.mem_flatMap.mp h
  rw [hasField_typeLinks] at h
  obtain ⟨⟨t, i⟩, ht, h⟩ := List.mem_flatMap.mp h
  obtain ⟨u, hu, rfl⟩ := List.mem_map.mp h
  obtain ⟨⟨field, j⟩, hfield, rfl⟩ := List.mem_map.mp hu
  refine ⟨s, hs, t, List.fst_mem_of_mem_zipIdx (List.mem_filter.mp ht).1, i, ?_, rfl, rfl, rfl⟩
  exact List.ne_nil_of_mem (List.fst_mem_of_mem_zipIdx hfield)

/-- A method is handed to the type of its receiver. -/
theorem exists_functionDraft_of_hasMethod (h : l ∈ labelled .hasMethod (d.links ids)) :
    ∃ s ∈ d.slots, ∃ f ∈ s.file.functions, ∃ i, f.isMethod = true ∧
      l.target = d.functionDraft s f i ∧
      d.type? ⟨s.package.importPath, f.receiver⟩ = some l.source := by
  rw [hasMethod_links] at h
  obtain ⟨s, hs, h⟩ := List.mem_flatMap.mp h
  rw [hasMethod_functionLinks] at h
  obtain ⟨⟨f, i⟩, hf, h⟩ := List.mem_filterMap.mp h
  obtain ⟨type, htype, rfl⟩ := Option.map_eq_some_iff.mp h
  split at htype
  next hmethod => exact ⟨s, hs, f, List.fst_mem_of_mem_zipIdx hf, i, hmethod, rfl, htype⟩
  next => cases htype

theorem typeId?_of_type? (h : d.type? id = some x) (projectId : String) (now : Instant) :
    (x.node ids projectId now).typeId? = some id := by
  obtain ⟨s, -, t, i, -, rfl, rfl⟩ := type?_eq_some h
  rfl

end Directory

end CodeGraph
