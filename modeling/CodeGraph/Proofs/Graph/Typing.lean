import CodeGraph.Proofs.Graph.Types

/-!
# Typed graphs

* `RelationshipType.sources`, `RelationshipType.targets` — the labels of the nodes that relationships of
  a label join; `Graph.WellTyped` says that they do.
* `Directory.WellFormed` — methods and fields belong to structs, and the report is about the project.
* `Directory.fits_of_mem_labelled` — the links of each label join what they should.
* `Graph.CarriesImplementation`, `Graph.JoinsOwner` — a relationship stands for an implementation, and
  joins a field or method to its struct.
* `Graph.well_typed_and_complete` — the main result.
-/

namespace CodeGraph

open Hash (Uuid)

namespace RelationshipType

/-- The labels of the nodes that relationships lead from. -/
def sources : RelationshipType → List NodeType
  | contains => [.project, .package, .file]
  | imports => [.file]
  | calls => [.function, .method]
  | implements => [.struct]
  | hasMethod => [.struct]
  | hasField => [.struct]
  | dependsOn => [.package]

/-- The labels of the nodes that relationships lead to. -/
def targets : RelationshipType → List NodeType
  | contains => NodeType.all.filter (· ≠ .project)
  | imports => [.package, .importPath]
  | calls => [.function, .method, .importPath]
  | implements => [.interface]
  | hasMethod => [.method]
  | hasField => [.field]
  | dependsOn => [.package]

end RelationshipType

/-- A link joins what links of a label should. -/
structure Link.Fits (label : RelationshipType) (l : Link) : Prop where
  source : l.source.label ∈ label.sources
  target : l.target.label ∈ label.targets

theorem Link.fits_of_labels {label : RelationshipType} {l : Link} (a b : NodeType)
    (hsource : l.source.label = a) (htarget : l.target.label = b)
    (h : a ∈ label.sources ∧ b ∈ label.targets) : l.Fits label :=
  ⟨hsource ▸ h.1, htarget ▸ h.2⟩

namespace Directory

/-- Import paths tell packages apart, only structs have fields and no interface has methods, and the
implementations are those of the project. -/
structure WellFormed (d : Directory) : Prop where
  importPaths : (d.project.packages.map (·.importPath)).Nodup
  fields : ∀ s ∈ d.slots, s.file.FieldsOfStructs
  receivers : ∀ k ∈ d.project.packages, ∀ f ∈ k.functions, f.isMethod = true →
    k.interface? f.receiver = none
  implementations : d.report.implementations = (SymbolTable.ofProject d.project).implementations

/-- A link stands for an implementation. -/
structure LinksImplementation (d : Directory) (i : Implementation) (l : Link) : Prop where
  struct : d.type? i.struct = some l.source
  struct_label : l.source.label = .struct
  interface : d.type? i.interface = some l.target
  interface_label : l.target.label = .interface
  properties : l.properties = .implements i.pointer

variable {d : Directory} {ids : Identities} {l : Link} {x : Draft} {id : TypeId}

/-! ### Ends of links -/

theorem fits_contains (h : l ∈ labelled .contains (d.links ids)) : l.Fits .contains := by
  have hdeclared {s : FileSlot} {x : Draft} (hs : s ∈ d.slots) (hx : x ∈ d.declared s) :
      (Link.contains (d.fileOf s) x).Fits .contains := by
    have hmem : x ∈ d.slots.flatMap d.declared := List.mem_flatMap.mpr ⟨s, hs, hx⟩
    have hlabel := (List.mem_filter.mp (d.drafts_filter_isDeclared.mem_iff.mpr hmem)).2
    refine Link.fits_of_labels .file x.label rfl rfl ⟨by decide, ?_⟩
    cases hcase : x.label <;> rw [hcase] at hlabel <;> first | decide | cases hlabel
  rw [contains_links] at h
  simp only [List.mem_append, List.mem_flatMap, List.mem_map] at h
  rcases h with ((h | ⟨s, hs, x, hx, rfl⟩) | ⟨s, hs, x, hx, rfl⟩) | ⟨path, -, rfl⟩
  · simp only [packageLinks, List.mem_flatMap, List.mem_cons, List.mem_map, Prod.exists] at h
    obtain ⟨k, i, -, rfl | ⟨file, j, -, rfl⟩⟩ := h
    · exact Link.fits_of_labels .project .package rfl rfl (by decide)
    · exact Link.fits_of_labels .package .file rfl rfl (by decide)
  · exact hdeclared hs (List.mem_append_left _ (List.mem_append.mpr hx))
  · exact hdeclared hs (List.mem_append_right _ hx)
  · exact Link.fits_of_labels .project .importPath rfl rfl (by decide)

theorem label_of_package? {path : String} (h : d.package? path = some x) : x.label = .package := by
  obtain ⟨k, i, -, -, rfl⟩ := package?_eq_some h
  rfl

theorem fits_imports (h : l ∈ labelled .imports (d.links ids)) : l.Fits .imports := by
  rw [imports_links] at h
  obtain ⟨u, -, rfl⟩ := List.mem_map.mp h
  cases hpackage : d.package? u.2.path with
  | some x =>
    refine Link.fits_of_labels .file .package rfl ?_ (by decide)
    rw [importLink, hpackage]
    exact label_of_package? hpackage
  | none =>
    refine Link.fits_of_labels .file .importPath rfl ?_ (by decide)
    rw [importLink, hpackage]
    rfl

theorem fits_dependsOn (h : l ∈ labelled .dependsOn (d.links ids)) : l.Fits .dependsOn := by
  rw [dependsOn_links] at h
  obtain ⟨e, -, he⟩ := List.mem_filterMap.mp h
  obtain ⟨hsource, htarget, -⟩ := Link.between_eq_some.mp he
  exact Link.fits_of_labels .package .package (label_of_package? hsource) (label_of_package? htarget)
    (by decide)

theorem fits_calls (h : l ∈ labelled .calls (d.links ids)) : l.Fits .calls := by
  rw [calls_links] at h
  obtain ⟨e, -, hfrom⟩ := mem_callLinks h
  have hcallable {x : Draft} {f : FunctionId} (hx : d.function? f = some x) :
      x.label ∈ RelationshipType.calls.sources ∧ x.label ∈ RelationshipType.calls.targets := by
    have hlabel := isCallable_function? hx
    cases hcase : x.label <;> rw [hcase] at hlabel <;> first | decide | cases hlabel
  rcases hfrom.target with ⟨f, -, hf⟩ | ⟨⟨path, name, -, hpath⟩, -⟩
  · exact ⟨(hcallable hfrom.source).1, (hcallable hf).2⟩
  · refine ⟨(hcallable hfrom.source).1, ?_⟩
    rw [(import?_eq_some hpath).2]
    show NodeType.importPath ∈ RelationshipType.calls.targets
    decide

/-! ### Structs -/

section

variable (h : d.WellFormed)

include h

/-- A type that the symbol table tells of has a node, with the label of its form. -/
theorem exists_type?_of_mem_typesOfForm {form : TypeForm}
    (hid : id ∈ (SymbolTable.ofProject d.project).typesOfForm form) :
    ∃ x, d.type? id = some x ∧ x.label = form.label :=
  (exists_type?_iff h.importPaths form).mpr (SymbolTable.mem_typesOfForm_iff.mp hid)

/-- The ends of an implementation have nodes. -/
theorem exists_implementation {i : Implementation} (hi : i ∈ d.report.implementations) :
    (∃ x, d.type? i.struct = some x ∧ x.label = .struct) ∧
      ∃ x, d.type? i.interface = some x ∧ x.label = .interface := by
  rw [h.implementations] at hi
  obtain ⟨hinterface, hstruct, -⟩ := SymbolTable.mem_implementations.mp hi
  exact ⟨exists_type?_of_mem_typesOfForm h hstruct, exists_type?_of_mem_typesOfForm h hinterface⟩

/-- Implementations are linked one for one. -/
theorem forall₂_implementationLinks :
    List.Forall₂ d.LinksImplementation d.report.implementations d.implementationLinks := by
  have hends := fun i hi => exists_implementation (i := i) h hi
  rw [implementationLinks]
  refine ((List.forall₂_and_left _ _).mpr ⟨hends, forall₂_filterMap fun i hi => ?_⟩).imp
    fun i l hil => ?_
  · obtain ⟨⟨x, hx, -⟩, y, hy, -⟩ := hends i hi
    rw [hx, hy]
    rfl
  · obtain ⟨⟨⟨x, hx, hstruct⟩, y, hy, hinterface⟩, hl⟩ := hil
    obtain ⟨hsource, htarget, hproperties⟩ := Link.between_eq_some.mp hl
    obtain rfl : x = l.source := Option.some.inj (hx.symm.trans hsource)
    obtain rfl : y = l.target := Option.some.inj (hy.symm.trans htarget)
    exact ⟨hsource, hstruct, htarget, hinterface, hproperties⟩

theorem fits_implements (hl : l ∈ labelled .implements (d.links ids)) : l.Fits .implements := by
  rw [implements_links] at hl
  obtain ⟨i, -, hi⟩ := exists_of_forall₂ (forall₂_implementationLinks h) hl
  exact Link.fits_of_labels .struct .interface hi.struct_label hi.interface_label (by decide)

theorem fits_hasField (hl : l ∈ labelled .hasField (d.links ids)) : l.Fits .hasField := by
  obtain ⟨s, hs, t, ht, i, hfields, hsource, htarget, -⟩ := exists_typeDraft_of_hasField hl
  refine Link.fits_of_labels .struct .field ?_ htarget (by decide)
  rw [hsource, label_typeDraft, h.fields s hs t ht hfields]
  rfl

/-- The type of a receiver is a struct. -/
theorem label_of_receiver {s : FileSlot} {f : FunctionDecl} (hs : s ∈ d.slots)
    (hf : f ∈ s.file.functions) (hmethod : f.isMethod = true)
    (hx : d.type? ⟨s.package.importPath, f.receiver⟩ = some x) : x.label = .struct := by
  obtain ⟨k, t, file, hk, htype, hlabel⟩ := held_of_type? h.importPaths hx
  obtain rfl : s.package = k := Option.some.inj ((held_package h.importPaths hs).symm.trans hk)
  obtain ⟨hpackage, hfile⟩ := Project.mem_of_mem_slots hs
  have hmem : f ∈ s.package.functions := List.mem_flatMap.mpr ⟨s.file, hfile, hf⟩
  have hnone := h.receivers s.package hpackage f hmem hmethod
  rw [hlabel]
  -- an interface of this name would be the receiver
  cases hform : t.form with
  | struct => rfl
  | interface =>
    rw [Package.interface?, Package.typeOfForm?, htype] at hnone
    simp [hform] at hnone

theorem fits_hasMethod (hl : l ∈ labelled .hasMethod (d.links ids)) : l.Fits .hasMethod := by
  obtain ⟨s, hs, f, hf, i, hmethod, htarget, hsource⟩ := exists_functionDraft_of_hasMethod hl
  refine Link.fits_of_labels .struct .method (label_of_receiver h hs hf hmethod hsource) ?_ (by decide)
  rw [htarget, label_functionDraft, if_pos hmethod]

/-- The links of each label join what they should. -/
theorem fits_of_mem_labelled {label : RelationshipType} (hl : l ∈ labelled label (d.links ids)) :
    l.Fits label := by
  cases label with
  | contains => exact fits_contains hl
  | imports => exact fits_imports hl
  | calls => exact fits_calls hl
  | implements => exact fits_implements h hl
  | hasMethod => exact fits_hasMethod h hl
  | hasField => exact fits_hasField h hl
  | dependsOn => exact fits_dependsOn hl

/-- The types of receivers are the structs of the symbol table. -/
theorem drafts_filter_ownedByStruct : (d.drafts.filter fun x =>
      x.label = .method && (x.properties.owner?.bind d.type?).isSome) =
    d.drafts.filter fun x => x.label = .method &&
      (x.properties.owner?.bind (SymbolTable.ofProject d.project).struct?).isSome := by
  refine List.filter_congr fun x hx => ?_
  by_cases hlabel : x.label = .method
  · obtain ⟨s, hs, f, i, hf, rfl⟩ := exists_functionDraft (mem_drafts.mp hx) (by rw [hlabel]; rfl)
    have hmethod : f.isMethod = true := by
      by_contra hnone
      rw [label_functionDraft, if_neg hnone] at hlabel
      cases hlabel
    rw [owner?_functionDraft, if_pos hmethod, Option.bind_some, Option.bind_some]
    refine congrArg _ (Bool.eq_iff_iff.mpr ?_)
    rw [Option.isSome_iff_exists]
    refine Iff.trans ?_ (exists_type?_iff h.importPaths .struct)
    constructor
    · rintro ⟨y, hy⟩
      exact ⟨y, hy, label_of_receiver h hs (List.fst_mem_of_mem_zipIdx hf) hmethod hy⟩
    · rintro ⟨y, hy, -⟩
      exact ⟨y, hy⟩
  · simp [hlabel]

end

end Directory

/-! ### Graphs -/

namespace Graph

/-- Relationships join nodes that they should join by their labels. -/
def WellTyped (g : Graph) : Prop :=
  ∀ x ∈ g.relationships, ∃ a ∈ g.nodes, ∃ b ∈ g.nodes, a.id = x.source ∧ b.id = x.target ∧
    a.label ∈ x.label.sources ∧ b.label ∈ x.label.targets

/-- An identifier belongs to the node of a type. -/
def TypeAt (g : Graph) (label : NodeType) (id : TypeId) (u : Uuid) : Prop :=
  ∃ n ∈ g.nodes, n.id = u ∧ n.label = label ∧ n.typeId? = some id

/-- A relationship stands for an implementation. -/
structure CarriesImplementation (g : Graph) (i : Implementation) (x : GraphRelationship) : Prop where
  struct : g.TypeAt .struct i.struct x.source
  interface : g.TypeAt .interface i.interface x.target
  properties : x.properties = .implements i.pointer

/-- A relationship leads to a node from the struct that it belongs to. -/
structure JoinsOwner (g : Graph) (n : GraphNode) (x : GraphRelationship) : Prop where
  owner : ∃ id, n.properties.owner? = some id ∧ g.TypeAt .struct id x.source
  target : x.target = n.id

variable {ids : Identities} {now : Instant} {projectId : String} {p : Project} {r : Report}

theorem typeAt_of_type? {id : TypeId} {x : Draft} {label : NodeType}
    (h : Directory.type? ⟨projectId, p, r⟩ id = some x) (hlabel : x.label = label) :
    (ofReport ids now projectId p r).TypeAt label id (ids.node x) := by
  exact ⟨_, node_mem_ofReport (Directory.holds_of_type? h), rfl, hlabel,
    Directory.typeId?_of_type? h projectId now⟩

/-- Where identifiers tell the labels of nodes, a relationship ends at no others. -/
theorem WellTyped.labels (h : (ofReport ids now projectId p r).WellTyped)
    (hids : Directory.TellsHeadings ⟨projectId, p, r⟩ ids) {x : GraphRelationship} {n : GraphNode}
    (hx : x ∈ (ofReport ids now projectId p r).relationships)
    (hn : n ∈ (ofReport ids now projectId p r).nodes) :
    (n.id = x.source → n.label ∈ x.label.sources) ∧
      (n.id = x.target → n.label ∈ x.label.targets) := by
  obtain ⟨a, ha, b, hb, hsource, htarget, hfrom, hto⟩ := h x hx
  constructor
  · intro hid
    rw [label_eq_of_id hids hn ha (hid.trans hsource.symm)]
    exact hfrom
  · intro hid
    rw [label_eq_of_id hids hn hb (hid.trans htarget.symm)]
    exact hto

/-- Relationships lead to nodes from their structs one for one, where the links do. -/
theorem forall₂_joinsOwner {label : RelationshipType} (select : Draft → Bool)
    {choose : GraphNode → Bool}
    (hchoose : ∀ x : Draft, choose (x.node ids projectId now) = select x)
    (htargets : (labelled label (Directory.links ⟨projectId, p, r⟩ ids)).map (·.target) =
      (Directory.drafts ⟨projectId, p, r⟩).filter select)
    (howner : ∀ l ∈ labelled label (Directory.links ⟨projectId, p, r⟩ ids),
      ∃ id, l.target.properties.owner? = some id ∧
        (ofReport ids now projectId p r).TypeAt .struct id (ids.node l.source)) :
    List.Forall₂ (ofReport ids now projectId p r).JoinsOwner
      ((ofReport ids now projectId p r).nodes.filter choose)
      ((ofReport ids now projectId p r).relationships.filter (·.label = label)) := by
  rw [filter_nodes_ofReport select hchoose, ← htargets, List.map_map, List.forall₂_map_left_iff]
  have hmade := (List.forall₂_and_left _ _).mpr
    ⟨howner, forall₂_made_labelled ids now projectId p r label⟩
  refine hmade.imp fun l x hlx => ?_
  obtain ⟨⟨id, hid, hstruct⟩, hx⟩ := hlx
  exact ⟨⟨id, hid, hx.source ▸ hstruct⟩, hx.target⟩

section

variable (h : Directory.WellFormed ⟨projectId, p, r⟩)

include h

theorem wellTyped_ofReport : (ofReport ids now projectId p r).WellTyped := by
  intro x hx
  obtain ⟨l, hl, hmade⟩ := exists_link ids now projectId p r hx
  obtain ⟨hsource, htarget⟩ := Directory.joins_of_mem_links hl
  have hfits := Directory.fits_of_mem_labelled h (List.mem_filter.mpr ⟨hl, decide_eq_true rfl⟩)
  refine ⟨_, node_mem_ofReport hsource, _, node_mem_ofReport htarget, hmade.source.symm,
    hmade.target.symm, ?_, ?_⟩
  · rw [hmade.label]
    exact hfits.source
  · rw [hmade.label]
    exact hfits.target

/-- The relationships of implementations stand for them one for one. -/
theorem forall₂_carriesImplementation :
    List.Forall₂ (ofReport ids now projectId p r).CarriesImplementation r.implementations
      ((ofReport ids now projectId p r).relationships.filter (·.label = .implements)) := by
  have hmade := forall₂_made_labelled ids now projectId p r .implements
  rw [Directory.implements_links] at hmade
  refine forall₂_trans (fun i l x hl hx => ?_) (Directory.forall₂_implementationLinks h) hmade
  refine ⟨?_, ?_, hx.properties.trans hl.properties⟩
  · rw [hx.source]
    exact typeAt_of_type? hl.struct hl.struct_label
  · rw [hx.target]
    exact typeAt_of_type? hl.interface hl.interface_label

/-- Every field is joined to its struct. -/
theorem forall₂_hasField : List.Forall₂ (ofReport ids now projectId p r).JoinsOwner
    ((ofReport ids now projectId p r).nodes.filter (·.label = .field))
    ((ofReport ids now projectId p r).relationships.filter (·.label = .hasField)) := by
  refine forall₂_joinsOwner (fun x => x.label = .field) (fun _ => rfl)
    (Directory.targets_hasField _ ids) fun l hl => ?_
  obtain ⟨s, hs, t, ht, i, -, hsource, -, howner⟩ := Directory.exists_typeDraft_of_hasField hl
  have hholds := (Directory.joins_of_mem_links (List.mem_filter.mp hl).1).1
  refine ⟨_, howner, _, node_mem_ofReport hholds, rfl, ?_, ?_⟩
  · exact List.mem_singleton.mp (Directory.fits_hasField h hl).source
  · rw [hsource]
    rfl

/-- Every method of a struct is joined to it. -/
theorem forall₂_hasMethod : List.Forall₂ (ofReport ids now projectId p r).JoinsOwner
    ((ofReport ids now projectId p r).nodes.filter fun n => n.label = .method &&
      (n.properties.owner?.bind (SymbolTable.ofProject p).struct?).isSome)
    ((ofReport ids now projectId p r).relationships.filter (·.label = .hasMethod)) := by
  refine forall₂_joinsOwner (fun x => x.label = .method &&
    (x.properties.owner?.bind (SymbolTable.ofProject p).struct?).isSome) (fun _ => rfl) ?_ fun l hl => ?_
  · rw [Directory.targets_hasMethod]
    exact Directory.drafts_filter_ownedByStruct h
  · obtain ⟨s, hs, f, hf, i, hmethod, htarget, hsource⟩ :=
      Directory.exists_functionDraft_of_hasMethod hl
    refine ⟨⟨s.package.importPath, f.receiver⟩, ?_, ?_⟩
    · rw [htarget, Directory.owner?_functionDraft, if_pos hmethod]
    · exact typeAt_of_type? hsource (Directory.label_of_receiver h hs hf hmethod hsource)

end

/-- **The graph of a project is well typed and complete.**  Let a project be read whose import paths are
distinct and of which no method has an interface as its receiver.  All relationships join nodes that they
should join by their labels, and no others where identifiers tell the labels of nodes.  There is one
relationship for every implementation that the report has, from the struct to the interface, and the
summary counts them; no struct is reported twice for an interface.  There is one from its struct to every
field, and one from its struct to every method whose receiver is a struct of the package, and to no
other method. -/
theorem well_typed_and_complete {reading : ReadingSettings} {tree : FileTree} {path : String}
    {signal signal' : Signal} {settings : AnalysisSettings}
    (hread : (Project.read Languages.standard reading tree path).outcome signal = .ok p)
    (hreport : (Report.ofProject settings p).outcome signal' = .ok r)
    (hpaths : (p.packages.map (·.importPath)).Nodup)
    (hreceivers : ∀ k ∈ p.packages, ∀ f ∈ k.functions, f.isMethod = true →
      k.interface? f.receiver = none)
    (ids : Identities) (now : Instant) (projectId : String) :
    let g := ofReport ids now projectId p r
    let related (label : RelationshipType) := g.relationships.filter (·.label = label)
    g.WellTyped ∧
      (Directory.TellsHeadings ⟨projectId, p, r⟩ ids → ∀ x ∈ g.relationships, ∀ n ∈ g.nodes,
        (n.id = x.source → n.label ∈ x.label.sources) ∧
          (n.id = x.target → n.label ∈ x.label.targets)) ∧
      (List.Forall₂ g.CarriesImplementation r.implementations (related .implements) ∧
        (r.implementations.map fun i => (i.interface, i.struct)).Nodup ∧
        g.summary.implementations = r.implementations.length) ∧
      List.Forall₂ g.JoinsOwner (g.nodes.filter (·.label = .field)) (related .hasField) ∧
      List.Forall₂ g.JoinsOwner (g.nodes.filter fun n => n.label = .method &&
        (n.properties.owner?.bind (SymbolTable.ofProject p).struct?).isSome) (related .hasMethod) := by
  intro g related
  obtain rfl := Report.ofProject_eq_ok hreport
  have h : Directory.WellFormed ⟨projectId, p, Report.found settings p⟩ :=
    { importPaths := hpaths
      fields := fun s hs => by
        obtain ⟨hk, hfile⟩ := Project.mem_of_mem_slots hs
        exact Project.fieldsOfStructs hread hk hfile
      receivers := hreceivers
      implementations := rfl }
  have htyped : g.WellTyped := wellTyped_ofReport h
  refine ⟨htyped, fun hids x hx n hn => htyped.labels hids hx hn,
    ⟨forall₂_carriesImplementation h, SymbolTable.nodup_pairs_implementations p.packages, ?_⟩,
    forall₂_hasField h, forall₂_hasMethod h⟩
  -- the summary counts links
  have hmade := forall₂_made_labelled ids now projectId p (Report.found settings p) .implements
  have hlength : _ = (related .implements).length := (forall₂_carriesImplementation h).length_eq
  rw [hlength, ← hmade.length_eq, labelled, ← List.countP_eq_length_filter]
  exact congrArg Summary.implementations summary_ofReport

/-! ### A number with a method -/

def numberText : String :=
  "package a\n\ntype T struct \x7b\n\tn int\n\x7d\n\ntype N int\n\n" ++
    "type I interface \x7b\n\tM()\n\x7d\n\nfunc (t T) M() \x7b\n\x7d\n\nfunc (n N) M() \x7b\n\x7d\n"

/-- A struct has a method, and so has a number. -/
def numberTree : FileTree :=
  .folder [("p", .folder [("go.mod", .file (Text.Utf8.encode "module m\n")),
    ("a.go", .file (Text.Utf8.encode numberText))])]

/-- A method without a body. -/
def emptyMethod (receiver signature : String) (line : Nat) : FunctionDecl :=
  ⟨"M", signature, receiver, false, [], [], .exported, ⟨line, line + 1⟩, 1, []⟩

def numberFile : SourceFile :=
  { path := "a.go", package := "a", imports := []
    functions := [emptyMethod "T" "func (t T) M()" 13, emptyMethod "N" "func (n N) M()" 16]
    types := [⟨"T", .struct, .exported, ⟨3, 5⟩, [⟨"n", "int", .unexported, false, 4⟩], [], []⟩,
      ⟨"I", .interface, .exported, ⟨9, 11⟩, [], [⟨"M", [], []⟩], []⟩]
    values := []
    contentHash := "80bdbab3b752c86397b5041ec7405af824d4ea52a322447397af5ceba2c76cd1"
    lineCount := 17 }

def numberPackage : Package := ⟨"m", "a", "", [numberFile]⟩

theorem exists_read_numberTree : ∃ p,
    (Project.read Languages.standard {} numberTree "/p").outcome .never = .ok p ∧
      p.packages = [numberPackage] := by
  have hfile : readSource Languages.standard (["a.go"], .ok (Text.Utf8.encode numberText)) =
      .ok numberFile := by
    decide +kernel
  obtain ⟨p, hread, hpackages⟩ := Project.exists_read_source Languages.standard {} numberTree
    (["a.go"], .ok (Text.Utf8.encode numberText)) rfl (by decide) rfl (by decide +kernel) hfile (by decide)
  refine ⟨p, hread, hpackages.trans ?_⟩
  decide +kernel

/-- Of two methods, only that of the struct belongs to a type that is recorded. -/
theorem well_typed_and_complete_number : ∃ p,
    (Project.read Languages.standard {} numberTree "/p").outcome .never = .ok p ∧
      (Report.ofProject {} p).outcome .never = .ok (Report.found {} p) ∧
      ∀ (ids : Identities) (now : Instant) (projectId : String),
        let g := ofReport ids now projectId p (Report.found {} p)
        g.WellTyped ∧ g.relationshipCount .hasField = 1 ∧ g.nodeCount .method = 2 ∧
          g.relationshipCount .hasMethod = 1 := by
  obtain ⟨p, hread, hpackages⟩ := exists_read_numberTree
  have hreport : (Report.ofProject {} p).outcome .never = .ok (Report.found {} p) :=
    Report.ofProject_never p (by decide)
  have hpaths : (p.packages.map (·.importPath)).Nodup := by
    rw [hpackages]
    exact List.nodup_singleton _
  have hreceivers : ∀ k ∈ p.packages, ∀ f ∈ k.functions, f.isMethod = true →
      k.interface? f.receiver = none := by
    rw [hpackages]
    decide +kernel
  refine ⟨p, hread, hreport, fun ids now projectId => ?_⟩
  intro g
  obtain ⟨htyped, -, -, hfields, hmethods⟩ :=
    well_typed_and_complete hread hreport hpaths hreceivers ids now projectId
  obtain ⟨root, module, packages, issues⟩ := p
  obtain rfl : packages = [numberPackage] := hpackages
  have hnodes : g.nodes = _ := nodes_ofReport
  refine ⟨htyped, ?_, ?_, ?_⟩
  · rw [relationshipCount, List.countP_eq_length_filter, ← hfields.length_eq, hnodes]
    rfl
  · rw [nodeCount, hnodes]
    rfl
  · rw [relationshipCount, List.countP_eq_length_filter, ← hmethods.length_eq,
      SymbolTable.ofProject, SymbolTable.ofPackages_singleton, hnodes]
    rfl

end Graph

end CodeGraph
