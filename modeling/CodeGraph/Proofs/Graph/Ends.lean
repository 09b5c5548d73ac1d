import CodeGraph.Proofs.Graph.Build
import CodeGraph.Proofs.Store.Import

/-!
# The ends of relationships

* `Link.between_eq_some` — a link between ends that are looked up.
* `Directory.Joins` — a link has drafts of the project at both ends; every stage of the building makes
  such links only, whatever the report says.
* `Graph.ofReport_checkEnds` — so the graph of a project passes the check before an import.
-/

namespace CodeGraph

open Hash (Uuid)

/-- A link between ends that are looked up. -/
theorem Link.between_eq_some {source target : Option Draft} {q : RelationshipProperties} {l : Link} :
    (do pure ⟨← source, ← target, q⟩ : Option Link) = some l ↔
      source = some l.source ∧ target = some l.target ∧ l.properties = q := by
  constructor
  · intro h
    obtain ⟨x, hsource, h⟩ := Option.bind_eq_some_iff.mp h
    obtain ⟨y, htarget, h⟩ := Option.bind_eq_some_iff.mp h
    obtain rfl := Option.some.inj h
    exact ⟨hsource, htarget, rfl⟩
  · rintro ⟨rfl, rfl, rfl⟩
    rfl

namespace Directory

variable {d : Directory} {s : FileSlot} {l : Link}

/-- A link has drafts of the project at both ends. -/
def Joins (d : Directory) (l : Link) : Prop := d.Holds l.source ∧ d.Holds l.target

theorem joins_of_mem_packageLinks (h : l ∈ d.packageLinks) : d.Joins l := by
  simp only [packageLinks, List.mem_flatMap, List.mem_cons, List.mem_map, Prod.exists] at h
  obtain ⟨k, i, hk, rfl | ⟨file, j, hfile, rfl⟩⟩ := h
  · exact ⟨.root, .package hk⟩
  · have hs : (⟨i, j, k, file⟩ : FileSlot) ∈ d.slots := Project.mem_slots.mpr ⟨hk, hfile⟩
    exact ⟨.package hk, .file hs⟩

theorem joins_of_mem_typeLinks (hs : s ∈ d.slots) (h : l ∈ d.typeLinks s) : d.Joins l := by
  simp only [typeLinks, List.mem_flatMap, List.mem_cons, List.not_mem_nil, or_false,
    Prod.exists] at h
  obtain ⟨t, i, ht, rfl | ⟨field, x, hx, rfl | rfl⟩⟩ := h
  · exact ⟨holds_fileOf hs, .declared hs (typeDraft_mem_declared ht)⟩
  · exact ⟨holds_fileOf hs, .declared hs (fieldDraft_mem_declared ht hx)⟩
  · exact ⟨.declared hs (typeDraft_mem_declared ht), .declared hs (fieldDraft_mem_declared ht hx)⟩

theorem joins_of_mem_valueLinks (hs : s ∈ d.slots) (h : l ∈ d.valueLinks s) : d.Joins l := by
  obtain ⟨x, hx, rfl⟩ := List.mem_map.mp h
  have hdeclared : x ∈ d.declared s :=
    List.mem_append_left _ (List.mem_append_right _ hx)
  exact ⟨holds_fileOf hs, .declared hs hdeclared⟩

theorem joins_of_mem_functionLinks (hs : s ∈ d.slots) (h : l ∈ d.functionLinks s) : d.Joins l := by
  simp only [functionLinks, List.mem_flatMap, List.mem_cons, List.mem_map, Option.mem_toList,
    Prod.exists] at h
  obtain ⟨f, i, hf, rfl | ⟨type, htype, rfl⟩⟩ := h
  · exact ⟨holds_fileOf hs, .declared hs (functionDraft_mem_declared hf)⟩
  · split at htype
    · exact ⟨holds_of_type? htype, .declared hs (functionDraft_mem_declared hf)⟩
    · cases htype

/-- Every import path that belongs to no package has got its draft. -/
theorem joins_of_mem_importLinks {known : List String} {imports : List (FileSlot × ImportDecl)}
    (himports : ∀ u ∈ imports, u.1 ∈ d.slots ∧ u.2 ∈ u.1.file.imports)
    (h : l ∈ d.importLinks known imports) : d.Joins l := by
  induction imports generalizing known with
  | nil =>
    rw [importLinks] at h
    exact absurd h List.not_mem_nil
  | cons u rest ih =>
    obtain ⟨⟨hs, hi⟩, hrest⟩ := List.forall_mem_cons.mp himports
    rw [importLinks] at h
    split at h
    next package hpackage =>
      rcases List.mem_cons.mp h with rfl | h
      · exact ⟨holds_fileOf hs, holds_of_package? hpackage⟩
      · exact ih hrest h
    next hnone =>
      have hdraft : d.Holds (importDraft u.2.path) :=
        .importPath (mem_importPaths.mpr ⟨⟨u.1, hs, u.2, hi, rfl⟩, hnone⟩)
      dsimp only at h
      split at h
      · rcases List.mem_cons.mp h with rfl | h
        · exact ⟨holds_fileOf hs, hdraft⟩
        · exact ih hrest h
      · rcases List.mem_cons.mp h with rfl | h
        · exact ⟨.root, hdraft⟩
        · rcases List.mem_cons.mp h with rfl | h
          · exact ⟨holds_fileOf hs, hdraft⟩
          · exact ih hrest h

theorem joins_of_mem_dependencyLinks (h : l ∈ d.dependencyLinks) : d.Joins l := by
  obtain ⟨e, -, he⟩ := List.mem_filterMap.mp h
  obtain ⟨hsource, htarget, -⟩ := Link.between_eq_some.mp he
  exact ⟨holds_of_package? hsource, holds_of_package? htarget⟩

theorem joins_of_mem_implementationLinks (h : l ∈ d.implementationLinks) : d.Joins l := by
  obtain ⟨i, -, hi⟩ := List.mem_filterMap.mp h
  obtain ⟨hstruct, hinterface, -⟩ := Link.between_eq_some.mp hi
  exact ⟨holds_of_type? hstruct, holds_of_type? hinterface⟩

/-- A call is only linked where its caller and its target have drafts. -/
theorem joins_of_mem_callLinks {ids : Identities} {known : List (Uuid × Uuid)}
    {calls : List CallEdge} (h : l ∈ d.callLinks ids known calls) : d.Joins l := by
  induction calls generalizing known with
  | nil =>
    rw [callLinks] at h
    exact absurd h List.not_mem_nil
  | cons e rest ih =>
    rw [callLinks] at h
    dsimp only at h
    split at h
    next caller f hcaller htarget =>
      rcases List.mem_append.mp h with h | h
      · obtain ⟨callee, hcallee, rfl⟩ := List.mem_map.mp h
        exact ⟨holds_of_function? hcaller, holds_of_function? (Option.mem_toList.mp hcallee)⟩
      · exact ih h
    next caller package name hcaller htarget =>
      split at h
      next target himport =>
        split at h
        · exact ih h
        · rcases List.mem_cons.mp h with rfl | h
          · exact ⟨holds_of_function? hcaller, holds_of_import? himport⟩
          · exact ih h
      next => exact ih h
    next => exact ih h

/-- The imports of all files, each with its file. -/
def fileImports (d : Directory) : List (FileSlot × ImportDecl) :=
  d.slots.flatMap fun s => s.file.imports.map fun i => (s, i)

theorem mem_fileImports {u : FileSlot × ImportDecl} :
    u ∈ d.fileImports ↔ u.1 ∈ d.slots ∧ u.2 ∈ u.1.file.imports :=
  mem_inSlots

/-- Every link has drafts of the project at both ends. -/
theorem joins_of_mem_links {ids : Identities} (h : l ∈ d.links ids) : d.Joins l := by
  simp only [links, List.mem_append, List.mem_flatMap] at h
  rcases h with (((((h | ⟨s, hs, h⟩) | ⟨s, hs, h⟩) | h) | h) | h) | h
  · exact joins_of_mem_packageLinks h
  · rcases h with h | h
    · exact joins_of_mem_typeLinks hs h
    · exact joins_of_mem_valueLinks hs h
  · exact joins_of_mem_functionLinks hs h
  · exact joins_of_mem_importLinks (fun u hu => mem_fileImports.mp hu) h
  · exact joins_of_mem_dependencyLinks h
  · exact joins_of_mem_implementationLinks h
  · exact joins_of_mem_callLinks h

end Directory

/-! ### Graphs -/

namespace Graph

variable (ids : Identities) (now : Instant) (projectId : String) (p : Project) (r : Report)

theorem id_mem_ofReport {x : Draft} (hx : Directory.Holds ⟨projectId, p, r⟩ x) :
    ids.node x ∈ (ofReport ids now projectId p r).nodes.map (·.id) := by
  rw [map_id_nodes]
  exact List.mem_map_of_mem (Directory.mem_drafts.mpr hx)

theorem ofReport_nodes_within :
    ∀ n ∈ (ofReport ids now projectId p r).nodes, n.projectId = projectId := by
  intro n hn
  obtain ⟨x, -, rfl⟩ := mem_nodes_ofReport.mp hn
  rfl

theorem ofReport_ends :
    ∀ e ∈ (ofReport ids now projectId p r).relationships, e.projectId = projectId ∧
      e.source ∈ (ofReport ids now projectId p r).nodes.map (·.id) ∧
      e.target ∈ (ofReport ids now projectId p r).nodes.map (·.id) := by
  intro e he
  rw [relationships_ofReport] at he
  obtain ⟨⟨l, i⟩, hl, rfl⟩ := List.mem_map.mp he
  obtain ⟨hsource, htarget⟩ := Directory.joins_of_mem_links (List.fst_mem_of_mem_zipIdx hl)
  exact ⟨rfl, id_mem_ofReport ids now projectId p r hsource,
    id_mem_ofReport ids now projectId p r htarget⟩

/-- **Every graph that is built passes the check before an import.**  Whatever the project and the
report, and whichever way identifiers are given: the passes come to their end, as the file of every
declaration is found; every part of the graph belongs to the project, and every relationship joins two
nodes of the graph. -/
theorem ofReport_checkEnds (seed : List UInt8) (policy : IdentityPolicy) :
    let d : Directory := ⟨projectId, p, r⟩
    let ids := Identities.ofPolicy seed projectId policy
    let g := ofReport ids now projectId p r
    ((Builder.ofProject ids now projectId p).build p r).isSome ∧
      (∀ s ∈ d.slots, ∃ t ∈ d.slots,
        d.slots.reverse.find? (·.file.path = s.file.path) = some t ∧ d.fileOf s = t.draft) ∧
      g.checkEnds = .ok () ∧
      (∀ n ∈ g.nodes, n.projectId = projectId) ∧
      ∀ e ∈ g.relationships, e.projectId = projectId ∧
        (∃ n ∈ g.nodes, n.id = e.source) ∧ ∃ n ∈ g.nodes, n.id = e.target := by
  intro d ids g
  have hnodes := ofReport_nodes_within ids now projectId p r
  have hends := ofReport_ends ids now projectId p r
  have hcheck : g.checkEnds = .ok () := by
    rw [checkEnds_eq_ok, projectId_ofReport]
    exact ⟨hnodes, hends⟩
  obtain ⟨m, known, -, hbuild⟩ := d.exists_build ids now
  refine ⟨Option.isSome_of_eq_some hbuild, fun s hs => ?_, hcheck, hnodes, fun e he => ?_⟩
  · obtain ⟨t, ht, hfind, -, hdraft⟩ := Directory.exists_fileOf hs
    exact ⟨t, ht, hfind, hdraft⟩
  · obtain ⟨hproject, hsource, htarget⟩ := hends e he
    exact ⟨hproject, List.mem_map.mp hsource, List.mem_map.mp htarget⟩

end Graph

end CodeGraph
