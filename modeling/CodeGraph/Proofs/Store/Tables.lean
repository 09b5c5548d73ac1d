import CodeGraph.Store.Tables
import Mathlib.Data.List.Nodup

/-!
# Rows of one project among those of others

* `Tables.insertAll` — rows inserted one after the other; `insertNodes_eq_ok`,
  `insertRelationships_eq_ok` say exactly when that succeeds and what is there then.
* `Tables.Consistent` — what holds of the rows of a store between two operations: keys are distinct,
  relationships stay within their project, and the figures of a project are those of its rows.
* `Tables.cleared_eq_others` — in consistent tables a deletion of one project takes nothing of
  another along, although a node takes all its relationships with it.
-/

namespace CodeGraph.Tables

open Hash (Uuid)

variable {α : Type} {t t' : Tables} {p : String}

/-! ### Inserting rows -/

/-- Insert rows one after the other. -/
def insertAll (insert : Tables → α → Except DatabaseFault Tables) :
    List α → Tables → Except DatabaseFault Tables
  | [], t => .ok t
  | a :: rest, t => insert t a >>= insertAll insert rest

theorem bind_eq_ok {x : Except DatabaseFault Tables} {f : Tables → Except DatabaseFault Tables} :
    (x >>= f) = .ok t' ↔ ∃ t, x = .ok t ∧ f t = .ok t' := by
  cases x with
  | error e => simp [bind, Except.bind]
  | ok t => simp [bind, Except.bind]

theorem insertAll_cons (insert : Tables → α → Except DatabaseFault Tables) (a : α) (rest : List α) :
    insertAll insert (a :: rest) t = .ok t' ↔
      ∃ m, insert t a = .ok m ∧ insertAll insert rest m = .ok t' := bind_eq_ok

theorem insertAll_append (insert : Tables → α → Except DatabaseFault Tables) (as bs : List α) :
    insertAll insert (as ++ bs) t = .ok t' ↔
      ∃ m, insertAll insert as t = .ok m ∧ insertAll insert bs m = .ok t' := by
  induction as generalizing t with
  | nil => simp [insertAll]
  | cons a as ih =>
    simp only [List.cons_append, insertAll_cons, ih]
    constructor
    · rintro ⟨m, hm, n, hn, h⟩
      exact ⟨n, ⟨m, hm, hn⟩, h⟩
    · rintro ⟨n, ⟨m, hm, hn⟩, h⟩
      exact ⟨m, hm, n, hn, h⟩

theorem hasNode_iff {id : Uuid} : t.hasNode id = true ↔ ∃ n ∈ t.nodes, n.id = id := by
  simp [hasNode]

theorem hasRelationship_iff {id : Uuid} :
    t.hasRelationship id = true ↔ ∃ r ∈ t.relationships, r.id = id := by
  simp [hasRelationship]

theorem insertNode_eq_ok {n : GraphNode} :
    t.insertNode n = .ok t' ↔
      (∀ m ∈ t.nodes, m.id ≠ n.id) ∧ t' = { t with nodes := t.nodes ++ [n] } := by
  unfold insertNode
  split
  next h =>
    obtain ⟨m, hm, hid⟩ := hasNode_iff.mp h
    simp only [reduceCtorEq, false_iff, not_and]
    exact fun hnew => absurd hid (hnew m hm)
  next h =>
    rw [hasNode_iff] at h
    simp only [Except.ok.injEq, eq_comm (b := t')]
    exact ⟨fun he => ⟨fun m hm hid => h ⟨m, hm, hid⟩, he⟩, fun he => he.2⟩

theorem insertRelationship_eq_ok {r : GraphRelationship} :
    t.insertRelationship r = .ok t' ↔
      (∀ m ∈ t.relationships, m.id ≠ r.id) ∧ (∃ n ∈ t.nodes, n.id = r.source) ∧
        (∃ n ∈ t.nodes, n.id = r.target) ∧
        t' = { t with relationships := t.relationships ++ [r] } := by
  unfold insertRelationship
  split
  next h =>
    obtain ⟨m, hm, hid⟩ := hasRelationship_iff.mp h
    simp only [reduceCtorEq, false_iff, not_and]
    exact fun hnew => absurd hid (hnew m hm)
  next h =>
    rw [hasRelationship_iff] at h
    have hnew : ∀ m ∈ t.relationships, m.id ≠ r.id := fun m hm hid => h ⟨m, hm, hid⟩
    split
    next hends =>
      rw [Bool.and_eq_true, hasNode_iff, hasNode_iff] at hends
      simp only [Except.ok.injEq, eq_comm (b := t')]
      exact ⟨fun he => ⟨hnew, hends.1, hends.2, he⟩, fun he => he.2.2.2⟩
    next hends =>
      rw [Bool.and_eq_true, hasNode_iff, hasNode_iff] at hends
      simp only [reduceCtorEq, false_iff]
      exact fun he => hends ⟨he.2.1, he.2.2.1⟩

/-- Nodes can be inserted exactly if their keys are new and distinct. -/
theorem insertNodes_eq_ok {ns : List GraphNode} :
    insertAll insertNode ns t = .ok t' ↔
      (∀ n ∈ ns, ∀ m ∈ t.nodes, m.id ≠ n.id) ∧ (ns.map (·.id)).Nodup ∧
        t' = { t with nodes := t.nodes ++ ns } := by
  induction ns generalizing t with
  | nil => simp [insertAll, eq_comm]
  | cons n ns ih =>
    simp only [insertAll_cons, insertNode_eq_ok, List.map_cons, List.nodup_cons, List.mem_map,
      List.forall_mem_cons]
    constructor
    · rintro ⟨m, ⟨hn, rfl⟩, h⟩
      obtain ⟨hns, hnodup, rfl⟩ := ih.mp h
      refine ⟨⟨hn, fun a ha m hm => hns a ha m (List.mem_append_left _ hm)⟩, ⟨?_, hnodup⟩, ?_⟩
      · rintro ⟨a, ha, hid⟩
        exact hns a ha n (by simp) hid.symm
      · simp
    · rintro ⟨⟨hn, hns⟩, ⟨hnot, hnodup⟩, rfl⟩
      refine ⟨_, ⟨hn, rfl⟩, ih.mpr ⟨?_, hnodup, by simp⟩⟩
      intro a ha m hm hid
      rcases List.mem_append.mp hm with hm | hm
      · exact hns a ha m hm hid
      · rw [List.mem_singleton.mp hm] at hid
        exact hnot ⟨a, ha, hid.symm⟩

/-- Relationships can be inserted exactly if their keys are new and distinct and their ends are
stored. -/
theorem insertRelationships_eq_ok {rs : List GraphRelationship} :
    insertAll insertRelationship rs t = .ok t' ↔
      (∀ r ∈ rs, ∀ m ∈ t.relationships, m.id ≠ r.id) ∧ (rs.map (·.id)).Nodup ∧
        (∀ r ∈ rs, (∃ n ∈ t.nodes, n.id = r.source) ∧ ∃ n ∈ t.nodes, n.id = r.target) ∧
        t' = { t with relationships := t.relationships ++ rs } := by
  induction rs generalizing t with
  | nil => simp [insertAll, eq_comm]
  | cons r rs ih =>
    simp only [insertAll_cons, insertRelationship_eq_ok, List.map_cons, List.nodup_cons,
      List.mem_map, List.forall_mem_cons]
    constructor
    · rintro ⟨m, ⟨hr, hsource, htarget, rfl⟩, h⟩
      obtain ⟨hrs, hnodup, hends, rfl⟩ := ih.mp h
      refine ⟨⟨hr, fun a ha m hm => hrs a ha m (List.mem_append_left _ hm)⟩, ⟨?_, hnodup⟩,
        ⟨⟨hsource, htarget⟩, hends⟩, by simp⟩
      rintro ⟨a, ha, hid⟩
      exact hrs a ha r (by simp) hid.symm
    · rintro ⟨⟨hr, hrs⟩, ⟨hnot, hnodup⟩, ⟨⟨hsource, htarget⟩, hends⟩, rfl⟩
      refine ⟨_, ⟨hr, hsource, htarget, rfl⟩, ih.mpr ⟨?_, hnodup, hends, by simp⟩⟩
      intro a ha m hm hid
      rcases List.mem_append.mp hm with hm | hm
      · exact hrs a ha m hm hid
      · rw [List.mem_singleton.mp hm] at hid
        exact hnot ⟨a, ha, hid.symm⟩

/-! ### Consistent tables -/

/-- A project has a node with an identifier. -/
def Owns (t : Tables) (p : String) (id : Uuid) : Prop := ∃ n ∈ t.nodes, n.id = id ∧ n.projectId = p

/-- What holds of the rows of a store between two operations. -/
structure Consistent (t : Tables) : Prop where
  nodup_nodes : (t.nodes.map (·.id)).Nodup
  nodup_relationships : (t.relationships.map (·.id)).Nodup
  nodup_metadata : (t.metadata.map (·.projectId)).Nodup
  /-- A relationship joins nodes of its own project. -/
  owns_ends : ∀ r ∈ t.relationships, t.Owns r.projectId r.source ∧ t.Owns r.projectId r.target
  /-- A project with rows has figures. -/
  known_nodes : ∀ n ∈ t.nodes, ∃ m ∈ t.metadata, m.projectId = n.projectId
  known_relationships : ∀ r ∈ t.relationships, ∃ m ∈ t.metadata, m.projectId = r.projectId
  /-- The figures of a project are those of its rows. -/
  counted : ∀ m ∈ t.metadata, m.nodeCount = t.nodeCount m.projectId none ∧
    m.relationshipCount = t.relationshipCount m.projectId none

theorem consistent_empty : Consistent empty := by
  constructor <;> simp [empty]

theorem nodeCount_none (t : Tables) (p : String) :
    t.nodeCount p none = t.nodes.countP (·.projectId = p) := by
  simp [nodeCount]

theorem relationshipCount_none (t : Tables) (p : String) :
    t.relationshipCount p none = t.relationships.countP (·.projectId = p) := by
  simp [relationshipCount]

/-! ### The rows of all projects but one -/

/-- The rows of all projects but one. -/
def others (t : Tables) (p : String) : Tables :=
  { nodes := t.nodes.filter (·.projectId ≠ p)
    relationships := t.relationships.filter (·.projectId ≠ p)
    metadata := t.metadata.filter (·.projectId ≠ p) }

@[simp] theorem mem_others_nodes {n : GraphNode} :
    n ∈ (t.others p).nodes ↔ n ∈ t.nodes ∧ n.projectId ≠ p := by
  simp [others]

@[simp] theorem mem_others_relationships {r : GraphRelationship} :
    r ∈ (t.others p).relationships ↔ r ∈ t.relationships ∧ r.projectId ≠ p := by
  simp [others]

@[simp] theorem mem_others_metadata {m : MetadataRow} :
    m ∈ (t.others p).metadata ↔ m ∈ t.metadata ∧ m.projectId ≠ p := by
  simp [others]

theorem others_others (t : Tables) (p : String) : (t.others p).others p = t.others p := by
  simp [others]

theorem nodeCount_others {q : String} (h : q ≠ p) :
    (t.others p).nodeCount q none = t.nodeCount q none := by
  simp only [nodeCount_none, others, List.countP_filter]
  congr 1
  funext n
  by_cases hn : n.projectId = q <;> simp [hn, h]

theorem relationshipCount_others {q : String} (h : q ≠ p) :
    (t.others p).relationshipCount q none = t.relationshipCount q none := by
  simp only [relationshipCount_none, others, List.countP_filter]
  congr 1
  funext r
  by_cases hr : r.projectId = q <;> simp [hr, h]

theorem Owns.others {q : String} {id : Uuid} (h : t.Owns q id) (hq : q ≠ p) :
    (t.others p).Owns q id := by
  obtain ⟨n, hn, hid, rfl⟩ := h
  exact ⟨n, mem_others_nodes.mpr ⟨hn, hq⟩, hid, rfl⟩

theorem Consistent.others (h : t.Consistent) (p : String) : (t.others p).Consistent where
  nodup_nodes := h.nodup_nodes.sublist (List.filter_sublist.map _)
  nodup_relationships := h.nodup_relationships.sublist (List.filter_sublist.map _)
  nodup_metadata := h.nodup_metadata.sublist (List.filter_sublist.map _)
  owns_ends r hr := by
    obtain ⟨hr, hp⟩ := mem_others_relationships.mp hr
    exact ⟨(h.owns_ends r hr).1.others hp, (h.owns_ends r hr).2.others hp⟩
  known_nodes n hn := by
    obtain ⟨hn, hp⟩ := mem_others_nodes.mp hn
    obtain ⟨m, hm, hmn⟩ := h.known_nodes n hn
    exact ⟨m, mem_others_metadata.mpr ⟨hm, hmn ▸ hp⟩, hmn⟩
  known_relationships r hr := by
    obtain ⟨hr, hp⟩ := mem_others_relationships.mp hr
    obtain ⟨m, hm, hmr⟩ := h.known_relationships r hr
    exact ⟨m, mem_others_metadata.mpr ⟨hm, hmr ▸ hp⟩, hmr⟩
  counted m hm := by
    obtain ⟨hm, hp⟩ := mem_others_metadata.mp hm
    rw [nodeCount_others hp, relationshipCount_others hp]
    exact h.counted m hm

/-! ### Clearing a project -/

/-- What is left when the rows of a project are deleted, a node with all its relationships. -/
def cleared (t : Tables) (p : String) : Tables :=
  ((t.deleteRelationships (·.projectId = p)).2.deleteNodes (·.projectId = p)).2.deleteMetadata
    (·.projectId = p)

/-- A node that two projects had would be stored twice. -/
theorem Consistent.owner_unique (h : t.Consistent) {q : String} {id : Uuid} (hp : t.Owns p id)
    (hq : t.Owns q id) : p = q := by
  obtain ⟨a, ha, haid, rfl⟩ := hp
  obtain ⟨b, hb, hbid, rfl⟩ := hq
  rw [List.inj_on_of_nodup_map h.nodup_nodes ha hb (haid.trans hbid.symm)]

/-- No relationship of another project ends at a node of the project that is cleared. -/
theorem cleared_eq_others (h : t.Consistent) (p : String) : t.cleared p = t.others p := by
  have hnodes : t.nodes.filter (fun n => !decide (n.projectId = p)) = (t.others p).nodes := by
    simp [others]
  have hmetadata : t.metadata.filter (fun m => !decide (m.projectId = p)) =
      (t.others p).metadata := by
    simp [others]
  have hgone : ∀ q id, t.Owns q id → q ≠ p →
      id ∉ (t.nodes.filter (·.projectId = p)).map (·.id) := by
    intro q id hq hne hid
    obtain ⟨n, hn, hnid⟩ := List.mem_map.mp hid
    simp only [List.mem_filter, decide_eq_true_eq] at hn
    exact hne (h.owner_unique hq ⟨n, hn.1, hnid, hn.2⟩)
  have hrelationships : (t.relationships.filter (fun r => !decide (r.projectId = p))).filter
      (fun r => !(((t.nodes.filter (·.projectId = p)).map (·.id)).contains r.source ||
        ((t.nodes.filter (·.projectId = p)).map (·.id)).contains r.target)) =
      (t.others p).relationships := by
    rw [List.filter_eq_self.mpr]
    · simp [others]
    · intro r hr
      simp only [List.mem_filter, Bool.not_eq_true', decide_eq_false_iff_not] at hr
      obtain ⟨hsource, htarget⟩ := h.owns_ends r hr.1
      simp only [Bool.not_eq_true', Bool.or_eq_false_iff, List.contains_eq_mem,
        decide_eq_false_iff_not]
      exact ⟨hgone _ _ hsource hr.2, hgone _ _ htarget hr.2⟩
  unfold cleared deleteMetadata deleteNodes deleteRelationships
  simp only [hnodes, hmetadata, hrelationships]

/-! ### Replacing a project -/

/-- The rows of all other projects, with new rows for one behind them. -/
def replaced (t : Tables) (p : String) (ns : List GraphNode) (rs : List GraphRelationship)
    (m : MetadataRow) : Tables :=
  { nodes := (t.others p).nodes ++ ns
    relationships := (t.others p).relationships ++ rs
    metadata := (t.others p).metadata ++ [m] }

/-- Figures of a project that has none go behind the others. -/
theorem putMetadata_of_new {m : MetadataRow} (h : ∀ k ∈ t.metadata, k.projectId ≠ m.projectId) :
    t.putMetadata m = { t with metadata := t.metadata ++ [m] } := by
  have hany : t.metadata.any (·.projectId = m.projectId) = false := by
    rw [List.any_eq_false]
    exact fun k hk => by simpa using h k hk
  unfold putMetadata
  rw [hany]
  rfl

/-- Rows that can stand for a project beside the rows of the others. -/
structure Fits (t : Tables) (p : String) (ns : List GraphNode) (rs : List GraphRelationship)
    (m : MetadataRow) : Prop where
  nodes_within : ∀ n ∈ ns, n.projectId = p
  relationships_within : ∀ r ∈ rs, r.projectId = p
  metadata_within : m.projectId = p
  ends : ∀ r ∈ rs, (∃ n ∈ ns, n.id = r.source) ∧ ∃ n ∈ ns, n.id = r.target
  nodup_nodes : (ns.map (·.id)).Nodup
  nodup_relationships : (rs.map (·.id)).Nodup
  fresh_nodes : ∀ n ∈ ns, ∀ m ∈ (t.others p).nodes, m.id ≠ n.id
  fresh_relationships : ∀ r ∈ rs, ∀ m ∈ (t.others p).relationships, m.id ≠ r.id
  nodeCount : m.nodeCount = ns.length
  relationshipCount : m.relationshipCount = rs.length

section Replaced

variable {ns : List GraphNode} {rs : List GraphRelationship} {m : MetadataRow}

/-- The other projects keep all their rows. -/
theorem others_replaced (h : t.Fits p ns rs m) :
    (t.replaced p ns rs m).others p = t.others p := by
  have hns : ns.filter (·.projectId ≠ p) = [] := by
    simpa using h.nodes_within
  have hrs : rs.filter (·.projectId ≠ p) = [] := by
    simpa using h.relationships_within
  have hm : [m].filter (·.projectId ≠ p) = [] := by
    simpa using h.metadata_within
  unfold others replaced
  simp only [List.filter_append, hns, hrs, hm, List.append_nil]
  exact others_others t p

theorem nodes_replaced (h : t.Fits p ns rs m) :
    (t.replaced p ns rs m).nodes.filter (·.projectId = p) = ns := by
  have hns : ns.filter (·.projectId = p) = ns := by
    simpa using h.nodes_within
  simp [replaced, others, List.filter_append, hns]

theorem relationships_replaced (h : t.Fits p ns rs m) :
    (t.replaced p ns rs m).relationships.filter (·.projectId = p) = rs := by
  have hrs : rs.filter (·.projectId = p) = rs := by
    simpa using h.relationships_within
  simp [replaced, others, List.filter_append, hrs]

theorem metadata_replaced (h : t.Fits p ns rs m) :
    (t.replaced p ns rs m).metadata? p = some m := by
  have hm : m.projectId = p := h.metadata_within
  have hnone : (t.others p).metadata.find? (·.projectId = p) = none :=
    List.find?_eq_none.mpr fun k hk => by simpa using (mem_others_metadata.mp hk).2
  simp only [metadata?, replaced, List.find?_append, hnone, Option.none_or]
  simp [hm]

theorem nodeCount_replaced (h : t.Fits p ns rs m) :
    (t.replaced p ns rs m).nodeCount p none = ns.length := by
  rw [nodeCount_none, List.countP_eq_length_filter, nodes_replaced h]

theorem relationshipCount_replaced (h : t.Fits p ns rs m) :
    (t.replaced p ns rs m).relationshipCount p none = rs.length := by
  rw [relationshipCount_none, List.countP_eq_length_filter, relationships_replaced h]

theorem nodup_append_of_fresh {α : Type} {key : α → Uuid} {as bs : List α}
    (has : (as.map key).Nodup) (hbs : (bs.map key).Nodup)
    (hfresh : ∀ b ∈ bs, ∀ a ∈ as, key a ≠ key b) :
    ((as ++ bs).map key).Nodup := by
  rw [List.map_append, List.nodup_append]
  refine ⟨has, hbs, fun x hx y hy => ?_⟩
  obtain ⟨a, ha, rfl⟩ := List.mem_map.mp hx
  obtain ⟨b, hb, rfl⟩ := List.mem_map.mp hy
  exact hfresh b hb a ha

/-- A project can be replaced in consistent tables. -/
theorem Consistent.replaced (hc : t.Consistent) (h : t.Fits p ns rs m) :
    (t.replaced p ns rs m).Consistent := by
  have ho := hc.others p
  have howns : ∀ q id, (t.others p).Owns q id → (t.replaced p ns rs m).Owns q id :=
    fun q id ⟨n, hn, hid, hq⟩ => ⟨n, List.mem_append_left _ hn, hid, hq⟩
  have howns' : ∀ id, (∃ n ∈ ns, n.id = id) → (t.replaced p ns rs m).Owns p id :=
    fun id ⟨n, hn, hid⟩ => ⟨n, List.mem_append_right _ hn, hid, h.nodes_within n hn⟩
  have hm : m ∈ (t.replaced p ns rs m).metadata :=
    List.mem_append_right _ (List.mem_singleton.mpr rfl)
  constructor
  · exact nodup_append_of_fresh ho.nodup_nodes h.nodup_nodes h.fresh_nodes
  · exact nodup_append_of_fresh ho.nodup_relationships h.nodup_relationships h.fresh_relationships
  · show (((t.others p).metadata ++ [m]).map (·.projectId)).Nodup
    rw [List.map_append, List.nodup_append]
    refine ⟨ho.nodup_metadata, List.nodup_singleton _, fun x hx y hy => ?_⟩
    obtain ⟨k, hk, rfl⟩ := List.mem_map.mp hx
    rw [List.mem_singleton.mp hy]
    show k.projectId ≠ m.projectId
    rw [h.metadata_within]
    exact (mem_others_metadata.mp hk).2
  · intro r hr
    rcases List.mem_append.mp hr with hr | hr
    · exact ⟨howns _ _ (ho.owns_ends r hr).1, howns _ _ (ho.owns_ends r hr).2⟩
    · rw [h.relationships_within r hr]
      exact ⟨howns' _ (h.ends r hr).1, howns' _ (h.ends r hr).2⟩
  · intro n hn
    rcases List.mem_append.mp hn with hn | hn
    · obtain ⟨k, hk, hkn⟩ := ho.known_nodes n hn
      exact ⟨k, List.mem_append_left _ hk, hkn⟩
    · exact ⟨m, hm, h.metadata_within.trans (h.nodes_within n hn).symm⟩
  · intro r hr
    rcases List.mem_append.mp hr with hr | hr
    · obtain ⟨k, hk, hkr⟩ := ho.known_relationships r hr
      exact ⟨k, List.mem_append_left _ hk, hkr⟩
    · exact ⟨m, hm, h.metadata_within.trans (h.relationships_within r hr).symm⟩
  · intro k hk
    rcases List.mem_append.mp hk with hk | hk
    · -- the figures of another project, whose rows are those among the others
      have hp : k.projectId ≠ p := (mem_others_metadata.mp hk).2
      rw [← nodeCount_others hp, ← relationshipCount_others hp, others_replaced h]
      exact ho.counted k hk
    · rw [List.mem_singleton.mp hk, h.metadata_within, nodeCount_replaced h,
        relationshipCount_replaced h]
      exact ⟨h.nodeCount, h.relationshipCount⟩

end Replaced

end CodeGraph.Tables
