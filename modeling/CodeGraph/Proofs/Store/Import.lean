import CodeGraph.Proofs.Lists
import CodeGraph.Proofs.Store.Session
import CodeGraph.Proofs.Store.Tables
import CodeGraph.Store.Import
import Mathlib.Data.List.Perm.Basic

/-!
# What an import does

* `Graph.nodesByLabel`, `Graph.relationshipsByLabel` — the rows of a graph in the order in which
  they are written.
* `Graph.checkEnds_eq_ok` — when a graph passes the check before anything is written.
* `Session.importGraph_eq_ok` — what an import that succeeds has done to the tables, whatever it has
  met; `Session.importGraph_leads` — in calm surroundings it gets there.
* `Session.importGraph_error_keeps_store` — an import that fails has done nothing.
-/

namespace CodeGraph

open Hash (Uuid)

/-! ### The rows of a graph in order -/

theorem flatMap_batches {α : Type} (size first : Nat) (as : List α) :
    (batches size first as).flatMap (·.2) = as := by
  fun_induction batches size first as with
  | case1 first as h => simp [List.isEmpty_iff.mp h]
  | case2 first as h ih => rw [List.flatMap_cons, ih, List.take_append_drop]

namespace Graph

/-- The nodes in the order in which they are written. -/
def nodesByLabel (g : Graph) : List GraphNode :=
  NodeType.all.flatMap fun label => g.nodes.filter (·.label = label)

/-- The relationships in the order in which they are written. -/
def relationshipsByLabel (g : Graph) : List GraphRelationship :=
  RelationshipType.all.flatMap fun label => g.relationships.filter (·.label = label)

theorem nodesByLabel_perm (g : Graph) : g.nodesByLabel.Perm g.nodes :=
  flatMap_filter_perm _ (by decide) _ fun n _ => by cases n.label <;> decide

theorem relationshipsByLabel_perm (g : Graph) : g.relationshipsByLabel.Perm g.relationships :=
  flatMap_filter_perm _ (by decide) _ fun r _ => by cases r.label <;> decide

theorem flatMap_nodeBatches (g : Graph) (size : Nat) :
    ((g.nodeBatches size).flatMap fun group => group.2.flatMap (·.2)) = g.nodesByLabel := by
  simp only [nodeBatches, List.flatMap_map, flatMap_batches, nodesByLabel]

theorem flatMap_relationshipBatches (g : Graph) (size : Nat) :
    ((g.relationshipBatches size).flatMap fun group => group.2.flatMap (·.2)) =
      g.relationshipsByLabel := by
  simp only [relationshipBatches, List.flatMap_map, flatMap_batches, relationshipsByLabel]

/-! ### The check before anything is written -/

theorem checkNodes_eq_ok {p : String} {ns : List GraphNode} {u : Unit} :
    checkNodes p ns = .ok u ↔ ∀ n ∈ ns, n.projectId = p := by
  induction ns with
  | nil => simp [checkNodes]
  | cons n ns ih =>
    rw [checkNodes, List.forall_mem_cons]
    split
    next h => rw [ih, and_iff_right h]
    next h => simp [h]

theorem checkRelationships_eq_ok {p : String} {ids : List Uuid} {rs : List GraphRelationship}
    {u : Unit} :
    checkRelationships p ids rs = .ok u ↔
      ∀ r ∈ rs, r.projectId = p ∧ r.source ∈ ids ∧ r.target ∈ ids := by
  induction rs with
  | nil => simp [checkRelationships]
  | cons r rs ih =>
    rw [checkRelationships, List.forall_mem_cons]
    split
    next h => simp [h]
    next h =>
      split
      next hs => simp [(by simpa using hs : r.source ∉ ids)]
      next hs =>
        split
        next ht => simp [(by simpa using ht : r.target ∉ ids)]
        next ht =>
          rw [ih]
          simp only [Bool.not_eq_true', Bool.not_eq_false, List.contains_eq_mem,
            decide_eq_true_eq, ne_eq, not_not] at h hs ht
          rw [and_iff_right ⟨h, hs, ht⟩]

theorem checkEnds_eq_ok {g : Graph} {u : Unit} :
    g.checkEnds = .ok u ↔
      (∀ n ∈ g.nodes, n.projectId = g.projectId) ∧
        ∀ r ∈ g.relationships, r.projectId = g.projectId ∧
          r.source ∈ g.nodes.map (·.id) ∧ r.target ∈ g.nodes.map (·.id) := by
  unfold checkEnds
  rw [← checkNodes_eq_ok (u := u), ← checkRelationships_eq_ok (u := u)]
  cases hn : checkNodes g.projectId g.nodes with
  | error e => simp [bind, Except.bind]
  | ok v => simp [bind, Except.bind]

end Graph

/-! ### Graphs that can be imported -/

/-- What it takes to import a graph into tables. -/
structure Graph.Importable (g : Graph) (t : Tables) : Prop where
  nodes_within : ∀ n ∈ g.nodes, n.projectId = g.projectId
  relationships_within : ∀ r ∈ g.relationships, r.projectId = g.projectId
  ends : ∀ r ∈ g.relationships, r.source ∈ g.nodes.map (·.id) ∧ r.target ∈ g.nodes.map (·.id)
  nodup_nodes : (g.nodes.map (·.id)).Nodup
  nodup_relationships : (g.relationships.map (·.id)).Nodup
  /-- No other project has a node with the key of one of the graph. -/
  nodes_apart : ∀ n ∈ g.nodes, ∀ m ∈ t.nodes, m.id = n.id → m.projectId = g.projectId
  relationships_apart : ∀ r ∈ g.relationships, ∀ m ∈ t.relationships, m.id = r.id →
    m.projectId = g.projectId

/-- The tables once a graph stands for its project. -/
def Graph.importedInto (g : Graph) (now : Instant) (t : Tables) : Tables :=
  t.replaced g.projectId g.nodesByLabel g.relationshipsByLabel (g.metadata now)

theorem Graph.Importable.fits {g : Graph} {t : Tables} (h : g.Importable t) (now : Instant) :
    t.Fits g.projectId g.nodesByLabel g.relationshipsByLabel (g.metadata now) where
  nodes_within n hn := h.nodes_within n (g.nodesByLabel_perm.mem_iff.mp hn)
  relationships_within r hr := h.relationships_within r (g.relationshipsByLabel_perm.mem_iff.mp hr)
  metadata_within := rfl
  ends r hr := by
    obtain ⟨hsource, htarget⟩ := h.ends r (g.relationshipsByLabel_perm.mem_iff.mp hr)
    simp only [List.mem_map, ← g.nodesByLabel_perm.mem_iff] at hsource htarget
    exact ⟨hsource, htarget⟩
  nodup_nodes := (g.nodesByLabel_perm.map _).nodup_iff.mpr h.nodup_nodes
  nodup_relationships := (g.relationshipsByLabel_perm.map _).nodup_iff.mpr h.nodup_relationships
  fresh_nodes n hn m hm hid := by
    obtain ⟨hm, hp⟩ := Tables.mem_others_nodes.mp hm
    exact hp (h.nodes_apart n (g.nodesByLabel_perm.mem_iff.mp hn) m hm hid)
  fresh_relationships r hr m hm hid := by
    obtain ⟨hm, hp⟩ := Tables.mem_others_relationships.mp hm
    exact hp (h.relationships_apart r (g.relationshipsByLabel_perm.mem_iff.mp hr) m hm hid)
  nodeCount := g.nodesByLabel_perm.length_eq.symm
  relationshipCount := g.relationshipsByLabel_perm.length_eq.symm

namespace Session

variable {α κ : Type} {around : Surroundings} {s s' : SessionState} {t t' : Tables}

/-! ### Deleting rows -/

theorem deleteNodes_count (t : Tables) (p : String) :
    ((t.deleteRelationships (·.projectId = p)).2.deleteNodes (·.projectId = p)).1 =
      t.nodeCount p none := by
  rw [Tables.nodeCount_none]
  rfl

theorem deleteRelationships_count (t : Tables) (p : String) :
    (t.deleteRelationships (·.projectId = p)).1 = t.relationshipCount p none := by
  rw [Tables.relationshipCount_none]
  rfl

theorem clearRows_eq_ok {p : String} {c : ClearFigures}
    (h : clearRows p around s = (.ok c, s')) :
    ∃ t, s.store = ⟨some t⟩ ∧ c = ⟨t.nodeCount p none, t.relationshipCount p none⟩ ∧
      s'.store = ⟨some (t.cleared p)⟩ := by
  obtain ⟨r, s₁, h₁, h⟩ := bind_eq_ok.mp h
  obtain ⟨n, s₂, h₂, h⟩ := bind_eq_ok.mp h
  obtain ⟨_, s₃, h₃, h⟩ := bind_eq_ok.mp h
  obtain ⟨rfl, rfl⟩ := pure_eq_ok.mp h
  obtain ⟨t, t₁, hs, hr, hs₁⟩ := statement_eq_ok h₁
  obtain ⟨t₁', t₂, hs₁', hn, hs₂⟩ := statement_eq_ok h₂
  obtain ⟨t₂', t₃, hs₂', hm, hs₃⟩ := statement_eq_ok h₃
  obtain rfl : t₁ = t₁' := by simpa [hs₁] using hs₁'
  obtain rfl : t₂ = t₂' := by simpa [hs₂] using hs₂'
  simp only [Except.ok.injEq] at hr hn hm
  refine ⟨t, hs, ?_, ?_⟩
  · rw [← deleteNodes_count, ← deleteRelationships_count, hr, hn]
  · rw [hs₃, Tables.cleared, hr, hn, (Prod.mk.inj hm).2]

theorem clearRows_leads (t : Tables) (p : String) :
    Leads (clearRows p) t ⟨t.nodeCount p none, t.relationshipCount p none⟩ (t.cleared p) := by
  rw [← deleteNodes_count, ← deleteRelationships_count]
  exact .bind (.statement rfl) (.bind (.statement rfl) (.bind (.statement rfl) .pure))

theorem balanced_clearRows (p : String) : Balanced (clearRows p) :=
  .bind (.statement _ _) fun _ => .bind (.statement _ _) fun _ => .bind (.statement _ _) fun _ =>
    .pure _

/-! ### Writing rows -/

variable {table : Table} {insert : Tables → α → Except DatabaseFault Tables}

theorem writeRows_eq_ok {rows : List α} {u : Unit} (hs : s.store = ⟨some t⟩)
    (h : writeRows (writeRow table insert) rows around s = (.ok u, s')) :
    ∃ t', Tables.insertAll insert rows t = .ok t' ∧ s'.store = ⟨some t'⟩ := by
  induction rows generalizing s t with
  | nil =>
    obtain ⟨-, rfl⟩ := pure_eq_ok.mp h
    exact ⟨t, rfl, hs⟩
  | cons a rest ih =>
    obtain ⟨_, m, ha, hrest⟩ := bind_eq_ok.mp h
    obtain ⟨t₀, t₁, hs₀, hf, hm⟩ := statement_eq_ok ha
    obtain rfl : t = t₀ := by simpa [hs] using hs₀
    obtain ⟨t', ht', hs'⟩ := ih hm hrest
    refine ⟨t', (Tables.insertAll_cons insert a rest).mpr ⟨t₁, ?_, ht'⟩, hs'⟩
    cases hi : insert t a with
    | error e => simp [hi, Except.map] at hf
    | ok t₂ => simpa [hi, Except.map] using hf

theorem writeRows_leads {rows : List α} (h : Tables.insertAll insert rows t = .ok t') :
    Leads (writeRows (writeRow table insert) rows) t () t' := by
  induction rows generalizing t with
  | nil =>
    obtain rfl : t = t' := by simpa [Tables.insertAll] using h
    exact .pure
  | cons a rest ih =>
    obtain ⟨m, hm, hrest⟩ := (Tables.insertAll_cons insert a rest).mp h
    exact .bind (.statement (by rw [hm]; rfl)) (ih hrest)

theorem balanced_writeRows (rows : List α) : Balanced (writeRows (writeRow table insert) rows) := by
  induction rows with
  | nil => exact .pure ()
  | cons a rest ih => exact .bind (.statement _ _) fun _ => ih

/-! ### Writing batches -/

variable {kind : EntityKind} {label : String} {word : κ → String} {done w : WriteFigures}

/-- What has been written after some batches more. -/
def afterBatches (done : WriteFigures) (bs : List (Nat × List α)) : WriteFigures :=
  ⟨done.rows + (bs.flatMap (·.2)).length, done.batches + bs.length⟩

theorem afterBatches_cons (b : Nat × List α) (bs : List (Nat × List α)) :
    afterBatches done (b :: bs) = afterBatches ⟨done.rows + b.2.length, done.batches + 1⟩ bs := by
  simp only [afterBatches, List.flatMap_cons, List.length_append, List.length_cons,
    WriteFigures.mk.injEq]
  omega

theorem afterBatches_append (as bs : List (Nat × List α)) :
    afterBatches done (as ++ bs) = afterBatches (afterBatches done as) bs := by
  simp only [afterBatches, List.flatMap_append, List.length_append, WriteFigures.mk.injEq]
  omega

theorem writeBatches_eq_ok {bs : List (Nat × List α)} (hs : s.store = ⟨some t⟩)
    (h : writeBatches kind label (writeRow table insert) done bs around s = (.ok w, s')) :
    ∃ t', Tables.insertAll insert (bs.flatMap (·.2)) t = .ok t' ∧ s'.store = ⟨some t'⟩ ∧
      w = afterBatches done bs := by
  induction bs generalizing s t done with
  | nil =>
    obtain ⟨rfl, rfl⟩ := pure_eq_ok.mp h
    exact ⟨t, rfl, hs, rfl⟩
  | cons b rest ih =>
    obtain ⟨_, m₁, hcheck, h⟩ := bind_eq_ok.mp h
    have hs₁ : m₁.store = ⟨some t⟩ := by rw [← (Prod.mk.inj hcheck).2]; exact hs
    obtain ⟨_, m₂, hrows, hrest⟩ := bind_eq_ok.mp h
    obtain ⟨m, m', hm, hwrite, hm'⟩ := transaction_eq_ok (mapError_eq_ok.mp hrows)
    obtain ⟨t₁, ht₁, hs₁'⟩ := writeRows_eq_ok (hm.trans hs₁) hwrite
    obtain ⟨t', ht', hs', rfl⟩ := ih (hm'.symm.trans hs₁') hrest
    rw [List.flatMap_cons, afterBatches_cons]
    exact ⟨t', (Tables.insertAll_append insert _ _).mpr ⟨t₁, ht₁, ht'⟩, hs', rfl⟩

theorem writeBatches_leads {bs : List (Nat × List α)}
    (h : Tables.insertAll insert (bs.flatMap (·.2)) t = .ok t') :
    Leads (writeBatches kind label (writeRow table insert) done bs) t
      (afterBatches done bs) t' := by
  induction bs generalizing t done with
  | nil =>
    obtain rfl : t = t' := by simpa [Tables.insertAll] using h
    exact .pure
  | cons b rest ih =>
    rw [List.flatMap_cons] at h
    obtain ⟨m, hm, hrest⟩ := (Tables.insertAll_append insert _ _).mp h
    rw [afterBatches_cons]
    exact .bind (.check _) (.bind (.mapError (.transaction (writeRows_leads hm)) _) (ih hrest))

theorem balanced_writeBatches (bs : List (Nat × List α)) :
    Balanced (writeBatches kind label (writeRow table insert) done bs) := by
  induction bs generalizing done with
  | nil => exact .pure _
  | cons b rest ih =>
    exact .bind (.ofRun _) fun _ =>
      .bind (.mapError (.transaction (balanced_writeRows b.2)) _) fun _ => ih

/-! ### Writing groups of batches -/

theorem writeGroups_eq_ok {groups : List (κ × List (Nat × List α))} (hs : s.store = ⟨some t⟩)
    (h : writeGroups kind word (writeRow table insert) done groups around s = (.ok w, s')) :
    ∃ t', Tables.insertAll insert (groups.flatMap fun g => g.2.flatMap (·.2)) t = .ok t' ∧
      s'.store = ⟨some t'⟩ ∧ w = afterBatches done (groups.flatMap (·.2)) := by
  induction groups generalizing s t done with
  | nil =>
    obtain ⟨rfl, rfl⟩ := pure_eq_ok.mp h
    exact ⟨t, rfl, hs, rfl⟩
  | cons g rest ih =>
    obtain ⟨w₁, m, hg, hrest⟩ := bind_eq_ok.mp h
    obtain ⟨t₁, ht₁, hm, rfl⟩ := writeBatches_eq_ok hs hg
    obtain ⟨t', ht', hs', rfl⟩ := ih hm hrest
    rw [List.flatMap_cons, List.flatMap_cons, afterBatches_append]
    exact ⟨t', (Tables.insertAll_append insert _ _).mpr ⟨t₁, ht₁, ht'⟩, hs', rfl⟩

theorem writeGroups_leads {groups : List (κ × List (Nat × List α))}
    (h : Tables.insertAll insert (groups.flatMap fun g => g.2.flatMap (·.2)) t = .ok t') :
    Leads (writeGroups kind word (writeRow table insert) done groups) t
      (afterBatches done (groups.flatMap (·.2))) t' := by
  induction groups generalizing t done with
  | nil =>
    obtain rfl : t = t' := by simpa [Tables.insertAll] using h
    exact .pure
  | cons g rest ih =>
    rw [List.flatMap_cons] at h
    obtain ⟨m, hm, hrest⟩ := (Tables.insertAll_append insert _ _).mp h
    rw [List.flatMap_cons, afterBatches_append]
    exact .bind (writeBatches_leads hm) (ih hrest)

theorem balanced_writeGroups (groups : List (κ × List (Nat × List α))) :
    Balanced (writeGroups kind word (writeRow table insert) done groups) := by
  induction groups generalizing done with
  | nil => exact .pure _
  | cons g rest ih => exact .bind (balanced_writeBatches g.2) fun _ => ih

/-! ### The whole import -/

variable {size : Nat} {now : Instant} {g : Graph}

/-- The figures of an import of a graph into tables. -/
def importFigures (size : Nat) (g : Graph) (t : Tables) : ImportFigures :=
  { cleared := ⟨t.nodeCount g.projectId none, t.relationshipCount g.projectId none⟩
    nodesWritten := g.nodes.length
    relationshipsWritten := g.relationships.length
    nodeBatches := ((g.nodeBatches size).flatMap (·.2)).length
    relationshipBatches := ((g.relationshipBatches size).flatMap (·.2)).length }

/-- What has been written once all groups are. -/
theorem afterBatches_groups (groups : List (κ × List (Nat × List α))) :
    afterBatches ⟨0, 0⟩ (groups.flatMap (·.2)) =
      ⟨(groups.flatMap fun g => g.2.flatMap (·.2)).length, (groups.flatMap (·.2)).length⟩ := by
  simp only [afterBatches, List.flatMap_assoc, Nat.zero_add]

theorem importGraph_eq_ok {f : ImportFigures}
    (h : importGraph size now g around s = (.ok f, s')) :
    g.checkEnds = .ok () ∧ ∃ t t₁ t₂, s.store = ⟨some t⟩ ∧
      Tables.insertAll Tables.insertNode g.nodesByLabel (t.cleared g.projectId) = .ok t₁ ∧
      Tables.insertAll Tables.insertRelationship g.relationshipsByLabel t₁ = .ok t₂ ∧
      s'.store = ⟨some (t₂.putMetadata (g.metadata now))⟩ ∧ f = importFigures size g t := by
  obtain ⟨u, m₁, hends, h⟩ := bind_eq_ok.mp h
  obtain ⟨hok, rfl⟩ := Prod.mk.inj hends
  obtain ⟨_, m₂, hcheck, h⟩ := bind_eq_ok.mp h
  obtain ⟨-, rfl⟩ := Prod.mk.inj hcheck
  obtain ⟨m, m', hm, h, hm'⟩ := transaction_eq_ok h
  obtain ⟨c, s₁, hclear, h⟩ := bind_eq_ok.mp h
  obtain ⟨wn, s₂, hnodes, h⟩ := bind_eq_ok.mp h
  obtain ⟨wr, s₃, hrelationships, h⟩ := bind_eq_ok.mp h
  obtain ⟨_, s₄, hmetadata, h⟩ := bind_eq_ok.mp h
  obtain ⟨rfl, rfl⟩ := pure_eq_ok.mp h
  obtain ⟨t, ht, rfl, hs₁⟩ := clearRows_eq_ok (mapError_eq_ok.mp hclear)
  obtain ⟨t₁, hi₁, hs₂, rfl⟩ := writeGroups_eq_ok hs₁ hnodes
  obtain ⟨t₂, hi₂, hs₃, rfl⟩ := writeGroups_eq_ok hs₂ hrelationships
  obtain ⟨t₂', t₃, hs₃', hput, hs₄⟩ := statement_eq_ok (mapError_eq_ok.mp hmetadata)
  obtain rfl : t₂ = t₂' := by simpa [hs₃] using hs₃'
  rw [Graph.flatMap_nodeBatches] at hi₁
  rw [Graph.flatMap_relationshipBatches] at hi₂
  refine ⟨hok, t, t₁, t₂, hm.symm.trans ht, hi₁, hi₂, ?_, ?_⟩
  · rw [← hm', hs₄, (Prod.mk.inj (Except.ok.inj hput)).2]
  · rw [afterBatches_groups, afterBatches_groups, Graph.flatMap_nodeBatches,
      Graph.flatMap_relationshipBatches, g.nodesByLabel_perm.length_eq,
      g.relationshipsByLabel_perm.length_eq]
    rfl

theorem importGraph_leads {t₁ t₂ : Tables} (hends : g.checkEnds = .ok ())
    (h₁ : Tables.insertAll Tables.insertNode g.nodesByLabel (t.cleared g.projectId) = .ok t₁)
    (h₂ : Tables.insertAll Tables.insertRelationship g.relationshipsByLabel t₁ = .ok t₂) :
    Leads (importGraph size now g) t (importFigures size g t)
      (t₂.putMetadata (g.metadata now)) := by
  rw [← Graph.flatMap_nodeBatches g size] at h₁
  rw [← Graph.flatMap_relationshipBatches g size] at h₂
  have hfigures : importFigures size g t =
      { cleared := ⟨t.nodeCount g.projectId none, t.relationshipCount g.projectId none⟩
        nodesWritten := (afterBatches ⟨0, 0⟩ ((g.nodeBatches size).flatMap (·.2))).rows
        relationshipsWritten :=
          (afterBatches ⟨0, 0⟩ ((g.relationshipBatches size).flatMap (·.2))).rows
        nodeBatches := (afterBatches ⟨0, 0⟩ ((g.nodeBatches size).flatMap (·.2))).batches
        relationshipBatches :=
          (afterBatches ⟨0, 0⟩ ((g.relationshipBatches size).flatMap (·.2))).batches } := by
    rw [afterBatches_groups, afterBatches_groups, Graph.flatMap_nodeBatches,
      Graph.flatMap_relationshipBatches, g.nodesByLabel_perm.length_eq,
      g.relationshipsByLabel_perm.length_eq]
    rfl
  rw [hfigures]
  refine .bind (.ofExcept hends) (.bind (.check _) (.transaction ?_))
  refine .bind (.mapError (clearRows_leads t _) _) ?_
  refine .bind (writeGroups_leads h₁) (.bind (writeGroups_leads h₂) ?_)
  exact .bind (.mapError (.statement rfl) _) .pure

/-! ### Imports into consistent tables -/

theorem metadata_apart (t : Tables) (now : Instant) :
    ∀ k ∈ (t.others g.projectId).metadata, k.projectId ≠ (g.metadata now).projectId :=
  fun _ hk => (Tables.mem_others_metadata.mp hk).2

/-- An import into consistent tables succeeds only if the graph can be imported, and then it stands
for its project. -/
theorem importable_of_importGraph_eq_ok (hc : t.Consistent) (hs : s.store = ⟨some t⟩)
    {f : ImportFigures} (h : importGraph size now g around s = (.ok f, s')) :
    g.Importable t ∧ s'.store = ⟨some (g.importedInto now t)⟩ ∧ f = importFigures size g t := by
  obtain ⟨hends, t₀, t₁, t₂, hs₀, h₁, h₂, hs', rfl⟩ := importGraph_eq_ok h
  obtain rfl : t = t₀ := by simpa [hs] using hs₀
  obtain ⟨hnodes, hrelationships⟩ := Graph.checkEnds_eq_ok.mp hends
  rw [Tables.cleared_eq_others hc] at h₁
  obtain ⟨hfresh, hnodup, rfl⟩ := Tables.insertNodes_eq_ok.mp h₁
  obtain ⟨hfresh', hnodup', -, rfl⟩ := Tables.insertRelationships_eq_ok.mp h₂
  refine ⟨?_, ?_, rfl⟩
  · constructor
    · exact hnodes
    · exact fun r hr => (hrelationships r hr).1
    · exact fun r hr => (hrelationships r hr).2
    · exact (g.nodesByLabel_perm.map _).nodup_iff.mp hnodup
    · exact (g.relationshipsByLabel_perm.map _).nodup_iff.mp hnodup'
    · intro n hn m hm hid
      by_contra hp
      exact hfresh n (g.nodesByLabel_perm.mem_iff.mpr hn) m
        (Tables.mem_others_nodes.mpr ⟨hm, hp⟩) hid
    · intro r hr m hm hid
      by_contra hp
      exact hfresh' r (g.relationshipsByLabel_perm.mem_iff.mpr hr) m
        (Tables.mem_others_relationships.mpr ⟨hm, hp⟩) hid
  · rw [hs', Tables.putMetadata_of_new]
    · rfl
    · exact metadata_apart t now

/-- In calm surroundings a graph that can be imported is. -/
theorem importGraph_leads_of_importable (hc : t.Consistent) (h : g.Importable t) :
    Leads (importGraph size now g) t (importFigures size g t) (g.importedInto now t) := by
  have hfits := h.fits now
  have h₁ : Tables.insertAll Tables.insertNode g.nodesByLabel (t.cleared g.projectId) =
      .ok { t.others g.projectId with
        nodes := (t.others g.projectId).nodes ++ g.nodesByLabel } := by
    rw [Tables.cleared_eq_others hc]
    exact Tables.insertNodes_eq_ok.mpr ⟨hfits.fresh_nodes, hfits.nodup_nodes, rfl⟩
  have h₂ : Tables.insertAll Tables.insertRelationship g.relationshipsByLabel
      { t.others g.projectId with
        nodes := (t.others g.projectId).nodes ++ g.nodesByLabel } =
      .ok { t.others g.projectId with
        nodes := (t.others g.projectId).nodes ++ g.nodesByLabel
        relationships := (t.others g.projectId).relationships ++ g.relationshipsByLabel } := by
    refine Tables.insertRelationships_eq_ok.mpr
      ⟨hfits.fresh_relationships, hfits.nodup_relationships, fun r hr => ?_, rfl⟩
    obtain ⟨⟨a, ha, hsource⟩, b, hb, htarget⟩ := hfits.ends r hr
    exact ⟨⟨a, List.mem_append_right _ ha, hsource⟩, b, List.mem_append_right _ hb, htarget⟩
  have hends : g.checkEnds = .ok () := Graph.checkEnds_eq_ok.mpr
    ⟨h.nodes_within, fun r hr => ⟨h.relationships_within r hr, h.ends r hr⟩⟩
  have hleads : Leads (importGraph size now g) t (importFigures size g t) _ :=
    importGraph_leads hends h₁ h₂
  rw [Tables.putMetadata_of_new] at hleads
  · exact hleads
  · exact metadata_apart t now

end Session

/-! ### Small graphs -/

/-- A project of two files, the first of which contains the second, with keys from `k` on. -/
def Graph.couple (projectId : String) (k : Nat) : Graph :=
  let moment : Instant := ⟨2024, 2, 29, 12, 30, 0, 0⟩
  let file (id : Nat) (name : String) : GraphNode :=
    ⟨⟨id⟩, projectId, .file, name, some name, .file "p" "" 1, moment⟩
  { projectId
    nodes := [file k "a.go", file (k + 1) "b.go"]
    relationships := [⟨⟨k⟩, projectId, .contains, ⟨k⟩, ⟨k + 1⟩, .contains, moment⟩]
    summary := { (default : Summary) with files := 2 }
    analyzedAt := moment }

/-- The rows of several graphs. -/
def Tables.ofGraphs (gs : List Graph) : Tables :=
  { nodes := gs.flatMap (·.nodes)
    relationships := gs.flatMap (·.relationships)
    metadata := gs.map (·.metadata default) }

namespace Session

variable {size : Nat} {now : Instant} {g : Graph}

/-! ### Imports that fail -/

theorem balanced_importSteps : Balanced (importSteps size now g) := by
  refine .bind (.mapError (balanced_clearRows _) _) fun _ => ?_
  refine .bind (balanced_writeGroups _) fun _ => .bind (balanced_writeGroups _) fun _ => ?_
  exact .bind (.mapError (.statement _ _) _) fun _ => .pure _

theorem allOrNothing_importGraph : AllOrNothing (importGraph size now g) :=
  .ofRun_bind _ fun _ => .ofRun_bind _ fun _ => .transaction balanced_importSteps

/-- **An import that fails has done nothing**, whatever it failed for and however far it got: a part
of another project, a dangling relationship, a signal at any point, a repeated key in any batch, or
a statement, a beginning or an end of a transaction that the database turns down. -/
theorem importGraph_error_keeps_store (around : Surroundings) (size : Nat) (now : Instant)
    (g : Graph) (store : Store) (e : StoreError)
    (h : ((importGraph size now g).performIn around store).outcome = .error e) :
    ((importGraph size now g).performIn around store).store = store := by
  cases hrun : importGraph size now g around (.start store) with
  | mk outcome s' =>
    simp only [performIn, hrun] at h ⊢
    exact allOrNothing_importGraph around (.start store) e s' (by rw [hrun, h])

/-- The second batch meets a key of another project, after the rows of the project are gone and the
first batch is written; all of them are back then. -/
theorem importGraph_error_keeps_couples :
    let store : Store := ⟨some (.ofGraphs [.couple "a" 0, .couple "b" 10])⟩
    let result := (importGraph 1 default (.couple "a" 9)).performIn (.sound .never) store
    result.outcome = .error (.write .node "File" 1 2 (.repeatedKey .nodes)) ∧
      result.store = store := by
  have herror : ((importGraph 1 default (.couple "a" 9)).performIn (.sound .never)
      ⟨some (.ofGraphs [.couple "a" 0, .couple "b" 10])⟩).outcome =
      .error (.write .node "File" 1 2 (.repeatedKey .nodes)) := by
    decide +kernel
  exact ⟨herror, importGraph_error_keeps_store _ _ _ _ _ _ herror⟩

end Session

end CodeGraph
