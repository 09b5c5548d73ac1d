import CodeGraph.Proofs.Store.Replacement

/-!
# What the size of batches changes

* `length_batches` — how many batches there are.
* `Tables.FirstRefused` — the first of several rows that cannot be inserted;
  `Tables.insertAll_eq_error` says that there is one wherever rows cannot be inserted one after the other.
* `Session.Fails` — in calm surroundings a session ends with an error.
* `Session.writeBatches_fails`, `Session.writeGroups_fails` — a row that cannot be inserted is in the batch
  that the error names.
* `Graph.Refused` — the first row of a graph that cannot be written.
* `Session.importGraph_by_batch_size` — the main result.
-/

namespace CodeGraph

variable {α κ : Type}

/-! ### Numbers of batches -/

/-- Of all batches only the last one can be short. -/
theorem length_batches {size : Nat} (hsize : 1 ≤ size) (first : Nat) (as : List α) :
    (batches size first as).length = (as.length + size - 1) / size := by
  fun_induction batches size first as with
  | case1 first as h =>
    rw [List.isEmpty_iff.mp h]
    show 0 = (0 + size - 1) / size
    rw [Nat.zero_add]
    exact (Nat.div_eq_of_lt (Nat.sub_lt hsize Nat.one_pos)).symm
  | case2 first as h ih =>
    have hsome : 1 ≤ as.length := List.length_pos_iff.mpr (by simpa using h)
    rw [List.length_cons, ih, max_eq_right hsize, List.length_drop]
    by_cases hlast : as.length ≤ size
    · rw [Nat.sub_eq_zero_of_le hlast, Nat.zero_add, Nat.div_eq_of_lt (Nat.sub_lt hsize Nat.one_pos),
        Nat.div_eq_of_lt_le (k := 1) (by omega) (by omega)]
    · have hrest : as.length + size - 1 = as.length - size + size - 1 + size := by omega
      rw [hrest, Nat.add_div_right _ hsize]

/-- The batches of several labels, label by label. -/
theorem length_flatMap_batches {size : Nat} (hsize : 1 ≤ size) (rows : κ → List α) (labels : List κ) :
    ((labels.map fun label => (label, batches size 0 (rows label))).flatMap (·.2)).length =
      (labels.map fun label => ((rows label).length + size - 1) / size).sum := by
  simp only [List.flatMap_map, List.length_flatMap, length_batches hsize]

namespace Tables

variable {t m : Tables} {insert : Tables → α → Except DatabaseFault Tables} {rows : List α} {place : Nat}
  {fault : DatabaseFault}

/-! ### The first row that cannot be inserted -/

/-- The row at a place cannot be inserted, and those before it can. -/
def FirstRefused (insert : Tables → α → Except DatabaseFault Tables) (rows : List α) (t : Tables)
    (place : Nat) (fault : DatabaseFault) : Prop :=
  ∃ a m, rows[place]? = some a ∧ insertAll insert (rows.take place) t = .ok m ∧
    insert m a = .error fault

theorem FirstRefused.lt_length (h : FirstRefused insert rows t place fault) : place < rows.length := by
  obtain ⟨a, m, ha, -⟩ := h
  exact (List.getElem?_eq_some_iff.mp ha).1

/-- The rows up to a later place are refused for the same row. -/
theorem FirstRefused.take {size : Nat} (h : FirstRefused insert rows t place fault)
    (hplace : place < size) : FirstRefused insert (rows.take size) t place fault := by
  obtain ⟨a, m, ha, hm, hfault⟩ := h
  refine ⟨a, m, ?_, ?_, hfault⟩
  · rw [List.getElem?_take_of_lt hplace, ha]
  · rw [List.take_take, Nat.min_eq_left hplace.le, hm]

/-- So are the rows from an earlier place on, once those before it are inserted. -/
theorem FirstRefused.drop {size : Nat} (h : FirstRefused insert rows t (size + place) fault) :
    ∃ m, insertAll insert (rows.take size) t = .ok m ∧
      FirstRefused insert (rows.drop size) m place fault := by
  obtain ⟨a, m', ha, hm', hfault⟩ := h
  rw [List.take_add] at hm'
  obtain ⟨m, hm, hrest⟩ := (insertAll_append insert _ _).mp hm'
  refine ⟨m, hm, a, m', ?_, hrest, hfault⟩
  rw [List.getElem?_drop, ha]

theorem firstRefused_zero {a : α} :
    FirstRefused insert (a :: rows) t 0 fault ↔ insert t a = .error fault := by
  constructor
  · rintro ⟨b, m, hb, hm, hfault⟩
    obtain rfl := Option.some.inj hb
    obtain rfl := Except.ok.inj hm
    exact hfault
  · exact fun hfault => ⟨a, t, rfl, rfl, hfault⟩

theorem firstRefused_succ {a : α} : FirstRefused insert (a :: rows) t (place + 1) fault ↔
    ∃ m, insert t a = .ok m ∧ FirstRefused insert rows m place fault := by
  constructor
  · rintro ⟨b, m', hb, hm', hfault⟩
    rw [List.take_succ_cons] at hm'
    obtain ⟨m, hm, hrest⟩ := (insertAll_cons insert _ _).mp hm'
    exact ⟨m, hm, b, m', hb, hrest, hfault⟩
  · rintro ⟨m, hm, b, m', hb, hrest, hfault⟩
    refine ⟨b, m', hb, ?_, hfault⟩
    rw [List.take_succ_cons]
    exact (insertAll_cons insert _ _).mpr ⟨m, hm, hrest⟩

/-- Where rows cannot be inserted one after the other, one of them is the first that cannot. -/
theorem insertAll_eq_error : insertAll insert rows t = .error fault ↔
    ∃ place, FirstRefused insert rows t place fault := by
  induction rows generalizing t with
  | nil =>
    refine iff_of_false (fun h => nomatch h) ?_
    rintro ⟨place, a, m, ha, -⟩
    cases ha
  | cons a rest ih =>
    rw [insertAll, except_bind_eq_error]
    constructor
    · rintro (hfault | ⟨m, hm, hrest⟩)
      · exact ⟨0, firstRefused_zero.mpr hfault⟩
      · obtain ⟨place, hplace⟩ := ih.mp hrest
        exact ⟨place + 1, firstRefused_succ.mpr ⟨m, hm, hplace⟩⟩
    · rintro ⟨_ | place, h⟩
      · exact Or.inl (firstRefused_zero.mp h)
      · obtain ⟨m, hm, hplace⟩ := firstRefused_succ.mp h
        exact Or.inr ⟨m, hm, ih.mpr ⟨place, hplace⟩⟩

/-- Of rows in groups, those of one group are the first that cannot be inserted. -/
theorem exists_refused_group {rows : κ → List α} {labels : List κ}
    (h : insertAll insert (labels.flatMap rows) t = .error fault) :
    ∃ before label after m place, labels = before ++ label :: after ∧
      insertAll insert (before.flatMap rows) t = .ok m ∧
      FirstRefused insert (rows label) m place fault := by
  induction labels generalizing t with
  | nil => cases h
  | cons label rest ih =>
    obtain ⟨place, hplace⟩ := insertAll_eq_error.mp h
    rw [List.flatMap_cons] at hplace
    rcases Nat.lt_or_ge place (rows label).length with hhere | hlater
    · have hgroup := hplace.take hhere
      rw [List.take_left] at hgroup
      exact ⟨[], label, rest, t, place, rfl, rfl, hgroup⟩
    · obtain ⟨later, rfl⟩ := Nat.exists_eq_add_of_le hlater
      obtain ⟨m, hm, hrest⟩ := hplace.drop
      rw [List.take_left] at hm
      rw [List.drop_left] at hrest
      obtain ⟨before, found, after, m', place, rfl, hm', hgroup⟩ := ih (insertAll_eq_error.mpr ⟨_, hrest⟩)
      refine ⟨label :: before, found, after, m', place, rfl, ?_, hgroup⟩
      rw [List.flatMap_cons]
      exact (insertAll_append insert _ _).mpr ⟨m, hm, hm'⟩

end Tables

namespace Session

variable {ε ε' β : Type} {t t' m : Tables} {e : ε} {a : α}

/-! ### Sessions that end with an error -/

/-- In calm surroundings a session on a store with tables `t` ends with an error. -/
def Fails (w : Session ε α) (t : Tables) (e : ε) : Prop :=
  ∀ around s, around.Calm → s.store = ⟨some t⟩ → (w around s).1 = .error e

namespace Fails

theorem bind {w : Session ε α} (hw : Fails w t e) (f : α → Session ε β) : Fails (w >>= f) t e := by
  intro around s calm hs
  have hfails := hw around s calm hs
  rw [bind_apply]
  rcases hrun : w around s with ⟨e' | a, s'⟩
  · rw [hrun] at hfails
    exact congrArg Except.error (Except.error.inj hfails)
  · rw [hrun] at hfails
    cases hfails

theorem ofLeads {w : Session ε α} (hw : Leads w t a t') {f : α → Session ε β} (hf : Fails (f a) t' e) :
    Fails (w >>= f) t e := by
  intro around s calm hs
  obtain ⟨s', hrun, hs'⟩ := hw around s calm hs
  rw [bind_apply, hrun]
  exact hf around s' calm hs'

theorem mapError {w : Session ε α} (hw : Fails w t e) (f : ε → ε') : Fails (w.mapError f) t (f e) := by
  intro around s calm hs
  have hfails := hw around s calm hs
  rw [Session.mapError]
  rcases hrun : w around s with ⟨e' | a, s'⟩
  · rw [hrun] at hfails
    obtain rfl := Except.error.inj hfails
    rfl
  · rw [hrun] at hfails
    cases hfails

theorem ofExcept {r : Except ε α} (hr : r = .error e) : Fails (ofExcept r) t e :=
  fun _ _ _ _ => hr

theorem statement {table : Table} {f : Tables → Except DatabaseFault (α × Tables)}
    {fault : DatabaseFault} (hf : f t = .error fault) : Fails (statement table f) t fault := by
  intro around s calm hs
  simp only [Session.statement, bind_apply, request_apply, calm.2, onTables, Store.require, hs]
  rw [show (Except.ok t >>= f) = f t from rfl, hf]

theorem transaction {seen : DatabaseFault → ε} {w : Session ε α} (hw : Fails w t e) :
    Fails (transaction seen w) t e := by
  intro around s calm hs
  have hfails := hw around { s with asked := s.asked + 1 }.opened calm hs
  rw [transaction_apply, calm.2]
  dsimp only
  rcases hrun : w around { s with asked := s.asked + 1 }.opened with ⟨e' | a, s'⟩
  · rw [hrun] at hfails
    obtain rfl := Except.error.inj hfails
    rw [hrun]
  · rw [hrun] at hfails
    cases hfails

end Fails

/-! ### Rows, batches and groups that fail -/

variable {table : Table} {insert : Tables → α → Except DatabaseFault Tables} {rows : List α}
  {place size : Nat} {fault : DatabaseFault} {kind : EntityKind} {label : String} {word : κ → String}

theorem writeRows_fails (h : Tables.insertAll insert rows t = .error fault) :
    Fails (writeRows (writeRow table insert) rows) t fault := by
  induction rows generalizing t with
  | nil => cases h
  | cons a rest ih =>
    rcases except_bind_eq_error.mp h with hfault | ⟨m, hm, hrest⟩
    · exact .bind (.statement (by rw [hfault]; rfl)) _
    · exact .ofLeads (.statement (by rw [hm]; rfl)) (ih hrest)

/-- The error names the batch that the first refused row is in. -/
theorem writeBatches_fails (hsize : 1 ≤ size) (h : Tables.FirstRefused insert rows t place fault)
    (first : Nat) (done : WriteFigures) :
    Fails (writeBatches kind label (writeRow table insert) done (batches size first rows)) t
      (.write kind label (first + place / size * size)
        (first + min (place / size * size + size) rows.length) fault) := by
  induction hn : rows.length using Nat.strongRecOn generalizing rows t place first done with
  | ind n ih =>
    subst hn
    have hplace := h.lt_length
    have hsome : ¬rows.isEmpty := by
      rw [List.isEmpty_iff_length_eq_zero]
      omega
    rw [batches, if_neg hsome, max_eq_right hsize, writeBatches]
    rcases Nat.lt_or_ge place size with hhere | hlater
    · have hrows : Fails (writeRows (writeRow table insert) (rows.take size)) t fault :=
        writeRows_fails (Tables.insertAll_eq_error.mpr ⟨place, h.take hhere⟩)
      have hbatch : Fails (transaction id (writeRows (writeRow table insert) (rows.take size))) t fault :=
        hrows.transaction
      have hfails := hbatch.mapError
        (StoreError.write kind label first (first + (rows.take size).length))
      rw [Nat.div_eq_of_lt hhere, Nat.zero_mul, Nat.add_zero, Nat.zero_add, ← List.length_take]
      exact .ofLeads (.check _) (.bind hfails _)
    · obtain ⟨later, rfl⟩ := Nat.exists_eq_add_of_le hlater
      obtain ⟨m, hm, hrest⟩ := h.drop
      have hfull : (rows.take size).length = size := by
        rw [List.length_take]
        omega
      have hshort : (rows.drop size).length < rows.length := by
        rw [List.length_drop]
        omega
      have hfails := ih _ hshort hrest (first + size) ⟨done.rows + size, done.batches + 1⟩ rfl
      rw [List.length_drop] at hfails
      rw [hfull, Nat.add_div_left _ hsize, Nat.succ_mul]
      generalize later / size * size = before at hfails ⊢
      have hstart : first + (before + size) = first + size + before := by omega
      have hstop : first + min (before + size + size) rows.length =
          first + size + min (before + size) (rows.length - size) := by omega
      rw [hstart, hstop]
      exact .ofLeads (.check _) (.ofLeads (.mapError (.transaction (writeRows_leads hm)) _) hfails)

/-- The error names the label of the first group with a row that is refused, and the batch of this row
within the group. -/
theorem writeGroups_fails {rows : κ → List α} {before after : List κ} {label : κ} (hsize : 1 ≤ size)
    (hbefore : Tables.insertAll insert (before.flatMap rows) t = .ok m)
    (h : Tables.FirstRefused insert (rows label) m place fault) (done : WriteFigures) :
    Fails (writeGroups kind word (writeRow table insert) done
        ((before ++ label :: after).map fun label => (label, batches size 0 (rows label)))) t
      (.write kind (word label) (place / size * size)
        (min (place / size * size + size) (rows label).length) fault) := by
  induction before generalizing t done with
  | nil =>
    obtain rfl := Except.ok.inj hbefore
    have hfails : Fails (writeBatches kind (word label) (writeRow table insert) done
        (batches size 0 (rows label))) t _ := writeBatches_fails hsize h 0 done
    rw [Nat.zero_add, Nat.zero_add] at hfails
    exact .bind hfails _
  | cons found rest ih =>
    rw [List.flatMap_cons] at hbefore
    obtain ⟨m', hm', hrest⟩ := (Tables.insertAll_append insert _ _).mp hbefore
    rw [← flatMap_batches size 0 (rows found)] at hm'
    exact .ofLeads (writeBatches_leads hm') (ih hrest _)

end Session

/-! ### The first row of a graph that cannot be written -/

/-- A row is the first of a graph that cannot be written.  The nodes are written before the
relationships and both label by label; the row has a place among the rows of its label. -/
inductive Graph.Refused (g : Graph) (t : Tables) :
    EntityKind → String → (rows place : Nat) → DatabaseFault → Prop
  | node {before after : List NodeType} {label : NodeType} {m : Tables} {place : Nat}
      {fault : DatabaseFault} (labels : NodeType.all = before ++ label :: after)
      (written : Tables.insertAll Tables.insertNode
        (before.flatMap fun label => g.nodes.filter (·.label = label)) (t.cleared g.projectId) = .ok m)
      (refused : Tables.FirstRefused Tables.insertNode (g.nodes.filter (·.label = label)) m place fault) :
      g.Refused t .node label.word (g.nodeCount label) place fault
  | relationship {before after : List RelationshipType} {label : RelationshipType} {m m' : Tables}
      {place : Nat} {fault : DatabaseFault}
      (nodes : Tables.insertAll Tables.insertNode g.nodesByLabel (t.cleared g.projectId) = .ok m)
      (labels : RelationshipType.all = before ++ label :: after)
      (written : Tables.insertAll Tables.insertRelationship
        (before.flatMap fun label => g.relationships.filter (·.label = label)) m = .ok m')
      (refused : Tables.FirstRefused Tables.insertRelationship
        (g.relationships.filter (·.label = label)) m' place fault) :
      g.Refused t .relationship label.word (g.relationshipCount label) place fault

/-- A row is the first of a label that is refused, so its place is one of the places of the label. -/
theorem Graph.Refused.place_lt {g : Graph} {t : Tables} {kind : EntityKind} {label : String}
    {rows place : Nat} {fault : DatabaseFault} (h : g.Refused t kind label rows place fault) :
    place < rows := by
  cases h with
  | node _ _ refused =>
    rw [Graph.nodeCount, List.countP_eq_length_filter]
    exact refused.lt_length
  | relationship _ _ _ refused =>
    rw [Graph.relationshipCount, List.countP_eq_length_filter]
    exact refused.lt_length

/-- From `start` up to `stop` there are at most `size` of the rows of a label, in a batch that the row
at a place is in. -/
structure BatchAround (size rows place start stop : Nat) : Prop where
  start_dvd : size ∣ start
  start_le : start ≤ place
  lt_stop : place < stop
  stop_le_start : stop ≤ start + size
  stop_le_rows : stop ≤ rows

theorem batchAround {size rows place : Nat} (hsize : 1 ≤ size) (hplace : place < rows) :
    BatchAround size rows place (place / size * size) (min (place / size * size + size) rows) where
  start_dvd := Nat.dvd_mul_left _ _
  start_le := Nat.div_mul_le_self _ _
  lt_stop := lt_min (Nat.lt_div_mul_add hsize) hplace
  stop_le_start := min_le_left _ _
  stop_le_rows := min_le_right _ _

namespace Session

variable {t : Tables} {size : Nat} {now : Instant} {g : Graph} {around : Surroundings}

/-! ### Imports with batches of any size -/

/-- A whole session in calm surroundings ends with the error it fails with. -/
theorem Fails.performIn {ε α : Type} {w : Session ε α} {e : ε} (hw : Fails w t e) (calm : around.Calm) :
    (w.performIn around ⟨some t⟩).outcome = .error e := by
  simp only [Session.performIn, hw around (.start ⟨some t⟩) calm rfl]

theorem importGraph_fails_check {e : StoreError} (hends : g.checkEnds = .error e) :
    Fails (importGraph size now g) t e :=
  .bind (.ofExcept hends) _

/-- The error names the batch of the first row that cannot be written. -/
theorem importGraph_fails_write {kind : EntityKind} {label : String} {rows place : Nat}
    {fault : DatabaseFault} (hsize : 1 ≤ size) (hends : g.checkEnds = .ok ())
    (h : g.Refused t kind label rows place fault) :
    Fails (importGraph size now g) t
      (.write kind label (place / size * size) (min (place / size * size + size) rows) fault) := by
  refine .ofLeads (.ofExcept hends) (.ofLeads (.check _) (.transaction ?_))
  refine .ofLeads (.mapError (clearRows_leads t _) _) ?_
  cases h with
  | node labels written refused =>
    rw [Graph.nodeCount, List.countP_eq_length_filter, Graph.nodeBatches, labels]
    exact .bind (writeGroups_fails hsize written refused ⟨0, 0⟩) _
  | relationship nodes labels written refused =>
    rw [← Graph.flatMap_nodeBatches g size] at nodes
    refine .ofLeads (writeGroups_leads nodes) ?_
    rw [Graph.relationshipCount, List.countP_eq_length_filter, Graph.relationshipBatches, labels]
    exact .bind (writeGroups_fails hsize written refused ⟨0, 0⟩) _

/-- A graph can be written, or there is a first row of it that cannot. -/
theorem exists_refused_or_written (t : Tables) (g : Graph) :
    (∃ kind label rows place fault, g.Refused t kind label rows place fault) ∨
      ∃ t₁ t₂, Tables.insertAll Tables.insertNode g.nodesByLabel (t.cleared g.projectId) = .ok t₁ ∧
        Tables.insertAll Tables.insertRelationship g.relationshipsByLabel t₁ = .ok t₂ := by
  cases hnodes : Tables.insertAll Tables.insertNode g.nodesByLabel (t.cleared g.projectId) with
  | error fault =>
    obtain ⟨before, label, after, m, place, labels, written, refused⟩ :=
      Tables.exists_refused_group hnodes
    exact Or.inl ⟨_, _, _, place, fault, .node labels written refused⟩
  | ok t₁ =>
    cases hrelationships : Tables.insertAll Tables.insertRelationship g.relationshipsByLabel t₁ with
    | error fault =>
      obtain ⟨before, label, after, m, place, labels, written, refused⟩ :=
        Tables.exists_refused_group hrelationships
      exact Or.inl ⟨_, _, _, place, fault, .relationship hnodes labels written refused⟩
    | ok t₂ => exact Or.inr ⟨t₁, t₂, rfl, hrelationships⟩

/-- The numbers of batches in the figures of an import. -/
theorem importFigures_eq (hsize : 1 ≤ size) (g : Graph) (t : Tables) :
    importFigures size g t =
      { cleared := ⟨t.nodeCount g.projectId none, t.relationshipCount g.projectId none⟩
        nodesWritten := g.nodes.length
        relationshipsWritten := g.relationships.length
        nodeBatches := (NodeType.all.map fun l => (g.nodeCount l + size - 1) / size).sum
        relationshipBatches :=
          (RelationshipType.all.map fun l => (g.relationshipCount l + size - 1) / size).sum } := by
  simp only [importFigures, Graph.nodeBatches, Graph.relationshipBatches, length_flatMap_batches hsize,
    Graph.nodeCount, Graph.relationshipCount, List.countP_eq_length_filter]

/-- **The size of batches changes nothing but the batches.**  In calm surroundings imports of a graph
with batches of any size fail alike, for the same part that does not belong or for the same first row
that cannot be written, and leave the store as it was; or all of them succeed, write and delete the same
numbers of rows and leave the same tables.  The error for a row names the batch that the row is in.  The
rows of every label are in as few batches as can be. -/
theorem importGraph_by_batch_size (t : Tables) (now : Instant) (g : Graph) :
    (∃ e, g.checkEnds = .error e ∧ ∀ size around, 1 ≤ size → around.Calm →
      let run := (importGraph size now g).performIn around ⟨some t⟩
      run.outcome = .error e ∧ run.store = ⟨some t⟩) ∨
    (g.checkEnds = .ok () ∧ ∃ kind label rows place fault, g.Refused t kind label rows place fault ∧
      ∀ size around, 1 ≤ size → around.Calm →
        let run := (importGraph size now g).performIn around ⟨some t⟩
        (∃ start stop, BatchAround size rows place start stop ∧
          run.outcome = .error (.write kind label start stop fault)) ∧
        run.store = ⟨some t⟩) ∨
    ∃ t', ∀ size around, 1 ≤ size → around.Calm →
      let run := (importGraph size now g).performIn around ⟨some t⟩
      run.outcome = .ok
        { cleared := ⟨t.nodeCount g.projectId none, t.relationshipCount g.projectId none⟩
          nodesWritten := g.nodes.length
          relationshipsWritten := g.relationships.length
          nodeBatches := (NodeType.all.map fun l => (g.nodeCount l + size - 1) / size).sum
          relationshipBatches :=
            (RelationshipType.all.map fun l => (g.relationshipCount l + size - 1) / size).sum } ∧
      run.store = ⟨some t'⟩ := by
  cases hends : g.checkEnds with
  | error e =>
    refine Or.inl ⟨e, rfl, fun size around _ calm => ?_⟩
    have hfails : Fails (importGraph size now g) t e := importGraph_fails_check hends
    exact ⟨hfails.performIn calm, importGraph_error_keeps_store _ _ _ _ _ _ (hfails.performIn calm)⟩
  | ok u =>
    refine Or.inr ?_
    rcases exists_refused_or_written t g with ⟨kind, label, rows, place, fault, h⟩ | ⟨t₁, t₂, h₁, h₂⟩
    · refine Or.inl ⟨rfl, kind, label, rows, place, fault, h, fun size around hsize calm => ?_⟩
      have hfails : Fails (importGraph size now g) t _ := importGraph_fails_write hsize hends h
      exact ⟨⟨_, _, batchAround hsize h.place_lt, hfails.performIn calm⟩,
        importGraph_error_keeps_store _ _ _ _ _ _ (hfails.performIn calm)⟩
    · refine Or.inr ⟨t₂.putMetadata (g.metadata now), fun size around hsize calm => ?_⟩
      have hleads : Leads (importGraph size now g) t _ _ := importGraph_leads hends h₁ h₂
      rw [importFigures_eq hsize] at hleads
      exact hleads.performIn calm

/-- The second of two files has a key of another project.  It is the second row of the first label, so
batches of one row fail at the second batch and batches of two rows at the first. -/
theorem importGraph_by_batch_size_couple :
    let store : Store := ⟨some (.ofGraphs [.couple "a" 0, .couple "b" 10])⟩
    let run size := (importGraph size default (.couple "a" 9)).performIn (.sound .never) store
    (Surroundings.sound .never).Calm ∧
      (run 1).outcome = .error (.write .node "File" 1 2 (.repeatedKey .nodes)) ∧
      (run 2).outcome = .error (.write .node "File" 0 2 (.repeatedKey .nodes)) ∧
      ∃ rows place, (Graph.couple "a" 9).Refused (.ofGraphs [.couple "a" 0, .couple "b" 10]) .node "File"
        rows place (.repeatedKey .nodes) ∧ BatchAround 1 rows place 1 2 ∧ BatchAround 2 rows place 0 2 := by
  intro store run
  have calm : (Surroundings.sound .never).Calm := ⟨fun _ _ => rfl, fun _ => rfl⟩
  have hone : (run 1).outcome = .error (.write .node "File" 1 2 (.repeatedKey .nodes)) := by
    decide +kernel
  have htwo : (run 2).outcome = .error (.write .node "File" 0 2 (.repeatedKey .nodes)) := by
    decide +kernel
  refine ⟨calm, hone, htwo, ?_⟩
  rcases importGraph_by_batch_size (.ofGraphs [.couple "a" 0, .couple "b" 10]) default (.couple "a" 9) with
    ⟨e, -, h⟩ | ⟨-, kind, label, rows, place, fault, hrefused, h⟩ | ⟨t', h⟩
  · cases hone.symm.trans (h 1 _ le_rfl calm).1
    cases htwo.symm.trans (h 2 _ (by decide) calm).1
  · obtain ⟨⟨start, stop, hbatch, hrun⟩, -⟩ := h 1 _ le_rfl calm
    obtain ⟨⟨start', stop', hbatch', hrun'⟩, -⟩ := h 2 _ (by decide) calm
    cases hone.symm.trans hrun
    cases htwo.symm.trans hrun'
    exact ⟨rows, place, hrefused, hbatch, hbatch'⟩
  · cases hone.symm.trans (h 1 _ le_rfl calm).1

end Session

end CodeGraph
