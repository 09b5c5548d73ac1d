import CodeGraph.Proofs.Store.Import
import CodeGraph.Store.Overview

/-!
# The stores that operations lead to

* `StoreOperation` — what can be done to an open store, in any surroundings: operations may be
  cancelled at any point, and the database may turn any statement down.
* `Store.Reachable` — the stores that any number of operations lead to, from new tables.
* `reachable_store_keeps_projects_apart` — keys are distinct, relationships stay within their
  project, figures agree with the rows, and no operation on one project changes a row of another.
-/

namespace CodeGraph

/-- What can be done to an open store. -/
inductive StoreOperation where
  | importGraph (batchSize : Nat) (now : Instant) (g : Graph)
  | clearProject (projectId : String)
  | clearAll
  | createTables
  | ensureIndexes

namespace StoreOperation

/-- The store that an operation leaves, however it ends. -/
def run (around : Surroundings) (s : Store) : StoreOperation → Store
  | importGraph size now g => ((Session.importGraph size now g).performIn around s).store
  | clearProject p => ((Session.clearProject p).performIn around s).store
  | clearAll => (Session.clearAll.performIn around s).store
  | createTables =>
    (Session.createTables.performIn around s).store
  | ensureIndexes =>
    ((Session.ask fun s => .ok s.indexReport : Session StoreError _).performIn around s).store

/-- The project that an operation is about, if it is about one. -/
def project? : StoreOperation → Option String
  | importGraph _ _ g => some g.projectId
  | clearProject p => some p
  | _ => none

end StoreOperation

/-- The stores that operations lead to. -/
inductive Store.Reachable : Store → Prop
  | fresh : Reachable Store.blank.withSchema
  | step {s : Store} (around : Surroundings) (o : StoreOperation) :
      Reachable s → Reachable (o.run around s)

/-! ### What each operation does -/

namespace Session

variable {around : Surroundings} {s s' : SessionState} {t : Tables} {p : String}

theorem clearProject_eq_ok {c : ClearFigures} (hs : s.store = ⟨some t⟩)
    (h : clearProject p around s = (.ok c, s')) :
    c = ⟨t.nodeCount p none, t.relationshipCount p none⟩ ∧ s'.store = ⟨some (t.cleared p)⟩ := by
  obtain ⟨m, m', hm, h, hm'⟩ := transaction_eq_ok h
  obtain ⟨t₀, ht₀, hc, ht'⟩ := clearRows_eq_ok (mapError_eq_ok.mp h)
  obtain rfl : t = t₀ := by simpa [hm, hs] using ht₀
  exact ⟨hc, hm'.symm.trans ht'⟩

theorem allOrNothing_clearProject (p : String) : AllOrNothing (clearProject p) :=
  .transaction (.mapError (balanced_clearRows p) _)

theorem clearAll_eq_ok {c : ClearFigures} (h : clearAll around s = (.ok c, s')) :
    s'.store = ⟨some .empty⟩ := by
  obtain ⟨m, m', -, h, hm'⟩ := transaction_eq_ok h
  obtain ⟨r, s₁, h₁, h⟩ := bind_eq_ok.mp (mapError_eq_ok.mp h)
  obtain ⟨n, s₂, h₂, h⟩ := bind_eq_ok.mp h
  obtain ⟨_, s₃, h₃, h⟩ := bind_eq_ok.mp h
  obtain ⟨-, rfl⟩ := pure_eq_ok.mp h
  obtain ⟨t, t₁, -, hr, hs₁⟩ := statement_eq_ok h₁
  obtain ⟨t₁', t₂, hs₁', hn, hs₂⟩ := statement_eq_ok h₂
  obtain ⟨t₂', t₃, hs₂', hd, hs₃⟩ := statement_eq_ok h₃
  obtain rfl : t₁ = t₁' := by simpa [hs₁] using hs₁'
  obtain rfl : t₂ = t₂' := by simpa [hs₂] using hs₂'
  simp only [Tables.deleteRelationships, Tables.deleteNodes, Tables.deleteMetadata,
    Except.ok.injEq, Prod.mk.injEq] at hr hn hd
  rw [← hm', hs₃, ← hd.2, ← hn.2, ← hr.2]
  simp [Tables.empty]

theorem allOrNothing_clearAll : AllOrNothing clearAll :=
  .transaction (.mapError (.bind (.statement _ _) fun _ => .bind (.statement _ _) fun _ =>
    .bind (.statement _ _) fun _ => .pure _) _)

/-- All that an operation that is all or nothing may leave: the store as it was, or what the
operation does when it ends well. -/
theorem performIn_store {ε α : Type} {w : Session ε α} (hw : AllOrNothing w) (around : Surroundings)
    (store : Store) :
    (w.performIn around store).store = store ∨
      ∃ a s', w around (.start store) = (.ok a, s') ∧
        (w.performIn around store).store = s'.store := by
  rcases hrun : w around (.start store) with ⟨e | a, s'⟩
  · left
    simp only [performIn, hrun]
    exact hw around _ e s' hrun
  · right
    refine ⟨a, s', rfl, ?_⟩
    simp only [performIn, hrun]

end Session

/-! ### What every operation keeps -/

/-- All that an operation may leave of consistent tables: the tables as they were, the tables with an
imported graph, those without the rows of a project, or empty ones. -/
theorem StoreOperation.run_cases {t : Tables} (hc : t.Consistent) (around : Surroundings)
    (o : StoreOperation) :
    o.run around ⟨some t⟩ = ⟨some t⟩ ∨
      (∃ size now g, o = .importGraph size now g ∧ g.Importable t ∧
        o.run around ⟨some t⟩ = ⟨some (g.importedInto now t)⟩) ∨
      (∃ q, o = .clearProject q ∧ o.run around ⟨some t⟩ = ⟨some (t.others q)⟩) ∨
      (o = .clearAll ∧ o.run around ⟨some t⟩ = ⟨some .empty⟩) := by
  cases o with
  | importGraph size now g =>
    rcases Session.performIn_store Session.allOrNothing_importGraph around ⟨some t⟩ with
      h | ⟨f, s', hrun, h⟩
    · exact Or.inl h
    · obtain ⟨himportable, hs', -⟩ := Session.importable_of_importGraph_eq_ok hc rfl hrun
      exact Or.inr (Or.inl ⟨size, now, g, rfl, himportable, h.trans hs'⟩)
  | clearProject q =>
    rcases Session.performIn_store (Session.allOrNothing_clearProject q) around ⟨some t⟩ with
      h | ⟨c, s', hrun, h⟩
    · exact Or.inl h
    · obtain ⟨-, hs'⟩ := Session.clearProject_eq_ok rfl hrun
      rw [Tables.cleared_eq_others hc] at hs'
      exact Or.inr (Or.inr (Or.inl ⟨q, rfl, h.trans hs'⟩))
  | clearAll =>
    rcases Session.performIn_store Session.allOrNothing_clearAll around ⟨some t⟩ with
      h | ⟨c, s', hrun, h⟩
    · exact Or.inl h
    · exact Or.inr (Or.inr (Or.inr ⟨rfl, h.trans (Session.clearAll_eq_ok hrun)⟩))
  | createTables =>
    rcases Session.createTables_cases around (.start ⟨some t⟩) with
      ⟨n, h⟩ | ⟨fault, n, -, h⟩
    · exact Or.inl (by simp only [run, Session.performIn, h]; rfl)
    · exact Or.inl (by simp only [run, Session.performIn, h]; rfl)
  | ensureIndexes => exact Or.inl rfl

/-- A store with consistent tables keeps them so, and the projects that an operation is not about
keep their rows. -/
theorem StoreOperation.run_consistent {t : Tables} (hc : t.Consistent) (around : Surroundings)
    (o : StoreOperation) :
    ∃ t', o.run around ⟨some t⟩ = ⟨some t'⟩ ∧ t'.Consistent ∧
      ∀ p, o.project? = some p → t'.others p = t.others p := by
  rcases run_cases hc around o with
    h | ⟨size, now, g, rfl, himportable, h⟩ | ⟨q, rfl, h⟩ | ⟨rfl, h⟩
  · exact ⟨t, h, hc, fun _ _ => rfl⟩
  · refine ⟨g.importedInto now t, h, hc.replaced (himportable.fits now), ?_⟩
    intro p hp
    obtain rfl : g.projectId = p := Option.some.inj hp
    exact Tables.others_replaced (himportable.fits now)
  · refine ⟨t.others q, h, hc.others q, ?_⟩
    intro p hp
    obtain rfl : q = p := Option.some.inj hp
    exact Tables.others_others t q
  · refine ⟨.empty, h, Tables.consistent_empty, ?_⟩
    intro p hp
    cases hp

/-- Tables are consistent after every history. -/
theorem Store.Reachable.consistent {s : Store} (h : s.Reachable) :
    ∃ t, s = ⟨some t⟩ ∧ t.Consistent := by
  induction h with
  | fresh => exact ⟨.empty, rfl, Tables.consistent_empty⟩
  | step around o _ ih =>
    obtain ⟨t, rfl, hc⟩ := ih
    obtain ⟨t', ht', hc', -⟩ := StoreOperation.run_consistent hc around o
    exact ⟨t', ht', hc'⟩

/-- **Projects are kept apart in every store that operations lead to.**  Keys are distinct; a
relationship joins two stored nodes of its own project; a project with rows has figures, and figures
agree with the rows; and an operation on one project leaves the rows of all others as they were,
although deleted nodes take their relationships along. -/
theorem reachable_store_keeps_projects_apart {s : Store} (h : s.Reachable) :
    ∃ t, s = ⟨some t⟩ ∧
      ((t.nodes.map (·.id)).Nodup ∧ (t.relationships.map (·.id)).Nodup) ∧
      (∀ r ∈ t.relationships, t.Owns r.projectId r.source ∧ t.Owns r.projectId r.target) ∧
      ((∀ n ∈ t.nodes, ∃ m ∈ t.metadata, m.projectId = n.projectId) ∧
        (∀ r ∈ t.relationships, ∃ m ∈ t.metadata, m.projectId = r.projectId) ∧
        ∀ m ∈ t.metadata, s.countNodes m.projectId none = .ok m.nodeCount ∧
          s.countRelationships m.projectId none = .ok m.relationshipCount) ∧
      ∀ around o p, o.project? = some p →
        ∃ t', StoreOperation.run around s o = ⟨some t'⟩ ∧ t'.others p = t.others p := by
  obtain ⟨t, rfl, hc⟩ := h.consistent
  refine ⟨t, rfl, ⟨hc.nodup_nodes, hc.nodup_relationships⟩, hc.owns_ends,
    ⟨hc.known_nodes, hc.known_relationships, ?_⟩, ?_⟩
  · intro m hm
    obtain ⟨hnodes, hrelationships⟩ := hc.counted m hm
    rw [hnodes, hrelationships]
    exact ⟨rfl, rfl⟩
  · intro around o p hp
    obtain ⟨t', ht', -, hothers⟩ := StoreOperation.run_consistent hc around o
    exact ⟨t', ht', hothers p hp⟩

/-- The store after the imports of two projects. -/
def Store.withCouples : Store :=
  StoreOperation.run (.sound .never)
    (StoreOperation.run (.sound .never) Store.blank.withSchema
      (.importGraph 1 default (.couple "a" 0)))
    (.importGraph 1 default (.couple "b" 10))

theorem Store.reachable_withCouples : Store.withCouples.Reachable :=
  .step _ _ (.step _ _ .fresh)

/-- One of two projects is cleared, and the other keeps its rows. -/
theorem withCouples_keeps_projects_apart :
    Store.withCouples.Reachable ∧ Store.withCouples.countNodes "b" none = .ok 2 ∧
      StoreOperation.project? (.clearProject "a") = some "a" ∧
      ∃ t t', Store.withCouples = ⟨some t⟩ ∧ (t.nodes.map (·.id)).Nodup ∧
        (∀ r ∈ t.relationships, t.Owns r.projectId r.source ∧ t.Owns r.projectId r.target) ∧
        StoreOperation.run (.sound .never) Store.withCouples (.clearProject "a") = ⟨some t'⟩ ∧
        t'.others "a" = t.others "a" := by
  have hreachable := Store.reachable_withCouples
  obtain ⟨t, ht, ⟨hnodup, -⟩, howns, -, hothers⟩ := reachable_store_keeps_projects_apart hreachable
  obtain ⟨t', ht', hsame⟩ := hothers (.sound .never) (.clearProject "a") "a" rfl
  exact ⟨hreachable, by decide +kernel, rfl, t, t', ht, hnodup, howns, ht', hsame⟩

end CodeGraph
