import CodeGraph.Proofs.Store.Figures
import CodeGraph.Proofs.Store.History
import CodeGraph.Proofs.Time.Order

/-!
# Projects by the time of their analysis

* `MetadataRow.Dated` — the figures of a graph with times of the years 0 to 9999, as an import puts them
  down.
* `Store.Dated` — the stores that operations lead to, all of whose imports have such times;
  `Store.Dated.spec` says that their rows are dated.
* `Store.projects_by_time` — times are read back from their texts, the texts are in the order of the
  times, and so the projects are listed once each, the latest analysis first.
-/

namespace CodeGraph

/-! ### Rows with times that can be read -/

/-- The figures of a graph, with times of the years 0 to 9999 and numbers of sixty-four bits. -/
def MetadataRow.Dated (m : MetadataRow) : Prop :=
  ∃ (g : Graph) (now : Instant), m = g.metadata now ∧ g.summary.Sized ∧ g.analyzedAt.Storable ∧ now.Storable

/-- A dated row gives figures, and its text is that of their time. -/
theorem MetadataRow.Dated.figures {m : MetadataRow} (h : m.Dated) :
    ∃ f, m.figures = .ok f ∧ f.projectId = m.projectId ∧ f.analyzedAt.Storable ∧
      m.analyzedAt = f.analyzedAt.columnText := by
  obtain ⟨g, now, rfl, hsized, hanalyzed, hnow⟩ := h
  exact ⟨_, Graph.figures_metadata hsized hanalyzed hnow, rfl, hanalyzed, rfl⟩

/-- What an operation puts down can be read back. -/
def StoreOperation.Dated : StoreOperation → Prop
  | importGraph _ now g => g.summary.Sized ∧ g.analyzedAt.Storable ∧ now.Storable
  | _ => True

/-- The stores that operations lead to whose times are of the years 0 to 9999. -/
inductive Store.Dated : Store → Prop
  | fresh : Dated Store.blank.withSchema
  | step {s : Store} (around : Surroundings) (o : StoreOperation) :
      Dated s → o.Dated → Dated (o.run around s)

/-- An operation leaves rows as they were or puts down the figures of its graph. -/
theorem StoreOperation.Dated.run {t t' : Tables} {around : Surroundings} {o : StoreOperation}
    (ho : o.Dated) (hc : t.Consistent) (hrows : ∀ m ∈ t.metadata, m.Dated)
    (hrun : o.run around ⟨some t⟩ = ⟨some t'⟩) : ∀ m ∈ t'.metadata, m.Dated := by
  have htables {u : Tables} (h : o.run around ⟨some t⟩ = ⟨some u⟩) : t' = u :=
    Option.some.inj (congrArg Store.tables (hrun.symm.trans h))
  rcases run_cases hc around o with h | ⟨size, now, g, rfl, -, h⟩ | ⟨q, -, h⟩ | ⟨-, h⟩
  · rw [htables h]
    exact hrows
  · rw [htables h]
    intro m hm
    rcases List.mem_append.mp hm with hold | hnew
    · exact hrows m (Tables.mem_others_metadata.mp hold).1
    · exact ⟨g, now, List.mem_singleton.mp hnew, ho⟩
  · rw [htables h]
    intro m hm
    exact hrows m (Tables.mem_others_metadata.mp hm).1
  · rw [htables h]
    intro m hm
    cases hm

/-- Tables are consistent and their rows dated after every dated history. -/
theorem Store.Dated.spec {s : Store} (h : s.Dated) :
    ∃ t, s = ⟨some t⟩ ∧ t.Consistent ∧ ∀ m ∈ t.metadata, m.Dated := by
  induction h with
  | fresh => exact ⟨.empty, rfl, Tables.consistent_empty, fun m hm => nomatch hm⟩
  | step around o _ ho ih =>
    obtain ⟨t, rfl, hc, hrows⟩ := ih
    obtain ⟨t', hrun, hc', -⟩ := StoreOperation.run_consistent hc around o
    exact ⟨t', hrun, hc', ho.run hc hrows hrun⟩

/-! ### The list of projects -/

theorem mapM_eq_ok {α β ε : Type} {f : α → Except ε β} {g : α → β} {as : List α}
    (h : ∀ a ∈ as, f a = .ok (g a)) : as.mapM f = .ok (as.map g) := by
  induction as with
  | nil => rfl
  | cons a as ih =>
    obtain ⟨ha, has⟩ := List.forall_mem_cons.mp h
    rw [List.mapM_cons, ha, ih has]
    rfl

/-- Rows are listed by their texts, the greatest first. -/
theorem Store.pairwise_latestFirst (rows : List MetadataRow) :
    (latestFirst rows).Pairwise fun a b => (compare b.analyzedAt a.analyzedAt).isLE = true := by
  apply List.pairwise_mergeSort
  · intro a b c hab hbc
    exact Std.TransCmp.isLE_trans hbc hab
  · intro a b
    rw [Std.OrientedOrd.eq_swap (a := a.analyzedAt)]
    cases compare b.analyzedAt a.analyzedAt <;> rfl

/-- **Projects are listed by the time of their analysis.**  A time of the years 0 to 9999 is read back
from its text, the bytes of two such texts are in the order of the times, and every store lists each
project that has figures once, with the figures of that project, the latest analysis first. -/
theorem Store.projects_by_time :
    (∀ t : Instant, t.Storable → Instant.read t.columnText = .ok t) ∧
    (∀ t t' : Instant, t.Storable → t'.Storable →
      compare (Text.Utf8.encode t.columnText) (Text.Utf8.encode t'.columnText) = compare t t') ∧
    ∀ s : Store, s.Dated → ∃ tables listed, s = ⟨some tables⟩ ∧ s.projects = .ok listed ∧
      (listed.map (·.projectId)).Perm (tables.metadata.map (·.projectId)) ∧
      (listed.map (·.projectId)).Nodup ∧
      (∀ f ∈ listed, s.projectFigures f.projectId = .ok (some f)) ∧
      listed.Pairwise fun a b => (compare b.analyzedAt a.analyzedAt).isLE = true := by
  refine ⟨fun t => Instant.read_columnText, fun t t' => Instant.compare_encode_columnText,
    fun s hs => ?_⟩
  obtain ⟨tables, rfl, hc, hdated⟩ := hs.spec
  choose! read hread using fun m (hm : m ∈ tables.metadata) => (hdated m hm).figures
  have hperm : (latestFirst tables.metadata).Perm tables.metadata := List.mergeSort_perm _ _
  have hlatest (m : MetadataRow) (hm : m ∈ latestFirst tables.metadata) := hread m (hperm.mem_iff.mp hm)
  have hids : ((latestFirst tables.metadata).map read).map (·.projectId) =
      (latestFirst tables.metadata).map (·.projectId) := by
    rw [List.map_map]
    exact List.map_congr_left fun m hm => (hlatest m hm).2.1
  have hidsPerm := hperm.map (·.projectId)
  have hlisted : Store.projects ⟨some tables⟩ = .ok ((latestFirst tables.metadata).map read) := by
    have hrows : (latestFirst tables.metadata).mapM MetadataRow.figures = _ :=
      mapM_eq_ok fun m hm => (hlatest m hm).1
    show ((latestFirst tables.metadata).mapM MetadataRow.figures).mapError StoreError.database = _
    rw [hrows]
    rfl
  refine ⟨tables, (latestFirst tables.metadata).map read, rfl, hlisted, ?_, ?_, ?_, ?_⟩
  · rw [hids]
    exact hidsPerm
  · rw [hids]
    exact hidsPerm.nodup_iff.mpr hc.nodup_metadata
  · intro f hf
    obtain ⟨m, hm, rfl⟩ := List.mem_map.mp hf
    obtain ⟨hfigures, hid, -⟩ := hlatest m hm
    have hfound : tables.metadata? (read m).projectId = some m := by
      rw [hid]
      exact (find?_key_eq_some hc.nodup_metadata).mpr ⟨hperm.mem_iff.mp hm, rfl⟩
    simp only [projectFigures, require, bind, Except.bind, hfound, hfigures]
    rfl
  · rw [List.pairwise_map]
    refine (pairwise_latestFirst tables.metadata).imp_of_mem fun {a b} ha hb hle => ?_
    obtain ⟨-, -, hstorable, htext⟩ := hlatest a ha
    obtain ⟨-, -, hstorable', htext'⟩ := hlatest b hb
    rw [htext, htext', Instant.compare_columnText hstorable' hstorable] at hle
    exact hle

/-- A graph that was analysed within a leap second, after so many nanoseconds of it. -/
def Graph.inLeapSecond (projectId : String) (k nanos : Nat) : Graph :=
  { Graph.couple projectId k with analyzedAt := ⟨2016, 12, 31, 23, 59, 60, nanos⟩ }

/-- The store after the imports of two projects, of which the second was analysed first. -/
def Store.withLeapSecond : Store :=
  StoreOperation.run (.sound .never)
    (StoreOperation.run (.sound .never) Store.blank.withSchema
      (.importGraph 1 (Graph.couple "a" 0).analyzedAt (.inLeapSecond "a" 0 500000000)))
    (.importGraph 1 (Graph.couple "b" 0).analyzedAt (.inLeapSecond "b" 10 0))

/-- Times without and with a fraction of a leap second are read back and are in order, and so are the
two projects that were analysed then. -/
theorem Store.projects_by_time_leap :
    let whole := (Graph.inLeapSecond "b" 10 0).analyzedAt
    let half := (Graph.inLeapSecond "a" 0 500000000).analyzedAt
    (whole.Storable ∧ half.Storable) ∧ Store.withLeapSecond.Dated ∧
      Instant.read half.columnText = .ok half ∧
      compare (Text.Utf8.encode whole.columnText) (Text.Utf8.encode half.columnText) = .lt ∧
      ∃ listed, Store.withLeapSecond.projects = .ok listed ∧
        (listed.map (·.projectId)).Perm ["a", "b"] ∧
        listed.Pairwise fun a b => (compare b.analyzedAt a.analyzedAt).isLE = true := by
  intro whole half
  have hwhole : whole.Storable := by decide
  have hhalf : half.Storable := by decide
  have hdated : Store.withLeapSecond.Dated :=
    .step _ _ (.step _ _ .fresh ⟨by decide, hhalf, by decide⟩) ⟨by decide, hwhole, by decide⟩
  obtain ⟨hread, horder, hlist⟩ := projects_by_time
  obtain ⟨tables, listed, htables, hlisted, hids, -, -, hsorted⟩ := hlist _ hdated
  have hbytes : compare whole half = .lt := by decide
  have hrows : tables.metadata.map (·.projectId) = ["a", "b"] := by
    have hstore : Store.withLeapSecond.tables.map (·.metadata.map (·.projectId)) = some ["a", "b"] := by
      decide +kernel
    rw [htables] at hstore
    exact Option.some.inj hstore
  rw [hrows] at hids
  exact ⟨⟨hwhole, hhalf⟩, hdated, hread half hhalf, (horder whole half hwhole hhalf).trans hbytes,
    listed, hlisted, hids, hsorted⟩

end CodeGraph
