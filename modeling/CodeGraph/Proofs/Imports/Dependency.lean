import CodeGraph.Imports.Dependency
import CodeGraph.Proofs.Imports.Cycle
import Mathlib.Data.Prod.Lex
import Mathlib.Logic.Relation

/-!
# Which packages depend on which

* `Dependencies.DependsOn` — one package depends on another; `Dependencies.dependsOn_ofPackages` reads
  it off the imports of files.
* `Dependencies.pairwise_edges` — dependencies in strictly ascending order.
* `Dependencies.mem_targets`, `Dependencies.pairwise_targets` — the packages that a package depends on,
  in ascending order.
* `Dependencies.mem_cycles`, `Dependencies.pairwise_cycles` — every cycle that the search closes, in
  strictly ascending order.
* `Dependencies.Sound` — dependencies lead between known packages, no two between the same ones;
  `Dependencies.Sound.mark_eq` says what flags come to then, and `Dependencies.Sound.dependsOn_mark` that
  they change nothing else.
-/

namespace CodeGraph

namespace Dependencies

variable {d : Dependencies} {ps : List Package} {p q : String}

/-- One package depends on another. -/
def DependsOn (d : Dependencies) (p q : String) : Prop :=
  ∃ e ∈ d.edges, e.source = p ∧ e.target = q

theorem mem_targets : q ∈ d.targets p ↔ d.DependsOn p q := by
  simp only [targets, List.mem_map, List.mem_filter, decide_eq_true_eq, DependsOn, and_assoc]

/-! ### The dependencies of packages -/

theorem mem_filesOf {path : String} {f : SourceFile} :
    f ∈ filesOf ps path ↔ ∃ k ∈ ps, k.importPath = path ∧ f ∈ k.files := by
  simp only [filesOf, List.mem_flatMap, List.mem_filter, decide_eq_true_eq, and_assoc]

/-- One package depends on another if one of its files imports it. -/
theorem dependsOn_ofPackages : (ofPackages ps).DependsOn p q ↔
    p ≠ q ∧ (∃ k ∈ ps, k.importPath = p ∧ ∃ f ∈ k.files, ∃ i ∈ f.imports, i.path = q) ∧
      ∃ k ∈ ps, k.importPath = q := by
  simp only [DependsOn, ofPackages, edgesOf, List.mem_flatMap, List.mem_map, mem_sortedDistinct,
    List.mem_filter, mem_filesOf, importsOf, Bool.and_eq_true, decide_eq_true_eq,
    List.contains_iff_mem]
  constructor
  · rintro ⟨e, ⟨source, -, target, ⟨⟨f, ⟨k, hk, hpath, hf⟩, i, hi, htarget⟩, hne, k', hk', hpath'⟩,
      rfl⟩, rfl, rfl⟩
    exact ⟨hne.symm, ⟨k, hk, hpath, f, hf, i, hi, htarget⟩, k', hk', hpath'⟩
  · rintro ⟨hne, ⟨k, hk, hpath, f, hf, i, hi, htarget⟩, k', hk', hpath'⟩
    exact ⟨_, ⟨p, ⟨k, hk, hpath⟩, q, ⟨⟨f, ⟨k, hk, hpath, hf⟩, i, hi, htarget⟩, hne.symm, k', hk',
      hpath'⟩, rfl⟩, rfl, rfl⟩

theorem mem_packages : p ∈ (ofPackages ps).packages ↔ ∃ k ∈ ps, k.importPath = p := by
  rw [ofPackages, List.mem_map]

theorem DependsOn.ne (h : (ofPackages ps).DependsOn p q) : p ≠ q := (dependsOn_ofPackages.mp h).1

theorem DependsOn.source_mem (h : (ofPackages ps).DependsOn p q) : p ∈ (ofPackages ps).packages := by
  obtain ⟨-, ⟨k, hk, hpath, -⟩, -⟩ := dependsOn_ofPackages.mp h
  exact mem_packages.mpr ⟨k, hk, hpath⟩

theorem DependsOn.target_mem (h : (ofPackages ps).DependsOn p q) : q ∈ (ofPackages ps).packages :=
  mem_packages.mpr (dependsOn_ofPackages.mp h).2.2

/-- Dependencies stand in strictly ascending order, by source and then by target. -/
theorem pairwise_edges (ps : List Package) : (ofPackages ps).edges.Pairwise fun e e' =>
    toLex (e.source, e.target) < toLex (e'.source, e'.target) := by
  simp only [Prod.Lex.toLex_lt_toLex]
  refine List.pairwise_flatMap.mpr ⟨fun source _ => ?_, ?_⟩
  · refine List.pairwise_map.mpr ((pairwise_sortedDistinct _).imp fun hprecedes => ?_)
    exact .inr ⟨rfl, precedes_text.mp hprecedes⟩
  · refine (pairwise_sortedDistinct _).imp fun hprecedes e he e' he' => ?_
    obtain ⟨_, -, rfl⟩ := List.mem_map.mp he
    obtain ⟨_, -, rfl⟩ := List.mem_map.mp he'
    exact .inl (precedes_text.mp hprecedes)

/-- The packages that a package depends on stand in ascending order. -/
theorem pairwise_targets (ps : List Package) (p : String) :
    ((ofPackages ps).targets p).Pairwise (· < ·) := by
  refine List.pairwise_map.mpr (((pairwise_edges ps).filter _).imp_of_mem fun he he' hlt => ?_)
  have hsource := of_decide_eq_true (List.mem_filter.mp he).2
  have hsource' := of_decide_eq_true (List.mem_filter.mp he').2
  -- among dependencies of one source the targets decide
  rcases Prod.Lex.toLex_lt_toLex.mp hlt with hsources | ⟨-, htargets⟩
  · exact absurd (hsource.trans hsource'.symm) hsources.ne
  · exact htargets

/-! ### Cycles -/

theorem mergeSort_lessOrEqual (cs : List Cycle) :
    cs.mergeSort Cycle.lessOrEqual = sortedBy Cycle.packages cs := by
  have horder : Cycle.lessOrEqual = fun a b => (compare a.packages b.packages).isLE := by
    funext a b
    exact textsLessOrEqual_eq_isLE a.packages b.packages
  rw [horder]
  rfl

theorem mem_cycles {c : Cycle} :
    c ∈ d.cycles ↔ c ∈ (search d.targets (sortedDistinct d.packages)).found := by
  rw [cycles, mergeSort_lessOrEqual]
  constructor
  · intro h
    exact (sortedBy_perm _ _).mem_iff.mp ((firstOfEach_sublist _ _).subset h)
  · intro h
    obtain ⟨c', hc', hpackages⟩ :=
      exists_mem_firstOfEach Cycle.packages ((sortedBy_perm Cycle.packages _).mem_iff.mpr h)
    have hsame : c' = c := congrArg Cycle.mk hpackages
    exact hsame ▸ hc'

/-- Cycles stand in strictly ascending order. -/
theorem pairwise_cycles (d : Dependencies) :
    (d.cycles.map (·.packages)).Pairwise (· < ·) := by
  rw [cycles, mergeSort_lessOrEqual, List.pairwise_map]
  exact (pairwise_firstOfEach (pairwise_sortedBy Cycle.packages _)).imp precedes_texts.mp

/-! ### Flags -/

/-- Dependencies lead between packages that are known, and no two of them between the same ones. -/
structure Sound (d : Dependencies) : Prop where
  nodup : (d.edges.map ends).Nodup
  within : ∀ e ∈ d.edges, e.source ∈ d.packages ∧ e.target ∈ d.packages

theorem sound_ofPackages (ps : List Package) : (ofPackages ps).Sound where
  nodup := List.pairwise_map.mpr ((pairwise_edges ps).imp fun hlt heq => hlt.ne (congrArg toLex heq))
  within e he := by
    have hlead : (ofPackages ps).DependsOn e.source e.target := ⟨e, he, rfl, rfl⟩
    exact ⟨hlead.source_mem, hlead.target_mem⟩

/-- A dependency with a flag if its ends are one of several pairs. -/
def flaggedBy (pairs : List (String × String)) (e : Dependency) : Dependency :=
  { e with inCycle := e.inCycle || pairs.contains (ends e) }

theorem flaggedBy_of_notMem {pairs : List (String × String)} {e : Dependency} (h : ends e ∉ pairs) :
    flaggedBy pairs e = e := by
  have hnone : pairs.contains (ends e) = false :=
    Bool.eq_false_of_not_eq_true (mt List.contains_iff_mem.mp h)
  rw [flaggedBy, hnone, Bool.or_false]

theorem flaggedBy_append (pairs more : List (String × String)) (e : Dependency) :
    flaggedBy (pairs ++ more) e = flaggedBy more (flaggedBy pairs e) := by
  simp only [flaggedBy, ends, List.contains_append, Bool.or_assoc]

theorem map_ends_flaggedBy (pairs : List (String × String)) (es : List Dependency) :
    (es.map (flaggedBy pairs)).map ends = es.map ends := by
  rw [List.map_map]
  rfl

/-- Where no two dependencies have the same ends, only the first can have those looked for. -/
theorem flagFirst_eq_map {pair : String × String} {es : List Dependency} (h : (es.map ends).Nodup) :
    flagFirst pair es = es.map (flaggedBy [pair]) := by
  induction es with
  | nil => rfl
  | cons e es ih =>
    obtain ⟨he, hes⟩ := List.nodup_cons.mp h
    by_cases hpair : ends e = pair
    · have hrest : es.map (flaggedBy [pair]) = es := by
        refine (List.map_congr_left fun e' he' => flaggedBy_of_notMem ?_).trans (List.map_id _)
        rw [List.mem_singleton, ← hpair]
        exact fun heq => he (List.mem_map.mpr ⟨e', he', heq⟩)
      have hflag : flaggedBy [pair] e = { e with inCycle := true } := by
        rw [flaggedBy, List.contains_iff_mem.mpr (List.mem_singleton.mpr hpair), Bool.or_true]
      rw [flagFirst, if_pos hpair, List.map_cons, hrest, hflag]
    · have hother : flaggedBy [pair] e = e := flaggedBy_of_notMem (mt List.mem_singleton.mp hpair)
      rw [flagFirst, if_neg hpair, List.map_cons, hother, ih hes]

namespace Sound

theorem map_flaggedBy (h : d.Sound) (pairs : List (String × String)) :
    Sound { d with edges := d.edges.map (flaggedBy pairs) } where
  nodup := by
    rw [map_ends_flaggedBy]
    exact h.nodup
  within e he := by
    obtain ⟨e', he', rfl⟩ := List.mem_map.mp he
    exact h.within e' he'

/-- A pair that is not found, at either of the two places where it is looked for, changes nothing. -/
theorem flag_eq (h : d.Sound) (pair : String × String) :
    flag d.packages d.edges pair = d.edges.map (flaggedBy [pair]) := by
  rw [flag]
  split
  next => exact flagFirst_eq_map h.nodup
  next hknown =>
    refine ((List.map_congr_left fun e he => flaggedBy_of_notMem fun hmem => ?_).trans
      (List.map_id _)).symm
    obtain rfl := List.mem_singleton.mp hmem
    obtain ⟨hsource, htarget⟩ := h.within e he
    exact hknown (Bool.and_eq_true_iff.mpr
      ⟨List.contains_iff_mem.mpr hsource, List.contains_iff_mem.mpr htarget⟩)

theorem foldl_flag_eq (h : d.Sound) (pairs : List (String × String)) :
    pairs.foldl (flag d.packages) d.edges = d.edges.map (flaggedBy pairs) := by
  induction pairs generalizing d with
  | nil =>
    exact ((List.map_congr_left fun e _ => flaggedBy_of_notMem List.not_mem_nil).trans
      (List.map_id _)).symm
  | cons pair pairs ih =>
    have hrest := ih (h.map_flaggedBy [pair])
    rw [List.foldl_cons, h.flag_eq]
    refine hrest.trans ?_
    rw [List.map_map]
    exact List.map_congr_left fun e _ => (flaggedBy_append [pair] pairs e).symm

/-- All rounds together flag the dependencies whose ends follow each other on one of the cycles. -/
theorem mark_eq (h : d.Sound) (cs : List Cycle) :
    d.mark cs = { d with edges := d.edges.map (flaggedBy (cs.flatMap Cycle.edges)) } := by
  rw [mark, ← List.foldl_flatMap, h.foldl_flag_eq]

theorem mark (h : d.Sound) (cs : List Cycle) : (d.mark cs).Sound := by
  rw [h.mark_eq]
  exact h.map_flaggedBy _

theorem mem_mark_edges (h : d.Sound) {cs : List Cycle} {e : Dependency} : e ∈ (d.mark cs).edges ↔
    ∃ e' ∈ d.edges, e = flaggedBy (cs.flatMap Cycle.edges) e' := by
  rw [h.mark_eq]
  simp only [List.mem_map, eq_comm]

theorem dependsOn_mark (h : d.Sound) (cs : List Cycle) :
    (d.mark cs).DependsOn p q ↔ d.DependsOn p q := by
  constructor
  · rintro ⟨e, he, hsource, htarget⟩
    obtain ⟨e', he', rfl⟩ := h.mem_mark_edges.mp he
    exact ⟨e', he', hsource, htarget⟩
  · rintro ⟨e, he, hsource, htarget⟩
    exact ⟨_, h.mem_mark_edges.mpr ⟨e, he, rfl⟩, hsource, htarget⟩

end Sound

theorem inCycle_flaggedBy {cs : List Cycle} {e : Dependency} :
    (flaggedBy (cs.flatMap Cycle.edges) e).inCycle = true ↔
      e.inCycle = true ∨ ∃ c ∈ cs, (e.source, e.target) ∈ c.edges := by
  rw [flaggedBy, Bool.or_eq_true, List.contains_iff_mem, List.mem_flatMap]
  rfl

/-- Before any cycle is known no dependency has a flag. -/
theorem inCycle_ofPackages {e : Dependency} (h : e ∈ (ofPackages ps).edges) : e.inCycle = false := by
  obtain ⟨source, -, he⟩ := List.mem_flatMap.mp h
  obtain ⟨target, -, rfl⟩ := List.mem_map.mp he
  rfl

/-- A dependency is flagged if it lies along one of the cycles. -/
theorem inCycle_mark {cs : List Cycle} {e : Dependency} (h : e ∈ ((ofPackages ps).mark cs).edges) :
    e.inCycle = true ↔ ∃ c ∈ cs, (e.source, e.target) ∈ c.edges := by
  obtain ⟨e', he', rfl⟩ := (sound_ofPackages ps).mem_mark_edges.mp h
  rw [inCycle_flaggedBy, inCycle_ofPackages he']
  exact or_iff_right Bool.false_ne_true

end Dependencies

end CodeGraph
