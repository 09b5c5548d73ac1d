import CodeGraph.Proofs.Report.Flags

/-!
# Flags along cycles

* `Cycle.step?` — a package and the one after it, both read by their numbers; `Cycle.map_step?_range` says
  that no number along a cycle is out of range.
* `Dependencies.markByNumber?` — flags with every package read by its number.
* `Dependencies.marked` — all that dependencies can come to.
* `Dependencies.mark_by_steps` — the main result.
-/

namespace CodeGraph

namespace Cycle

/-- The package with a number and the one after it, which is the first one after the last.  There are none
if a number is out of range. -/
def step? (c : Cycle) (i : Nat) : Option (String × String) := do
  let p ← c.packages[i]?
  let q ← c.packages[(i + 1) % c.packages.length]?
  pure (p, q)

theorem length_edges (c : Cycle) : c.edges.length = c.packages.length := by
  rw [edges_eq_zip c.packages, List.length_zip, List.length_rotate, Nat.min_self]

theorem step?_eq_getElem? (c : Cycle) (i : Nat) : c.step? i = c.edges[i]? := by
  by_cases hi : i < c.packages.length
  · have hnext : (i + 1) % c.packages.length < c.packages.length := Nat.mod_lt _ (Nat.zero_lt_of_lt hi)
    rw [step?, List.getElem?_eq_getElem hi, List.getElem?_eq_getElem hnext, edges_eq_zip c.packages]
    refine (List.getElem?_zip_eq_some.mpr ⟨List.getElem?_eq_getElem hi, ?_⟩).symm
    rw [List.getElem?_rotate hi]
    exact List.getElem?_eq_getElem hnext
  · have hnone : c.edges[i]? = none := List.getElem?_eq_none (c.length_edges ▸ Nat.not_lt.mp hi)
    rw [hnone, step?, List.getElem?_eq_none (Nat.not_lt.mp hi)]
    rfl

/-- Both numbers are in range for every package of a cycle, also if it has one package or none. -/
theorem map_step?_range (c : Cycle) :
    (List.range c.packages.length).map c.step? = c.edges.map some := by
  rw [← c.length_edges]
  refine List.ext_getElem (by simp) fun i hi _ => ?_
  simp [step?_eq_getElem?]

theorem mem_edges_iff_step? {c : Cycle} {pair : String × String} :
    pair ∈ c.edges ↔ ∃ i, c.step? i = some pair := by
  simp only [step?_eq_getElem?]
  exact List.mem_iff_getElem?

end Cycle

namespace Dependencies

/-- The dependencies with flags along several cycles, where every package is read by its number; none if a
number is out of range. -/
def markByNumber? (d : Dependencies) (cs : List Cycle) : Option (List Dependency) :=
  cs.foldlM (fun es c => (List.range c.packages.length).foldlM
    (fun es i => (c.step? i).map (flag d.packages es)) es) d.edges

theorem markByNumber?_eq (d : Dependencies) (cs : List Cycle) :
    d.markByNumber? cs = some (d.mark cs).edges := by
  have hcycle (es : List Dependency) (c : Cycle) :
      (List.range c.packages.length).foldlM (fun es i => (c.step? i).map (flag d.packages es)) es =
        some (c.edges.foldl (flag d.packages) es) := by
    rw [← List.foldlM_map (g := fun es o => Option.map (flag d.packages es) o), c.map_step?_range,
      List.foldlM_map]
    exact List.foldlM_pure
  rw [markByNumber?]
  simp only [hcycle]
  exact List.foldlM_pure

/-- The dependencies between packages, with flags along the cycles of several rounds. -/
def marked (ps : List Package) (rounds : List (List Cycle)) : Dependencies :=
  rounds.foldl mark (ofPackages ps)

theorem sound_marked (ps : List Package) (rounds : List (List Cycle)) : (marked ps rounds).Sound := by
  have hkept {d : Dependencies} (h : d.Sound) : (rounds.foldl mark d).Sound := by
    induction rounds generalizing d with
    | nil => exact h
    | cons cs rounds ih => exact ih (h.mark cs)
  exact hkept (sound_ofPackages ps)

/-- **Flags go to the steps of the cycles, and nothing else changes.**  Whatever dependencies there are,
flagged in any number of rounds before, and whatever the cycles are, a dependency is flagged afterwards
exactly if it was before or if its ends stand next to each other on one of the cycles, the first package
next after the last.  All dependencies stay, with their weights.  No number along a cycle is out of range,
and it makes no difference in which order the cycles come and how often. -/
theorem mark_by_steps (ps : List Package) (rounds : List (List Cycle)) {cs cs' : List Cycle}
    (hsame : ∀ c, c ∈ cs' ↔ c ∈ cs) :
    let d := marked ps rounds
    (d.mark cs).packages = d.packages ∧ (d.mark cs).externals = d.externals ∧
    List.Forall₂ (fun e e' =>
      e'.source = e.source ∧ e'.target = e.target ∧ e'.weight = e.weight ∧
        (e'.inCycle = true ↔
          e.inCycle = true ∨ ∃ c ∈ cs, ∃ i, c.step? i = some (e.source, e.target)))
      d.edges (d.mark cs).edges ∧
    d.markByNumber? cs = some (d.mark cs).edges ∧
    d.mark cs' = d.mark cs := by
  intro d
  have hd : d.Sound := sound_marked ps rounds
  refine ⟨rfl, rfl, ?_, d.markByNumber?_eq cs, ?_⟩
  · rw [hd.mark_eq, List.forall₂_map_right_iff, List.forall₂_same]
    refine fun e _ => ⟨rfl, rfl, rfl, ?_⟩
    simp only [inCycle_flaggedBy, Cycle.mem_edges_iff_step?]
  · rw [hd.mark_eq, hd.mark_eq]
    refine congrArg (Dependencies.mk d.packages · d.externals) (List.map_congr_left fun e _ => ?_)
    have hflag : (flaggedBy (cs'.flatMap Cycle.edges) e).inCycle =
        (flaggedBy (cs.flatMap Cycle.edges) e).inCycle := by
      rw [Bool.eq_iff_iff, inCycle_flaggedBy, inCycle_flaggedBy]
      simp only [hsame]
    exact congrArg (Dependency.mk e.source e.target e.weight) hflag

/-- A cycle by way of a package that is not known, one without packages and one of a single package. -/
def oddCycles : List Cycle := [⟨["a", "x", "c"]⟩, ⟨[]⟩, ⟨["b"]⟩]

/-- The way back from the last package to the first is the only one that is there. -/
theorem mark_by_steps_odd :
    let d := marked Report.bypass.packages [[⟨["a", "b"]⟩]]
    (∀ c, c ∈ oddCycles.reverse ++ oddCycles ↔ c ∈ oddCycles) ∧
    d.edges = [⟨"a", "b", 1, true⟩, ⟨"a", "c", 1, false⟩, ⟨"b", "c", 1, false⟩, ⟨"c", "a", 1, false⟩] ∧
    (d.mark oddCycles).edges =
      [⟨"a", "b", 1, true⟩, ⟨"a", "c", 1, false⟩, ⟨"b", "c", 1, false⟩, ⟨"c", "a", 1, true⟩] ∧
    d.markByNumber? oddCycles = some (d.mark oddCycles).edges ∧
    d.mark (oddCycles.reverse ++ oddCycles) = d.mark oddCycles := by
  intro d
  have hsame : ∀ c, c ∈ oddCycles.reverse ++ oddCycles ↔ c ∈ oddCycles := by
    intro c
    rw [List.mem_append, List.mem_reverse, or_self]
  have hd : d = Report.bypassDependencies.mark [⟨["a", "b"]⟩] := by
    show (ofPackages Report.bypass.packages).mark _ = _
    rw [Report.ofPackages_bypass]
  obtain ⟨-, -, -, hnumbers, hmark⟩ := mark_by_steps Report.bypass.packages [[⟨["a", "b"]⟩]] hsame
  refine ⟨hsame, ?_, ?_, hnumbers, hmark⟩
  · rw [hd]
    decide
  · rw [hd]
    decide

end Dependencies

end CodeGraph
