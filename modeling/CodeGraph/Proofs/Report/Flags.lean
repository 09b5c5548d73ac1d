import CodeGraph.Proofs.Graph.Relationships
import CodeGraph.Proofs.Imports.Closed
import CodeGraph.Proofs.Report.Basic

/-!
# Flags on dependencies

* `Unforked` — no package of a component leads to two packages of it; `Unforked.mem_edges` says that
  there is only one cycle in such a component.
* `Dependencies.flagged` — dependencies with their flags; `Dependencies.inCycle_flagged`,
  `Dependencies.inCycle_of_unforked`, `Dependencies.exists_inCycle` say which are flagged.
* `Report.inCycle_iff` — which dependencies a report flags, and the graph with it.
-/

namespace CodeGraph

open Relation (ReflTransGen)

variable {leads : String → String → Prop} {packages : List String} {c : Cycle} {p q : String}

/-- No package that is connected with `p` leads to two packages that are. -/
def Unforked (leads : String → String → Prop) (p : String) : Prop :=
  ∀ x y z, Connected leads p x → Connected leads p y → Connected leads p z →
    leads x y → leads x z → y = z

/-- Where a component has no forks, a cycle in it comes along everything that leads on within it. -/
theorem Unforked.mem_edges (h : Unforked leads p) (hc : ImportCycle leads packages c)
    (hwithin : ∀ r ∈ c.packages, Connected leads p r) (hpq : Connected leads p q)
    (hlead : leads p q) : (p, q) ∈ c.edges := by
  have hon : ∀ x ∈ c.packages, ∀ y, Connected leads p y → leads x y → (x, y) ∈ c.edges := by
    intro x hx y hy hxy
    obtain ⟨z, hz⟩ := Cycle.exists_mem_edges hx
    have hmem := (Cycle.mem_of_mem_edges hz).2
    have hyz : y = z := h x y z (hwithin x hx) hy (hwithin z hmem) hxy (hc.closed _ hz)
    exact hyz ▸ hz
  -- the cycle cannot be left on the way to `p`
  obtain ⟨x, hx, -⟩ := hc.exists_ne
  have hway : ∀ y, ReflTransGen leads x y → ReflTransGen leads y p → y ∈ c.packages := by
    intro y hxy
    induction hxy with
    | refl => exact fun _ => hx
    | @tail y z hxy hyz ih =>
      intro hzp
      have hz : Connected leads p z := ⟨((hwithin x hx).1.trans hxy).tail hyz, hzp⟩
      exact (Cycle.mem_of_mem_edges (hon y (ih (hzp.head hyz)) z hz hyz)).2
  exact hon p (hway p (hwithin x hx).2 .refl) q hpq hlead

namespace Dependencies

variable {ps : List Package} {e : Dependency}

/-- The dependencies between packages, with a flag on those along the reported cycles. -/
def flagged (ps : List Package) : Dependencies := (ofPackages ps).mark (ofPackages ps).cycles

theorem dependsOn_flagged (ps : List Package) :
    (flagged ps).DependsOn = (ofPackages ps).DependsOn := by
  funext p q
  exact propext ((sound_ofPackages ps).dependsOn_mark _)

theorem dependsOn_of_mem_flagged (h : e ∈ (flagged ps).edges) :
    (ofPackages ps).DependsOn e.source e.target :=
  dependsOn_flagged ps ▸ ⟨e, h, rfl, rfl⟩

theorem inCycle_flagged (h : e ∈ (flagged ps).edges) :
    e.inCycle = true ↔ ∃ c, ClosedOn (ofPackages ps).DependsOn (ofPackages ps).packages c ∧
      (e.source, e.target) ∈ c.edges := by
  rw [inCycle_mark h]
  simp only [mem_cycles_iff_closedOn]

/-- Flags are right. -/
theorem reaches_of_inCycle (h : e ∈ (flagged ps).edges) (hin : e.inCycle = true) :
    ReflTransGen (ofPackages ps).DependsOn e.target e.source := by
  obtain ⟨c, hc, hedge⟩ := (inCycle_mark h).mp hin
  obtain ⟨hsource, htarget⟩ := Cycle.mem_of_mem_edges hedge
  exact (importCycle_of_mem_cycles hc).closed.reaches htarget hsource

/-- In a component without forks no flag is missing. -/
theorem inCycle_of_unforked (h : e ∈ (flagged ps).edges)
    (hunforked : Unforked (ofPackages ps).DependsOn e.source)
    (hback : ReflTransGen (ofPackages ps).DependsOn e.target e.source) : e.inCycle = true := by
  have hlead := dependsOn_of_mem_flagged h
  have hconnected : Connected (ofPackages ps).DependsOn e.source e.target := ⟨.single hlead, hback⟩
  obtain ⟨c, hc, hwithin⟩ := exists_cycle_of_connected hconnected hlead.ne
  exact (inCycle_mark h).mpr
    ⟨c, hc, hunforked.mem_edges (importCycle_of_mem_cycles hc) hwithin hconnected hlead⟩

/-- A component of several packages has a flag. -/
theorem exists_inCycle (h : Connected (ofPackages ps).DependsOn p q) (hne : p ≠ q) :
    ∃ e ∈ (flagged ps).edges, e.inCycle = true ∧
      Connected (ofPackages ps).DependsOn p e.source := by
  obtain ⟨c, hc, hwithin⟩ := exists_cycle_of_connected h hne
  have hcycle := importCycle_of_mem_cycles hc
  obtain ⟨x, hx, -⟩ := hcycle.exists_ne
  obtain ⟨y, hxy⟩ := Cycle.exists_mem_edges hx
  obtain ⟨e, he, rfl, rfl⟩ : (flagged ps).DependsOn x y := dependsOn_flagged ps ▸ hcycle.closed _ hxy
  exact ⟨e, he, (inCycle_mark he).mpr ⟨c, hc, hxy⟩, hwithin _ hx⟩

end Dependencies

namespace Report

/-- What a report says of dependencies if cycles are asked for. -/
theorem dependencies_eq {settings : AnalysisSettings} {p : Project} {signal : Signal} {r : Report}
    (h : (ofProject settings p).outcome signal = .ok r) (hcycles : settings.cycles = true) :
    r.dependencies = Dependencies.flagged p.packages := by
  rw [ofProject_eq_ok h]
  simp only [found, hcycles, if_true]
  rfl

/-- **A dependency is flagged if it lies along a cycle that is closed on a first route.**  So every
flag is right: the source can be reached from the target.  Not every dependency in a cycle is
flagged, but some of every component are, and all of a component where no package leads to two others
of it.  The graph has one relationship for every dependency, with the same flag. -/
theorem inCycle_iff {settings : AnalysisSettings} {p : Project} {signal : Signal} {r : Report}
    (h : (ofProject settings p).outcome signal = .ok r) (hcycles : settings.cycles = true)
    (ids : Identities) (now : Instant) (projectId : String) :
    let d := r.dependencies
    (∀ e ∈ d.edges,
      (e.inCycle = true ↔
        ∃ c, ClosedOn d.DependsOn d.packages c ∧ (e.source, e.target) ∈ c.edges) ∧
      (e.inCycle = true → ReflTransGen d.DependsOn e.target e.source) ∧
      (Unforked d.DependsOn e.source →
        (e.inCycle = true ↔ ReflTransGen d.DependsOn e.target e.source))) ∧
    (∀ a b, a ≠ b → Connected d.DependsOn a b →
      ∃ e ∈ d.edges, e.inCycle = true ∧ Connected d.DependsOn a e.source) ∧
    List.Forall₂ (Directory.Depicts ⟨projectId, p, r⟩ ids) d.edges
      ((Graph.ofReport ids now projectId p r).relationships.filter (·.label = .dependsOn)) := by
  intro d
  have hd : d = Dependencies.flagged p.packages := dependencies_eq h hcycles
  refine ⟨fun e he => ?_, fun a b hne hab => ?_, ?_⟩
  · rw [hd] at he ⊢
    rw [Dependencies.dependsOn_flagged]
    exact ⟨Dependencies.inCycle_flagged he, Dependencies.reaches_of_inCycle he, fun hunforked =>
      ⟨Dependencies.reaches_of_inCycle he, Dependencies.inCycle_of_unforked he hunforked⟩⟩
  · rw [hd, Dependencies.dependsOn_flagged] at hab ⊢
    exact Dependencies.exists_inCycle hab hne
  · refine Graph.forall₂_depicts ids now projectId p r fun e he => ?_
    have hflagged : e ∈ d.edges := he
    rw [hd] at hflagged
    have hlead := Dependencies.dependsOn_of_mem_flagged hflagged
    exact ⟨Dependencies.mem_packages.mp hlead.source_mem,
      Dependencies.mem_packages.mp hlead.target_mem⟩

/-- A package of one file with imports. -/
def importer (path : String) (imports : List String) : Package :=
  ⟨path, path, path,
    [⟨path ++ ".go", path, imports.map fun i => ⟨i, none, 3⟩, [], [], [], "", 4⟩]⟩

/-- `a` leads to `c` straight and by way of `b`, and `c` leads back. -/
def bypass : Project :=
  ⟨"/p", none, [importer "a" ["b", "c"], importer "b" ["c"], importer "c" ["a"]], []⟩

/-- The dependencies before they are flagged. -/
def bypassDependencies : Dependencies :=
  ⟨["a", "b", "c"], [⟨"a", "b", 1, false⟩, ⟨"a", "c", 1, false⟩, ⟨"b", "c", 1, false⟩,
    ⟨"c", "a", 1, false⟩], []⟩

theorem ofPackages_bypass : Dependencies.ofPackages bypass.packages = bypassDependencies := by
  simp (disch := decide) [Dependencies.ofPackages, Dependencies.edgesOf, Dependencies.filesOf,
    Dependencies.importsOf, bypass, importer, sortedDistinct_eq_self, bypassDependencies]

/-- The search does not come back to `c` by the way that goes straight to it. -/
theorem cycles_bypass : bypassDependencies.cycles = [⟨["a", "b", "c"]⟩] := by
  have hpaths : sortedDistinct bypassDependencies.packages = ["a", "b", "c"] :=
    sortedDistinct_eq_self (by decide)
  have hfound : (Dependencies.search bypassDependencies.targets ["a", "b", "c"]).found =
      [⟨["a", "b", "c"]⟩] := by
    decide
  rw [Dependencies.cycles, hpaths, hfound, List.mergeSort_singleton]
  rfl

/-- The dependency of `a` on `c` is in a cycle, and is not flagged. -/
theorem not_inCycle_bypass : ∃ r, (ofProject {} bypass).outcome .never = .ok r ∧
    r.dependencies.edges = [⟨"a", "b", 1, true⟩, ⟨"a", "c", 1, false⟩, ⟨"b", "c", 1, true⟩,
      ⟨"c", "a", 1, true⟩] ∧
    ReflTransGen r.dependencies.DependsOn "c" "a" ∧
    ¬ ∃ c, ClosedOn r.dependencies.DependsOn r.dependencies.packages c ∧ ("a", "c") ∈ c.edges := by
  have hreport : (ofProject {} bypass).outcome .never = .ok (found {} bypass) :=
    ofProject_never bypass (by decide)
  have hedges : (found {} bypass).dependencies.edges = [⟨"a", "b", 1, true⟩, ⟨"a", "c", 1, false⟩,
      ⟨"b", "c", 1, true⟩, ⟨"c", "a", 1, true⟩] := by
    rw [dependencies_eq hreport rfl, Dependencies.flagged, ofPackages_bypass, cycles_bypass]
    decide
  obtain ⟨hflags, -, -⟩ :=
    inCycle_iff hreport rfl (.ofPolicy [] "demo" .random) ⟨1970, 1, 1, 0, 0, 0, 0⟩ "demo"
  have hunflagged := hflags ⟨"a", "c", 1, false⟩ (hedges ▸ by decide)
  refine ⟨_, hreport, hedges, ?_, fun hclosed => ?_⟩
  · exact .single ⟨⟨"c", "a", 1, true⟩, hedges ▸ by decide, rfl, rfl⟩
  · exact Bool.noConfusion (hunflagged.1.mpr hclosed)

end Report

end CodeGraph
