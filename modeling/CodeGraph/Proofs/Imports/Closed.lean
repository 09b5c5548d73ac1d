import CodeGraph.Proofs.Imports.Route
import Mathlib.Data.Set.Subsingleton

/-!
# The cycles that are reported

* `Cycle.Closed` — every package of a cycle leads to the next one, and the last to the first;
  `Cycle.Closed.reaches` says that each of them is reached from each.
* `Dependencies.ImportCycle` — what a reported cycle is; `Dependencies.cycles_closed` is the main
  statement on them.
* `Dependencies.IsComponent` — packages that reach each other; `Dependencies.cycles_by_component` is the
  main statement on where cycles are reported.
-/

namespace CodeGraph

open Relation (ReflTransGen TransGen)

namespace Cycle

variable {leads : String → String → Prop} {c : Cycle} {p q : String}

/-- Every package of a cycle leads to the next one, and the last to the first. -/
def Closed (leads : String → String → Prop) (c : Cycle) : Prop := ∀ e ∈ c.edges, leads e.1 e.2

/-- A list and the package after its end, along which every package leads to the next. -/
theorem closed_of_isChain {last : String} {ps : List String} (h : (p :: ps ++ [last]).IsChain leads) :
    ∀ e ∈ (p :: ps).zip (ps ++ [last]), leads e.1 e.2 := by
  induction ps generalizing p with
  | nil =>
    intro e he
    obtain rfl := List.mem_singleton.mp he
    exact (List.isChain_cons_cons.mp h).1
  | cons q ps ih =>
    obtain ⟨hlead, hrest⟩ := List.isChain_cons_cons.mp h
    rw [List.cons_append, List.zip_cons_cons]
    exact List.forall_mem_cons.mpr ⟨hlead, ih hrest⟩

theorem isChain_of_closed {last : String} {ps : List String}
    (h : ∀ e ∈ (p :: ps).zip (ps ++ [last]), leads e.1 e.2) : (p :: ps ++ [last]).IsChain leads := by
  induction ps generalizing p with
  | nil => exact List.isChain_pair.mpr (h (p, last) List.mem_cons_self)
  | cons q ps ih =>
    rw [List.cons_append, List.zip_cons_cons] at h
    obtain ⟨hlead, hrest⟩ := List.forall_mem_cons.mp h
    exact List.isChain_cons_cons.mpr ⟨hlead, ih hrest⟩

theorem closed_cons {ps : List String} : Closed leads ⟨p :: ps⟩ ↔ (p :: ps ++ [p]).IsChain leads :=
  ⟨isChain_of_closed, closed_of_isChain⟩

/-- Along a cycle every package is reached from every other. -/
theorem Closed.reaches (h : c.Closed leads) (hp : p ∈ c.packages) (hq : q ∈ c.packages) :
    ReflTransGen leads p q := by
  obtain ⟨_ | ⟨first, rest⟩⟩ := c
  · cases hp
  · -- the way from the first package back to it comes to all of them in order
    have hways : (first :: rest ++ [first]).Pairwise (ReflTransGen leads) :=
      List.isChain_iff_pairwise.mp ((closed_cons.mp h).imp fun _ _ => ReflTransGen.single)
    have hback : ReflTransGen leads p first :=
      (List.pairwise_append.mp hways).2.2 p hp first List.mem_cons_self
    rcases List.mem_cons.mp hq with rfl | hq
    · exact hback
    · exact hback.trans
        ((List.pairwise_cons.mp hways).1 q (List.mem_append_left _ hq))

end Cycle

/-! ### Cycles on routes -/

variable {leads : String → String → Prop} {packages packages' : List String} {c : Cycle}
  {p q : String}

/-- Two or more distinct packages, the least of them first, each of which leads to the next one and the
last to the first. -/
structure ImportCycle (leads : String → String → Prop) (packages : List String) (c : Cycle) :
    Prop where
  several : 2 ≤ c.packages.length
  nodup : c.packages.Nodup
  within : c.packages ⊆ packages
  closed : c.Closed leads
  leastFirst : Cycle.LeastFirst c.packages

/-- A cycle that is closed on a first route, where no package leads to itself. -/
theorem ClosedOn.importCycle (h : ClosedOn leads packages c) (hirrefl : ∀ p, ¬ leads p p) :
    ImportCycle leads packages c := by
  obtain ⟨route, p, q, hfirst, hlead, hq, rfl⟩ := h
  obtain ⟨before, after, rfl, -, hpart⟩ := hfirst.exists_part hq
  rw [hpart]
  have hrotated := Cycle.canonical_isRotated (q :: after)
  have hend : (q :: after).getLast? = some p := by
    rw [← List.getLast?_append_cons]
    exact hfirst.ends
  refine ⟨?_, ?_, ?_, ?_, Cycle.leastFirst_canonical _⟩
  · rw [hrotated.perm.length_eq]
    cases after with
    | nil =>
      rw [List.getLast?_singleton, Option.some_inj] at hend
      exact absurd (hend ▸ hlead) (hirrefl p)
    | cons x after => simp
  · exact hrotated.nodup_iff.mpr (List.nodup_append.mp hfirst.nodup).2.1
  · exact fun x hx => hfirst.within (List.mem_append_right _ (Cycle.mem_canonical.mp hx))
  · -- the route from `q` to its end goes on to `q`
    obtain ⟨-, hchain, -⟩ := List.isChain_append.mp hfirst.chain
    have haround : (q :: after ++ [q]).IsChain leads := by
      refine List.isChain_append.mpr ⟨hchain, List.isChain_singleton q, fun x hx y hy => ?_⟩
      rw [hend] at hx
      obtain rfl := Option.mem_some_iff.mp hx
      obtain rfl := Option.mem_some_iff.mp hy
      exact hlead
    exact fun e he => Cycle.closed_cons.mpr haround e (Cycle.mem_edges_canonical.mp he)

theorem FirstRoute.of_mem_iff {route : List String} (h : FirstRoute leads packages route p)
    (hsame : ∀ q, q ∈ packages ↔ q ∈ packages') : FirstRoute leads packages' route p where
  chain := h.chain
  nodup := h.nodup
  within q hq := (hsame q).mp (h.within hq)
  ends := h.ends
  first other hother hends :=
    h.first other ⟨hother.chain, hother.nodup, fun q hq => (hsame q).mpr (hother.within hq)⟩ hends

/-- Routes do not depend on the order in which packages are listed. -/
theorem closedOn_congr (hsame : ∀ q, q ∈ packages ↔ q ∈ packages') :
    ClosedOn leads packages c ↔ ClosedOn leads packages' c := by
  constructor
  · rintro ⟨route, p, q, hfirst, hrest⟩
    exact ⟨route, p, q, hfirst.of_mem_iff hsame, hrest⟩
  · rintro ⟨route, p, q, hfirst, hrest⟩
    exact ⟨route, p, q, hfirst.of_mem_iff fun q => (hsame q).symm, hrest⟩

/-! ### Packages that reach each other -/

/-- Two packages reach each other. -/
def Connected (leads : String → String → Prop) (p q : String) : Prop :=
  ReflTransGen leads p q ∧ ReflTransGen leads q p

theorem Connected.refl (p : String) : Connected leads p p := ⟨.refl, .refl⟩

theorem Connected.symm (h : Connected leads p q) : Connected leads q p := ⟨h.2, h.1⟩

theorem Connected.trans {r : String} (h : Connected leads p q) (h' : Connected leads q r) :
    Connected leads p r := ⟨h.1.trans h'.1, h'.2.trans h.2⟩

theorem ImportCycle.connected (h : ImportCycle leads packages c) (hp : p ∈ c.packages)
    (hq : q ∈ c.packages) : Connected leads p q :=
  ⟨h.closed.reaches hp hq, h.closed.reaches hq hp⟩

/-- The first two packages of a cycle. -/
theorem ImportCycle.exists_ne (h : ImportCycle leads packages c) :
    ∃ p ∈ c.packages, ∃ q ∈ c.packages, p ≠ q := by
  obtain ⟨_ | ⟨p, _ | ⟨q, rest⟩⟩⟩ := c
  · cases h.several
  · exact absurd h.several (by simp)
  · have hne : p ≠ q := fun heq =>
      (List.nodup_cons.mp h.nodup).1 (heq ▸ List.mem_cons_self)
    exact ⟨p, List.mem_cons_self, q, List.mem_cons_of_mem _ List.mem_cons_self, hne⟩

/-- A package that is connected with another one leads to one of those that both are connected with. -/
theorem Connected.exists_lead (h : Connected leads p q) (hne : p ≠ q) :
    ∃ r, leads p r ∧ Connected leads p r := by
  rcases h.1.cases_head with heq | ⟨r, hlead, hon⟩
  · exact absurd heq hne
  · exact ⟨r, hlead, .single hlead, hon.trans h.2⟩

namespace Dependencies

variable {next : String → List String} {found : List Cycle} {left : List String}

/-- A component of several packages whose packages have all been left is met by a cycle: the one of
them that was left first leads to another one. -/
theorem Settled.exists_onFound (h : Settled next found left) (hp : p ∈ left)
    (hconnected : Connected (Leads next) p q) (hne : p ≠ q) :
    ∃ r, Connected (Leads next) p r ∧ OnFound found r := by
  induction h generalizing p q with
  | nil => cases hp
  | @cons x left himports hleft ih =>
    rcases List.mem_cons.mp hp with rfl | hp
    · obtain ⟨r, hlead, hr⟩ := hconnected.exists_lead hne
      rcases himports r hlead with hbefore | hfound
      · by_cases hloop : p = r
        · subst hloop
          exact ih hbefore hconnected hne
        · obtain ⟨t, ht, hfound⟩ := ih hbefore hr.symm (Ne.symm hloop)
          exact ⟨t, hr.trans ht, hfound⟩
      · exact ⟨r, hr, hfound⟩
    · exact ih hp hconnected hne

/-! ### Reported cycles -/

variable {d : Dependencies} {ps : List Package}

theorem leads_targets (d : Dependencies) : Leads d.targets = d.DependsOn := by
  funext p q
  exact propext mem_targets

theorem closed_targets (ps : List Package) : ∀ p ∈ sortedDistinct (ofPackages ps).packages,
    (ofPackages ps).targets p ⊆ sortedDistinct (ofPackages ps).packages :=
  fun _ _ _ hq => mem_sortedDistinct.mpr (mem_targets.mp hq).target_mem

/-- The cycles of a project are those that are closed on first routes. -/
theorem mem_cycles_iff_closedOn :
    c ∈ (ofPackages ps).cycles ↔ ClosedOn (ofPackages ps).DependsOn (ofPackages ps).packages c := by
  have horder : InOrder (ofPackages ps).targets (sortedDistinct (ofPackages ps).packages) :=
    ⟨(pairwise_sortedDistinct _).imp precedes_text.mp, pairwise_targets ps, closed_targets ps⟩
  rw [mem_cycles, mem_found_search horder, leads_targets]
  exact closedOn_congr fun q => mem_sortedDistinct

theorem importCycle_of_mem_cycles (h : c ∈ (ofPackages ps).cycles) :
    ImportCycle (ofPackages ps).DependsOn (ofPackages ps).packages c :=
  (mem_cycles_iff_closedOn.mp h).importCycle fun _ hself => hself.ne rfl

/-- **Every reported cycle is a closed path of imports, and none is reported twice.**  It has two or
more packages, all distinct, each of which depends on the next one and the last on the first; it starts
with the least of them.  The cycles stand in strictly ascending order, and no two of them are
rotations of each other. -/
theorem cycles_closed (ps : List Package) :
    let d := ofPackages ps
    (∀ c ∈ d.cycles, ImportCycle d.DependsOn d.packages c) ∧
      (d.cycles.map (·.packages)).Pairwise (· < ·) ∧ d.cycles.Nodup ∧
      ∀ c ∈ d.cycles, ∀ c' ∈ d.cycles, c.packages.IsRotated c'.packages → c = c' := by
  intro d
  have hsorted : (d.cycles.map (·.packages)).Pairwise (· < ·) := pairwise_cycles d
  refine ⟨fun c hc => importCycle_of_mem_cycles hc, hsorted, ?_, fun c hc c' hc' hrotated => ?_⟩
  · refine (List.pairwise_map.mp hsorted).imp fun hlt heq => ?_
    subst heq
    exact lt_irrefl _ hlt
  · have hcycle := importCycle_of_mem_cycles hc
    exact congrArg Cycle.mk (Cycle.eq_of_isRotated hcycle.nodup hcycle.leastFirst
      (importCycle_of_mem_cycles hc').leastFirst hrotated)

/-- The packages that reach a package and are reached from it. -/
def component (d : Dependencies) (p : String) : Set String := {q | Connected d.DependsOn p q}

/-- Packages that reach each other, all of them. -/
def IsComponent (d : Dependencies) (C : Set String) : Prop := ∃ p ∈ d.packages, C = d.component p

theorem component_eq (h : Connected d.DependsOn p q) : d.component p = d.component q := by
  ext r
  exact ⟨fun hr => h.symm.trans hr, fun hr => h.trans hr⟩

/-- A component is that of any of its packages. -/
theorem IsComponent.eq_component {C : Set String} (h : d.IsComponent C) (hp : p ∈ C) :
    C = d.component p := by
  obtain ⟨q, -, rfl⟩ := h
  exact component_eq hp

/-- A component of several packages is met by a cycle, which cannot leave it. -/
theorem exists_cycle_of_connected (h : Connected (ofPackages ps).DependsOn p q) (hne : p ≠ q) :
    ∃ c ∈ (ofPackages ps).cycles, ∀ r ∈ c.packages, Connected (ofPackages ps).DependsOn p r := by
  have hp : p ∈ (ofPackages ps).packages := by
    obtain ⟨r, hlead, -⟩ := h.exists_lead hne
    exact hlead.source_mem
  obtain ⟨left, hall, hsettled⟩ := exists_settled (closed_targets ps)
  rw [← leads_targets] at h
  obtain ⟨r, hr, c, hc, hmem⟩ :=
    hsettled.exists_onFound (hall (mem_sortedDistinct.mpr hp)) h hne
  rw [leads_targets] at hr
  refine ⟨c, mem_cycles.mpr hc, fun t ht => hr.trans ?_⟩
  exact (importCycle_of_mem_cycles (mem_cycles.mpr hc)).connected hmem ht

theorem cycles_eq_nil_iff (ps : List Package) :
    (ofPackages ps).cycles = [] ↔ ∀ p, ¬ TransGen (ofPackages ps).DependsOn p p := by
  constructor
  · intro hnone p hloop
    obtain ⟨q, hlead, hback⟩ := TransGen.head'_iff.mp hloop
    obtain ⟨c, hc, -⟩ := exists_cycle_of_connected ⟨.single hlead, hback⟩ hlead.ne
    exact List.not_mem_nil (hnone ▸ hc)
  · intro hacyclic
    refine List.eq_nil_iff_forall_not_mem.mpr fun c hc => ?_
    have hcycle := importCycle_of_mem_cycles hc
    obtain ⟨p, hp, q, hq, hne⟩ := hcycle.exists_ne
    obtain ⟨r, hlead, hr⟩ := (hcycle.connected hp hq).exists_lead hne
    exact hacyclic p (TransGen.head' hlead hr.2)

/-- **Cycles are reported in every component of several packages, and nowhere else.**  The search
ends, the unbounded one with exactly the outcome of the one that is run; every component of two or more
packages has a reported cycle within it, and every reported cycle lies within exactly one of them.  So
no cycle is reported exactly when no package depends on itself by way of others. -/
theorem cycles_by_component (ps : List Package) :
    let d := ofPackages ps
    let packages := sortedDistinct d.packages
    (∀ s, Looks d.targets [] ⟨[], []⟩ packages s ↔ s = search d.targets packages) ∧
      (∀ C, d.IsComponent C → C.Nontrivial → ∃ c ∈ d.cycles, ∀ p ∈ c.packages, p ∈ C) ∧
      (∀ c ∈ d.cycles, ∃! C, d.IsComponent C ∧ C.Nontrivial ∧ ∀ p ∈ c.packages, p ∈ C) ∧
      (d.cycles = [] ↔ ∀ p, ¬ TransGen d.DependsOn p p) := by
  intro d packages
  have hends : Looks d.targets [] ⟨[], []⟩ packages (search d.targets packages) :=
    looks_search (closed_targets ps)
  refine ⟨fun s => ⟨fun hs => hs.unique hends, ?_⟩, fun C hC hseveral => ?_, fun c hc => ?_,
    cycles_eq_nil_iff ps⟩
  · rintro rfl
    exact hends
  · obtain ⟨p, hp, q, hq, hne⟩ := hseveral
    obtain rfl := hC.eq_component hp
    exact exists_cycle_of_connected hq hne
  · have hcycle := importCycle_of_mem_cycles hc
    obtain ⟨p, hp, q, hq, hne⟩ := hcycle.exists_ne
    refine ⟨d.component p, ⟨⟨p, hcycle.within hp, rfl⟩, ?_, fun r hr => hcycle.connected hp hr⟩, ?_⟩
    · exact ⟨p, Connected.refl p, q, hcycle.connected hp hq, hne⟩
    · rintro C ⟨hC, -, hmem⟩
      exact hC.eq_component (hmem p hp)

end Dependencies

end CodeGraph
