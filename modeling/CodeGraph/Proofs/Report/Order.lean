import CodeGraph.Proofs.Imports.Dependency
import CodeGraph.Proofs.Report.Listing

/-!
# Packages in any order

* `SymbolTable.ofPackages_perm`, `resolveCalls_perm` and the lemmas on `Dependencies` — where import paths
  are distinct, what is found does not depend on the order of packages.
* `Metrics.SameUpToOrder`, `Report.SameUpToOrder` — figures and degradations are found in another order.
* `Run.Alike` — two runs take the same steps; `Report.ofProject_perm` says that the analyses of one project
  with its packages in two orders do, and end with the same report up to order.
-/

namespace CodeGraph

variable {ps qs : List Package}

/-! ### Symbols -/

/-- The symbol table is in the order of import paths. -/
theorem SymbolTable.ofPackages_perm (h : ps.Perm qs) (hpaths : (ps.map (·.importPath)).Nodup) :
    ofPackages ps = ofPackages qs := by
  have hpackages : firstOfEach Package.importPath (sortedBy Package.importPath ps.reverse) =
      firstOfEach Package.importPath (sortedBy Package.importPath qs.reverse) := by
    refine firstOfEach_sortedBy_congr fun path => ?_
    have hreverse : ps.reverse.Perm qs.reverse :=
      (List.reverse_perm ps).trans (h.trans (List.reverse_perm qs).symm)
    have hnodup : (ps.reverse.map (·.importPath)).Nodup :=
      ((List.reverse_perm ps).map _).nodup_iff.mpr hpaths
    exact find?_key_perm hreverse hnodup path
  rw [ofPackages, ofPackages, hpackages]

/-! ### Dependencies -/

namespace Dependencies

theorem packages_perm (h : ps.Perm qs) : (ofPackages ps).packages.Perm (ofPackages qs).packages :=
  h.map _

/-- Whether a path belongs to a package. -/
theorem contains_perm (h : ps.Perm qs) (path : String) :
    (ps.map (·.importPath)).contains path = (qs.map (·.importPath)).contains path :=
  (h.map _).contains_eq

theorem edges_perm (h : ps.Perm qs) (hpaths : (ps.map (·.importPath)).Nodup) :
    (ofPackages ps).edges = (ofPackages qs).edges := by
  have hsources : sortedDistinct (ps.map (·.importPath)) = sortedDistinct (qs.map (·.importPath)) :=
    sortedDistinct_congr fun _ => (h.map _).mem_iff
  simp only [ofPackages, edgesOf, filesOf, hsources, contains_perm h, filter_key_perm h hpaths]

theorem externals_perm (h : ps.Perm qs) : (ofPackages ps).externals = (ofPackages qs).externals := by
  simp only [ofPackages, contains_perm h]
  exact sortedDistinct_congr fun _ => ((h.flatMap_right _).filter _).mem_iff

/-- The search goes through packages in their order. -/
theorem cycles_perm (h : ps.Perm qs) (hpaths : (ps.map (·.importPath)).Nodup) :
    (ofPackages ps).cycles = (ofPackages qs).cycles := by
  have htargets : (ofPackages ps).targets = (ofPackages qs).targets := by
    funext source
    rw [targets, targets, edges_perm h hpaths]
  have hpackages : sortedDistinct (ofPackages ps).packages = sortedDistinct (ofPackages qs).packages :=
    sortedDistinct_congr fun _ => (packages_perm h).mem_iff
  rw [cycles, cycles, htargets, hpackages]

end Dependencies

/-! ### Calls -/

/-- Calls with one caller stand in one package. -/
theorem resolveCalls_perm (r : Resolver) (h : ps.Perm qs) (hpaths : (ps.map (·.importPath)).Nodup) :
    resolveCalls r ps = resolveCalls r qs := by
  have howner : ∀ k : Package, ∀ e ∈ k.functions.flatMap (r.edgesOf k.importPath),
      e.caller.package = k.importPath := by
    intro k e he
    obtain ⟨f, -, he⟩ := List.mem_flatMap.mp he
    obtain ⟨site, -, he⟩ := List.mem_flatMap.mp he
    obtain ⟨x, -, rfl⟩ := List.mem_map.mp he
    rfl
  refine firstOfEach_sortedBy_congr fun key => ?_
  have hkey (e : CallEdge) (he : (e.key == key) = true) : e.caller.package = key.caller.package :=
    congrArg (fun k : CallKey => k.caller.package) (eq_of_beq he)
  exact find?_flatMap_perm h hpaths howner hkey

namespace Report

theorem entryPoints_perm (h : ps.Perm qs) : (entryPoints ps).Perm (entryPoints qs) :=
  (h.filter _).flatMap_right _

/-- Chains are listed by entry points in their order; which of them are cut off is said in another
order. -/
theorem chainsOf_perm (g : CallGraph) (depth : Nat) {entries entries' : List FunctionId}
    (h : entries.Perm entries') :
    (chainsOf g depth entries).1 = (chainsOf g depth entries').1 ∧
      (chainsOf g depth entries).2.Perm (chainsOf g depth entries').2 := by
  have hentries : sortedDistinct entries = sortedDistinct entries' :=
    sortedDistinct_congr fun _ => h.mem_iff
  rw [chainsOf, chainsOf, hentries]
  exact ⟨rfl, h.filterMap _⟩

end Report

/-! ### Figures -/

/-- Figures may be added in any order. -/
instance : RightCommutative PackageMetrics.absorb where
  right_comm m a b := by simp only [PackageMetrics.absorb, Nat.add_right_comm]

/-- The figures of the same functions and packages, in another order. -/
structure Metrics.SameUpToOrder (m m' : Metrics) : Prop where
  functions : m.functions.Perm m'.functions
  packages : m.packages.Perm m'.packages
  totals : m.totals = m'.totals

theorem Metrics.ofPackages_perm (h : ps.Perm qs) (calls : List CallEdge) :
    (ofPackages ps calls).SameUpToOrder (ofPackages qs calls) := by
  have hpackages := h.map PackageMetrics.ofPackage
  exact ⟨h.flatMap_right _, hpackages, hpackages.foldl_eq _⟩

/-! ### Reports -/

namespace Report

/-- Two reports say the same; figures, degradations and the list of packages may be in another order. -/
structure SameUpToOrder (r r' : Report) : Prop where
  packages : r.dependencies.packages.Perm r'.dependencies.packages
  edges : r.dependencies.edges = r'.dependencies.edges
  externals : r.dependencies.externals = r'.dependencies.externals
  cycles : r.cycles = r'.cycles
  implementations : r.implementations = r'.implementations
  calls : r.calls = r'.calls
  entryChains : r.entryChains = r'.entryChains
  metrics : Option.Rel Metrics.SameUpToOrder r.metrics r'.metrics
  degradations : r.degradations.Perm r'.degradations

/-- The packages of a project may stand in any order. -/
theorem found_perm (settings : AnalysisSettings) {p : Project} (h : p.packages.Perm qs)
    (hpaths : (p.packages.map (·.importPath)).Nodup) :
    (found settings p).SameUpToOrder (found settings { p with packages := qs }) := by
  have hsymbols : SymbolTable.ofProject p = SymbolTable.ofProject { p with packages := qs } :=
    SymbolTable.ofPackages_perm h hpaths
  have hcalls (r : Resolver) : resolveCalls r p.packages = resolveCalls r qs :=
    resolveCalls_perm r h hpaths
  have hcycles := Dependencies.cycles_perm h hpaths
  have hedges := Dependencies.edges_perm h hpaths
  obtain ⟨hchains, htruncated⟩ :=
    chainsOf_perm (.ofEdges (found settings p).calls) settings.chainDepth.toNat (entryPoints_perm h)
  simp only [found, hsymbols, hcalls] at hchains htruncated ⊢
  refine ⟨Dependencies.packages_perm h, ?_, Dependencies.externals_perm h, ?_, rfl, rfl, hchains, ?_,
    htruncated.append_left _⟩
  · simp only [(Dependencies.sound_ofPackages _).mark_eq, hcycles, hedges]
  · simp only [hcycles]
  · dsimp only
    cases settings.metrics with
    | false => exact .none
    | true => exact .some (Metrics.ofPackages_perm h _)

end Report

/-! ### The analysis -/

namespace Run

variable {ε α β γ δ : Type} {R : α → β → Prop}

/-- Two runs look at the signal and report events alike.  They stop with the same error, or they end with
related results. -/
def Alike (R : α → β → Prop) (r : Run ε α) (r' : Run ε β) : Prop :=
  ∀ signal s, (∃ e m, r signal s = (.error e, m) ∧ r' signal s = (.error e, m)) ∨
    ∃ a b m, r signal s = (.ok a, m) ∧ r' signal s = (.ok b, m) ∧ R a b

namespace Alike

theorem pure {a : α} {b : β} (h : R a b) : Alike R (Pure.pure a : Run ε α) (Pure.pure b) :=
  fun _ s => Or.inr ⟨a, b, s, rfl, rfl, h⟩

/-- After the same first step. -/
theorem bind (r : Run ε γ) {f : γ → Run ε α} {g : γ → Run ε β} (h : ∀ c, Alike R (f c) (g c)) :
    Alike R (r >>= f) (r >>= g) := by
  intro signal s
  rw [bind_apply, bind_apply]
  cases r signal s with
  | mk outcome m =>
    cases outcome with
    | error e => exact Or.inl ⟨e, m, rfl, rfl⟩
    | ok c => exact h c signal m

theorem outcome {r : Run ε α} {r' : Run ε β} (h : Alike R r r') (signal : Signal) :
    (∃ e, r.outcome signal = .error e ∧ r'.outcome signal = .error e) ∨
      ∃ a b, r.outcome signal = .ok a ∧ r'.outcome signal = .ok b ∧ R a b := by
  unfold Run.outcome perform
  rcases h signal ⟨0, []⟩ with ⟨e, m, hr, hr'⟩ | ⟨a, b, m, hr, hr', hab⟩
  · exact Or.inl ⟨e, by rw [hr], by rw [hr']⟩
  · exact Or.inr ⟨a, b, by rw [hr], by rw [hr'], hab⟩

end Alike

end Run

/-- **The order of packages does not matter to the analysis.**  It takes the same steps, and if nothing
stops it the report is the same up to order. -/
theorem Report.ofProject_perm (settings : AnalysisSettings) {p : Project} (h : p.packages.Perm qs)
    (hpaths : (p.packages.map (·.importPath)).Nodup) :
    Run.Alike Report.SameUpToOrder (ofProject settings p) (ofProject settings { p with packages := qs }) :=
  .bind _ fun _ => .bind _ fun _ => .bind _ fun _ => .bind _ fun _ => .bind _ fun _ => .bind _ fun _ =>
    .bind _ fun _ => .pure (found_perm settings h hpaths)

end CodeGraph
