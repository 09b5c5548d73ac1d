import CodeGraph.Proofs.Calls.Chain
import CodeGraph.Proofs.Lists
import CodeGraph.Report.Metrics
import Mathlib.Algebra.BigOperators.Group.List.Basic
import Mathlib.Algebra.GroupWithZero.Nat
import Mathlib.Tactic.FinCases

/-!
# Figures that agree

* `CallGraph.mem_callers` — callers are who calls, as callees are who is called.
* `length_eq_countP_eraseDups` — partners that are listed once are as many as the pairs with them.
* `PackageMetrics.figure_total` — every figure of the total is a sum.
* `Metrics.functions_eq_map` — there is one entry for every declaration of a function.
* `Metrics.agrees_with_calls` — the main result: figures agree with the call graph and with each other.
-/

namespace CodeGraph

variable {edges : List CallEdge} {a b f : FunctionId}

/-! ### Callers and callees -/

namespace CallGraph

theorem mem_callers : a ∈ (ofEdges edges).callers b ↔ Calls edges a b := by
  rw [callers, ofEdges, lookup_neighbours, mem_sortedDistinct, ← mem_resolvedPairs]
  simp

theorem nodup_callees (edges : List CallEdge) (f : FunctionId) :
    ((ofEdges edges).callees f).Nodup :=
  (pairwise_callees edges f).imp Precedes.ne

theorem nodup_callers (edges : List CallEdge) (f : FunctionId) :
    ((ofEdges edges).callers f).Nodup := by
  rw [callers, ofEdges, lookup_neighbours]
  exact nodup_sortedDistinct _

end CallGraph

/-- Partners that are listed once are as many as the pairs with them, each pair counted once. -/
theorem length_eq_countP_eraseDups {α κ : Type} [BEq α] [LawfulBEq α] [DecidableEq κ]
    {key partner : α → κ}
    (hpair : ∀ x y, key x = key y → partner x = partner y → x = y) {pairs : List α} {k : κ}
    {partners : List κ} (hnodup : partners.Nodup)
    (hmem : ∀ c, c ∈ partners ↔ ∃ x ∈ pairs, key x = k ∧ partner x = c) :
    partners.length = pairs.eraseDups.countP (key · = k) := by
  have hselected : ((pairs.eraseDups.filter (key · = k)).map partner).Nodup := by
    refine List.Nodup.map_on (fun x hx y hy hxy => ?_) ((nodup_eraseDups pairs).filter _)
    have hkey := (of_decide_eq_true (List.mem_filter.mp hx).2).trans
      (of_decide_eq_true (List.mem_filter.mp hy).2).symm
    exact hpair x y hkey hxy
  have hperm : partners.Perm ((pairs.eraseDups.filter (key · = k)).map partner) := by
    refine (List.perm_ext_iff_of_nodup hnodup hselected).mpr fun c => ?_
    simp only [hmem, List.mem_map, List.mem_filter, List.mem_eraseDups, decide_eq_true_eq, and_assoc]
  rw [hperm.length_eq, List.length_map, List.countP_eq_length_filter]

theorem length_callees (edges : List CallEdge) (f : FunctionId) :
    ((CallGraph.ofEdges edges).callees f).length = (callPairs edges).countP (·.1 = f) := by
  rw [callPairs]
  refine length_eq_countP_eraseDups (fun x y => Prod.ext) (CallGraph.nodup_callees edges f) fun c => ?_
  rw [CallGraph.mem_callees, ← CallGraph.mem_resolvedPairs]
  simp

theorem length_callers (edges : List CallEdge) (f : FunctionId) :
    ((CallGraph.ofEdges edges).callers f).length = (callPairs edges).countP (·.2 = f) := by
  rw [callPairs]
  refine length_eq_countP_eraseDups (fun x y hcallee hcaller => Prod.ext hcaller hcallee)
    (CallGraph.nodup_callers edges f) fun c => ?_
  rw [CallGraph.mem_callers, ← CallGraph.mem_resolvedPairs]
  simp

/-! ### Packages -/

namespace PackageMetrics

/-- The figures that are added up. -/
def figures : List (PackageMetrics → Nat) :=
  [files, lines, functions, methods, structs, interfaces, constants, vars, imports]

variable {figure : PackageMetrics → Nat}

theorem figure_blank (h : figure ∈ figures) : figure blank = 0 := by
  fin_cases h <;> rfl

theorem figure_absorb (h : figure ∈ figures) (m other : PackageMetrics) :
    figure (m.absorb other) = figure m + figure other := by
  fin_cases h <;> rfl

theorem figure_foldl (h : figure ∈ figures) (m : PackageMetrics) (ms : List PackageMetrics) :
    figure (ms.foldl absorb m) = figure m + (ms.map figure).sum := by
  induction ms generalizing m with
  | nil => rfl
  | cons other ms ih =>
    rw [List.foldl_cons, ih, figure_absorb h, List.map_cons, List.sum_cons, Nat.add_assoc]

theorem figure_total (h : figure ∈ figures) (ms : List PackageMetrics) :
    figure (total ms) = (ms.map figure).sum := by
  rw [total, figure_foldl h, figure_blank h, Nat.zero_add]

end PackageMetrics

/-! ### Functions -/

namespace Metrics

/-- The declarations of functions in packages, each with its package and its file. -/
def declarations (ps : List Package) : List (Package × SourceFile × FunctionDecl) :=
  ps.flatMap fun p => p.files.flatMap fun file => file.functions.map fun f => (p, file, f)

/-- What an entry says of a declaration. -/
structure Describes (d : Package × SourceFile × FunctionDecl) (m : FunctionMetrics) : Prop where
  function : m.function = .ofDecl d.1.importPath d.2.2
  file : m.file = d.2.1.path
  complexity : m.complexity = d.2.2.complexity
  lines : m.lines = d.2.2.span.lineCount
  callSites : m.callSites = d.2.2.calls.length

section

variable (ps : List Package) (edges : List CallEdge)

/-- There is one entry for every declaration of a function. -/
theorem functions_eq_map :
    (ofPackages ps edges).functions =
      (declarations ps).map fun d =>
        { function := .ofDecl d.1.importPath d.2.2
          file := d.2.1.path
          complexity := d.2.2.complexity
          lines := d.2.2.span.lineCount
          callSites := d.2.2.calls.length
          fanOut := (callPairs edges).countP (·.1 = .ofDecl d.1.importPath d.2.2)
          fanIn := (callPairs edges).countP (·.2 = .ofDecl d.1.importPath d.2.2) } := by
  simp only [declarations, List.map_flatMap, List.map_map]
  rfl

theorem forall₂_describes :
    List.Forall₂ Describes (declarations ps) (ofPackages ps edges).functions := by
  rw [functions_eq_map, List.forall₂_map_right_iff]
  exact List.forall₂_same.mpr fun d _ => ⟨rfl, rfl, rfl, rfl, rfl⟩

/-- Entries count callers and callees as the call graph lists them. -/
theorem fans_eq_length {m : FunctionMetrics} (hm : m ∈ (ofPackages ps edges).functions) :
    m.fanOut = ((CallGraph.ofEdges edges).callees m.function).length ∧
      m.fanIn = ((CallGraph.ofEdges edges).callers m.function).length := by
  obtain ⟨p, -, hm⟩ := List.mem_flatMap.mp hm
  obtain ⟨file, -, hm⟩ := List.mem_flatMap.mp hm
  obtain ⟨f, -, rfl⟩ := List.mem_map.mp hm
  exact ⟨(length_callees edges _).symm, (length_callers edges _).symm⟩

/-- Every declaration of a package counts as a function or as a method. -/
theorem functions_add_methods_package (p : Package) :
    (PackageMetrics.ofPackage p).functions + (PackageMetrics.ofPackage p).methods =
      (p.files.flatMap (·.functions)).length := by
  have hsplit := List.length_eq_countP_add_countP (·.isMethod) (l := p.files.flatMap (·.functions))
  rw [hsplit, Nat.add_comm]
  simp [PackageMetrics.ofPackage]

/-- There are as many entries as functions and methods. -/
theorem functions_add_methods :
    (ofPackages ps edges).totals.functions + (ofPackages ps edges).totals.methods =
      (ofPackages ps edges).functions.length := by
  have hfunctions : PackageMetrics.functions ∈ PackageMetrics.figures := by simp [PackageMetrics.figures]
  have hmethods : PackageMetrics.methods ∈ PackageMetrics.figures := by simp [PackageMetrics.figures]
  rw [ofPackages, PackageMetrics.figure_total hfunctions, PackageMetrics.figure_total hmethods,
    List.map_map, List.map_map, ← List.sum_map_add, List.length_flatMap]
  refine congrArg List.sum (List.map_congr_left fun p _ => ?_)
  rw [Function.comp_apply, Function.comp_apply, functions_add_methods_package]
  simp [ofFunctions, List.length_flatMap]

end

/-- The greatest complexity is that of some entry, and no other one is above it. -/
theorem maxComplexity_spec (m : Metrics) :
    (∀ x ∈ m.functions, x.complexity ≤ m.maxComplexity) ∧
    (m.functions = [] → m.maxComplexity = 0) ∧
    (m.functions ≠ [] → ∃ x ∈ m.functions, x.complexity = m.maxComplexity) := by
  have hmax : (0 :: m.functions.map (·.complexity)).max? = some m.maxComplexity := List.max?_cons'
  obtain ⟨hmem, hbound⟩ := List.max?_eq_some_iff.mp hmax
  have hle : ∀ x ∈ m.functions, x.complexity ≤ m.maxComplexity := fun x hx =>
    hbound _ (List.mem_cons_of_mem _ (List.mem_map_of_mem hx))
  refine ⟨hle, fun hnone => ?_, fun hsome => ?_⟩
  · rw [maxComplexity, hnone]
    rfl
  · rcases List.mem_cons.mp hmem with hzero | hattained
    · -- all are zero then
      obtain ⟨x, hx⟩ := List.exists_mem_of_ne_nil _ hsome
      exact ⟨x, hx, (hle x hx).antisymm (hzero ▸ Nat.zero_le _)⟩
    · obtain ⟨x, hx, hcomplexity⟩ := List.mem_map.mp hattained
      exact ⟨x, hx, hcomplexity⟩

/-- **Figures agree with the call graph and with each other.**  Callers are who has a function among its
callees.  Every declaration of a function has one entry, and the entry counts the callees and the callers
of the function, each once.  Totals are sums over the packages, and count every entry as a function or as
a method.  The greatest complexity is attained and not exceeded. -/
theorem agrees_with_calls (ps : List Package) (edges : List CallEdge) :
    let m := ofPackages ps edges
    let g := CallGraph.ofEdges edges
    (∀ a b, (b ∈ g.callees a ↔ a ∈ g.callers b) ∧ (b ∈ g.callees a ↔ Calls edges a b)) ∧
    (∀ f, (g.callees f).Nodup ∧ (g.callers f).Nodup) ∧
    List.Forall₂ Describes (declarations ps) m.functions ∧
    (∀ x ∈ m.functions, x.fanOut = (g.callees x.function).length ∧
      x.fanIn = (g.callers x.function).length) ∧
    m.packages.map (·.package) = ps.map (·.importPath) ∧
    (∀ figure ∈ PackageMetrics.figures, figure m.totals = (m.packages.map figure).sum) ∧
    m.totals.functions + m.totals.methods = m.functions.length ∧
    (∀ x ∈ m.functions, x.complexity ≤ m.maxComplexity) ∧
    (m.functions = [] → m.maxComplexity = 0) ∧
    (m.functions ≠ [] → ∃ x ∈ m.functions, x.complexity = m.maxComplexity) := by
  refine ⟨fun a b => ⟨?_, CallGraph.mem_callees⟩,
    fun f => ⟨CallGraph.nodup_callees edges f, CallGraph.nodup_callers edges f⟩,
    forall₂_describes ps edges, fun x hx => fans_eq_length ps edges hx, ?_,
    fun figure hfigure => PackageMetrics.figure_total hfigure _,
    functions_add_methods ps edges, maxComplexity_spec _⟩
  · rw [CallGraph.mem_callees, CallGraph.mem_callers]
  · exact List.map_map

end Metrics

end CodeGraph
