import CodeGraph.Proofs.Calls.Layers

/-!
# Entry points whose chains are cut off

* `Report.truncation` — what is said of an entry point whose chains are cut off.
* `Report.count_chainsOf` — it is said once for every declaration of an entry point that has as many
  chains as are listed at most, or more.
* `Report.truncated_by_declaration` — the main result: when chains are left out, and when that is said.
-/

namespace CodeGraph

namespace Report

variable {ps : List Package} {f g : FunctionId} {entries : List FunctionId}

/-! ### Entry points -/

/-- What is said of an entry point whose chains are cut off. -/
def truncation (f : FunctionId) : Degradation :=
  ⟨f.package, f.name, "call chains truncated at " ++ toString CallGraph.chainLimit⟩

/-- Entry points are no methods. -/
theorem receiver_of_mem_entryPoints (h : f ∈ entryPoints ps) : f.receiver = none := by
  obtain ⟨p, -, hf⟩ := List.mem_flatMap.mp h
  obtain ⟨decl, hdecl, rfl⟩ := List.mem_map.mp hf
  have hentry := (List.mem_filter.mp hdecl).2
  have hmethod : decl.isMethod = false := by
    rw [isEntry, Bool.and_eq_true, Bool.not_eq_true'] at hentry
    exact hentry.1
  simp [FunctionId.ofDecl, hmethod]

/-- So what is said of them tells them apart. -/
theorem eq_of_truncation_eq (hf : f ∈ entryPoints ps) (hg : g ∈ entryPoints ps)
    (h : truncation f = truncation g) : f = g := by
  obtain ⟨package, receiver, name⟩ := f
  obtain ⟨package', receiver', name'⟩ := g
  obtain rfl : receiver = none := receiver_of_mem_entryPoints hf
  obtain rfl : receiver' = none := receiver_of_mem_entryPoints hg
  obtain ⟨rfl, rfl, -⟩ := Degradation.mk.inj h
  rfl

/-! ### What is listed -/

theorem lookup_chainsOf (graph : CallGraph) (depth : Nat) (h : f ∈ entries) :
    (chainsOf graph depth entries).1.lookup f = some (graph.chainsFrom f depth) := by
  rw [chainsOf, lookup_map_pair, if_pos (mem_sortedDistinct.mpr h)]

/-- What is said of the entry points, one declaration after the other. -/
theorem chainsOf_snd (graph : CallGraph) (depth : Nat) (entries : List FunctionId) :
    (chainsOf graph depth entries).2 =
      (entries.filter fun f => CallGraph.chainLimit ≤ (graph.chainsFrom f depth).length).map
        truncation := by
  rw [← List.filterMap_eq_map, ← List.filterMap_eq_filter, List.filterMap_filterMap]
  refine List.filterMap_congr fun f hf => ?_
  have hlookup := lookup_chainsOf graph depth hf
  rw [chainsOf] at hlookup
  simp only [hlookup, Option.getD_some, Option.guard, decide_eq_true_eq]
  split <;> rfl

/-- As often as an entry point is declared, it is said that its chains are cut off. -/
theorem count_chainsOf (graph : CallGraph) (depth : Nat) (h : f ∈ entryPoints ps) :
    (chainsOf graph depth (entryPoints ps)).2.count (truncation f) =
      if CallGraph.chainLimit ≤ (graph.chainsFrom f depth).length then (entryPoints ps).count f
      else 0 := by
  let isCut (g : FunctionId) : Bool := CallGraph.chainLimit ≤ (graph.chainsFrom g depth).length
  have hcount : (chainsOf graph depth (entryPoints ps)).2.count (truncation f) =
      ((entryPoints ps).filter isCut).count f := by
    rw [chainsOf_snd, List.count, List.countP_map]
    refine List.countP_congr fun g hg => ?_
    rw [Function.comp_apply, beq_iff_eq, beq_iff_eq]
    exact ⟨eq_of_truncation_eq (List.mem_filter.mp hg).1 h, congrArg truncation⟩
  rw [hcount]
  split
  next hcut => exact List.count_filter (decide_eq_true hcut)
  next hcut =>
    refine List.count_eq_zero.mpr fun hmem => hcut ?_
    exact of_decide_eq_true (List.mem_filter.mp hmem).2

/-- Two texts differ if they start with different characters. -/
theorem append_ne_append {a b : String} {c d : Char} (ha : a.toList.head? = some c)
    (hb : b.toList.head? = some d) (hne : c ≠ d) (s t : String) : a ++ s ≠ b ++ t := by
  intro h
  have hfirst := congrArg (fun text : String => text.toList.head?) h
  simp only [String.toList_append, List.head?_append, ha, hb, Option.some_or,
    Option.some.injEq] at hfirst
  exact hne hfirst

theorem message_ne_truncation (fault : FlattenFault) (f : FunctionId) :
    fault.message ≠ (truncation f).reason := by
  cases fault with
  | unknown k => exact append_ne_append (c := 'u') (d := 'c') rfl rfl (by decide) _ _
  | embedsItself k =>
    have hmessage : (FlattenFault.embedsItself k).message =
        "interface " ++ (k.text ++ " embeds itself") := String.append_assoc
    rw [hmessage]
    exact append_ne_append (c := 'i') (d := 'c') rfl rfl (by decide) _ _
  | unresolved written => exact append_ne_append (c := 'e') (d := 'c') rfl rfl (by decide) _ _

/-- Nothing of the kind is said of interfaces. -/
theorem truncation_notMem_flattenDegradations (t : SymbolTable) (f : FunctionId) :
    truncation f ∉ t.flattenDegradations := by
  intro h
  obtain ⟨i, -, hi⟩ := List.mem_filterMap.mp h
  split at hi
  next => cases hi
  next fault _ =>
    exact message_ne_truncation fault f (congrArg Degradation.reason (Option.some.inj hi))

/-! ### What is left out -/

/-- The first so many members of a list that repeats none are all of them unless there are more. -/
theorem exists_notMem_take_iff {α : Type} {all : List α} (hnodup : all.Nodup) (n : Nat) :
    (∃ a ∈ all, a ∉ all.take n) ↔ n < all.length := by
  constructor
  · rintro ⟨a, ha, hout⟩
    by_contra hle
    rw [List.take_of_length_le (not_lt.mp hle)] at hout
    exact hout ha
  · intro hlt
    refine ⟨all[n], List.getElem_mem hlt, fun hmem => ?_⟩
    obtain ⟨i, hi, hsame⟩ := List.getElem_of_mem hmem
    rw [List.getElem_take, hnodup.getElem_inj_iff] at hsame
    rw [List.length_take] at hi
    omega

/-- Of as many chains as there are, a report lists the first ones and says how often it was cut off. -/
theorem found_of_mem_entryPoints (settings : AnalysisSettings) {p : Project} {f : FunctionId}
    (hf : f ∈ entryPoints p.packages) :
    let all := (CallGraph.ofEdges (found settings p).calls).allFrom f settings.chainDepth.toNat
    (found settings p).entryChains.lookup f = some (all.take CallGraph.chainLimit) ∧
      (found settings p).degradations.count (truncation f) =
        if CallGraph.chainLimit ≤ all.length then (entryPoints p.packages).count f else 0 := by
  intro all
  let graph := CallGraph.ofEdges (found settings p).calls
  have hlisted : graph.chainsFrom f settings.chainDepth.toNat = all.take CallGraph.chainLimit :=
    CallGraph.chainsFrom_eq_take graph f _
  refine ⟨(lookup_chainsOf graph _ hf).trans (congrArg some hlisted), ?_⟩
  have hdegradations : (found settings p).degradations =
      (SymbolTable.ofProject p).flattenDegradations ++
        (chainsOf graph settings.chainDepth.toNat (entryPoints p.packages)).2 := rfl
  have hnone := List.count_eq_zero.mpr
    (truncation_notMem_flattenDegradations (SymbolTable.ofProject p) f)
  rw [hdegradations, List.count_append, hnone, Nat.zero_add, count_chainsOf graph _ hf, hlisted,
    List.length_take]
  simp only [Nat.le_min, Nat.le_refl, true_and]

/-- **An entry point is said to be cut off once for every declaration of it, as soon as it has as many
chains as are listed at most.**  Chains are left out only if there are more.  So that is said where it is
true except if there are exactly as many, and at most once except if the entry point is declared
several times. -/
theorem truncated_by_declaration {settings : AnalysisSettings} {p : Project} {signal : Signal}
    {r : Report} (h : (ofProject settings p).outcome signal = .ok r) {f : FunctionId}
    (hf : f ∈ entryPoints p.packages) :
    ∃ all listed : List (List FunctionId),
      (∀ chain, chain ∈ all ↔ MaximalChain r.calls f settings.chainDepth.toNat chain) ∧
      all.Nodup ∧
      r.entryChains.lookup f = some listed ∧ listed = all.take CallGraph.chainLimit ∧
      ((∃ chain ∈ all, chain ∉ listed) ↔ CallGraph.chainLimit < all.length) ∧
      r.degradations.count (truncation f) =
        (if CallGraph.chainLimit ≤ all.length then (entryPoints p.packages).count f else 0) ∧
      ((truncation f ∈ r.degradations ↔ ∃ chain ∈ all, chain ∉ listed) ↔
        all.length ≠ CallGraph.chainLimit) ∧
      (r.degradations.count (truncation f) ≤ 1 ↔
        all.length < CallGraph.chainLimit ∨ (entryPoints p.packages).count f = 1) := by
  obtain rfl := ofProject_eq_ok h
  obtain ⟨hlisted, hcount⟩ := found_of_mem_entryPoints settings hf
  have hnodup := CallGraph.nodup_allFrom (found settings p).calls f settings.chainDepth.toNat
  have hout := exists_notMem_take_iff hnodup CallGraph.chainLimit
  have hdeclared : 0 < (entryPoints p.packages).count f := List.count_pos_iff.mpr hf
  have hsaid : truncation f ∈ (found settings p).degradations ↔ CallGraph.chainLimit ≤
      ((CallGraph.ofEdges (found settings p).calls).allFrom f settings.chainDepth.toNat).length := by
    rw [← List.count_pos_iff, hcount]
    split <;> omega
  refine ⟨_, _, fun _ => CallGraph.mem_allFrom, hnodup, hlisted, rfl, hout, hcount, ?_, ?_⟩
  · rw [hsaid, hout]
    omega
  · rw [hcount]
    split <;> omega

/-- `main` above six layers, through which 5 · 5 · 5 · 5 · 4 · 4 chains lead. -/
def wideLayers : List (List String) :=
  ["main"] :: [("a", 5), ("b", 5), ("c", 5), ("d", 5), ("e", 4), ("f", 4)].map fun (letter, width) =>
    (List.range width).map fun i => letter ++ toString i

/-- These are as many as are listed at most: all of them are, and `main` is said to be cut off. -/
theorem truncated_by_declaration_wideLayers :
    let p : Project := ⟨"/p", none, [.ofLayers wideLayers], []⟩
    let r := found {} p
    let main := Package.layerFunction "main"
    (ofProject {} p).outcome .never = .ok r ∧ main ∈ entryPoints p.packages ∧
      truncation main ∈ r.degradations ∧
      ∃ listed, r.entryChains.lookup main = some listed ∧
        ∀ chain, MaximalChain r.calls main 8 chain → chain ∈ listed := by
  intro p r main
  have hreport : (ofProject {} p).outcome .never = .ok r := ofProject_never p (by decide)
  have hmain : main ∈ entryPoints p.packages := by decide +kernel
  have hdistinct : wideLayers.flatten.Nodup := by decide +kernel
  obtain ⟨all, listed, hall, hnodup, hlookup, -, hout, -, hsaid, -⟩ :=
    truncated_by_declaration hreport hmain
  have hlayered : Layered r.calls (wideLayers.map (List.map Package.layerFunction)) := by
    rw [Report.calls_eq hreport]
    exact Package.layered_ofLayers rfl hdistinct (List.Subset.refl _)
  have hfunctions : (wideLayers.map (List.map Package.layerFunction)).flatten.Nodup := by
    rw [← List.map_flatten]
    exact hdistinct.map fun a b hab => congrArg FunctionId.name hab
  have hlength : all.length = CallGraph.chainLimit := by
    have hperm := (List.perm_ext_iff_of_nodup hnodup (CallGraph.nodup_allFrom r.calls main 8)).mpr
      fun chain => (hall chain).trans CallGraph.mem_allFrom.symm
    rw [hperm.length_eq]
    exact CallGraph.length_allFrom_of_layered hlayered (by decide +kernel) hfunctions
      (by decide +kernel)
  have hnone : ¬∃ chain ∈ all, chain ∉ listed := by
    rw [hout, hlength]
    exact lt_irrefl _
  refine ⟨hreport, hmain, ?_, listed, hlookup, fun chain hchain => ?_⟩
  · by_contra hsilent
    exact hsaid.mp (iff_of_false hsilent hnone) hlength
  · by_contra habsent
    exact hnone ⟨chain, (hall chain).mpr hchain, habsent⟩

end Report

end CodeGraph
