import CodeGraph.Calls.Chain
import CodeGraph.Proofs.Lists
import CodeGraph.Proofs.Names.Order
import Mathlib.Data.List.Chain

/-!
# The chains of calls from a function

* `Calls` — some edge is a call of one function of the project by another.
* `MaximalChain` — a chain of calls that repeats no function, and that cannot be made longer within a
  bound on the number of its calls.
* `Completes` — a chain goes on from a path as far as it can; `completes_iff_hop` says that it does so
  through a hop.
* `mem_allThrough`, `pairwise_allThrough` — a recursive search without a limit finds exactly these
  chains, in ascending order.
* `ChainSearch.all_of_step` — a turn of the loop changes nothing about the chains found and to come;
  `ChainSearch.run_eq_take` says that the loop finds the first chains of the recursive search.
* `chainsFrom_eq_take_maximal` — the chains from a function are the first of all maximal ones.
-/

namespace CodeGraph

/-- Some edge is a call of one function of the project by another. -/
def Calls (edges : List CallEdge) (caller callee : FunctionId) : Prop :=
  ∃ e ∈ edges, e.caller = caller ∧ e.target = .resolved callee

/-- All that the last function of a chain calls is in the chain already. -/
def Stuck (edges : List CallEdge) (chain : List FunctionId) : Prop :=
  ∀ last ∈ chain.getLast?, ∀ f, Calls edges last f → f ∈ chain

/-- A chain of at least one and at most `depth` calls that starts at a function and repeats none,
and either has as many calls as it may have or is stuck. -/
structure MaximalChain (edges : List CallEdge) (root : FunctionId) (depth : Nat)
    (chain : List FunctionId) : Prop where
  starts : chain.head? = some root
  calls : chain.IsChain (Calls edges)
  nodup : chain.Nodup
  long : 2 ≤ chain.length
  short : chain.length ≤ depth + 1
  full : chain.length = depth + 1 ∨ Stuck edges chain

namespace CallGraph

/-! ### Callees -/

theorem mem_resolvedPairs {edges : List CallEdge} {a b : FunctionId} :
    (a, b) ∈ resolvedPairs edges ↔ Calls edges a b := by
  simp only [resolvedPairs, List.mem_filterMap, Option.map_eq_some_iff, Prod.mk.injEq, Calls]
  constructor
  · rintro ⟨e, he, callee, htarget, rfl, rfl⟩
    refine ⟨e, he, rfl, ?_⟩
    cases h : e.target <;> simp_all [CallTarget.function?]
  · rintro ⟨e, he, rfl, htarget⟩
    exact ⟨e, he, b, by rw [htarget]; rfl, rfl, rfl⟩

/-- A function without pairs has no neighbours, and is not listed. -/
theorem lookup_neighbours (pairs : List (FunctionId × FunctionId)) (a : FunctionId) :
    ((neighbours pairs).lookup a).getD [] =
      sortedDistinct ((pairs.filter (·.1 = a)).map (·.2)) := by
  rw [neighbours, lookup_map_pair]
  split
  · rfl
  next habsent =>
    rw [mem_sortedDistinct] at habsent
    have hnone : pairs.filter (fun x => decide (x.1 = a)) = [] := by
      refine List.filter_eq_nil_iff.mpr fun pair hpair hfirst => ?_
      exact habsent (List.mem_map.mpr ⟨pair, hpair, of_decide_eq_true hfirst⟩)
    rw [hnone]
    exact (List.eq_nil_iff_forall_not_mem.mpr fun f hf =>
      List.not_mem_nil (mem_sortedDistinct.mp hf)).symm

theorem mem_callees {edges : List CallEdge} {a b : FunctionId} :
    b ∈ (ofEdges edges).callees a ↔ Calls edges a b := by
  rw [callees, ofEdges, lookup_neighbours, mem_sortedDistinct, ← mem_resolvedPairs]
  simp

theorem pairwise_callees (edges : List CallEdge) (a : FunctionId) :
    ((ofEdges edges).callees a).Pairwise Precedes := by
  rw [callees, ofEdges, lookup_neighbours]
  exact pairwise_sortedDistinct _

/-! ### The recursive search -/

/-- All chains that go on from a chain, which is given in reverse, by at most `left` calls. -/
def allThrough (g : CallGraph) : (left : Nat) → List FunctionId → List (List FunctionId)
  | 0, path => [path.reverse]
  | left + 1, path =>
    if g.onward path = [] then [path.reverse]
    else (g.onward path).flatMap fun f => allThrough g left (f :: path)

section

variable {edges : List CallEdge} {depth : Nat} {last f : FunctionId}
  {before chain : List FunctionId}

theorem mem_onward : f ∈ (ofEdges edges).onward (last :: before) ↔
    Calls edges last f ∧ f ∉ last :: before := by
  rw [onward, List.mem_filter, mem_callees]
  simp

theorem pairwise_onward (edges : List CallEdge) (path : List FunctionId) :
    ((ofEdges edges).onward path).Pairwise Precedes := by
  match path with
  | [] => exact List.Pairwise.nil
  | last :: _ => exact (pairwise_callees edges last).filter _

theorem onward_eq_nil_iff : (ofEdges edges).onward (last :: before) = [] ↔
    Stuck edges (last :: before).reverse := by
  rw [List.eq_nil_iff_forall_not_mem]
  simp only [mem_onward, Stuck, List.getLast?_reverse, List.head?_cons, Option.mem_some_iff,
    List.mem_reverse, not_and, not_not, forall_eq']

/-- A chain of calls, given in reverse, that repeats no function. -/
structure IsPath (edges : List CallEdge) (path : List FunctionId) : Prop where
  calls : path.reverse.IsChain (Calls edges)
  nodup : path.Nodup

theorem IsPath.hop (h : IsPath edges (last :: before))
    (hf : f ∈ (ofEdges edges).onward (last :: before)) :
    IsPath edges (f :: last :: before) := by
  obtain ⟨hcall, hnew⟩ := mem_onward.mp hf
  refine ⟨?_, List.nodup_cons.mpr ⟨hnew, h.nodup⟩⟩
  rw [List.reverse_cons, List.isChain_append]
  refine ⟨h.calls, List.isChain_singleton f, fun a ha b hb => ?_⟩
  simp only [List.getLast?_reverse, List.head?_cons, Option.mem_some_iff] at ha hb
  exact ha ▸ hb ▸ hcall

/-- A chain goes on from a path as far as it can within a bound on its length. -/
structure Completes (edges : List CallEdge) (size : Nat) (path chain : List FunctionId) : Prop where
  goesOn : path.reverse <+: chain
  calls : chain.IsChain (Calls edges)
  nodup : chain.Nodup
  short : chain.length ≤ size
  full : chain.length = size ∨ Stuck edges chain

/-- A chain that goes on from a path does so through one of its hops. -/
theorem eq_or_hop_of_prefix (hgoesOn : (last :: before).reverse <+: chain)
    (hcalls : chain.IsChain (Calls edges)) (hnodup : chain.Nodup) :
    chain = (last :: before).reverse ∨
      ∃ f ∈ (ofEdges edges).onward (last :: before),
        (f :: last :: before).reverse <+: chain := by
  obtain ⟨tail, rfl⟩ := hgoesOn
  cases tail with
  | nil => exact Or.inl (List.append_nil _)
  | cons f rest =>
    right
    obtain ⟨-, -, hjoint⟩ := List.isChain_append.mp hcalls
    have hcall : Calls edges last f := hjoint last (by simp) f (by simp)
    have hnew : f ∉ last :: before := by
      intro hmem
      exact (List.disjoint_of_nodup_append hnodup) (List.mem_reverse.mpr hmem) List.mem_cons_self
    refine ⟨f, mem_onward.mpr ⟨hcall, hnew⟩, rest, ?_⟩
    simp

/-- A path that is full cannot go on. -/
theorem completes_iff_of_length (h : IsPath edges (last :: before)) :
    Completes edges (last :: before).length (last :: before) chain ↔
      chain = (last :: before).reverse := by
  have hlength : (last :: before).reverse.length = (last :: before).length := List.length_reverse
  constructor
  · intro hchain
    exact (hchain.goesOn.eq_of_length_le (hlength ▸ hchain.short)).symm
  · rintro rfl
    exact ⟨List.prefix_rfl, h.calls, List.nodup_reverse.mpr h.nodup, hlength.le, Or.inl hlength⟩

/-- A path without hops cannot go on. -/
theorem completes_iff_of_onward_eq_nil (h : IsPath edges (last :: before)) {size : Nat}
    (hsize : (last :: before).length ≤ size)
    (hnone : (ofEdges edges).onward (last :: before) = []) :
    Completes edges size (last :: before) chain ↔ chain = (last :: before).reverse := by
  constructor
  · intro hchain
    rcases eq_or_hop_of_prefix hchain.goesOn hchain.calls hchain.nodup with heq | ⟨f, hf, -⟩
    · exact heq
    · rw [hnone] at hf
      exact absurd hf List.not_mem_nil
  · rintro rfl
    exact ⟨List.prefix_rfl, h.calls, List.nodup_reverse.mpr h.nodup,
      List.length_reverse.trans_le hsize, Or.inr (onward_eq_nil_iff.mp hnone)⟩

/-- A path with hops goes on through one of them, unless it is full. -/
theorem completes_iff_hop {size : Nat} (hsize : (last :: before).length < size)
    (hsome : (ofEdges edges).onward (last :: before) ≠ []) :
    Completes edges size (last :: before) chain ↔
      ∃ f ∈ (ofEdges edges).onward (last :: before),
        Completes edges size (f :: last :: before) chain := by
  constructor
  · intro h
    rcases eq_or_hop_of_prefix h.goesOn h.calls h.nodup with rfl | ⟨f, hf, hgoesOn⟩
    · rcases h.full with hfull | hstuck
      · rw [List.length_reverse] at hfull
        exact absurd hfull hsize.ne
      · exact absurd (onward_eq_nil_iff.mpr hstuck) hsome
    · exact ⟨f, hf, hgoesOn, h.calls, h.nodup, h.short, h.full⟩
  · rintro ⟨f, -, h⟩
    have hgoesOn := h.goesOn
    rw [List.reverse_cons] at hgoesOn
    exact ⟨(List.prefix_append _ _).trans hgoesOn, h.calls, h.nodup, h.short, h.full⟩

/-- The recursive search finds exactly the chains that go on as far as they can. -/
theorem mem_allThrough (h : IsPath edges (last :: before)) :
    chain ∈ (ofEdges edges).allThrough depth (last :: before) ↔
      Completes edges ((last :: before).length + depth) (last :: before) chain := by
  induction depth generalizing last before with
  | zero => rw [allThrough, List.mem_singleton, Nat.add_zero, completes_iff_of_length h]
  | succ depth ih =>
    rw [allThrough]
    split
    next hnone =>
      rw [List.mem_singleton, completes_iff_of_onward_eq_nil h (Nat.le_add_right _ _) hnone]
    next hsome =>
      have hsize : (last :: before).length < (last :: before).length + (depth + 1) := by omega
      rw [List.mem_flatMap, completes_iff_hop hsize hsome]
      refine exists_congr fun f => and_congr_right fun hf => ?_
      rw [ih (h.hop hf), List.length_cons, Nat.add_assoc, Nat.add_comm 1]

end

theorem prefix_of_mem_allThrough {g : CallGraph} {depth : Nat} {path chain : List FunctionId}
    (h : chain ∈ g.allThrough depth path) : path.reverse <+: chain := by
  induction depth generalizing path with
  | zero =>
    rw [allThrough, List.mem_singleton] at h
    exact h ▸ List.prefix_rfl
  | succ depth ih =>
    rw [allThrough] at h
    split at h
    · rw [List.mem_singleton] at h
      exact h ▸ List.prefix_rfl
    · obtain ⟨f, -, hmem⟩ := List.mem_flatMap.mp h
      have hextends := ih hmem
      rw [List.reverse_cons] at hextends
      exact (List.prefix_append _ _).trans hextends

/-- Chains through ascending hops ascend. -/
theorem lex_of_precedes {g : CallGraph} {depth : Nat} {path a b : List FunctionId} {f f' : FunctionId}
    (hff' : Precedes f f') (ha : a ∈ g.allThrough depth (f :: path))
    (hb : b ∈ g.allThrough depth (f' :: path)) : List.Lex Precedes a b := by
  obtain ⟨as, rfl⟩ := prefix_of_mem_allThrough ha
  obtain ⟨bs, rfl⟩ := prefix_of_mem_allThrough hb
  rw [List.reverse_cons, List.reverse_cons, List.append_assoc, List.append_assoc]
  exact List.Lex.append_left _ (List.Lex.rel hff') _

theorem pairwise_allThrough (edges : List CallEdge) (depth : Nat) (path : List FunctionId) :
    ((ofEdges edges).allThrough depth path).Pairwise (List.Lex Precedes) := by
  induction depth generalizing path with
  | zero => exact List.pairwise_singleton _ _
  | succ depth ih =>
    rw [allThrough]
    split
    · exact List.pairwise_singleton _ _
    · refine List.pairwise_flatMap.mpr ⟨fun f _ => ih (f :: path), ?_⟩
      exact (pairwise_onward edges path).imp fun hff' a ha b hb => lex_of_precedes hff' ha hb

/-! ### The search as a loop -/

section

variable {g : CallGraph} {depth : Nat} {path : List FunctionId} {f : FunctionId}

theorem allThrough_of_nextHops_eq_nil (h : g.nextHops depth (f :: path) = []) :
    g.allThrough (depth - path.length) (f :: path) = [(f :: path).reverse] := by
  cases hleft : depth - path.length with
  | zero => rfl
  | succ left =>
    have hroom : (f :: path).length ≤ depth := by
      rw [List.length_cons]
      omega
    rw [nextHops, if_pos hroom] at h
    rw [allThrough, if_pos h]

theorem allThrough_of_nextHops_ne_nil (h : g.nextHops depth (f :: path) ≠ []) :
    g.allThrough (depth - path.length) (f :: path) =
      (g.nextHops depth (f :: path)).flatMap fun next =>
        g.allThrough (depth - (f :: path).length) (next :: f :: path) := by
  obtain ⟨hroom, honward⟩ := length_le_of_nextHops h
  have hleft : depth - path.length = depth - (f :: path).length + 1 := by
    rw [List.length_cons] at hroom ⊢
    omega
  rw [hleft, allThrough, ← honward, if_neg h]

/-- The chains to come while something is pending, without a limit on their number. -/
def allPending (g : CallGraph) (depth : Nat) :
    List FunctionId → List (List FunctionId) → List (List FunctionId)
  | _, [] => []
  | path, hops :: rest =>
    (hops.flatMap fun f => g.allThrough (depth - path.length) (f :: path)) ++
      allPending g depth path.tail rest

theorem allPending_cons (g : CallGraph) (depth : Nat) (path : List FunctionId) (f : FunctionId)
    (fs : List FunctionId) (rest : List (List FunctionId)) :
    g.allPending depth path ((f :: fs) :: rest) =
      g.allThrough (depth - path.length) (f :: path) ++ g.allPending depth path (fs :: rest) := by
  rw [allPending, allPending, List.flatMap_cons, List.append_assoc]

/-- Going on to a function leaves the chains through it pending. -/
theorem allPending_forward (h : g.nextHops depth (f :: path) ≠ []) (rest : List (List FunctionId)) :
    g.allPending depth (f :: path) (g.nextHops depth (f :: path) :: rest) =
      g.allThrough (depth - path.length) (f :: path) ++ g.allPending depth path rest := by
  rw [allPending, ← allThrough_of_nextHops_ne_nil h, List.tail_cons]

namespace ChainSearch

/-- The chains found and to come. -/
def all (g : CallGraph) (depth : Nat) (s : ChainSearch) : List (List FunctionId) :=
  s.chains.toList ++ g.allPending depth s.path s.pending

variable {s t : ChainSearch}

/-- A turn that is not the last one changes nothing about what is found in all. -/
theorem all_of_step (h : s.step g depth = .yield t) : t.all g depth = s.all g depth := by
  obtain ⟨path, pending, chains⟩ := s
  rw [step] at h
  split at h
  · cases h
  next rest hpending =>
    obtain rfl := hpending
    obtain rfl := ForInStep.yield.inj h
    rfl
  next f fs rest hpending =>
    obtain rfl := hpending
    dsimp only at h
    split at h
    next hnone =>
      split at h
      · cases h
      · obtain rfl := ForInStep.yield.inj h
        rw [all, all, allPending_cons, allThrough_of_nextHops_eq_nil hnone, Array.toList_push,
          List.append_assoc, List.tail_cons]
    next next others hhops =>
      obtain rfl := ForInStep.yield.inj h
      have hsome : g.nextHops depth (f :: path) ≠ [] := hhops ▸ List.cons_ne_nil next others
      show chains.toList ++ _ = chains.toList ++ _
      rw [← hhops, allPending_forward hsome, allPending_cons]

theorem size_of_step (hroom : s.chains.size < chainLimit) (h : s.step g depth = .yield t) :
    t.chains.size < chainLimit := by
  rw [step] at h
  split at h
  · cases h
  · obtain rfl := ForInStep.yield.inj h
    exact hroom
  · dsimp only at h
    split at h
    · split at h
      · cases h
      next hfew =>
        obtain rfl := ForInStep.yield.inj h
        exact Nat.lt_of_not_le hfew
    · obtain rfl := ForInStep.yield.inj h
      exact hroom

/-- The last turn leaves as many chains as there may be, or all of them. -/
theorem chains_of_step (hroom : s.chains.size < chainLimit) (h : s.step g depth = .done t) :
    t.chains.toList = (s.all g depth).take chainLimit := by
  obtain ⟨path, pending, chains⟩ := s
  rw [step] at h
  split at h
  next hpending =>
    obtain rfl := hpending
    obtain rfl := ForInStep.done.inj h
    rw [all, allPending, List.append_nil, List.take_of_length_le]
    exact hroom.le
  · cases h
  next f fs rest hpending =>
    obtain rfl := hpending
    dsimp only at h
    split at h
    next hnone =>
      split at h
      next hmany =>
        obtain rfl := ForInStep.done.inj h
        have hsize : (chains.push (f :: path).reverse).toList.length = chainLimit := by
          rw [Array.length_toList]
          refine le_antisymm ?_ hmany
          rw [Array.size_push]
          exact hroom
        have hall : ChainSearch.all g depth ⟨path, (f :: fs) :: rest, chains⟩ =
            (chains.push (f :: path).reverse).toList ++ g.allPending depth path (fs :: rest) := by
          rw [ChainSearch.all, allPending_cons, allThrough_of_nextHops_eq_nil hnone,
            Array.toList_push, List.append_assoc]
        rw [hall, List.take_append_of_le_length hsize.ge, List.take_of_length_le hsize.le]
      · cases h
    · cases h

/-- **The loop finds the first of all chains.** -/
theorem run_eq_take (hroom : s.chains.size < chainLimit) :
    (run g depth s).toList = (s.all g depth).take chainLimit := by
  induction s using run.induct g depth with
  | case1 s t hlast =>
    rw [run, hlast]
    exact chains_of_step hroom hlast
  | case2 s t hturn ih =>
    rw [run, hturn, ← all_of_step hturn]
    exact ih (size_of_step hroom hturn)

end ChainSearch

end

/-! ### Chains from a function -/

/-- All chains from a function, without a limit on their number. -/
def allFrom (g : CallGraph) (root : FunctionId) : (depth : Nat) → List (List FunctionId)
  | 0 => []
  | depth + 1 => (g.onward [root]).flatMap fun f => g.allThrough depth [f, root]

theorem chainsFrom_eq_take (g : CallGraph) (root : FunctionId) (depth : Nat) :
    g.chainsFrom root depth = (g.allFrom root depth).take chainLimit := by
  have hroom : (#[] : Array (List FunctionId)).size < chainLimit := Nat.zero_lt_succ _
  rw [chainsFrom, ChainSearch.run_eq_take hroom]
  refine congrArg (List.take chainLimit) ?_
  cases depth with
  | zero => rfl
  | succ depth => exact List.append_nil _

theorem pairwise_allFrom (edges : List CallEdge) (root : FunctionId) (depth : Nat) :
    ((ofEdges edges).allFrom root depth).Pairwise (List.Lex Precedes) := by
  cases depth with
  | zero => exact List.Pairwise.nil
  | succ depth =>
    refine List.pairwise_flatMap.mpr ⟨fun f _ => pairwise_allThrough edges depth [f, root], ?_⟩
    exact (pairwise_onward edges [root]).imp fun hff' a ha b hb => lex_of_precedes hff' ha hb

/-- No chain is found twice. -/
theorem nodup_allFrom (edges : List CallEdge) (root : FunctionId) (depth : Nat) :
    ((ofEdges edges).allFrom root depth).Nodup := by
  refine (pairwise_allFrom edges root depth).imp fun {a b} hab => ?_
  rintro rfl
  exact Std.Asymm.asymm a a hab hab

theorem mem_allFrom {edges : List CallEdge} {root : FunctionId} {depth : Nat}
    {chain : List FunctionId} :
    chain ∈ (ofEdges edges).allFrom root depth ↔ MaximalChain edges root depth chain := by
  cases depth with
  | zero =>
    refine ⟨fun h => absurd h List.not_mem_nil, fun h => ?_⟩
    have hlong := h.long
    have hshort := h.short
    omega
  | succ depth =>
    have hroot : IsPath edges [root] := ⟨List.isChain_singleton root, List.nodup_singleton root⟩
    have hthrough (f : FunctionId) (hf : f ∈ (ofEdges edges).onward [root]) :
        chain ∈ (ofEdges edges).allThrough depth [f, root] ↔
          Completes edges (depth + 1 + 1) [f, root] chain := by
      rw [mem_allThrough (hroot.hop hf), Nat.add_comm]
      rfl
    rw [allFrom, List.mem_flatMap]
    constructor
    · rintro ⟨f, hf, hmem⟩
      obtain ⟨⟨rest, rfl⟩, hcalls, hnodup, hshort, hfull⟩ := (hthrough f hf).mp hmem
      exact ⟨rfl, hcalls, hnodup, by simp, hshort, hfull⟩
    · intro h
      obtain ⟨rest, rfl⟩ := List.head?_eq_some_iff.mp h.starts
      have hgoesOn : [root].reverse <+: root :: rest := ⟨rest, rfl⟩
      rcases eq_or_hop_of_prefix hgoesOn h.calls h.nodup with heq | ⟨f, hf, hgoesOn⟩
      · have hlong := h.long
        rw [heq] at hlong
        exact absurd hlong (by simp)
      · exact ⟨f, hf, (hthrough f hf).mpr ⟨hgoesOn, h.calls, h.nodup, h.short, h.full⟩⟩

/-- **The chains from a function are the first of all maximal ones.**  The maximal chains can be
listed in ascending order, each once, and as many of them are found as the limit allows, from the
first one on. -/
theorem chainsFrom_eq_take_maximal (edges : List CallEdge) (root : FunctionId) (depth : Nat) :
    ∃ all : List (List FunctionId),
      (∀ chain, chain ∈ all ↔ MaximalChain edges root depth chain) ∧
      all.Pairwise (List.Lex Precedes) ∧ all.Nodup ∧
      (ofEdges edges).chainsFrom root depth = all.take (min all.length chainLimit) := by
  refine ⟨(ofEdges edges).allFrom root depth, fun _ => mem_allFrom,
    pairwise_allFrom edges root depth, nodup_allFrom edges root depth, ?_⟩
  rw [chainsFrom_eq_take, Nat.min_comm, ← List.take_take, List.take_length]

end CallGraph

end CodeGraph
