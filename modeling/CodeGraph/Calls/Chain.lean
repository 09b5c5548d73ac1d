import CodeGraph.Calls.Edge

/-!
# Chains of calls

* `CallGraph` — which functions of a project each function calls, and by which it is called.
* `CallGraph.ChainSearch` — a search with an explicit path and a stack of functions to try; `step` is
  one turn of its loop, and `turnsLeft` says why the loop ends.
* `CallGraph.chainsFrom` — the chains of calls that start at a function, repeat none, and cannot be
  made longer within a bound on their length; at most `chainLimit` of them.
-/

namespace CodeGraph

/-- Resolved calls as lists of neighbours, by function. -/
structure CallGraph where
  calleeLists : List (FunctionId × List FunctionId)
  callerLists : List (FunctionId × List FunctionId)
  deriving Inhabited

/-- The distinct partners of every first member of a list of pairs. -/
def neighbours (pairs : List (FunctionId × FunctionId)) : List (FunctionId × List FunctionId) :=
  (sortedDistinct (pairs.map (·.1))).map fun f =>
    (f, sortedDistinct ((pairs.filter (·.1 = f)).map (·.2)))

namespace CallGraph

/-- Each caller with the function it calls. -/
def resolvedPairs (edges : List CallEdge) : List (FunctionId × FunctionId) :=
  edges.filterMap fun e => e.target.function?.map fun callee => (e.caller, callee)

def ofEdges (edges : List CallEdge) : CallGraph :=
  let pairs := resolvedPairs edges
  ⟨neighbours pairs, neighbours (pairs.map fun (a, b) => (b, a))⟩

/-- The functions that a function calls, in their order. -/
def callees (g : CallGraph) (f : FunctionId) : List FunctionId :=
  (g.calleeLists.lookup f).getD []

/-- The functions that call a function, in their order. -/
def callers (g : CallGraph) (f : FunctionId) : List FunctionId :=
  (g.callerLists.lookup f).getD []

/-- The greatest number of chains that are listed. -/
def chainLimit : Nat := 10000

/-- The functions that can follow at the end of a chain, which is given in reverse. -/
def onward (g : CallGraph) : List FunctionId → List FunctionId
  | [] => []
  | last :: before => (g.callees last).filter fun f => !(last :: before).contains f

/-- The functions to go on with, as long as a chain has fewer calls than it may have. -/
def nextHops (g : CallGraph) (depth : Nat) (path : List FunctionId) : List FunctionId :=
  if path.length ≤ depth then g.onward path else []

/-- A search that has come to a chain, which is given in reverse.  For this chain and for each one on
the way to it some functions are still to be tried, those of the longest chain first. -/
structure ChainSearch where
  path : List FunctionId
  pending : List (List FunctionId)
  chains : Array (List FunctionId)

/-- One turn of a search: go back where nothing is left to try, else on to the next function.  A chain
that cannot be made longer is listed. -/
def ChainSearch.step (g : CallGraph) (depth : Nat) (s : ChainSearch) : ForInStep ChainSearch :=
  match s.pending with
  | [] => .done s
  | [] :: rest => .yield { s with path := s.path.tail, pending := rest }
  | (f :: fs) :: rest =>
    let path := f :: s.path
    match g.nextHops depth path with
    | [] =>
      let chains := s.chains.push path.reverse
      if chainLimit ≤ chains.size then .done ⟨path, fs :: rest, chains⟩
      else .yield ⟨path.tail, fs :: rest, chains⟩
    | next :: others => .yield ⟨path, (next :: others) :: fs :: rest, s.chains⟩

/-! ### Why a search ends -/

/-- At most so many turns pass from coming to a chain until it is left, if it can be made longer by
`left` calls. -/
def turnsThrough (g : CallGraph) : (left : Nat) → List FunctionId → Nat
  | 0, _ => 1
  | left + 1, path =>
    2 + ((g.onward path).map fun f => turnsThrough g left (f :: path)).foldr (· + ·) 0

/-- At most so many turns pass until nothing is pending. -/
def turnsLeft (g : CallGraph) (depth : Nat) : List FunctionId → List (List FunctionId) → Nat
  | _, [] => 0
  | path, hops :: rest =>
    1 + (hops.map fun f => g.turnsThrough (depth - path.length) (f :: path)).foldr (· + ·) 0 +
      turnsLeft g depth path.tail rest

theorem turnsThrough_pos (g : CallGraph) (left : Nat) (path : List FunctionId) :
    0 < g.turnsThrough left path := by
  cases left with
  | zero => exact Nat.one_pos
  | succ left => exact Nat.add_pos_left Nat.two_pos _

/-- A chain that can be made longer has room for a call. -/
theorem length_le_of_nextHops {g : CallGraph} {depth : Nat} {path : List FunctionId}
    (h : g.nextHops depth path ≠ []) : path.length ≤ depth ∧ g.nextHops depth path = g.onward path := by
  by_cases hroom : path.length ≤ depth
  · exact ⟨hroom, if_pos hroom⟩
  · exact absurd (if_neg hroom) h

/-- The turns to come are counted down. -/
theorem ChainSearch.turnsLeft_lt_of_step {g : CallGraph} {depth : Nat} {s t : ChainSearch}
    (h : s.step g depth = .yield t) :
    g.turnsLeft depth t.path t.pending < g.turnsLeft depth s.path s.pending := by
  obtain ⟨path, pending, chains⟩ := s
  rw [step] at h
  split at h
  · cases h
  next rest hpending =>
    obtain rfl := hpending
    obtain rfl := ForInStep.yield.inj h
    simp only [turnsLeft, List.map_nil, List.foldr_nil]
    omega
  next f fs rest hpending =>
    obtain rfl := hpending
    have hpos := turnsThrough_pos g (depth - path.length) (f :: path)
    dsimp only at h
    split at h
    · split at h
      · cases h
      · obtain rfl := ForInStep.yield.inj h
        simp only [turnsLeft, List.tail_cons, List.map_cons, List.foldr_cons]
        omega
    next next others hhops =>
      obtain rfl := ForInStep.yield.inj h
      obtain ⟨hroom, honward⟩ := length_le_of_nextHops (hhops ▸ List.cons_ne_nil next others)
      have hleft : depth - path.length = depth - (f :: path).length + 1 := by
        rw [List.length_cons] at hroom ⊢
        omega
      simp only [turnsLeft, List.tail_cons, List.map_cons, List.foldr_cons]
      rw [hleft, turnsThrough, ← honward, hhops, List.map_cons, List.foldr_cons]
      omega

/-- Take turns until nothing is pending, or until there are as many chains as are listed. -/
def ChainSearch.run (g : CallGraph) (depth : Nat) (s : ChainSearch) : Array (List FunctionId) :=
  match _hturn : s.step g depth with
  | .done t => t.chains
  | .yield t => run g depth t
termination_by g.turnsLeft depth s.path s.pending
decreasing_by exact turnsLeft_lt_of_step _hturn

/-- The chains of one call or more that start at a function. -/
def chainsFrom (g : CallGraph) (root : FunctionId) (depth : Nat) : List (List FunctionId) :=
  (ChainSearch.run g depth ⟨[root], [g.nextHops depth [root]], #[]⟩).toList

end CallGraph

end CodeGraph
