import CodeGraph.Proofs.Syntax.Walk

/-!
# Which nodes a walk visits, and in what order

Equal nodes can stand at several places of a tree, so visits are told apart by their places:

* `Node.at?` — the node at a place, the child indices on the way down from the root.
* `Node.visits` — the visits that the recursion over a tree makes.
* `Covers` — visits that are each inside, follow the order of the places and leave out only what was
  skipped or comes after the end.
* `Node.covers_visits` — the recursion's visits are such visits, whatever the visitor answers.
* `TreeCursor.walk_visits` — a walk over cursors makes the same visits, and ends.
-/

namespace CodeGraph.Syntax

/-! ### Places in a tree -/

/-- The node at a place: the indices of the children to go down to. -/
def Node.at? : Node → List Nat → Option Node
  | n, [] => some n
  | n, i :: place => n.children[i]?.bind (·.at? place)

/-- The node at a place below trees that are numbered from `i` on. -/
def forestAt? (i : Nat) (ns : List Node) : List Nat → Option Node
  | [] => none
  | j :: place => if j < i then none else ns[j - i]?.bind (·.at? place)

/-- The node at a place below the tree of number `i`. -/
def Node.below? (i : Nat) (n : Node) : List Nat → Option Node
  | [] => none
  | j :: place => if j = i then n.at? place else none

theorem forestAt?_nil (i : Nat) (place : List Nat) : forestAt? i [] place = none := by
  cases place with
  | nil => rfl
  | cons j place => simp [forestAt?]

theorem forestAt?_cons (i : Nat) (n : Node) (ns : List Node) (place : List Nat) :
    forestAt? i (n :: ns) place = (n.below? i place <|> forestAt? (i + 1) ns place) := by
  cases place with
  | nil => rfl
  | cons j place =>
    rw [forestAt?, Node.below?, forestAt?]
    by_cases hfirst : j = i
    · subst hfirst
      simp
    · by_cases hbefore : j < i
      · have hbefore' : j < i + 1 := by omega
        simp [hfirst, hbefore, hbefore']
      · have hafter : ¬ j < i + 1 := by omega
        have hindex : j - i = (j - (i + 1)) + 1 := by omega
        simp [hfirst, hbefore, hafter, hindex]

theorem Node.at?_cons (l : Label) (cs : List Node) (i : Nat) (place : List Nat) :
    (Node.node l cs).at? (i :: place) = forestAt? 0 cs (i :: place) := by
  rw [Node.at?, forestAt?]
  simp [Node.children]

theorem Node.below?_isSome {i : Nat} {n : Node} {place : List Nat} (h : (n.below? i place).isSome) :
    ∃ rest, place = i :: rest ∧ (n.at? rest).isSome := by
  cases place with
  | nil => cases h
  | cons j rest =>
    by_cases hj : j = i
    · subst hj
      exact ⟨rest, rfl, by simpa [Node.below?] using h⟩
    · simp [Node.below?, hj] at h

theorem forestAt?_isSome {i : Nat} {ns : List Node} {place : List Nat}
    (h : (forestAt? i ns place).isSome) : ∃ j rest, place = j :: rest ∧ i ≤ j := by
  cases place with
  | nil => cases h
  | cons j rest =>
    by_cases hj : j < i
    · simp [forestAt?, hj] at h
    · exact ⟨j, rest, rfl, Nat.le_of_not_lt hj⟩

/-- A place of a tree lies before those of the trees after it, and none of these is below it. -/
theorem below?_before_forestAt? {i : Nat} {n : Node} {ns : List Node} {p q : List Nat}
    (hp : (n.below? i p).isSome) (hq : (forestAt? (i + 1) ns q).isSome) : p < q ∧ ¬ p <+: q := by
  obtain ⟨p, rfl, -⟩ := Node.below?_isSome hp
  obtain ⟨j, q, rfl, hj⟩ := forestAt?_isSome hq
  rw [List.cons_lt_cons_iff, List.cons_prefix_cons]
  omega

/-! ### Visits -/

/-- One call of the visitor: where the node stands, the node itself and the visitor's answer. -/
structure Visit where
  place : List Nat
  node : Node
  answer : Step

namespace Visit

/-- What the visitor itself takes part in. -/
def call (v : Visit) : Node × Step := (v.node, v.answer)

/-- The same visit, seen from the parent whose child of number `i` the tree is. -/
def under (i : Nat) (v : Visit) : Visit := { v with place := i :: v.place }

@[simp] theorem call_under (i : Nat) (v : Visit) : (v.under i).call = v.call := rfl

@[simp] theorem place_under (i : Nat) (v : Visit) : (v.under i).place = i :: v.place := rfl

@[simp] theorem answer_under (i : Nat) (v : Visit) : (v.under i).answer = v.answer := rfl

@[simp] theorem node_under (i : Nat) (v : Visit) : (v.under i).node = v.node := rfl

end Visit

/-- Visits that follow the order of the places and leave out no more than the visitor's answers demand.
The order of places is lexicographic: a place comes before those below it, and the places below a child
before those below its later siblings. -/
structure Covers (at? : List Nat → Option Node) (vs : List Visit) : Prop where
  /-- Every node visited is the one at its place. -/
  inside : ∀ v ∈ vs, at? v.place = some v.node
  /-- The visits follow the order of the places, so no place has two. -/
  ordered : vs.Pairwise (fun v w => v.place < w.place)
  /-- Nothing below a skipped node is visited. -/
  skips : ∀ v ∈ vs, v.answer = .skip → ∀ w ∈ vs, v.place <+: w.place → w.place = v.place
  /-- Nothing is visited after the visitor stopped. -/
  stops : ∀ v ∈ vs, v.answer = .stop → ∀ w ∈ vs, ¬ v.place < w.place
  /-- What is not visited is below a skipped node or comes after the stop. -/
  complete : ∀ place, (at? place).isSome → (∃ v ∈ vs, v.place = place) ∨
    (∃ v ∈ vs, v.answer = .skip ∧ v.place <+: place) ∨ ∃ v ∈ vs, v.answer = .stop ∧ v.place < place

theorem lt_append_singleton (place : List Nat) (i : Nat) : place < place ++ [i] := by
  induction place with
  | nil => exact List.nil_lt_cons _ _
  | cons j place ih => exact List.cons_lt_cons_iff.mpr (.inr ⟨rfl, ih⟩)

/-- The parent of a node that is visited was visited before it, and the visitor went into it. -/
theorem Covers.parent {n : Node} {vs : List Visit} (h : Covers n.at? vs) {v : Visit} (hv : v ∈ vs)
    {place : List Nat} {i : Nat} (hplace : v.place = place ++ [i])
    (hthere : (n.at? place).isSome) : ∃ w ∈ vs, w.place = place ∧ w.answer = .descend := by
  have hbelow : place <+: v.place := ⟨[i], hplace.symm⟩
  have hbefore : place < v.place := by
    rw [hplace]
    exact lt_append_singleton place i
  obtain ⟨w, hw, hwplace⟩ | ⟨w, hw, hskip, hwplace⟩ | ⟨w, hw, hstop, hlt⟩ := h.complete place hthere
  · refine ⟨w, hw, hwplace, ?_⟩
    subst hwplace
    cases hanswer : w.answer with
    | descend => rfl
    | skip =>
      have heq := h.skips w hw hanswer v hv hbelow
      rw [hplace] at heq
      simp at heq
    | stop => exact absurd hbefore (h.stops w hw hanswer v hv)
  · have heq := h.skips w hw hskip v hv (hwplace.trans hbelow)
    have hlength := hwplace.length_le
    rw [← heq, hplace, List.length_append, List.length_singleton] at hlength
    omega
  · exact absurd (List.lt_trans hlt hbefore) (h.stops w hw hstop v hv)

/-! ### Putting coverings together -/

namespace Covers

/-- The covering of a tree whose root is not gone into. -/
theorem leave (n : Node) (step : Step) (h : step ≠ .descend) : Covers n.at? [⟨[], n, step⟩] where
  inside v hv := by
    rw [List.mem_singleton.mp hv]
    rfl
  ordered := List.pairwise_singleton _ _
  skips v hv _ w hw _ := by rw [List.mem_singleton.mp hv, List.mem_singleton.mp hw]
  stops v hv _ w hw := by
    rw [List.mem_singleton.mp hv, List.mem_singleton.mp hw]
    exact List.lt_irrefl _
  complete place _ := by
    cases place with
    | nil => exact .inl ⟨_, List.mem_singleton.mpr rfl, rfl⟩
    | cons i place =>
      cases step with
      | descend => exact absurd rfl h
      | skip => exact .inr (.inl ⟨_, List.mem_singleton.mpr rfl, rfl, List.nil_prefix⟩)
      | stop => exact .inr (.inr ⟨_, List.mem_singleton.mpr rfl, rfl, List.nil_lt_cons _ _⟩)

/-- The covering of a tree from one of the trees below its root. -/
theorem descend {l : Label} {cs : List Node} {vs : List Visit} (h : Covers (forestAt? 0 cs) vs) :
    Covers (Node.node l cs).at? (⟨[], .node l cs, .descend⟩ :: vs) := by
  have hbelow : ∀ v ∈ vs, ∃ i place, v.place = i :: place := by
    intro v hv
    obtain ⟨i, place, hplace, -⟩ := forestAt?_isSome (Option.isSome_of_eq_some (h.inside v hv))
    exact ⟨i, place, hplace⟩
  refine ⟨?_, ?_, ?_, ?_, ?_⟩
  · intro v hv
    rcases List.mem_cons.mp hv with rfl | hv
    · rfl
    · obtain ⟨i, place, hplace⟩ := hbelow v hv
      rw [hplace, Node.at?_cons, ← hplace]
      exact h.inside v hv
  · refine List.pairwise_cons.mpr ⟨?_, h.ordered⟩
    intro v hv
    obtain ⟨i, place, hplace⟩ := hbelow v hv
    rw [hplace]
    exact List.nil_lt_cons _ _
  · intro v hv hskip w hw hprefix
    rcases List.mem_cons.mp hv with rfl | hv
    · cases hskip
    · rcases List.mem_cons.mp hw with rfl | hw
      · exact (List.prefix_nil.mp hprefix).symm
      · exact h.skips v hv hskip w hw hprefix
  · intro v hv hstop w hw
    rcases List.mem_cons.mp hv with rfl | hv
    · cases hstop
    · rcases List.mem_cons.mp hw with rfl | hw
      · exact List.not_lt_nil _
      · exact h.stops v hv hstop w hw
  · intro place hthere
    cases place with
    | nil => exact .inl ⟨_, List.mem_cons_self, rfl⟩
    | cons i place =>
      rw [Node.at?_cons] at hthere
      obtain ⟨v, hv, hcase⟩ | ⟨v, hv, hcase⟩ | ⟨v, hv, hcase⟩ := h.complete _ hthere
      · exact .inl ⟨v, List.mem_cons_of_mem _ hv, hcase⟩
      · exact .inr (.inl ⟨v, List.mem_cons_of_mem _ hv, hcase⟩)
      · exact .inr (.inr ⟨v, List.mem_cons_of_mem _ hv, hcase⟩)

/-- The covering of a tree, seen from its parent. -/
theorem under {n : Node} {vs : List Visit} (h : Covers n.at? vs) (i : Nat) :
    Covers (n.below? i) (vs.map (Visit.under i)) := by
  refine ⟨?_, ?_, ?_, ?_, ?_⟩
  · intro _ hmem
    obtain ⟨v, hv, rfl⟩ := List.mem_map.mp hmem
    simpa [Node.below?] using h.inside v hv
  · refine List.pairwise_map.mpr (h.ordered.imp ?_)
    intro v w hlt
    exact List.cons_lt_cons_iff.mpr (.inr ⟨rfl, hlt⟩)
  · intro _ hmem hskip _ hmem' hprefix
    obtain ⟨v, hv, rfl⟩ := List.mem_map.mp hmem
    obtain ⟨w, hw, rfl⟩ := List.mem_map.mp hmem'
    exact congrArg (i :: ·) (h.skips v hv hskip w hw (List.cons_prefix_cons.mp hprefix).2)
  · intro _ hmem hstop _ hmem' hlt
    obtain ⟨v, hv, rfl⟩ := List.mem_map.mp hmem
    obtain ⟨w, hw, rfl⟩ := List.mem_map.mp hmem'
    rw [Visit.place_under, Visit.place_under, List.cons_lt_cons_iff] at hlt
    exact h.stops v hv hstop w hw (by simpa using hlt)
  · intro _ hbelow
    obtain ⟨place, rfl, hthere⟩ := Node.below?_isSome hbelow
    obtain ⟨v, hv, rfl⟩ | ⟨v, hv, hskip, hp⟩ | ⟨v, hv, hstop, hlt⟩ := h.complete place hthere
    · exact .inl ⟨_, List.mem_map_of_mem hv, rfl⟩
    · exact .inr (.inl ⟨_, List.mem_map_of_mem hv, hskip, List.cons_prefix_cons.mpr ⟨rfl, hp⟩⟩)
    · exact .inr (.inr ⟨_, List.mem_map_of_mem hv, hstop, List.cons_lt_cons_iff.mpr (.inr ⟨rfl, hlt⟩)⟩)

theorem nil (i : Nat) : Covers (forestAt? i []) [] where
  inside _ hv := absurd hv List.not_mem_nil
  ordered := .nil
  skips _ hv := absurd hv List.not_mem_nil
  stops _ hv := absurd hv List.not_mem_nil
  complete place hthere := by
    rw [forestAt?_nil] at hthere
    cases hthere

section Forest

variable {i : Nat} {n : Node} {ns : List Node} {vs ws : List Visit}

/-- After a stop nothing of the trees to come is visited, and nothing of them is missed. -/
theorem cons_stopped (h : Covers n.at? vs) (hstop : ∃ v ∈ vs, v.answer = .stop) :
    Covers (forestAt? i (n :: ns)) (vs.map (Visit.under i)) := by
  have hn := h.under i
  refine ⟨?_, hn.ordered, hn.skips, hn.stops, ?_⟩
  · intro v hv
    rw [forestAt?_cons, hn.inside v hv]
    rfl
  · intro place hthere
    rw [forestAt?_cons] at hthere
    by_cases hfirst : (n.below? i place).isSome
    · exact hn.complete place hfirst
    · rw [Option.not_isSome_iff_eq_none.mp hfirst] at hthere
      obtain ⟨v, hv, hanswer⟩ := hstop
      have hin := Option.isSome_of_eq_some (hn.inside _ (List.mem_map_of_mem hv))
      exact .inr (.inr ⟨_, List.mem_map_of_mem hv, hanswer, (below?_before_forestAt? hin hthere).1⟩)

/-- Without a stop the trees to come are visited after the first. -/
theorem cons (h : Covers n.at? vs) (hgo : ∀ v ∈ vs, v.answer ≠ .stop)
    (hs : Covers (forestAt? (i + 1) ns) ws) :
    Covers (forestAt? i (n :: ns)) (vs.map (Visit.under i) ++ ws) := by
  have hn := h.under i
  have hgo' : ∀ v ∈ vs.map (Visit.under i), v.answer ≠ .stop := by
    intro _ hmem
    obtain ⟨v, hv, rfl⟩ := List.mem_map.mp hmem
    exact hgo v hv
  have hbefore : ∀ v ∈ vs.map (Visit.under i), ∀ w ∈ ws,
      v.place < w.place ∧ ¬ v.place <+: w.place := by
    intro v hv w hw
    exact below?_before_forestAt? (Option.isSome_of_eq_some (hn.inside v hv))
      (Option.isSome_of_eq_some (hs.inside w hw))
  refine ⟨?_, ?_, ?_, ?_, ?_⟩
  · intro v hv
    rw [forestAt?_cons]
    rcases List.mem_append.mp hv with hv | hv
    · rw [hn.inside v hv]
      rfl
    · cases hfirst : n.below? i v.place with
      | none => exact hs.inside v hv
      | some m =>
        have hlt := (below?_before_forestAt? (Option.isSome_of_eq_some hfirst)
          (Option.isSome_of_eq_some (hs.inside v hv))).1
        exact absurd hlt (List.lt_irrefl _)
  · exact List.pairwise_append.mpr ⟨hn.ordered, hs.ordered, fun v hv w hw => (hbefore v hv w hw).1⟩
  · intro v hv hskip w hw hprefix
    rcases List.mem_append.mp hv with hv | hv
    · rcases List.mem_append.mp hw with hw | hw
      · exact hn.skips v hv hskip w hw hprefix
      · exact absurd hprefix (hbefore v hv w hw).2
    · rcases List.mem_append.mp hw with hw | hw
      · -- A prefix is not after what it begins.
        have hlt := (hbefore w hw v hv).1
        obtain ⟨rest, hrest⟩ := hprefix
        rw [← hrest] at hlt
        have hnot : ¬ v.place ++ rest < v.place := List.le_append_left
        exact absurd hlt hnot
      · exact hs.skips v hv hskip w hw hprefix
  · intro v hv hstop w hw
    rcases List.mem_append.mp hv with hv | hv
    · exact absurd hstop (hgo' v hv)
    · rcases List.mem_append.mp hw with hw | hw
      · exact fun hlt => List.lt_irrefl _ (List.lt_trans hlt (hbefore w hw v hv).1)
      · exact hs.stops v hv hstop w hw
  · intro place hthere
    rw [forestAt?_cons] at hthere
    by_cases hfirst : (n.below? i place).isSome
    · obtain ⟨v, hv, hcase⟩ | ⟨v, hv, hcase⟩ | ⟨v, hv, hcase⟩ := hn.complete place hfirst
      · exact .inl ⟨v, List.mem_append_left _ hv, hcase⟩
      · exact .inr (.inl ⟨v, List.mem_append_left _ hv, hcase⟩)
      · exact absurd hcase.1 (hgo' v hv)
    · rw [Option.not_isSome_iff_eq_none.mp hfirst] at hthere
      obtain ⟨v, hv, hcase⟩ | ⟨v, hv, hcase⟩ | ⟨v, hv, hcase⟩ := hs.complete place hthere
      · exact .inl ⟨v, List.mem_append_right _ hv, hcase⟩
      · exact .inr (.inl ⟨v, List.mem_append_right _ hv, hcase⟩)
      · exact .inr (.inr ⟨v, List.mem_append_right _ hv, hcase⟩)

end Forest

end Covers

/-! ### The visits of the recursion -/

section Recursion

variable {σ : Type} (visit : σ → Node → σ × Step)

mutual
/-- The visits of a tree. -/
def Node.visits : Node → σ → List Visit
  | .node l cs, s =>
    match visit s (.node l cs) with
    | (s, .descend) => ⟨[], .node l cs, .descend⟩ :: forestVisits 0 cs s
    | (_, step) => [⟨[], .node l cs, step⟩]

/-- The visits of trees that are numbered from `i` on. -/
def forestVisits (i : Nat) : List Node → σ → List Visit
  | [], _ => []
  | n :: ns, s =>
    (n.visits s).map (Visit.under i) ++
      match n.traverse visit s with
      | (_, true) => []
      | (s, false) => forestVisits (i + 1) ns s
end

mutual
/-- The recursion ends early just when one of its visits was answered so. -/
theorem Node.stopped_iff (n : Node) (s : σ) :
    (n.traverse visit s).2 = true ↔ ∃ v ∈ n.visits visit s, v.answer = .stop := by
  obtain ⟨l, cs⟩ := n
  rw [Node.traverse, Node.visits]
  rcases visit s (.node l cs) with ⟨s', step⟩
  cases step with
  | stop => simp
  | skip => simp
  | descend => simpa using forestStopped_iff cs 0 s'

theorem forestStopped_iff (ns : List Node) (i : Nat) (s : σ) :
    (forestTraverse visit ns s).2 = true ↔ ∃ v ∈ forestVisits visit i ns s, v.answer = .stop := by
  cases ns with
  | nil => simp [forestTraverse, forestVisits]
  | cons n ns =>
    have hfirst := Node.stopped_iff n s
    rw [forestTraverse, forestVisits]
    rcases htraverse : n.traverse visit s with ⟨s', stopped⟩
    rw [htraverse] at hfirst
    cases stopped with
    | true =>
      obtain ⟨v, hv, hstop⟩ := hfirst.mp rfl
      have hmem : v.under i ∈ (n.visits visit s).map (Visit.under i) ++ [] :=
        List.mem_append_left _ (List.mem_map_of_mem hv)
      exact ⟨fun _ => ⟨_, hmem, hstop⟩, fun _ => rfl⟩
    | false =>
      have hnone : ∀ v ∈ n.visits visit s, v.answer ≠ .stop := by simpa using hfirst
      refine (forestStopped_iff ns (i + 1) s').trans ⟨?_, ?_⟩
      · intro ⟨v, hv, hstop⟩
        exact ⟨v, List.mem_append_right _ hv, hstop⟩
      · intro ⟨v, hv, hstop⟩
        rcases List.mem_append.mp hv with hv | hv
        · obtain ⟨w, hw, rfl⟩ := List.mem_map.mp hv
          exact absurd hstop (hnone w hw)
        · exact ⟨v, hv, hstop⟩
end

mutual
/-- **The visits of a tree cover it**: parents come before their children and these from left to right,
each once, with nothing below a skipped node and nothing after a stop. -/
theorem Node.covers_visits (n : Node) (s : σ) : Covers n.at? (n.visits visit s) := by
  obtain ⟨l, cs⟩ := n
  rw [Node.visits]
  rcases visit s (.node l cs) with ⟨s', step⟩
  cases step with
  | stop => exact Covers.leave _ _ (by decide)
  | skip => exact Covers.leave _ _ (by decide)
  | descend => exact Covers.descend (forestCovers_visits cs 0 s')

theorem forestCovers_visits (ns : List Node) (i : Nat) (s : σ) :
    Covers (forestAt? i ns) (forestVisits visit i ns s) := by
  cases ns with
  | nil => exact Covers.nil i
  | cons n ns =>
    have hfirst := Node.covers_visits n s
    have hstopped := Node.stopped_iff visit n s
    rw [forestVisits]
    rcases htraverse : n.traverse visit s with ⟨s', stopped⟩
    rw [htraverse] at hstopped
    cases stopped with
    | true =>
      show Covers _ ((n.visits visit s).map (Visit.under i) ++ [])
      rw [List.append_nil]
      exact hfirst.cons_stopped (hstopped.mp rfl)
    | false => exact hfirst.cons (by simpa using hstopped) (forestCovers_visits ns (i + 1) s')
end

/-! ### The calls of the visitor -/

/-- The visitor, with its calls written down. -/
def recording (r : σ × List (Node × Step)) (n : Node) : (σ × List (Node × Step)) × Step :=
  match visit r.1 n with
  | (s, step) => ((s, r.2 ++ [(n, step)]), step)

mutual
/-- The calls are those of the visits, and writing them down changes nothing else. -/
theorem Node.traverse_recording (n : Node) (s : σ) (calls : List (Node × Step)) :
    n.traverse (recording visit) (s, calls) =
      (((n.traverse visit s).1, calls ++ (n.visits visit s).map Visit.call),
        (n.traverse visit s).2) := by
  obtain ⟨l, cs⟩ := n
  rw [Node.traverse, Node.traverse, Node.visits, recording]
  rcases visit s (.node l cs) with ⟨s', step⟩
  cases step with
  | stop => rfl
  | skip => rfl
  | descend =>
    refine (forestTraverse_recording cs 0 s' _).trans ?_
    rw [List.append_assoc]
    rfl

theorem forestTraverse_recording (ns : List Node) (i : Nat) (s : σ) (calls : List (Node × Step)) :
    forestTraverse (recording visit) ns (s, calls) =
      (((forestTraverse visit ns s).1, calls ++ (forestVisits visit i ns s).map Visit.call),
        (forestTraverse visit ns s).2) := by
  cases ns with
  | nil => simp [forestTraverse, forestVisits]
  | cons n ns =>
    have hunder : ((n.visits visit s).map (Visit.under i)).map Visit.call =
        (n.visits visit s).map Visit.call := by simp
    rw [forestTraverse, forestTraverse, forestVisits, Node.traverse_recording n s calls]
    rcases n.traverse visit s with ⟨s', stopped⟩
    cases stopped with
    | true =>
      rw [List.map_append, hunder]
      simp
    | false =>
      refine (forestTraverse_recording ns (i + 1) s' _).trans ?_
      rw [List.map_append, hunder, ← List.append_assoc]
end

/-- **A walk makes the visits of the recursion over the tree under its cursor**, wherever in a larger tree
the cursor stands and whatever the visitor does. It has come to its end after these: more fuel makes
no further call. -/
theorem TreeCursor.walk_visits (c : TreeCursor) (s : σ) :
    Covers c.focus.at? (c.focus.visits visit s) ∧
    c.focus.traverse (recording visit) (s, []) =
      ((c.walk visit s, (c.focus.visits visit s).map Visit.call), (c.focus.traverse visit s).2) ∧
    ∀ extra, walkFrom visit (c.focus.size + extra) 0 c s = c.walk visit s ∧
      walkFrom (recording visit) (c.focus.size + extra) 0 c (s, []) =
        (c.walk visit s, (c.focus.visits visit s).map Visit.call) := by
  have hends {τ : Type} (visit : τ → Node → τ × Step) (s : τ) (extra : Nat) :
      walkFrom visit (c.focus.size + extra) 0 c s = c.walk visit s := by
    have hsize : Node.forestSize (c.focus :: c.pending 0) ≤ c.focus.size := Nat.le_refl _
    rw [walkFrom_eq_traverse visit _ 0 c s (Nat.le_add_right_of_le hsize), TreeCursor.walk,
      walkFrom_eq_traverse visit _ 0 c s hsize]
  have hcalls := Node.traverse_recording visit c.focus s []
  rw [← TreeCursor.walk_eq_traverse, List.nil_append] at hcalls
  refine ⟨Node.covers_visits visit c.focus s, hcalls, fun extra => ⟨hends visit s extra, ?_⟩⟩
  rw [hends, TreeCursor.walk_eq_traverse, hcalls]

end Recursion

end CodeGraph.Syntax
