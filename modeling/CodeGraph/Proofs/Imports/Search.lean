import CodeGraph.Proofs.Imports.Dependency
import Mathlib.Data.List.Perm.Subperm

/-!
# The search for cycles

* `Dependencies.Looks` — the search without a bound on its depth, as a relation; `Dependencies.looks_search`
  says that the bound is never reached, and `Dependencies.Looks.unique` that there is one outcome.
* `Dependencies.Explored` — where the search stands: it has left some packages, and is still in those
  on the stack.
* `Dependencies.Settled` — whatever a package that has been left imports has been left before it, or
  is part of a cycle that has been found.
* `Dependencies.Looks.explored` — both are kept by every run.
-/

namespace CodeGraph

namespace Dependencies

variable {next : String → List String} {packages stack targets rest left : List String}
  {s s' m : SearchState} {p q target : String}

/-! ### The search without a bound -/

/-- The cycle that an import of a package on the stack closes; the stack starts with the package that
the search is in. -/
def closing (stack : List String) (target : String) : Cycle :=
  .canonical (target :: (stack.takeWhile (· ≠ target)).reverse)

/-- The search looks at packages one after the other, and enters those that it has not visited. -/
inductive Looks (next : String → List String) :
    (stack : List String) → SearchState → (targets : List String) → SearchState → Prop
  | done {stack : List String} {s : SearchState} : Looks next stack s [] s
  | closes {stack rest : List String} {s s' : SearchState} {target : String}
      (hstack : target ∈ stack)
      (hrest : Looks next stack { s with found := closing stack target :: s.found } rest s') :
      Looks next stack s (target :: rest) s'
  | skips {stack rest : List String} {s s' : SearchState} {target : String}
      (hstack : target ∉ stack) (hvisited : target ∈ s.visited)
      (hrest : Looks next stack s rest s') : Looks next stack s (target :: rest) s'
  | enters {stack rest : List String} {s m s' : SearchState} {target : String}
      (hstack : target ∉ stack) (hnew : target ∉ s.visited)
      (hinside : Looks next (target :: stack) { s with visited := target :: s.visited } (next target) m)
      (hrest : Looks next stack m rest s') : Looks next stack s (target :: rest) s'

/-- The search has one outcome. -/
theorem Looks.unique (h : Looks next stack s targets s') (h' : Looks next stack s targets m) :
    s' = m := by
  induction h generalizing m with
  | done =>
    cases h'
    rfl
  | closes hstack _ ih =>
    cases h' with
    | closes _ hrest => exact ih hrest
    | skips hother => exact absurd hstack hother
    | enters hother => exact absurd hstack hother
  | skips hstack hvisited _ ih =>
    cases h' with
    | closes hother => exact absurd hother hstack
    | skips _ _ hrest => exact ih hrest
    | enters _ hother => exact absurd hvisited hother
  | enters hstack hnew _ _ ihinside ih =>
    cases h' with
    | closes hother => exact absurd hother hstack
    | skips _ hother => exact absurd hother hnew
    | enters _ _ hinside hrest =>
      obtain rfl := ihinside hinside
      exact ih hrest

/-- A stack holds every package once at most, so there is enough fuel for it. -/
theorem looks_visit (hclosed : ∀ p ∈ packages, next p ⊆ packages) {fuel : Nat}
    (hnodup : (p :: stack).Nodup) (hwithin : p :: stack ⊆ packages)
    (hfuel : packages.length < fuel + stack.length) :
    Looks next (p :: stack) { s with visited := p :: s.visited } (next p)
      (visit next fuel stack s p) := by
  induction fuel generalizing p stack s with
  | zero =>
    have hlength : (p :: stack).length ≤ packages.length :=
      (hnodup.subperm hwithin).length_le
    rw [List.length_cons] at hlength
    omega
  | succ fuel ih =>
    obtain ⟨hp, -⟩ := List.cons_subset.mp hwithin
    rw [visit]
    generalize { s with visited := p :: s.visited } = m
    have htargets := hclosed p hp
    generalize next p = targets at htargets ⊢
    induction targets generalizing m with
    | nil => exact .done
    | cons target rest ihrest =>
      obtain ⟨htarget, hrest⟩ := List.cons_subset.mp htargets
      rw [List.foldl_cons]
      dsimp only
      split
      next hstack => exact .closes (List.contains_iff_mem.mp hstack) (ihrest _ hrest)
      next hstack =>
        have hoff : target ∉ p :: stack := fun hmem => hstack (List.contains_iff_mem.mpr hmem)
        split
        next hvisited => exact .skips hoff (List.contains_iff_mem.mp hvisited) (ihrest _ hrest)
        next hnew =>
          refine .enters hoff (fun hmem => hnew (List.contains_iff_mem.mpr hmem)) ?_ (ihrest _ hrest)
          refine ih (List.nodup_cons.mpr ⟨hoff, hnodup⟩)
            (List.cons_subset.mpr ⟨htarget, hwithin⟩) ?_
          rw [List.length_cons]
          omega

/-- The search is a search without a bound. -/
theorem looks_search (hclosed : ∀ p ∈ packages, next p ⊆ packages) :
    Looks next [] ⟨[], []⟩ packages (search next packages) := by
  suffices hall : ∀ targets ⊆ packages, ∀ m, Looks next [] m targets
      (targets.foldl (fun s p => if s.visited.contains p then s
        else visit next (packages.length + 1) [] s p) m) from
    hall packages (List.Subset.refl packages) ⟨[], []⟩
  intro targets htargets m
  induction targets generalizing m with
  | nil => exact .done
  | cons target rest ihrest =>
    obtain ⟨htarget, hrest⟩ := List.cons_subset.mp htargets
    rw [List.foldl_cons]
    split
    next hvisited =>
      exact .skips List.not_mem_nil (List.contains_iff_mem.mp hvisited) (ihrest hrest _)
    next hnew =>
      refine .enters List.not_mem_nil (fun hmem => hnew (List.contains_iff_mem.mpr hmem)) ?_
        (ihrest hrest _)
      refine looks_visit hclosed (List.nodup_singleton target)
        (List.cons_subset.mpr ⟨htarget, List.nil_subset _⟩) ?_
      rw [List.length_nil]
      omega

/-! ### What the search has left -/

theorem Looks.visited_subset (h : Looks next stack s targets s') : s.visited ⊆ s'.visited := by
  induction h with
  | done => exact List.Subset.refl _
  | closes _ _ ih => exact ih
  | skips _ _ _ ih => exact ih
  | enters _ _ _ _ ihinside ih =>
    exact fun p hp => ih (ihinside (List.mem_cons_of_mem _ hp))

theorem Looks.found_subset (h : Looks next stack s targets s') : s.found ⊆ s'.found := by
  induction h with
  | done => exact List.Subset.refl _
  | closes _ _ ih => exact fun c hc => ih (List.mem_cons_of_mem _ hc)
  | skips _ _ _ ih => exact ih
  | enters _ _ _ _ ihinside ih => exact fun c hc => ih (ihinside hc)

/-- A package is part of a cycle that has been found. -/
def OnFound (found : List Cycle) (p : String) : Prop := ∃ c ∈ found, p ∈ c.packages

/-- Whatever a package imports has been left before it, or is part of a cycle that has been found; the
package left last comes first. -/
inductive Settled (next : String → List String) (found : List Cycle) : List String → Prop
  | nil : Settled next found []
  | cons {p : String} {left : List String} (himports : ∀ q ∈ next p, q ∈ left ∨ OnFound found q)
      (hleft : Settled next found left) : Settled next found (p :: left)

theorem OnFound.of_subset {found found' : List Cycle} (h : OnFound found p) (hsub : found ⊆ found') :
    OnFound found' p := by
  obtain ⟨c, hc, hp⟩ := h
  exact ⟨c, hsub hc, hp⟩

theorem Settled.of_subset {found found' : List Cycle} (h : Settled next found left)
    (hsub : found ⊆ found') : Settled next found' left := by
  induction h with
  | nil => exact .nil
  | cons himports _ ih =>
    exact .cons (fun q hq => (himports q hq).imp_right fun hfound => hfound.of_subset hsub) ih

/-- Whatever the search looks at has been visited in the end. -/
theorem Looks.targets_subset (h : Looks next stack s targets s') (hstack : stack ⊆ s.visited) :
    targets ⊆ s'.visited := by
  induction h with
  | done => exact List.nil_subset _
  | closes hmem hrest ih =>
    exact List.cons_subset.mpr ⟨hrest.visited_subset (hstack hmem), ih hstack⟩
  | skips _ hvisited hrest ih =>
    exact List.cons_subset.mpr ⟨hrest.visited_subset hvisited, ih hstack⟩
  | enters _ _ hinside hrest _ ih =>
    obtain ⟨htarget, hbefore⟩ := List.cons_subset.mp hinside.visited_subset
    exact List.cons_subset.mpr ⟨hrest.visited_subset htarget, ih fun p hp => hbefore (hstack hp)⟩

/-- The search has left some packages and is in those on the stack; it has visited no others. -/
structure Explored (next : String → List String) (stack : List String) (s : SearchState)
    (left : List String) : Prop where
  visited : ∀ p, p ∈ s.visited ↔ p ∈ left ∨ p ∈ stack
  settled : Settled next s.found left

theorem Explored.close (h : Explored next stack s left) (c : Cycle) :
    Explored next stack { s with found := c :: s.found } left :=
  ⟨h.visited, h.settled.of_subset (List.subset_cons_self c s.found)⟩

theorem Explored.enter (h : Explored next stack s left) (target : String) :
    Explored next (target :: stack) { s with visited := target :: s.visited } left where
  visited p := by
    rw [List.mem_cons, List.mem_cons, h.visited p]
    exact or_left_comm
  settled := h.settled

theorem Explored.leave (h : Explored next (p :: stack) s left)
    (himports : ∀ q ∈ next p, q ∈ left ∨ OnFound s.found q) : Explored next stack s (p :: left) where
  visited q := by
    rw [h.visited q, List.mem_cons, List.mem_cons]
    exact or_left_comm.trans or_assoc.symm
  settled := .cons himports h.settled

theorem mem_closing (stack : List String) (target : String) : target ∈ (closing stack target).packages :=
  Cycle.mem_canonical.mpr List.mem_cons_self

/-- A run leaves what it has entered.  Every package that it looks at has been left in the end, or is
part of a cycle that has been found. -/
theorem Looks.explored (h : Looks next stack s targets s') (hbefore : Explored next stack s left) :
    ∃ left', left ⊆ left' ∧ Explored next stack s' left' ∧
      ∀ q ∈ targets, q ∈ left' ∨ OnFound s'.found q := by
  induction h generalizing left with
  | done => exact ⟨left, List.Subset.refl _, hbefore, fun q hq => absurd hq List.not_mem_nil⟩
  | @closes stack rest s s' target hstack hrest ih =>
    obtain ⟨left', hleft, hafter, hlooked⟩ := ih (hbefore.close (closing stack target))
    have hfound : OnFound s'.found target :=
      ⟨closing stack target, hrest.found_subset List.mem_cons_self, mem_closing stack target⟩
    exact ⟨left', hleft, hafter, List.forall_mem_cons.mpr ⟨Or.inr hfound, hlooked⟩⟩
  | skips hstack hvisited _ ih =>
    obtain ⟨left', hleft, hafter, hlooked⟩ := ih hbefore
    have htarget := ((hbefore.visited _).mp hvisited).resolve_right hstack
    exact ⟨left', hleft, hafter, List.forall_mem_cons.mpr ⟨Or.inl (hleft htarget), hlooked⟩⟩
  | @enters stack rest s m s' target hstack hnew hinside hrest ihinside ih =>
    obtain ⟨left₁, hleft₁, hafter₁, hlooked₁⟩ := ihinside (hbefore.enter target)
    obtain ⟨left', hleft, hafter, hlooked⟩ := ih (hafter₁.leave hlooked₁)
    obtain ⟨htarget, hleft'⟩ := List.cons_subset.mp hleft
    exact ⟨left', fun p hp => hleft' (hleft₁ hp), hafter,
      List.forall_mem_cons.mpr ⟨Or.inl htarget, hlooked⟩⟩

/-- In the end every package has been left. -/
theorem exists_settled (hclosed : ∀ p ∈ packages, next p ⊆ packages) :
    ∃ left, packages ⊆ left ∧ Settled next (search next packages).found left := by
  have hlooks := looks_search hclosed
  have hstart : Explored next [] ⟨[], []⟩ [] := ⟨fun p => by simp, .nil⟩
  obtain ⟨left, -, hexplored, -⟩ := hlooks.explored hstart
  refine ⟨left, fun p hp => ?_, hexplored.settled⟩
  have hvisited := hlooks.targets_subset (List.nil_subset _) hp
  exact ((hexplored.visited p).mp hvisited).resolve_right List.not_mem_nil

end Dependencies

end CodeGraph
