import CodeGraph.Proofs.Imports.Search
import Mathlib.Data.List.Chain

/-!
# Routes of imports

* `Route` — packages each of which leads to the next, and none of them twice.
* `FirstRoute` — the first in order of all routes that end with a package.
* `ClosedOn` — a cycle that the end of a first route closes, by leading to a package of the route.
* `Dependencies.Stand` — where the search stands among all routes: it has come along a first route, and
  has been everywhere that routes before this one go.
* `Dependencies.mem_found_search` — the search finds exactly the cycles that are closed on first routes.
-/

namespace CodeGraph

/-! ### Lists that part -/

theorem lt_of_part {x y : String} (h : x < y) (before as bs : List String) :
    before ++ x :: as < before ++ y :: bs :=
  List.Lex.append_left _ (List.Lex.rel h) before

/-- Of two lists one goes on from the other, or they part. -/
theorem prefix_or_part (as bs : List String) : as <+: bs ∨ bs <+: as ∨
    ∃ before x y as' bs', x ≠ y ∧ as = before ++ x :: as' ∧ bs = before ++ y :: bs' := by
  induction as generalizing bs with
  | nil => exact Or.inl (List.nil_prefix)
  | cons a as ih =>
    cases bs with
    | nil => exact Or.inr (Or.inl List.nil_prefix)
    | cons b bs =>
      by_cases hab : a = b
      · subst hab
        rcases ih bs with h | h | ⟨before, x, y, as', bs', hne, rfl, rfl⟩
        · exact Or.inl ((List.prefix_cons_inj a).mpr h)
        · exact Or.inr (Or.inl ((List.prefix_cons_inj a).mpr h))
        · exact Or.inr (Or.inr ⟨a :: before, x, y, as', bs', hne, rfl, rfl⟩)
      · exact Or.inr (Or.inr ⟨[], a, b, as, bs, hab, rfl, rfl⟩)

/-- A list that ends with a member has no proper part of its start that ends with it too. -/
theorem eq_of_prefix_of_getLast? {as bs : List String} {p : String} (h : as <+: bs)
    (hnodup : bs.Nodup) (has : as.getLast? = some p) (hbs : bs.getLast? = some p) : as = bs := by
  obtain ⟨rest, rfl⟩ := h
  cases rest with
  | nil => exact (List.append_nil as).symm
  | cons x rest =>
    rw [List.getLast?_append_cons] at hbs
    have hrest : p ∈ x :: rest := List.mem_of_getLast? hbs
    exact absurd hrest (List.disjoint_of_nodup_append hnodup (List.mem_of_getLast? has))

/-! ### Routes -/

/-- Packages each of which leads to the next, and none of them twice. -/
structure Route (leads : String → String → Prop) (packages route : List String) : Prop where
  chain : route.IsChain leads
  nodup : route.Nodup
  within : route ⊆ packages

/-- Of all routes that end with a package the first in order. -/
structure FirstRoute (leads : String → String → Prop) (packages route : List String) (p : String) :
    Prop extends Route leads packages route where
  ends : route.getLast? = some p
  first : ∀ other, Route leads packages other → other.getLast? = some p → route ≤ other

/-- A cycle that the end of a first route closes, by leading to a package of the route. -/
def ClosedOn (leads : String → String → Prop) (packages : List String) (c : Cycle) : Prop :=
  ∃ route p q, FirstRoute leads packages route p ∧ leads p q ∧ q ∈ route ∧
    c = .canonical (route.dropWhile (· ≠ q))

variable {leads : String → String → Prop} {packages route : List String} {p q : String}

theorem FirstRoute.unique {other : List String} (h : FirstRoute leads packages route p)
    (h' : FirstRoute leads packages other p) : route = other :=
  le_antisymm (h.first other h'.toRoute h'.ends) (h'.first route h.toRoute h.ends)

/-- The part of a route from a package on. -/
theorem Route.exists_part (h : Route leads packages route) (hq : q ∈ route) :
    ∃ before after, route = before ++ q :: after ∧ q ∉ before ∧
      route.dropWhile (· ≠ q) = q :: after := by
  obtain ⟨before, after, rfl, hbefore⟩ := List.eq_append_cons_of_mem hq
  exact ⟨before, after, rfl, hbefore, dropWhile_ne_append_cons hbefore⟩

namespace Dependencies

variable {next : String → List String} {stack targets looked rest : List String}
  {s s' m : SearchState} {target : String}

/-- A package imports another. -/
def Leads (next : String → List String) (p q : String) : Prop := q ∈ next p

/-- On a stack without repetition, the cycle that is closed is a part of the route to its top. -/
theorem closing_eq (hnodup : stack.Nodup) (htarget : target ∈ stack) :
    closing stack target = .canonical (stack.reverse.dropWhile (· ≠ target)) := by
  obtain ⟨before, after, rfl, hbefore⟩ := List.eq_append_cons_of_mem htarget
  have hafter : target ∉ after := (List.nodup_cons.mp (List.nodup_append.mp hnodup).2.1).1
  rw [closing, takeWhile_ne_append_cons hbefore, List.reverse_append, List.reverse_cons,
    List.append_assoc, List.singleton_append,
    dropWhile_ne_append_cons fun hmem => hafter (List.mem_reverse.mp hmem)]

/-- What the search looks at in order, with a stack. -/
def options (next : String → List String) (packages : List String) : (stack : List String) → List String
  | [] => packages
  | p :: _ => next p

/-- Packages and what they import are in order, and no import leads elsewhere. -/
structure InOrder (next : String → List String) (packages : List String) : Prop where
  ascending : packages.Pairwise (· < ·)
  imports : ∀ p, (next p).Pairwise (· < ·)
  closed : ∀ p ∈ packages, next p ⊆ packages

theorem InOrder.options (h : InOrder next packages) (stack : List String) :
    (options next packages stack).Pairwise (· < ·) := by
  cases stack with
  | nil => exact h.ascending
  | cons p stack => exact h.imports p

/-- The search has come to the top of the stack along a first route.  It has been everywhere that
routes go which turn off before this one, or from its end to something looked at; and whatever it has
left, it has been to all that this imports. -/
structure Stand (next : String → List String) (packages stack : List String) (s : SearchState)
    (looked : List String) : Prop where
  route : Route (Leads next) packages stack.reverse
  first : ∀ p ∈ stack.head?, FirstRoute (Leads next) packages stack.reverse p
  turned : ∀ before x after y rest, stack.reverse = before ++ y :: rest → x < y →
    Route (Leads next) packages (before ++ x :: after) → x :: after ⊆ s.visited
  passed : ∀ x ∈ looked, ∀ after, Route (Leads next) packages (stack.reverse ++ x :: after) →
    x :: after ⊆ s.visited
  entered : stack ⊆ s.visited
  onward : ∀ p ∈ s.visited, p ∉ stack → next p ⊆ s.visited

/-- The cycles that have been found are closed on first routes, and none is missing of a package that
has been left. -/
structure Reports (next : String → List String) (packages stack : List String) (s : SearchState) :
    Prop where
  sound : ∀ c ∈ s.found, ClosedOn (Leads next) packages c
  complete : ∀ p ∈ s.visited, p ∉ stack → ∃ route, FirstRoute (Leads next) packages route p ∧
    ∀ q ∈ next p, q ∈ route → .canonical (route.dropWhile (· ≠ q)) ∈ s.found

namespace Stand

/-- Whatever a route that goes on from the stack leads to can be looked at. -/
theorem mem_options {x : String} {after : List String}
    (h : Route (Leads next) packages (stack.reverse ++ x :: after)) :
    x ∈ options next packages stack := by
  cases stack with
  | nil => exact h.within List.mem_cons_self
  | cons p stack =>
    obtain ⟨-, -, hjoint⟩ := List.isChain_append.mp h.chain
    exact hjoint p (by rw [List.getLast?_reverse, List.head?_cons]; rfl) x rfl

/-- Once all that a route goes on to has been visited, its package has been looked at. -/
theorem pass (h : Stand next packages stack s looked)
    (hpassed : ∀ after, Route (Leads next) packages (stack.reverse ++ target :: after) →
      target :: after ⊆ s.visited) : Stand next packages stack s (looked ++ [target]) where
  route := h.route
  first := h.first
  turned := h.turned
  passed x hx := by
    rcases List.mem_append.mp hx with hx | hx
    · exact h.passed x hx
    · exact List.mem_singleton.mp hx ▸ hpassed
  entered := h.entered
  onward := h.onward

/-- No route comes to the stack again. -/
theorem close (h : Stand next packages stack s looked) (htarget : target ∈ stack) (c : Cycle) :
    Stand next packages stack { s with found := c :: s.found } (looked ++ [target]) := by
  have hsame : Stand next packages stack { s with found := c :: s.found } looked :=
    ⟨h.route, h.first, h.turned, h.passed, h.entered, h.onward⟩
  refine hsame.pass fun after hroute => ?_
  exact absurd List.mem_cons_self
    (List.disjoint_of_nodup_append hroute.nodup (List.mem_reverse.mpr htarget))

/-- Routes that go on through what has been left stay within what has been visited. -/
theorem visited_of_isChain (h : Stand next packages stack s looked) {after : List String}
    (hchain : (target :: after).IsChain (Leads next)) (hoff : ∀ p ∈ target :: after, p ∉ stack)
    (htarget : target ∈ s.visited) : target :: after ⊆ s.visited := by
  induction after generalizing target with
  | nil => exact List.cons_subset.mpr ⟨htarget, List.nil_subset _⟩
  | cons q after ih =>
    obtain ⟨hlead, hrest⟩ := List.isChain_cons_cons.mp hchain
    obtain ⟨htop, hoff⟩ := List.forall_mem_cons.mp hoff
    exact List.cons_subset.mpr ⟨htarget, ih hrest hoff (h.onward target htarget htop hlead)⟩

theorem skip (h : Stand next packages stack s looked) (htarget : target ∈ s.visited) :
    Stand next packages stack s (looked ++ [target]) := by
  refine h.pass fun after hroute => ?_
  obtain ⟨-, hchain, -⟩ := List.isChain_append.mp hroute.chain
  refine h.visited_of_isChain hchain (fun p hp hstack => ?_) htarget
  exact List.disjoint_of_nodup_append hroute.nodup (List.mem_reverse.mpr hstack) hp

/-- The route to a package that is entered. -/
theorem route_enter (h : Stand next packages stack s looked) (hstack : target ∉ stack)
    (htarget : target ∈ options next packages stack) (hwithin : target ∈ packages) :
    Route (Leads next) packages (target :: stack).reverse := by
  rw [List.reverse_cons]
  refine ⟨?_, ?_, List.append_subset.mpr ⟨h.route.within, by simpa using hwithin⟩⟩
  · refine List.isChain_append.mpr ⟨h.route.chain, List.isChain_singleton target, ?_⟩
    intro p hp q hq
    rw [List.getLast?_reverse] at hp
    obtain rfl : target = q := Option.mem_some_iff.mp hq
    cases stack with
    | nil => cases hp
    | cons p' stack =>
      obtain rfl : p' = p := Option.mem_some_iff.mp hp
      exact htarget
  · exact List.nodup_append.mpr ⟨h.route.nodup, List.nodup_singleton target, fun p hp q hq => by
      rw [List.mem_singleton.mp hq]
      exact ne_of_mem_of_not_mem (List.mem_reverse.mp hp) hstack⟩

/-- Routes that turn off before the package that is entered have been followed. -/
theorem turned_enter (h : Stand next packages stack s looked) (horder : InOrder next packages)
    (hoptions : options next packages stack = looked ++ target :: rest) {before after others : List String}
    {x y : String} (hbefore : (target :: stack).reverse = before ++ y :: others) (hlt : x < y)
    (hroute : Route (Leads next) packages (before ++ x :: after)) : x :: after ⊆ s.visited := by
  rw [List.reverse_cons] at hbefore
  rcases List.eq_nil_or_concat others with rfl | ⟨others, z, rfl⟩
  · -- the other route turns off at the end
    obtain ⟨rfl, hy⟩ := List.append_inj' hbefore rfl
    obtain rfl : target = y := (List.cons.inj hy).1
    have hsorted := hoptions ▸ horder.options stack
    refine h.passed x ?_ after hroute
    rcases List.mem_append.mp (hoptions ▸ mem_options hroute) with hx | hx
    · exact hx
    · rcases List.mem_cons.mp hx with rfl | hx
      · exact absurd hlt (lt_irrefl _)
      · have hafter := (List.pairwise_cons.mp (List.pairwise_append.mp hsorted).2.1).1 x hx
        exact absurd hlt (lt_asymm hafter)
  · rw [List.concat_eq_append, ← List.cons_append, ← List.append_assoc] at hbefore
    exact h.turned before x after y others (List.append_inj' hbefore rfl).1 hlt hroute

/-- A package is entered along its first route: the others have been followed, and did not come to
it. -/
theorem first_enter (h : Stand next packages stack s looked) (horder : InOrder next packages)
    (hoptions : options next packages stack = looked ++ target :: rest) (hnew : target ∉ s.visited)
    (hroute : Route (Leads next) packages (target :: stack).reverse) :
    FirstRoute (Leads next) packages (target :: stack).reverse target where
  toRoute := hroute
  ends := by rw [List.getLast?_reverse, List.head?_cons]
  first other hother hends := by
    have htop : (target :: stack).reverse.getLast? = some target := by
      rw [List.getLast?_reverse, List.head?_cons]
    rcases prefix_or_part other (target :: stack).reverse with hprefix | hprefix | hpart
    · exact (eq_of_prefix_of_getLast? hprefix hroute.nodup hends htop).ge
    · exact (eq_of_prefix_of_getLast? hprefix hother.nodup htop hends).le
    · obtain ⟨before, x, y, after, others, hne, rfl, hbefore⟩ := hpart
      rcases lt_or_gt_of_ne hne with hlt | hgt
      · rw [List.getLast?_append_cons] at hends
        have hend : target ∈ x :: after := List.mem_of_getLast? hends
        exact absurd (h.turned_enter horder hoptions hbefore hlt hother hend) hnew
      · rw [hbefore]
        exact (lt_of_part hgt before others after).le

theorem enter (h : Stand next packages stack s looked) (horder : InOrder next packages)
    (hoptions : options next packages stack = looked ++ target :: rest) (hstack : target ∉ stack)
    (hnew : target ∉ s.visited) (hwithin : target ∈ packages) :
    Stand next packages (target :: stack) { s with visited := target :: s.visited } [] := by
  have htarget : target ∈ options next packages stack := hoptions ▸ List.mem_append_right _ List.mem_cons_self
  have hroute := h.route_enter hstack htarget hwithin
  refine ⟨hroute, fun p hp => ?_, ?_, fun x hx => absurd hx List.not_mem_nil, ?_, ?_⟩
  · obtain rfl : target = p := Option.mem_some_iff.mp hp
    exact h.first_enter horder hoptions hnew hroute
  · intro before x after y others hbefore hlt hother
    exact fun p hp =>
      List.mem_cons_of_mem _ (h.turned_enter horder hoptions hbefore hlt hother hp)
  · exact List.cons_subset_cons target h.entered
  · intro p hp hoff
    rw [List.mem_cons, not_or] at hoff
    have hvisited := (List.mem_cons.mp hp).resolve_left hoff.1
    exact fun q hq => List.mem_cons_of_mem _ (h.onward p hvisited hoff.2 hq)

/-- Back from a package, all that it imports has been looked at. -/
theorem leave (h : Stand next packages stack s looked)
    (hinside : Stand next packages (target :: stack) m (next target))
    (hvisited : s.visited ⊆ m.visited) (himports : next target ⊆ m.visited) :
    Stand next packages stack m (looked ++ [target]) := by
  have hlater : Stand next packages stack m looked := {
    route := h.route
    first := h.first
    turned := fun before x after y others hbefore hlt hroute p hp =>
      hvisited (h.turned before x after y others hbefore hlt hroute hp)
    passed := fun x hx after hroute p hp => hvisited (h.passed x hx after hroute hp)
    entered := fun p hp => hvisited (h.entered hp)
    onward := fun p hp hoff => by
      by_cases htarget : p = target
      · exact htarget ▸ himports
      · exact hinside.onward p hp fun hmem => (List.mem_cons.mp hmem).elim htarget hoff }
  refine hlater.pass fun after hroute => ?_
  have htop : target ∈ m.visited := hinside.entered List.mem_cons_self
  cases after with
  | nil => exact List.cons_subset.mpr ⟨htop, List.nil_subset _⟩
  | cons x after =>
    have hx : x ∈ next target := by
      obtain ⟨-, hchain, -⟩ := List.isChain_append.mp hroute.chain
      exact (List.isChain_cons_cons.mp hchain).1
    have hbeyond : Route (Leads next) packages ((target :: stack).reverse ++ x :: after) := by
      rw [List.reverse_cons, List.append_assoc]
      exact hroute
    exact List.cons_subset.mpr ⟨htop, hinside.passed x hx after hbeyond⟩

end Stand

namespace Reports

theorem close (h : Reports next packages stack s) (hstand : Stand next packages stack s looked)
    (hoptions : options next packages stack = looked ++ target :: rest) (htarget : target ∈ stack) :
    Reports next packages stack { s with found := closing stack target :: s.found } where
  sound := by
    refine List.forall_mem_cons.mpr ⟨?_, h.sound⟩
    cases stack with
    | nil => cases htarget
    | cons p stack =>
      have hlead : target ∈ next p := by
        rw [show next p = looked ++ target :: rest from hoptions]
        exact List.mem_append_right _ List.mem_cons_self
      refine ⟨_, p, target, hstand.first p rfl, hlead, List.mem_reverse.mpr htarget, ?_⟩
      exact closing_eq (List.nodup_reverse.mp hstand.route.nodup) htarget
  complete p hp hoff := by
    obtain ⟨route, hfirst, hfound⟩ := h.complete p hp hoff
    exact ⟨route, hfirst, fun q hq hroute => List.mem_cons_of_mem _ (hfound q hq hroute)⟩

theorem enter (h : Reports next packages stack s) (target : String) :
    Reports next packages (target :: stack) { s with visited := target :: s.visited } where
  sound := h.sound
  complete p hp hoff := by
    rw [List.mem_cons, not_or] at hoff
    exact h.complete p ((List.mem_cons.mp hp).resolve_left hoff.1) hoff.2

theorem leave (h : Reports next packages (p :: stack) s)
    (hfirst : FirstRoute (Leads next) packages (p :: stack).reverse p)
    (hclosed : ∀ q ∈ next p, q ∈ p :: stack → closing (p :: stack) q ∈ s.found) :
    Reports next packages stack s where
  sound := h.sound
  complete q hq hoff := by
    by_cases hqp : q = p
    · subst hqp
      refine ⟨_, hfirst, fun target htarget hmem => ?_⟩
      have hstack := List.mem_reverse.mp hmem
      rw [← closing_eq (List.nodup_reverse.mp hfirst.nodup) hstack]
      exact hclosed target htarget hstack
    · exact h.complete q hq fun hmem => (List.mem_cons.mp hmem).elim hqp hoff

end Reports

/-- A run comes to all that it looks at, and misses no cycle. -/
theorem Looks.stand (h : Looks next stack s targets s') (horder : InOrder next packages)
    (hoptions : options next packages stack = looked ++ targets)
    (hstand : Stand next packages stack s looked) (hreports : Reports next packages stack s) :
    Stand next packages stack s' (looked ++ targets) ∧ Reports next packages stack s' ∧
      ∀ q ∈ targets, q ∈ stack → closing stack q ∈ s'.found := by
  induction h generalizing looked with
  | done =>
    rw [List.append_nil]
    exact ⟨hstand, hreports, fun q hq => absurd hq List.not_mem_nil⟩
  | @closes stack rest s s' target htarget hrest ih =>
    have hreports' := hreports.close hstand hoptions htarget
    rw [List.append_cons] at hoptions ⊢
    obtain ⟨hafter, hreported, hfound⟩ :=
      ih hoptions (hstand.close htarget (closing stack target)) hreports'
    refine ⟨hafter, hreported, List.forall_mem_cons.mpr ⟨fun _ => ?_, hfound⟩⟩
    exact hrest.found_subset List.mem_cons_self
  | skips hstack hvisited _ ih =>
    rw [List.append_cons] at hoptions ⊢
    obtain ⟨hafter, hreported, hfound⟩ := ih hoptions (hstand.skip hvisited) hreports
    exact ⟨hafter, hreported, List.forall_mem_cons.mpr ⟨fun hmem => absurd hmem hstack, hfound⟩⟩
  | @enters stack rest s m s' target hstack hnew hinside hrest ihinside ih =>
    have hwithin : target ∈ packages := by
      have htarget : target ∈ options next packages stack :=
        hoptions ▸ List.mem_append_right _ List.mem_cons_self
      cases stack with
      | nil => exact htarget
      | cons p stack =>
        exact horder.closed p (hstand.route.within (by simp)) htarget
    have hstand₁ := hstand.enter horder hoptions hstack hnew hwithin
    have hall : options next packages (target :: stack) = [] ++ next target := rfl
    obtain ⟨hinner, hreported₁, hfound₁⟩ := ihinside hall hstand₁ (hreports.enter target)
    obtain ⟨htarget, hbefore⟩ := List.cons_subset.mp hinside.visited_subset
    have himports : next target ⊆ m.visited := hinside.targets_subset hstand₁.entered
    have hback := hstand.leave hinner hbefore himports
    rw [List.append_cons] at hoptions ⊢
    obtain ⟨hafter, hreported, hfound⟩ :=
      ih hoptions hback (hreported₁.leave (hstand₁.first target rfl) hfound₁)
    exact ⟨hafter, hreported, List.forall_mem_cons.mpr ⟨fun hmem => absurd hmem hstack, hfound⟩⟩

/-- The search finds exactly the cycles that are closed on first routes. -/
theorem mem_found_search (horder : InOrder next packages) {c : Cycle} :
    c ∈ (search next packages).found ↔ ClosedOn (Leads next) packages c := by
  have hlooks := looks_search horder.closed
  have hstand : Stand next packages [] ⟨[], []⟩ [] := {
    route := ⟨List.isChain_nil, List.nodup_nil, List.nil_subset _⟩
    first := fun p hp => nomatch hp
    turned := fun before x after y rest hbefore => by simp at hbefore
    passed := fun x hx => absurd hx List.not_mem_nil
    entered := List.nil_subset _
    onward := fun p hp => absurd hp List.not_mem_nil }
  have hreports : Reports next packages [] ⟨[], []⟩ :=
    ⟨fun c hc => absurd hc List.not_mem_nil, fun p hp => absurd hp List.not_mem_nil⟩
  obtain ⟨-, hreported, -⟩ := hlooks.stand horder rfl hstand hreports
  constructor
  · exact hreported.sound c
  · rintro ⟨route, p, q, hfirst, hlead, hq, rfl⟩
    have hp : p ∈ packages := hfirst.within (List.mem_of_getLast? hfirst.ends)
    have hvisited := hlooks.targets_subset (List.nil_subset _) hp
    obtain ⟨route', hfirst', hfound⟩ := hreported.complete p hvisited List.not_mem_nil
    obtain rfl := hfirst.unique hfirst'
    exact hfound q hlead hq

end Dependencies

end CodeGraph
