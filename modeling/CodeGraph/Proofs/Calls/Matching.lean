import CodeGraph.Proofs.Calls.Sites

/-!
# Calls that are matched by name

An edge is flagged if its target was found by the name of a method alone.

* `CallSite.IsUntyped` — a call of a method on a receiver of which the type is not known.
* `Resolver.nameMatched_iff` — a resolution is by name alone exactly if the call is like that and leads to a
  function of the project.
* `Call.LeadsByName` — a call leads to the target of an edge by name alone.
* `nameMatched_by_first_call` — the main result: the flag is that of the first call, so it tells whether all
  calls lead there by name alone unless the first one does and a later one does not.
-/

namespace CodeGraph

/-- A call of a method on a receiver of which the type is not known. -/
def CallSite.IsUntyped (s : CallSite) : Prop :=
  (s.kind = .method ∨ s.kind = .interfaceDispatch) ∧ s.receiverType = none

/-! ### How a call is resolved -/

namespace Resolver

open Resolution

variable {r : Resolver} {package : String}

/-- What is found with certainty is not matched by name, and neither is what is missing. -/
theorem not_nameMatched_found (target : CallTarget) (kind : CallKind) :
    ∀ x ∈ [found target kind], x.nameMatched = false :=
  List.forall_mem_singleton.mpr rfl

theorem not_nameMatched_missing (name : String) (reason : UnresolvedReason) (kind : CallKind) :
    ∀ x ∈ [missing name reason kind], x.nameMatched = false :=
  List.forall_mem_singleton.mpr rfl

theorem not_nameMatched_direct (site : CallSite) :
    ∀ x ∈ r.direct package site, x.nameMatched = false := by
  rw [direct]
  split
  next =>
    split
    next => exact not_nameMatched_found _ _
    next => exact fun x hx => absurd hx List.not_mem_nil
  next =>
    split
    next => exact not_nameMatched_found _ _
    next =>
      split
      next => exact fun x hx => absurd hx List.not_mem_nil
      next =>
        split
        next => exact fun x hx => absurd hx List.not_mem_nil
        next =>
          split
          next => exact not_nameMatched_found _ _
          next => exact not_nameMatched_missing _ _ _

theorem not_nameMatched_throughInterface (interface : TypeId) (method : String) :
    ∀ x ∈ r.throughInterface interface method, x.nameMatched = false := by
  rw [throughInterface]
  split
  next => exact not_nameMatched_missing _ _ _
  next =>
    split
    next => exact not_nameMatched_missing _ _ _
    next => exact List.forall_mem_map.mpr fun _ _ => rfl

theorem not_nameMatched_typedMethod (owner receiver method : String) :
    ∀ x ∈ r.typedMethod owner receiver method, x.nameMatched = false := by
  rw [typedMethod]
  split
  next => exact not_nameMatched_found _ _
  next =>
    split
    next => exact not_nameMatched_throughInterface _ method
    next =>
      split
      next =>
        split
        next => exact not_nameMatched_found _ _
        next => exact not_nameMatched_missing _ _ _
      next =>
        split
        next => exact not_nameMatched_found _ _
        next => exact not_nameMatched_missing _ _ _

/-- Where the type of the receiver is not known, what is found at all is found by name. -/
theorem nameMatched_byName_iff (method : String) :
    (r.byName package method).nameMatched = true ↔
      ((r.byName package method).target.function?).isSome := by
  rw [byName]
  split <;> simp [missing, CallTarget.function?]

/-- A resolution is by name alone exactly if the call is one of a method on a receiver of which the type is
not known and it leads to a function of the project. -/
theorem nameMatched_iff {site : CallSite} {x : Resolution} (h : x ∈ r.resolve package site) :
    x.nameMatched = true ↔ site.IsUntyped ∧ x.target.function?.isSome := by
  have htyped (hsite : ¬site.IsUntyped) (hx : x.nameMatched = false) :
      x.nameMatched = true ↔ site.IsUntyped ∧ x.target.function?.isSome :=
    iff_of_false (hx ▸ Bool.false_ne_true) fun h => hsite h.1
  rw [resolve] at h
  split at h
  next hkind =>
    exact htyped (by simp [CallSite.IsUntyped, hkind]) (not_nameMatched_direct site x h)
  next hkind =>
    exact htyped (by simp [CallSite.IsUntyped, hkind]) (not_nameMatched_missing _ _ _ x h)
  next hreceiver _ _ =>
    exact htyped (by simp [CallSite.IsUntyped, hreceiver]) (not_nameMatched_typedMethod _ _ _ x h)
  next hreceiver hdirect hdynamic =>
    have huntyped : site.IsUntyped := by
      refine ⟨?_, hreceiver⟩
      cases hkind : site.kind with
      | direct => exact absurd hkind hdirect
      | method => exact .inl rfl
      | interfaceDispatch => exact .inr rfl
      | dynamic => exact absurd hkind hdynamic
    obtain rfl := List.mem_singleton.mp h
    rw [and_iff_right huntyped]
    exact nameMatched_byName_iff site.callee

end Resolver

/-! ### Edges -/

/-- A call leads to the target of an edge by name alone: the type of its receiver is not known, and the
target is a function of the project all the same. -/
def Call.LeadsByName (c : Call) (key : CallKey) : Prop :=
  c.site.IsUntyped ∧ key.target.function?.isSome

/-- An edge that a call makes is flagged exactly if the call leads to its target by name alone. -/
theorem nameMatched_of_mem_callEdges {r : Resolver} {c : Call} {e : CallEdge} (he : e ∈ r.callEdges c) :
    e.nameMatched = true ↔ c.LeadsByName e.key := by
  obtain ⟨x, hx, rfl⟩ := List.mem_map.mp he
  exact Resolver.nameMatched_iff hx

/-- **The flag of an edge is that of its first call**, in the order of packages, files, functions and sites.
So it tells whether all calls that make the edge lead to its target by name alone, unless the first one does
and a later one does not: then the edge is flagged although the type of a receiver is known. -/
theorem nameMatched_by_first_call (r : Resolver) (ps : List Package) :
    ∀ e ∈ resolveCalls r ps, ∃ before first after,
      callsOf ps = before ++ first :: after ∧ e.key ∈ r.callKeys first ∧
      (∀ c ∈ before, e.key ∉ r.callKeys c) ∧
      (e.nameMatched = true ↔ first.LeadsByName e.key) ∧
      ((e.nameMatched = true ↔ ∀ c ∈ callsOf ps, e.key ∈ r.callKeys c → c.LeadsByName e.key) ↔
        (first.LeadsByName e.key → ∀ c ∈ after, e.key ∈ r.callKeys c → c.LeadsByName e.key)) := by
  intro e he
  obtain ⟨before, first, after, hall, hmade, hbefore⟩ := exists_first_call he
  have hkey : e.key ∈ r.callKeys first := by
    rw [← Resolver.map_key_callEdges]
    exact List.mem_map_of_mem hmade
  have hflag := nameMatched_of_mem_callEdges hmade
  refine ⟨before, first, after, hall, hkey, hbefore, hflag, ?_⟩
  have heach : (∀ c ∈ callsOf ps, e.key ∈ r.callKeys c → c.LeadsByName e.key) ↔
      first.LeadsByName e.key ∧ ∀ c ∈ after, e.key ∈ r.callKeys c → c.LeadsByName e.key := by
    rw [hall, List.forall_mem_append, List.forall_mem_cons]
    constructor
    · rintro ⟨-, hfirst, hafter⟩
      exact ⟨hfirst hkey, hafter⟩
    · rintro ⟨hfirst, hafter⟩
      exact ⟨fun c hc h => absurd h (hbefore c hc), fun _ => hfirst, hafter⟩
  rw [heach, hflag]
  constructor
  · intro h hfirst
    exact (h.mp hfirst).2
  · intro h
    exact ⟨fun hfirst => ⟨hfirst, h hfirst⟩, And.left⟩

/-- A function that calls the method `Run` on the lines of its body, on a receiver of a type or of none. -/
def runningFunction (name : String) (line : Nat) (receivers : List (Option String)) : FunctionDecl :=
  ⟨name, "func " ++ name ++ "(a A)", "", false, ["A"], [], .unexported,
    ⟨line, line + receivers.length + 1⟩, 1,
    receivers.zipIdx.map fun (receiver, i) => ⟨"Run", none, receiver, .method, line + i + 1⟩⟩

/-- A struct with a method that two functions call on a variable and on what another call gives back, in
either order. -/
def eitherOrder : Package :=
  ⟨"m", "p", "",
    [⟨"p.go", "p", [],
      [⟨"Run", "func (A) Run()", "A", false, [], [], .exported, ⟨5, 5⟩, 1, []⟩,
        runningFunction "typedFirst" 7 [some "A", none],
        runningFunction "typedLast" 12 [none, some "A"]],
      [⟨"A", .struct, .exported, ⟨3, 3⟩, [], [], []⟩], [], "", 15⟩]⟩

/-- The edge of the function that makes the typed call last is flagged, in spite of that call. -/
theorem nameMatched_by_first_call_either :
    let r : Resolver := ⟨⟨[eitherOrder]⟩, [], true⟩
    ∃ e ∈ resolveCalls r [eitherOrder],
      e.key = ⟨⟨"m", none, "typedLast"⟩, .resolved ⟨"m", some "A", "Run"⟩, .method⟩ ∧
        e.nameMatched = true ∧
        ¬∀ c ∈ callsOf [eitherOrder], e.key ∈ r.callKeys c → c.LeadsByName e.key := by
  intro r
  let run (line : Nat) (receiver : Option String) : CallSite := ⟨"Run", none, receiver, .method, line⟩
  let early (line : Nat) (receiver : Option String) : Call :=
    ⟨eitherOrder, runningFunction "typedFirst" 7 [some "A", none], run line receiver⟩
  let late (line : Nat) (receiver : Option String) : Call :=
    ⟨eitherOrder, runningFunction "typedLast" 12 [none, some "A"], run line receiver⟩
  have hcalls : callsOf [eitherOrder] =
      [early 8 (some "A"), early 9 none, late 13 none, late 14 (some "A")] := rfl
  let key : CallKey := ⟨⟨"m", none, "typedLast"⟩, .resolved ⟨"m", some "A", "Run"⟩, .method⟩
  have hlate : r.callKeys (late 13 none) = [key] := by decide +kernel
  have htyped : r.callKeys (late 14 (some "A")) = [key] := by decide +kernel
  obtain ⟨e, he, hkey⟩ := mem_keys_resolveCalls.mpr
    ⟨late 13 none, by rw [hcalls]; simp, hlate ▸ List.mem_singleton_self key⟩
  refine ⟨e, he, hkey, ?_⟩
  obtain ⟨before, first, after, hall, hmade, hbefore, hflag, -⟩ := nameMatched_by_first_call r _ e he
  rw [hkey] at hmade hbefore hflag ⊢
  rw [hcalls] at hall
  obtain rfl : first = late 13 none := by
    match before with
    | [] =>
      obtain ⟨rfl, -⟩ := List.cons.inj hall
      exact absurd hmade (by decide +kernel)
    | [_] =>
      obtain ⟨-, hrest⟩ := List.cons.inj hall
      obtain ⟨rfl, -⟩ := List.cons.inj hrest
      exact absurd hmade (by decide +kernel)
    | [_, _] =>
      obtain ⟨-, hrest⟩ := List.cons.inj hall
      obtain ⟨-, hrest⟩ := List.cons.inj hrest
      exact (List.cons.inj hrest).1.symm
    | _ :: _ :: third :: _ =>
      obtain ⟨-, hrest⟩ := List.cons.inj hall
      obtain ⟨-, hrest⟩ := List.cons.inj hrest
      obtain rfl := (List.cons.inj hrest).1
      exact absurd (hlate ▸ List.mem_singleton_self key) (hbefore _ (by simp))
  refine ⟨hflag.mpr ⟨⟨.inl rfl, rfl⟩, rfl⟩, fun hlaw => ?_⟩
  have huntyped := hlaw (late 14 (some "A")) (by rw [hcalls]; simp) (htyped ▸ List.mem_singleton_self key)
  cases huntyped.1.2

end CodeGraph
