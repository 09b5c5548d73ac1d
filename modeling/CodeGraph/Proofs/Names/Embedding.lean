import CodeGraph.Proofs.Names.MethodSet

/-!
# Ways down embedded fields

* `Step`, `SymbolTable.Path` — steps down embedded fields, each from the type where the one before it
  ends; a path is determined by the places of its fields (`SymbolTable.Path.eq_of_places`).
* `SymbolTable.Path.exists_simple` — a path that comes to some type twice has a detour, and there is a
  shorter one without.
* `SymbolTable.Provides` — the methods that a type has itself: those declared on a struct, and those
  that an interface asks for.
* `SymbolTable.Offers` — a method that a type has by way of a path; `SymbolTable.offers_nil` and
  `SymbolTable.offers_cons` take it apart step by step, and `SymbolTable.Offers.declared_at` says where it
  is declared.
-/

namespace CodeGraph

/-- A step down an embedded field: its place among the embedded fields of its struct, and the type
that it is about. -/
structure Step where
  place : Nat
  field : FieldDecl
  inner : TypeId
  deriving DecidableEq

/-- Whether the field of a step embeds a pointer. -/
def Step.byPointer (s : Step) : Bool := s.field.typeName.toList.head? = some '*'

/-- The types that steps come to, the first one included. -/
def visited (k : TypeId) (steps : List Step) : List TypeId := k :: steps.map Step.inner

namespace SymbolTable

variable {t : SymbolTable} {k inner last last' : TypeId} {s : Step} {steps steps' : List Step}
  {n : String} {e e' : MethodEntry}

/-! ### Paths -/

/-- Steps down embedded fields lead from one type to another. -/
inductive Path (t : SymbolTable) : TypeId → List Step → TypeId → Prop
  | here {k : TypeId} : Path t k [] k
  | down {k last : TypeId} {s : Step} {steps : List Step}
      (hfield : (t.embedded k)[s.place]? = some (s.field, s.inner)) (hrest : Path t s.inner steps last) :
      Path t k (s :: steps) last

/-- A path is determined by the places of its fields. -/
theorem Path.eq_of_places (h : t.Path k steps last) (h' : t.Path k steps' last')
    (hplaces : steps.map Step.place = steps'.map Step.place) : steps = steps' ∧ last = last' := by
  induction h generalizing steps' with
  | here =>
    cases h' with
    | here => exact ⟨rfl, rfl⟩
    | down => cases hplaces
  | @down k last s steps hfield _ ih =>
    cases h' with
    | here => cases hplaces
    | @down _ _ s' steps' hfield' hrest' =>
      obtain ⟨hplace, hothers⟩ := List.cons.inj hplaces
      rw [hplace, hfield'] at hfield
      obtain ⟨hsame, hinner⟩ := Prod.mk.inj (Option.some.inj hfield)
      obtain rfl : s = s' := by
        cases s
        cases s'
        simp_all
      obtain ⟨rfl, rfl⟩ := ih hrest' hothers
      exact ⟨rfl, rfl⟩

/-- From every type that a path comes to, the rest of it leads on. -/
theorem Path.exists_rest (h : t.Path k steps last) {m : TypeId} (hm : m ∈ visited k steps) :
    ∃ rest, t.Path m rest last ∧ visited m rest <:+ visited k steps := by
  induction h with
  | here =>
    obtain rfl := List.mem_singleton.mp hm
    exact ⟨[], .here, List.suffix_refl _⟩
  | @down k last s steps hfield hrest ih =>
    rcases List.mem_cons.mp hm with rfl | hm
    · exact ⟨s :: steps, .down hfield hrest, List.suffix_refl _⟩
    · obtain ⟨rest, hpath, hsuffix⟩ := ih hm
      exact ⟨rest, hpath, hsuffix.trans (List.suffix_cons _ _)⟩

/-- A path that comes to some type twice has a detour, and there is a shorter one without. -/
theorem Path.exists_simple (h : t.Path k steps last) :
    ∃ steps', t.Path k steps' last ∧ (visited k steps').Nodup ∧
      (steps' = steps ∨ steps'.length < steps.length) := by
  induction h with
  | here => exact ⟨[], .here, List.nodup_singleton _, Or.inl rfl⟩
  | @down k last s steps hfield _ ih =>
    obtain ⟨steps', hpath, hnodup, hlength⟩ := ih
    by_cases hk : k ∈ visited s.inner steps'
    · -- the path comes back to `k`, and goes on from there
      obtain ⟨rest, hrest, hsuffix⟩ := hpath.exists_rest hk
      refine ⟨rest, hrest, hnodup.sublist hsuffix.sublist, Or.inr ?_⟩
      have hle : rest.length ≤ steps'.length := by simpa [visited] using hsuffix.length_le
      have hshort : steps'.length ≤ steps.length := by
        rcases hlength with rfl | hlt
        · exact Nat.le_refl _
        · exact hlt.le
      rw [List.length_cons]
      omega
    · refine ⟨s :: steps', .down hfield hpath, List.nodup_cons.mpr ⟨hk, hnodup⟩, ?_⟩
      rcases hlength with rfl | hlt
      · exact Or.inl rfl
      · exact Or.inr (Nat.succ_lt_succ hlt)

/-! ### What a type has itself -/

/-- A method that a type has itself: one that is declared on a struct, or one that an interface asks
for. -/
inductive Provides (t : SymbolTable) : TypeId → MethodEntry → Prop
  | declared {k : TypeId} {name : String} {f : FunctionDecl} (hstruct : (t.struct? k).isSome)
      (hf : t.function? ⟨k.package, some k.name, name⟩ = some f) :
      Provides t k ⟨some ⟨k.package, some k.name, name⟩, ⟨name, f.params, f.results⟩, f.pointerReceiver⟩
  | asked {k : TypeId} {ms : List MethodSignature} {m : MethodSignature}
      (hms : t.interfaceMethods k = .ok ms) (hm : m ∈ ms) : Provides t k ⟨none, m, false⟩

/-- Only interfaces ask for methods. -/
theorem struct?_eq_none_of_interfaceMethods {ms : List MethodSignature}
    (h : t.interfaceMethods k = .ok ms) : t.struct? k = none := by
  rw [interfaceMethods, flatten] at h
  cases hinterface : t.interface? k with
  | none =>
    rw [hinterface] at h
    cases h
  | some found =>
    -- one type has one form
    rw [struct?]
    rw [interface?] at hinterface
    obtain ⟨p, hp, hfound⟩ := Option.bind_eq_some_iff.mp hinterface
    obtain ⟨hfound, hform⟩ := Option.filter_eq_some_iff.mp hfound
    rw [hp, Option.bind_some, Package.struct?, Package.typeOfForm?, hfound]
    have hother : found.1.form ≠ .struct := by
      rw [of_decide_eq_true hform]
      exact TypeForm.noConfusion
    exact Option.filter_eq_none_iff.mpr fun found' hsame => by
      obtain rfl := Option.mem_some_iff.mp hsame
      simpa using hother

/-- The methods of a struct are those that are declared on it. -/
theorem provides_struct (hk : (t.struct? k).isSome) :
    t.Provides k e ∧ e.name = n ↔ methodNamed? (t.declaredMethods k) n = some e := by
  rw [methodNamed?_declaredMethods, Option.map_eq_some_iff]
  constructor
  · rintro ⟨hprovides, rfl⟩
    cases hprovides with
    | declared _ hf => exact ⟨_, hf, rfl⟩
    | asked hms =>
      rw [struct?_eq_none_of_interfaceMethods hms] at hk
      cases hk
  · rintro ⟨f, hf, rfl⟩
    exact ⟨.declared hk hf, rfl⟩

/-- The methods of an interface are those that it asks for. -/
theorem provides_interface (hk : t.struct? k = none) :
    t.Provides k e ↔ ∃ ms, t.interfaceMethods k = .ok ms ∧ e ∈ ms.map entryOfInterface := by
  constructor
  · intro h
    cases h with
    | declared hstruct =>
      rw [hk] at hstruct
      cases hstruct
    | asked hms hm => exact ⟨_, hms, List.mem_map.mpr ⟨_, hm, rfl⟩⟩
  · rintro ⟨ms, hms, he⟩
    obtain ⟨m, hm, rfl⟩ := List.mem_map.mp he
    exact .asked hms hm

/-- A type has one method of a name itself. -/
theorem Provides.unique (h : t.Provides k e) (h' : t.Provides k e') (hname : e.name = e'.name) :
    e = e' := by
  cases hk : t.struct? k with
  | some found =>
    have hstruct : (t.struct? k).isSome := hk ▸ rfl
    have he := (provides_struct hstruct).mp ⟨h, hname⟩
    have he' := (provides_struct hstruct).mp ⟨h', rfl⟩
    exact Option.some.inj (he.symm.trans he')
  | none =>
    obtain ⟨ms, hms, he⟩ := (provides_interface hk).mp h
    obtain ⟨ms', hms', he'⟩ := (provides_interface hk).mp h'
    obtain rfl := Except.ok.inj (hms.symm.trans hms')
    refine List.inj_on_of_nodup_map (f := MethodEntry.name) ?_ he he' hname
    rw [List.map_map]
    exact nodup_names_interfaceMethods hms

/-! ### What a type has by way of a path -/

/-- A method as it is at the start of a path to it: by way of a pointer the value has it too. -/
def carried (steps : List Step) (e : MethodEntry) : MethodEntry :=
  { e with pointerOnly := e.pointerOnly && steps.all fun s => !s.byPointer }

theorem carried_nil (e : MethodEntry) : carried [] e = e := by
  rw [carried, List.all_nil, Bool.and_true]

theorem carried_cons (s : Step) (steps : List Step) (e : MethodEntry) :
    carried (s :: steps) e = promote s.field (carried steps e) := by
  rw [promote]
  split
  next hpointer =>
    have hby : s.byPointer = true := decide_eq_true hpointer
    simp [carried, hby]
  next hvalue =>
    have hby : s.byPointer = false := decide_eq_false hvalue
    simp [carried, hby]

/-- A type has a method of a name by way of a path to a type that has it itself. -/
def Offers (t : SymbolTable) (k : TypeId) (n : String) (steps : List Step) (e : MethodEntry) : Prop :=
  ∃ last e₀, t.Path k steps last ∧ t.Provides last e₀ ∧ e₀.name = n ∧ e = carried steps e₀

theorem offers_nil : t.Offers k n [] e ↔ t.Provides k e ∧ e.name = n := by
  constructor
  · rintro ⟨last, e₀, hpath, hprovides, hname, rfl⟩
    cases hpath
    rw [carried_nil]
    exact ⟨hprovides, hname⟩
  · rintro ⟨hprovides, hname⟩
    exact ⟨k, e, .here, hprovides, hname, (carried_nil e).symm⟩

theorem offers_cons : t.Offers k n (s :: steps) e ↔
    (t.embedded k)[s.place]? = some (s.field, s.inner) ∧
      ∃ e', t.Offers s.inner n steps e' ∧ e = promote s.field e' := by
  constructor
  · rintro ⟨last, e₀, hpath, hprovides, hname, rfl⟩
    cases hpath with
    | down hfield hrest =>
      exact ⟨hfield, carried steps e₀, ⟨last, e₀, hrest, hprovides, hname, rfl⟩, carried_cons s steps e₀⟩
  · rintro ⟨hfield, _, ⟨last, e₀, hrest, hprovides, hname, rfl⟩, rfl⟩
    exact ⟨last, e₀, .down hfield hrest, hprovides, hname, (carried_cons s steps e₀).symm⟩

/-- One path leads to one method of a name, and the places of the fields tell paths apart. -/
theorem Offers.unique (h : t.Offers k n steps e) (h' : t.Offers k n steps' e')
    (hplaces : steps.map Step.place = steps'.map Step.place) : steps = steps' ∧ e = e' := by
  obtain ⟨last, e₀, hpath, hprovides, hname, rfl⟩ := h
  obtain ⟨last', e₀', hpath', hprovides', hname', rfl⟩ := h'
  obtain ⟨rfl, rfl⟩ := hpath.eq_of_places hpath' hplaces
  rw [hprovides.unique hprovides' (hname.trans hname'.symm)]
  exact ⟨rfl, rfl⟩

/-- What is declared of the methods by way of a path is declared on the struct at its end, under their
name. -/
theorem Offers.declared_at {f : FunctionId} (h : t.Offers k n steps e) (hf : e.function = some f) :
    ∃ last, t.Path k steps last ∧ (t.struct? last).isSome ∧ f = ⟨last.package, some last.name, n⟩ := by
  obtain ⟨last, e₀, hpath, hprovides, rfl, rfl⟩ := h
  cases hprovides with
  | declared hstruct _ => exact ⟨last, hpath, hstruct, (Option.some.inj hf).symm⟩
  | asked => cases hf

/-- What is offered by way of some path is offered by way of one without detours. -/
theorem Offers.exists_simple (h : t.Offers k n steps e) :
    ∃ steps' e', (visited k steps').Nodup ∧ t.Offers k n steps' e' ∧
      (steps' = steps ∨ steps'.length < steps.length) := by
  obtain ⟨last, e₀, hpath, hprovides, hname, rfl⟩ := h
  obtain ⟨steps', hpath', hnodup, hlength⟩ := hpath.exists_simple
  exact ⟨steps', _, hnodup, ⟨last, e₀, hpath', hprovides, hname, rfl⟩, hlength⟩

end SymbolTable

end CodeGraph
