import CodeGraph.Proofs.Names.Embedding
import Mathlib.Data.List.Lex

/-!
# Promotion of methods

* `Before` — the order of paths by the places of their fields.
* `SymbolTable.FirstOffer` — the method of a name to which the first path leads, in the order of the
  fields.
* `SymbolTable.Finds` — what the search for a method comes to below some types; `SymbolTable.finds_gather`
  says so of every search, `SymbolTable.finds_step` of one step of it.
* `SymbolTable.structMethods_by_embedding` — which methods a struct has, and where they come from.
* `SymbolTable.Promotes` — the rule of the language, by which the shallowest method is promoted if there
  is only one; `SymbolTable.structMethods_depth_first` says which method a struct has instead.
-/

namespace CodeGraph

/-! ### The order of paths -/

/-- Steps come before others: where they part they take an earlier field, or have ended. -/
def Before (steps steps' : List Step) : Prop :=
  List.Lex (· < ·) (steps.map Step.place) (steps'.map Step.place)

theorem not_before_nil (steps : List Step) : ¬Before steps [] :=
  List.not_lex_nil

theorem before_cons {s s' : Step} {steps steps' : List Step} : Before (s :: steps) (s' :: steps') ↔
    s.place < s'.place ∨ s.place = s'.place ∧ Before steps steps' :=
  List.cons_lex_cons_iff

/-- Of steps by different places some come first. -/
theorem places_eq_of_not_before {steps steps' : List Step} (h : ¬Before steps steps')
    (h' : ¬Before steps' steps) : steps.map Step.place = steps'.map Step.place :=
  Std.Trichotomous.trichotomous _ _ h h'

namespace SymbolTable

variable {t : SymbolTable} {k : TypeId} {above : List TypeId} {fuel : Nat} {n : String}
  {e e' : MethodEntry} {s : Step} {steps steps' : List Step}

/-! ### The first path -/

/-- Steps come to no type twice, and to none of those above. -/
def Avoids (above : List TypeId) (k : TypeId) (steps : List Step) : Prop :=
  (visited k steps).Nodup ∧ ∀ m ∈ visited k steps, m ∉ above

theorem avoids_nil : Avoids above k [] ↔ k ∉ above := by
  simp [Avoids, visited]

theorem avoids_cons : Avoids above k (s :: steps) ↔ k ∉ above ∧ Avoids (k :: above) s.inner steps := by
  have hvisited : visited k (s :: steps) = k :: visited s.inner steps := rfl
  rw [Avoids, Avoids, hvisited, List.nodup_cons, List.forall_mem_cons]
  constructor
  · rintro ⟨⟨hk, hnodup⟩, habove, hrest⟩
    refine ⟨habove, hnodup, fun m hm hin => ?_⟩
    rcases List.mem_cons.mp hin with rfl | hin
    · exact hk hm
    · exact hrest m hm hin
  · rintro ⟨habove, hnodup, hrest⟩
    exact ⟨⟨fun hm => hrest k hm List.mem_cons_self, hnodup⟩, habove,
      fun m hm hin => hrest m hm (List.mem_cons_of_mem k hin)⟩

theorem avoids_start : Avoids [] k steps ↔ (visited k steps).Nodup :=
  and_iff_left fun _ _ => List.not_mem_nil

/-- Of the paths that avoid some types, the first one that leads to a method of a name. -/
def FirstBelow (t : SymbolTable) (above : List TypeId) (k : TypeId) (n : String) (e : MethodEntry) :
    Prop :=
  ∃ steps, Avoids above k steps ∧ t.Offers k n steps e ∧ ∀ steps' e', Avoids above k steps' →
    t.Offers k n steps' e' → ¬Before steps' steps

theorem FirstBelow.unique (h : t.FirstBelow above k n e) (h' : t.FirstBelow above k n e') : e = e' := by
  obtain ⟨steps, havoids, hoffers, hfirst⟩ := h
  obtain ⟨steps', havoids', hoffers', hfirst'⟩ := h'
  have hplaces := places_eq_of_not_before (hfirst' _ _ havoids hoffers) (hfirst _ _ havoids' hoffers')
  exact (hoffers.unique hoffers' hplaces).2

theorem firstBelow_here (h : t.Offers k n [] e) (habove : k ∉ above) : t.FirstBelow above k n e :=
  ⟨[], avoids_nil.mpr habove, h, fun steps _ _ _ => not_before_nil steps⟩

/-- The first path goes down the first field below which there is one. -/
theorem FirstBelow.down {place : Nat} {field : FieldDecl} {inner : TypeId}
    (h : t.FirstBelow (k :: above) inner n e) (habove : k ∉ above) (hhere : ∀ e, ¬t.Offers k n [] e)
    (hfield : (t.embedded k)[place]? = some (field, inner))
    (hbefore : ∀ u ∈ (t.embedded k).take place, ∀ steps e, Avoids (k :: above) u.2 steps →
      ¬t.Offers u.2 n steps e) : t.FirstBelow above k n (promote field e) := by
  obtain ⟨steps, havoids, hoffers, hfirst⟩ := h
  refine ⟨⟨place, field, inner⟩ :: steps, avoids_cons.mpr ⟨habove, havoids⟩,
    offers_cons.mpr ⟨hfield, e, hoffers, rfl⟩, fun steps' e' havoids' hoffers' => ?_⟩
  cases steps' with
  | nil => exact absurd hoffers' (hhere e')
  | cons s steps' =>
    obtain ⟨hfield', e₀, hoffers₀, -⟩ := offers_cons.mp hoffers'
    have havoids₀ := (avoids_cons.mp havoids').2
    rw [before_cons]
    rintro (hlt | ⟨rfl, hless⟩)
    · rw [← List.getElem?_take_of_lt hlt] at hfield'
      exact hbefore _ (List.mem_of_getElem? hfield') steps' e₀ havoids₀ hoffers₀
    · obtain ⟨-, rfl⟩ := Prod.mk.inj (Option.some.inj (hfield.symm.trans hfield'))
      exact hfirst steps' e₀ havoids₀ hoffers₀ hless

/-! ### The search -/

/-- What the search for a method of a name comes to below some types: nothing if no path that avoids
them leads to one, or else the one to which the first such path leads. -/
def Finds (t : SymbolTable) (above : List TypeId) (k : TypeId) (n : String) : Option MethodEntry → Prop
  | none => ∀ steps e, Avoids above k steps → ¬t.Offers k n steps e
  | some e => t.FirstBelow above k n e

theorem Finds.eq_some_iff {found : Option MethodEntry} (h : t.Finds above k n found) :
    found = some e ↔ t.FirstBelow above k n e := by
  cases found with
  | none =>
    refine iff_of_false (Option.some_ne_none e).symm ?_
    rintro ⟨steps, havoids, hoffers, -⟩
    exact h steps e havoids hoffers
  | some found =>
    constructor
    · rintro ⟨⟩
      exact h
    · intro hfirst
      rw [FirstBelow.unique h hfirst]

/-- The search does not go into the types above again. -/
theorem finds_above (h : k ∈ above) : t.Finds above k n none :=
  fun _ _ havoids _ => havoids.2 k List.mem_cons_self h

/-- What an interface asks for is all that there is below it. -/
theorem finds_interface (hk : t.struct? k = none) (habove : k ∉ above) :
    t.Finds above k n (methodNamed? (t.embeddedMethods fuel above k) n) := by
  have hoffers (steps : List Step) (e : MethodEntry) :
      t.Offers k n steps e ↔ steps = [] ∧ t.Provides k e ∧ e.name = n := by
    cases steps with
    | nil => rw [offers_nil, eq_self, true_and]
    | cons s steps => simp [offers_cons, embedded_eq_nil hk]
  have hmethods (e : MethodEntry) : methodNamed? (t.embeddedMethods fuel above k) n = some e ↔
      t.Provides k e ∧ e.name = n := by
    rw [provides_interface hk, embeddedMethods, hk]
    cases hms : t.interfaceMethods k with
    | error f => simp [methodNamed?]
    | ok ms =>
      have hnodup : ((ms.map entryOfInterface).map MethodEntry.name).Nodup := by
        rw [List.map_map]
        exact nodup_names_interfaceMethods hms
      simp only [Except.ok.injEq, exists_eq_left']
      exact find?_name_eq_some hnodup
  cases hfound : methodNamed? (t.embeddedMethods fuel above k) n with
  | none =>
    intro steps e _ h
    have hprovides := (hoffers steps e).mp h
    rw [(hmethods e).mpr hprovides.2] at hfound
    cases hfound
  | some e =>
    refine ⟨[], avoids_nil.mpr habove, (hoffers [] e).mpr ⟨rfl, (hmethods e).mp hfound⟩, ?_⟩
    exact fun steps _ _ _ => not_before_nil steps

/-- The method of a struct itself is the one that is declared on it. -/
theorem offers_nil_struct (hk : (t.struct? k).isSome) : t.Offers k n [] e ↔
    (t.function? ⟨k.package, some k.name, n⟩).map (declaredEntry k n) = some e := by
  rw [offers_nil, provides_struct hk, methodNamed?_declaredMethods]

theorem not_offers_nil (hk : (t.struct? k).isSome)
    (hnone : t.function? ⟨k.package, some k.name, n⟩ = none) (e : MethodEntry) :
    ¬t.Offers k n [] e := by
  rw [offers_nil_struct hk, hnone]
  exact (Option.some_ne_none e).symm

/-- The search looks at the methods that are declared on a struct, and then goes down its fields one
after the other. -/
theorem finds_step (hk : (t.struct? k).isSome) (habove : k ∉ above)
    (inside : TypeId → Option MethodEntry)
    (hinside : ∀ inner, t.Finds (k :: above) inner n (inside inner)) :
    t.Finds above k n ((methodNamed? (t.declaredMethods k) n).or
      ((t.embedded k).findSome? fun u => (inside u.2).map (promote u.1))) := by
  cases hdeclared : methodNamed? (t.declaredMethods k) n with
  | some e => exact firstBelow_here (offers_nil.mpr ((provides_struct hk).mpr hdeclared)) habove
  | none =>
    rw [Option.none_or]
    have hhere (e : MethodEntry) : ¬t.Offers k n [] e := by
      rw [offers_nil, provides_struct hk, hdeclared]
      exact fun h => nomatch h
    have hnothing {u : FieldDecl × TypeId} (h : (inside u.2).map (promote u.1) = none) :
        ∀ steps e, Avoids (k :: above) u.2 steps → ¬t.Offers u.2 n steps e := by
      have hfinds := hinside u.2
      rw [Option.map_eq_none_iff.mp h] at hfinds
      exact hfinds
    cases hfound : (t.embedded k).findSome? fun u => (inside u.2).map (promote u.1) with
    | none =>
      rw [List.findSome?_eq_none_iff] at hfound
      intro steps e havoids hoffers
      cases steps with
      | nil => exact hhere e hoffers
      | cons s steps =>
        obtain ⟨hfield, e', hoffers', -⟩ := offers_cons.mp hoffers
        exact hnothing (hfound _ (List.mem_of_getElem? hfield)) steps e' (avoids_cons.mp havoids).2
          hoffers'
    | some e =>
      obtain ⟨before, u, after, hall, hsome, hbefore⟩ := List.findSome?_eq_some_iff.mp hfound
      obtain ⟨e', hinner, rfl⟩ := Option.map_eq_some_iff.mp hsome
      have hfield : (t.embedded k)[before.length]? = some u := by simp [hall]
      refine ((hinside u.2).eq_some_iff.mp hinner).down habove hhere hfield fun u hu => ?_
      rw [hall, List.take_left] at hu
      exact hnothing (hbefore u hu)

/-- The search for a method finds the one to which the first path leads. -/
theorem finds_gather (h : HasRoom t.structs fuel above)
    (hstructs : ∀ a ∈ above, (t.struct? a).isSome) (hk : (t.struct? k).isSome) :
    t.Finds above k n (methodNamed? (gather t fuel above k) n) := by
  induction fuel generalizing above k with
  | zero =>
    obtain ⟨_, hsucc⟩ := h.exists_succ
    cases hsucc
  | succ fuel ih =>
    by_cases habove : k ∈ above
    · rw [gather_of_mem habove]
      exact finds_above habove
    · rw [methodNamed?_gather habove]
      have hroom := h.down (mem_typesOfForm hk) habove
      have hbelow : ∀ a ∈ k :: above, (t.struct? a).isSome := List.forall_mem_cons.mpr ⟨hk, hstructs⟩
      refine finds_step hk habove
        (fun inner => methodNamed? (t.embeddedMethods fuel (k :: above) inner) n) fun inner => ?_
      cases hinner : t.struct? inner with
      | some found =>
        have hstruct : (t.struct? inner).isSome := hinner ▸ rfl
        rw [embeddedMethods, if_pos hstruct]
        exact ih hroom hbelow hstruct
      | none =>
        refine finds_interface hinner fun hmem => ?_
        have hstruct := hbelow inner hmem
        rw [hinner] at hstruct
        cases hstruct

/-! ### The methods of a struct -/

/-- Of the paths without detours, the first one that leads to a method of a name. -/
def FirstOffer (t : SymbolTable) (k : TypeId) (n : String) (e : MethodEntry) : Prop :=
  ∃ steps, (visited k steps).Nodup ∧ t.Offers k n steps e ∧ ∀ steps' e', (visited k steps').Nodup →
    t.Offers k n steps' e' → ¬Before steps' steps

theorem finds_structMethods (hk : (t.struct? k).isSome) (n : String) :
    t.Finds [] k n (methodNamed? (t.structMethods k) n) := by
  have hroom : HasRoom t.structs (t.structs.length + 2) [] :=
    .start (Nat.lt_add_of_pos_right Nat.two_pos)
  rw [methodNamed?_structMethods]
  exact finds_gather hroom (fun a ha => nomatch ha) hk

theorem firstBelow_start : t.FirstBelow [] k n e ↔ t.FirstOffer k n e := by
  simp only [FirstBelow, FirstOffer, avoids_start]

/-- A struct has the method of a name to which the first path leads. -/
theorem methodNamed?_structMethods_iff (hk : (t.struct? k).isSome) :
    methodNamed? (t.structMethods k) n = some e ↔ t.FirstOffer k n e := by
  rw [(finds_structMethods hk n).eq_some_iff, firstBelow_start]

/-- What is declared on a struct itself comes first. -/
theorem firstOffer_declared (hk : (t.struct? k).isSome) {f : FunctionDecl}
    (hf : t.function? ⟨k.package, some k.name, n⟩ = some f) : t.FirstOffer k n (declaredEntry k n f) :=
  firstBelow_start.mp (firstBelow_here (offers_nil.mpr ⟨.declared hk hf, rfl⟩) List.not_mem_nil)

/-- A struct has a method of every name that some path leads to. -/
theorem exists_methodNamed?_structMethods (hk : (t.struct? k).isSome) (h : t.Offers k n steps e) :
    ∃ e', methodNamed? (t.structMethods k) n = some e' := by
  obtain ⟨steps', e', hnodup, hoffers, -⟩ := h.exists_simple
  have hfinds := finds_structMethods hk n
  cases hfound : methodNamed? (t.structMethods k) n with
  | none =>
    rw [hfound] at hfinds
    exact absurd hoffers (hfinds steps' e' (avoids_start.mpr hnodup))
  | some found => exact ⟨found, rfl⟩

theorem mem_names_structMethods :
    n ∈ (t.structMethods k).map MethodEntry.name ↔ ∃ e, methodNamed? (t.structMethods k) n = some e := by
  simp only [methodNamed?, find?_name_eq_some (nodup_names_structMethods t k), List.mem_map]

/-- A name is provided by the end of a path: a method of it is declared on a struct there, or asked
for by an interface. -/
theorem exists_offers : (∃ steps e, t.Offers k n steps e) ↔
    (∃ steps last, t.Path k steps last ∧ (t.struct? last).isSome ∧
      (t.function? ⟨last.package, some last.name, n⟩).isSome) ∨
    ∃ steps last ms, t.Path k steps last ∧ t.interfaceMethods last = .ok ms ∧
      n ∈ ms.map MethodSignature.name := by
  constructor
  · rintro ⟨steps, e, last, e₀, hpath, hprovides, rfl, -⟩
    cases hprovides with
    | declared hstruct hf => exact Or.inl ⟨steps, last, hpath, hstruct, hf ▸ rfl⟩
    | asked hms hm => exact Or.inr ⟨steps, last, _, hpath, hms, List.mem_map_of_mem hm⟩
  · rintro (⟨steps, last, hpath, hstruct, hf⟩ | ⟨steps, last, ms, hpath, hms, hn⟩)
    · obtain ⟨f, hf⟩ := Option.isSome_iff_exists.mp hf
      exact ⟨steps, _, last, _, hpath, .declared hstruct hf, rfl, rfl⟩
    · obtain ⟨m, hm, rfl⟩ := List.mem_map.mp hn
      exact ⟨steps, _, last, _, hpath, .asked hms hm, rfl, rfl⟩

/-- **The methods of a struct come down embedded fields.**  Whatever structs embed, the search for
methods ends by itself: no bound on its depth changes what it finds.  A struct has a method of exactly
the names that are declared on it or on a struct that a path of embedded fields leads to, or that an
interface at the end of such a path asks for.  What is declared on the struct itself wins.  Every
method is that of the type at the end of some path, and takes a pointer if its receiver does and no
field on the path embeds a pointer. -/
theorem structMethods_by_embedding (hk : (t.struct? k).isSome) :
    (∀ fuel, t.interfaces.length < fuel → ∀ i,
      (flatten t fuel [] i).map (sortedBy MethodSignature.name) = t.interfaceMethods i) ∧
    (∀ fuel, t.structs.length < fuel →
      sortedBy MethodEntry.name (gather t fuel [] k) = t.structMethods k) ∧
    ((t.structMethods k).map MethodEntry.name).Nodup ∧
    (∀ n, n ∈ (t.structMethods k).map MethodEntry.name ↔
      (∃ steps last, t.Path k steps last ∧ (t.struct? last).isSome ∧
        (t.function? ⟨last.package, some last.name, n⟩).isSome) ∨
      ∃ steps last ms, t.Path k steps last ∧ t.interfaceMethods last = .ok ms ∧
        n ∈ ms.map MethodSignature.name) ∧
    (∀ n f, t.function? ⟨k.package, some k.name, n⟩ = some f →
      methodNamed? (t.structMethods k) n =
        some ⟨some ⟨k.package, some k.name, n⟩, ⟨n, f.params, f.results⟩, f.pointerReceiver⟩) ∧
    ∀ e ∈ t.structMethods k, ∃ steps, t.Offers k e.name steps e := by
  refine ⟨fun fuel h i => interfaceMethods_eq h, fun fuel h => structMethods_eq h,
    nodup_names_structMethods t k, fun n => ?_, fun n f hf => ?_, fun e he => ?_⟩
  · rw [← exists_offers, mem_names_structMethods]
    constructor
    · rintro ⟨e, he⟩
      obtain ⟨steps, -, hoffers, -⟩ := (methodNamed?_structMethods_iff hk).mp he
      exact ⟨steps, e, hoffers⟩
    · rintro ⟨steps, e, hoffers⟩
      exact exists_methodNamed?_structMethods hk hoffers
  · exact (methodNamed?_structMethods_iff hk).mpr (firstOffer_declared hk hf)
  · have hfound := (find?_name_eq_some (nodup_names_structMethods t k)).mpr ⟨he, rfl⟩
    obtain ⟨steps, -, hoffers, -⟩ := (methodNamed?_structMethods_iff hk).mp hfound
    exact ⟨steps, hoffers⟩

/-- A struct that embeds types, each written in a line of its own. -/
def embeddingStruct (name : String) (line : Nat) (written : List String) : TypeDecl :=
  ⟨name, .struct, .exported, ⟨line, line + written.length + 1⟩,
    written.mapIdx fun place typeName =>
      ⟨String.ofList (bareTypeText typeName), typeName, .exported, true, line + place + 1⟩, [], []⟩

/-- A method without parameters. -/
def plainMethod (receiver name : String) (pointer : Bool) (line : Nat) : FunctionDecl :=
  ⟨name, "func (" ++ receiver ++ ") " ++ name ++ "()", receiver, pointer, [], [], .exported,
    ⟨line, line⟩, 1, []⟩

/-- Two structs that embed each other, one of them as a pointer; the other embeds an interface. -/
def entwined : SymbolTable :=
  ⟨[⟨".", "p", "",
    [⟨"p.go", "p", [], [plainMethod "Tree" "Grow" true 11],
      [⟨"Walker", .interface, .exported, ⟨3, 5⟩, [], [⟨"Walk", [], []⟩], []⟩,
        embeddingStruct "Tree" 7 ["Node"], embeddingStruct "Node" 13 ["*Tree", "Walker"]],
      [], "", 16⟩]⟩]⟩

/-- The search comes to an end, and one pointer on the way is enough for the value to have the method. -/
theorem structMethods_by_embedding_entwined :
    (entwined.struct? ⟨".", "Node"⟩).isSome ∧
      (∀ fuel, entwined.structs.length < fuel →
        methodNamed? (sortedBy MethodEntry.name (gather entwined fuel [] ⟨".", "Node"⟩)) "Grow" =
          some ⟨some ⟨".", some "Tree", "Grow"⟩, ⟨"Grow", [], []⟩, false⟩) ∧
      "Walk" ∈ (entwined.structMethods ⟨".", "Node"⟩).map MethodEntry.name := by
  have hk : (entwined.struct? ⟨".", "Node"⟩).isSome := by decide
  have hfields : entwined.embedded ⟨".", "Node"⟩ =
      [(⟨"Tree", "*Tree", .exported, true, 14⟩, ⟨".", "Tree"⟩),
        (⟨"Walker", "Walker", .exported, true, 15⟩, ⟨".", "Walker"⟩)] := by decide
  obtain ⟨-, hsearch, -, hnames, -, -⟩ := structMethods_by_embedding hk
  refine ⟨hk, fun fuel hfuel => ?_, (hnames "Walk").mpr (Or.inr ?_)⟩
  · have hgrow : entwined.Offers ⟨".", "Tree"⟩ "Grow" []
        ⟨some ⟨".", some "Tree", "Grow"⟩, ⟨"Grow", [], []⟩, true⟩ :=
      (offers_nil_struct (by decide)).mpr (by decide +kernel)
    rw [hsearch fuel hfuel, methodNamed?_structMethods_iff hk, ← firstBelow_start]
    exact (firstBelow_here hgrow (by decide)).down List.not_mem_nil (not_offers_nil hk (by decide))
      (congrArg (·[0]?) hfields) fun u hu => nomatch hu
  · have hasked : entwined.interfaceMethods ⟨".", "Walker"⟩ = .ok [⟨"Walk", [], []⟩] :=
      interfaceMethods_singleton (by decide)
    exact ⟨[⟨1, _, _⟩], _, _, .down (congrArg (·[1]?) hfields) .here, hasked, List.mem_singleton_self _⟩

/-! ### The rule of the language -/

/-- A method of a name is promoted if one path leads to it at the shallowest depth at which there are
methods of that name. -/
def Promotes (t : SymbolTable) (k : TypeId) (n : String) (e : MethodEntry) : Prop :=
  ∃ steps, t.Offers k n steps e ∧
    ∀ steps' e', t.Offers k n steps' e' → steps' = steps ∨ steps.length < steps'.length

theorem Promotes.unique (h : t.Promotes k n e) (h' : t.Promotes k n e') : e = e' := by
  obtain ⟨steps, hoffers, hshallow⟩ := h
  obtain ⟨steps', hoffers', hshallow'⟩ := h'
  have hsame : steps' = steps := by
    rcases hshallow steps' e' hoffers' with heq | hlt
    · exact heq
    · rcases hshallow' steps e hoffers with heq | hgt
      · exact heq.symm
      · omega
  exact (hoffers.unique hoffers' (congrArg (List.map Step.place) hsame.symm)).2

/-- Of two methods at the shallowest depth neither is promoted. -/
theorem not_promotes_of_two (h : t.Offers k n steps e) (h' : t.Offers k n steps' e')
    (hne : steps ≠ steps') (hlength : steps.length = steps'.length)
    (hshallow : ∀ other e, t.Offers k n other e → steps.length ≤ other.length) (e : MethodEntry) :
    ¬t.Promotes k n e := by
  rintro ⟨other, hoffers, honly⟩
  have hdepth := hshallow other e hoffers
  rcases honly _ _ h with rfl | hlt
  · rcases honly _ _ h' with heq | hlt
    · exact hne heq.symm
    · exact absurd hlt (Nat.not_lt.mpr hlength.ge)
  · exact absurd hlt (Nat.not_lt.mpr hdepth)

/-- **The methods of a struct are found depth first.**  Of the methods of one name a struct has the one
to which the first path leads, in the order of the embedded fields.  So promotion follows the rule of the
language exactly where this method is also the only one at the shallowest depth, and it does wherever
only one path leads to methods of the name. -/
theorem structMethods_depth_first (hk : (t.struct? k).isSome) (n : String) :
    (∀ e, methodNamed? (t.structMethods k) n = some e ↔ t.FirstOffer k n e) ∧
    ((∀ e, methodNamed? (t.structMethods k) n = some e ↔ t.Promotes k n e) ↔
      ∀ e, t.FirstOffer k n e → t.Promotes k n e) ∧
    ((∀ steps e steps' e', (visited k steps).Nodup → t.Offers k n steps e → (visited k steps').Nodup →
        t.Offers k n steps' e' → steps' = steps) →
      ∀ e, methodNamed? (t.structMethods k) n = some e ↔ t.Promotes k n e) := by
  have hfirst (e : MethodEntry) : methodNamed? (t.structMethods k) n = some e ↔ t.FirstOffer k n e :=
    methodNamed?_structMethods_iff hk
  have hrule : (∀ e, t.FirstOffer k n e → t.Promotes k n e) →
      ∀ e, methodNamed? (t.structMethods k) n = some e ↔ t.Promotes k n e := by
    intro h e
    refine ⟨fun he => h e ((hfirst e).mp he), fun hpromotes => ?_⟩
    have ⟨steps, hoffers, _⟩ := hpromotes
    obtain ⟨e', he'⟩ := exists_methodNamed?_structMethods hk hoffers
    rw [he', (h e' ((hfirst e').mp he')).unique hpromotes]
  refine ⟨hfirst, ⟨fun h e he => (h e).mp ((hfirst e).mpr he), hrule⟩, fun honly => hrule ?_⟩
  rintro e ⟨steps, hnodup, hoffers, -⟩
  refine ⟨steps, hoffers, fun steps' e' hoffers' => ?_⟩
  -- a longer path has no detours, or is longer than the only path without
  obtain ⟨simple, e₀, hsimple, hoffers₀, hlength⟩ := hoffers'.exists_simple
  obtain rfl := honly steps e simple e₀ hnodup hoffers hsimple hoffers₀
  exact hlength.imp Eq.symm id

/-- `S` embeds `A` and `B`.  Of these `B` has a method `M`, and `A` embeds `C`, which has one too.  `T`
embeds `B` and `C`. -/
def rivalling : SymbolTable :=
  ⟨[⟨".", "p", "",
    [⟨"p.go", "p", [], [plainMethod "C" "M" false 6, plainMethod "B" "M" false 15],
      [embeddingStruct "C" 3 [], embeddingStruct "A" 8 ["C"], embeddingStruct "B" 12 [],
        embeddingStruct "S" 17 ["A", "B"], embeddingStruct "T" 22 ["B", "C"]],
      [], "", 25⟩]⟩]⟩

/-- `S` has the deeper one of two methods, and `T` has one of two that are at the same depth. -/
theorem structMethods_depth_first_rivalling :
    let byB : MethodEntry := ⟨some ⟨".", some "B", "M"⟩, ⟨"M", [], []⟩, false⟩
    let byC : MethodEntry := ⟨some ⟨".", some "C", "M"⟩, ⟨"M", [], []⟩, false⟩
    (methodNamed? (rivalling.structMethods ⟨".", "S"⟩) "M" = some byC ∧
        rivalling.Promotes ⟨".", "S"⟩ "M" byB) ∧
      methodNamed? (rivalling.structMethods ⟨".", "T"⟩) "M" = some byB ∧
        ∀ e, ¬rivalling.Promotes ⟨".", "T"⟩ "M" e := by
  intro byB byC
  have hstruct : ∀ name ∈ ["B", "C", "S", "T"], (rivalling.struct? ⟨".", name⟩).isSome := by
    decide
  have hnone (name : String) (h : name ∈ ["A", "S", "T"]) (e : MethodEntry) :
      ¬rivalling.Offers ⟨".", name⟩ "M" [] e := by
    have hempty : ∀ name ∈ ["A", "S", "T"], (rivalling.struct? ⟨".", name⟩).isSome ∧
        rivalling.function? ⟨".", some name, "M"⟩ = none := by decide
    obtain ⟨hk, hf⟩ := hempty name h
    exact not_offers_nil hk hf e
  have hB : rivalling.Offers ⟨".", "B"⟩ "M" [] byB :=
    (offers_nil_struct (hstruct _ (by decide))).mpr (by decide)
  have hC : rivalling.Offers ⟨".", "C"⟩ "M" [] byC :=
    (offers_nil_struct (hstruct _ (by decide))).mpr (by decide)
  let down (place : Nat) (name : String) (line : Nat) : Step :=
    ⟨place, ⟨name, name, .exported, true, line⟩, ⟨".", name⟩⟩
  let fields (steps : List Step) : List (FieldDecl × TypeId) := steps.map fun s => (s.field, s.inner)
  have hA : rivalling.embedded ⟨".", "A"⟩ = fields [down 0 "C" 9] := by decide
  have hS : rivalling.embedded ⟨".", "S"⟩ = fields [down 0 "A" 18, down 1 "B" 19] := by decide
  have hT : rivalling.embedded ⟨".", "T"⟩ = fields [down 0 "B" 23, down 1 "C" 24] := by decide
  refine ⟨⟨?_, [down 1 "B" 19], ?_, fun steps e h => ?_⟩, ?_, ?_⟩
  · rw [(structMethods_depth_first (hstruct "S" (by decide)) "M").1, ← firstBelow_start]
    have hbelow : rivalling.FirstBelow [⟨".", "S"⟩] ⟨".", "A"⟩ "M" (promote (down 0 "C" 9).field byC) :=
      (firstBelow_here hC (by decide)).down (by decide) (hnone "A" (by decide))
        (congrArg (·[0]?) hA) fun u hu => nomatch hu
    have hfirst := hbelow.down List.not_mem_nil (hnone "S" (by decide)) (congrArg (·[0]?) hS)
      fun u hu => nomatch hu
    exact (show promote (down 0 "A" 18).field (promote (down 0 "C" 9).field byC) = byC by
      decide) ▸ hfirst
  · exact offers_cons.mpr ⟨congrArg (·[1]?) hS, byB, hB, by decide⟩
  · rcases steps with _ | ⟨s, _ | ⟨s', steps⟩⟩
    · exact absurd h (hnone "S" (by decide) e)
    · obtain ⟨hfield, e', hoffers, -⟩ := offers_cons.mp h
      rw [hS] at hfield
      obtain ⟨_ | _ | place, field, inner⟩ := s
      · obtain ⟨rfl, rfl⟩ := Prod.mk.inj (Option.some.inj hfield)
        exact absurd hoffers (hnone "A" (by decide) e')
      · obtain ⟨rfl, rfl⟩ := Prod.mk.inj (Option.some.inj hfield)
        exact Or.inl rfl
      · cases hfield
    · exact Or.inr (Nat.one_lt_succ_succ _)
  · rw [(structMethods_depth_first (hstruct "T" (by decide)) "M").1, ← firstBelow_start]
    have hfirst := (firstBelow_here hB (by decide)).down List.not_mem_nil (hnone "T" (by decide))
      (congrArg (·[0]?) hT) fun u hu => nomatch hu
    exact (show promote (down 0 "B" 23).field byB = byB by decide) ▸ hfirst
  · have hviaB : rivalling.Offers ⟨".", "T"⟩ "M" [down 0 "B" 23] byB :=
      offers_cons.mpr ⟨congrArg (·[0]?) hT, byB, hB, by decide⟩
    have hviaC : rivalling.Offers ⟨".", "T"⟩ "M" [down 1 "C" 24] byC :=
      offers_cons.mpr ⟨congrArg (·[1]?) hT, byC, hC, by decide⟩
    refine not_promotes_of_two hviaB hviaC (by decide) rfl fun steps e h => ?_
    refine List.length_pos_iff.mpr ?_
    rintro rfl
    exact hnone "T" (by decide) e h

end SymbolTable

end CodeGraph
