import CodeGraph.Proofs.Names.Satisfaction

/-!
# How types are spelled

* `endsInName` — whether a name goes on at the end of a text.
* `Qualifies` — a text with the name of a package put in front of a name.
* `SpelledAlike` — two texts differ in names of packages alone; `stripQualifiers_eq_iff` says that these
  are the texts that are the same once such names are taken out.
* `SymbolTable.methodNamed?_of_declared` — a method that is declared on a struct is the one it has.
* `SymbolTable.implementations_by_spelling` — the main result.
-/

namespace CodeGraph

/-! ### Names of packages in front of names -/

/-- Whether a name goes on behind a character, given whether one goes on in front of it. -/
def inName (inside : Bool) (c : Char) : Bool := if inside then continuesName c else startsName c

/-- Whether a name goes on at the end of a text. -/
def endsInName (text : List Char) : Bool := text.foldl inName false

/-- A text is a name. -/
def IsName (text : List Char) : Prop :=
  ∃ c cs, text = c :: cs ∧ startsName c ∧ ∀ d ∈ cs, continuesName d

/-- A name can start a text. -/
def StartsName (text : List Char) : Prop := (text.head?.map startsName).getD false

/-- The second text is the first one with the name of a package in front of one of its names. -/
def Qualifies (plain qualified : List Char) : Prop :=
  ∃ before package after, endsInName before = false ∧ IsName package ∧ StartsName after ∧
    plain = before ++ after ∧ qualified = before ++ (package ++ '.' :: after)

/-- Two texts differ in names of packages alone, which stand in front of names. -/
def SpelledAlike (a b : String) : Prop := Relation.EqvGen Qualifies a.toList b.toList

theorem not_continuesName_dot : continuesName '.' = false := by decide

theorem startsName_of_isName {q : List Char} (h : IsName q) (rest : List Char) : StartsName (q ++ rest) := by
  obtain ⟨c, cs, rfl, hc, -⟩ := h
  exact hc

theorem IsName.concat {q : List Char} {c : Char} (h : IsName q) (hc : continuesName c) :
    IsName (q ++ [c]) := by
  obtain ⟨d, ds, rfl, hd, hds⟩ := h
  exact ⟨d, ds ++ [c], rfl, hd, List.forall_mem_append.mpr ⟨hds, List.forall_mem_singleton.mpr hc⟩⟩

theorem continuesName_of_startsName {c : Char} (h : startsName c) : continuesName c := by
  rw [startsName, Bool.or_eq_true] at h
  rw [continuesName, Bool.or_eq_true, Bool.or_eq_true]
  exact h.imp_left Or.inl

/-- What a text is read with before a name goes on reading where the text ends. -/
theorem endsInName_append (done text : List Char) :
    endsInName (done ++ text) = text.foldl inName (endsInName done) := List.foldl_append

/-! ### Taking names of packages out -/

theorem stripFrom_outside (c : Char) (cs : List Char) :
    stripFrom [] (c :: cs) = if startsName c then stripFrom [c] cs else c :: stripFrom [] cs := rfl

theorem stripFrom_inside (n c : Char) (ns cs : List Char) : stripFrom (n :: ns) (c :: cs) =
    if continuesName c then stripFrom (c :: n :: ns) cs
    else if c = '.' && (cs.head?.map startsName).getD false then stripFrom [] cs
    else (n :: ns).reverse ++ c :: stripFrom [] cs := rfl

/-- A name in front of a dot and another name is taken out. -/
theorem stripFrom_package {n : Char} {ns cs after : List Char} (hcs : ∀ d ∈ cs, continuesName d)
    (hafter : StartsName after) :
    stripFrom (n :: ns) (cs ++ '.' :: after) = stripFrom [] after := by
  induction cs generalizing n ns with
  | nil =>
    rw [List.nil_append, stripFrom_inside, not_continuesName_dot, if_neg Bool.false_ne_true]
    exact if_pos (Bool.and_eq_true _ _ ▸ ⟨rfl, hafter⟩)
  | cons c cs ih =>
    obtain ⟨hc, hcs⟩ := List.forall_mem_cons.mp hcs
    rw [List.cons_append, stripFrom_inside, if_pos hc]
    exact ih hcs

/-- Behind a text that does not end in a name it makes no difference how a name starts that follows. -/
theorem stripFrom_append {name before x y : List Char}
    (hbefore : before.foldl inName (!name.isEmpty) = false) (hx : StartsName x) (hy : StartsName y)
    (hxy : stripFrom [] x = stripFrom [] y) :
    stripFrom name (before ++ x) = stripFrom name (before ++ y) := by
  induction before generalizing name with
  | nil =>
    obtain rfl : name = [] := by simpa using hbefore
    exact hxy
  | cons c cs ih =>
    rw [List.foldl_cons] at hbefore
    cases name with
    | nil =>
      rw [List.cons_append, List.cons_append, stripFrom_outside, stripFrom_outside]
      by_cases hc : startsName c
      · rw [if_pos hc, if_pos hc]
        exact ih (by simpa [inName, hc] using hbefore)
      · rw [if_neg hc, if_neg hc]
        exact congrArg (c :: ·) (ih (by simpa [inName, hc] using hbefore))
    | cons n ns =>
      rw [List.cons_append, List.cons_append, stripFrom_inside, stripFrom_inside]
      by_cases hc : continuesName c
      · rw [if_pos hc, if_pos hc]
        exact ih (by simpa [inName, hc] using hbefore)
      · have hrest : stripFrom [] (cs ++ x) = stripFrom [] (cs ++ y) :=
          ih (by simpa [inName, hc] using hbefore)
        have hnext : ((cs ++ x).head?.map startsName).getD false =
            ((cs ++ y).head?.map startsName).getD false := by
          cases cs with
          | nil => exact hx.trans hy.symm
          | cons => rfl
        rw [if_neg hc, if_neg hc, hnext, hrest]

theorem stripFrom_of_qualifies {a b : List Char} (h : Qualifies a b) :
    stripFrom [] a = stripFrom [] b := by
  obtain ⟨before, package, after, hbefore, hpackage, hafter, rfl, rfl⟩ := h
  refine stripFrom_append hbefore hafter (startsName_of_isName hpackage _) ?_
  obtain ⟨c, cs, rfl, hc, hcs⟩ := hpackage
  rw [List.cons_append, stripFrom_outside, if_pos hc, stripFrom_package hcs hafter]

/-- A text arises from what is left of it by names of packages put in front of names.  `done` is what has
been written before the name in progress. -/
theorem reflTransGen_stripFrom {done name rest : List Char} (hdone : endsInName done = false)
    (hname : name = [] ∨ IsName name.reverse) :
    Relation.ReflTransGen Qualifies (done ++ stripFrom name rest) (done ++ (name.reverse ++ rest)) := by
  fun_induction stripFrom name rest generalizing done with
  | case1 name =>
    rw [List.append_nil]
  | case2 c cs hc ih => exact ih hdone (Or.inr ⟨c, [], rfl, hc, List.forall_mem_nil _⟩)
  | case3 c cs hc ih =>
    have hwritten : endsInName (done ++ [c]) = false := by
      rw [endsInName_append, hdone]
      exact Bool.eq_false_of_not_eq_true hc
    have hrest := ih hwritten (Or.inl rfl)
    rwa [List.append_assoc, List.append_assoc] at hrest
  | case4 n name c cs hc ih =>
    have hlonger : IsName (c :: n :: name).reverse := by
      rw [List.reverse_cons]
      exact (hname.resolve_left (List.cons_ne_nil _ _)).concat hc
    have hrest := ih hdone (Or.inr hlonger)
    rwa [List.reverse_cons, List.append_assoc] at hrest
  | case5 n name c cs hc hdot ih =>
    obtain ⟨hdot, hafter⟩ := Bool.and_eq_true_iff.mp hdot
    obtain rfl := of_decide_eq_true hdot
    refine .tail (ih hdone (Or.inl rfl)) ?_
    exact ⟨done, (n :: name).reverse, cs, hdone, hname.resolve_left (List.cons_ne_nil _ _), hafter,
      rfl, rfl⟩
  | case6 n name c cs hc hdot ih =>
    have hwritten : endsInName (done ++ ((n :: name).reverse ++ [c])) = false := by
      rw [endsInName_append, List.foldl_append]
      cases List.foldl inName (endsInName done) (n :: name).reverse with
      | false => exact Bool.eq_false_of_not_eq_true (mt continuesName_of_startsName hc)
      | true => exact Bool.eq_false_of_not_eq_true hc
    have hrest := ih hwritten (Or.inl rfl)
    rwa [List.append_assoc, List.append_assoc, List.append_assoc, List.append_assoc] at hrest

theorem qualifies_stripFrom (text : List Char) :
    Relation.ReflTransGen Qualifies (stripFrom [] text) text := by
  have hdone : endsInName [] = false := rfl
  exact reflTransGen_stripFrom hdone (Or.inl rfl)

theorem stripFrom_eq_iff {a b : List Char} :
    stripFrom [] a = stripFrom [] b ↔ Relation.EqvGen Qualifies a b := by
  have hleft (text : List Char) : Relation.EqvGen Qualifies (stripFrom [] text) text :=
    Relation.EqvGen.reflTransGen_le_eqvGen Qualifies _ _ (qualifies_stripFrom text)
  constructor
  · exact fun h => .trans _ _ _ (.symm _ _ (hleft a)) (h ▸ hleft b)
  · intro h
    induction h with
    | rel _ _ h => exact stripFrom_of_qualifies h
    | refl _ => rfl
    | symm _ _ _ ih => exact ih.symm
    | trans _ _ _ _ _ ih ih' => exact ih.trans ih'

/-- The texts that are the same once names of packages are taken out are those that differ in such names
alone. -/
theorem stripQualifiers_eq_iff {a b : String} :
    stripQualifiers a = stripQualifiers b ↔ SpelledAlike a b := by
  rw [stripQualifiers, stripQualifiers, String.ofList_inj]
  exact stripFrom_eq_iff

instance (a b : String) : Decidable (SpelledAlike a b) := decidable_of_iff _ stripQualifiers_eq_iff

theorem typesMatch_iff {as bs : List String} : typesMatch as bs ↔ List.Forall₂ SpelledAlike as bs := by
  simp only [typesMatch, decide_eq_true_eq, ← List.forall₂_eq_eq_eq, List.forall₂_map_left_iff,
    List.forall₂_map_right_iff, stripQualifiers_eq_iff]

namespace SymbolTable

variable {t : SymbolTable}

/-! ### Structs that declare the methods themselves -/

/-- A method that is declared on a struct is the one it has of its name. -/
theorem methodNamed?_of_declared {struct : TypeId} {name : String} {f : FunctionDecl}
    (hstruct : (t.struct? struct).isSome)
    (hf : t.function? ⟨struct.package, some struct.name, name⟩ = some f) :
    methodNamed? (t.structMethods struct) name = some (declaredEntry struct name f) :=
  (methodNamed?_structMethods_iff hstruct).mpr (firstOffer_declared hstruct hf)

/-- **Types are compared as they are spelled.**  A struct that declares a method for each one that an
interface asks for is reported for the interface exactly if the types of their parameters and results
are spelled alike, one by one; and then it takes a pointer exactly if one of these methods does.  So two
spellings of one type that differ in more than names of packages, such as the two names of a predeclared
type or the names of the parameters of a function type, keep a struct from being reported. -/
theorem implementations_by_spelling (p : Project) {interface struct : TypeId}
    {asked : List MethodSignature} {declared : MethodSignature → FunctionDecl}
    (hasked : (ofProject p).interfaceMethods interface = .ok asked) (hsome : asked ≠ [])
    (hstruct : ((ofProject p).struct? struct).isSome)
    (hdeclared : ∀ m ∈ asked,
      (ofProject p).function? ⟨struct.package, some struct.name, m.name⟩ = some (declared m))
    (pointer : Bool) :
    ⟨interface, struct, pointer⟩ ∈ (ofProject p).implementations ↔
      (∀ m ∈ asked, List.Forall₂ SpelledAlike m.params (declared m).params ∧
        List.Forall₂ SpelledAlike m.results (declared m).results) ∧
      (pointer = true ↔ ∃ m ∈ asked, (declared m).pointerReceiver) := by
  have hfound (m : MethodSignature) (hm : m ∈ asked) :
      methodNamed? ((ofProject p).structMethods struct) m.name =
        some (declaredEntry struct m.name (declared m)) :=
    methodNamed?_of_declared hstruct (hdeclared m hm)
  have hmatch (m : MethodSignature) :
      signaturesMatch m (declaredEntry struct m.name (declared m)).signature ↔
        List.Forall₂ SpelledAlike m.params (declared m).params ∧
          List.Forall₂ SpelledAlike m.results (declared m).results := by
    rw [← typesMatch_iff, ← typesMatch_iff, signaturesMatch, Bool.and_eq_true, Bool.and_eq_true]
    exact and_congr_left' (and_iff_right (decide_eq_true rfl))
  have hcovers : Implementation.covers? asked ((ofProject p).structMethods struct) = some pointer ↔
      (∀ m ∈ asked, List.Forall₂ SpelledAlike m.params (declared m).params ∧
        List.Forall₂ SpelledAlike m.results (declared m).results) ∧
      (pointer = true ↔ ∃ m ∈ asked, (declared m).pointerReceiver) := by
    rw [Implementation.covers?_eq_some]
    refine and_congr (forall₂_congr fun m hm => ?_)
      (iff_congr Iff.rfl (exists_congr fun m => and_congr_right fun hm => ?_))
    · simp only [hfound m hm, Option.some.injEq, exists_eq_left']
      exact hmatch m
    · simp only [hfound m hm, Option.some.injEq, exists_eq_left']
      rfl
  rw [mem_implementations]
  constructor
  · rintro ⟨-, -, asked', hasked', -, h⟩
    obtain rfl := Except.ok.inj (hasked.symm.trans hasked')
    exact hcovers.mp h
  · intro h
    exact ⟨mem_typesOfForm (isSome_interface?_of_interfaceMethods hasked), mem_typesOfForm hstruct, asked,
      hasked, hsome, hcovers.mpr h⟩

/-- A method `Put` with parameters of the types given. -/
def putMethod (receiver : String) (line : Nat) (params : List String) : FunctionDecl :=
  { plainMethod receiver "Put" false line with params }

/-- `Store` asks for a method with two parameters.  `Shelf` spells them as the interface does, and `Crate`
spells the same types in other words. -/
def spellings : Package :=
  ⟨".", "p", "",
    [⟨"p.go", "p", [],
      [putMethod "Shelf" 9 ["any", "func(n int) error"],
        putMethod "Crate" 13 ["interface\x7b\x7d", "func(int) error"]],
      [⟨"Store", .interface, .exported, ⟨3, 5⟩, [], [⟨"Put", ["any", "func(n int) error"], []⟩], []⟩,
        embeddingStruct "Shelf" 7 [], embeddingStruct "Crate" 11 []],
      [], "", 13⟩]⟩

/-- Of two structs with the same method the one is reported that spells its types as the interface does. -/
theorem implementations_by_spelling_spellings :
    let t := ofProject ⟨"/p", none, [spellings], []⟩
    t.interfaceMethods ⟨".", "Store"⟩ = .ok [⟨"Put", ["any", "func(n int) error"], []⟩] ∧
      t.function? ⟨".", some "Shelf", "Put"⟩ =
        some (putMethod "Shelf" 9 ["any", "func(n int) error"]) ∧
      t.function? ⟨".", some "Crate", "Put"⟩ =
        some (putMethod "Crate" 13 ["interface\x7b\x7d", "func(int) error"]) ∧
      ⟨⟨".", "Store"⟩, ⟨".", "Shelf"⟩, false⟩ ∈ t.implementations ∧
      ∀ pointer, ⟨⟨".", "Store"⟩, ⟨".", "Crate"⟩, pointer⟩ ∉ t.implementations := by
  have htable : ofProject ⟨"/p", none, [spellings], []⟩ = ⟨[spellings]⟩ := ofPackages_singleton spellings
  have hasked : interfaceMethods ⟨[spellings]⟩ ⟨".", "Store"⟩ =
      .ok [⟨"Put", ["any", "func(n int) error"], []⟩] := interfaceMethods_singleton (by decide)
  have hshelf : function? ⟨[spellings]⟩ ⟨".", some "Shelf", "Put"⟩ =
      some (putMethod "Shelf" 9 ["any", "func(n int) error"]) := by decide
  have hcrate : function? ⟨[spellings]⟩ ⟨".", some "Crate", "Put"⟩ =
      some (putMethod "Crate" 13 ["interface\x7b\x7d", "func(int) error"]) := by decide
  have hspelling (struct : TypeId) (declared : MethodSignature → FunctionDecl) :=
    @implementations_by_spelling ⟨"/p", none, [spellings], []⟩ ⟨".", "Store"⟩ struct _ declared
      (htable ▸ hasked) (List.cons_ne_nil _ _)
  rw [htable] at hspelling ⊢
  refine ⟨hasked, hshelf, hcrate, ?_, fun pointer h => ?_⟩
  · refine (hspelling ⟨".", "Shelf"⟩ (fun _ => putMethod "Shelf" 9 _) (by decide)
      (List.forall_mem_singleton.mpr hshelf) false).mpr ?_
    decide
  · obtain ⟨halike, -⟩ := (hspelling ⟨".", "Crate"⟩ (fun _ => putMethod "Crate" 13 _) (by decide)
      (List.forall_mem_singleton.mpr hcrate) pointer).mp h
    revert halike
    decide

end SymbolTable

end CodeGraph
