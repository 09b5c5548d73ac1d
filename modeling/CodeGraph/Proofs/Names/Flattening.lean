import CodeGraph.Proofs.Names.Satisfaction
import Mathlib.Data.List.Permutation

/-!
# The method set of an interface

* `SymbolTable.Grounded` — what an interface embeds are interfaces of the project, the word `error`
  aside.
* `SymbolTable.notMem_above_of_flatten` — an interface with a method set reaches none of those above it;
  `SymbolTable.exists_flatten` — one that reaches nothing unknown and nothing twice on one way down has a
  method set.
* `SymbolTable.find?_interfaceMethods` — which signature a method of a name has: the one that is listed,
  or else the first one that is embedded.
* `SymbolTable.Lists` — the names that an interface brings itself; `SymbolTable.mem_names_interfaceMethods`
  says that the names of a method set are those of all interfaces that are reached.
* `SymbolTable.interfaceMethods_by_reach` — the main result.
-/

namespace CodeGraph

open Relation (ReflTransGen TransGen)

/-- Of several methods of one name the last counts. -/
theorem find?_lastOfEach (ms : List MethodSignature) (n : String) :
    (lastOfEach ms).find? (·.name = n) = ms.reverse.find? (·.name = n) := by
  refine Option.ext fun m => ?_
  rw [find?_name_eq_some (nodup_names_lastOfEach ms), lastOfEach, nil_addMissing]
  constructor
  · rintro ⟨hm, rfl⟩
    exact find?_of_mem_firstOfEach hm
  · intro hm
    have hname : m.name = n := by simpa using List.find?_some hm
    have hsorted := (sortedBy_perm MethodSignature.name ms.reverse).symm.subset
      (List.mem_of_find?_eq_some hm)
    obtain ⟨m', hm', hsame⟩ := exists_mem_firstOfEach MethodSignature.name hsorted
    have hfound : ms.reverse.find? (·.name = m'.name) = some m' := find?_of_mem_firstOfEach hm'
    rw [hsame, hname, hm] at hfound
    obtain rfl := Option.some.inj hfound
    exact ⟨hm', hname⟩

namespace SymbolTable

variable {t : SymbolTable} {k i : TypeId} {above : List TypeId} {fuel : Nat} {n : String}
  {decl : TypeDecl} {file : SourceFile} {found asked : List MethodSignature}

/-! ### Which interfaces have a method set -/

/-- What an interface embeds, the word `error` aside, are interfaces of the project. -/
def Grounded (t : SymbolTable) (k : TypeId) : Prop :=
  ∀ decl file, t.interface? k = some (decl, file) → ∀ written ∈ decl.embeds, written ≠ "error" →
    ∃ inner, t.resolve? k.package file written = some inner ∧ (t.interface? inner).isSome

theorem isSome_of_flatten (h : flatten t fuel above k = .ok found) : (t.interface? k).isSome := by
  cases fuel with
  | zero => cases h
  | succ fuel =>
    obtain ⟨decl, file, hk, -⟩ := flatten_eq_ok.mp h
    exact hk ▸ rfl

theorem isSome_of_interfaceMethods (h : t.interfaceMethods k = .ok asked) :
    (t.interface? k).isSome := by
  obtain ⟨found, hflat, -⟩ := except_map_eq_ok.mp h
  exact isSome_of_flatten hflat

/-- An interface with a method set reaches none of those above it. -/
theorem notMem_above_of_flatten (h : flatten t fuel above k = .ok found)
    (hreach : ReflTransGen t.Embeds k i) : i ∉ above := by
  induction hreach using ReflTransGen.head_induction_on generalizing fuel above found with
  | refl =>
    cases fuel with
    | zero => cases h
    | succ fuel =>
      obtain ⟨decl, file, -, hk, -⟩ := flatten_eq_ok.mp h
      exact hk
  | head hstep _ ih =>
    cases fuel with
    | zero => cases h
    | succ fuel =>
      obtain ⟨promoted, hinner, -⟩ := flatten_of_embeds hstep h
      exact fun hi => ih hinner (List.mem_cons_of_mem _ hi)

/-- So it does not reach itself by way of what it embeds. -/
theorem not_transGen_of_interfaceMethods (h : t.interfaceMethods k = .ok asked) :
    ¬TransGen t.Embeds k k := by
  intro hcycle
  obtain ⟨j, hstep, hback⟩ := TransGen.head'_iff.mp hcycle
  obtain ⟨found, hflat, -⟩ := except_map_eq_ok.mp h
  obtain ⟨promoted, hinner, -⟩ := flatten_of_embeds hstep hflat
  exact notMem_above_of_flatten hinner hback List.mem_cons_self

theorem interfaceMethods_of_reflTransGen (hreach : ReflTransGen t.Embeds k i)
    (h : t.interfaceMethods k = .ok asked) :
    ∃ asked', t.interfaceMethods i = .ok asked' ∧
      asked'.map MethodSignature.name ⊆ asked.map MethodSignature.name := by
  rcases Relation.reflTransGen_iff_eq_or_transGen.mp hreach with rfl | hembeds
  · exact ⟨asked, h, List.Subset.refl _⟩
  · exact interfaceMethods_of_transGen hembeds h

/-- What an interface with a method set embeds are interfaces. -/
theorem grounded_of_interfaceMethods (h : t.interfaceMethods k = .ok asked) : t.Grounded k := by
  intro decl file hk written hwritten hother
  cases hresolve : t.resolve? k.package file written with
  | some inner =>
    have hembeds : t.Embeds k inner := ⟨decl, file, hk, written, hwritten, hother, hresolve⟩
    obtain ⟨asked', hasked', -⟩ := interfaceMethods_of_embeds hembeds h
    exact ⟨inner, rfl, isSome_of_interfaceMethods hasked'⟩
  | none =>
    -- the fold would have stopped there
    obtain ⟨found, hflat, -⟩ := except_map_eq_ok.mp h
    obtain ⟨decl', file', hsame, -, hfold⟩ := flatten_eq_ok.mp hflat
    obtain ⟨rfl, rfl⟩ := Prod.mk.inj (Option.some.inj (hk.symm.trans hsame))
    obtain ⟨c, c', hstep⟩ := exists_step_of_foldlM hfold hwritten
    rw [addEmbedded, if_neg hother, hresolve] at hstep
    cases hstep

/-- An interface that reaches only interfaces of the project, and none from itself, has a method set:
those above it all reach it, so it is none of them. -/
theorem exists_flatten (hroom : HasRoom t.interfaces fuel above) (hk : (t.interface? k).isSome)
    (hreached : ∀ i, ReflTransGen t.Embeds k i → t.Grounded i ∧ ¬TransGen t.Embeds i i)
    (habove : ∀ a ∈ above, TransGen t.Embeds a k) : ∃ found, flatten t fuel above k = .ok found := by
  induction fuel generalizing above k with
  | zero =>
    obtain ⟨_, hsucc⟩ := hroom.exists_succ
    cases hsucc
  | succ fuel ih =>
    obtain ⟨hgrounded, hacyclic⟩ := hreached k .refl
    have hnew : k ∉ above := fun hmem => hacyclic (habove k hmem)
    obtain ⟨⟨decl, file⟩, hdecl⟩ := Option.isSome_iff_exists.mp hk
    rw [flatten_succ hdecl hnew]
    refine exists_foldlM_ok (fun found written hwritten => ?_) _
    rw [addEmbedded]
    split
    next => exact ⟨_, rfl⟩
    next hother =>
      obtain ⟨inner, hresolve, hinner⟩ := hgrounded decl file hdecl written hwritten hother
      have hembeds : t.Embeds k inner := ⟨decl, file, hdecl, written, hwritten, hother, hresolve⟩
      obtain ⟨promoted, hflat⟩ := ih (hroom.down (mem_typesOfForm hk) hnew) hinner
        (fun i hi => hreached i (hi.head hembeds)) (fun a ha => by
          rcases List.mem_cons.mp ha with rfl | ha
          · exact .single hembeds
          · exact (habove a ha).tail hembeds)
      rw [hresolve]
      dsimp only
      rw [hflat]
      exact ⟨_, rfl⟩

theorem interfaceMethods_isOk_iff : (∃ asked, t.interfaceMethods k = .ok asked) ↔
    (t.interface? k).isSome ∧
      ∀ i, ReflTransGen t.Embeds k i → t.Grounded i ∧ ¬TransGen t.Embeds i i := by
  constructor
  · rintro ⟨asked, h⟩
    refine ⟨isSome_of_interfaceMethods h, fun i hi => ?_⟩
    obtain ⟨asked', hasked', -⟩ := interfaceMethods_of_reflTransGen hi h
    exact ⟨grounded_of_interfaceMethods hasked', not_transGen_of_interfaceMethods hasked'⟩
  · rintro ⟨hk, hreached⟩
    have hroom : HasRoom t.interfaces (t.interfaces.length + 1) [] := .start (Nat.lt_succ_self _)
    obtain ⟨found, hflat⟩ := exists_flatten hroom hk hreached fun a ha => nomatch ha
    refine ⟨sortedBy MethodSignature.name found, ?_⟩
    rw [← interfaceMethods_eq (Nat.lt_succ_self _), hflat]
    rfl

/-! ### Which signature a method has -/

/-- The method of a name that comes with an embedded type expression. -/
def embeddedMethod? (t : SymbolTable) (package : String) (file : SourceFile) (n written : String) :
    Option MethodSignature :=
  if written = "error" then [errorMethod].find? (·.name = n)
  else (t.resolve? package file written).bind fun inner =>
    (t.interfaceMethods inner).toOption.bind fun ms => ms.find? (·.name = n)

/-- Sorting changes nothing about the method of a name. -/
theorem find?_sortedBy {ms : List MethodSignature} (h : (ms.map MethodSignature.name).Nodup) :
    (sortedBy MethodSignature.name ms).find? (·.name = n) = ms.find? (·.name = n) := by
  refine Option.ext fun m => ?_
  rw [find?_name_eq_some (nodup_names_sortedBy h), find?_name_eq_some h,
    (sortedBy_perm MethodSignature.name ms).mem_iff]

theorem find?_addEmbedded {package written : String} {found' : List MethodSignature}
    (h : t.addEmbedded (t.interfaces.length + 1) [k] package file found written = .ok found') :
    found'.find? (·.name = n) =
      (found.find? (·.name = n)).or (t.embeddedMethod? package file n written) := by
  rw [addEmbedded] at h
  rw [embeddedMethod?]
  split at h
  next herror =>
    obtain rfl := Except.ok.inj h
    rw [find?_addMissing, if_pos herror]
  next hother =>
    split at h
    next => cases h
    next inner hresolve =>
      obtain ⟨promoted, hflat, rfl⟩ := except_map_eq_ok.mp h
      have hinner : t.interfaceMethods inner = .ok (sortedBy MethodSignature.name promoted) := by
        rw [← interfaceMethods_eq (Nat.lt_succ_self _),
          flatten_of_subset hflat (List.nil_subset _)]
        rfl
      rw [find?_addMissing, if_neg hother, hresolve, Option.bind_some, hinner]
      exact congrArg _ (find?_sortedBy (nodup_names_flatten hflat)).symm

/-- The method of a name is the one that the interface lists, of several the last; or else the first one
that is embedded. -/
theorem find?_interfaceMethods (h : t.interfaceMethods k = .ok asked)
    (hk : t.interface? k = some (decl, file)) (n : String) : asked.find? (·.name = n) =
      (decl.methods.reverse.find? (·.name = n)).or
        (decl.embeds.findSome? (t.embeddedMethod? k.package file n)) := by
  obtain ⟨found, hflat, rfl⟩ := except_map_eq_ok.mp h
  obtain ⟨decl', file', hsame, -, hfold⟩ := flatten_eq_ok.mp hflat
  obtain ⟨rfl, rfl⟩ := Prod.mk.inj (Option.some.inj (hk.symm.trans hsame))
  rw [find?_sortedBy (nodup_names_flatten hflat), ← find?_lastOfEach]
  -- what has been found before decides, and then the embeddings that are left
  generalize decl.embeds = embeds at hfold ⊢
  generalize lastOfEach decl.methods = before at hfold
  induction embeds generalizing before with
  | nil =>
    obtain rfl := Except.ok.inj hfold
    rw [List.findSome?_nil, Option.or_none]
  | cons written rest ih =>
    rw [List.foldlM_cons] at hfold
    obtain ⟨between, hstep, hfold⟩ := except_bind_eq_ok.mp hfold
    rw [ih between hfold, find?_addEmbedded hstep, Option.or_assoc, List.findSome?_cons]
    cases t.embeddedMethod? k.package file n written <;> rfl

/-! ### Which names there are -/

/-- An interface brings a name itself: it lists a method of that name, or embeds `error`. -/
def Lists (t : SymbolTable) (k : TypeId) (n : String) : Prop :=
  ∃ decl file, t.interface? k = some (decl, file) ∧
    (n ∈ decl.methods.map MethodSignature.name ∨ "error" ∈ decl.embeds ∧ n = "Error")

theorem mem_names_iff {ms : List MethodSignature} :
    n ∈ ms.map MethodSignature.name ↔ (ms.find? (·.name = n)).isSome := by
  simp [List.find?_isSome]

theorem mem_names_addMissing {as bs : List MethodSignature} :
    n ∈ (addMissing MethodSignature.name as bs).map MethodSignature.name ↔
      n ∈ as.map MethodSignature.name ∨ n ∈ bs.map MethodSignature.name := by
  simp only [mem_names_iff, find?_addMissing, Option.isSome_or, Bool.or_eq_true]

/-- A name that an interface brings itself is one of its method set. -/
theorem mem_names_of_lists (h : t.interfaceMethods k = .ok asked) (hn : t.Lists k n) :
    n ∈ asked.map MethodSignature.name := by
  obtain ⟨decl, file, hk, hn⟩ := hn
  rw [mem_names_iff, find?_interfaceMethods h hk, Option.isSome_or, Bool.or_eq_true]
  rcases hn with hlisted | ⟨herror, rfl⟩
  · rw [← List.mem_reverse, ← List.map_reverse, mem_names_iff] at hlisted
    exact Or.inl hlisted
  · refine Or.inr (List.findSome?_isSome_iff.mpr ⟨"error", herror, ?_⟩)
    rw [embeddedMethod?, if_pos rfl]
    rfl

/-- A name of a method set is brought by an interface that is reached. -/
theorem exists_lists_of_flatten (h : flatten t fuel above k = .ok found)
    (hn : n ∈ found.map MethodSignature.name) : ∃ i, ReflTransGen t.Embeds k i ∧ t.Lists i n := by
  induction fuel generalizing above k found with
  | zero => cases h
  | succ fuel ih =>
    obtain ⟨decl, file, hk, -, hfold⟩ := flatten_eq_ok.mp h
    refine foldlM_ok_ind_mem (P := fun found => n ∈ found.map MethodSignature.name →
      ∃ i, ReflTransGen t.Embeds k i ∧ t.Lists i n) ?_ ?_ hfold hn
    · intro before written hwritten after hbefore hstep hn
      rw [addEmbedded] at hstep
      split at hstep
      next herror =>
        obtain rfl := Except.ok.inj hstep
        rcases mem_names_addMissing.mp hn with hn | hn
        · exact hbefore hn
        · exact ⟨k, .refl, decl, file, hk, Or.inr ⟨herror ▸ hwritten, List.mem_singleton.mp hn⟩⟩
      next hother =>
        split at hstep
        next => cases hstep
        next inner hresolve =>
          obtain ⟨promoted, hflat, rfl⟩ := except_map_eq_ok.mp hstep
          rcases mem_names_addMissing.mp hn with hn | hn
          · exact hbefore hn
          · obtain ⟨i, hi, hlists⟩ := ih hflat hn
            exact ⟨i, hi.head ⟨decl, file, hk, written, hwritten, hother, hresolve⟩, hlists⟩
    · intro hn
      rw [mem_names_iff, find?_lastOfEach, ← mem_names_iff, List.map_reverse, List.mem_reverse] at hn
      exact ⟨k, .refl, decl, file, hk, Or.inl hn⟩

/-- The names of a method set are those of all interfaces that are reached. -/
theorem mem_names_interfaceMethods (h : t.interfaceMethods k = .ok asked) :
    n ∈ asked.map MethodSignature.name ↔ ∃ i, ReflTransGen t.Embeds k i ∧ t.Lists i n := by
  constructor
  · obtain ⟨found, hflat, rfl⟩ := except_map_eq_ok.mp h
    intro hn
    exact exists_lists_of_flatten hflat (((sortedBy_perm MethodSignature.name found).map _).subset hn)
  · rintro ⟨i, hi, hlists⟩
    obtain ⟨asked', hasked', hnames⟩ := interfaceMethods_of_reflTransGen hi h
    exact hnames (mem_names_of_lists hasked' hlists)

/-! ### The main result -/

/-- A method set is in the order of its names. -/
theorem pairwise_interfaceMethods (h : t.interfaceMethods k = .ok asked) :
    asked.Pairwise fun m m' => Precedes m.name m'.name := by
  have hdistinct := List.pairwise_map.mp (nodup_names_interfaceMethods h)
  obtain ⟨found, -, rfl⟩ := except_map_eq_ok.mp h
  exact ((pairwise_sortedBy MethodSignature.name found).and hdistinct).imp fun ⟨hle, hne⟩ =>
    precedes_of_isLE_of_ne hle hne

/-- **The method set of an interface.**  The search for it comes to an end, and more fuel changes nothing.
There is one exactly if the interface is one of the project and, on the way down what is embedded, every
type expression but the word `error` is about an interface of the project and no interface comes to
itself; two ways to the same interface do no harm.  The method set has each name once, in order, and the
names are those that the interfaces reached bring themselves.  Of the methods of one name the one counts
that the interface lists, of several the last, and otherwise the first one that is embedded. -/
theorem interfaceMethods_by_reach (t : SymbolTable) (k : TypeId) :
    (∀ fuel, t.interfaces.length < fuel →
      (t.flatten fuel [] k).map (sortedBy MethodSignature.name) = t.interfaceMethods k) ∧
    ((∃ asked, t.interfaceMethods k = .ok asked) ↔ (t.interface? k).isSome ∧
      ∀ i, ReflTransGen t.Embeds k i → t.Grounded i ∧ ¬TransGen t.Embeds i i) ∧
    ∀ asked, t.interfaceMethods k = .ok asked →
      (asked.Pairwise fun m m' => Precedes m.name m'.name) ∧
      (∀ n, n ∈ asked.map MethodSignature.name ↔ ∃ i, ReflTransGen t.Embeds k i ∧ t.Lists i n) ∧
      ∀ decl file, t.interface? k = some (decl, file) → ∀ n, asked.find? (·.name = n) =
        (decl.methods.reverse.find? (·.name = n)).or
          (decl.embeds.findSome? (t.embeddedMethod? k.package file n)) := by
  refine ⟨fun fuel hfuel => interfaceMethods_eq hfuel, interfaceMethods_isOk_iff, fun asked h => ?_⟩
  exact ⟨pairwise_interfaceMethods h, fun n => mem_names_interfaceMethods h,
    fun decl file hk n => find?_interfaceMethods h hk n⟩

/-- `R` embeds `X` and `Y`, which differ on the method `M` and both embed `B`; `Y` embeds `error` too. -/
def diamond : Package :=
  let interface (name : String) (methods : List MethodSignature) (embeds : List String) : TypeDecl :=
    ⟨name, .interface, .exported, ⟨1, 1⟩, [], methods, embeds⟩
  ⟨".", "p", "",
    [⟨"p.go", "p", [], [],
      [interface "R" [] ["X", "Y"],
        interface "X" [⟨"M", [], ["string"]⟩] ["B"],
        interface "Y" [⟨"M", [], ["int"]⟩] ["B", "error"],
        interface "B" [⟨"N", [], []⟩] []],
      [], "", 9⟩]⟩

/-- Two ways to `B` are no cycle, `Error` comes from an interface that is reached, and the method `M` is
that of `X`. -/
theorem interfaceMethods_by_reach_diamond :
    let t := ofProject ⟨"/p", none, [diamond], []⟩
    let asked : List MethodSignature := [errorMethod, ⟨"M", [], ["string"]⟩, ⟨"N", [], []⟩]
    t.interfaceMethods ⟨".", "R"⟩ = .ok asked ∧
      (∀ i, ReflTransGen t.Embeds ⟨".", "R"⟩ i → t.Grounded i ∧ ¬TransGen t.Embeds i i) ∧
      (∃ i, ReflTransGen t.Embeds ⟨".", "R"⟩ i ∧ t.Lists i "Error") ∧
      ["X", "Y"].findSome? (t.embeddedMethod? "." diamond.files[0] "M") = some ⟨"M", [], ["string"]⟩ := by
  have htable : ofProject ⟨"/p", none, [diamond], []⟩ = ⟨[diamond]⟩ := ofPackages_singleton diamond
  rw [htable]
  intro t asked
  have hasked : t.interfaceMethods ⟨".", "R"⟩ = .ok asked := by cbv
  obtain ⟨-, hiff, hmethods⟩ := interfaceMethods_by_reach t ⟨".", "R"⟩
  obtain ⟨-, hnames, hsignatures⟩ := hmethods asked hasked
  refine ⟨hasked, (hiff.mp ⟨asked, hasked⟩).2, (hnames "Error").mp List.mem_cons_self, ?_⟩
  exact (hsignatures _ _ rfl "M").symm

end SymbolTable

end CodeGraph
