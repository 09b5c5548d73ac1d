import CodeGraph.Proofs.Names.Implementation
import Mathlib.Logic.Relation

/-!
# Structs that satisfy interfaces

* `valueMethods` — the methods that a struct has without a pointer to it;
  `Implementation.covers?_eq_some_iff` says that an implementation takes a pointer exactly if these do
  not do.
* `SymbolTable.Embeds` — an interface embeds another one; `SymbolTable.interfaceMethods_of_embeds` says
  that it has methods of all its names.
* `Implementation.covers_of_covers` — a struct that covers an interface covers any other that asks for no
  more.
* `SymbolTable.filter_flattenDegradations` — the interfaces for which there is no telling.
* `SymbolTable.implementations_by_method_sets` — the main result.
-/

namespace CodeGraph

/-! ### Signatures and method sets -/

theorem signaturesMatch_trans {a b c : MethodSignature} (hab : signaturesMatch a b)
    (hbc : signaturesMatch b c) : signaturesMatch a c := by
  simp only [signaturesMatch, typesMatch, Bool.and_eq_true, decide_eq_true_eq] at hab hbc ⊢
  obtain ⟨⟨hname, hparams⟩, hresults⟩ := hab
  obtain ⟨⟨hname', hparams'⟩, hresults'⟩ := hbc
  exact ⟨⟨hname.trans hname', hparams.trans hparams'⟩, hresults.trans hresults'⟩

/-- The methods that a struct has without a pointer to it. -/
def valueMethods (methods : List MethodEntry) : List MethodEntry := methods.filter (!·.pointerOnly)

theorem methodNamed?_valueMethods {methods : List MethodEntry} {n : String} {e : MethodEntry}
    (hnodup : (methods.map MethodEntry.name).Nodup) :
    methodNamed? (valueMethods methods) n = some e ↔
      methodNamed? methods n = some e ∧ e.pointerOnly = false := by
  have hvalues : ((valueMethods methods).map MethodEntry.name).Nodup :=
    hnodup.sublist (List.filter_sublist.map _)
  rw [methodNamed?, methodNamed?, find?_name_eq_some hvalues, find?_name_eq_some hnodup, valueMethods,
    List.mem_filter, Bool.not_eq_true']
  exact and_right_comm

namespace Implementation

variable {required : List MethodSignature} {provided : List MethodEntry} {pointer : Bool}

/-- A struct that covers an interface takes a pointer for it exactly if its values do not. -/
theorem covers?_eq_some_iff (hnodup : (provided.map MethodEntry.name).Nodup) :
    covers? required provided = some pointer ↔ Covers required provided ∧
      (pointer = true ↔ ¬Covers required (valueMethods provided)) := by
  rw [covers?_eq_some]
  refine and_congr_right fun hcovers => iff_congr Iff.rfl ?_
  constructor
  · rintro ⟨m, hm, e, he, hpointer⟩ hvalues
    obtain ⟨e', he', -⟩ := hvalues m hm
    obtain ⟨hfound, hvalue⟩ := (methodNamed?_valueMethods hnodup).mp he'
    obtain rfl := Option.some.inj (he.symm.trans hfound)
    rw [hpointer] at hvalue
    cases hvalue
  · intro hvalues
    by_contra hnone
    refine hvalues fun m hm => ?_
    obtain ⟨e, he, hmatch⟩ := hcovers m hm
    have hvalue : e.pointerOnly = false := by
      by_contra hpointer
      exact hnone ⟨m, hm, e, he, Bool.not_eq_false _ ▸ hpointer⟩
    exact ⟨e, (methodNamed?_valueMethods hnodup).mpr ⟨he, hvalue⟩, hmatch⟩

/-- Every method of one interface is matched by one of another. -/
def AsksNoMore (required others : List MethodSignature) : Prop :=
  ∀ m ∈ required, ∃ m' ∈ others, m'.name = m.name ∧ signaturesMatch m m'

/-- A struct that covers an interface covers any other that asks for no more. -/
theorem covers_of_covers {others : List MethodSignature} (h : AsksNoMore required others)
    (hcovers : Covers others provided) : Covers required provided := by
  intro m hm
  obtain ⟨m', hm', hname, hmatch⟩ := h m hm
  obtain ⟨e, he, hmatch'⟩ := hcovers m' hm'
  exact ⟨e, hname ▸ he, signaturesMatch_trans hmatch hmatch'⟩

end Implementation

namespace SymbolTable

variable {t : SymbolTable} {j k i : TypeId} {above above' : List TypeId} {fuel : Nat}

/-! ### Embedded interfaces -/

/-- What an embedded interface adds to the methods that are found so far. -/
def addEmbedded (t : SymbolTable) (fuel : Nat) (above : List TypeId) (package : String)
    (file : SourceFile) (found : List MethodSignature) (written : String) :
    Except FlattenFault (List MethodSignature) :=
  if written = "error" then .ok (addMissing MethodSignature.name found [errorMethod])
  else
    match t.resolve? package file written with
    | none => .error (.unresolved written)
    | some inner => (flatten t fuel above inner).map (addMissing MethodSignature.name found)

theorem flatten_succ {decl : TypeDecl} {file : SourceFile} (hk : t.interface? k = some (decl, file))
    (habove : k ∉ above) : flatten t (fuel + 1) above k =
      decl.embeds.foldlM (t.addEmbedded fuel (k :: above) k.package file) (lastOfEach decl.methods) := by
  rw [flatten, hk]
  exact if_neg fun hin => habove (List.contains_iff_mem.mp hin)

theorem flatten_eq_ok {found : List MethodSignature} : flatten t (fuel + 1) above k = .ok found ↔
    ∃ decl file, t.interface? k = some (decl, file) ∧ k ∉ above ∧
      decl.embeds.foldlM (t.addEmbedded fuel (k :: above) k.package file)
        (lastOfEach decl.methods) = .ok found := by
  constructor
  · intro h
    cases hk : t.interface? k with
    | none =>
      rw [flatten, hk] at h
      cases h
    | some u =>
      by_cases habove : k ∈ above
      · rw [flatten, hk] at h
        cases (if_pos (List.contains_iff_mem.mpr habove)).symm.trans h
      · exact ⟨u.1, u.2, rfl, habove, (flatten_succ hk habove).symm.trans h⟩
  · rintro ⟨decl, file, hk, habove, h⟩
    exact (flatten_succ hk habove).trans h

/-- What has a method set is an interface. -/
theorem isSome_interface?_of_interfaceMethods {asked : List MethodSignature}
    (h : t.interfaceMethods k = .ok asked) : (t.interface? k).isSome := by
  obtain ⟨found, hflat, -⟩ := except_map_eq_ok.mp h
  obtain ⟨decl, file, hk, -⟩ := flatten_eq_ok.mp hflat
  rw [hk]
  rfl

/-- An interface that has a method set has the same one where fewer interfaces are above it. -/
theorem flatten_of_subset {found : List MethodSignature} (h : flatten t fuel above k = .ok found)
    (hsub : above' ⊆ above) : flatten t fuel above' k = .ok found := by
  induction fuel generalizing above above' k found with
  | zero => cases h
  | succ fuel ih =>
    obtain ⟨decl, file, hk, habove, hfold⟩ := flatten_eq_ok.mp h
    refine flatten_eq_ok.mpr ⟨decl, file, hk, fun hin => habove (hsub hin), ?_⟩
    refine foldlM_ok_of_imp (fun found written found' hstep => ?_) hfold
    rw [addEmbedded] at hstep ⊢
    split at hstep
    next herror => rw [if_pos herror, hstep]
    next hother =>
      rw [if_neg hother]
      split at hstep
      next => cases hstep
      next inner hinner =>
        obtain ⟨promoted, hflat, rfl⟩ := except_map_eq_ok.mp hstep
        exact except_map_eq_ok.mpr ⟨promoted, ih hflat (List.cons_subset_cons k hsub), rfl⟩

/-- What is embedded adds names and takes none away. -/
theorem subset_names_addMissing (as bs : List MethodSignature) :
    as.map MethodSignature.name ⊆ (addMissing MethodSignature.name as bs).map MethodSignature.name ∧
      bs.map MethodSignature.name ⊆ (addMissing MethodSignature.name as bs).map MethodSignature.name := by
  rw [addMissing, List.map_append]
  refine ⟨List.subset_append_left _ _, fun n hn => ?_⟩
  obtain ⟨b, hb, rfl⟩ := List.mem_map.mp hn
  by_cases hnew : b ∈ bs.filter fun b => !as.any fun a => a.name == b.name
  · exact List.mem_append_right _ (List.mem_map_of_mem hnew)
  · -- the name is there before
    simp only [List.mem_filter, hb, true_and, Bool.not_eq_true', Bool.not_eq_false, List.any_eq_true,
      beq_iff_eq] at hnew
    obtain ⟨a, ha, hname⟩ := hnew
    exact List.mem_append_left _ (hname ▸ List.mem_map_of_mem ha)

theorem subset_names_addEmbedded {file : SourceFile} {package written : String}
    {found found' : List MethodSignature}
    (h : t.addEmbedded fuel above package file found written = .ok found') :
    found.map MethodSignature.name ⊆ found'.map MethodSignature.name := by
  rw [addEmbedded] at h
  split at h
  next =>
    obtain rfl := Except.ok.inj h
    exact (subset_names_addMissing _ _).1
  next =>
    split at h
    next => cases h
    next =>
      obtain ⟨promoted, -, rfl⟩ := except_map_eq_ok.mp h
      exact (subset_names_addMissing _ _).1

/-- An interface embeds another one: one of the type expressions that it embeds is about the other one
in its file.  The word `error` always stands for the interface of that name that all packages have. -/
def Embeds (t : SymbolTable) (j i : TypeId) : Prop :=
  ∃ decl file, t.interface? j = some (decl, file) ∧
    ∃ written ∈ decl.embeds, written ≠ "error" ∧ t.resolve? j.package file written = some i

/-- Below an interface that has a method set, what is embedded has one, with no other names. -/
theorem flatten_of_embeds {found : List MethodSignature} (hembeds : t.Embeds j i)
    (h : flatten t (fuel + 1) above j = .ok found) :
    ∃ promoted, flatten t fuel (j :: above) i = .ok promoted ∧
      promoted.map MethodSignature.name ⊆ found.map MethodSignature.name := by
  obtain ⟨decl, file, hj, written, hwritten, hother, hresolve⟩ := hembeds
  obtain ⟨decl', file', hsame, -, hfold⟩ := flatten_eq_ok.mp h
  obtain ⟨rfl, rfl⟩ := Prod.mk.inj (Option.some.inj (hj.symm.trans hsame))
  obtain ⟨before, after, hembeds⟩ := List.append_of_mem hwritten
  rw [hembeds, List.foldlM_append] at hfold
  obtain ⟨found₁, -, hfold⟩ := except_bind_eq_ok.mp hfold
  rw [List.foldlM_cons] at hfold
  obtain ⟨found₂, hstep, hfold⟩ := except_bind_eq_ok.mp hfold
  rw [addEmbedded, if_neg hother, hresolve] at hstep
  obtain ⟨promoted, hflat, rfl⟩ := except_map_eq_ok.mp hstep
  refine ⟨promoted, hflat, List.Subset.trans (subset_names_addMissing found₁ promoted).2 ?_⟩
  -- the embeddings that follow take no names away
  exact foldlM_ok_ind (P := fun c => (addMissing MethodSignature.name found₁ promoted).map
      MethodSignature.name ⊆ c.map MethodSignature.name)
    (fun c w c' hc hstep => List.Subset.trans hc (subset_names_addEmbedded hstep)) (List.Subset.refl _) hfold

/-- An interface that embeds another one has methods of all its names. -/
theorem interfaceMethods_of_embeds {asked : List MethodSignature} (hembeds : t.Embeds j i)
    (h : t.interfaceMethods j = .ok asked) :
    ∃ asked', t.interfaceMethods i = .ok asked' ∧
      asked'.map MethodSignature.name ⊆ asked.map MethodSignature.name := by
  obtain ⟨found, hflat, rfl⟩ := except_map_eq_ok.mp h
  obtain ⟨promoted, hinner, hnames⟩ := flatten_of_embeds hembeds hflat
  have hroom : t.interfaces.length < t.interfaces.length + 1 := Nat.lt_succ_self _
  refine ⟨sortedBy MethodSignature.name promoted, ?_, fun n hn => ?_⟩
  · rw [← interfaceMethods_eq hroom, flatten_of_subset hinner (List.nil_subset _)]
    rfl
  · have hpromoted := ((sortedBy_perm MethodSignature.name promoted).map _).subset hn
    exact ((sortedBy_perm MethodSignature.name found).map _).symm.subset (hnames hpromoted)

/-- So it has where the other one is embedded by way of others. -/
theorem interfaceMethods_of_transGen {asked : List MethodSignature}
    (hembeds : Relation.TransGen t.Embeds j i) (h : t.interfaceMethods j = .ok asked) :
    ∃ asked', t.interfaceMethods i = .ok asked' ∧
      asked'.map MethodSignature.name ⊆ asked.map MethodSignature.name := by
  induction hembeds with
  | single hstep => exact interfaceMethods_of_embeds hstep h
  | tail _ hstep ih =>
    obtain ⟨between, hbetween, hnames⟩ := ih
    obtain ⟨asked', hasked', hnames'⟩ := interfaceMethods_of_embeds hstep hbetween
    exact ⟨asked', hasked', List.Subset.trans hnames' hnames⟩

/-! ### Interfaces for which there is no telling -/

/-- An interface without a method set is named once, with the reason. -/
theorem filter_flattenDegradations {fault : FlattenFault} (hnodup : t.interfaces.Nodup)
    (hi : i ∈ t.interfaces) (h : t.interfaceMethods i = .error fault) :
    t.flattenDegradations.filter (fun g => TypeId.mk g.package g.subject = i) =
      [⟨i.package, i.name, fault.message⟩] := by
  have hkeys : (t.flattenDegradations.map fun g => TypeId.mk g.package g.subject).Nodup := by
    refine List.Sublist.nodup ?_ ((List.map_id t.interfaces).symm ▸ hnodup)
    refine map_filterMap_sublist id _ fun k _ g hg => ?_
    split at hg
    next => cases hg
    next =>
      obtain rfl := Option.some.inj hg
      rfl
  refine filter_key_eq_singleton hkeys (a := ⟨i.package, i.name, fault.message⟩) ?_
  exact List.mem_filterMap.mpr ⟨i, hi, by rw [h]⟩

/-! ### The main result -/

/-- The types of a form are those that the symbol table finds. -/
theorem mem_typesOfForm_iff {ps : List Package} {form : TypeForm} {k : TypeId} :
    k ∈ (ofPackages ps).typesOfForm form ↔
      (((ofPackages ps).package? k.package).bind fun p => p.typeOfForm? form k.name).isSome :=
  ⟨isSome_of_mem_typesOfForm, mem_typesOfForm⟩

/-- The implementations of a project, by what the values of a struct have and what pointers to them
have. -/
theorem mem_implementations_iff {ps : List Package} {x : Implementation} :
    x ∈ (ofPackages ps).implementations ↔ ((ofPackages ps).interface? x.interface).isSome ∧
      ((ofPackages ps).struct? x.struct).isSome ∧
      ∃ asked, (ofPackages ps).interfaceMethods x.interface = .ok asked ∧ asked ≠ [] ∧
        Implementation.Covers asked ((ofPackages ps).structMethods x.struct) ∧
        (x.pointer = true ↔
          ¬Implementation.Covers asked (valueMethods ((ofPackages ps).structMethods x.struct))) := by
  rw [mem_implementations, interfaces, structs, mem_typesOfForm_iff, mem_typesOfForm_iff]
  simp only [Implementation.covers?_eq_some_iff (nodup_names_structMethods _ _)]
  rfl

/-- No struct implements an interface twice. -/
theorem nodup_pairs_implementations (ps : List Package) :
    ((ofPackages ps).implementations.map fun x => (x.interface, x.struct)).Nodup := by
  refine (nodup_implementations ps).map_on fun x hx y hy hpair => ?_
  obtain ⟨hinterface, hstruct⟩ := Prod.mk.inj hpair
  obtain ⟨-, -, asked, hasked, -, -, hpointer⟩ := mem_implementations_iff.mp hx
  obtain ⟨-, -, asked', hasked', -, -, hpointer'⟩ := mem_implementations_iff.mp hy
  rw [hinterface] at hasked
  obtain rfl := Except.ok.inj (hasked.symm.trans hasked')
  rw [hstruct] at hpointer
  cases x
  cases y
  simp only [Implementation.mk.injEq] at *
  exact ⟨hinterface, hstruct, Bool.eq_iff_iff.mpr (hpointer.trans hpointer'.symm)⟩

/-- A struct that implements an interface implements any other that asks for no more, and takes a
pointer for it only where it takes one for the first. -/
theorem implementations_of_asksNoMore {ps : List Package} {asked asked' : List MethodSignature}
    {x : Implementation} (hx : x ∈ (ofPackages ps).implementations)
    (hasked : (ofPackages ps).interfaceMethods x.interface = .ok asked)
    (hasked' : (ofPackages ps).interfaceMethods i = .ok asked') (hsome : asked' ≠ [])
    (hless : Implementation.AsksNoMore asked' asked) :
    ∃ pointer, ⟨i, x.struct, pointer⟩ ∈ (ofPackages ps).implementations ∧
      (pointer = true → x.pointer = true) := by
  obtain ⟨-, hstruct, others, hothers, -, hcovers, hpointer⟩ := mem_implementations_iff.mp hx
  obtain rfl := Except.ok.inj (hasked.symm.trans hothers)
  have hinterface := isSome_interface?_of_interfaceMethods hasked'
  by_cases hvalues :
      Implementation.Covers asked' (valueMethods ((ofPackages ps).structMethods x.struct))
  · refine ⟨false, mem_implementations_iff.mpr ⟨hinterface, hstruct, asked', hasked', hsome,
      Implementation.covers_of_covers hless hcovers, ?_⟩, fun h => nomatch h⟩
    exact iff_of_false Bool.false_ne_true (not_not_intro hvalues)
  · refine ⟨true, mem_implementations_iff.mpr ⟨hinterface, hstruct, asked', hasked', hsome,
      Implementation.covers_of_covers hless hcovers, iff_of_true rfl hvalues⟩, fun _ => ?_⟩
    exact hpointer.mpr fun hall => hvalues (Implementation.covers_of_covers hless hall)

/-- **Implementations by method sets.**  A struct is reported for an interface exactly if the interface
has a method set that is not empty and a pointer to the struct has a method that matches each of its
methods, and then the report says that it takes a pointer exactly if the values alone would not do.
Nothing is reported twice, and an interface without a method set is in no implementation and is named
once as one of which there is no telling.  A struct that is reported for an interface is reported for
all that this one embeds, itself or by way of others, and more generally for all of whose names it has
methods, if they agree on the signatures; and it takes a pointer for them only where it takes one for
the first. -/
theorem implementations_by_method_sets (p : Project) :
    let t := ofProject p
    (∀ x : Implementation, x ∈ t.implementations ↔ (t.interface? x.interface).isSome ∧
      (t.struct? x.struct).isSome ∧ ∃ asked, t.interfaceMethods x.interface = .ok asked ∧ asked ≠ [] ∧
        (∀ m ∈ asked, ∃ e, methodNamed? (t.structMethods x.struct) m.name = some e ∧
          signaturesMatch m e.signature) ∧
        (x.pointer = true ↔ ¬∀ m ∈ asked,
          ∃ e, methodNamed? (valueMethods (t.structMethods x.struct)) m.name = some e ∧
            signaturesMatch m e.signature)) ∧
    (t.implementations.map fun x => (x.interface, x.struct)).Nodup ∧
    (∀ i fault, (t.interface? i).isSome → t.interfaceMethods i = .error fault →
      (∀ x ∈ t.implementations, x.interface ≠ i) ∧
      t.flattenDegradations.filter (fun g => TypeId.mk g.package g.subject = i) =
        [⟨i.package, i.name, fault.message⟩]) ∧
    ∀ j i asked asked', t.interfaceMethods j = .ok asked → t.interfaceMethods i = .ok asked' →
      asked' ≠ [] →
      Relation.TransGen t.Embeds j i ∨
        asked'.map MethodSignature.name ⊆ asked.map MethodSignature.name →
      (∀ m ∈ asked', ∀ m' ∈ asked, m'.name = m.name → signaturesMatch m m') →
      ∀ x ∈ t.implementations, x.interface = j →
        ∃ pointer, ⟨i, x.struct, pointer⟩ ∈ t.implementations ∧
          (pointer = true → x.pointer = true) := by
  intro t
  refine ⟨fun x => mem_implementations_iff, nodup_pairs_implementations p.packages,
    fun i fault hi hfault => ⟨?_, ?_⟩, ?_⟩
  · rintro x hx rfl
    obtain ⟨-, -, asked, hasked, -⟩ := mem_implementations_iff.mp hx
    cases hfault.symm.trans hasked
  · exact filter_flattenDegradations (nodup_typesOfForm p.packages .interface) (mem_typesOfForm hi) hfault
  · rintro _ i asked asked' hasked hasked' hsome hrelated hagree x hx rfl
    have hnames : asked'.map MethodSignature.name ⊆ asked.map MethodSignature.name := by
      rcases hrelated with hembeds | hnames
      · obtain ⟨others, hothers, hnames⟩ := interfaceMethods_of_transGen hembeds hasked
        obtain rfl := Except.ok.inj (hasked'.symm.trans hothers)
        exact hnames
      · exact hnames
    refine implementations_of_asksNoMore hx hasked hasked' hsome fun m hm => ?_
    obtain ⟨m', hm', hname⟩ := List.mem_map.mp (hnames (List.mem_map_of_mem hm))
    exact ⟨m', hm', hname, hagree m hm m' hm' hname⟩

/-- `Solid` embeds `Wide` and `Foreign` embeds what is elsewhere.  A `Box` is wide, and a pointer to one
is solid. -/
def shapes : Package :=
  ⟨".", "p", "",
    [⟨"p.go", "p", [], [plainMethod "Box" "Width" false 19, plainMethod "Box" "Depth" true 21],
      [⟨"Wide", .interface, .exported, ⟨3, 5⟩, [], [⟨"Width", [], []⟩], []⟩,
        ⟨"Solid", .interface, .exported, ⟨7, 10⟩, [], [⟨"Depth", [], []⟩], ["Wide"]⟩,
        ⟨"Foreign", .interface, .exported, ⟨12, 14⟩, [], [], ["io.Reader"]⟩,
        embeddingStruct "Box" 16 []],
      [], "", 21⟩]⟩

theorem interfaceMethods_shapes :
    interfaceMethods ⟨[shapes]⟩ ⟨".", "Wide"⟩ = .ok [⟨"Width", [], []⟩] ∧
      interfaceMethods ⟨[shapes]⟩ ⟨".", "Solid"⟩ = .ok [⟨"Depth", [], []⟩, ⟨"Width", [], []⟩] ∧
      interfaceMethods ⟨[shapes]⟩ ⟨".", "Foreign"⟩ = .error (.unresolved "io.Reader") := by
  have hwide (fuel : Nat) {above : List TypeId} (habove : ⟨".", "Wide"⟩ ∉ above) :
      flatten ⟨[shapes]⟩ (fuel + 1) above ⟨".", "Wide"⟩ = .ok [⟨"Width", [], []⟩] :=
    flatten_eq_ok.mpr ⟨_, _, rfl, habove, congrArg Except.ok (lastOfEach_singleton _)⟩
  refine ⟨?_, ?_, ?_⟩
  · rw [interfaceMethods, hwide _ List.not_mem_nil, Except.map, sortedBy, List.mergeSort_singleton]
  · have hsolid (fuel : Nat) : flatten ⟨[shapes]⟩ (fuel + 2) [] ⟨".", "Solid"⟩ =
        .ok [⟨"Depth", [], []⟩, ⟨"Width", [], []⟩] := by
      refine flatten_eq_ok.mpr ⟨_, _, rfl, List.not_mem_nil, ?_⟩
      have hresolve : resolve? ⟨[shapes]⟩ "." shapes.files[0] "Wide" = some ⟨".", "Wide"⟩ := by
        decide
      show addEmbedded _ _ _ _ shapes.files[0] (lastOfEach [⟨"Depth", [], []⟩]) "Wide" >>= _ = _
      rw [lastOfEach_singleton, addEmbedded, if_neg (by decide), hresolve]
      dsimp only
      rw [hwide _ (by decide)]
      rfl
    rw [interfaceMethods, hsolid, Except.map, sortedBy, List.mergeSort_of_pairwise (by decide)]
  · have hforeign : interface? ⟨[shapes]⟩ ⟨".", "Foreign"⟩ =
        some (shapes.files[0].types[2], shapes.files[0]) := by decide
    have hresolve : resolve? ⟨[shapes]⟩ "." shapes.files[0] "io.Reader" = none := by decide
    rw [interfaceMethods, flatten_succ hforeign List.not_mem_nil]
    show Except.map _ (addEmbedded _ _ _ _ shapes.files[0] (lastOfEach []) "io.Reader" >>= _) = _
    rw [addEmbedded, if_neg (by decide), hresolve]
    rfl

theorem methodNamed?_shapes :
    methodNamed? (structMethods ⟨[shapes]⟩ ⟨".", "Box"⟩) "Width" =
        some ⟨some ⟨".", some "Box", "Width"⟩, ⟨"Width", [], []⟩, false⟩ ∧
      methodNamed? (structMethods ⟨[shapes]⟩ ⟨".", "Box"⟩) "Depth" =
        some ⟨some ⟨".", some "Box", "Depth"⟩, ⟨"Depth", [], []⟩, true⟩ := by
  have hbox : (struct? ⟨[shapes]⟩ ⟨".", "Box"⟩).isSome := by decide
  constructor
  all_goals
    rw [methodNamed?_structMethods_iff hbox, ← firstBelow_start]
    exact firstBelow_here ((offers_nil_struct hbox).mpr (by decide)) List.not_mem_nil

/-- A pointer to a `Box` is solid, so a `Box` is reported for what `Solid` embeds; of what embeds
something from elsewhere there is no telling. -/
theorem implementations_by_method_sets_shapes :
    let t := ofProject ⟨"/p", none, [shapes], []⟩
    t.Embeds ⟨".", "Solid"⟩ ⟨".", "Wide"⟩ ∧
      ⟨⟨".", "Solid"⟩, ⟨".", "Box"⟩, true⟩ ∈ t.implementations ∧
      (∃ pointer, ⟨⟨".", "Wide"⟩, ⟨".", "Box"⟩, pointer⟩ ∈ t.implementations) ∧
      t.flattenDegradations.filter (fun g => TypeId.mk g.package g.subject = ⟨".", "Foreign"⟩) =
        [⟨".", "Foreign", "embeds unresolved interface io.Reader"⟩] := by
  have htable : ofProject ⟨"/p", none, [shapes], []⟩ = ⟨[shapes]⟩ := ofPackages_singleton shapes
  obtain ⟨hlisted, -, hfailing, hembedding⟩ :=
    implementations_by_method_sets ⟨"/p", none, [shapes], []⟩
  rw [htable] at hlisted hfailing hembedding ⊢
  intro t
  obtain ⟨hwide, hsolid, hforeign⟩ := interfaceMethods_shapes
  obtain ⟨hwidth, hdepth⟩ := methodNamed?_shapes
  have hembeds : Embeds ⟨[shapes]⟩ ⟨".", "Solid"⟩ ⟨".", "Wide"⟩ :=
    ⟨_, _, rfl, "Wide", List.mem_singleton_self _, by decide, by decide⟩
  have hbox : ⟨⟨".", "Solid"⟩, ⟨".", "Box"⟩, true⟩ ∈ implementations ⟨[shapes]⟩ := by
    refine (hlisted _).mpr ⟨by decide, by decide +kernel, _, hsolid, List.cons_ne_nil _ _, ?_, ?_⟩
    · rw [List.forall_mem_cons, List.forall_mem_singleton]
      exact ⟨⟨_, hdepth, by decide⟩, _, hwidth, by decide⟩
    · refine iff_of_true rfl fun hvalues => ?_
      obtain ⟨e, he, -⟩ := hvalues _ List.mem_cons_self
      obtain ⟨hfound, hvalue⟩ :=
        (methodNamed?_valueMethods (nodup_names_structMethods ⟨[shapes]⟩ _)).mp he
      obtain rfl := Option.some.inj (hdepth.symm.trans hfound)
      cases hvalue
  refine ⟨hembeds, hbox, ?_, (hfailing _ _ (by decide) hforeign).2⟩
  obtain ⟨pointer, hpointer, -⟩ := hembedding _ _ _ _ hsolid hwide (List.cons_ne_nil _ _)
    (Or.inl (.single hembeds)) (by decide) _ hbox rfl
  exact ⟨pointer, hpointer⟩

end SymbolTable

end CodeGraph
