import CodeGraph.Proofs.Lists
import CodeGraph.Proofs.Names.Declared
import Mathlib.Data.List.Perm.Subperm

/-!
# Method sets by name

* `find?_addMissing` — of two lists of named things the first one decides on the names it has;
  `nodup_names_addMissing` says that no name is there twice.
* `SymbolTable.nodup_names_interfaceMethods`, `SymbolTable.nodup_names_structMethods` — a method set has
  one method of a name; `SymbolTable.interfaceMethods_of_embeds_nil` says which where nothing is embedded.
* `SymbolTable.declaredMethods`, `SymbolTable.embedded` — what the symbol table says of a type: the methods
  that are declared on it, and its embedded fields with the types that they are about.
* `SymbolTable.methodNamed?_gather` — one step of the search for a method: it looks at the type itself
  and then at what is embedded, field by field.
* `HasRoom` — nothing embeds itself again and again, so there is fuel enough for what is embedded;
  `SymbolTable.interfaceMethods_eq` and `SymbolTable.structMethods_eq` say that more fuel changes nothing.
-/

namespace CodeGraph

/-! ### Named things -/

section

variable {α : Type} {name : α → String} {as bs : List α} {n : String} {a : α}

@[simp] theorem addMissing_nil (as : List α) : addMissing name as [] = as := List.append_nil as

@[simp] theorem nil_addMissing (bs : List α) : addMissing name [] bs = bs :=
  List.filter_eq_self.mpr fun _ _ => rfl

/-- No name of those that are added is there before. -/
theorem notMem_names_of_mem_filter {b : α}
    (hb : b ∈ bs.filter fun b => !as.any fun a => name a == name b) : name b ∉ as.map name := by
  have hnew := (List.mem_filter.mp hb).2
  simp only [Bool.not_eq_true', List.any_eq_false, beq_iff_eq] at hnew
  rintro hmem
  obtain ⟨a, ha, hname⟩ := List.mem_map.mp hmem
  exact hnew a ha hname

theorem nodup_names_addMissing (has : (as.map name).Nodup) (hbs : (bs.map name).Nodup) :
    ((addMissing name as bs).map name).Nodup := by
  rw [addMissing, List.map_append]
  refine has.append (hbs.sublist (List.filter_sublist.map name)) ?_
  rw [List.disjoint_left]
  intro n hn hadded
  obtain ⟨b, hb, rfl⟩ := List.mem_map.mp hadded
  exact notMem_names_of_mem_filter hb hn

/-- The first list decides on the names that it has. -/
theorem find?_addMissing (n : String) :
    (addMissing name as bs).find? (name · = n) =
      (as.find? (name · = n)).or (bs.find? (name · = n)) := by
  rw [addMissing, List.find?_append]
  cases has : as.find? (name · = n) with
  | some a => rfl
  | none =>
    have hother : ∀ a ∈ as, name a ≠ n := by simpa using has
    rw [Option.none_or, Option.none_or, List.find?_filter]
    refine congrArg (fun test => bs.find? test) (funext fun b => ?_)
    refine decide_eq_decide.mpr ⟨fun h => of_decide_eq_true h.2, ?_⟩
    rintro rfl
    exact ⟨by simpa using hother, decide_eq_true rfl⟩

/-- Where names are distinct, what has a name is what is found under it. -/
theorem find?_name_eq_some (hnodup : (as.map name).Nodup) :
    as.find? (name · = n) = some a ↔ a ∈ as ∧ name a = n :=
  find?_key_eq_some hnodup

theorem nodup_names_sortedBy (h : (as.map name).Nodup) : ((sortedBy name as).map name).Nodup :=
  ((sortedBy_perm name as).map name).nodup_iff.mpr h

end

theorem nodup_names_lastOfEach (ms : List MethodSignature) :
    ((lastOfEach ms).map MethodSignature.name).Nodup := by
  rw [lastOfEach, nil_addMissing]
  exact nodup_keys_firstOfEach MethodSignature.name ms.reverse

theorem lastOfEach_singleton (m : MethodSignature) : lastOfEach [m] = [m] := by
  rw [lastOfEach, nil_addMissing, List.reverse_singleton, sortedBy, List.mergeSort_singleton,
    firstOfEach, skipRepeats]

namespace SymbolTable

variable {t : SymbolTable} {k : TypeId} {above : List TypeId} {fuel : Nat} {n : String}

/-! ### Interfaces -/

theorem nodup_names_flatten {ms : List MethodSignature} (h : flatten t fuel above k = .ok ms) :
    (ms.map MethodSignature.name).Nodup := by
  induction fuel generalizing above k ms with
  | zero => cases h
  | succ fuel ih =>
    rw [flatten] at h
    split at h
    next => cases h
    next decl file _ =>
      split at h
      next => cases h
      next =>
        refine foldlM_ok_ind (P := fun found => (found.map MethodSignature.name).Nodup)
          (fun found embed found' hfound hstep => ?_) (nodup_names_lastOfEach decl.methods) h
        split at hstep
        next =>
          obtain rfl := Except.ok.inj hstep
          exact nodup_names_addMissing hfound (List.nodup_singleton _)
        next =>
          split at hstep
          next => cases hstep
          next inner _ =>
            obtain ⟨promoted, hinner, rfl⟩ := except_map_eq_ok.mp hstep
            exact nodup_names_addMissing hfound (ih hinner)

/-- An interface asks for one method of a name. -/
theorem nodup_names_interfaceMethods {ms : List MethodSignature} (h : t.interfaceMethods k = .ok ms) :
    (ms.map MethodSignature.name).Nodup := by
  obtain ⟨found, hflat, rfl⟩ := except_map_eq_ok.mp h
  exact nodup_names_sortedBy (nodup_names_flatten hflat)

/-- An interface that embeds nothing asks for what it lists. -/
theorem interfaceMethods_of_embeds_nil {ms : List MethodSignature}
    (h : (t.interface? k).map (fun u => (u.1.methods, u.1.embeds)) = some (ms, [])) :
    t.interfaceMethods k = .ok (sortedBy MethodSignature.name (lastOfEach ms)) := by
  obtain ⟨found, hfound, hsame⟩ := Option.map_eq_some_iff.mp h
  obtain ⟨rfl, hembeds⟩ := Prod.mk.inj hsame
  rw [interfaceMethods, flatten, hfound]
  dsimp only
  rw [hembeds]
  rfl

theorem interfaceMethods_singleton {m : MethodSignature}
    (h : (t.interface? k).map (fun u => (u.1.methods, u.1.embeds)) = some ([m], [])) :
    t.interfaceMethods k = .ok [m] := by
  rw [interfaceMethods_of_embeds_nil h, lastOfEach_singleton, sortedBy, List.mergeSort_singleton]

/-! ### What is declared on a type -/

/-- The entry of a method that is declared on a type. -/
def declaredEntry (k : TypeId) (name : String) (f : FunctionDecl) : MethodEntry :=
  ⟨some ⟨k.package, some k.name, name⟩, ⟨name, f.params, f.results⟩, f.pointerReceiver⟩

/-- The methods that are declared on a type. -/
def declaredMethods (t : SymbolTable) (k : TypeId) : List MethodEntry :=
  match t.package? k.package with
  | none => []
  | some p => ownMethods p k

theorem nodup_names_declaredMethods (t : SymbolTable) (k : TypeId) :
    ((t.declaredMethods k).map MethodEntry.name).Nodup := by
  rw [declaredMethods]
  split
  next => exact List.nodup_nil
  next p _ =>
    rw [ownMethods]
    refine List.Sublist.nodup (map_filterMap_sublist id MethodEntry.name fun name _ e he => ?_)
      ((List.map_id _).symm ▸ nodup_sortedDistinct _)
    obtain ⟨f, -, rfl⟩ := Option.map_eq_some_iff.mp he
    rfl

/-- The methods that are declared on a type are those that the symbol table holds. -/
theorem methodNamed?_declaredMethods (t : SymbolTable) (k : TypeId) (n : String) :
    methodNamed? (t.declaredMethods k) n =
      (t.function? ⟨k.package, some k.name, n⟩).map (declaredEntry k n) := by
  refine Option.ext fun e => ?_
  rw [methodNamed?, find?_name_eq_some (nodup_names_declaredMethods t k), declaredMethods,
    function?]
  cases hp : t.package? k.package with
  | none => simp
  | some p =>
    have hmethod : (p.method? k.name n).isSome ↔
        n ∈ (p.functions.filter fun f => f.isMethod && f.receiver = k.name).map (·.name) := by
      simp [Package.method?, and_assoc]
    simp only [Option.bind_some, Option.map_eq_some_iff, ownMethods, List.mem_filterMap,
      mem_sortedDistinct]
    constructor
    · rintro ⟨⟨name, -, f, hf, rfl⟩, rfl⟩
      exact ⟨f, hf, rfl⟩
    · rintro ⟨f, hf, rfl⟩
      exact ⟨⟨n, hmethod.mp (Option.isSome_iff_exists.mpr ⟨f, hf⟩), f, hf, rfl⟩, rfl⟩

/-! ### What is embedded in a type -/

/-- The embedded fields of a struct whose types the project declares, each with its type. -/
def embedded (t : SymbolTable) (k : TypeId) : List (FieldDecl × TypeId) :=
  match t.struct? k with
  | none => []
  | some (decl, file) => (decl.fields.filter (·.embedded)).filterMap fun field =>
      (t.resolve? k.package file field.typeName).map fun inner => (field, inner)

/-- The methods that come with an embedded type, which is a struct or an interface. -/
def embeddedMethods (t : SymbolTable) (fuel : Nat) (above : List TypeId) (inner : TypeId) :
    List MethodEntry :=
  if (t.struct? inner).isSome then gather t fuel above inner
  else
    match t.interfaceMethods inner with
    | .ok ms => ms.map entryOfInterface
    | .error _ => []

theorem gather_of_mem (h : k ∈ above) : gather t fuel above k = [] := by
  cases fuel with
  | zero => rfl
  | succ fuel =>
    rw [gather]
    split
    next => rfl
    next => rw [if_pos (List.contains_iff_mem.mpr h)]

/-- What is declared on a type comes first, and then what comes with each embedded field. -/
theorem gather_of_notMem (h : k ∉ above) : gather t (fuel + 1) above k =
    (t.embedded k).foldl (fun found u => addMissing MethodEntry.name found
      ((t.embeddedMethods fuel (k :: above) u.2).map (promote u.1))) (t.declaredMethods k) := by
  rw [gather, embedded, declaredMethods, struct?]
  cases hp : t.package? k.package with
  | none => rfl
  | some p =>
    dsimp only [Option.bind_some]
    rw [if_neg fun hmem => h (List.contains_iff_mem.mp hmem)]
    cases hs : p.struct? k.name with
    | none => rfl
    | some s =>
      obtain ⟨decl, file⟩ := s
      dsimp only
      rw [List.foldl_filterMap]
      refine List.foldl_ext _ _ _ fun found field _ => ?_
      -- a field of a type that is not declared brings nothing
      cases t.resolve? k.package file field.typeName with
      | none => exact addMissing_nil found
      | some inner => rfl

theorem names_map_promote (field : FieldDecl) (es : List MethodEntry) :
    (es.map (promote field)).map MethodEntry.name = es.map MethodEntry.name := by
  rw [List.map_map]
  refine List.map_congr_left fun e _ => ?_
  rw [Function.comp_apply, promote]
  split <;> rfl

theorem nodup_names_gather (t : SymbolTable) (fuel : Nat) (above : List TypeId) (k : TypeId) :
    ((gather t fuel above k).map MethodEntry.name).Nodup := by
  induction fuel generalizing above k with
  | zero => exact List.nodup_nil
  | succ fuel ih =>
    by_cases hk : k ∈ above
    · rw [gather_of_mem hk]
      exact List.nodup_nil
    · rw [gather_of_notMem hk]
      refine List.foldlRecOn (motive := fun found : List MethodEntry => (found.map MethodEntry.name).Nodup)
        _ _ (nodup_names_declaredMethods t k) fun found hfound u _ => ?_
      refine nodup_names_addMissing hfound ?_
      rw [names_map_promote, embeddedMethods]
      split
      · exact ih _ _
      · split
        next ms hms =>
          rw [List.map_map]
          exact nodup_names_interfaceMethods hms
        next => exact List.nodup_nil

/-- A struct has one method of a name. -/
theorem nodup_names_structMethods (t : SymbolTable) (k : TypeId) :
    ((t.structMethods k).map MethodEntry.name).Nodup :=
  nodup_names_sortedBy (nodup_names_gather _ _ _ _)

theorem mem_structMethods {e : MethodEntry} :
    e ∈ t.structMethods k ↔ e ∈ gather t (t.structs.length + 2) [] k :=
  (sortedBy_perm MethodEntry.name _).mem_iff

theorem methodNamed?_structMethods (t : SymbolTable) (k : TypeId) (n : String) :
    methodNamed? (t.structMethods k) n =
      methodNamed? (gather t (t.structs.length + 2) [] k) n := by
  refine Option.ext fun e => ?_
  rw [methodNamed?, methodNamed?,
    find?_name_eq_some (nodup_names_structMethods t k),
    find?_name_eq_some (nodup_names_gather _ _ _ _), mem_structMethods]

theorem methodNamed?_map_promote (field : FieldDecl) (es : List MethodEntry) (n : String) :
    methodNamed? (es.map (promote field)) n = (methodNamed? es n).map (promote field) := by
  rw [methodNamed?, List.find?_map]
  refine congrArg (fun test => (es.find? test).map (promote field)) (funext fun e => ?_)
  rw [Function.comp_apply, promote]
  split <;> rfl

/-- The search for a method looks at the type itself and then at what is embedded, field by field. -/
theorem methodNamed?_gather (h : k ∉ above) (n : String) :
    methodNamed? (gather t (fuel + 1) above k) n =
      (methodNamed? (t.declaredMethods k) n).or ((t.embedded k).findSome? fun u =>
        (methodNamed? (t.embeddedMethods fuel (k :: above) u.2) n).map (promote u.1)) := by
  rw [gather_of_notMem h]
  generalize t.declaredMethods k = found
  induction t.embedded k generalizing found with
  | nil => rw [List.foldl_nil, List.findSome?_nil, Option.or_none]
  | cons u rest ih =>
    rw [List.foldl_cons, ih, methodNamed?, find?_addMissing, ← methodNamed?, ← methodNamed?,
      methodNamed?_map_promote, List.findSome?_cons, Option.or_assoc]
    cases (methodNamed? (t.embeddedMethods fuel (k :: above) u.2) n).map (promote u.1) <;> rfl

end SymbolTable

/-! ### Fuel -/

/-- Those above are distinct members of a list, and there is fuel for the other members. -/
structure HasRoom (members : List TypeId) (fuel : Nat) (above : List TypeId) : Prop where
  nodup : above.Nodup
  within : above ⊆ members
  enough : members.length < fuel + above.length

namespace HasRoom

variable {members above : List TypeId} {fuel : Nat} {k : TypeId}

theorem start (h : members.length < fuel) : HasRoom members fuel [] :=
  ⟨List.nodup_nil, List.nil_subset _, h⟩

/-- The fuel is not used up. -/
theorem exists_succ (h : HasRoom members fuel above) : ∃ rest, fuel = rest + 1 := by
  have hlength : above.length ≤ members.length := (h.nodup.subperm h.within).length_le
  have henough := h.enough
  exact Nat.exists_eq_succ_of_ne_zero (by omega)

theorem down (h : HasRoom members (fuel + 1) above) (hk : k ∈ members) (hnew : k ∉ above) :
    HasRoom members fuel (k :: above) := by
  refine ⟨List.nodup_cons.mpr ⟨hnew, h.nodup⟩, List.cons_subset.mpr ⟨hk, h.within⟩, ?_⟩
  have henough := h.enough
  rw [List.length_cons]
  omega

end HasRoom

namespace SymbolTable

variable {t : SymbolTable} {k : TypeId} {above : List TypeId} {fuel fuel' : Nat}

theorem mem_typesOfForm {form : TypeForm}
    (h : ((t.package? k.package).bind fun p => p.typeOfForm? form k.name).isSome) :
    k ∈ t.typesOfForm form := by
  obtain ⟨found, hfound⟩ := Option.isSome_iff_exists.mp h
  obtain ⟨p, hp, hform⟩ := Option.bind_eq_some_iff.mp hfound
  have hpath : p.importPath = k.package := by simpa using List.find?_some hp
  obtain ⟨htype, -⟩ := Option.filter_eq_some_iff.mp hform
  have hname : found.1.name = k.name := by simpa using List.find?_some htype
  refine List.mem_flatMap.mpr ⟨p, List.mem_of_find?_eq_some hp, ?_⟩
  refine List.mem_map.mpr ⟨k.name, mem_sortedDistinct.mpr (List.mem_filter.mpr ⟨?_, ?_⟩), ?_⟩
  · exact List.mem_map.mpr ⟨found, List.mem_of_find?_eq_some htype, hname⟩
  · exact hform ▸ rfl
  · rw [hpath]

theorem flatten_eq (h : HasRoom t.interfaces fuel above) (h' : HasRoom t.interfaces fuel' above) :
    flatten t fuel above k = flatten t fuel' above k := by
  induction fuel generalizing fuel' above k with
  | zero =>
    obtain ⟨_, hsucc⟩ := h.exists_succ
    cases hsucc
  | succ fuel ih =>
    obtain ⟨fuel', rfl⟩ := h'.exists_succ
    rw [flatten, flatten]
    cases hk : t.interface? k with
    | none => rfl
    | some found =>
      have hmem : k ∈ t.interfaces := mem_typesOfForm (Option.isSome_iff_exists.mpr ⟨found, hk⟩)
      dsimp only
      split
      next => rfl
      next hnew =>
        have habove : k ∉ above := fun hin => hnew (List.contains_iff_mem.mpr hin)
        have hinner (inner : TypeId) :
            flatten t fuel (k :: above) inner = flatten t fuel' (k :: above) inner :=
          ih (h.down hmem habove) (h'.down hmem habove)
        simp only [hinner]

/-- More fuel changes nothing about the methods of an interface. -/
theorem interfaceMethods_eq (h : t.interfaces.length < fuel) :
    (flatten t fuel [] k).map (sortedBy MethodSignature.name) = t.interfaceMethods k := by
  rw [interfaceMethods, flatten_eq (.start h) (.start (Nat.lt_add_of_pos_right Nat.two_pos))]

theorem embedded_eq_nil (h : t.struct? k = none) : t.embedded k = [] := by
  rw [embedded, h]

theorem gather_eq (h : HasRoom t.structs fuel above) (h' : HasRoom t.structs fuel' above) :
    gather t fuel above k = gather t fuel' above k := by
  induction fuel generalizing fuel' above k with
  | zero =>
    obtain ⟨_, hsucc⟩ := h.exists_succ
    cases hsucc
  | succ fuel ih =>
    obtain ⟨fuel', rfl⟩ := h'.exists_succ
    by_cases habove : k ∈ above
    · rw [gather_of_mem habove, gather_of_mem habove]
    · rw [gather_of_notMem habove, gather_of_notMem habove]
      cases hk : t.struct? k with
      | none => rw [embedded_eq_nil hk, List.foldl_nil, List.foldl_nil]
      | some found =>
        have hmem : k ∈ t.structs := mem_typesOfForm (Option.isSome_iff_exists.mpr ⟨found, hk⟩)
        have hinner (inner : TypeId) :
            gather t fuel (k :: above) inner = gather t fuel' (k :: above) inner :=
          ih (h.down hmem habove) (h'.down hmem habove)
        simp only [embeddedMethods, hinner]

/-- More fuel changes nothing about the methods of a struct. -/
theorem structMethods_eq (h : t.structs.length < fuel) :
    sortedBy MethodEntry.name (gather t fuel [] k) = t.structMethods k := by
  rw [structMethods, gather_eq (.start h) (.start (Nat.lt_add_of_pos_right Nat.two_pos))]

end SymbolTable

end CodeGraph
