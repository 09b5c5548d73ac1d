import CodeGraph.Names.Implementation
import CodeGraph.Proofs.Names.Promotion
import CodeGraph.Proofs.Report.Basic

/-!
# Which structs implement which interfaces

* `Implementation.Covers` — a struct has every method that an interface asks for;
  `Implementation.covers?_eq_some` says when it does and when that takes a pointer.
* `SymbolTable.mem_implementations` — the implementations of a project.
* `SymbolTable.isSome_of_mem_typesOfForm` — the types of a form that are listed are those that are
  found.
-/

namespace CodeGraph

namespace Implementation

variable {required : List MethodSignature} {provided : List MethodEntry} {pointer : Bool}

/-- Every method asked for is provided, with a signature that matches. -/
def Covers (required : List MethodSignature) (provided : List MethodEntry) : Prop :=
  ∀ m ∈ required, ∃ e, methodNamed? provided m.name = some e ∧ signaturesMatch m e.signature

/-- A struct that covers an interface takes a pointer for it if one of the methods does. -/
theorem covers?_eq_some : covers? required provided = some pointer ↔
    Covers required provided ∧
      (pointer = true ↔ ∃ m ∈ required, ∃ e, methodNamed? provided m.name = some e ∧ e.pointerOnly) := by
  let entry (m : MethodSignature) : Option MethodEntry :=
    (methodNamed? provided m.name).filter fun e => signaturesMatch m e.signature
  have hentry (m : MethodSignature) (e : MethodEntry) : entry m = some e ↔
      methodNamed? provided m.name = some e ∧ signaturesMatch m e.signature :=
    Option.filter_eq_some_iff
  have hall : (required.map entry).all Option.isSome = true ↔ Covers required provided := by
    simp only [List.all_map, List.all_eq_true, Function.comp_apply, Option.isSome_iff_exists, hentry,
      Covers]
  by_cases hcovers : Covers required provided
  · have hany : (required.map entry).any (fun e => (e.map MethodEntry.pointerOnly).getD false) = true ↔
        ∃ m ∈ required, ∃ e, methodNamed? provided m.name = some e ∧ e.pointerOnly := by
      rw [List.any_map, List.any_eq_true]
      refine exists_congr fun m => and_congr_right fun hm => ?_
      obtain ⟨e, hfound, hmatch⟩ := hcovers m hm
      simp [(hentry m e).mpr ⟨hfound, hmatch⟩, hfound]
    rw [covers?, if_pos (hall.mpr hcovers), Option.some.injEq, ← hany, Bool.coe_iff_coe]
    exact ⟨fun h => ⟨hcovers, h.symm⟩, fun h => h.2.symm⟩
  · rw [covers?, if_neg (mt hall.mp hcovers)]
    exact iff_of_false (Option.some_ne_none pointer).symm fun h => hcovers h.1

end Implementation

namespace SymbolTable

/-- The implementations of a project: an interface that asks for something, and a struct that has all of
it. -/
theorem mem_implementations {t : SymbolTable} {i : Implementation} : i ∈ t.implementations ↔
    i.interface ∈ t.interfaces ∧ i.struct ∈ t.structs ∧
      ∃ required, t.interfaceMethods i.interface = .ok required ∧ required ≠ [] ∧
        Implementation.covers? required (t.structMethods i.struct) = some i.pointer := by
  simp only [implementations, List.mem_flatMap]
  constructor
  · rintro ⟨interface, hinterface, hi⟩
    split at hi
    next required hrequired =>
      rw [Implementation.ofInterface] at hi
      split at hi
      next => cases hi
      next hsome =>
        obtain ⟨set, hset, hcovers⟩ := List.mem_filterMap.mp hi
        obtain ⟨k, hk, rfl⟩ := List.mem_map.mp hset
        obtain ⟨pointer, hpointer, rfl⟩ := Option.map_eq_some_iff.mp hcovers
        exact ⟨hinterface, hk, required, hrequired, by simpa using hsome, hpointer⟩
    next => cases hi
  · rintro ⟨hinterface, hk, required, hrequired, hsome, hcovers⟩
    refine ⟨i.interface, hinterface, ?_⟩
    rw [hrequired]
    dsimp only
    rw [Implementation.ofInterface, if_neg (by simpa using hsome)]
    exact List.mem_filterMap.mpr ⟨_, List.mem_map.mpr ⟨i.struct, hk, rfl⟩,
      Option.map_eq_some_iff.mpr ⟨i.pointer, hcovers, rfl⟩⟩

/-- The types of a form that are listed are those that are found. -/
theorem isSome_of_mem_typesOfForm {ps : List Package} {form : TypeForm} {k : TypeId}
    (h : k ∈ (ofPackages ps).typesOfForm form) :
    (((ofPackages ps).package? k.package).bind fun p => p.typeOfForm? form k.name).isSome := by
  obtain ⟨p, hp, hk⟩ := List.mem_flatMap.mp h
  obtain ⟨n, hn, rfl⟩ := List.mem_map.mp hk
  have hpackage : (ofPackages ps).package? p.importPath = some p :=
    (find?_name_eq_some (nodup_importPaths ps)).mpr ⟨hp, rfl⟩
  rw [hpackage, Option.bind_some]
  rw [Package.namesOfForm, mem_sortedDistinct, List.mem_filter] at hn
  exact hn.2

end SymbolTable

end CodeGraph
