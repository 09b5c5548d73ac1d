import CodeGraph.Calls.Resolution
import CodeGraph.Proofs.Names.Declared

/-!
# Resolved calls

* `Resolver.Sound` — the targets of a resolution are declared; `Resolver.sound_resolve` says so of
  every call site, one lemma per way in which calls are resolved.
* `declared_of_mem_resolveCalls` — the callers and the targets of call edges are declared.
-/

namespace CodeGraph

variable {ps : List Package} {implementations : List Implementation} {dispatch : Bool}

/-- A resolution to a function of the project is to one that is declared. -/
def Resolution.Sound (ps : List Package) (x : Resolution) : Prop :=
  ∀ f, x.target = .resolved f → Declared ps f

namespace Resolution

theorem sound_found {f : FunctionId} {kind : CallKind} (h : Declared ps f) :
    Sound ps (found (.resolved f) kind) := by
  rintro _ ⟨⟩
  exact h

theorem sound_external {package name : String} {kind : CallKind} :
    Sound ps (found (.external package name) kind) := by
  rintro _ ⟨⟩

theorem sound_missing {name : String} {reason : UnresolvedReason} {kind : CallKind} :
    Sound ps (missing name reason kind) := by
  rintro _ ⟨⟩

end Resolution

namespace Resolver

open Resolution

variable {r : Resolver} (hr : r.symbols = .ofPackages ps)

include hr

theorem sound_direct (package : String) (site : CallSite) :
    ∀ x ∈ r.direct package site, x.Sound ps := by
  rw [direct, hr]
  split
  next =>
    split
    · exact List.forall_mem_singleton.mpr sound_external
    · exact fun x hx => nomatch hx
  next k hk =>
    obtain ⟨hmem, hpath⟩ := SymbolTable.mem_of_package? hk
    split
    next hfunction =>
      have hdeclared := Package.declared_of_function? hmem hfunction
      exact List.forall_mem_singleton.mpr (sound_found (hpath ▸ hdeclared))
    next =>
      split
      · exact fun x hx => nomatch hx
      · split
        · exact fun x hx => nomatch hx
        · split
          · exact List.forall_mem_singleton.mpr sound_external
          · exact List.forall_mem_singleton.mpr sound_missing

theorem declared_dispatchTargets (interface : TypeId) (method : String) :
    ∀ f ∈ r.dispatchTargets interface method, Declared ps f := by
  intro f hf
  obtain ⟨i, -, hfound⟩ := List.mem_filterMap.mp (mem_sortedDistinct.mp hf)
  exact SymbolTable.declared_structMethods (hr ▸ hfound)

theorem sound_throughInterface (interface : TypeId) (method : String) :
    ∀ x ∈ r.throughInterface interface method, x.Sound ps := by
  rw [throughInterface]
  split
  next => exact List.forall_mem_singleton.mpr sound_missing
  next =>
    split
    next => exact List.forall_mem_singleton.mpr sound_missing
    next =>
      intro x hx
      obtain ⟨f, hf, rfl⟩ := List.mem_map.mp hx
      exact sound_found (declared_dispatchTargets hr interface method f hf)

theorem sound_typedMethod (owner receiver method : String) :
    ∀ x ∈ r.typedMethod owner receiver method, x.Sound ps := by
  rw [typedMethod]
  split
  next => exact List.forall_mem_singleton.mpr sound_external
  next k hk =>
    obtain ⟨hmem, hpath⟩ := SymbolTable.mem_of_package? (hr ▸ hk)
    split
    next => exact sound_throughInterface hr _ method
    next =>
      split
      next =>
        split
        next f hf =>
          exact List.forall_mem_singleton.mpr
            (sound_found (SymbolTable.declared_structMethods (hr ▸ hf)))
        next => exact List.forall_mem_singleton.mpr sound_missing
      next =>
        split
        next hmethod =>
          have hdeclared := Package.declared_of_method? hmem hmethod
          exact List.forall_mem_singleton.mpr (sound_found (hpath ▸ hdeclared))
        next => exact List.forall_mem_singleton.mpr sound_missing

theorem declared_methodsNamed (name : String) : ∀ f ∈ methodsNamed r.symbols name, Declared ps f := by
  intro f hf
  obtain ⟨k, hk, hf⟩ := List.mem_flatMap.mp (mem_sortedDistinct.mp hf)
  obtain ⟨decl, hdecl, rfl⟩ := List.mem_map.mp hf
  exact Package.declared_of_mem_functions (SymbolTable.mem_of_mem_packages (hr ▸ hk))
    (List.mem_filter.mp hdecl).1

theorem sound_byName (package method : String) : (r.byName package method).Sound ps := by
  have hdeclared := declared_methodsNamed hr method
  rw [byName]
  split
  next _ f hfilter =>
    rintro _ ⟨⟩
    exact hdeclared f (List.mem_filter.mp (hfilter ▸ List.mem_cons_self)).1
  next f _ hall =>
    rintro _ ⟨⟩
    exact hdeclared f (hall ▸ List.mem_cons_self)
  next => exact sound_missing
  next => exact sound_missing

/-- Whichever way a call is resolved, its target is declared. -/
theorem sound_resolve (package : String) (site : CallSite) :
    ∀ x ∈ r.resolve package site, x.Sound ps := by
  rw [resolve]
  split
  next => exact sound_direct hr package site
  next => exact List.forall_mem_singleton.mpr sound_missing
  next => exact sound_typedMethod hr _ _ _
  next => exact List.forall_mem_singleton.mpr (sound_byName hr package _)

end Resolver

/-- The callers and the targets of call edges are declared. -/
theorem declared_of_mem_resolveCalls {r : Resolver} (hr : r.symbols = .ofPackages ps) {e : CallEdge}
    (h : e ∈ resolveCalls r ps) :
    Declared ps e.caller ∧ ∀ f, e.target = .resolved f → Declared ps f := by
  have hall := (sortedBy_perm CallEdge.key _).mem_iff.mp ((firstOfEach_sublist _ _).subset h)
  obtain ⟨k, hk, he⟩ := List.mem_flatMap.mp hall
  obtain ⟨f, hf, he⟩ := List.mem_flatMap.mp he
  obtain ⟨site, -, he⟩ := List.mem_flatMap.mp he
  obtain ⟨x, hx, rfl⟩ := List.mem_map.mp he
  exact ⟨Package.declared_of_mem_functions hk hf, Resolver.sound_resolve hr k.importPath site x hx⟩

end CodeGraph
