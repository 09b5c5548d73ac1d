import CodeGraph.Names.MethodSet
import CodeGraph.Proofs.Names.Order

/-!
# Declared functions

* `Declared` — some file of some package declares a function.
* `SymbolTable.function?` — what the symbol table holds for a function; `SymbolTable.declaration?` also
  says in which file, and `SymbolTable.map_fst_declaration?` that both are about one declaration.
* `SymbolTable.package?_eq_some` — where import paths are distinct every package is held.
* `SymbolTable.declared_structMethods` — the methods of a struct are declared somewhere, promoted ones
  included.
-/

namespace CodeGraph

/-- Some file of some package declares a function. -/
def Declared (ps : List Package) (id : FunctionId) : Prop :=
  ∃ k ∈ ps, ∃ file ∈ k.files, ∃ f ∈ file.functions, FunctionId.ofDecl k.importPath f = id

namespace Package

variable {k : Package} {id : FunctionId}

/-- All functions and methods, each with its file. -/
def declarations (k : Package) : List (FunctionDecl × SourceFile) :=
  k.files.flatMap fun file => file.functions.map fun f => (f, file)

/-- The first declaration of a function. -/
def declaration? (k : Package) (id : FunctionId) : Option (FunctionDecl × SourceFile) :=
  k.declarations.find? fun (f, _) => FunctionId.ofDecl k.importPath f = id

theorem map_fst_declarations (k : Package) : k.declarations.map Prod.fst = k.functions := by
  rw [declarations, List.map_flatMap, functions]
  refine List.flatMap_congr fun file _ => ?_
  rw [List.map_map]
  exact List.map_id _

/-- The look-ups of a package find the first declaration. -/
theorem map_fst_declaration? (hpackage : id.package = k.importPath) :
    (k.declaration? id).map Prod.fst =
      match id.receiver with
      | none => k.function? id.name
      | some receiver => k.method? receiver id.name := by
  have hfind : (k.declaration? id).map Prod.fst =
      k.functions.find? fun f => FunctionId.ofDecl k.importPath f = id := by
    rw [← map_fst_declarations, List.find?_map]
    rfl
  rw [hfind]
  obtain ⟨package, receiver, name⟩ := id
  obtain rfl : package = k.importPath := hpackage
  cases receiver with
  | none =>
    refine congrArg (fun test => k.functions.find? test) (funext fun f => ?_)
    cases hmethod : f.isMethod <;> simp [FunctionId.ofDecl, hmethod]
  | some receiver =>
    refine congrArg (fun test => k.functions.find? test) (funext fun f => ?_)
    cases hmethod : f.isMethod <;> simp [FunctionId.ofDecl, hmethod]

theorem declared_of_mem_functions {ps : List Package} {f : FunctionDecl} (hk : k ∈ ps)
    (hf : f ∈ k.functions) : Declared ps (.ofDecl k.importPath f) := by
  obtain ⟨file, hfile, hf⟩ := List.mem_flatMap.mp hf
  exact ⟨k, hk, file, hfile, f, hf, rfl⟩

theorem declared_of_function? {ps : List Package} {name : String} (hk : k ∈ ps)
    (h : (k.function? name).isSome) : Declared ps ⟨k.importPath, none, name⟩ := by
  obtain ⟨f, hfind⟩ := Option.isSome_iff_exists.mp h
  have hf := List.find?_some hfind
  simp only [Bool.and_eq_true, Bool.not_eq_true', decide_eq_true_eq] at hf
  obtain ⟨hfunction, rfl⟩ := hf
  have hdeclared := declared_of_mem_functions hk (List.mem_of_find?_eq_some hfind)
  rwa [FunctionId.ofDecl, hfunction] at hdeclared

theorem declared_of_method? {ps : List Package} {receiver name : String} (hk : k ∈ ps)
    (h : (k.method? receiver name).isSome) :
    Declared ps ⟨k.importPath, some receiver, name⟩ := by
  obtain ⟨f, hfind⟩ := Option.isSome_iff_exists.mp h
  have hf := List.find?_some hfind
  simp only [Bool.and_eq_true, decide_eq_true_eq] at hf
  obtain ⟨⟨hmethod, rfl⟩, rfl⟩ := hf
  have hdeclared := declared_of_mem_functions hk (List.mem_of_find?_eq_some hfind)
  rwa [FunctionId.ofDecl, hmethod] at hdeclared

end Package

namespace SymbolTable

variable {ps : List Package} {k : Package} {path : String}

/-! ### Packages -/

theorem mem_of_mem_packages (h : k ∈ (ofPackages ps).packages) : k ∈ ps := by
  have hsorted := (firstOfEach_sublist Package.importPath _).subset h
  exact List.mem_reverse.mp ((sortedBy_perm Package.importPath _).mem_iff.mp hsorted)

theorem mem_of_package? (h : (ofPackages ps).package? path = some k) :
    k ∈ ps ∧ k.importPath = path := by
  have hpath : k.importPath = path := by simpa using List.find?_some h
  exact ⟨mem_of_mem_packages (List.mem_of_find?_eq_some h), hpath⟩

/-- Every import path is held. -/
theorem exists_package? (hk : k ∈ ps) : ∃ k', (ofPackages ps).package? k.importPath = some k' := by
  obtain ⟨k', hk', hpath⟩ := exists_mem_firstOfEach Package.importPath
    ((sortedBy_perm Package.importPath ps.reverse).mem_iff.mpr (List.mem_reverse.mpr hk))
  refine Option.isSome_iff_exists.mp ?_
  rw [package?, List.find?_isSome]
  exact ⟨k', hk', decide_eq_true hpath⟩

/-- Where import paths are distinct every package is held. -/
theorem package?_eq_some (hpaths : (ps.map (·.importPath)).Nodup) :
    (ofPackages ps).package? path = some k ↔ k ∈ ps ∧ k.importPath = path := by
  refine ⟨mem_of_package?, ?_⟩
  rintro ⟨hk, rfl⟩
  obtain ⟨found, hfound⟩ := exists_package? hk
  obtain ⟨hmem, hsame⟩ := mem_of_package? hfound
  rw [hfound, List.inj_on_of_nodup_map hpaths hmem hk hsame]

/-- The symbol table of one package holds that package. -/
theorem ofPackages_singleton (k : Package) : ofPackages [k] = ⟨[k]⟩ := by
  simp [ofPackages, sortedBy, firstOfEach, skipRepeats]

/-- What the symbol table holds for a function. -/
def function? (t : SymbolTable) (id : FunctionId) : Option FunctionDecl :=
  (t.package? id.package).bind fun k =>
    match id.receiver with
    | none => k.function? id.name
    | some receiver => k.method? receiver id.name

/-- What the symbol table holds for a function, with its file. -/
def declaration? (t : SymbolTable) (id : FunctionId) : Option (FunctionDecl × SourceFile) :=
  (t.package? id.package).bind (·.declaration? id)

theorem map_fst_declaration? (t : SymbolTable) (id : FunctionId) :
    (t.declaration? id).map Prod.fst = t.function? id := by
  rw [declaration?, function?]
  cases hk : t.package? id.package with
  | none => rfl
  | some k =>
    have hpath : k.importPath = id.package := by simpa using List.find?_some hk
    exact Package.map_fst_declaration? hpath.symm

/-! ### Methods of structs -/

/-- What a method set says of where a method is declared is right. -/
def Locates (ps : List Package) (e : MethodEntry) : Prop := ∀ id ∈ e.function, Declared ps id

theorem mem_addMissing {as bs : List MethodEntry} {e : MethodEntry}
    (h : e ∈ addMissing MethodEntry.name as bs) : e ∈ as ∨ e ∈ bs := by
  rcases List.mem_append.mp h with h | h
  · exact Or.inl h
  · exact Or.inr (List.mem_filter.mp h).1

theorem locates_ownMethods {id : TypeId} (hk : k ∈ ps) (hpath : k.importPath = id.package) :
    ∀ e ∈ ownMethods k id, Locates ps e := by
  intro e he
  obtain ⟨name, -, hentry⟩ := List.mem_filterMap.mp he
  obtain ⟨f, hf, rfl⟩ := Option.map_eq_some_iff.mp hentry
  intro g hg
  obtain rfl := Option.mem_some_iff.mp hg
  exact hpath ▸ Package.declared_of_method? hk (Option.isSome_iff_exists.mpr ⟨f, hf⟩)

/-- Promotion changes nothing about where a method is declared. -/
theorem function_promote (field : FieldDecl) (e : MethodEntry) :
    (promote field e).function = e.function := by
  rw [promote]
  split <;> rfl

theorem locates_gather (fuel : Nat) (above : List TypeId) (id : TypeId) :
    ∀ e ∈ gather (ofPackages ps) fuel above id, Locates ps e := by
  induction fuel generalizing above id with
  | zero =>
    intro e he
    rw [gather] at he
    cases he
  | succ fuel ih =>
    rw [gather]
    split
    next => exact fun e he => nomatch he
    next k hk =>
      obtain ⟨hmem, hpath⟩ := mem_of_package? hk
      have hown : ∀ e ∈ ownMethods k id, Locates ps e := locates_ownMethods hmem hpath
      split
      next => exact fun e he => nomatch he
      next =>
        split
        next => exact hown
        next decl file _ =>
          refine List.foldlRecOn (motive := fun found => ∀ e ∈ found, Locates ps e) _ _ hown ?_
          intro found hfound field _ e he
          rcases mem_addMissing he with he | he
          · exact hfound e he
          · obtain ⟨e', he', rfl⟩ := List.mem_map.mp he
            rw [Locates, function_promote]
            -- what is promoted comes from a struct or from an interface
            revert he'
            split
            next => exact fun he' => nomatch he'
            next inner _ =>
              split
              next => exact fun he' => ih _ _ e' he'
              next =>
                split
                next ms _ =>
                  intro he'
                  obtain ⟨m, -, rfl⟩ := List.mem_map.mp he'
                  exact fun g hg => nomatch hg
                next => exact fun he' => nomatch he'

/-- The methods of a struct are declared somewhere. -/
theorem declared_structMethods {id : TypeId} {name : String} {f : FunctionId}
    (h : (methodNamed? ((ofPackages ps).structMethods id) name).bind (·.function) = some f) :
    Declared ps f := by
  obtain ⟨e, he, hf⟩ := Option.bind_eq_some_iff.mp h
  have hmem := (sortedBy_perm MethodEntry.name _).mem_iff.mp (List.mem_of_find?_eq_some he)
  exact locates_gather _ _ _ e hmem f hf

end SymbolTable

end CodeGraph
