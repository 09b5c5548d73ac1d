import CodeGraph.Proofs.Calls.Sites

/-!
# Symbol tables in any order

The packages of a symbol table list types and functions in some order, and the analysis goes through them
in that order.

* `HoldsFirsts` — a list of what is held under names; `SymbolTable.listed` is the symbol table with such
  lists.
* `Package.SameNames`, `SymbolTable.SameNames` — two tables hold the same under every name;
  `SymbolTable.sameNames_listed` says so of every order of listing.
* `SymbolTable.SameNames.implementations`, `SymbolTable.SameNames.flattenDegradations`,
  `SymbolTable.SameNames.resolveCalls` — then the same is found with both of them.
* `Report.foundIn` — the report with a symbol table; `Report.foundIn_of_sameNames` says that the order does
  not matter.
-/

namespace CodeGraph

/-! ### Look-ups that find the same -/

section

variable {α β : Type} {R : α → β → Prop} {a : Option α} {b : Option β}

theorem rel_symm {S : β → α → Prop} (hRS : ∀ a b, R a b → S b a) (h : Option.Rel R a b) :
    Option.Rel S b a := by
  cases h with
  | some h => exact .some (hRS _ _ h)
  | none => exact .none

/-- Either nothing is found by both, or related things are. -/
theorem rel_cases (h : Option.Rel R a b) :
    (a = none ∧ b = none) ∨ ∃ u v, a = some u ∧ b = some v ∧ R u v := by
  cases h with
  | some h => exact Or.inr ⟨_, _, rfl, rfl, h⟩
  | none => exact Or.inl ⟨rfl, rfl⟩

theorem isSome_of_rel (h : Option.Rel R a b) : a.isSome = b.isSome := by
  cases h <;> rfl

theorem eq_of_rel {a b : Option α} (h : Option.Rel (· = ·) a b) : a = b := by
  cases h with
  | some h => rw [h]
  | none => rfl

theorem rel_filter {test : α → Bool} {test' : β → Bool} (htest : ∀ a b, R a b → test a = test' b)
    (h : Option.Rel R a b) : Option.Rel R (a.filter test) (b.filter test') := by
  cases h with
  | none => exact .none
  | @some a b h =>
    rw [Option.filter_some, Option.filter_some, htest a b h]
    cases test' b with
    | true => exact .some h
    | false => exact .none

theorem rel_bind {γ δ : Type} {S : γ → δ → Prop} {f : α → Option γ} {g : β → Option δ}
    (hfg : ∀ a b, R a b → Option.Rel S (f a) (g b)) (h : Option.Rel R a b) :
    Option.Rel S (a.bind f) (b.bind g) := by
  cases h with
  | none => exact .none
  | some h => exact hfg _ _ h

end

/-! ### Lists in any order -/

section

variable {α κ : Type} [DecidableEq κ] {key : α → κ} {as bs : List α}

/-- A list holds the first member with every key of another list, in some order. -/
def HoldsFirsts (key : α → κ) (as bs : List α) : Prop :=
  ∀ b, b ∈ bs ↔ as.find? (key · = key b) = some b

/-- Where keys are distinct, every order will do. -/
theorem holdsFirsts_of_perm (h : as.Perm bs) (hnodup : (as.map key).Nodup) : HoldsFirsts key as bs :=
  fun b => by rw [find?_key_eq_some hnodup, h.mem_iff, and_iff_left rfl]

theorem HoldsFirsts.find? (h : HoldsFirsts key as bs) (k : κ) :
    as.find? (key · = k) = bs.find? (key · = k) := by
  have hheld (a : α) (ha : as.find? (key · = k) = some a) : a ∈ bs ∧ key a = k := by
    obtain rfl : key a = k := by simpa using List.find?_some ha
    exact ⟨(h a).mpr ha, rfl⟩
  cases hb : bs.find? (key · = k) with
  | none =>
    refine Option.eq_none_iff_forall_ne_some.mpr fun a ha => ?_
    obtain ⟨hmem, hkey⟩ := hheld a ha
    exact List.find?_eq_none.mp hb a hmem (decide_eq_true hkey)
  | some b =>
    obtain rfl : key b = k := by simpa using List.find?_some hb
    exact (h b).mp (List.mem_of_find?_eq_some hb)

end

/-! ### Packages -/

/-- Two declarations of types are the same, in files with the same imports. -/
def SameType (u v : TypeDecl × SourceFile) : Prop := u.1 = v.1 ∧ u.2.imports = v.2.imports

/-- Two packages hold the same under every name, in whatever order they list it. -/
structure Package.SameNames (k k' : Package) : Prop where
  importPath : k.importPath = k'.importPath
  function? : ∀ name, k.function? name = k'.function? name
  method? : ∀ receiver name, k.method? receiver name = k'.method? receiver name
  type? : ∀ name, Option.Rel SameType (k.type? name) (k'.type? name)

namespace Package

variable {k k' : Package} {id : TypeId}

theorem method?_isSome_iff {receiver n : String} : (k.method? receiver n).isSome ↔
    ∃ f ∈ k.functions, f.isMethod ∧ f.receiver = receiver ∧ f.name = n := by
  simp [method?, and_assoc]

theorem mem_namesOfForm {form : TypeForm} {n : String} :
    n ∈ k.namesOfForm form ↔ (k.typeOfForm? form n).isSome := by
  rw [namesOfForm, mem_sortedDistinct, List.mem_filter, and_iff_right_iff_imp]
  intro h
  obtain ⟨u, hu⟩ := Option.isSome_iff_exists.mp h
  obtain ⟨u, hmem, hname⟩ := type?_isSome_iff.mp (Option.isSome_of_mem (Option.mem_filter_iff.mp hu).1)
  exact List.mem_map.mpr ⟨u, hmem, hname⟩

/-- What tells functions and methods of a package apart. -/
def nameOf (f : FunctionDecl) : String × String := (f.receiver, f.name)

theorem function?_eq_find? (name : String) :
    k.function? name = k.functions.find? (nameOf · = ("", name)) := by
  refine congrArg (fun test => k.functions.find? test) (funext fun f => ?_)
  by_cases hf : f.receiver = "" <;> simp [nameOf, FunctionDecl.isMethod, hf]

theorem method?_eq_find? (receiver name : String) : k.method? receiver name =
    if receiver = "" then none else k.functions.find? (nameOf · = (receiver, name)) := by
  split
  next h =>
    refine List.find?_eq_none.mpr fun f _ => ?_
    simp +contextual [FunctionDecl.isMethod, h]
  next h =>
    refine congrArg (fun test => k.functions.find? test) (funext fun f => ?_)
    by_cases hf : f.receiver = receiver <;> simp [nameOf, FunctionDecl.isMethod, hf, h]

/-- A package with types and functions in a given order, one to a file. -/
def listed (k : Package) (types : List (TypeDecl × SourceFile)) (functions : List FunctionDecl) :
    Package :=
  { k with files := (types.map fun u => { u.2 with types := [u.1], functions := [] }) ++
      functions.map fun f => { (default : SourceFile) with types := [], functions := [f] } }

/-- In whatever order a package is gone through, the same is held under every name. -/
theorem sameNames_listed {types : List (TypeDecl × SourceFile)} {functions : List FunctionDecl}
    (htypes : HoldsFirsts (·.1.name) k.types types) (hfunctions : HoldsFirsts nameOf k.functions functions) :
    k.SameNames (k.listed types functions) := by
  have hlisted : (k.listed types functions).functions = functions := by
    simp [listed, Package.functions, List.flatMap_map]
  refine ⟨rfl, fun name => ?_, fun receiver name => ?_, fun name => ?_⟩
  · rw [function?_eq_find?, function?_eq_find?, hlisted, hfunctions.find?]
  · rw [method?_eq_find?, method?_eq_find?, hlisted, hfunctions.find?]
  · have htype : (k.listed types functions).type? name = (types.find? (·.1.name = name)).map fun u =>
        (u.1, { u.2 with types := [u.1], functions := [] }) := by
      have hall : (k.listed types functions).types = types.map fun u =>
          (u.1, { u.2 with types := [u.1], functions := [] }) := by
        simp [listed, Package.types, List.flatMap_map, ← List.map_eq_flatMap]
      rw [type?, hall, List.find?_map]
      rfl
    rw [htype, type?, htypes.find?]
    cases types.find? (·.1.name = name) with
    | none => exact .none
    | some u => exact .some ⟨rfl, rfl⟩

namespace SameNames

theorem symm (h : k.SameNames k') : k'.SameNames k where
  importPath := h.importPath.symm
  function? name := (h.function? name).symm
  method? receiver name := (h.method? receiver name).symm
  type? name := rel_symm (fun _ _ hsame => ⟨hsame.1.symm, hsame.2.symm⟩) (h.type? name)

theorem typeOfForm? (h : k.SameNames k') (form : TypeForm) (name : String) :
    Option.Rel SameType (k.typeOfForm? form name) (k'.typeOfForm? form name) :=
  rel_filter (fun _ _ hsame => by rw [hsame.1]) (h.type? name)

/-- The names of types are sorted. -/
theorem namesOfForm (h : k.SameNames k') (form : TypeForm) :
    k.namesOfForm form = k'.namesOfForm form := by
  refine List.Pairwise.eq_of_mem_iff (pairwise_sortedDistinct _) (pairwise_sortedDistinct _) fun n => ?_
  rw [mem_namesOfForm, mem_namesOfForm, isSome_of_rel (h.typeOfForm? form n)]

/-- So are the names of the methods of a type. -/
theorem ownMethods (h : k.SameNames k') (id : TypeId) :
    SymbolTable.ownMethods k id = SymbolTable.ownMethods k' id := by
  have hmem (k : Package) (n : String) :
      n ∈ (k.functions.filter fun f => f.isMethod && f.receiver = id.name).map (·.name) ↔
        (k.method? id.name n).isSome := by
    simp [method?_isSome_iff, and_assoc]
  have hnames : sortedDistinct
      ((k.functions.filter fun f => f.isMethod && f.receiver = id.name).map (·.name)) =
        sortedDistinct ((k'.functions.filter fun f => f.isMethod && f.receiver = id.name).map (·.name)) :=
    sortedDistinct_congr fun n => by rw [hmem, hmem, h.method?]
  simp only [SymbolTable.ownMethods, hnames, h.method?]

end SameNames

end Package

/-! ### Symbol tables -/

namespace SymbolTable

/-- Two symbol tables hold the same under every name. -/
def SameNames (t t' : SymbolTable) : Prop := List.Forall₂ Package.SameNames t.packages t'.packages

/-- A symbol table whose packages list their types and functions in a given order. -/
def listed (t : SymbolTable) (types : Package → List (TypeDecl × SourceFile))
    (functions : Package → List FunctionDecl) : SymbolTable :=
  ⟨t.packages.map fun k => k.listed (types k) (functions k)⟩

/-- Every order of listing gives the same names. -/
theorem sameNames_listed {t : SymbolTable} {types : Package → List (TypeDecl × SourceFile)}
    {functions : Package → List FunctionDecl}
    (htypes : ∀ k ∈ t.packages, HoldsFirsts (·.1.name) k.types (types k))
    (hfunctions : ∀ k ∈ t.packages, HoldsFirsts Package.nameOf k.functions (functions k)) :
    t.SameNames (t.listed types functions) := by
  refine List.forall₂_map_right_iff.mpr (List.forall₂_same.mpr fun k hk => ?_)
  exact Package.sameNames_listed (htypes k hk) (hfunctions k hk)

end SymbolTable

namespace SymbolTable.SameNames

variable {t t' : SymbolTable}

theorem symm (h : t.SameNames t') : t'.SameNames t :=
  (List.Forall₂.flip h).imp fun _ _ => Package.SameNames.symm

theorem package? (h : t.SameNames t') (path : String) :
    Option.Rel Package.SameNames (t.package? path) (t'.package? path) :=
  find?_of_forall₂ h fun _ _ hk => by rw [hk.importPath]

theorem typesOfForm (h : t.SameNames t') (form : TypeForm) : t.typesOfForm form = t'.typesOfForm form :=
  flatMap_eq_of_forall₂ h fun k k' hk => by rw [hk.namesOfForm, hk.importPath]

theorem interface? (h : t.SameNames t') (k : TypeId) :
    Option.Rel SameType (t.interface? k) (t'.interface? k) :=
  rel_bind (fun _ _ hk => hk.typeOfForm? .interface k.name) (h.package? k.package)

theorem struct? (h : t.SameNames t') (k : TypeId) :
    Option.Rel SameType (t.struct? k) (t'.struct? k) :=
  rel_bind (fun _ _ hk => hk.typeOfForm? .struct k.name) (h.package? k.package)

/-- A type expression is about the same type. -/
theorem resolve? (h : t.SameNames t') (package : String) {file file' : SourceFile}
    (himports : file.imports = file'.imports) (written : String) :
    t.resolve? package file written = t'.resolve? package file' written := by
  have htype (path name : String) (k : TypeId) :
      ((t.package? path).bind fun p => (p.type? name).bind fun _ => some k) =
        (t'.package? path).bind fun p => (p.type? name).bind fun _ => some k :=
    eq_of_rel (rel_bind (fun _ _ hp => rel_bind (fun _ _ _ => .some rfl) (hp.type? name)) (h.package? path))
  rw [SymbolTable.resolve?, SymbolTable.resolve?]
  dsimp only
  split
  next => exact htype _ _ _
  next =>
    rw [himports]
    exact Option.bind_congr fun i _ => htype _ _ _

/-- The methods of an interface are flattened alike. -/
theorem flatten (h : t.SameNames t') (fuel : Nat) (above : List TypeId) (k : TypeId) :
    t.flatten fuel above k = t'.flatten fuel above k := by
  induction fuel generalizing above k with
  | zero => rfl
  | succ fuel ih =>
    rw [SymbolTable.flatten, SymbolTable.flatten]
    obtain ⟨hk, hk'⟩ | ⟨u, u', hk, hk', hdecl, himports⟩ := rel_cases (h.interface? k)
    · rw [hk, hk']
    · obtain ⟨decl, file⟩ := u
      obtain ⟨decl', file'⟩ := u'
      obtain rfl : decl = decl' := hdecl
      rw [hk, hk']
      simp only [ih, h.resolve? k.package himports]

theorem interfaceMethods (h : t.SameNames t') (k : TypeId) :
    t.interfaceMethods k = t'.interfaceMethods k := by
  rw [SymbolTable.interfaceMethods, SymbolTable.interfaceMethods, interfaces, interfaces, h.typesOfForm,
    h.flatten]

/-- The methods of a struct are gathered alike. -/
theorem gather (h : t.SameNames t') (fuel : Nat) (above : List TypeId) (k : TypeId) :
    t.gather fuel above k = t'.gather fuel above k := by
  induction fuel generalizing above k with
  | zero => rfl
  | succ fuel ih =>
    rw [SymbolTable.gather, SymbolTable.gather]
    obtain ⟨hp, hp'⟩ | ⟨p, p', hp, hp', hsame⟩ := rel_cases (h.package? k.package)
    · rw [hp, hp']
    · rw [hp, hp']
      dsimp only
      rw [hsame.ownMethods k]
      obtain ⟨hk, hk'⟩ | ⟨u, u', hk, hk', hdecl, himports⟩ := rel_cases (hsame.typeOfForm? .struct k.name)
      · rw [Package.struct?, hk, hk']
      · obtain ⟨decl, file⟩ := u
        obtain ⟨decl', file'⟩ := u'
        obtain rfl : decl = decl' := hdecl
        rw [Package.struct?, hk, hk']
        simp only [ih, h.resolve? k.package himports, isSome_of_rel (h.struct? _), h.interfaceMethods]

theorem structMethods (h : t.SameNames t') (k : TypeId) : t.structMethods k = t'.structMethods k := by
  rw [SymbolTable.structMethods, SymbolTable.structMethods, structs, structs, h.typesOfForm, h.gather]

/-- **The same structs implement the same interfaces.** -/
theorem implementations (h : t.SameNames t') : t.implementations = t'.implementations := by
  simp only [SymbolTable.implementations, methodSets, structs, interfaces, h.typesOfForm, h.structMethods,
    h.interfaceMethods]

theorem flattenDegradations (h : t.SameNames t') : t.flattenDegradations = t'.flattenDegradations := by
  simp only [SymbolTable.flattenDegradations, interfaces, h.typesOfForm, h.interfaceMethods]

end SymbolTable.SameNames

/-! ### Calls -/

namespace Resolver

variable {t t' : SymbolTable} {implementations : List Implementation} {dispatch : Bool}

theorem mem_methodsNamed {name : String} {id : FunctionId} : id ∈ methodsNamed t name ↔
    ∃ k ∈ t.packages, ∃ receiver, (k.method? receiver name).isSome ∧
      id = ⟨k.importPath, some receiver, name⟩ := by
  simp only [methodsNamed, mem_sortedDistinct, List.mem_flatMap, List.mem_map, List.mem_filter,
    Bool.and_eq_true, decide_eq_true_eq, Package.method?_isSome_iff]
  constructor
  · rintro ⟨k, hk, f, ⟨hf, hmethod, rfl⟩, rfl⟩
    exact ⟨k, hk, f.receiver, ⟨f, hf, hmethod, rfl, rfl⟩, by rw [FunctionId.ofDecl, hmethod]; rfl⟩
  · rintro ⟨k, hk, receiver, ⟨f, hf, hmethod, rfl, rfl⟩, rfl⟩
    exact ⟨k, hk, f, ⟨hf, hmethod, rfl⟩, by rw [FunctionId.ofDecl, hmethod]; rfl⟩

theorem mem_methodsNamed_of_sameNames (h : t.SameNames t') {name : String} {id : FunctionId}
    (hid : id ∈ methodsNamed t name) : id ∈ methodsNamed t' name := by
  obtain ⟨k, hk, receiver, hmethod, rfl⟩ := mem_methodsNamed.mp hid
  obtain ⟨k', hk', hsame⟩ := exists_of_forall₂ h.symm hk
  exact mem_methodsNamed.mpr ⟨k', hk', receiver, hsame.method? receiver name ▸ hmethod, by
    rw [hsame.importPath]⟩

theorem methodsNamed_of_sameNames (h : t.SameNames t') (name : String) :
    methodsNamed t name = methodsNamed t' name :=
  List.Pairwise.eq_of_mem_iff (pairwise_sortedDistinct _) (pairwise_sortedDistinct _) fun _ =>
    ⟨mem_methodsNamed_of_sameNames h, mem_methodsNamed_of_sameNames h.symm⟩

theorem direct_of_sameNames (h : t.SameNames t') (package : String) (site : CallSite) :
    direct ⟨t, implementations, dispatch⟩ package site =
      direct ⟨t', implementations, dispatch⟩ package site := by
  simp only [direct]
  obtain ⟨hk, hk'⟩ | ⟨k, k', hk, hk', hsame⟩ := rel_cases (h.package? (site.qualifier.getD package))
  · rw [hk, hk']
  · rw [hk, hk']
    simp only [hsame.function?, isSome_of_rel (hsame.type? _)]

theorem typedMethod_of_sameNames (h : t.SameNames t') (owner receiver method : String) :
    typedMethod ⟨t, implementations, dispatch⟩ owner receiver method =
      typedMethod ⟨t', implementations, dispatch⟩ owner receiver method := by
  have hthrough : throughInterface ⟨t, implementations, dispatch⟩ ⟨owner, receiver⟩ method =
      throughInterface ⟨t', implementations, dispatch⟩ ⟨owner, receiver⟩ method := by
    simp only [throughInterface, dispatchTargets, h.structMethods]
  rw [typedMethod, typedMethod, hthrough]
  obtain ⟨hk, hk'⟩ | ⟨k, k', hk, hk', hsame⟩ := rel_cases (h.package? owner)
  · rw [hk, hk']
  · rw [hk, hk']
    have hinterface : (k.interface? receiver).isSome = (k'.interface? receiver).isSome :=
      isSome_of_rel (hsame.typeOfForm? .interface receiver)
    have hstruct : (k.struct? receiver).isSome = (k'.struct? receiver).isSome :=
      isSome_of_rel (hsame.typeOfForm? .struct receiver)
    simp only [hinterface, hstruct, hsame.method?, h.structMethods]

theorem edgesOf_of_sameNames (h : t.SameNames t') (package : String) :
    edgesOf ⟨t, implementations, dispatch⟩ package = edgesOf ⟨t', implementations, dispatch⟩ package := by
  funext f
  simp only [edgesOf, resolve, byName, direct_of_sameNames h, typedMethod_of_sameNames h,
    methodsNamed_of_sameNames h]

end Resolver

/-- **The same calls are resolved in the same way.** -/
theorem SymbolTable.SameNames.resolveCalls {t t' : SymbolTable} (h : t.SameNames t')
    (implementations : List Implementation) (dispatch : Bool) (ps : List Package) :
    resolveCalls ⟨t, implementations, dispatch⟩ ps = resolveCalls ⟨t', implementations, dispatch⟩ ps := by
  simp only [CodeGraph.resolveCalls, Resolver.edgesOf_of_sameNames h]

/-! ### The report -/

namespace Report

/-- The report on a project with a symbol table for it. -/
def foundIn (t : SymbolTable) (settings : AnalysisSettings) (p : Project) : Report :=
  let dependencies := Dependencies.ofPackages p.packages
  let cycles := if settings.cycles then dependencies.cycles else []
  let implementations := t.implementations
  let calls := resolveCalls ⟨t, implementations, settings.dispatch⟩ p.packages
  let chains := chainsOf (.ofEdges calls) settings.chainDepth.toNat (entryPoints p.packages)
  { dependencies := dependencies.mark cycles
    cycles, implementations, calls
    entryChains := chains.1
    metrics := if settings.metrics then some (Metrics.ofPackages p.packages calls) else none
    degradations := t.flattenDegradations ++ chains.2 }

theorem found_eq_foundIn (settings : AnalysisSettings) (p : Project) :
    found settings p = foundIn (.ofProject p) settings p := rfl

/-- **The order of a symbol table does not matter.**  With tables that hold the same under every name the
same is found. -/
theorem foundIn_of_sameNames {t t' : SymbolTable} (h : t.SameNames t') (settings : AnalysisSettings)
    (p : Project) : foundIn t settings p = foundIn t' settings p := by
  simp only [foundIn, h.implementations, h.resolveCalls, h.flattenDegradations]

end Report

end CodeGraph
