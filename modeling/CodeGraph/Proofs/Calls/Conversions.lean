import CodeGraph.Proofs.Project.Files
import CodeGraph.Proofs.Source.FunctionValues
import CodeGraph.Proofs.Source.Shadowing

/-!
# Conversions

A conversion `T(x)` has the form of a call.  Whether it makes an edge is decided by the form of the call, by
the variables bound before it and by the types that are recorded.

* `typeSpecs` — the types that a file declares at package level; `isRecordedType` — those that reach the
  symbol table.
* `Package.type?_isSome_iff_recordsType` — a package has the types that its files declare as structs or as
  interfaces.
* `conversions_by_recorded_types` — which calls by the name of a type make no edge.
-/

namespace CodeGraph

open Source Syntax

/-! ### Recorded types -/

namespace Source

/-- The specifications of types at package level, single or in groups. -/
def typeSpecs (root : Node) : List Node :=
  (root.children.filter (·.kind = .typeDeclaration)).flatMap fun d =>
    d.children.filter fun c => c.kind = .typeSpec || c.kind = .typeAlias

/-- Whether a specification declares a struct or an interface of its own. -/
def isRecordedType (spec : Node) : Bool :=
  spec.kind = .typeSpec &&
    (spec.child? .type).any fun type => type.kind = .structType || type.kind = .interfaceType

/-- The name that a specification declares. -/
def specName? (text : SourceText) (spec : Node) : Option String := (spec.child? .name).map text.textOf

theorem exists_typeDecl?_iff {text : SourceText} {spec : Node} {name : String} :
    (∃ u, typeDecl? text spec = some u ∧ u.name = name) ↔ specName? text spec = some name ∧
      (spec.child? .type).any fun type => type.kind = .structType || type.kind = .interfaceType := by
  simp only [typeDecl?, specName?, Option.bind_eq_bind]
  cases spec.child? .name with
  | none => simp
  | some nameNode =>
    cases spec.child? .type with
    | none => simp
    | some type =>
      simp only [Option.bind_some, Option.map_some, Option.any_some, Option.some.injEq]
      split
      next hkind => simp [hkind]
      next hkind => simp [hkind]
      next hstruct hinterface =>
        have hother : ¬type.kind = .structType ∧ ¬type.kind = .interfaceType := ⟨hstruct, hinterface⟩
        simp [hother]

/-- The types of a file are those that it declares as structs or as interfaces. -/
theorem exists_type_outline_iff {text : SourceText} {root : Node} {name : String} :
    (∃ u ∈ (outline text root).types, u.name = name) ↔
      ∃ spec ∈ typeSpecs root, isRecordedType spec ∧ specName? text spec = some name := by
  have htypes : (outline text root).types =
      (root.children.filter (·.kind = .typeDeclaration)).flatMap fun d =>
        (d.children.filter (·.kind = .typeSpec)).filterMap (typeDecl? text) := rfl
  simp only [htypes, typeSpecs, List.mem_flatMap, List.mem_filterMap, List.mem_filter, isRecordedType,
    Bool.and_eq_true, decide_eq_true_eq]
  constructor
  · rintro ⟨u, ⟨d, hd, spec, ⟨hspec, hkind⟩, hu⟩, hname⟩
    obtain ⟨hnamed, hform⟩ := exists_typeDecl?_iff.mp ⟨u, hu, hname⟩
    exact ⟨spec, ⟨d, hd, hspec, by simp [hkind]⟩, ⟨hkind, hform⟩, hnamed⟩
  · rintro ⟨spec, ⟨d, hd, hspec, -⟩, ⟨hkind, hform⟩, hnamed⟩
    obtain ⟨u, hu, hname⟩ := exists_typeDecl?_iff.mpr ⟨hnamed, hform⟩
    exact ⟨u, ⟨d, hd, spec, ⟨hspec, hkind⟩, hu⟩, hname⟩

end Source

/-- A file of a package declares a struct or an interface of a name at package level. -/
def Package.RecordsType (k : Package) (name : String) : Prop :=
  ∃ file ∈ k.files, ∃ text, file.IsReadFrom text ∧ ∃ spec ∈ typeSpecs (.ofText text),
    isRecordedType spec ∧ specName? (.ofString text) spec = some name

theorem Package.type?_isSome_iff_recordsType {k : Package} {name : String}
    (hfiles : ∀ file ∈ k.files, ∃ text, file.IsReadFrom text) :
    (k.type? name).isSome ↔ k.RecordsType name := by
  rw [Package.type?_isSome_iff]
  simp only [Package.types, List.mem_flatMap, List.mem_map]
  constructor
  · rintro ⟨_, ⟨file, hfile, u, hu, rfl⟩, hname⟩
    obtain ⟨text, htext⟩ := hfiles file hfile
    rw [htext.types] at hu
    exact ⟨file, hfile, text, htext, exists_type_outline_iff.mp ⟨u, hu, hname⟩⟩
  · rintro ⟨file, hfile, text, htext, hspec⟩
    obtain ⟨u, hu, hname⟩ := exists_type_outline_iff.mpr hspec
    exact ⟨(u, file), ⟨file, hfile, u, htext.types ▸ hu, rfl⟩, hname⟩

/-! ### Calls by the name of a type -/

/-- The keys of the edges that a call in a function makes. -/
def Resolver.keysOf (r : Resolver) (k : Package) (f : FunctionDecl) (site? : Option CallSite) :
    List CallKey :=
  match site? with
  | some site => r.callKeys ⟨k, f, site⟩
  | none => []

section Keys

variable {r : Resolver} {k owner : Package} {f : FunctionDecl} {text : SourceText} {names : ImportNames}
  {p : CallPoint} {x name path : String}

theorem keysOf_plain_eq_nil_iff (hmet : ∀ b ∈ p.met, b.1 ≠ "_") (h : plainCallee? text p.call = some name)
    (howner : r.symbols.package? k.importPath = some owner) :
    r.keysOf k f (p.site? text names) = [] ↔ (∀ b ∈ p.met, b.1 ≠ name) ∧ owner.function? name = none ∧
      ((owner.type? name).isSome ∨ name ∈ builtinTypes) := by
  rw [site?_of_plainCallee hmet h, Resolver.keysOf, Resolver.callKeys_eq_nil_iff]
  split
  next hbound =>
    refine iff_of_false (List.cons_ne_nil _ _) fun hfree => ?_
    obtain ⟨b, hb, hname⟩ := hbound
    exact hfree.1 b hb hname
  next hfree =>
    have hunmet : ∀ b ∈ p.met, b.1 ≠ name := fun b hb hname => hfree ⟨b, hb, hname⟩
    have hdirect : r.direct k.importPath ⟨name, none, none, .direct, p.call.startLine⟩ = [] ↔ _ :=
      Resolver.direct_eq_nil_iff_of_package? howner
    refine hdirect.trans ?_
    rw [and_iff_right hunmet, eq_self, true_and]

theorem keysOf_selection_eq_nil_iff (hmet : ∀ b ∈ p.met, b.1 ≠ "_")
    (h : selection? text p.call = some (x, name)) (hpath : names.lookup x = some path)
    (howner : r.symbols.package? path = some owner) :
    r.keysOf k f (p.site? text names) = [] ↔ (∀ b ∈ p.met, b.1 ≠ x) ∧ owner.function? name = none ∧
      (owner.type? name).isSome := by
  rw [site?_of_selection hmet h, Resolver.keysOf, Resolver.callKeys_eq_nil_iff]
  cases hlatest : latest? p.met x with
  | some b =>
    -- a method of a variable: there is always an edge
    obtain ⟨hb, hname⟩ := latest?_eq_some hlatest
    refine iff_of_false ?_ fun hfree => hfree.1 b hb hname
    obtain ⟨_, type⟩ := b
    cases type with
    | some t => exact Resolver.typedMethod_ne_nil _ _ _
    | none => exact List.cons_ne_nil _ _
  | none =>
    have hunmet := latest?_eq_none_iff.mp hlatest
    have hdirect : r.direct k.importPath ⟨name, some path, none, .direct, p.call.startLine⟩ = [] ↔ _ :=
      Resolver.direct_eq_nil_iff_of_package? howner
    rw [Option.map_none, (selectorSite_eq_direct_iff hpath).mpr rfl]
    refine hdirect.trans ?_
    rw [and_iff_right hunmet]
    simp

/-- What stands in parentheses is taken for a function value. -/
theorem keysOf_parenthesized {function : Node} (h : p.call.child? .function = some function)
    (hkind : function.kind = .parenthesizedExpression) : ∃ shown,
    r.keysOf k f (p.site? text names) = [⟨.ofDecl k.importPath f,
      .unresolved shown UnresolvedReason.functionValue.message, .dynamic⟩] := by
  have hplain : function.kind ≠ .identifier := hkind ▸ nofun
  have hselector : function.kind ≠ .selectorExpression := hkind ▸ nofun
  have hconversion : conversionKinds.contains function.kind = false := by rw [hkind]; rfl
  simp only [CallPoint.site?, callSite?, Option.bind_eq_bind, h, Option.bind_some, if_neg hplain,
    if_neg hselector, hconversion, Bool.false_eq_true, if_false]
  exact ⟨_, rfl⟩

end Keys

/-- The keys of a call are those of edges. -/
theorem exists_edge_of_mem_keysOf {r : Resolver} {ps : List Package} {k : Package} {f : FunctionDecl}
    (hk : k ∈ ps) (hf : f ∈ k.functions) {site? : Option CallSite} (hsite : ∀ s ∈ site?, s ∈ f.calls)
    {key : CallKey} (hkey : key ∈ r.keysOf k f site?) : ∃ e ∈ resolveCalls r ps, e.key = key := by
  cases site? with
  | none => cases hkey
  | some s => exact mem_keys_resolveCalls.mpr ⟨⟨k, f, s⟩, mem_callsOf.mpr ⟨hk, hf, hsite s rfl⟩, hkey⟩

/-- **A call by the name of a type makes no edge exactly if no variable of the name has been bound before it
and the type is declared as a struct or as an interface**; the package may have no function of the name, and
for a name that stands alone a predeclared type does as well.  A conversion to any other named type that a
package declares makes an edge, and so does every conversion with the type in parentheses. -/
theorem conversions_by_recorded_types {settings : ReadingSettings} {tree : FileTree} {path : String}
    {signal : Signal} {project : Project}
    (hread : (Project.read Languages.standard settings tree path).outcome signal = .ok project)
    (implementations : List Implementation) (dispatch : Bool) :
    let r : Resolver := ⟨.ofProject project, implementations, dispatch⟩
    ∀ k ∈ project.packages, ∀ file ∈ k.files, (∃ source, file.IsReadFrom source) ∧
      ∀ source, file.IsReadFrom source →
      let text := SourceText.ofString source
      let names := importNames file.imports
      ∀ f ∈ file.functions,
        (∃ n ∈ (Node.ofText source).children, functionDecl? text names n = some f) ∧
        ∀ n, functionDecl? text names n = some f →
          f.calls = (callPoints text names n).filterMap (CallPoint.site? text names) ∧
          ∀ p ∈ callPoints text names n,
            let keys := r.keysOf k f (p.site? text names)
            (∀ key ∈ keys, ∃ e ∈ resolveCalls r project.packages, e.key = key) ∧
            (∀ name owner, plainCallee? text p.call = some name →
              r.symbols.package? k.importPath = some owner →
              (keys = [] ↔ (∀ b ∈ p.met, b.1 ≠ name) ∧ owner.function? name = none ∧
                (owner.RecordsType name ∨ name ∈ builtinTypes))) ∧
            (∀ x name path owner, selection? text p.call = some (x, name) → names.lookup x = some path →
              r.symbols.package? path = some owner →
              (keys = [] ↔ (∀ b ∈ p.met, b.1 ≠ x) ∧ owner.function? name = none ∧
                owner.RecordsType name)) ∧
            (∀ function, p.call.child? .function = some function →
              function.kind = .parenthesizedExpression → ∃ shown, keys = [⟨.ofDecl k.importPath f,
                .unresolved shown UnresolvedReason.functionValue.message, .dynamic⟩]) := by
  intro r k hk file hfile
  have hread' {k : Package} {file : SourceFile} (hk : k ∈ project.packages) (hfile : file ∈ k.files) :
      ∃ source, file.IsReadFrom source := by
    obtain ⟨s, hs⟩ := Project.exists_readSource hread hk hfile
    obtain ⟨content, -, hsource⟩ := isReadFrom_readSource hs
    exact ⟨_, hsource⟩
  have htypes {owner : Package} {path name : String} (howner : r.symbols.package? path = some owner) :
      (owner.type? name).isSome ↔ owner.RecordsType name :=
    Package.type?_isSome_iff_recordsType fun _ =>
      hread' (SymbolTable.mem_of_package? howner).1
  refine ⟨hread' hk hfile, fun source hsource => ?_⟩
  intro text names f hf
  refine ⟨?_, fun n hn => ?_⟩
  · obtain ⟨n, hn, -, hdecl⟩ := mem_functions_outline.mp (hsource.functions ▸ hf)
    rw [← hsource.imports] at hdecl
    exact ⟨n, hn, hdecl⟩
  have hcalls := calls_eq_points text names hn
  refine ⟨hcalls, fun p hp => ?_⟩
  intro keys
  have hmet := ne_blank_of_mem_callPoints text names hp
  refine ⟨fun key => ?_, fun name owner hcallee howner => ?_,
    fun x name path owner hselection hpath howner => ?_,
    fun function hfunction hkind => keysOf_parenthesized hfunction hkind⟩
  · have hsite : ∀ s ∈ p.site? text names, s ∈ f.calls := fun s hs =>
      hcalls ▸ List.mem_filterMap.mpr ⟨p, hp, hs⟩
    exact exists_edge_of_mem_keysOf hk (List.mem_flatMap.mpr ⟨file, hfile, hf⟩) hsite
  · rw [← htypes howner]
    exact keysOf_plain_eq_nil_iff hmet hcallee howner
  · rw [← htypes howner]
    exact keysOf_selection_eq_nil_iff hmet hselection hpath howner

/-- A number type, a struct, and a conversion to each. -/
def celsiusText : String :=
  "package p\n\ntype Celsius float64\n\ntype T struct\x7b\x7d\n\n" ++
    "func f(x float64, t T) \x7b\n\t_ = Celsius(x)\n\t_ = T(t)\n\x7d\n"

def celsiusTree : FileTree :=
  .folder [("p", .folder [("go.mod", .file (Text.Utf8.encode "module m\n")),
    ("a.go", .file (Text.Utf8.encode celsiusText))])]

def celsiusFunction : FunctionDecl :=
  ⟨"f", "func f(x float64, t T)", "", false, ["float64", "T"], [], .unexported, ⟨7, 10⟩, 1,
    [⟨"Celsius", none, none, .direct, 8⟩, ⟨"T", none, none, .direct, 9⟩]⟩

def celsiusFile : SourceFile :=
  { path := "a.go", package := "p", imports := []
    functions := [celsiusFunction]
    types := [⟨"T", .struct, .exported, ⟨5, 5⟩, [], [], []⟩]
    values := []
    contentHash := "3f7a0f6aab7befdc0429dcb0513cf10e92f9b4ed246245d0615fbd3ece17ee37"
    lineCount := 10 }

def celsiusPackage : Package := ⟨"m", "p", "", [celsiusFile]⟩

/-- The conversion to a number makes an edge, the one to a struct does not. -/
theorem conversions_by_recorded_types_celsius :
    let text := SourceText.ofString celsiusText
    ∃ project n number struct,
      (Project.read Languages.standard {} celsiusTree "/p").outcome .never = .ok project ∧
      project.packages = [celsiusPackage] ∧ functionDecl? text [] n = some celsiusFunction ∧
      number ∈ callPoints text [] n ∧ plainCallee? text number.call = some "Celsius" ∧
      struct ∈ callPoints text [] n ∧ plainCallee? text struct.call = some "T" ∧
      let r : Resolver := ⟨.ofProject project, [], true⟩
      (∃ e ∈ resolveCalls r project.packages,
        e.key ∈ r.keysOf celsiusPackage celsiusFunction (number.site? text [])) ∧
      r.keysOf celsiusPackage celsiusFunction (struct.site? text []) = [] := by
  intro text
  have hfile : readSource Languages.standard (["a.go"], .ok (Text.Utf8.encode celsiusText)) =
      .ok celsiusFile := by
    decide +kernel
  have hsource : celsiusFile.IsReadFrom celsiusText := by
    obtain ⟨content, hcontent, hread⟩ := isReadFrom_readSource hfile
    rwa [← Except.ok.inj hcontent, Text.Utf8.decode_encode] at hread
  obtain ⟨project, hread, hpackages⟩ := Project.exists_read_source Languages.standard {} celsiusTree
    (["a.go"], .ok (Text.Utf8.encode celsiusText)) rfl (by decide) rfl (by decide +kernel) hfile (by decide)
  have hpackage : project.packages = [celsiusPackage] := hpackages.trans (by decide +kernel)
  have howner : (SymbolTable.ofProject project).package? "m" = some celsiusPackage := by
    rw [SymbolTable.ofProject, hpackage, SymbolTable.ofPackages_singleton]
    rfl
  have hrecorded (name : String) : celsiusPackage.RecordsType name ↔ (celsiusPackage.type? name).isSome :=
    (Package.type?_isSome_iff_recordsType (k := celsiusPackage) fun _ hfile =>
      ⟨celsiusText, (List.mem_singleton.mp hfile).symm ▸ hsource⟩).symm
  have hnode : ((Node.ofText celsiusText).children.any fun n =>
      functionDecl? (.ofString celsiusText) [] n == some celsiusFunction &&
        ["Celsius", "T"].all fun name => (callPoints (.ofString celsiusText) [] n).any fun p =>
          plainCallee? (.ofString celsiusText) p.call == some name && p.met.all (·.1 ≠ name)) = true := by
    decide +kernel
  simp only [List.any_eq_true, List.all_cons, List.all_nil, Bool.and_true, Bool.and_eq_true, beq_iff_eq]
    at hnode
  obtain ⟨n, -, hn, ⟨number, hnumber, hcelsius, -⟩, struct, hstruct, ht, hunmet⟩ := hnode
  obtain ⟨-, hpoints⟩ := ((conversions_by_recorded_types hread [] true celsiusPackage
    (hpackage ▸ List.mem_singleton_self _) celsiusFile (List.mem_singleton_self _)).2 celsiusText hsource
    celsiusFunction (List.mem_singleton_self _)).2 n hn
  obtain ⟨hedges, hnumberKeys, -⟩ := hpoints number hnumber
  obtain ⟨-, hstructKeys, -⟩ := hpoints struct hstruct
  refine ⟨project, n, number, struct, hread, hpackage, hn, hnumber, hcelsius, hstruct, ht, ?_, ?_⟩
  · have hkeys := mt (hnumberKeys "Celsius" celsiusPackage hcelsius howner).mp fun h => by
      have hunrecorded : ¬(celsiusPackage.RecordsType "Celsius" ∨ "Celsius" ∈ builtinTypes) := by
        rw [hrecorded]
        decide
      exact hunrecorded h.2.2
    obtain ⟨key, hkey⟩ := List.exists_mem_of_ne_nil _ hkeys
    obtain ⟨e, he, rfl⟩ := hedges key hkey
    exact ⟨e, he, hkey⟩
  · refine (hstructKeys "T" celsiusPackage ht howner).mpr ⟨fun b hb => ?_, by decide, .inl ?_⟩
    · exact of_decide_eq_true (List.all_eq_true.mp hunmet b hb)
    · rw [hrecorded]
      decide

end CodeGraph
