import CodeGraph.Proofs.Calls.Resolution
import CodeGraph.Proofs.Report.Basic

/-!
# Call sites and their edges

* `Call` — a call site with the package and the function that it stands in; `callsOf` lists those of
  packages in their order.
* `CallSite.Converts` — a call by name that is the conversion of a value.
* `Resolver.resolve_eq_nil_iff` — a conversion is all that leads nowhere.
* `Resolver.callKeys` — the keys of the edges that a call makes; `mem_keys_resolveCalls` says that
  there are no other edges, and `exists_first_call` that an edge is made from the first of its calls.
* `Report.calls_account_for_sites` — the main result.
-/

namespace CodeGraph

/-! ### Calls -/

/-- A call site with the package and the function that it stands in. -/
structure Call where
  package : Package
  function : FunctionDecl
  site : CallSite
  deriving DecidableEq

/-- The function that makes a call. -/
def Call.caller (c : Call) : FunctionId := .ofDecl c.package.importPath c.function

/-- All calls, package by package, file by file, function by function and site by site. -/
def callsOf (ps : List Package) : List Call :=
  ps.flatMap fun k => k.files.flatMap fun file => file.functions.flatMap fun f =>
    f.calls.map fun site => ⟨k, f, site⟩

theorem mem_callsOf {ps : List Package} {c : Call} :
    c ∈ callsOf ps ↔ c.package ∈ ps ∧ c.function ∈ c.package.functions ∧ c.site ∈ c.function.calls := by
  simp only [callsOf, Package.functions, List.mem_flatMap, List.mem_map]
  constructor
  · rintro ⟨k, hk, file, hfile, f, hf, site, hsite, rfl⟩
    exact ⟨hk, ⟨file, hfile, hf⟩, hsite⟩
  · rintro ⟨hk, ⟨file, hfile, hf⟩, hsite⟩
    exact ⟨c.package, hk, file, hfile, c.function, hf, c.site, hsite, rfl⟩

/-- A call by name that is the conversion of a value: the package of the project in which the name is
looked up has no function of that name, but a struct or an interface, or the name stands alone and is
that of a predeclared type. -/
structure CallSite.Converts (ps : List Package) (package : String) (site : CallSite) : Prop where
  direct : site.kind = .direct
  type : ∃ k ∈ ps, k.importPath = site.qualifier.getD package ∧
    (∀ f ∈ k.functions, f.isMethod = false → f.name ≠ site.callee) ∧
    ((∃ u ∈ k.types, u.1.name = site.callee) ∨
      site.qualifier = none ∧ site.callee ∈ builtinTypes)

/-! ### What leads nowhere -/

namespace Package

variable {k : Package} {name : String}

theorem function?_eq_none_iff :
    k.function? name = none ↔ ∀ f ∈ k.functions, f.isMethod = false → f.name ≠ name := by
  simp [function?]

theorem type?_isSome_iff : (k.type? name).isSome ↔ ∃ u ∈ k.types, u.1.name = name := by
  simp [type?]

end Package

namespace Resolver

variable {ps : List Package} {r : Resolver} {package : String}

theorem throughInterface_ne_nil (interface : TypeId) (method : String) :
    r.throughInterface interface method ≠ [] := by
  rw [throughInterface]
  split
  next => exact List.cons_ne_nil _ _
  next =>
    split
    next => exact List.cons_ne_nil _ _
    next targets hsome => exact fun hnil => hsome (List.map_eq_nil_iff.mp hnil)

theorem typedMethod_ne_nil (owner receiver method : String) :
    r.typedMethod owner receiver method ≠ [] := by
  rw [typedMethod]
  split
  next => exact List.cons_ne_nil _ _
  next =>
    split
    next => exact throughInterface_ne_nil _ method
    next =>
      split
      next => split <;> exact List.cons_ne_nil _ _
      next => split <;> exact List.cons_ne_nil _ _

/-- A call by name leads nowhere exactly if the package that it is looked up in has a type of that name and
no function, or the name stands alone and is that of a predeclared type. -/
theorem direct_eq_nil_iff_of_package? {site : CallSite} {owner : Package}
    (howner : r.symbols.package? (site.qualifier.getD package) = some owner) :
    r.direct package site = [] ↔ owner.function? site.callee = none ∧
      ((owner.type? site.callee).isSome ∨ site.qualifier = none ∧ site.callee ∈ builtinTypes) := by
  simp only [direct, howner]
  split
  next hfunction =>
    exact iff_of_false (List.cons_ne_nil _ _) fun h => Option.isSome_iff_ne_none.mp hfunction h.1
  next hfunction =>
    have hnone : owner.function? site.callee = none := Option.not_isSome_iff_eq_none.mp hfunction
    split
    next htype => exact iff_of_true rfl ⟨hnone, Or.inl htype⟩
    next htype =>
      split
      next hpredeclared => exact iff_of_true rfl ⟨hnone, Or.inr (by simpa using hpredeclared)⟩
      next hpredeclared =>
        have hcall : ¬((owner.type? site.callee).isSome = true ∨
            site.qualifier = none ∧ site.callee ∈ builtinTypes) :=
          not_or.mpr ⟨htype, by simpa using hpredeclared⟩
        split <;> exact iff_of_false (List.cons_ne_nil _ _) fun h => hcall h.2

/-- A call by name leads nowhere exactly if it is a conversion. -/
theorem direct_eq_nil_iff (hr : r.symbols = .ofPackages ps)
    (hpaths : (ps.map (·.importPath)).Nodup) (hpackage : ∃ k ∈ ps, k.importPath = package)
    {site : CallSite} (hkind : site.kind = .direct) :
    r.direct package site = [] ↔ site.Converts ps package := by
  have hconverts : site.Converts ps package ↔
      ∃ k, r.symbols.package? (site.qualifier.getD package) = some k ∧
        k.function? site.callee = none ∧ ((k.type? site.callee).isSome = true ∨
          site.qualifier = none ∧ site.callee ∈ builtinTypes) := by
    rw [hr]
    simp only [SymbolTable.package?_eq_some hpaths, Package.function?_eq_none_iff,
      Package.type?_isSome_iff]
    constructor
    · rintro ⟨-, k, hk, howner, hnone, htype⟩
      exact ⟨k, ⟨hk, howner⟩, hnone, htype⟩
    · rintro ⟨k, ⟨hk, howner⟩, hnone, htype⟩
      exact ⟨hkind, k, hk, howner, hnone, htype⟩
  rw [hconverts]
  cases howner : r.symbols.package? (site.qualifier.getD package) with
  | none =>
    -- the package that the call stands in is one of the project
    have hqualified : site.qualifier.isSome = true := by
      cases hqualifier : site.qualifier with
      | some path => rfl
      | none =>
        obtain ⟨k, hk, rfl⟩ := hpackage
        rw [hr, hqualifier, Option.getD_none,
          (SymbolTable.package?_eq_some hpaths).mpr ⟨hk, rfl⟩] at howner
        cases howner
    simp [direct, howner, hqualified]
  | some k =>
    rw [direct_eq_nil_iff_of_package? howner]
    simp only [Option.some.injEq, exists_eq_left']

/-- A conversion is all that leads nowhere. -/
theorem resolve_eq_nil_iff (hr : r.symbols = .ofPackages ps)
    (hpaths : (ps.map (·.importPath)).Nodup) (hpackage : ∃ k ∈ ps, k.importPath = package)
    (site : CallSite) : r.resolve package site = [] ↔ site.Converts ps package := by
  have hother (h : site.kind ≠ .direct) {xs : List Resolution} (hxs : xs ≠ []) :
      xs = [] ↔ site.Converts ps package :=
    iff_of_false hxs fun hconverts => h hconverts.direct
  rw [resolve]
  split
  next hkind => exact direct_eq_nil_iff hr hpaths hpackage hkind
  next hkind => exact hother (by simp [hkind]) (List.cons_ne_nil _ _)
  next hdirect _ => exact hother hdirect (typedMethod_ne_nil _ _ _)
  next hdirect _ => exact hother hdirect (List.cons_ne_nil _ _)

/-! ### The edges of a call -/

/-- The keys of the edges that a call makes. -/
def callKeys (r : Resolver) (c : Call) : List CallKey :=
  (r.resolve c.package.importPath c.site).map fun x => ⟨c.caller, x.target, x.kind⟩

/-- The edges that a call would make if it were the first of all. -/
def callEdges (r : Resolver) (c : Call) : List CallEdge :=
  (r.resolve c.package.importPath c.site).map fun x =>
    ⟨c.caller, x.target, x.kind, x.nameMatched, c.site.line⟩

theorem map_key_callEdges (c : Call) : (r.callEdges c).map CallEdge.key = r.callKeys c :=
  List.map_map

theorem callKeys_eq_nil_iff {c : Call} :
    r.callKeys c = [] ↔ r.resolve c.package.importPath c.site = [] :=
  List.map_eq_nil_iff

theorem flatMap_edgesOf (r : Resolver) (ps : List Package) :
    (ps.flatMap fun k => k.functions.flatMap (r.edgesOf k.importPath)) =
      (callsOf ps).flatMap r.callEdges := by
  simp only [callsOf, Package.functions, List.flatMap_assoc, List.flatMap_map]
  rfl

end Resolver

section

variable {r : Resolver} {ps : List Package}

/-- The edges are in the order of their keys, and no two have the same one. -/
theorem pairwise_resolveCalls (r : Resolver) (ps : List Package) :
    (resolveCalls r ps).Pairwise fun a b => Precedes a.key b.key :=
  pairwise_firstOfEach (pairwise_sortedBy CallEdge.key _)

/-- The edges are those that calls make. -/
theorem mem_keys_resolveCalls {key : CallKey} :
    (∃ e ∈ resolveCalls r ps, e.key = key) ↔ ∃ c ∈ callsOf ps, key ∈ r.callKeys c := by
  rw [resolveCalls, Resolver.flatMap_edgesOf]
  have hcall (c : Call) : key ∈ r.callKeys c ↔ ∃ e ∈ r.callEdges c, e.key = key := by
    rw [← Resolver.map_key_callEdges, List.mem_map]
  simp only [hcall]
  constructor
  · rintro ⟨e, he, hkey⟩
    have hmem := (sortedBy_perm CallEdge.key _).mem_iff.mp ((firstOfEach_sublist _ _).subset he)
    obtain ⟨c, hc, he⟩ := List.mem_flatMap.mp hmem
    exact ⟨c, hc, e, he, hkey⟩
  · rintro ⟨c, hc, e, he, rfl⟩
    have hmem := List.mem_flatMap.mpr ⟨c, hc, he⟩
    exact exists_mem_firstOfEach CallEdge.key ((sortedBy_perm CallEdge.key _).mem_iff.mpr hmem)

/-- An edge is made from the first of its calls. -/
theorem exists_first_call {e : CallEdge} (he : e ∈ resolveCalls r ps) :
    ∃ before c after, callsOf ps = before ++ c :: after ∧ e ∈ r.callEdges c ∧
      ∀ c' ∈ before, e.key ∉ r.callKeys c' := by
  rw [resolveCalls, Resolver.flatMap_edgesOf] at he
  have hfirst := find?_of_mem_firstOfEach he
  rw [List.find?_flatMap, List.findSome?_eq_some_iff] at hfirst
  obtain ⟨before, c, after, hall, hfound, hbefore⟩ := hfirst
  refine ⟨before, c, after, hall, List.mem_of_find?_eq_some hfound, fun c' hc' hkey => ?_⟩
  rw [← Resolver.map_key_callEdges] at hkey
  obtain ⟨e', he', hsame⟩ := List.mem_map.mp hkey
  exact List.find?_eq_none.mp (hbefore c' hc') e' he' (beq_iff_eq.mpr hsame)

end

/-- The calls of a report are resolved against its implementations. -/
theorem Report.calls_eq {settings : AnalysisSettings} {p : Project} {signal : Signal} {report : Report}
    (hreport : (Report.ofProject settings p).outcome signal = .ok report) : report.calls =
      resolveCalls ⟨.ofProject p, report.implementations, settings.dispatch⟩ p.packages := by
  rw [Report.ofProject_eq_ok hreport]
  rfl

/-- **No call is dropped silently.**  Where import paths are distinct, a call has an edge of its caller
unless it is a conversion.  Conversely an edge is made by calls of its caller and has the line of the
first one, in the order of packages, files, functions and sites.  The edges are in strict order by
caller, target and kind. -/
theorem Report.calls_account_for_sites {settings : AnalysisSettings} {p : Project} {signal : Signal}
    {report : Report} (hreport : (Report.ofProject settings p).outcome signal = .ok report)
    (hpaths : (p.packages.map (·.importPath)).Nodup) :
    let r : Resolver := ⟨.ofProject p, report.implementations, settings.dispatch⟩
    (∀ c ∈ callsOf p.packages,
      (∃ e ∈ report.calls, e.caller = c.caller ∧ e.key ∈ r.callKeys c) ↔
        ¬c.site.Converts p.packages c.package.importPath) ∧
    (∀ e ∈ report.calls, ∃ before c after, callsOf p.packages = before ++ c :: after ∧
      e.caller = c.caller ∧ e.key ∈ r.callKeys c ∧ e.line = c.site.line ∧
      ∀ c' ∈ before, e.key ∉ r.callKeys c') ∧
    report.calls.Pairwise fun a b => Precedes a.key b.key := by
  intro r
  rw [Report.calls_eq hreport]
  refine ⟨fun c hc => ?_, fun e he => ?_, pairwise_resolveCalls r p.packages⟩
  · have hpackage : ∃ k ∈ p.packages, k.importPath = c.package.importPath :=
      ⟨c.package, (mem_callsOf.mp hc).1, rfl⟩
    rw [← Resolver.resolve_eq_nil_iff (r := r) rfl hpaths hpackage c.site,
      ← Resolver.callKeys_eq_nil_iff]
    constructor
    · rintro ⟨e, -, -, hkey⟩ hnil
      exact List.not_mem_nil (hnil ▸ hkey)
    · intro hsome
      obtain ⟨key, hkey⟩ := List.exists_mem_of_ne_nil _ hsome
      obtain ⟨e, he, rfl⟩ := mem_keys_resolveCalls.mpr ⟨c, hc, hkey⟩
      obtain ⟨x, -, hx⟩ := List.mem_map.mp hkey
      exact ⟨e, he, (congrArg CallKey.caller hx).symm, hkey⟩
  · obtain ⟨before, c, after, hall, hmem, hbefore⟩ := exists_first_call he
    obtain ⟨x, hx, rfl⟩ := List.mem_map.mp hmem
    exact ⟨before, c, after, hall, rfl, List.mem_map.mpr ⟨x, hx, rfl⟩, rfl, hbefore⟩

/-- A function that calls by name, with the lines of its calls. -/
def callingFunction (name : String) (line : Nat) (sites : List (String × Nat)) : FunctionDecl :=
  ⟨name, "func " ++ name ++ "()", "", false, [], [], .unexported, ⟨line, line + sites.length + 1⟩, 1,
    sites.map fun (callee, line) => ⟨callee, none, none, .direct, line⟩⟩

/-- Two files of one package with an `init` each: the first one converts to the struct `T`, and both
call `open`. -/
def starts : Package :=
  ⟨".", "main", "",
    [⟨"a.go", "main", [],
      [callingFunction "init" 5 [("T", 6), ("open", 7)], callingFunction "open" 10 []],
      [⟨"T", .struct, .exported, ⟨3, 3⟩, [], [], []⟩], [], "", 11⟩,
    ⟨"b.go", "main", [], [callingFunction "init" 3 [("open", 4)]], [], [], "", 5⟩]⟩

/-- The conversion has no edge, and the edge of both functions has the line of the first call. -/
theorem calls_account_for_starts :
    let p : Project := ⟨"/p", none, [starts], []⟩
    let report := Report.found {} p
    (Report.ofProject {} p).outcome .never = .ok report ∧ (p.packages.map (·.importPath)).Nodup ∧
      (callsOf p.packages).map (·.site.line) = [6, 7, 4] ∧
      (∀ c ∈ callsOf p.packages, c.site.line = 6 → c.site.Converts p.packages c.package.importPath) ∧
      ∃ e ∈ report.calls, e.key = ⟨⟨".", none, "init"⟩, .resolved ⟨".", none, "open"⟩, .direct⟩ ∧
        e.line = 7 := by
  intro p report
  have hreport : (Report.ofProject {} p).outcome .never = .ok report :=
    Report.ofProject_never p (by decide)
  have hpaths : (p.packages.map (·.importPath)).Nodup := by decide
  obtain ⟨hsites, hfirst, -⟩ := Report.calls_account_for_sites hreport hpaths
  rw [show SymbolTable.ofProject p = ⟨[starts]⟩ from SymbolTable.ofPackages_singleton starts]
    at hsites hfirst
  let first : FunctionDecl := callingFunction "init" 5 [("T", 6), ("open", 7)]
  let toT : Call := ⟨starts, first, ⟨"T", none, none, .direct, 6⟩⟩
  let toOpen : Call := ⟨starts, first, ⟨"open", none, none, .direct, 7⟩⟩
  let toOpenAgain : Call :=
    ⟨starts, callingFunction "init" 3 [("open", 4)], ⟨"open", none, none, .direct, 4⟩⟩
  have hcalls : callsOf p.packages = [toT, toOpen, toOpenAgain] := rfl
  rw [hcalls] at hsites hfirst ⊢
  let key : CallKey := ⟨⟨".", none, "init"⟩, .resolved ⟨".", none, "open"⟩, .direct⟩
  let r : Resolver := ⟨⟨[starts]⟩, report.implementations, true⟩
  have hnone : r.callKeys toT = [] := rfl
  have hkeys : r.callKeys toOpen = [key] := rfl
  have hconverts : toT.site.Converts p.packages toT.package.importPath :=
    (Resolver.resolve_eq_nil_iff (r := ⟨.ofPackages [starts], [], true⟩) rfl hpaths
      ⟨starts, List.mem_singleton_self _, rfl⟩ _).mp
      (by rw [SymbolTable.ofPackages_singleton]; rfl)
  have hcall : ¬toOpen.site.Converts p.packages toOpen.package.importPath := by
    rintro ⟨-, k, hk, -, hfunctions, -⟩
    obtain rfl := List.mem_singleton.mp hk
    exact hfunctions (callingFunction "open" 10 []) (by decide) rfl rfl
  obtain ⟨e, he, -, hkey⟩ := (hsites toOpen (by simp)).mpr hcall
  have hekey : e.key = key := List.mem_singleton.mp (hkeys ▸ hkey)
  refine ⟨hreport, hpaths, rfl, ?_, e, he, hekey, ?_⟩
  · intro c hc hline
    rcases List.mem_cons.mp hc with rfl | hc
    · exact hconverts
    · rcases List.mem_pair.mp hc with rfl | rfl <;> cases hline
  · obtain ⟨before, c, after, hall, -, hc, hline, hbefore⟩ := hfirst e he
    rw [hline]
    match before with
    | [] =>
      obtain ⟨rfl, -⟩ := List.cons.inj hall
      rw [hnone] at hc
      cases hc
    | [_] =>
      obtain ⟨-, hrest⟩ := List.cons.inj hall
      obtain ⟨rfl, -⟩ := List.cons.inj hrest
      rfl
    | _ :: _ :: _ =>
      obtain ⟨-, hrest⟩ := List.cons.inj hall
      obtain ⟨rfl, -⟩ := List.cons.inj hrest
      exact absurd hkey (hbefore toOpen (by simp))

end CodeGraph
