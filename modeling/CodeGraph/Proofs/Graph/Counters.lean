import CodeGraph.Proofs.Graph.Nodes
import Mathlib.Algebra.BigOperators.Group.List.Basic

/-!
# Calls that lead to no node

* `Graph.unresolvedCalls`, `Graph.externalCalls` — what functions and methods say of calls without a
  node to point at, all together.
* `declaredFunctions` — all functions of a project, as often as they are declared.
* `Directory.map_filter_isCallable` — every declaration of a function says what the calls of the
  function are.
* `Directory.exists_callLink` — a call that leads to an import is linked, if only by another call of
  the same function.
* `Graph.exists_joining_calls` — so it has a relationship.
* `Graph.counters_by_declaration` — the main result: a call counts once for every declaration of its
  caller.
-/

namespace CodeGraph

open Hash (Uuid)

/-! ### Counting -/

theorem sum_map_ite_eq_count {α : Type} [DecidableEq α] (a : α) (as : List α) :
    (as.map fun b => if a = b then 1 else 0).sum = as.count a := by
  induction as with
  | nil => rfl
  | cons b as ih =>
    rw [List.map_cons, List.sum_cons, ih, List.count_cons, Nat.add_comm]
    by_cases h : a = b
    · simp [h]
    · simp [h, Ne.symm h]

/-- Counting for every key what belongs to it is counting for everything how often its key is there. -/
theorem sum_countP_owner {β κ : Type} [DecidableEq κ] (owner : β → κ) (select : β → Bool)
    (keys : List κ) (bs : List β) :
    (keys.map fun k => bs.countP fun b => owner b = k && select b).sum =
      ((bs.filter select).map fun b => keys.count (owner b)).sum := by
  induction bs with
  | nil => simp
  | cons b bs ih =>
    simp only [List.countP_cons, List.sum_map_add, ih]
    cases hselect : select b with
    | false => simp [hselect]
    | true => simp [hselect, sum_map_ite_eq_count, Nat.add_comm]

/-- Figures that are not zero add up to their number exactly if each is one. -/
theorem sum_eq_length_iff {α : Type} {f : α → Nat} {as : List α} (h : ∀ a ∈ as, 1 ≤ f a) :
    (as.map f).sum = as.length ↔ ∀ a ∈ as, f a = 1 := by
  induction as with
  | nil => simp
  | cons a as ih =>
    obtain ⟨ha, hrest⟩ := List.forall_mem_cons.mp h
    have hle : (as.map f).length ≤ (as.map f).sum :=
      List.length_le_sum_of_one_le _ (List.forall_mem_map.mpr hrest)
    rw [List.length_map] at hle
    rw [List.map_cons, List.sum_cons, List.length_cons, List.forall_mem_cons, ← ih hrest]
    omega

/-! ### Functions and their calls -/

/-- All functions of packages, each as often as it is declared. -/
def declaredFunctions (ps : List Package) : List FunctionId :=
  ps.flatMap fun k => k.functions.map (.ofDecl k.importPath)

theorem mem_declaredFunctions {ps : List Package} {id : FunctionId} :
    id ∈ declaredFunctions ps ↔ Declared ps id := by
  simp only [declaredFunctions, Package.functions, List.mem_flatMap, List.mem_map, Declared]
  constructor
  · rintro ⟨k, hk, f, ⟨file, hfile, hf⟩, hid⟩
    exact ⟨k, hk, file, hfile, f, hf, hid⟩
  · rintro ⟨k, hk, file, hfile, f, hf, hid⟩
    exact ⟨k, hk, f, ⟨file, hfile, hf⟩, hid⟩

/-- The target of a call was not found. -/
def CallTarget.isUnresolved : CallTarget → Bool
  | unresolved _ _ => true
  | _ => false

/-- Number of calls to the outside that a node says to have no node to point at. -/
def NodeProperties.externalCalls : NodeProperties → Nat
  | function q => q.externalCalls
  | _ => 0

/-- Number of calls that a node says to have no target. -/
def NodeProperties.unresolvedCalls : NodeProperties → Nat
  | function q => q.unresolvedCalls
  | _ => 0

/-- The function that a node stands for. -/
def GraphNode.functionId? (n : GraphNode) : Option FunctionId :=
  match n.properties with
  | .function q => some ⟨q.package, q.receiver, n.name⟩
  | _ => none

namespace Directory

variable {d : Directory} {ids : Identities} {id : FunctionId} {x : Draft}

/-- A call leads outside to an import path without a node. -/
def leavesOut (d : Directory) : CallTarget → Bool
  | .external path _ => (d.import? path).isNone
  | _ => false

theorem drafts_filter_isCallable (d : Directory) :
    d.drafts.filter (·.label.isCallable) = d.slots.flatMap d.functionDrafts := by
  have hdeclared (label : NodeType) (h : label.isCallable = true) : label.isDeclared = true := by
    cases label <;> first | rfl | cases h
  have hfunctions (s : FileSlot) :
      (d.functionDrafts s).filter (·.label.isCallable) = d.functionDrafts s :=
    List.filter_eq_self.mpr <| List.forall_mem_map.mpr fun u _ => isCallable_functionDraft s u.1 u.2
  have hothers (s : FileSlot) :
      (d.typeDrafts s ++ s.valueDrafts).filter (·.label.isCallable) = [] :=
    List.filter_eq_nil_iff.mpr fun x hx => by
      rw [isCallable_of_mem_typeDrafts hx]
      exact Bool.false_ne_true
  rw [drafts_filter_declared hdeclared]
  simp only [hothers, hfunctions, flatMap_none, List.nil_append]

/-- Every declaration of a function says what the calls of the function are. -/
theorem map_filter_isCallable {β : Type} (figure : Draft → β) (of : FunctionId → β)
    (h : ∀ s f i, figure (d.functionDraft s f i) = of (s.functionId f)) :
    (d.drafts.filter (·.label.isCallable)).map figure =
      (declaredFunctions d.project.packages).map of := by
  have hslot (s : FileSlot) : (d.functionDrafts s).map figure =
      s.file.functions.map fun f => of (.ofDecl s.package.importPath f) := by
    rw [functionDrafts, List.map_map]
    show s.functions.map (fun u => figure (d.functionDraft s u.1 u.2)) = _
    simp only [h]
    exact map_zipIdx_fst (fun f => of (s.functionId f)) s.file.functions
  rw [drafts_filter_isCallable, List.map_flatMap]
  simp only [hslot]
  rw [slots, Project.flatMap_slots fun k file =>
    file.functions.map fun f => of (.ofDecl k.importPath f), declaredFunctions, List.map_flatMap]
  refine List.flatMap_congr fun k _ => ?_
  rw [Package.functions, List.map_map, List.map_flatMap]
  rfl

/-- A call that leads to an import is linked, unless its ends were known. -/
theorem exists_callLink (ids : Identities) {known : List (Uuid × Uuid)} {calls : List CallEdge} {e : CallEdge}
    {path name : String} {source target : Draft} (he : e ∈ calls)
    (hsource : d.function? e.caller = some source) (htarget : e.target = .external path name)
    (himport : d.import? path = some target) :
    (ids.node source, ids.node target) ∈ known ∨
      ∃ l ∈ d.callLinks ids known calls,
        ids.node l.source = ids.node source ∧ ids.node l.target = ids.node target := by
  induction calls generalizing known with
  | nil => cases he
  | cons first rest ih =>
    rcases List.mem_cons.mp he with rfl | he
    · rw [callLinks]
      simp only [hsource, htarget, himport]
      by_cases hknown : (ids.node source, ids.node target) ∈ known
      · exact Or.inl hknown
      · rw [if_neg fun h => hknown (List.contains_iff_mem.mp h)]
        exact Or.inr ⟨_, List.mem_cons_self, rfl, rfl⟩
    · rw [callLinks]
      dsimp only
      split
      next =>
        refine (ih he).imp_right ?_
        rintro ⟨l, hl, hends⟩
        exact ⟨l, List.mem_append_right _ hl, hends⟩
      next caller path' _ _ _ =>
        split
        next target' _ =>
          split
          next => exact ih he
          next =>
            -- the ends that are known from here on are those of the first link
            rcases @ih ((ids.node caller, ids.node target') :: known) he with h | ⟨l, hl, hends⟩
            · rcases List.mem_cons.mp h with h | h
              · obtain ⟨hcaller, htarget'⟩ := Prod.mk.inj h
                exact Or.inr ⟨_, List.mem_cons_self, hcaller.symm, htarget'.symm⟩
              · exact Or.inl h
            · exact Or.inr ⟨l, List.mem_cons_of_mem _ hl, hends⟩
        next => exact ih he
      next => exact ih he

/-- Unresolved calls are counted once, whoever makes them. -/
theorem unresolvedCount_eq (h : ∀ e ∈ d.report.calls, Declared d.project.packages e.caller) :
    d.unresolvedCount = (d.report.calls.filter (·.target.isUnresolved)).length := by
  rw [← List.countP_eq_length_filter, unresolvedCount]
  refine List.countP_congr fun e he => ?_
  obtain ⟨x, hx⟩ := exists_function? (h e he)
  rw [hx, Option.isSome_some, Bool.true_and]
  exact Iff.rfl

end Directory

/-! ### Graphs -/

namespace Graph

/-- What functions and methods say of calls to the outside that have no node to point at. -/
def externalCalls (g : Graph) : Nat :=
  ((g.nodes.filter (·.label.isCallable)).map (·.properties.externalCalls)).sum

/-- What functions and methods say of calls without a target. -/
def unresolvedCalls (g : Graph) : Nat :=
  ((g.nodes.filter (·.label.isCallable)).map (·.properties.unresolvedCalls)).sum

/-- A graph has a node for an import path. -/
def hasImport (g : Graph) (path : String) : Bool :=
  g.nodes.any fun n => n.label = .importPath && n.name = path

/-- A call leads outside to an import path without a node. -/
def leavesOut (g : Graph) : CallTarget → Bool
  | .external path _ => !g.hasImport path
  | _ => false

variable {ids : Identities} {now : Instant} {projectId : String} {p : Project} {r : Report}

theorem hasImport_iff {path : String} : (ofReport ids now projectId p r).hasImport path = true ↔
    Directory.import? ⟨projectId, p, r⟩ path = some (importDraft path) := by
  rw [hasImport, List.any_eq_true]
  simp only [Bool.and_eq_true, decide_eq_true_eq]
  constructor
  · rintro ⟨n, hn, hlabel, rfl⟩
    obtain ⟨x, hx, rfl⟩ := mem_nodes_ofReport.mp hn
    obtain ⟨path, hpath, rfl⟩ := Directory.exists_import_draft (Directory.mem_drafts.mp hx) hlabel
    exact if_pos (List.contains_iff_mem.mpr hpath)
  · intro h
    exact ⟨_, node_mem_ofReport (Directory.holds_of_import? h), rfl, rfl⟩

theorem leavesOut_ofReport : (ofReport ids now projectId p r).leavesOut =
    Directory.leavesOut ⟨projectId, p, r⟩ := by
  funext target
  cases target with
  | external path name =>
    show (!(ofReport ids now projectId p r).hasImport path) = (Directory.import? _ path).isNone
    rw [← Option.not_isSome]
    refine congrArg not (Bool.eq_iff_iff.mpr (hasImport_iff.trans ?_))
    constructor
    · intro h
      rw [h]
      rfl
    · intro h
      obtain ⟨x, hx⟩ := Option.isSome_iff_exists.mp h
      rw [hx, (Directory.import?_eq_some hx).2]
  | resolved f => rfl
  | unresolved name reason => rfl

/-- What functions say of their calls, all together: a call counts for every declaration of its
caller. -/
theorem sum_callable {figure : NodeProperties → Nat} (select : CallTarget → Bool)
    (h : ∀ s f i, figure (Directory.functionDraft ⟨projectId, p, r⟩ s f i).properties =
      r.calls.countP fun e => e.caller = s.functionId f && select e.target) :
    (((ofReport ids now projectId p r).nodes.filter (·.label.isCallable)).map
        (figure ·.properties)).sum =
      ((r.calls.filter (select ·.target)).map fun e =>
        (declaredFunctions p.packages).count e.caller).sum := by
  let d : Directory := ⟨projectId, p, r⟩
  have hnodes : ((ofReport ids now projectId p r).nodes.filter (·.label.isCallable)).map
      (figure ·.properties) = (d.drafts.filter (·.label.isCallable)).map (figure ·.properties) := by
    rw [nodes_ofReport, List.filter_map, List.map_map]
    rfl
  have hfigures := Directory.map_filter_isCallable (d := d) (fun x => figure x.properties)
    (fun id => r.calls.countP fun e => e.caller = id && select e.target) h
  rw [hnodes, hfigures]
  exact sum_countP_owner CallEdge.caller (fun e => select e.target) _ _

/-- A call that leads to an import path with a node has a relationship, if only by another call of the
same function. -/
theorem exists_joining_calls {e : CallEdge} {path name : String} (he : e ∈ r.calls)
    (hcaller : Declared p.packages e.caller) (htarget : e.target = .external path name)
    (hpath : (ofReport ids now projectId p r).hasImport path = true) :
    ∃ a ∈ (ofReport ids now projectId p r).nodes, a.functionId? = some e.caller ∧
      ∃ b ∈ (ofReport ids now projectId p r).nodes, b.label = .importPath ∧ b.name = path ∧
        (ofReport ids now projectId p r).joining .calls a b ≠ [] := by
  let d : Directory := ⟨projectId, p, r⟩
  have himport := hasImport_iff.mp hpath
  obtain ⟨source, hsource⟩ := Directory.exists_function? (d := d) hcaller
  refine ⟨source.node ids projectId now, node_mem_ofReport (Directory.holds_of_function? hsource),
    Directory.functionId_of_function? hsource, (importDraft path).node ids projectId now,
    node_mem_ofReport (Directory.holds_of_import? himport), rfl, rfl, ?_⟩
  obtain ⟨l, hl, hlsource, hltarget⟩ :=
    (Directory.exists_callLink ids he hsource htarget himport).resolve_left List.not_mem_nil
  have hlink : l ∈ d.links ids := List.mem_append_right _ hl
  obtain ⟨x, hx, hmade⟩ := exists_made ids now projectId p r hlink
  have hlabel : x.label = .calls := hmade.label.trans (Directory.callLinks_labels ids [] _ l hl)
  refine List.ne_nil_of_mem (List.mem_filter.mpr ⟨hx, decide_eq_true ⟨hlabel, ?_, ?_⟩⟩)
  · exact hmade.source.trans hlsource
  · exact hmade.target.trans hltarget

/-- **A call without a node to point at counts once for every declaration of its caller.**  Whatever
the settings of the analysis, the summary counts the calls without a target once each.  What functions
and methods say of them, and of calls that lead to an import path without a node, counts each call as
often as its caller is declared; so it adds up to the number of those calls exactly if every function
that makes one is declared once.  All other calls that lead outside have a relationship, from a node
of the caller to that of the import path. -/
theorem counters_by_declaration {settings : AnalysisSettings} {signal : Signal}
    (hreport : (Report.ofProject settings p).outcome signal = .ok r)
    (ids : Identities) (now : Instant) (projectId : String) :
    let g := ofReport ids now projectId p r
    let declarations := declaredFunctions p.packages
    let unresolved := r.calls.filter (·.target.isUnresolved)
    let outside := r.calls.filter (g.leavesOut ·.target)
    g.summary.unresolvedCalls = unresolved.length ∧
      (g.unresolvedCalls = (unresolved.map fun e => declarations.count e.caller).sum ∧
        (g.unresolvedCalls = unresolved.length ↔
          ∀ e ∈ unresolved, declarations.count e.caller = 1)) ∧
      (g.externalCalls = (outside.map fun e => declarations.count e.caller).sum ∧
        (g.externalCalls = outside.length ↔ ∀ e ∈ outside, declarations.count e.caller = 1)) ∧
      ∀ e ∈ r.calls, ∀ path name, e.target = .external path name → g.hasImport path →
        ∃ a ∈ g.nodes, a.functionId? = some e.caller ∧
          ∃ b ∈ g.nodes, b.label = .importPath ∧ b.name = path ∧ g.joining .calls a b ≠ [] := by
  intro g declarations unresolved outside
  let d : Directory := ⟨projectId, p, r⟩
  have hcallers : ∀ e ∈ r.calls, Declared p.packages e.caller := by
    rw [Report.ofProject_eq_ok hreport]
    exact fun e he => (declared_of_mem_resolveCalls rfl he).1
  have hdeclared {select : CallEdge → Bool} :
      ∀ e ∈ r.calls.filter select, 1 ≤ declarations.count e.caller := fun e he =>
    List.count_pos_iff.mpr (mem_declaredFunctions.mpr (hcallers e (List.mem_filter.mp he).1))
  have hunresolved : g.unresolvedCalls =
      (unresolved.map fun e => declarations.count e.caller).sum := by
    refine sum_callable CallTarget.isUnresolved fun s f i => ?_
    rfl
  have hexternal : g.externalCalls = (outside.map fun e => declarations.count e.caller).sum := by
    refine sum_callable g.leavesOut fun s f i => ?_
    rw [show g.leavesOut = d.leavesOut from leavesOut_ofReport]
    rfl
  have hsummary : g.summary.unresolvedCalls = d.unresolvedCount := congrArg _ summary_ofReport
  refine ⟨hsummary.trans (Directory.unresolvedCount_eq hcallers), ⟨hunresolved, ?_⟩,
    ⟨hexternal, ?_⟩, ?_⟩
  · rw [hunresolved]
    exact sum_eq_length_iff hdeclared
  · rw [hexternal]
    exact sum_eq_length_iff hdeclared
  · intro e he path name htarget hpath
    exact exists_joining_calls he (hcallers e he) htarget hpath

/-! ### Two initial functions -/

def initText : String :=
  "package a\n\nfunc init() \x7b\n\tprintln()\n\tf := func() \x7b\x7d\n\tf()\n\x7d\n\n" ++
    "func init() \x7b\n\x7d\n"

/-- A package may declare any number of initial functions. -/
def initTree : FileTree :=
  .folder [("p", .folder [("go.mod", .file (Text.Utf8.encode "module m\n")),
    ("a.go", .file (Text.Utf8.encode initText))])]

/-- An initial function between two lines. -/
def initFunction (first last : Nat) (calls : List CallSite) : FunctionDecl :=
  ⟨"init", "func init()", "", false, [], [], .unexported, ⟨first, last⟩, 1, calls⟩

def initFile : SourceFile :=
  { path := "a.go", package := "a", imports := []
    functions := [initFunction 3 7 [⟨"println", none, none, .direct, 4⟩,
      ⟨"f", none, none, .dynamic, 6⟩], initFunction 9 10 []]
    types := [], values := []
    contentHash := "d4dc0931ab2cf172094b0f2e9b6def78649d2967943f5cc2494cf0482b0ead41"
    lineCount := 10 }

def initPackage : Package := ⟨"m", "a", "", [initFile]⟩

/-- The calls of its first initial function; the second has none. -/
def initCalls : List CallEdge :=
  [⟨⟨"m", none, "init"⟩, .external "builtin" "println", .direct, false, 4⟩,
    ⟨⟨"m", none, "init"⟩, .unresolved "f" "call through a function value", .dynamic, false, 6⟩]

theorem exists_read_initTree : ∃ p,
    (Project.read Languages.standard {} initTree "/p").outcome .never = .ok p ∧
      p.packages = [initPackage] := by
  have hfile : readSource Languages.standard (["a.go"], .ok (Text.Utf8.encode initText)) = .ok initFile := by
    decide +kernel
  obtain ⟨p, hread, hpackages⟩ := Project.exists_read_source Languages.standard {} initTree
    (["a.go"], .ok (Text.Utf8.encode initText)) rfl (by decide) rfl (by decide +kernel) hfile (by decide)
  refine ⟨p, hread, hpackages.trans ?_⟩
  decide +kernel

theorem resolveCalls_initPackage {r : Resolver} (hr : r.symbols = .ofPackages [initPackage]) :
    resolveCalls r [initPackage] = initCalls := by
  obtain ⟨symbols, implementations, dispatch⟩ := r
  rw [SymbolTable.ofPackages_singleton] at hr
  subst hr
  have hcalls : ([initPackage].flatMap fun k => k.functions.flatMap
      (Resolver.edgesOf ⟨⟨[initPackage]⟩, implementations, dispatch⟩ k.importPath)) = initCalls := rfl
  rw [resolveCalls, hcalls, sortedBy, List.mergeSort_of_pairwise (by decide)]
  decide

/-- Both initial functions are said to make the calls of the first one. -/
theorem counters_by_declaration_init : ∃ p,
    (Project.read Languages.standard {} initTree "/p").outcome .never = .ok p ∧
      (Report.ofProject {} p).outcome .never = .ok (Report.found {} p) ∧
      (Report.found {} p).calls = initCalls ∧
      ∀ (ids : Identities) (now : Instant) (projectId : String),
        let g := ofReport ids now projectId p (Report.found {} p)
        g.summary.unresolvedCalls = 1 ∧ g.unresolvedCalls = 2 ∧
          (initCalls.filter (g.leavesOut ·.target)).length = 1 ∧ g.externalCalls = 2 := by
  obtain ⟨p, hread, hpackages⟩ := exists_read_initTree
  have hreport : (Report.ofProject {} p).outcome .never = .ok (Report.found {} p) :=
    Report.ofProject_never p (by decide)
  have hcalls : (Report.found {} p).calls = initCalls := by
    show resolveCalls _ p.packages = _
    rw [hpackages]
    refine resolveCalls_initPackage ?_
    rw [SymbolTable.ofProject, hpackages]
  refine ⟨p, hread, hreport, hcalls, fun ids now projectId => ?_⟩
  intro g
  have hdeclarations : declaredFunctions p.packages = [⟨"m", none, "init"⟩, ⟨"m", none, "init"⟩] := by
    rw [hpackages]
    rfl
  obtain ⟨hsummary, ⟨hunresolved, -⟩, ⟨hexternal, -⟩, -⟩ :=
    counters_by_declaration hreport ids now projectId
  have hnone : g.hasImport "builtin" = false := by
    refine Bool.eq_false_iff.mpr fun h => ?_
    obtain ⟨hmem, -⟩ := Directory.import?_eq_some (hasImport_iff.mp h)
    obtain ⟨⟨s, hs, i, hi, -⟩, -⟩ := Directory.mem_importPaths.mp hmem
    have hfile := List.mem_map_of_mem (f := FileSlot.file) hs
    rw [show (Directory.slots ⟨projectId, p, Report.found {} p⟩) = p.slots from rfl,
      Project.map_file_slots, hpackages] at hfile
    rw [show s.file = initFile from List.mem_singleton.mp hfile] at hi
    cases hi
  have houtside : initCalls.filter (g.leavesOut ·.target) =
      [⟨⟨"m", none, "init"⟩, .external "builtin" "println", .direct, false, 4⟩] := by
    simp [initCalls, leavesOut, hnone]
  refine ⟨?_, ?_, ?_, ?_⟩
  · rw [hsummary, hcalls]
    rfl
  · rw [hunresolved, hcalls, hdeclarations]
    decide
  · rw [houtside]
    rfl
  · rw [hexternal, hcalls, houtside, hdeclarations]
    decide

end Graph

end CodeGraph
