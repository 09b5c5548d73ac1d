import CodeGraph.Proofs.Calls.Resolution
import CodeGraph.Proofs.Graph.Keys
import CodeGraph.Proofs.Graph.Relationships
import CodeGraph.Proofs.Report.Basic

/-!
# The relationships of calls

* `Directory.held_package` — the symbol table holds the package of every file.
* `Directory.declaration?_of_function?` — the node of a function is made of the declaration that the
  symbol table holds.
* `Directory.TellsHeadings` — identifiers tell the label, qualified name, path and line of nodes.
* `Directory.forall₂_callLinks` — calls within the project are linked one for one.
* `Graph.calls_one_for_one` — the main result.
-/

namespace CodeGraph

open Hash (Uuid)

/-- The labels of functions and methods. -/
def NodeType.isCallable : NodeType → Bool
  | .function | .method => true
  | _ => false

namespace Directory

variable {d : Directory} {id : FunctionId} {x : Draft}

/-! ### Which declaration a function goes by -/

/-- All declarations of functions, with their slots and their places. -/
def declarations (d : Directory) : List (FileSlot × FunctionDecl × Nat) := d.inSlots FileSlot.functions

/-- A function is found as its first declaration. -/
theorem function?_eq_find? (d : Directory) (id : FunctionId) :
    d.function? id = (d.declarations.find? fun u => u.1.functionId u.2.1 = id).map fun u =>
      d.functionDraft u.1 u.2.1 u.2.2 :=
  findSome?_inSlots (fun s (u : FunctionDecl × Nat) => s.functionId u.1 = id) fun s u =>
    d.functionDraft s u.1 u.2

/-- Where import paths are distinct, the symbol table holds the package of every file. -/
theorem held_package (hpaths : (d.project.packages.map (·.importPath)).Nodup) {s : FileSlot}
    (hs : s ∈ d.slots) :
    (SymbolTable.ofProject d.project).package? s.package.importPath = some s.package :=
  (SymbolTable.package?_eq_some hpaths).mpr ⟨(Project.mem_of_mem_slots hs).1, rfl⟩

/-- The node of a function is made of the declaration that the symbol table holds. -/
theorem declaration?_of_function? (hpaths : (d.project.packages.map (·.importPath)).Nodup)
    (h : d.function? id = some x) : ∃ s ∈ d.slots, ∃ f i, (f, i) ∈ s.functions ∧
      x = d.functionDraft s f i ∧
      (SymbolTable.ofProject d.project).declaration? id = some (f, s.file) := by
  rw [function?_eq_find?] at h
  obtain ⟨⟨s, f, i⟩, hfind, rfl⟩ := Option.map_eq_some_iff.mp h
  obtain ⟨hs, hf⟩ := mem_inSlots.mp (List.mem_of_find?_eq_some hfind)
  refine ⟨s, hs, f, i, hf, rfl, ?_⟩
  -- the first declaration of all is the first one of its package
  have hfirst := find?_package_of_inSlots SourceFile.functions
    (fun k f => FunctionId.ofDecl k.importPath f = id) hfind
  have hid : s.functionId f = id := by simpa using List.find?_some hfind
  subst hid
  show ((SymbolTable.ofProject d.project).package? s.package.importPath).bind _ = _
  rw [held_package hpaths hs]
  exact hfirst

/-- Every declared function has a node. -/
theorem exists_function? (h : Declared d.project.packages id) : ∃ x, d.function? id = some x := by
  obtain ⟨k, hk, file, hfile, f, hf, hid⟩ := h
  obtain ⟨u, hfind⟩ := exists_find?_inSlots (d := d) SourceFile.functions
    (fun k f => FunctionId.ofDecl k.importPath f = id) hk hfile hf (decide_eq_true hid)
  rw [function?_eq_find?]
  exact ⟨_, congrArg (Option.map _) hfind⟩

/-! ### Which nodes are functions -/

theorem isCallable_functionDraft (s : FileSlot) (f : FunctionDecl) (i : Nat) :
    (d.functionDraft s f i).label.isCallable = true := by
  rw [functionDraft, FileSlot.functionDraft]
  cases f.isMethod <;> rfl

theorem isCallable_function? (h : d.function? id = some x) : x.label.isCallable = true := by
  obtain ⟨s, -, f, i, -, -, rfl⟩ := function?_eq_some h
  exact isCallable_functionDraft s f i

/-- What else files declare is no function. -/
theorem isCallable_of_mem_typeDrafts {s : FileSlot} (hx : x ∈ d.typeDrafts s ++ s.valueDrafts) :
    x.label.isCallable = false := by
  simp only [typeDrafts, FileSlot.valueDrafts, FileSlot.fieldDrafts, List.mem_append,
    List.mem_flatMap, List.mem_cons, List.mem_map, Prod.exists] at hx
  rcases hx with ⟨t, i, -, rfl | ⟨field, y, ⟨f, j, -, hy⟩, rfl⟩⟩ | ⟨v, i, -, rfl⟩
  · rw [FileSlot.typeDraft]
    cases t.form <;> rfl
  · rw [← (Prod.mk.inj hy).2]
    rfl
  · cases v.form <;> rfl

/-- Nodes with the label of a function are made of one. -/
theorem exists_functionDraft (hx : d.Holds x) (hlabel : x.label.isCallable = true) :
    ∃ s ∈ d.slots, ∃ f i, (f, i) ∈ s.functions ∧ x = d.functionDraft s f i := by
  cases hx with
  | root => cases hlabel
  | package hk => cases hlabel
  | file hs => cases hlabel
  | importPath hpath => cases hlabel
  | @declared s x hs hx =>
    rcases List.mem_append.mp hx with hx | hx
    · rw [isCallable_of_mem_typeDrafts hx] at hlabel
      cases hlabel
    · obtain ⟨⟨f, i⟩, hf, rfl⟩ := List.mem_map.mp hx
      exact ⟨s, hs, f, i, hf, rfl⟩

/-! ### Links of calls -/

/-- A link stands for a call within the project. -/
structure LinksCall (d : Directory) (e : CallEdge) (l : Link) : Prop where
  caller : d.function? e.caller = some l.source
  callee : ∃ f, e.target = .resolved f ∧ d.function? f = some l.target
  properties : l.properties = .calls e.kind e.line e.nameMatched

/-- Calls within the project are linked one for one. -/
theorem forall₂_callLinks (ids : Identities) (known : List (Uuid × Uuid)) {calls : List CallEdge}
    (hdeclared : ∀ e ∈ calls, Declared d.project.packages e.caller ∧
      ∀ f, e.target = .resolved f → Declared d.project.packages f) :
    List.Forall₂ d.LinksCall (calls.filter (·.target.function?.isSome))
      ((d.callLinks ids known calls).filter (·.target.label.isCallable)) := by
  -- the known ends only decide on calls that leave the project
  induction calls generalizing known with
  | nil =>
    rw [callLinks]
    exact List.Forall₂.nil
  | cons e rest ih =>
    obtain ⟨⟨hcaller, hcallee⟩, hrest⟩ := List.forall_mem_cons.mp hdeclared
    obtain ⟨caller, hcaller⟩ := exists_function? hcaller
    rw [callLinks]
    simp only [hcaller]
    cases htarget : e.target with
    | resolved f =>
      obtain ⟨callee, hfound⟩ := exists_function? (hcallee f htarget)
      have hlink : d.LinksCall e ⟨caller, callee, .calls e.kind e.line e.nameMatched⟩ :=
        ⟨hcaller, ⟨f, htarget, hfound⟩, rfl⟩
      simp only [hfound, Option.toList_some, List.map_singleton, List.singleton_append]
      rw [List.filter_cons_of_pos (by rw [htarget]; rfl)]
      simp only [List.filter_cons, isCallable_function? hfound, if_true]
      exact List.Forall₂.cons hlink (ih known hrest)
    | external package name =>
      rw [List.filter_cons_of_neg (by rw [htarget]; exact Bool.false_ne_true)]
      dsimp only
      split
      next target himport =>
        split
        · exact ih known hrest
        · obtain ⟨-, rfl⟩ := import?_eq_some himport
          rw [List.filter_cons_of_neg Bool.false_ne_true]
          exact ih _ hrest
      next => exact ih known hrest
    | unresolved name reason =>
      rw [List.filter_cons_of_neg (by rw [htarget]; exact Bool.false_ne_true)]
      exact ih known hrest

/-! ### Identifiers -/

/-- Identifiers tell the label, qualified name, path and line of nodes. -/
def TellsHeadings (d : Directory) (ids : Identities) : Prop :=
  ∀ x ∈ d.drafts, ∀ y ∈ d.drafts, ids.node x = ids.node y → x.heading = y.heading

theorem tellsHeadings_contentAddressed (hplain : ∀ x ∈ d.drafts, x.Plain)
    (happart : Identities.TellsApart d.nodeNames) :
    d.TellsHeadings (.contentAddressed d.projectId) :=
  fun _ hx _ hy h => (node_eq_iff hplain happart hx hy).mp h

end Directory

/-! ### Graphs -/

/-- A node is made of the declaration of a function. -/
structure GraphNode.Declares (n : GraphNode) (f : FunctionDecl) (file : SourceFile) : Prop where
  label : n.label = if f.isMethod then .method else .function
  name : n.name = f.name
  path : n.path = some file.path
  properties : ∃ q, n.properties = .function q ∧ q.file = file.path ∧ q.span = f.span ∧
    q.signature = f.signature

/-- A node is a function that a file declares on a line. -/
structure GraphNode.DeclaredAt (n : GraphNode) (file : String) (line : Nat) : Prop where
  path : n.path = some file
  properties : ∃ q, n.properties = .function q ∧ q.file = file ∧ q.span.first = line

namespace Graph

/-- An end of a relationship is the node of a declaration: there is such a node, and there are none of
functions that are declared elsewhere. -/
structure EndsAt (g : Graph) (u : Uuid) (f : FunctionDecl) (file : SourceFile) : Prop where
  node : ∃ n ∈ g.nodes, n.id = u ∧ n.Declares f file
  only : ∀ n ∈ g.nodes, n.id = u → n.DeclaredAt file.path f.span.first

/-- An end of a relationship is the node of what the symbol table holds for a function. -/
def EndsAtHeld (g : Graph) (t : SymbolTable) (id : FunctionId) (u : Uuid) : Prop :=
  ∃ f file, t.function? id = some f ∧ t.declaration? id = some (f, file) ∧ g.EndsAt u f file

/-- A relationship stands for a call within the project. -/
structure CarriesCall (g : Graph) (t : SymbolTable) (e : CallEdge) (x : GraphRelationship) :
    Prop where
  caller : g.EndsAtHeld t e.caller x.source
  callee : ∃ f, e.target = .resolved f ∧ g.EndsAtHeld t f x.target
  properties : x.properties = .calls e.kind e.line e.nameMatched

/-- The relationships of calls that end at a function or a method. -/
def callsWithin (g : Graph) : List GraphRelationship :=
  (g.relationships.filter (·.label = .calls)).filter fun x =>
    g.nodes.any fun n => n.id = x.target && n.label.isCallable

variable {ids : Identities} {now : Instant} {projectId : String} {p : Project} {r : Report}

/-- Where identifiers tell headings, they tell the labels of nodes. -/
theorem label_eq_of_id (hids : Directory.TellsHeadings ⟨projectId, p, r⟩ ids) {n m : GraphNode}
    (hn : n ∈ (ofReport ids now projectId p r).nodes)
    (hm : m ∈ (ofReport ids now projectId p r).nodes) (h : n.id = m.id) : n.label = m.label := by
  obtain ⟨x, hx, rfl⟩ := mem_nodes_ofReport.mp hn
  obtain ⟨y, hy, rfl⟩ := mem_nodes_ofReport.mp hm
  exact congrArg Prod.fst (hids x hx y hy h)

theorem endsAtHeld_of_function? (hpaths : (p.packages.map (·.importPath)).Nodup)
    (hids : Directory.TellsHeadings ⟨projectId, p, r⟩ ids) {id : FunctionId} {x : Draft}
    (h : Directory.function? ⟨projectId, p, r⟩ id = some x) :
    (ofReport ids now projectId p r).EndsAtHeld (.ofProject p) id (ids.node x) := by
  have hx := Directory.mem_drafts.mpr (Directory.holds_of_function? h)
  have hcallable := Directory.isCallable_function? h
  obtain ⟨s, hs, f, i, hf, rfl, hheld⟩ := Directory.declaration?_of_function? hpaths h
  refine ⟨f, s.file, ?_, hheld, ⟨_, mem_nodes_ofReport.mpr ⟨_, hx, rfl⟩, rfl, ?_⟩, ?_⟩
  · rw [← SymbolTable.map_fst_declaration?, hheld]
    rfl
  · exact ⟨rfl, rfl, rfl, _, rfl, rfl, rfl, rfl⟩
  · intro n hn hid
    obtain ⟨y, hy, rfl⟩ := mem_nodes_ofReport.mp hn
    have hheading := hids y hy _ hx hid
    simp only [Draft.heading, Prod.mk.injEq] at hheading
    obtain ⟨hlabel, -, hpath, hline⟩ := hheading
    obtain ⟨s', -, f', i', -, rfl⟩ :=
      Directory.exists_functionDraft (Directory.mem_drafts.mp hy) (hlabel ▸ hcallable)
    -- a draft of a function knows its file and its first line
    have hfile : s'.file.path = s.file.path := hpath
    have hfirst : f'.span.first = f.span.first := hline
    exact ⟨congrArg some hfile, _, rfl, hfile, hfirst⟩

/-- The relationships of calls that end at a function or a method are made from the links that do. -/
theorem forall₂_callsWithin (hids : Directory.TellsHeadings ⟨projectId, p, r⟩ ids) :
    List.Forall₂ (Link.Made ids)
      ((Directory.callLinks ⟨projectId, p, r⟩ ids [] r.calls).filter (·.target.label.isCallable))
      (ofReport ids now projectId p r).callsWithin := by
  have hlinks := Directory.calls_links ⟨projectId, p, r⟩ ids
  rw [← hlinks]
  refine forall₂_made_filter ids now projectId p r fun l x hl hx => ?_
  have htarget : l.target.node ids projectId now ∈ (ofReport ids now projectId p r).nodes :=
    node_mem_ofReport hl.2
  simp only [List.any_eq_true, Bool.and_eq_true, decide_eq_true_eq]
  constructor
  · intro h
    exact ⟨_, htarget, hx.target.symm, h⟩
  · rintro ⟨n, hn, hid, h⟩
    have hlabel : n.label = l.target.label := label_eq_of_id hids hn htarget (hid.trans hx.target)
    exact hlabel ▸ h

/-- **Calls within the project become relationships one for one.**  Whatever the settings of the
analysis, where import paths are distinct: every caller and every target that is found is declared in
the project, and the relationships of calls that end at a function or a method stand for the calls
with such targets, in their order.  Each joins the nodes of the declarations that the symbol table
holds, in the same files and on the same lines, and their number is that of the summary. -/
theorem calls_one_for_one {settings : AnalysisSettings} {signal : Signal}
    (hreport : (Report.ofProject settings p).outcome signal = .ok r)
    (hpaths : (p.packages.map (·.importPath)).Nodup)
    (hids : Directory.TellsHeadings ⟨projectId, p, r⟩ ids) (now : Instant) :
    let g := ofReport ids now projectId p r
    (∀ e ∈ r.calls, Declared p.packages e.caller ∧
      ∀ f, e.target = .resolved f → Declared p.packages f) ∧
    List.Forall₂ (g.CarriesCall (.ofProject p)) (r.calls.filter (·.target.function?.isSome))
      g.callsWithin ∧
    g.callsWithin.length = g.summary.resolvedCalls := by
  intro g
  have hcalls : ∀ e ∈ r.calls, Declared p.packages e.caller ∧
      ∀ f, e.target = .resolved f → Declared p.packages f := by
    rw [Report.ofProject_eq_ok hreport]
    exact fun e he => declared_of_mem_resolveCalls rfl he
  have hcarried : List.Forall₂ (g.CarriesCall (.ofProject p))
      (r.calls.filter (·.target.function?.isSome)) g.callsWithin := by
    refine forall₂_trans (fun e l x he hx => ?_)
      (Directory.forall₂_callLinks (d := ⟨projectId, p, r⟩) ids [] hcalls) (forall₂_callsWithin hids)
    obtain ⟨f, htarget, hcallee⟩ := he.callee
    refine ⟨?_, ⟨f, htarget, ?_⟩, hx.properties.trans he.properties⟩
    · exact hx.source ▸ endsAtHeld_of_function? hpaths hids he.caller
    · exact hx.target ▸ endsAtHeld_of_function? hpaths hids hcallee
  refine ⟨hcalls, hcarried, ?_⟩
  rw [← hcarried.length_eq, ← List.countP_eq_length_filter, summary_ofReport]
  rfl

/-- A function on one line, with calls by name. -/
def lineFunction (name : String) (line : Nat) (callees : List String) : FunctionDecl :=
  ⟨name, "func " ++ name ++ "()", "", false, [], [], .unexported, ⟨line, line⟩, 1,
    callees.map fun callee => ⟨callee, none, none, .direct, line⟩⟩

/-- The first of two files that declare `open`. -/
def firstVariant : SourceFile :=
  ⟨"a.go", "main", [], [lineFunction "main" 3 ["open"], lineFunction "open" 5 []], [], [], "", 6⟩

/-- `main` calls `open`, which both files declare. -/
def variants : Project :=
  ⟨"/p", none, [⟨".", "main", "", [firstVariant,
    ⟨"b.go", "main", [], [lineFunction "open" 3 []], [], [], "", 4⟩]⟩], []⟩

theorem symbols_variants : SymbolTable.ofProject variants = ⟨variants.packages⟩ := by
  simp [SymbolTable.ofProject, SymbolTable.ofPackages, variants, sortedBy, firstOfEach, skipRepeats]

theorem calls_variants : (Report.found {} variants).calls =
    [⟨⟨".", none, "main"⟩, .resolved ⟨".", none, "open"⟩, .direct, false, 3⟩] := by
  have hedges (r : Resolver) (hr : r.symbols = ⟨variants.packages⟩) :
      (variants.packages.flatMap fun p => p.functions.flatMap (r.edgesOf p.importPath)) =
        [⟨⟨".", none, "main"⟩, .resolved ⟨".", none, "open"⟩, .direct, false, 3⟩] := by
    obtain ⟨symbols, implementations, dispatch⟩ := r
    subst hr
    rfl
  show firstOfEach CallEdge.key (sortedBy CallEdge.key _) = _
  rw [hedges _ symbols_variants, sortedBy, List.mergeSort_singleton]
  rfl

/-- The hash tells the names of the nodes apart. -/
theorem tellsHeadings_variants :
    Directory.TellsHeadings ⟨"demo", variants, Report.found {} variants⟩
      (.ofPolicy [] "demo" .contentAddressed) := by
  let d : Directory := ⟨"demo", variants, Report.found {} variants⟩
  have hnames : d.nodeNames ⊆
      ["demo\x00Project\x00demo\x00/p\x000", "demo\x00Package\x00.\x00.\x000",
        "demo\x00File\x00a.go\x00a.go\x000", "demo\x00File\x00b.go\x00b.go\x000",
        "demo\x00Function\x00..main\x00a.go\x003", "demo\x00Function\x00..open\x00a.go\x005",
        "demo\x00Function\x00..open\x00b.go\x003"] := by
    decide +kernel
  have hplain : ∀ x ∈ d.drafts, x.Plain := by decide +kernel
  exact Directory.tellsHeadings_contentAddressed hplain
    (Identities.tellsApart_of_nodup hnames (by decide +kernel))

/-- Of two declarations in two files the first one gets the call. -/
theorem callsWithin_variants :
    let now : Instant := ⟨1970, 1, 1, 0, 0, 0, 0⟩
    let r := Report.found {} variants
    let g := ofReport (.ofPolicy [] "demo" .contentAddressed) now "demo" variants r
    (Report.ofProject {} variants).outcome .never = .ok r ∧
      (variants.packages.map (·.importPath)).Nodup ∧
      Directory.TellsHeadings ⟨"demo", variants, r⟩ (.ofPolicy [] "demo" .contentAddressed) ∧
      g.summary.resolvedCalls = 1 ∧
      ∃ x, g.callsWithin = [x] ∧ g.EndsAt x.target (lineFunction "open" 5 []) firstVariant := by
  intro now r g
  have hreport : (Report.ofProject {} variants).outcome .never = .ok r :=
    Report.ofProject_never variants (by decide)
  have hpaths : (variants.packages.map (·.importPath)).Nodup := by decide
  obtain ⟨-, hcarried, hcount⟩ := calls_one_for_one hreport hpaths tellsHeadings_variants now
  have hheld : (SymbolTable.ofProject variants).declaration? ⟨".", none, "open"⟩ =
      some (lineFunction "open" 5 [], firstVariant) := by
    rw [symbols_variants]
    decide +kernel
  have hcalls : r.calls.filter (·.target.function?.isSome) =
      [⟨⟨".", none, "main"⟩, .resolved ⟨".", none, "open"⟩, .direct, false, 3⟩] := by
    rw [calls_variants]
    rfl
  rw [hcalls] at hcarried
  obtain ⟨x, rest, hx, hrest, hwithin⟩ := List.forall₂_cons_left_iff.mp hcarried
  obtain rfl := List.forall₂_nil_left_iff.mp hrest
  obtain ⟨f, htarget, decl, file, -, hdecl, hend⟩ := hx.callee
  obtain rfl := CallTarget.resolved.inj htarget
  obtain ⟨rfl, rfl⟩ := Prod.mk.inj (Option.some.inj (hheld.symm.trans hdecl))
  refine ⟨hreport, hpaths, tellsHeadings_variants, ?_, x, hwithin, hend⟩
  rw [← hcount, hwithin]
  rfl

end Graph

end CodeGraph
