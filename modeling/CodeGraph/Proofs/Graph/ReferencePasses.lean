import CodeGraph.Proofs.Graph.DeclarationPasses

/-!
# The passes over imports and over the report

* `Builder.addImports_eq` — every import is linked; a path that belongs to no package gets its node at
  its first use.
* `Builder.Finds` — an index finds the nodes of the drafts that the directory finds.
* `Builder.exists_addReport` — dependencies, implementations and calls are linked where both ends are
  found.
-/

namespace CodeGraph

open Hash (Uuid)

namespace Builder

variable {b : Builder} {s : BuildState} {d : Directory}

/-! ### Imports -/

/-- Packages are found under their import paths. -/
def FindsPackages (b : Builder) (d : Directory) (m : NodeIndex) : Prop :=
  ∀ path, m.packages.lookup path = (d.package? path).map b.ids.node

/-- The import paths that are known, each with its node. -/
def importEntries (b : Builder) (known : List String) : List (String × Uuid) :=
  known.map fun path => (path, b.ids.node (importDraft path))

/-- The import paths that belong to no package and are not yet known, in the order of their first use. -/
def newPaths (d : Directory) (known : List String) (us : List (FileSlot × ImportDecl)) : List String :=
  ((us.map (·.2.path)).filter fun path =>
    (d.package? path).isNone && !known.contains path).eraseDups

theorem newPaths_cons (d : Directory) (known : List String) (u : FileSlot × ImportDecl)
    (us : List (FileSlot × ImportDecl)) :
    newPaths d known (u :: us) =
      if (d.package? u.2.path).isNone && !known.contains u.2.path then
        u.2.path :: newPaths d (u.2.path :: known) us
      else newPaths d known us := by
  rw [newPaths, List.map_cons, List.filter_cons]
  split
  · rw [List.eraseDups_cons, List.filter_filter, newPaths]
    refine congrArg (fun paths => u.2.path :: List.eraseDups paths) (List.filter_congr fun path _ => ?_)
    rw [List.contains_cons, Bool.not_or, Bool.and_left_comm]
  · rfl

/-- A path that has a node is linked to it. -/
theorem addImport_eq (file target : Draft) (i : ImportDecl)
    (h : (s.packages.lookup i.path).or (s.imports.lookup i.path) = some (b.ids.node target)) :
    b.addImport s (b.ids.node file) i =
      s.grow b s.toNodeIndex [] [⟨file, target, .imports i.givenName i.line⟩] := by
  rw [addImport, importNode]
  cases hpackage : s.packages.lookup i.path with
  | some package =>
    rw [hpackage] at h
    obtain rfl := Option.some.inj h
    exact relate_eq ..
  | none =>
    rw [hpackage, Option.none_or] at h
    rw [h]
    exact relate_eq ..

/-- A path without a node gets one that the project contains. -/
theorem addImport_new (hproject : s.project = b.ids.node d.root) (file : Draft) (i : ImportDecl)
    (h : (s.packages.lookup i.path).or (s.imports.lookup i.path) = none) :
    b.addImport s (b.ids.node file) i =
      s.grow b { s.toNodeIndex with
          imports := (i.path, b.ids.node (importDraft i.path)) :: s.imports }
        [importDraft i.path]
        [.contains d.root (importDraft i.path),
          ⟨file, importDraft i.path, .imports i.givenName i.line⟩] := by
  obtain ⟨hpackage, himport⟩ := Option.or_eq_none_iff.mp h
  rw [addImport, importNode, hpackage, himport, addNode_eq]
  dsimp only
  rw [show (s.grow b s.toNodeIndex [importDraft i.path] []).project = b.ids.node d.root from hproject,
    contain_eq, BuildState.grow_grow]
  exact (relate_eq ..).trans (BuildState.grow_grow ..)

theorem foldl_addImport (us : List (FileSlot × ImportDecl)) (known : List String) (s : BuildState)
    (hproject : s.project = b.ids.node d.root) (hpackages : b.FindsPackages d s.toNodeIndex)
    (hs : s.imports = b.importEntries known) :
    us.foldl (fun s u => b.addImport s (b.ids.node (d.fileOf u.1)) u.2) s =
      s.grow b { s.toNodeIndex with
          imports := b.importEntries ((newPaths d known us).reverse ++ known) }
        ((newPaths d known us).map importDraft) (d.importLinks known us) := by
  induction us generalizing known s with
  | nil =>
    refine (BuildState.grow_nil b s).symm.trans ?_
    exact congrArg (fun imports => s.grow b { s.toNodeIndex with imports } [] []) hs
  | cons u us ih =>
    obtain ⟨slot, i⟩ := u
    rw [List.foldl_cons, Directory.importLinks, newPaths_cons]
    have himport := lookup_map_pair (fun path => b.ids.node (importDraft path)) known i.path
    rw [← importEntries, ← hs] at himport
    have hpackage := hpackages i.path
    cases hfound : d.package? i.path with
    | some package =>
      rw [hfound] at hpackage
      rw [addImport_eq (d.fileOf slot) package i (by rw [hpackage]; rfl)]
      exact (ih known (s.grow b s.toNodeIndex [] _) hproject hpackages hs).trans
        (BuildState.grow_grow ..)
    | none =>
      rw [hfound] at hpackage
      cases hknown : known.contains i.path with
      | true =>
        rw [if_pos (List.contains_iff_mem.mp hknown)] at himport
        rw [addImport_eq (d.fileOf slot) (importDraft i.path) i (by rw [hpackage, himport]; rfl)]
        exact (ih known (s.grow b s.toNodeIndex [] _) hproject hpackages hs).trans
          (BuildState.grow_grow ..)
      | false =>
        rw [if_neg fun hmem => Bool.false_ne_true (hknown.symm.trans (List.contains_iff_mem.mpr hmem))]
          at himport
        rw [addImport_new hproject (d.fileOf slot) i (by rw [hpackage, himport]; rfl)]
        have hnew : (i.path, b.ids.node (importDraft i.path)) :: s.imports =
            b.importEntries (i.path :: known) := congrArg _ hs
        refine (ih (i.path :: known) (s.grow b { s.toNodeIndex with
          imports := (i.path, b.ids.node (importDraft i.path)) :: s.imports } _ _) hproject
            hpackages hnew).trans ((BuildState.grow_grow ..).trans ?_)
        have hreverse (paths : List String) : paths.reverse ++ i.path :: known =
            (i.path :: paths).reverse ++ known := by
          rw [List.reverse_cons, List.append_assoc]
          rfl
        rw [hreverse]
        rfl

/-- The imports of all files. -/
theorem addImports_eq (hproject : s.project = b.ids.node d.root)
    (hpackages : b.FindsPackages d s.toNodeIndex) (hs : s.imports = []) :
    d.slots.foldl (fun s slot => b.addImports s slot (b.ids.node (d.fileOf slot))) s =
      s.grow b { s.toNodeIndex with imports := b.importEntries d.importPaths.reverse }
        (d.importPaths.map importDraft)
        (d.importLinks [] (d.slots.flatMap fun slot => slot.file.imports.map fun i => (slot, i))) := by
  have hpaths : newPaths d [] (d.slots.flatMap fun slot => slot.file.imports.map fun i => (slot, i)) =
      d.importPaths := by
    rw [newPaths, Directory.importPaths, List.map_flatMap]
    simp [Function.comp_def]
  have himports := foldl_addImport (d.slots.flatMap fun slot => slot.file.imports.map fun i => (slot, i))
    [] s hproject hpackages hs
  rw [hpaths, List.append_nil, List.foldl_flatMap] at himports
  simp only [List.foldl_map] at himports
  exact himports

/-! ### Dependencies, implementations and calls -/

/-- A loop that adds links between nodes of the index. -/
theorem foldl_link {α : Type} (step : BuildState → α → BuildState) (make : α → Option Link)
    (as : List α)
    (h : ∀ (t : BuildState) a, t.toNodeIndex = s.toNodeIndex →
      step t a = t.grow b t.toNodeIndex [] (make a).toList) :
    as.foldl step s = s.grow b s.toNodeIndex [] (as.filterMap make) := by
  obtain ⟨m, hgrow, rfl⟩ := BuildState.foldl_grow (b := b) (s := s) as step (fun _ => [])
    (fun a => (make a).toList) (fun _ m => m = s.toNodeIndex)
    (fun done a rest _ t _ hm => ⟨_, h t a hm, hm⟩) rfl rfl
  rw [hgrow, List.filterMap_eq_flatMap_toList, List.flatMap_eq_nil_iff.mpr fun _ _ => rfl]

theorem foldl_addDependency (hpackages : b.FindsPackages d s.toNodeIndex) :
    d.report.dependencies.edges.foldl b.addDependency s =
      s.grow b s.toNodeIndex [] d.dependencyLinks := by
  refine foldl_link _ _ _ fun t e ht => ?_
  rw [addDependency, ht, hpackages e.source, hpackages e.target, ← ht]
  cases d.package? e.source with
  | none => exact (BuildState.grow_nil b t).symm
  | some source =>
    cases d.package? e.target with
    | none => exact (BuildState.grow_nil b t).symm
    | some target => exact relate_eq ..

theorem foldl_addImplementation (htypes : b.FindsTypes d s.toNodeIndex) :
    d.report.implementations.foldl b.addImplementation s =
      s.grow b s.toNodeIndex [] d.implementationLinks := by
  refine foldl_link _ _ _ fun t i ht => ?_
  rw [addImplementation, ht, htypes i.struct, htypes i.interface, ← ht]
  cases d.type? i.struct with
  | none => exact (BuildState.grow_nil b t).symm
  | some struct =>
    cases d.type? i.interface with
    | none => exact (BuildState.grow_nil b t).symm
    | some interface => exact relate_eq ..

/-- Functions are found as their first declarations. -/
def FindsFunctions (b : Builder) (d : Directory) (m : NodeIndex) : Prop :=
  ∀ f, m.functions.lookup f = (d.function? f).map b.ids.node

/-- An index finds the nodes of the drafts that the directory finds. -/
structure Finds (b : Builder) (d : Directory) (m : NodeIndex) : Prop where
  packages : b.FindsPackages d m
  files : b.FindsFiles d m
  types : b.FindsTypes d m
  functions : b.FindsFunctions d m
  imports : ∀ path, m.imports.lookup path = (d.import? path).map b.ids.node

/-- Whether a call without a target is that of a function with a node. -/
def isUnresolved (d : Directory) (e : CallEdge) : Bool :=
  (d.function? e.caller).isSome &&
    match e.target with
    | .unresolved _ _ => true
    | _ => false

/-- One turn over the calls adds at most one link, and notes what later turns go by. -/
theorem exists_addCall (hs : b.Finds d s.toNodeIndex) (e : CallEdge) :
    ∃ ls known, b.addCall s e = (s.grow b s.toNodeIndex [] ls).noting known
        (s.unresolvedCalls + if isUnresolved d e then 1 else 0) ∧
      ∀ rest, d.callLinks b.ids s.importCalls (e :: rest) = ls ++ d.callLinks b.ids known rest := by
  rw [addCall, hs.functions e.caller, isUnresolved]
  cases hcaller : d.function? e.caller with
  | none =>
    refine ⟨[], s.importCalls, (BuildState.grow_nil b s).symm, fun rest => ?_⟩
    rw [Directory.callLinks, hcaller]
    rfl
  | some caller =>
    cases htarget : e.target with
    | resolved f =>
      refine ⟨(d.function? f).toList.map fun target =>
        ⟨caller, target, .calls e.kind e.line e.nameMatched⟩, s.importCalls, ?_, fun rest => ?_⟩
      · dsimp only [Option.map_some, BuildState.callTarget]
        rw [hs.functions f]
        cases d.function? f with
        | none => exact (BuildState.grow_nil b s).symm
        | some target => exact relate_eq ..
      · rw [Directory.callLinks, hcaller, htarget]
    | external package name =>
      dsimp only [Option.map_some, BuildState.callTarget]
      rw [hs.imports package]
      cases himport : d.import? package with
      | none =>
        refine ⟨[], s.importCalls, (BuildState.grow_nil b s).symm, fun rest => ?_⟩
        rw [Directory.callLinks, hcaller, htarget]
        dsimp only
        rw [himport]
        rfl
      | some target =>
        -- of the calls of one function to one import path the first is linked
        dsimp only [Option.map_some]
        cases hlinked : s.importCalls.contains (b.ids.node caller, b.ids.node target) with
        | true =>
          refine ⟨[], s.importCalls, (BuildState.grow_nil b s).symm, fun rest => ?_⟩
          rw [Directory.callLinks, hcaller, htarget]
          dsimp only
          rw [himport]
          dsimp only
          rw [hlinked]
          rfl
        | false =>
          refine ⟨[⟨caller, target, .calls e.kind e.line e.nameMatched⟩],
            (b.ids.node caller, b.ids.node target) :: s.importCalls, relate_eq .., fun rest => ?_⟩
          rw [Directory.callLinks, hcaller, htarget]
          dsimp only
          rw [himport]
          dsimp only
          rw [hlinked]
          rfl
    | unresolved name reason =>
      refine ⟨[], s.importCalls, ?_, fun rest => ?_⟩
      · exact congrArg (fun t : BuildState => t.noting s.importCalls (s.unresolvedCalls + 1))
          (BuildState.grow_nil b s).symm
      · rw [Directory.callLinks, hcaller, htarget]
        rfl

theorem foldl_addCall (calls : List CallEdge) (s : BuildState) (hs : b.Finds d s.toNodeIndex) :
    ∃ known, calls.foldl b.addCall s =
      (s.grow b s.toNodeIndex [] (d.callLinks b.ids s.importCalls calls)).noting known
        (s.unresolvedCalls + calls.countP (isUnresolved d)) := by
  induction calls generalizing s with
  | nil => exact ⟨s.importCalls, (BuildState.grow_nil b s).symm⟩
  | cons e calls ih =>
    obtain ⟨ls, known, hstep, hlinks⟩ := exists_addCall hs e
    rw [List.foldl_cons, hstep, hlinks]
    obtain ⟨known', hrest⟩ := ih ((s.grow b s.toNodeIndex [] ls).noting known
      (s.unresolvedCalls + if isUnresolved d e then 1 else 0)) hs
    refine ⟨known', hrest.trans ?_⟩
    have hcount : s.unresolvedCalls + (if isUnresolved d e then 1 else 0) +
        calls.countP (isUnresolved d) = s.unresolvedCalls + (e :: calls).countP (isUnresolved d) := by
      rw [List.countP_cons]
      omega
    have hgrow : (s.grow b s.toNodeIndex [] ls).grow b s.toNodeIndex []
        (d.callLinks b.ids known calls) =
          s.grow b s.toNodeIndex [] (ls ++ d.callLinks b.ids known calls) :=
      BuildState.grow_grow ..
    rw [← hcount, ← hgrow]
    rfl

/-- What a report adds: dependencies, implementations and calls. -/
theorem exists_addReport (hs : b.Finds d s.toNodeIndex) :
    ∃ known, d.report.calls.foldl b.addCall (d.report.implementations.foldl b.addImplementation
        (d.report.dependencies.edges.foldl b.addDependency s)) =
      (s.grow b s.toNodeIndex [] (d.dependencyLinks ++ d.implementationLinks ++
        d.callLinks b.ids s.importCalls d.report.calls)).noting known
          (s.unresolvedCalls + d.unresolvedCount) := by
  rw [foldl_addDependency hs.packages]
  generalize ht : s.grow b s.toNodeIndex [] d.dependencyLinks = t
  have htypes : b.FindsTypes d t.toNodeIndex := ht ▸ hs.types
  rw [foldl_addImplementation htypes, ← ht]
  obtain ⟨known, hcalls⟩ := foldl_addCall (b := b) (d := d) d.report.calls
    (s.grow b s.toNodeIndex [] (d.dependencyLinks ++ d.implementationLinks)) hs
  rw [BuildState.grow_grow] at hcalls ⊢
  exact ⟨known, hcalls⟩

end Builder

end CodeGraph
