import CodeGraph.Proofs.Graph.ReferencePasses

/-!
# What the passes of a builder make

* `Directory.knowsOutside_builder` — a builder knows from the start which import paths get nodes.
* `Directory.exists_build` — every file is found; the passes add the drafts and links of the directory,
  and their index finds what the directory finds.
* `Graph.ofReport_eq` — so the graph that is built is the one that the directory writes down.
-/

namespace CodeGraph

open Hash (Uuid)

/-! ### The graph -/

namespace Directory

variable (d : Directory) (ids : Identities) (now : Instant)

/-- The builder for the project of a directory. -/
def builder : Builder := .ofProject ids now d.projectId d.project

/-- The builder knows which import paths lie outside before it has read them. -/
theorem knowsOutside_builder : (d.builder ids now).KnowsOutside d := by
  intro path
  have himported : (d.project.packages.flatMap (·.files)).flatMap (·.imports) =
      d.slots.flatMap fun s => s.file.imports :=
    List.flatMap_assoc.trans (Project.flatMap_slots (fun _ file => file.imports) d.project).symm
  have hinternal : path ∉ d.project.packages.map (·.importPath) ↔ d.package? path = none := by
    rw [package?, Option.map_eq_none_iff, List.find?_eq_none]
    conv_lhs => rw [← List.zipIdx_map_fst 0 d.project.packages, List.map_map]
    simp only [List.mem_map, List.mem_reverse, decide_eq_true_eq, not_exists, not_and]
    rfl
  have hexternal : path ∈ (d.builder ids now).external ↔ path ∈ d.importPaths := by
    rw [mem_importPaths, ← hinternal]
    have hpaths : (∃ s ∈ d.slots, ∃ i ∈ s.file.imports, i.path = path) ↔
        path ∈ (d.slots.flatMap fun s => s.file.imports).map (·.path) := by
      simp only [List.mem_map, List.mem_flatMap]
      constructor
      · rintro ⟨s, hs, i, hi, rfl⟩
        exact ⟨i, ⟨s, hs, hi⟩, rfl⟩
      · rintro ⟨i, ⟨s, hs, hi⟩, rfl⟩
        exact ⟨s, hs, i, hi, rfl⟩
    rw [hpaths, ← himported]
    exact List.mem_filter.trans (and_congr_right fun _ => by simp)
  have himport : (d.import? path).isSome = d.importPaths.contains path := by
    rw [import?]
    cases d.importPaths.contains path with
    | true => rfl
    | false => rfl
  rw [himport, Bool.eq_iff_iff, List.contains_iff_mem, List.contains_iff_mem]
  exact hexternal

theorem findsPackages {m : NodeIndex} {b : Builder}
    (h : m.packages = (d.project.packages.zipIdx.map b.packageEntry).reverse) :
    b.FindsPackages d m := by
  intro path
  rw [h, ← List.map_reverse, package?, Option.map_map]
  exact lookup_map_key (fun u : Package × Nat => u.1.importPath) _ _ path

theorem findsFiles {m : NodeIndex} {b : Builder}
    (h : m.files = (d.slots.map b.fileEntry).reverse) : b.FindsFiles d m := by
  intro slot hslot
  obtain ⟨t, -, hfind, -, hfile⟩ := exists_fileOf hslot
  have hlookup := lookup_map_key (fun s : FileSlot => s.file.path) (fun s => b.ids.node s.draft)
    d.slots.reverse slot.file.path
  rw [hfind] at hlookup
  rw [h, ← List.map_reverse, hfile]
  exact hlookup

theorem findsTypes {m m' : NodeIndex} {b : Builder} (h : b.NotesTypes m d.typeDeclarations m') :
    b.FindsTypes d m' := by
  obtain ⟨types, rfl, htypes⟩ := h
  intro id
  rw [type?_eq_find?, Option.map_map]
  exact htypes id

theorem findsFunctions {m m' : NodeIndex} {b : Builder}
    (h : b.NotesFunctions d m (d.inSlots FileSlot.functions) m') : b.FindsFunctions d m' := by
  obtain ⟨functions, rfl, hfunctions⟩ := h
  intro f
  rw [function?, findSome?_inSlots (fun s (u : FunctionDecl × Nat) => s.functionId u.1 = f)
    fun s u => d.functionDraft s u.1 u.2, Option.map_map]
  exact hfunctions f

theorem findsImports {m : NodeIndex} {b : Builder}
    (h : m.imports = b.importEntries d.importPaths.reverse) (path : String) :
    m.imports.lookup path = (d.import? path).map b.ids.node := by
  rw [h, Builder.importEntries, lookup_map_pair, import?]
  by_cases hpath : path ∈ d.importPaths
  · rw [if_pos (List.mem_reverse.mpr hpath), if_pos (List.contains_iff_mem.mpr hpath)]
    rfl
  · rw [if_neg (mt List.mem_reverse.mp hpath), if_neg (mt List.contains_iff_mem.mp hpath)]
    rfl

/-- The state that the passes start from, once the project has its node. -/
def start : BuildState := { BuildState.empty with project := ids.node d.root }

/-- The project, its packages and its files. -/
theorem addPackages_addProject :
    let b := d.builder ids now
    b.addPackages (b.addProject .empty d.project) d.project =
      (d.start ids).grow b
        ⟨(d.project.packages.zipIdx.map b.packageEntry).reverse, (d.slots.map b.fileEntry).reverse,
          [], [], []⟩
        (d.root :: d.packageDrafts) d.packageLinks := by
  intro b
  have hroot : b.addProject .empty d.project =
      (d.start ids).grow b (d.start ids).toNodeIndex [d.root] [] := by
    rw [Builder.addProject, Builder.addNode_eq]
    rfl
  rw [hroot, Builder.addPackages_eq rfl, BuildState.grow_grow]
  exact congrArg₂ (fun packages files => (d.start ids).grow b ⟨packages, files, [], [], []⟩ _ _)
    (List.append_nil _) (List.append_nil _)

/-- What files declare is added behind packages and files, and is found as the directory finds it. -/
theorem exists_addDeclared :
    let b := d.builder ids now
    ∃ m, (b.FindsPackages d m ∧ b.FindsFiles d m ∧ b.FindsTypes d m ∧ b.FindsFunctions d m ∧
        m.imports = []) ∧
      ((b.addPackages (b.addProject .empty d.project) d.project).overFiles d.project
          b.addTypesAndValues).bind (fun s => s.overFiles d.project fun s =>
            b.addFunctions s (d.report.calls.foldl b.countCall [])) =
        some ((d.start ids).grow b m
          (d.root :: d.packageDrafts ++ (d.slots.flatMap fun s => d.typeDrafts s ++ s.valueDrafts) ++
            d.slots.flatMap d.functionDrafts)
          (d.packageLinks ++ (d.slots.flatMap fun s => d.typeLinks s ++ d.valueLinks s) ++
            d.slots.flatMap d.functionLinks)) := by
  intro b
  let m : NodeIndex := ⟨(d.project.packages.zipIdx.map b.packageEntry).reverse,
    (d.slots.map b.fileEntry).reverse, [], [], []⟩
  have hpackages : b.FindsPackages d m := d.findsPackages rfl
  have hfiles : b.FindsFiles d m := d.findsFiles rfl
  rw [addPackages_addProject]
  generalize hs : (d.start ids).grow b m (d.root :: d.packageDrafts) d.packageLinks = s
  have hindex : s.toNodeIndex = m := hs ▸ rfl
  obtain ⟨m', hgrow, hnotes⟩ := Builder.exists_addTypesAndValues (b := b) (d := d) (s := s) (m := m)
    ⟨[], hindex, Recalls.nil _ _⟩
  have htypes : b.FindsTypes d m' := d.findsTypes hnotes
  obtain ⟨types, rfl, -⟩ := hnotes
  rw [Builder.overFiles_eq (b := b) Builder.addTypesAndValues_files (hindex ▸ hfiles), hgrow, ← hs,
    BuildState.grow_grow, Option.bind_some]
  generalize ht : (d.start ids).grow b { m with types } (_ ++ _) (_ ++ _) = t
  have hindex' : t.toNodeIndex = { m with types } := ht ▸ rfl
  obtain ⟨m'', hgrow', hnotes'⟩ := Builder.exists_addFunctions (s := t) (m := { m with types })
    (Builder.lookup_foldl_countCall (d.knowsOutside_builder ids now)) htypes
    ⟨[], hindex', Recalls.nil _ _⟩
  have hfunctions : b.FindsFunctions d m'' := d.findsFunctions hnotes'
  obtain ⟨functions, rfl, -⟩ := hnotes'
  refine ⟨{ m with types, functions }, ⟨hpackages, hfiles, htypes, hfunctions, rfl⟩, ?_⟩
  rw [Builder.overFiles_eq (b := b) (Builder.addFunctions_files _) (hindex' ▸ hfiles), hgrow', ← ht,
    BuildState.grow_grow]

/-- **What the passes make.**  Every file is found; the passes add the drafts and the links of the
directory, in their order, and whatever they look up is found as the directory finds it. -/
theorem exists_build :
    let b := d.builder ids now
    ∃ m known, b.Finds d m ∧ b.build d.project d.report =
      some (((d.start ids).grow b m d.drafts (d.links ids)).noting known d.unresolvedCount) := by
  intro b
  obtain ⟨m, ⟨hpackages, hfiles, htypes, hfunctions, hempty⟩, hdeclared⟩ := d.exists_addDeclared ids now
  let m' : NodeIndex := { m with imports := b.importEntries d.importPaths.reverse }
  have hfinds : b.Finds d m' := ⟨hpackages, hfiles, htypes, hfunctions, d.findsImports rfl⟩
  have hbuild : b.build d.project d.report =
      (((b.addPackages (b.addProject .empty d.project) d.project).overFiles d.project
        b.addTypesAndValues).bind (fun s => s.overFiles d.project fun s =>
          b.addFunctions s (d.report.calls.foldl b.countCall []))).bind fun s =>
        (s.overFiles d.project b.addImports).bind fun s =>
          some (d.report.calls.foldl b.addCall (d.report.implementations.foldl b.addImplementation
            (d.report.dependencies.edges.foldl b.addDependency s))) :=
    (Option.bind_assoc ..).symm
  rw [hbuild, hdeclared, Option.bind_some]
  generalize hs : (d.start ids).grow b m _ _ = s
  have hindex : s.toNodeIndex = m := hs ▸ rfl
  -- the imports of files come last of what is read off the project
  have himports := Builder.addImports_eq (b := b) (d := d) (s := s) (hs ▸ rfl) (hindex ▸ hpackages)
    (by rw [hindex, hempty])
  rw [Builder.overFiles_eq (b := b) Builder.addImports_files (hindex ▸ hfiles), himports, hindex, ← hs,
    BuildState.grow_grow, Option.bind_some]
  generalize ht : (d.start ids).grow b m' _ _ = t
  have hindex' : t.toNodeIndex = m' := ht ▸ rfl
  obtain ⟨known, hreport⟩ := Builder.exists_addReport (b := b) (d := d) (s := t) (hindex' ▸ hfinds)
  refine ⟨m', known, hfinds, congrArg some (hreport.trans ?_)⟩
  rw [hindex', ← ht, BuildState.grow_grow]
  have hlinks : d.packageLinks ++ (d.slots.flatMap fun s => d.typeLinks s ++ d.valueLinks s) ++
      d.slots.flatMap d.functionLinks ++
      d.importLinks [] (d.slots.flatMap fun s => s.file.imports.map fun i => (s, i)) ++
      (d.dependencyLinks ++ d.implementationLinks ++ d.callLinks ids [] d.report.calls) =
        d.links ids := by
    rw [links]
    simp only [List.append_assoc]
  rw [List.append_nil, ← hlinks]
  exact congrArg (BuildState.noting _ known) (Nat.zero_add _)

end Directory

/-- The graph that is built is the one that the directory writes down. -/
theorem Graph.ofReport_eq (ids : Identities) (now : Instant) (projectId : String) (p : Project)
    (r : Report) :
    Graph.ofReport ids now projectId p r = Directory.graph ⟨projectId, p, r⟩ ids now := by
  let d : Directory := ⟨projectId, p, r⟩
  obtain ⟨m, known, -, hbuild⟩ := d.exists_build ids now
  have hstate : (Builder.ofProject ids now projectId p).build p r = some _ := hbuild
  rw [ofReport, hstate]
  dsimp only
  generalize hs : ((d.start ids).grow (d.builder ids now) m d.drafts (d.links ids)).noting known
    d.unresolvedCount = s
  have hnodes : s.nodes.toList = d.drafts.map (·.node ids projectId now) := by
    rw [← hs]
    exact BuildState.toList_nodes_grow m d.drafts (d.links ids)
  have hrelationships : s.relationships.toList = (d.graph ids now).relationships := by
    rw [← hs]
    exact BuildState.toList_relationships_grow m d.drafts (d.links ids)
  have hcount (label : NodeType) : s.count label = d.drafts.countP (·.label = label) := by
    rw [BuildState.count, ← Array.countP_toList, hnodes, List.countP_map]
    rfl
  have himplementations : s.relationships.countP (·.label = .implements) =
      (d.links ids).countP (·.properties.label = .implements) := by
    rw [← Array.countP_toList, hrelationships, Directory.graph, List.countP_map]
    conv_rhs => rw [← List.zipIdx_map_fst 0 (d.links ids), List.countP_map]
    rfl
  have hunresolved : s.unresolvedCalls = d.unresolvedCount := by
    rw [← hs]
    rfl
  rw [BuildState.summary, hnodes, hrelationships, himplementations, hunresolved]
  simp only [hcount]
  rfl

namespace Graph

variable {ids : Identities} {now : Instant} {projectId : String} {p : Project} {r : Report}

@[simp]
theorem projectId_ofReport : (ofReport ids now projectId p r).projectId = projectId := by
  rw [ofReport_eq]
  rfl

theorem nodes_ofReport : (ofReport ids now projectId p r).nodes =
    (Directory.mk projectId p r).drafts.map (·.node ids projectId now) := by
  rw [ofReport_eq]
  rfl

theorem relationships_ofReport : (ofReport ids now projectId p r).relationships =
    ((Directory.mk projectId p r).links ids).zipIdx.map fun (l, i) =>
      l.relationship ids projectId now i := by
  rw [ofReport_eq]
  rfl

theorem summary_ofReport : (ofReport ids now projectId p r).summary =
    ((Directory.mk projectId p r).graph ids now).summary := by
  rw [ofReport_eq]

theorem map_id_nodes : (ofReport ids now projectId p r).nodes.map (·.id) =
    (Directory.drafts ⟨projectId, p, r⟩).map ids.node := by
  rw [nodes_ofReport, List.map_map]
  rfl

theorem mem_nodes_ofReport {n : GraphNode} : n ∈ (ofReport ids now projectId p r).nodes ↔
    ∃ x ∈ Directory.drafts ⟨projectId, p, r⟩, x.node ids projectId now = n := by
  rw [nodes_ofReport]
  exact List.mem_map

theorem node_mem_ofReport {x : Draft} (h : Directory.Holds ⟨projectId, p, r⟩ x) :
    x.node ids projectId now ∈ (ofReport ids now projectId p r).nodes :=
  mem_nodes_ofReport.mpr ⟨x, Directory.mem_drafts.mpr h, rfl⟩

end Graph

end CodeGraph
