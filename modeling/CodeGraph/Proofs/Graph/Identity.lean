import CodeGraph.Proofs.Graph.Distinct
import CodeGraph.Proofs.Store.History
import CodeGraph.Proofs.Store.Replacement

/-!
# Identifiers from content

* `Graph.contentAddressed_nodup_iff` — when the identifiers from content are distinct, and the graph of
  a project can be imported: exactly if files have distinct paths and none makes a declaration, or an
  import, twice on a line.
-/

namespace CodeGraph

open Hash (Uuid)

namespace Directory

variable {d : Directory}

/-- What has been read and analysed is told apart, if files have distinct paths. -/
theorem apart_of_read {languages : List Language} {reading : ReadingSettings} {tree : FileTree}
    {path projectId : String} {signal signal' : Signal} {p : Project} {analysis : AnalysisSettings}
    {r : Report} (hread : (Project.read languages reading tree path).outcome signal = .ok p)
    (hreport : (Report.ofProject analysis p).outcome signal' = .ok r) (hnamed : tree.Named)
    (hpaths : (p.slots.map (·.file.path)).Nodup) : Directory.Apart ⟨projectId, p, r⟩ := by
  rw [Report.ofProject_eq_ok hreport]
  constructor
  · exact hpaths
  · exact Project.packages_apart hread hnamed
  · exact Dependencies.nodup_edges_mark _ _
  · exact SymbolTable.nodup_implementations _
  · exact nodup_keys_resolveCalls _ _

/-- If relationships differ in their ends or their properties, then no file makes a declaration twice:
the file would contain both under one identifier. -/
theorem declaresOnce_of_nodup_linkEnds
    (h : ((d.links (.contentAddressed d.projectId)).map d.linkEnds).Nodup) : d.DeclaresOnce := by
  intro s hs
  have hcontained := d.contains_declared_sublist (.contentAddressed d.projectId) hs
  have hends := (hcontained.map d.linkEnds).nodup h
  rw [List.map_map] at hends
  refine nodup_map_of_imp (fun x hx y hy hentry => ?_) hends
  have hkey : x.key = y.key := by
    refine Draft.key_of_heading ?_
    simp only [Draft.entry, Prod.mk.injEq] at hentry
    rw [Draft.heading, Draft.heading, hentry.1, hentry.2.1, hentry.2.2,
      (heading_of_mem_declared hx).2, (heading_of_mem_declared hy).2]
  simp only [Function.comp_apply, linkEnds, Link.contains, Identities.contentAddressed, hkey]

/-- Relationships differ in their ends or their properties exactly if no file makes a declaration or
an import twice. -/
theorem nodup_linkEnds_iff (h : d.Apart) (hplain : ∀ x ∈ d.drafts, x.Plain)
    (happart : Identities.TellsApart d.nodeNames) :
    ((d.links (.contentAddressed d.projectId)).map d.linkEnds).Nodup ↔
      d.DeclaresOnce ∧ d.ImportsOnce := by
  constructor
  · intro hends
    have hdeclares := declaresOnce_of_nodup_linkEnds hends
    have hdrafts := ((nodup_headings_iff h).mpr hdeclares).of_map
    exact ⟨hdeclares, (nodup_links_iff h hdrafts _).mp hends.of_map⟩
  · rintro ⟨hdeclares, himports⟩
    have hheadings := (nodup_headings_iff h).mpr hdeclares
    refine ((nodup_links_iff h hheadings.of_map _).mpr himports).map_on fun l hl m hm heq => ?_
    have hdraft {x y : Draft} (hx : d.Holds x) (hy : d.Holds y)
        (hnode : (Identities.contentAddressed d.projectId).node x =
          (Identities.contentAddressed d.projectId).node y) : x = y :=
      List.inj_on_of_nodup_map hheadings (mem_drafts.mpr hx) (mem_drafts.mpr hy)
        ((node_eq_iff hplain happart (mem_drafts.mpr hx) (mem_drafts.mpr hy)).mp hnode)
    obtain ⟨hsource, hrest⟩ := Prod.mk.inj heq
    obtain ⟨htarget, hproperties⟩ := Prod.mk.inj hrest
    obtain ⟨hlsource, hltarget⟩ := joins_of_mem_links hl
    obtain ⟨hmsource, hmtarget⟩ := joins_of_mem_links hm
    cases l
    cases m
    simp only [Link.mk.injEq]
    exact ⟨hdraft hlsource hmsource hsource, hdraft hltarget hmtarget htarget, hproperties⟩

end Directory

namespace Graph

/-- Relationships get their identifiers from their names, whatever their places. -/
theorem relationshipIds_ofReport (now : Instant) (projectId : String) (p : Project) (r : Report) :
    (ofReport (.contentAddressed projectId) now projectId p r).relationships.map (·.id) =
      (Directory.linkNames ⟨projectId, p, r⟩).map (Uuid.named Identities.space) := by
  let d : Directory := ⟨projectId, p, r⟩
  rw [relationships_ofReport, List.map_map, Directory.linkNames, List.map_map]
  conv_rhs => rw [← map_zipIdx_fst _ (d.links (.contentAddressed projectId))]
  rfl

/-- Relationships are told apart by their places alone where identifiers are drawn. -/
theorem relationshipIds_drawn (seed : List UInt8) (now : Instant) (d : Directory) :
    (ofReport (.drawn seed) now d.projectId d.project d.report).relationships.map (·.id) =
      (List.range' 0 (d.links (.drawn seed)).length).map fun i =>
        .drawn seed ("relationship " ++ toString i) := by
  rw [← List.zipIdx_map_snd 0, List.map_map, relationships_ofReport, List.map_map]
  rfl

/-- A graph of a report can be imported exactly if its identifiers are distinct, as long as other
projects have none of them. -/
theorem ofReport_importable_iff {ids : Identities} {now : Instant} {projectId : String} {p : Project}
    {r : Report} {t : Tables}
    (hnodes : ∀ n ∈ (ofReport ids now projectId p r).nodes, ∀ m ∈ t.nodes, m.id = n.id →
      m.projectId = projectId)
    (hrelationships : ∀ e ∈ (ofReport ids now projectId p r).relationships,
      ∀ m ∈ t.relationships, m.id = e.id → m.projectId = projectId) :
    (ofReport ids now projectId p r).Importable t ↔
      ((ofReport ids now projectId p r).nodes.map (·.id)).Nodup ∧
        ((ofReport ids now projectId p r).relationships.map (·.id)).Nodup := by
  have hends := ofReport_ends ids now projectId p r
  constructor
  · intro h
    exact ⟨h.nodup_nodes, h.nodup_relationships⟩
  · rintro ⟨hnodup, hnodup'⟩
    exact {
      nodes_within := by simpa using ofReport_nodes_within ids now projectId p r
      relationships_within := by simpa using fun e he => (hends e he).1
      ends := fun e he => (hends e he).2
      nodup_nodes := hnodup
      nodup_relationships := hnodup'
      nodes_apart := by simpa using hnodes
      relationships_apart := by simpa using hrelationships }

/-- **Which projects get distinct identifiers from content.**  Let a project be read and analysed, and
let the hash tell the names of its nodes and of its relationships apart, which hold no mark of keys.
Files have distinct paths where names are texts.  Nodes have distinct identifiers exactly if files have
distinct paths and no file makes a declaration twice on a line, and relationships of such files exactly if
besides no file makes an import twice on a line.  Then, and only then, the graph can be imported into a
store where no other project has one of its identifiers. -/
theorem contentAddressed_nodup_iff {languages : List Language} {reading : ReadingSettings}
    {tree : FileTree} {path : String} {signal signal' : Signal} {p : Project}
    {analysis : AnalysisSettings} {r : Report}
    (hread : (Project.read languages reading tree path).outcome signal = .ok p)
    (hreport : (Report.ofProject analysis p).outcome signal' = .ok r)
    (hnamed : tree.Named) (hdistinct : tree.Distinct)
    (seed : List UInt8) (projectId : String) (now : Instant)
    (hplain : ∀ x ∈ (Directory.mk projectId p r).drafts, x.Plain)
    (hnodes : Identities.TellsApart (Directory.mk projectId p r).nodeNames)
    (hlinks : Identities.TellsApart (Directory.mk projectId p r).linkNames) :
    let d : Directory := ⟨projectId, p, r⟩
    let g := ofReport (.ofPolicy seed projectId .contentAddressed) now projectId p r
    let paths := d.slots.map (·.file.path)
    (tree.Legible → paths.Nodup) ∧
      ((g.nodes.map (·.id)).Nodup ↔ paths.Nodup ∧ d.DeclaresOnce) ∧
      (paths.Nodup → ((g.relationships.map (·.id)).Nodup ↔ d.DeclaresOnce ∧ d.ImportsOnce)) ∧
      ∀ (around : Surroundings) (t : Tables) (size : Nat) (later : Instant), around.Calm →
        Store.Reachable ⟨some t⟩ →
        (∀ n ∈ g.nodes, ∀ m ∈ t.nodes, m.id = n.id → m.projectId = projectId) →
        (∀ e ∈ g.relationships, ∀ m ∈ t.relationships, m.id = e.id → m.projectId = projectId) →
        ((∃ f, ((Session.importGraph size later g).performIn around ⟨some t⟩).outcome = .ok f) ↔
          paths.Nodup ∧ d.DeclaresOnce ∧ d.ImportsOnce) := by
  intro d g paths
  have hapart (hpaths : paths.Nodup) : d.Apart :=
    Directory.apart_of_read hread hreport hnamed hpaths
  have hnodeIds : (g.nodes.map (·.id)).Nodup ↔ paths.Nodup ∧ d.DeclaresOnce := by
    have hids : g.nodes.map (·.id) = d.drafts.map (Identities.contentAddressed projectId).node :=
      map_id_nodes
    have hheadings : (g.nodes.map (·.id)).Nodup ↔ (d.drafts.map Draft.heading).Nodup := by
      rw [hids]
      exact nodup_map_congr fun x hx y hy => Directory.node_eq_iff hplain hnodes hx hy
    rw [hheadings]
    constructor
    · intro h
      have hpaths := Directory.nodup_paths_of_headings h
      exact ⟨hpaths, (Directory.nodup_headings_iff (hapart hpaths)).mp h⟩
    · rintro ⟨hpaths, honce⟩
      exact (Directory.nodup_headings_iff (hapart hpaths)).mpr honce
  have hlinkIds (hpaths : paths.Nodup) :
      (g.relationships.map (·.id)).Nodup ↔ d.DeclaresOnce ∧ d.ImportsOnce := by
    have hids : g.relationships.map (·.id) = d.linkNames.map (Uuid.named Identities.space) :=
      relationshipIds_ofReport now projectId p r
    rw [hids, Directory.nodup_linkIds_iff hlinks,
      Directory.nodup_linkEnds_iff (hapart hpaths) hplain hnodes]
  refine ⟨Project.nodup_slot_paths hread hnamed hdistinct, hnodeIds, hlinkIds,
    fun around t size later calm hreachable hother hother' => ?_⟩
  obtain ⟨t', ht', hconsistent⟩ := hreachable.consistent
  cases ht'
  rw [Session.importGraph_isOk_iff hconsistent calm, ofReport_importable_iff hother hother', hnodeIds]
  constructor
  · rintro ⟨⟨hpaths, -⟩, hids⟩
    exact ⟨hpaths, (hlinkIds hpaths).mp hids⟩
  · rintro ⟨hpaths, honce, himports⟩
    exact ⟨⟨hpaths, honce⟩, (hlinkIds hpaths).mpr ⟨honce, himports⟩⟩

/-! ### A struct with two blank fields -/

/-- A struct whose two fields stand on one line, and both are blank. -/
def twinText : String := "package p\n\ntype T struct \x7b\n\t_, _ int\n\x7d\n"

def twinFolder : FileTree := .folder [("p.go", .file (Text.Utf8.encode twinText))]

def twinTree : FileTree := .folder [("p", twinFolder)]

def twinFile : SourceFile :=
  let blank : FieldDecl := ⟨"_", "int", .unexported, false, 4⟩
  { path := "p.go", package := "p", imports := [], functions := []
    types := [⟨"T", .struct, .exported, ⟨3, 5⟩, [blank, blank], [], []⟩]
    values := []
    contentHash := "3a612d97c9ed27a42c8651cfe2b0e4ea809d6c6d1100e8c19d5b3a01f9b6d7c2"
    lineCount := 5 }

def twinProject : Project := ⟨"/p", none, [⟨".", "p", "", [twinFile]⟩], []⟩

def twinReport : Report :=
  { dependencies := ⟨["."], [], []⟩, cycles := [], implementations := [], calls := []
    entryChains := [], metrics := some (Metrics.ofPackages twinProject.packages [])
    degradations := [] }

def twinDirectory : Directory := ⟨"demo", twinProject, twinReport⟩

theorem discoverAt_twinTree : discoverAt Languages.standard {} twinTree (placeText ["p"]) =
    .ok ⟨[(["p.go"], .ok (Text.Utf8.encode twinText))], []⟩ := by
  rw [placeText_child]
  exact discoverAt_openChild rfl (by decide +kernel) (List.pairwise_singleton _ _) (by decide +kernel)

theorem read_twinTree :
    (Project.read Languages.standard {} twinTree "/p").outcome .never = .ok twinProject := by
  have hplace : rootPlace twinTree "/p" = .ok ["p"] := by decide +kernel
  have hmodule : modulePathAt twinTree ["p"] = none := by decide +kernel
  have hfile : readSource Languages.standard (["p.go"], .ok (Text.Utf8.encode twinText)) = .ok twinFile := by
    decide +kernel
  have hkeys : ([twinFile].map packageKey).eraseDups = [("", "p")] := by decide +kernel
  have hpackages : groupPackages none [twinFile] = twinProject.packages :=
    (groupPackages_of_one_key none hkeys (List.pairwise_singleton _ _)).trans (by decide +kernel)
  have hfiles : (filesRead [Except.ok twinFile]).filter (·.package ≠ "") = [twinFile] := by
    decide +kernel
  have hissues : fileIssues [.ok twinFile] = [] := by decide +kernel
  refine Project.read_never (by decide) hplace discoverAt_twinTree ?_
  dsimp only
  rw [hmodule, List.map_singleton, hfile, assemble, hfiles, hpackages, hissues, List.append_nil,
    List.mergeSort_nil, placeText_child]
  rfl

/-- One struct alone is not called, and depends on nothing. -/
theorem found_twinProject : Report.found {} twinProject = twinReport := by
  have hdependencies : Dependencies.ofPackages twinProject.packages = ⟨["."], [], []⟩ := by
    simp [Dependencies.ofPackages, Dependencies.edgesOf, Dependencies.filesOf,
      Dependencies.importsOf, twinProject, twinFile, sortedDistinct, sortedBy, firstOfEach,
      skipRepeats]
  have hsymbols : SymbolTable.ofProject twinProject = ⟨twinProject.packages⟩ := by
    simp [SymbolTable.ofProject, SymbolTable.ofPackages, twinProject, sortedBy, firstOfEach,
      skipRepeats]
  have hnone : ((⟨".", "p", "", [twinFile]⟩ : Package).types.map (·.1.name)).filter (fun n =>
      (Package.typeOfForm? .interface (⟨".", "p", "", [twinFile]⟩ : Package) n).isSome) = [] := by
    decide +kernel
  have hinterfaces : (SymbolTable.ofProject twinProject).interfaces = [] := by
    rw [hsymbols]
    simp only [SymbolTable.interfaces, SymbolTable.typesOfForm, twinProject, List.flatMap_cons,
      Package.namesOfForm, hnone]
    simp [sortedDistinct, sortedBy, firstOfEach]
  have himplementations : (SymbolTable.ofProject twinProject).implementations = [] := by
    rw [SymbolTable.implementations, hinterfaces]
    rfl
  have hdegradations : (SymbolTable.ofProject twinProject).flattenDegradations = [] := by
    rw [SymbolTable.flattenDegradations, hinterfaces]
    rfl
  have hcalls (resolver : Resolver) : resolveCalls resolver twinProject.packages = [] := by
    show firstOfEach CallEdge.key (sortedBy CallEdge.key []) = []
    rw [sortedBy, List.mergeSort_nil]
    rfl
  have hentries : Report.entryPoints twinProject.packages = [] := by decide +kernel
  have hchains (calls : CallGraph) (depth : Nat) : Report.chainsOf calls depth [] = ([], []) := by
    simp [Report.chainsOf, sortedDistinct, sortedBy, firstOfEach]
  have hcycles : (Dependencies.mk ["."] [] []).cycles = [] := by
    simp [Dependencies.cycles, Dependencies.search, Dependencies.visit, Dependencies.targets,
      sortedDistinct, sortedBy, firstOfEach, skipRepeats]
  simp only [Report.found, hdependencies, himplementations, hdegradations, hcalls, hentries, hcycles]
  simp [hchains, twinReport, Dependencies.mark]

/-- The identifiers of the project, its package, its file, the struct and the two fields. -/
def twinIds : List Uuid :=
  [⟨0x629fd900e70d5fd59bb0db596bf6276d⟩, ⟨0x0e05e7c7e69b5ae3bb29de9aedc86ae9⟩,
    ⟨0x60701a53871b5c7bbdcf4e1dc1d88648⟩, ⟨0xafcd83f8c2eb586d9947b2a3aa7d8d42⟩,
    ⟨0x651ea784bdd95ea0819c07bc30f9dd8e⟩, ⟨0x651ea784bdd95ea0819c07bc30f9dd8e⟩]

/-- The name of a relationship between two nodes, which are known by their places. -/
def twinLinkName (ids : List Uuid) : Nat × Nat × RelationshipProperties → String
  | (source, target, properties) =>
    Identities.name "demo"
      (Identities.relationshipKey (ids.getD source default) (ids.getD target default) properties)

/-- The hash tells the names of the nodes apart. -/
theorem tellsApart_twinNodes : Identities.TellsApart twinDirectory.nodeNames := by
  have hnames : twinDirectory.nodeNames ⊆
      ["demo\x00Project\x00demo\x00/p\x000", "demo\x00Package\x00.\x00.\x000",
        "demo\x00File\x00p.go\x00p.go\x000", "demo\x00Struct\x00..T\x00p.go\x003",
        "demo\x00Field\x00..T._\x00p.go\x004"] := by
    decide +kernel
  exact Identities.tellsApart_of_nodup hnames (by decide +kernel)

/-- The hash tells the names of the relationships apart. -/
theorem tellsApart_twinLinks : Identities.TellsApart twinDirectory.linkNames := by
  have hids : twinDirectory.drafts.map (Identities.contentAddressed "demo").node = twinIds := by
    decide +kernel
  have hlinks : twinDirectory.linkNames =
      [(0, 1, .contains), (1, 2, .contains), (2, 3, .contains), (2, 4, .contains),
        (3, 4, .hasField false), (2, 5, .contains), (3, 5, .hasField false)].map
          (twinLinkName (twinDirectory.drafts.map (Identities.contentAddressed "demo").node)) := rfl
  have hnames : twinDirectory.linkNames ⊆
      [(0, 1, .contains), (1, 2, .contains), (2, 3, .contains), (2, 4, .contains),
        (3, 4, .hasField false)].map (twinLinkName twinIds) := by
    rw [hlinks, hids]
    -- both fields have one identifier
    simp [twinLinkName, twinIds]
  exact Identities.tellsApart_of_nodup hnames (by decide +kernel)

/-- Two blank fields on one line get one identifier, and the graph cannot be imported. -/
theorem contentAddressed_nodup_twin :
    let now : Instant := ⟨1970, 1, 1, 0, 0, 0, 0⟩
    let g := ofReport (.ofPolicy [] "demo" .contentAddressed) now "demo" twinProject twinReport
    (Project.read Languages.standard {} twinTree "/p").outcome .never = .ok twinProject ∧
      (Report.ofProject {} twinProject).outcome .never = .ok twinReport ∧
      twinTree.Named ∧ twinTree.Distinct ∧ (∀ x ∈ twinDirectory.drafts, x.Plain) ∧
      Identities.TellsApart twinDirectory.nodeNames ∧
      Identities.TellsApart twinDirectory.linkNames ∧
      ¬ (g.nodes.map (·.id)).Nodup ∧ ¬ (g.relationships.map (·.id)).Nodup ∧
      ¬ ∃ f, ((Session.importGraph 1000 now g).performIn (.sound .never) ⟨some .empty⟩).outcome =
        .ok f := by
  intro now g
  have hreport : (Report.ofProject {} twinProject).outcome .never = .ok twinReport := by
    rw [Report.ofProject_never twinProject (by decide), found_twinProject]
  have hnamed : twinTree.Named := by
    simp only [twinTree, twinFolder, FileTree.Named, FileTree.Each, EachEntry]
    decide +kernel
  have hdistinct : twinTree.Distinct := by
    simp [twinTree, twinFolder, FileTree.Distinct, EntriesDistinct]
  have hlegible : twinTree.Legible := by
    simp [twinTree, twinFolder, FileTree.Legible, FileTree.Each, EachEntry, FileName.isText_ofText]
  have hplain : ∀ x ∈ twinDirectory.drafts, x.Plain := by decide +kernel
  have htwice : ¬ twinDirectory.DeclaresOnce := by
    intro h
    have hfields := h ⟨0, 0, ⟨".", "p", "", [twinFile]⟩, twinFile⟩ List.mem_cons_self
    revert hfields
    decide +kernel
  obtain ⟨hpaths, hnodes, hlinks, himport⟩ := contentAddressed_nodup_iff read_twinTree hreport hnamed
    hdistinct [] "demo" now hplain tellsApart_twinNodes tellsApart_twinLinks
  refine ⟨read_twinTree, hreport, hnamed, hdistinct, hplain, tellsApart_twinNodes,
    tellsApart_twinLinks, fun h => htwice (hnodes.mp h).2,
    fun h => htwice ((hlinks (hpaths hlegible)).mp h).1, fun h => ?_⟩
  have hcalm : (Surroundings.sound .never).Calm := ⟨fun _ _ => rfl, fun _ => rfl⟩
  have honce := (himport (.sound .never) .empty 1000 now hcalm .fresh
    (fun _ _ m hm => absurd hm List.not_mem_nil) (fun _ _ m hm => absurd hm List.not_mem_nil)).mp h
  exact htwice honce.2.1

end Graph

end CodeGraph
