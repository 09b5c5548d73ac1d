import CodeGraph.Proofs.Graph.Containment
import CodeGraph.Proofs.Imports.Dependency

/-!
# Imports in a graph

* `importSpecs` — the imports of all files; `Graph.CarriesImport` says that a relationship stands for
  one, and `Graph.forall₂_carriesImport` that there is one for each.
* `Graph.importNames_perm` — the import paths with a node are those that the dependencies leave out.
* `Graph.importers` — the files of a package that import another one, told by relationships;
  `Graph.length_importers` counts them in the files.
* `Dependencies.filter_ends_mark` — the dependencies of one package on another, and
  `Graph.joining_dependsOn` the relationships that stand for them.
* `Graph.imports_agree` — the main result: these views of imports agree.
-/

namespace CodeGraph

/-! ### Imports in files -/

/-- The imports of all files, each with its file and its package. -/
def importSpecs (ps : List Package) : List (Package × SourceFile × ImportDecl) :=
  ps.flatMap fun k => k.files.flatMap fun f => f.imports.map fun i => (k, f, i)

theorem Directory.map_fileImports (d : Directory) :
    (d.fileImports.map fun u => (u.1.package, u.1.file, u.2)) = importSpecs d.project.packages := by
  rw [fileImports, List.map_flatMap, importSpecs]
  simp only [List.map_map]
  exact d.project.flatMap_slots fun k f => f.imports.map fun i => (k, f, i)

/-- The files of a package by its import path. -/
theorem Dependencies.filesOf_importPath {ps : List Package} (hpaths : (ps.map (·.importPath)).Nodup)
    {k : Package} (hk : k ∈ ps) : filesOf ps k.importPath = k.files := by
  rw [filesOf, filter_key_eq_singleton hpaths hk, List.flatMap_singleton]

/-- The files of some packages, slot by slot. -/
theorem Project.map_file_filter_slots (p : Project) (choose : Package → Bool) :
    (p.slots.filter (choose ·.package)).map (·.file) = (p.packages.filter choose).flatMap (·.files) := by
  have hpairs : p.slots.map (fun s => (s.package, s.file)) =
      p.packages.flatMap fun k => k.files.map fun f => (k, f) := by
    rw [List.map_eq_flatMap, p.flatMap_slots fun k f => [(k, f)]]
    refine List.flatMap_congr fun k _ => ?_
    rw [List.map_eq_flatMap]
  have hfiles (ks : List Package) : ((ks.flatMap fun k => k.files.map fun f => (k, f)).filter
      (choose ·.1)).map (·.2) = (ks.filter choose).flatMap (·.files) := by
    induction ks with
    | nil => rfl
    | cons k ks ih =>
      rw [List.flatMap_cons, List.filter_append, List.map_append, ih]
      cases hk : choose k with
      | true =>
        rw [List.filter_cons_of_pos hk, List.flatMap_cons, List.filter_eq_self.mpr, List.map_map]
        · exact congrArg (· ++ _) (List.map_id k.files)
        · exact List.forall_mem_map.mpr fun _ _ => hk
      | false =>
        rw [List.filter_cons_of_neg (by simp [hk]), List.filter_eq_nil_iff.mpr]
        · rfl
        · exact List.forall_mem_map.mpr fun _ _ => by simp [hk]
  rw [← hfiles, ← hpairs, List.filter_map, List.map_map]
  rfl

/-! ### Dependencies -/

namespace Dependencies

variable {ps : List Package} {k k' : Package}

/-- Number of files of a package that import another one. -/
def weightOf (k k' : Package) : Nat := k.files.countP fun f => (importsOf f).contains k'.importPath

theorem dependsOn_iff_weightOf (hpaths : (ps.map (·.importPath)).Nodup) (hk : k ∈ ps) (hk' : k' ∈ ps) :
    (ofPackages ps).DependsOn k.importPath k'.importPath ↔
      k.importPath ≠ k'.importPath ∧ 0 < weightOf k k' := by
  rw [dependsOn_ofPackages, weightOf, List.countP_pos_iff]
  simp only [List.contains_iff_mem, importsOf, List.mem_map]
  constructor
  · rintro ⟨hne, ⟨found, hfound, hsame, hfile⟩, -⟩
    rw [List.inj_on_of_nodup_map hpaths hfound hk hsame] at hfile
    exact ⟨hne, hfile⟩
  · rintro ⟨hne, hfile⟩
    exact ⟨hne, ⟨k, hk, rfl, hfile⟩, k', hk', rfl⟩

theorem weight_of_mem_edges (hpaths : (ps.map (·.importPath)).Nodup) (hk : k ∈ ps) {e : Dependency}
    (he : e ∈ (ofPackages ps).edges) (hsource : e.source = k.importPath)
    (htarget : e.target = k'.importPath) : e.weight = weightOf k k' := by
  obtain ⟨source, -, hedge⟩ := List.mem_flatMap.mp he
  obtain ⟨target, -, rfl⟩ := List.mem_map.mp hedge
  have hsource : source = k.importPath := hsource
  have htarget : target = k'.importPath := htarget
  show (filesOf ps source).countP _ = _
  rw [hsource, htarget, filesOf_importPath hpaths hk, weightOf]

/-- The dependencies of one package on another: one if any of its files imports it, with the number of
those files, and none of a package on itself. -/
theorem filter_ends_mark (hpaths : (ps.map (·.importPath)).Nodup) (hk : k ∈ ps) (hk' : k' ∈ ps)
    (cs : List Cycle) :
    let between := ((ofPackages ps).mark cs).edges.filter fun e =>
      e.source = k.importPath ∧ e.target = k'.importPath
    (k.importPath = k'.importPath ∨ weightOf k k' = 0 → between = []) ∧
      (k.importPath ≠ k'.importPath → weightOf k k' ≠ 0 →
        ∃ e, between = [e] ∧ e.weight = weightOf k k') := by
  intro between
  have hdepends := dependsOn_iff_weightOf hpaths hk hk'
  constructor
  · intro hnone
    refine List.filter_eq_nil_iff.mpr fun e he hends => ?_
    have hlead := ((sound_ofPackages ps).dependsOn_mark cs).mp ⟨e, he, of_decide_eq_true hends⟩
    obtain ⟨hne, hweight⟩ := hdepends.mp hlead
    rcases hnone with hsame | hzero
    · exact hne hsame
    · omega
  · intro hne hweight
    obtain ⟨e, he, hsource, htarget⟩ := hdepends.mpr ⟨hne, Nat.pos_of_ne_zero hweight⟩
    have hweight := weight_of_mem_edges hpaths hk he hsource htarget
    obtain ⟨e', he', hsource', htarget', hweight'⟩ : ∃ e' ∈ ((ofPackages ps).mark cs).edges,
        e'.source = k.importPath ∧ e'.target = k'.importPath ∧ e'.weight = weightOf k k' :=
      ⟨_, (sound_ofPackages ps).mem_mark_edges.mpr ⟨e, he, rfl⟩, hsource, htarget, hweight⟩
    refine ⟨e', ?_, hweight'⟩
    rw [← filter_key_eq_singleton (nodup_ends_mark ps cs) he']
    refine List.filter_congr fun e _ => decide_eq_decide.mpr ?_
    rw [ends, ends, Prod.mk.injEq, hsource', htarget']

end Dependencies

/-! ### Links of imports -/

namespace Directory

variable {d : Directory} {ids : Identities} {s : FileSlot} {k : Package} {i : Nat}

/-- A file is contained in its package alone. -/
theorem contains_file_iff (hpaths : (d.project.packages.map (·.importPath)).Nodup)
    (hfiles : (d.slots.map (·.file.path)).Nodup) (hs : s ∈ d.slots)
    (hk : (k, i) ∈ d.project.packages.zipIdx) :
    (∃ l ∈ labelled .contains (d.links ids), l.source = k.draft i ∧ l.target = s.draft) ↔
      s.package.importPath = k.importPath := by
  constructor
  · rintro ⟨l, hl, hsource, htarget⟩
    have howns := owns_of_contains hfiles hl default
    rw [hsource, htarget] at howns
    rcases howns.by_tier with ⟨htier | htier, -⟩ | ⟨-, k', f, howner, hfile⟩ | ⟨htier, -⟩
    · cases htier
    · cases htier
    · have hpackage := (NodeProperties.package.inj howner.properties).1
      exact (NodeProperties.file.inj hfile.properties).1.trans hpackage.symm
    · cases htier
  · intro hpath
    have hdraft : k.draft i = s.package.draft s.p := by
      have hfound := package?_slot hpaths hs
      rw [hpath, package?_draft hpaths hk] at hfound
      exact Option.some.inj hfound
    obtain ⟨hpackage, hfile⟩ := Project.mem_slots.mp hs
    refine ⟨.contains (s.package.draft s.p) s.draft, ?_, hdraft.symm, rfl⟩
    rw [contains_links]
    refine List.mem_append_left _ (List.mem_append_left _ (List.mem_append_left _ ?_))
    refine List.mem_flatMap.mpr ⟨_, hpackage, List.mem_cons_of_mem _ ?_⟩
    exact List.mem_map.mpr ⟨_, hfile, rfl⟩

/-- A file is linked with the packages that it imports. -/
theorem imports_package_iff (hpaths : (d.project.packages.map (·.importPath)).Nodup)
    (hfiles : (d.slots.map (·.file.path)).Nodup) (hs : s ∈ d.slots)
    (hk : (k, i) ∈ d.project.packages.zipIdx) :
    (∃ l ∈ labelled .imports (d.links ids), l.source = s.draft ∧ l.target = k.draft i) ↔
      (Dependencies.importsOf s.file).contains k.importPath = true := by
  rw [imports_links, List.contains_iff_mem, Dependencies.importsOf, List.mem_map]
  constructor
  · rintro ⟨l, hl, hsource, htarget⟩
    obtain ⟨u, hu, rfl⟩ := List.mem_map.mp hl
    obtain ⟨hslot, himport⟩ := mem_fileImports.mp hu
    have hfile : u.1.draft = s.draft := (draft_fileOf hfiles hslot).symm.trans hsource
    have hsame : u.1 = s :=
      List.inj_on_of_nodup_map hfiles hslot hs (congrArg Draft.qualifiedName hfile)
    refine ⟨u.2, hsame ▸ himport, ?_⟩
    rw [← qualifiedName_importLink, htarget]
    rfl
  · rintro ⟨imported, himport, hpath⟩
    have hmem : (s, imported) ∈ d.fileImports := mem_fileImports.mpr ⟨hs, himport⟩
    refine ⟨d.importLink (s, imported), List.mem_map_of_mem hmem, draft_fileOf hfiles hs, ?_⟩
    show (d.package? imported.path).getD _ = _
    rw [hpath, package?_draft hpaths hk]
    rfl

/-- The identifier of a package tells its import path. -/
theorem node_eq_iff_of_package? (hpaths : (d.project.packages.map (·.importPath)).Nodup)
    (hids : d.TellsHeadings ids) (hk : (k, i) ∈ d.project.packages.zipIdx) {path : String} {x : Draft}
    (hx : d.package? path = some x) : ids.node x = ids.node (k.draft i) ↔ path = k.importPath := by
  rw [(alone_package hids hpaths hk).node_eq_iff (holds_of_package? hx)]
  constructor
  · intro h
    rw [← qualifiedName_of_package? hx, h]
    rfl
  · intro h
    rw [h, package?_draft hpaths hk] at hx
    exact (Option.some.inj hx).symm

/-- The import paths with a draft are those that the dependencies leave out. -/
theorem importPaths_perm (d : Directory) :
    d.importPaths.Perm (Dependencies.ofPackages d.project.packages).externals := by
  have hused : (d.slots.flatMap fun s => s.file.imports.map (·.path)) =
      d.project.packages.flatMap fun k => k.files.flatMap Dependencies.importsOf :=
    d.project.flatMap_slots fun _ f => Dependencies.importsOf f
  have hnone (path : String) : (d.package? path).isNone =
      !(d.project.packages.map (·.importPath)).contains path := by
    rw [← Option.not_isSome]
    refine congrArg not (Bool.eq_iff_iff.mpr ?_)
    rw [Option.isSome_iff_exists, List.contains_iff_mem, List.mem_map]
    refine ⟨?_, exists_package?⟩
    rintro ⟨x, hx⟩
    obtain ⟨k, i, hk, hpath, -⟩ := package?_eq_some hx
    exact ⟨k, List.fst_mem_of_mem_zipIdx hk, hpath⟩
  rw [importPaths, hused]
  simp only [hnone]
  refine (List.perm_ext_iff_of_nodup (nodup_eraseDups _) (nodup_sortedDistinct _)).mpr fun path => ?_
  rw [List.mem_eraseDups, mem_sortedDistinct]

end Directory

/-! ### Graphs -/

namespace Graph

/-- A relationship stands for an import: it leads from the node of the file to that of the package
with the imported path, or else to that of the path. -/
structure CarriesImport (g : Graph) (ps : List Package) (u : Package × SourceFile × ImportDecl)
    (x : GraphRelationship) : Prop where
  source : ∃ n ∈ g.nodes, n.IsFile u.1 u.2.1 ∧ x.source = n.id
  target : (∃ k ∈ ps, k.importPath = u.2.2.path ∧ ∃ n ∈ g.nodes, n.IsPackage k ∧ x.target = n.id) ∨
    ((∀ k ∈ ps, k.importPath ≠ u.2.2.path) ∧
      ∃ n ∈ g.nodes, n.label = .importPath ∧ n.name = u.2.2.path ∧ x.target = n.id)
  properties : x.properties = .imports u.2.2.givenName u.2.2.line

/-- The files that a package contains and that import another one, told by relationships. -/
def importers (g : Graph) (a b : GraphNode) : List GraphNode :=
  g.nodes.filter fun f => f.label = .file ∧ g.joining .contains a f ≠ [] ∧ g.joining .imports f b ≠ []

variable {ids : Identities} {now : Instant} {projectId : String} {p : Project} {r : Report}

/-- The relationships of imports stand for the imports of files one for one. -/
theorem forall₂_carriesImport (hfiles : (p.slots.map (·.file.path)).Nodup) :
    List.Forall₂ ((ofReport ids now projectId p r).CarriesImport p.packages) (importSpecs p.packages)
      ((ofReport ids now projectId p r).relationships.filter (·.label = .imports)) := by
  let d : Directory := ⟨projectId, p, r⟩
  have hmade := forall₂_made_labelled ids now projectId p r .imports
  rw [Directory.imports_links, List.forall₂_map_left_iff] at hmade
  have hspecs : importSpecs p.packages = d.fileImports.map fun u => (u.1.package, u.1.file, u.2) :=
    d.map_fileImports.symm
  rw [hspecs, List.forall₂_map_left_iff]
  have hboth : List.Forall₂ (fun u x => u ∈ d.fileImports ∧ Link.Made ids (d.importLink u) x)
      d.fileImports ((ofReport ids now projectId p r).relationships.filter (·.label = .imports)) :=
    (List.forall₂_and_left _ _).mpr ⟨fun _ hu => hu, hmade⟩
  refine hboth.imp fun u x hux => ?_
  obtain ⟨hu, hx⟩ := hux
  obtain ⟨hs, himport⟩ := Directory.mem_fileImports.mp hu
  refine ⟨?_, ?_, hx.properties⟩
  · refine ⟨u.1.draft.node ids projectId now, ?_, ⟨rfl, rfl, rfl⟩, ?_⟩
    · exact node_mem_ofReport (.file hs)
    · rw [hx.source]
      exact congrArg ids.node (Directory.draft_fileOf hfiles hs)
  · have htarget : x.target = ids.node ((d.package? u.2.path).getD (importDraft u.2.path)) := hx.target
    cases hpackage : d.package? u.2.path with
    | some y =>
      rw [hpackage] at htarget
      obtain ⟨k, i, hk, hpath, rfl⟩ := Directory.package?_eq_some hpackage
      refine Or.inl ⟨k, List.fst_mem_of_mem_zipIdx hk, hpath, (k.draft i).node ids projectId now, ?_,
        ⟨rfl, rfl⟩, htarget⟩
      exact node_mem_ofReport (.package hk)
    | none =>
      rw [hpackage] at htarget
      have hmem : u.2.path ∈ d.importPaths :=
        Directory.mem_importPaths.mpr ⟨⟨u.1, hs, u.2, himport, rfl⟩, hpackage⟩
      refine Or.inr ⟨fun k hk hpath => ?_, (importDraft u.2.path).node ids projectId now, ?_, rfl, rfl,
        htarget⟩
      · obtain ⟨y, hy⟩ := Directory.exists_package? (d := d) ⟨k, hk, hpath⟩
        rw [hpackage] at hy
        cases hy
      · exact node_mem_ofReport (.importPath hmem)

/-- The import paths with a node are those that the dependencies leave out. -/
theorem importNames_perm :
    (((ofReport ids now projectId p r).nodes.filter (·.label = .importPath)).map (·.name)).Perm
      (Dependencies.ofPackages p.packages).externals := by
  let d : Directory := ⟨projectId, p, r⟩
  rw [filter_nodes_ofReport (fun x => x.label = .importPath) fun _ => rfl, List.map_map]
  have hnames := d.drafts_filter_importPaths.map (·.name)
  rw [List.map_map] at hnames
  have hpaths : d.importPaths.map (Draft.name ∘ importDraft) = d.importPaths := List.map_id _
  rw [show (d.importPaths.map ((fun x => x.name) ∘ importDraft)) = d.importPaths from hpaths] at hnames
  exact hnames.trans d.importPaths_perm

section

variable (hpaths : (p.packages.map (·.importPath)).Nodup)
  (hids : Directory.TellsHeadings ⟨projectId, p, r⟩ ids) {k k' : Package} {i i' : Nat}
  (hk : (k, i) ∈ p.packages.zipIdx) (hk' : (k', i') ∈ p.packages.zipIdx)

include hpaths hids hk hk'

/-- The files of a package that import another one are told by relationships. -/
theorem length_importers (now : Instant) (hfiles : (p.slots.map (·.file.path)).Nodup) :
    ((ofReport ids now projectId p r).importers ((k.draft i).node ids projectId now)
      ((k'.draft i').node ids projectId now)).length = Dependencies.weightOf k k' := by
  let d : Directory := ⟨projectId, p, r⟩
  let g := ofReport ids now projectId p r
  let a := (k.draft i).node ids projectId now
  let b := (k'.draft i').node ids projectId now
  have hslot : ∀ s ∈ d.slots, ((g.joining .contains a (s.draft.node ids projectId now) ≠ [] ∧
      g.joining .imports (s.draft.node ids projectId now) b ≠ []) ↔
      s.package.importPath = k.importPath ∧
        (Dependencies.importsOf s.file).contains k'.importPath = true) := by
    intro s hs
    have ha : d.Alone ids (k.draft i) := Directory.alone_package hids hpaths hk
    have hb : d.Alone ids (k'.draft i') := Directory.alone_package hids hpaths hk'
    have hf : d.Alone ids s.draft := Directory.alone_file hids hfiles hs
    refine and_congr ((joining_ne_nil_iff ha hf).trans ?_) ((joining_ne_nil_iff hf hb).trans ?_)
    · exact Directory.contains_file_iff hpaths hfiles hs hk
    · exact Directory.imports_package_iff hpaths hfiles hs hk'
  have hnodes : g.importers a b = (g.nodes.filter (·.label = .file)).filter fun f =>
      g.joining .contains a f ≠ [] ∧ g.joining .imports f b ≠ [] := by
    rw [importers, List.filter_filter]
    refine List.filter_congr fun f _ => ?_
    rw [Bool.decide_and, Bool.and_comm]
  have hcount : (g.importers a b).length = d.slots.countP fun s =>
      decide (s.package.importPath = k.importPath) &&
        (Dependencies.importsOf s.file).contains k'.importPath := by
    rw [hnodes, ← List.countP_eq_length_filter,
      filter_nodes_ofReport (fun x => x.label = .file) fun _ => rfl, List.countP_map,
      d.drafts_filter_files.countP_eq, List.countP_map]
    refine List.countP_congr fun s hs => ?_
    rw [Bool.and_eq_true, decide_eq_true_eq]
    exact decide_eq_true_iff.trans (hslot s hs)
  have hfilter := p.map_file_filter_slots fun found => found.importPath = k.importPath
  rw [hcount, Dependencies.weightOf,
    ← Dependencies.filesOf_importPath hpaths (List.fst_mem_of_mem_zipIdx hk), Dependencies.filesOf,
    ← hfilter, List.countP_map, List.countP_filter]
  refine List.countP_congr fun s _ => ?_
  rw [Bool.and_comm]
  rfl

/-- The relationships between two packages stand for the dependencies of one on the other. -/
theorem forall₂_depicts_joining (now : Instant) (hpackages : ∀ e ∈ r.dependencies.edges,
      (∃ k ∈ p.packages, k.importPath = e.source) ∧ ∃ k ∈ p.packages, k.importPath = e.target) :
    List.Forall₂ (Directory.Depicts ⟨projectId, p, r⟩ ids)
      (r.dependencies.edges.filter fun e => e.source = k.importPath ∧ e.target = k'.importPath)
      ((ofReport ids now projectId p r).joining .dependsOn ((k.draft i).node ids projectId now)
        ((k'.draft i').node ids projectId now)) := by
  rw [joining_eq_filter]
  refine List.rel_filter (fun e x he => ?_) (forall₂_depicts ids now projectId p r hpackages)
  obtain ⟨source, hsource, hx⟩ := he.source
  obtain ⟨target, htarget, hx'⟩ := he.target
  dsimp only
  rw [decide_eq_true_eq, decide_eq_true_eq, hx, hx']
  exact and_congr (Directory.node_eq_iff_of_package? hpaths hids hk hsource).symm
    (Directory.node_eq_iff_of_package? hpaths hids hk' htarget).symm

/-- A package depends on another one by one relationship if any of its files imports that one, and by
none otherwise. -/
theorem joining_dependsOn (now : Instant) {cs : List Cycle}
    (hdependencies : r.dependencies = (Dependencies.ofPackages p.packages).mark cs) :
    let between := (ofReport ids now projectId p r).joining .dependsOn
      ((k.draft i).node ids projectId now) ((k'.draft i').node ids projectId now)
    (k.importPath = k'.importPath ∨ Dependencies.weightOf k k' = 0 → between = []) ∧
      (k.importPath ≠ k'.importPath → Dependencies.weightOf k k' ≠ 0 →
        ∃ x inCycle, between = [x] ∧
          x.properties = .dependsOn (Dependencies.weightOf k k') inCycle) := by
  intro between
  have hends : ∀ e ∈ r.dependencies.edges,
      (∃ k ∈ p.packages, k.importPath = e.source) ∧ ∃ k ∈ p.packages, k.importPath = e.target := by
    intro e he
    rw [hdependencies] at he
    have hlead := ((Dependencies.sound_ofPackages _).dependsOn_mark cs).mp ⟨e, he, rfl, rfl⟩
    exact ⟨Dependencies.mem_packages.mp hlead.source_mem,
      Dependencies.mem_packages.mp hlead.target_mem⟩
  have hdepicts := forall₂_depicts_joining hpaths hids hk hk' now hends
  obtain ⟨hnone, hone⟩ := Dependencies.filter_ends_mark hpaths (List.fst_mem_of_mem_zipIdx hk)
    (List.fst_mem_of_mem_zipIdx hk') cs
  rw [hdependencies] at hdepicts
  constructor
  · intro h
    rw [hnone h] at hdepicts
    exact List.forall₂_nil_left_iff.mp hdepicts
  · intro hne hweight
    obtain ⟨e, he, hnumber⟩ := hone hne hweight
    rw [he] at hdepicts
    obtain ⟨x, rest, hx, hrest, hjoining⟩ := List.forall₂_cons_left_iff.mp hdepicts
    rw [List.forall₂_nil_left_iff.mp hrest] at hjoining
    exact ⟨x, e.inCycle, hjoining, by rw [hx.properties, hnumber]⟩

end

/-- **The views of imports agree.**  Where import paths and the paths of files are distinct, whatever
the settings of the analysis: the relationships of imports stand for the imports of files one for one;
the import paths with a node are, one each, those that the report leaves outside; and one package
depends on another one by one relationship if any file that it contains imports that one, with the
number of those files, and by none if no file does.  No package depends on itself. -/
theorem imports_agree {settings : AnalysisSettings} {signal : Signal}
    (hreport : (Report.ofProject settings p).outcome signal = .ok r)
    (hpaths : (p.packages.map (·.importPath)).Nodup)
    (hfiles : ((p.packages.flatMap (·.files)).map (·.path)).Nodup)
    (hids : Directory.TellsHeadings ⟨projectId, p, r⟩ ids) (now : Instant) :
    let g := ofReport ids now projectId p r
    List.Forall₂ (g.CarriesImport p.packages) (importSpecs p.packages)
        (g.relationships.filter (·.label = .imports)) ∧
      (((g.nodes.filter (·.label = .importPath)).map (·.name)).Perm r.dependencies.externals ∧
        r.dependencies.externals.Nodup) ∧
      ∀ a ∈ g.nodes, ∀ b ∈ g.nodes, a.label = .package → b.label = .package →
        (a = b ∨ g.importers a b = [] → g.joining .dependsOn a b = []) ∧
          (a ≠ b → g.importers a b ≠ [] → ∃ x inCycle, g.joining .dependsOn a b = [x] ∧
            x.properties = .dependsOn (g.importers a b).length inCycle) := by
  intro g
  let d : Directory := ⟨projectId, p, r⟩
  have hslots : (p.slots.map (·.file.path)).Nodup := p.map_path_slots ▸ hfiles
  obtain ⟨cs, hdependencies⟩ : ∃ cs, r.dependencies = (Dependencies.ofPackages p.packages).mark cs := by
    rw [Report.ofProject_eq_ok hreport]
    exact ⟨_, rfl⟩
  refine ⟨forall₂_carriesImport hslots, ⟨?_, ?_⟩, fun a ha b hb hlabel hlabel' => ?_⟩
  · rw [hdependencies]
    exact importNames_perm
  · rw [hdependencies]
    exact nodup_sortedDistinct _
  · obtain ⟨x, hx, rfl⟩ := mem_nodes_ofReport.mp ha
    obtain ⟨y, hy, rfl⟩ := mem_nodes_ofReport.mp hb
    obtain ⟨k, i, hk, rfl⟩ := Directory.exists_package_draft (Directory.mem_drafts.mp hx) hlabel
    obtain ⟨k', i', hk', rfl⟩ := Directory.exists_package_draft (Directory.mem_drafts.mp hy) hlabel'
    have hlength := length_importers hpaths hids hk hk' now hslots
    obtain ⟨hnone, hone⟩ := joining_dependsOn hpaths hids hk hk' now hdependencies
    rw [← hlength, List.length_eq_zero_iff] at hnone
    rw [← hlength] at hone
    constructor
    · intro h
      refine hnone (h.imp_left fun hsame => ?_)
      exact (NodeProperties.package.inj (congrArg GraphNode.properties hsame)).1
    · intro hne himporters
      refine hone (fun hpath => hne ?_) fun hzero => himporters (List.length_eq_zero_iff.mp hzero)
      exact eq_of_isPackage hpaths ha hb ⟨rfl, rfl⟩ ⟨rfl, rfl⟩ hpath

/-- A file with imports. -/
def importingFile (path package : String) (imports : List String) : SourceFile :=
  ⟨path, package, imports.map fun i => ⟨i, none, 3⟩, [], [], [], "", 9⟩

/-- Two files of a package import the other one; the first does so twice, and the second also imports
its own package. -/
def shared : Project :=
  ⟨"/p", none,
    [⟨"m/a", "a", "a", [importingFile "a/one.go" "a" ["m/b", "m/b", "fmt"],
        importingFile "a/two.go" "a" ["m/a", "m/b", "fmt"]]⟩,
      ⟨"m/b", "b", "b", [importingFile "b/b.go" "b" []]⟩], []⟩

/-- Six imports are two files that import the other package. -/
theorem imports_agree_shared :
    let ids : Identities := .ofPolicy [] "demo" .contentAddressed
    let now : Instant := ⟨1970, 1, 1, 0, 0, 0, 0⟩
    let r := Report.found {} shared
    let g := ofReport ids now "demo" shared r
    (Report.ofProject {} shared).outcome .never = .ok r ∧
      (shared.packages.map (·.importPath)).Nodup ∧
      ((shared.packages.flatMap (·.files)).map (·.path)).Nodup ∧
      Directory.TellsHeadings ⟨"demo", shared, r⟩ ids ∧
      (g.relationships.filter (·.label = .imports)).length = 6 ∧
      ∃ a ∈ g.nodes, ∃ b ∈ g.nodes, a.label = .package ∧ b.label = .package ∧ a.name = "a" ∧
        b.name = "b" ∧ ∃ x inCycle, g.joining .dependsOn a b = [x] ∧
          x.properties = .dependsOn 2 inCycle := by
  intro ids now r g
  have hreport : (Report.ofProject {} shared).outcome .never = .ok r :=
    Report.ofProject_never shared (by decide)
  have hpaths : (shared.packages.map (·.importPath)).Nodup := by decide
  have hfiles : ((shared.packages.flatMap (·.files)).map (·.path)).Nodup := by decide
  have hnodup : (g.nodes.map (·.id)).Nodup := (congrArg List.Nodup map_id_nodes).mpr (by decide +kernel)
  have hids : Directory.TellsHeadings ⟨"demo", shared, r⟩ ids := tellsHeadings_of_nodup hnodup
  obtain ⟨himports, -, hdepends⟩ := imports_agree hreport hpaths hfiles hids now
  have ha : ((⟨"m/a", "a", "a", [importingFile "a/one.go" "a" ["m/b", "m/b", "fmt"],
        importingFile "a/two.go" "a" ["m/a", "m/b", "fmt"]]⟩ : Package), 0) ∈
      shared.packages.zipIdx := by decide
  have hb : ((⟨"m/b", "b", "b", [importingFile "b/b.go" "b" []]⟩ : Package), 1) ∈
      shared.packages.zipIdx := by decide
  have hlength := length_importers hpaths hids ha hb now (by decide)
  have hnode {k : Package} {i : Nat} (hk : (k, i) ∈ shared.packages.zipIdx) :
      (k.draft i).node ids "demo" now ∈ g.nodes := node_mem_ofReport (.package hk)
  refine ⟨hreport, hpaths, hfiles, hids, himports.length_eq.symm, _, hnode ha, _, hnode hb, rfl, rfl,
    rfl, rfl, ?_⟩
  obtain ⟨-, hone⟩ := hdepends _ (hnode ha) _ (hnode hb) rfl rfl
  rw [hlength] at hone
  refine hone (fun hsame => ?_) fun hnone => ?_
  · exact absurd (congrArg GraphNode.name hsame) (by decide)
  · rw [hnone] at hlength
    exact absurd hlength (by decide)

end Graph

end CodeGraph
