import CodeGraph.Proofs.Graph.Nodes
import Mathlib.Logic.Relation

/-!
# What contains what

* `Project.Owns` — who owns a node: the project owns packages and imports, a package its files, and a
  file what it declares; `Project.Owns.tier_lt` says that owners stand above what they own, and
  `Graph.owner_unique` that a node has one owner at most.
* `Directory.owns_of_contains` — what contains a node owns it.
* `Graph.entering_root`, `Graph.exists_entering` — the project is contained in nothing, and every other
  node in one.
* `Graph.contains_tree` — the main result.
-/

namespace CodeGraph

open Relation (ReflTransGen)

/-- One node owns another: the project its packages and its imports, a package its files, and a file
what it declares. -/
inductive Project.Owns (p : Project) : GraphNode → GraphNode → Prop
  | package {owner n : GraphNode} {k : Package} (hk : k ∈ p.packages)
      (howner : owner.label = .project) (hn : n.IsPackage k) : Owns p owner n
  | importPath {owner n : GraphNode} (howner : owner.label = .project) (hn : n.label = .importPath) :
      Owns p owner n
  | file {owner n : GraphNode} {k : Package} {f : SourceFile} (hk : k ∈ p.packages)
      (hf : f ∈ k.files) (howner : owner.IsPackage k) (hn : n.IsFile k f) : Owns p owner n
  | declared {owner n : GraphNode} {k : Package} {f : SourceFile} {c : Declaration}
      (hk : k ∈ p.packages) (hf : f ∈ k.files) (hc : c ∈ f.declarations) (howner : owner.IsFile k f)
      (hn : n.shown = c.shown f.path) : Owns p owner n

theorem Declaration.tier_label (c : Declaration) : c.label.tier = 3 := by
  cases c with
  | type t =>
    rw [Declaration.label]
    cases t.form <;> rfl
  | field f => rfl
  | value v =>
    rw [Declaration.label]
    cases v.form <;> rfl
  | function f =>
    rw [Declaration.label]
    cases f.isMethod <;> rfl

/-- The tier of a node tells what owns it. -/
theorem Project.Owns.by_tier {p : Project} {owner n : GraphNode} (h : p.Owns owner n) :
    ((n.label.tier = 1 ∨ n.label.tier = 4) ∧ owner.label = .project) ∨
      (n.label.tier = 2 ∧ ∃ k f, owner.IsPackage k ∧ n.IsFile k f) ∨
      (n.label.tier = 3 ∧ ∃ k f, owner.IsFile k f ∧ n.path = some f.path) := by
  cases h with
  | package hk howner hn =>
    refine Or.inl ⟨Or.inl ?_, howner⟩
    rw [hn.label]
    rfl
  | importPath howner hn =>
    refine Or.inl ⟨Or.inr ?_, howner⟩
    rw [hn]
    rfl
  | @file k f hk hf howner hn =>
    refine Or.inr (Or.inl ⟨?_, k, f, howner, hn⟩)
    rw [hn.label]
    rfl
  | @declared k f c hk hf hc howner hn =>
    have hlabel : n.label = c.label := congrArg Shown.label hn
    refine Or.inr (Or.inr ⟨?_, k, f, howner, congrArg Shown.path hn⟩)
    rw [hlabel, c.tier_label]

/-- An owner stands above what it owns. -/
theorem Project.Owns.tier_lt {p : Project} {owner n : GraphNode} (h : p.Owns owner n) :
    owner.label.tier < n.label.tier := by
  rcases h.by_tier with ⟨htier, howner⟩ | ⟨htier, k, f, howner, -⟩ | ⟨htier, k, f, howner, -⟩
  · rw [howner]
    show 0 < _
    omega
  · rw [howner.label]
    show 1 < _
    omega
  · rw [howner.label]
    show 2 < _
    omega

namespace Directory

variable {d : Directory} {ids : Identities}

/-- What contains a node owns it. -/
theorem owns_of_contains (hfiles : (d.slots.map (·.file.path)).Nodup) {l : Link}
    (h : l ∈ labelled .contains (d.links ids)) (now : Instant) :
    d.project.Owns (l.source.node ids d.projectId now) (l.target.node ids d.projectId now) := by
  have hdeclared {s : FileSlot} (hs : s ∈ d.slots) {x : Draft} (hx : x ∈ d.declared s) :
      d.project.Owns ((d.fileOf s).node ids d.projectId now) (x.node ids d.projectId now) := by
    obtain ⟨hk, hf⟩ := Project.mem_slots.mp hs
    obtain ⟨c, hc, hshown⟩ := exists_declaration hx
    rw [draft_fileOf hfiles hs]
    exact .declared (List.fst_mem_of_mem_zipIdx hk) (List.fst_mem_of_mem_zipIdx hf) hc ⟨rfl, rfl, rfl⟩
      hshown
  rw [contains_links] at h
  simp only [packageLinks, List.mem_append, List.mem_flatMap, List.mem_cons, List.mem_map,
    Prod.exists] at h
  rcases h with ((⟨k, i, hk, rfl | ⟨file, j, hf, rfl⟩⟩ | ⟨s, hs, x, hx, rfl⟩) | ⟨s, hs, x, hx, rfl⟩) |
    ⟨path, -, rfl⟩
  · exact .package (List.fst_mem_of_mem_zipIdx hk) rfl ⟨rfl, rfl⟩
  · exact .file (List.fst_mem_of_mem_zipIdx hk) (List.fst_mem_of_mem_zipIdx hf) ⟨rfl, rfl⟩
      ⟨rfl, rfl, rfl⟩
  · exact hdeclared hs (List.mem_append_left _ (List.mem_append.mpr hx))
  · exact hdeclared hs (List.mem_append_right _ hx)
  · exact .importPath rfl rfl

end Directory

namespace Graph

/-- One node of a graph contains another. -/
def Contains (g : Graph) (a b : GraphNode) : Prop :=
  a ∈ g.nodes ∧ b ∈ g.nodes ∧ ∃ x ∈ g.entering .contains b, x.source = a.id

variable {ids : Identities} {now : Instant} {projectId : String} {p : Project} {r : Report}

theorem eq_of_project {a b : GraphNode} (ha : a ∈ (ofReport ids now projectId p r).nodes)
    (hb : b ∈ (ofReport ids now projectId p r).nodes) (h : a.label = .project)
    (h' : b.label = .project) : a = b := by
  obtain ⟨x, hx, rfl⟩ := mem_nodes_ofReport.mp ha
  obtain ⟨y, hy, rfl⟩ := mem_nodes_ofReport.mp hb
  rw [Directory.eq_root (Directory.mem_drafts.mp hx) h, Directory.eq_root (Directory.mem_drafts.mp hy) h']

/-- Where import paths are distinct, one node alone stands for a package. -/
theorem eq_of_isPackage (hpaths : (p.packages.map (·.importPath)).Nodup) {a b : GraphNode}
    {k k' : Package} (ha : a ∈ (ofReport ids now projectId p r).nodes)
    (hb : b ∈ (ofReport ids now projectId p r).nodes) (h : a.IsPackage k) (h' : b.IsPackage k')
    (hpath : k.importPath = k'.importPath) : a = b := by
  have hfound {n : GraphNode} {k : Package} (hn : n ∈ (ofReport ids now projectId p r).nodes)
      (h : n.IsPackage k) : ∃ x, x.node ids projectId now = n ∧
        Directory.package? ⟨projectId, p, r⟩ k.importPath = some x := by
    obtain ⟨x, hx, rfl⟩ := mem_nodes_ofReport.mp hn
    obtain ⟨k', i, hk, rfl⟩ := Directory.exists_package_draft (Directory.mem_drafts.mp hx) h.label
    have hpath : k'.importPath = k.importPath := (NodeProperties.package.inj h.properties).1
    exact ⟨_, rfl, hpath ▸ Directory.package?_draft hpaths hk⟩
  obtain ⟨x, rfl, hx⟩ := hfound ha h
  obtain ⟨y, rfl, hy⟩ := hfound hb h'
  rw [hpath, hy] at hx
  rw [Option.some.inj hx]

/-- Where paths are distinct, one node alone stands for a file. -/
theorem eq_of_isFile (hfiles : (p.slots.map (·.file.path)).Nodup) {a b : GraphNode}
    {k k' : Package} {f f' : SourceFile} (ha : a ∈ (ofReport ids now projectId p r).nodes)
    (hb : b ∈ (ofReport ids now projectId p r).nodes) (h : a.IsFile k f) (h' : b.IsFile k' f')
    (hpath : f.path = f'.path) : a = b := by
  obtain ⟨x, hx, rfl⟩ := mem_nodes_ofReport.mp ha
  obtain ⟨y, hy, rfl⟩ := mem_nodes_ofReport.mp hb
  obtain ⟨s, hs, rfl⟩ := Directory.exists_file_draft (Directory.mem_drafts.mp hx) h.label
  have hsame : y.path = some s.file.path := by
    rw [show some s.file.path = some f.path from h.path, hpath]
    exact h'.path
  have hfiles : ((Directory.mk projectId p r).slots.map (·.file.path)).Nodup := hfiles
  rw [Directory.eq_draft_of_path hfiles (Directory.mem_drafts.mp hy) h'.label hs hsame]

/-- Where paths are distinct, a node has one owner at most. -/
theorem owner_unique (hpaths : (p.packages.map (·.importPath)).Nodup)
    (hfiles : (p.slots.map (·.file.path)).Nodup) {a b n : GraphNode}
    (ha : a ∈ (ofReport ids now projectId p r).nodes)
    (hb : b ∈ (ofReport ids now projectId p r).nodes) (h : p.Owns a n) (h' : p.Owns b n) : a = b := by
  -- the tier of a node tells in which way it is owned
  rcases h.by_tier with ⟨htier, howner⟩ | ⟨htier, k, f, howner, hn⟩ | ⟨htier, k, f, howner, hn⟩ <;>
    rcases h'.by_tier with ⟨htier', howner'⟩ | ⟨htier', k', f', howner', hn'⟩ |
      ⟨htier', k', f', howner', hn'⟩ <;>
    try omega
  · exact eq_of_project ha hb howner howner'
  · have hpath := (NodeProperties.file.inj (hn.properties.symm.trans hn'.properties)).1
    exact eq_of_isPackage hpaths ha hb howner howner' hpath
  · exact eq_of_isFile hfiles ha hb howner howner' (Option.some.inj (hn.symm.trans hn'))

/-! ### What leads to a node -/

section

variable (hids : ((ofReport ids now projectId p r).nodes.map (·.id)).Nodup)

include hids

/-- Nothing contains the project. -/
theorem entering_root : (ofReport ids now projectId p r).entering .contains
    ((p.draft projectId).node ids projectId now) = [] := by
  let d : Directory := ⟨projectId, p, r⟩
  have hdrafts : d.drafts.Nodup := nodup_drafts hids
  rw [← Directory.root_cons_targets d ids, List.nodup_cons] at hdrafts
  have hnone : (labelled .contains (d.links ids)).filter (·.target = d.root) = [] := by
    refine List.filter_eq_nil_iff.mpr fun l hl htarget => hdrafts.1 ?_
    exact List.mem_map.mpr ⟨l, hl, of_decide_eq_true htarget⟩
  have hmade := forall₂_entering now .contains (alone_of_nodup hids Directory.Holds.root)
  rw [show Directory.root ⟨projectId, p, r⟩ = d.root from rfl, hnone] at hmade
  exact List.forall₂_nil_left_iff.mp hmade

/-- One node contains every other one. -/
theorem exists_entering {x : Draft} (hx : Directory.Holds ⟨projectId, p, r⟩ x)
    (hne : x ≠ p.draft projectId) :
    ∃ l ∈ labelled .contains (Directory.links ⟨projectId, p, r⟩ ids), l.target = x ∧
      ∃ e, (ofReport ids now projectId p r).entering .contains (x.node ids projectId now) = [e] ∧
        Link.Made ids l e := by
  let d : Directory := ⟨projectId, p, r⟩
  have hdrafts : d.drafts.Nodup := nodup_drafts hids
  have hmem : x ∈ d.drafts := Directory.mem_drafts.mpr hx
  rw [← Directory.root_cons_targets d ids] at hdrafts hmem
  obtain ⟨l, hl, rfl⟩ := List.mem_map.mp ((List.mem_cons.mp hmem).resolve_left hne)
  have hmade := forall₂_entering now .contains (alone_of_nodup hids hx)
  have halone := filter_key_eq_singleton (List.nodup_cons.mp hdrafts).2 hl
  rw [halone] at hmade
  obtain ⟨e, rest, he, hrest, hall⟩ := List.forall₂_cons_left_iff.mp hmade
  rw [List.forall₂_nil_left_iff.mp hrest] at hall
  exact ⟨l, hl, rfl, e, hall, he⟩

end

/-- **Containment is a tree.**  Let import paths, the paths of files and the identifiers of nodes be
distinct, whatever the report says.  There is one node of the project, and nothing contains it.  Every
other node has one owner: the project owns the nodes of packages and imports, the node of a package
those of its files, and the node of a file those of what it declares.  One relationship alone contains
it, and that comes from the owner.  So every node is reached from the project. -/
theorem contains_tree (hpaths : (p.packages.map (·.importPath)).Nodup)
    (hfiles : ((p.packages.flatMap (·.files)).map (·.path)).Nodup)
    (hids : ((ofReport ids now projectId p r).nodes.map (·.id)).Nodup) :
    let g := ofReport ids now projectId p r
    ∃ root, g.nodes.filter (·.label = .project) = [root] ∧ g.entering .contains root = [] ∧
      (∀ n ∈ g.nodes, n ≠ root → ∃ owner ∈ g.nodes, p.Owns owner n ∧
        (∀ other ∈ g.nodes, p.Owns other n → other = owner) ∧
        ∃ e, g.entering .contains n = [e] ∧ e.source = owner.id) ∧
      ∀ n ∈ g.nodes, ReflTransGen g.Contains root n := by
  intro g
  let d : Directory := ⟨projectId, p, r⟩
  have hslots : (d.slots.map (·.file.path)).Nodup := p.map_path_slots ▸ hfiles
  have hroot : d.root.node ids projectId now ∈ g.nodes := node_mem_ofReport .root
  have howners : ∀ n ∈ g.nodes, n ≠ d.root.node ids projectId now →
      ∃ owner ∈ g.nodes, p.Owns owner n ∧ ∃ e, g.entering .contains n = [e] ∧ e.source = owner.id := by
    intro n hn hne
    obtain ⟨x, hx, rfl⟩ := mem_nodes_ofReport.mp hn
    have hx := Directory.mem_drafts.mp hx
    obtain ⟨l, hl, rfl, e, he, hmade⟩ := exists_entering hids hx fun heq => hne (by rw [heq]; rfl)
    have hsource := (Directory.joins_of_mem_links (List.mem_filter.mp hl).1).1
    refine ⟨l.source.node ids projectId now, ?_, ?_, e, he, hmade.source⟩
    · exact node_mem_ofReport hsource
    · exact Directory.owns_of_contains hslots hl now
  refine ⟨d.root.node ids projectId now, ?_, entering_root hids, fun n hn hne => ?_, ?_⟩
  · refine filter_eq_of_mem_and_iff hids.of_map fun n => ⟨?_, ?_⟩
    · intro hn
      exact eq_of_project hn.1 hroot hn.2 rfl
    · intro heq
      rw [heq]
      exact ⟨hroot, rfl⟩
  · obtain ⟨owner, howner, howns, hedge⟩ := howners n hn hne
    refine ⟨owner, howner, howns, fun other hother h => ?_, hedge⟩
    exact owner_unique hpaths hslots hother howner h howns
  · -- owners stand above what they own, so going up from owner to owner ends at the project
    intro n hn
    induction htier : n.label.tier using Nat.strongRecOn generalizing n with
    | ind tier ih =>
      by_cases hne : n = d.root.node ids projectId now
      · rw [hne]
      · obtain ⟨owner, howner, howns, e, he, hsource⟩ := howners n hn hne
        have hlt : owner.label.tier < tier := htier ▸ howns.tier_lt
        refine (ih _ hlt owner howner rfl).tail ⟨howner, hn, e, ?_, hsource⟩
        rw [he]
        exact List.mem_singleton_self e

/-- A file with an import, a struct with a field, and a method. -/
def boxFile : SourceFile :=
  { path := "box.go", package := "box", imports := [⟨"fmt", none, 3⟩]
    functions := [⟨"Put", "func (b Box) Put()", "Box", false, [], [], .exported, ⟨9, 9⟩, 1, []⟩]
    types := [⟨"Box", .struct, .exported, ⟨5, 7⟩, [⟨"Name", "string", .exported, false, 6⟩], [], []⟩]
    values := [], contentHash := "", lineCount := 9 }

/-- The package of that file. -/
def boxed : Project := ⟨"/p", some "m", [⟨"m", "box", "", [boxFile]⟩], []⟩

/-- Its six other nodes are contained in one each. -/
theorem contains_tree_boxed :
    let g := ofReport (.ofPolicy [] "demo" .contentAddressed) ⟨1970, 1, 1, 0, 0, 0, 0⟩ "demo" boxed
      (Report.found {} boxed)
    (boxed.packages.map (·.importPath)).Nodup ∧
      ((boxed.packages.flatMap (·.files)).map (·.path)).Nodup ∧ (g.nodes.map (·.id)).Nodup ∧
      g.nodes.map (·.label) = [.project, .package, .file, .struct, .field, .method, .importPath] ∧
      ∃ root, g.nodes.filter (·.label = .project) = [root] ∧
        ∀ n ∈ g.nodes, n ≠ root → ∃ owner ∈ g.nodes, boxed.Owns owner n ∧
          ∃ e, g.entering .contains n = [e] ∧ e.source = owner.id := by
  intro g
  have hpaths : (boxed.packages.map (·.importPath)).Nodup := by decide
  have hfiles : ((boxed.packages.flatMap (·.files)).map (·.path)).Nodup := by decide
  have hids : (g.nodes.map (·.id)).Nodup := by decide +kernel
  have hlabels : g.nodes.map (·.label) =
      [.project, .package, .file, .struct, .field, .method, .importPath] := by
    decide +kernel
  obtain ⟨root, hroot, -, howners, -⟩ := contains_tree hpaths hfiles hids
  refine ⟨hpaths, hfiles, hids, hlabels, root, hroot, fun n hn hne => ?_⟩
  obtain ⟨owner, howner, howns, -, hedge⟩ := howners n hn hne
  exact ⟨owner, howner, howns, hedge⟩

end Graph

end CodeGraph
