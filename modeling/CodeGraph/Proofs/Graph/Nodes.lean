import CodeGraph.Proofs.Graph.Calls
import CodeGraph.Proofs.Graph.Declarations

/-!
# Nodes and the relationships between them

* `GraphNode.IsPackage`, `GraphNode.IsFile` — a node stands for a package, or for a file of one.
* `Directory.package?_draft`, `Directory.eq_draft_of_path` — where paths are distinct, one node alone
  stands for a package, and one for a file.
* `Directory.Alone` — no other node of the graph has the identifier of a node.
* `Graph.entering`, `Graph.joining` — the relationships of a label that lead to a node, and those
  between two nodes; they are made from the links to the draft of that node, or between the drafts of
  both, one for one (`Graph.forall₂_entering`, `Graph.forall₂_joining`).
-/

namespace CodeGraph

/-- A node stands for a package. -/
structure GraphNode.IsPackage (n : GraphNode) (k : Package) : Prop where
  label : n.label = .package
  properties : n.properties = .package k.importPath k.name k.folder k.files.length

/-- A node stands for a file of a package. -/
structure GraphNode.IsFile (n : GraphNode) (k : Package) (f : SourceFile) : Prop where
  label : n.label = .file
  path : n.path = some f.path
  properties : n.properties = .file k.importPath f.contentHash f.lineCount

namespace Directory

variable {d : Directory} {s : FileSlot} {x y : Draft} {k : Package} {i : Nat}

/-! ### Nodes by their labels -/

/-- What a directory holds stands in the tier of its label. -/
theorem mem_tier (tier : Nat × List Draft) (hx : d.Holds x) (htier : tier ∈ d.tiers)
    (h : x.label.tier = tier.1) : x ∈ tier.2 :=
  (drafts_filter_tier tier htier).mem_iff.mp
    (List.mem_filter.mpr ⟨mem_drafts.mpr hx, decide_eq_true h⟩)

theorem eq_root (hx : d.Holds x) (h : x.label = .project) : x = d.root :=
  List.mem_singleton.mp (mem_tier (0, [d.root]) hx (by simp [tiers]) (by rw [h]; rfl))

theorem exists_package_draft (hx : d.Holds x) (h : x.label = .package) :
    ∃ k i, (k, i) ∈ d.project.packages.zipIdx ∧ x = k.draft i := by
  have hmem := mem_tier (1, d.project.packages.zipIdx.map fun u => u.1.draft u.2) hx
    (List.mem_cons_of_mem _ List.mem_cons_self) (by rw [h]; rfl)
  obtain ⟨⟨k, i⟩, hk, hdraft⟩ := List.mem_map.mp hmem
  exact ⟨k, i, hk, hdraft.symm⟩

theorem exists_file_draft (hx : d.Holds x) (h : x.label = .file) : ∃ s ∈ d.slots, x = s.draft := by
  have hmem := mem_tier (2, d.slots.map FileSlot.draft) hx (by simp [tiers])
    (by rw [h]; rfl)
  obtain ⟨s, hs, hdraft⟩ := List.mem_map.mp hmem
  exact ⟨s, hs, hdraft.symm⟩

theorem exists_import_draft (hx : d.Holds x) (h : x.label = .importPath) :
    ∃ path ∈ d.importPaths, x = importDraft path := by
  have hmem := mem_tier (4, d.importPaths.map importDraft) hx (by simp [tiers])
    (by rw [h]; rfl)
  obtain ⟨path, hpath, hdraft⟩ := List.mem_map.mp hmem
  exact ⟨path, hpath, hdraft.symm⟩

/-- Where import paths are distinct, a package is found by its own. -/
theorem package?_draft (hpaths : (d.project.packages.map (·.importPath)).Nodup)
    (hk : (k, i) ∈ d.project.packages.zipIdx) : d.package? k.importPath = some (k.draft i) := by
  have hkeys : (d.project.packages.zipIdx.reverse.map (·.1.importPath)).Nodup := by
    rw [List.map_reverse, List.nodup_reverse, map_zipIdx_fst Package.importPath]
    exact hpaths
  have hfind := (find?_key_eq_some hkeys).mpr ⟨List.mem_reverse.mpr hk, rfl⟩
  show (d.project.packages.zipIdx.reverse.find? (·.1.importPath = k.importPath)).map _ = _
  rw [hfind]
  rfl

/-- Where import paths are distinct, the package of a file is found by the path. -/
theorem package?_slot (hpaths : (d.project.packages.map (·.importPath)).Nodup) (hs : s ∈ d.slots) :
    d.package? s.package.importPath = some (s.package.draft s.p) :=
  package?_draft hpaths (Project.mem_slots.mp hs).1

/-- Where paths are distinct, one node alone stands for a file. -/
theorem eq_draft_of_path (hfiles : (d.slots.map (·.file.path)).Nodup) (hx : d.Holds x)
    (h : x.label = .file) (hs : s ∈ d.slots) (hpath : x.path = some s.file.path) : x = s.draft := by
  obtain ⟨t, ht, rfl⟩ := exists_file_draft hx h
  have hsame : t.file.path = s.file.path := Option.some.inj hpath
  rw [List.inj_on_of_nodup_map hfiles ht hs hsame]

/-! ### Nodes by their identifiers -/

/-- No other node has the identifier. -/
def Alone (d : Directory) (ids : Identities) (x : Draft) : Prop :=
  ∀ y ∈ d.drafts, ids.node y = ids.node x → y = x

variable {ids : Identities}

theorem Alone.node_eq_iff (h : d.Alone ids x) (hy : d.Holds y) : ids.node y = ids.node x ↔ y = x := by
  constructor
  · intro hids
    exact h y (mem_drafts.mpr hy) hids
  · intro heq
    rw [heq]

/-- The heading of a package tells it from all others where import paths are distinct. -/
theorem alone_package (hids : d.TellsHeadings ids)
    (hpaths : (d.project.packages.map (·.importPath)).Nodup)
    (hk : (k, i) ∈ d.project.packages.zipIdx) : d.Alone ids (k.draft i) := by
  intro y hy h
  have hheading := hids y hy _ (mem_drafts.mpr (.package hk)) h
  simp only [Draft.heading, Prod.mk.injEq] at hheading
  obtain ⟨hlabel, hname, -, -⟩ := hheading
  obtain ⟨k', i', hk', rfl⟩ := exists_package_draft (mem_drafts.mp hy) hlabel
  have hpath : k'.importPath = k.importPath := hname
  have hfound := package?_draft hpaths hk'
  rw [hpath, package?_draft hpaths hk] at hfound
  exact (Option.some.inj hfound).symm

/-- The heading of a file tells it from all others where paths are distinct. -/
theorem alone_file (hids : d.TellsHeadings ids) (hfiles : (d.slots.map (·.file.path)).Nodup)
    (hs : s ∈ d.slots) : d.Alone ids s.draft := by
  intro y hy h
  have hheading := hids y hy _ (mem_drafts.mpr (.file hs)) h
  simp only [Draft.heading, Prod.mk.injEq] at hheading
  obtain ⟨hlabel, hname, -, -⟩ := hheading
  obtain ⟨t, ht, rfl⟩ := exists_file_draft (mem_drafts.mp hy) hlabel
  have hpath : t.file.path = s.file.path := hname
  rw [List.inj_on_of_nodup_map hfiles ht hs hpath]

end Directory

/-! ### Relationships by their ends -/

namespace Graph

/-- The relationships of a label that lead to a node. -/
def entering (g : Graph) (label : RelationshipType) (n : GraphNode) : List GraphRelationship :=
  g.relationships.filter fun x => x.label = label ∧ x.target = n.id

/-- The relationships of a label that lead from one node to another. -/
def joining (g : Graph) (label : RelationshipType) (a b : GraphNode) : List GraphRelationship :=
  g.relationships.filter fun x => x.label = label ∧ x.source = a.id ∧ x.target = b.id

variable {ids : Identities} {now : Instant} {projectId : String} {p : Project} {r : Report}

section

variable (hids : ((ofReport ids now projectId p r).nodes.map (·.id)).Nodup)

include hids

theorem nodup_drafts : (Directory.drafts ⟨projectId, p, r⟩).Nodup := by
  rw [map_id_nodes] at hids
  exact hids.of_map

/-- Where identifiers are distinct, every node has its own. -/
theorem alone_of_nodup {x : Draft} (hx : Directory.Holds ⟨projectId, p, r⟩ x) :
    Directory.Alone ⟨projectId, p, r⟩ ids x := by
  rw [map_id_nodes] at hids
  intro y hy hsame
  exact List.inj_on_of_nodup_map hids hy (Directory.mem_drafts.mpr hx) hsame

/-- Where identifiers are distinct, they tell everything. -/
theorem tellsHeadings_of_nodup : Directory.TellsHeadings ⟨projectId, p, r⟩ ids := by
  intro x hx y hy hsame
  rw [alone_of_nodup hids (Directory.mem_drafts.mp hy) x hx hsame]

end

theorem entering_eq_filter (g : Graph) (label : RelationshipType) (n : GraphNode) :
    g.entering label n = (g.relationships.filter (·.label = label)).filter (·.target = n.id) := by
  rw [entering, List.filter_filter]
  refine List.filter_congr fun x _ => ?_
  rw [Bool.decide_and, Bool.and_comm]

theorem joining_eq_filter (g : Graph) (label : RelationshipType) (a b : GraphNode) :
    g.joining label a b = (g.relationships.filter (·.label = label)).filter fun x =>
      x.source = a.id ∧ x.target = b.id := by
  rw [joining, List.filter_filter]
  refine List.filter_congr fun x _ => ?_
  rw [Bool.decide_and, Bool.and_comm]

/-- The relationships that lead to a node are made from the links to its draft. -/
theorem forall₂_entering (now : Instant) (label : RelationshipType) {x : Draft}
    (hx : Directory.Alone ⟨projectId, p, r⟩ ids x) :
    List.Forall₂ (Link.Made ids)
      ((labelled label (Directory.links ⟨projectId, p, r⟩ ids)).filter (·.target = x))
      ((ofReport ids now projectId p r).entering label (x.node ids projectId now)) := by
  rw [entering_eq_filter]
  refine forall₂_made_filter ids now projectId p r fun l e hl he => ?_
  rw [decide_eq_true_eq, decide_eq_true_eq, he.target]
  exact (hx.node_eq_iff hl.2).symm

/-- The relationships between two nodes are made from the links between their drafts. -/
theorem forall₂_joining (now : Instant) (label : RelationshipType) {x y : Draft}
    (hx : Directory.Alone ⟨projectId, p, r⟩ ids x) (hy : Directory.Alone ⟨projectId, p, r⟩ ids y) :
    List.Forall₂ (Link.Made ids)
      ((labelled label (Directory.links ⟨projectId, p, r⟩ ids)).filter fun l =>
        l.source = x ∧ l.target = y)
      ((ofReport ids now projectId p r).joining label (x.node ids projectId now)
        (y.node ids projectId now)) := by
  rw [joining_eq_filter]
  refine forall₂_made_filter ids now projectId p r fun l e hl he => ?_
  rw [decide_eq_true_eq, decide_eq_true_eq, he.source, he.target]
  exact and_congr (hx.node_eq_iff hl.1).symm (hy.node_eq_iff hl.2).symm

/-- Nodes are joined where their drafts are linked. -/
theorem joining_ne_nil_iff {label : RelationshipType} {x y : Draft}
    (hx : Directory.Alone ⟨projectId, p, r⟩ ids x) (hy : Directory.Alone ⟨projectId, p, r⟩ ids y) :
    (ofReport ids now projectId p r).joining label (x.node ids projectId now)
        (y.node ids projectId now) ≠ [] ↔
      ∃ l ∈ labelled label (Directory.links ⟨projectId, p, r⟩ ids), l.source = x ∧ l.target = y := by
  have hlength := (forall₂_joining now label hx hy).length_eq
  rw [← List.length_pos_iff, ← hlength, List.length_pos_iff_exists_mem]
  simp only [List.mem_filter, decide_eq_true_eq]

end Graph

end CodeGraph
