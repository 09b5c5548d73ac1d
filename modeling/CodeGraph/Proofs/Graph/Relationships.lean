import CodeGraph.Proofs.Graph.Links
import Mathlib.Data.List.Forall2

/-!
# Links and relationships

* `Link.Made` — a relationship is made from a link.
* `Graph.forall₂_made_labelled` — the relationships of a label are made from the links of that label,
  one for one; `Graph.forall₂_made_filter` says so of those that are chosen among them.
* `Graph.exists_made`, `Graph.exists_link` — every link has its relationship, and every relationship
  its link.
* `Directory.Depicts` — a relationship stands for a dependency; `Graph.forall₂_depicts` says that there
  is one for every dependency whose packages are found.
-/

namespace CodeGraph

/-- A relationship is made from a link. -/
structure Link.Made (ids : Identities) (l : Link) (x : GraphRelationship) : Prop where
  source : x.source = ids.node l.source
  target : x.target = ids.node l.target
  properties : x.properties = l.properties
  label : x.label = l.label

/-- A relationship stands for a dependency: it joins the packages and carries the flag. -/
structure Directory.Depicts (d : Directory) (ids : Identities) (e : Dependency)
    (x : GraphRelationship) : Prop where
  source : ∃ package, d.package? e.source = some package ∧ x.source = ids.node package
  target : ∃ package, d.package? e.target = some package ∧ x.target = ids.node package
  properties : x.properties = .dependsOn e.weight e.inCycle

namespace Directory

variable {d : Directory}

/-- Every package is found by its import path. -/
theorem exists_package? {path : String} (h : ∃ k ∈ d.project.packages, k.importPath = path) :
    ∃ x, d.package? path = some x := by
  obtain ⟨k, hk, hpath⟩ := h
  obtain ⟨i, hi⟩ := List.mem_iff_getElem?.mp hk
  have hplaced : (k, i) ∈ d.project.packages.zipIdx := List.mk_mem_zipIdx_iff_getElem?.mpr hi
  refine Option.isSome_iff_exists.mp ?_
  rw [package?, Option.isSome_map, List.find?_isSome]
  exact ⟨_, List.mem_reverse.mpr hplaced, decide_eq_true hpath⟩

end Directory

namespace Graph

variable (ids : Identities) (now : Instant) (projectId : String) (p : Project) (r : Report)

/-- The relationships of a graph are made from the links, one for one. -/
theorem forall₂_made : List.Forall₂ (Link.Made ids) (Directory.links ⟨projectId, p, r⟩ ids)
    (ofReport ids now projectId p r).relationships := by
  have hplaced : List.Forall₂ (Link.Made ids)
      ((Directory.links ⟨projectId, p, r⟩ ids).zipIdx.map Prod.fst)
      (ofReport ids now projectId p r).relationships := by
    rw [relationships_ofReport]
    exact List.forall₂_map_left_iff.mpr <| List.forall₂_map_right_iff.mpr <|
      List.forall₂_same.mpr fun _ _ => ⟨rfl, rfl, rfl, rfl⟩
  rwa [List.zipIdx_map_fst] at hplaced

/-- The relationships of a label are made from the links of that label, one for one. -/
theorem forall₂_made_labelled (label : RelationshipType) :
    List.Forall₂ (Link.Made ids) (labelled label (Directory.links ⟨projectId, p, r⟩ ids))
      ((ofReport ids now projectId p r).relationships.filter (·.label = label)) := by
  refine List.rel_filter (fun l x hmade => ?_) (forall₂_made ids now projectId p r)
  simp only [hmade.label]

/-- Every link has its relationship. -/
theorem exists_made {l : Link} (h : l ∈ Directory.links ⟨projectId, p, r⟩ ids) :
    ∃ x ∈ (ofReport ids now projectId p r).relationships, Link.Made ids l x := by
  obtain ⟨i, hi⟩ := List.mem_iff_getElem?.mp h
  have hplace := List.mk_mem_zipIdx_iff_getElem?.mpr hi
  rw [relationships_ofReport]
  exact ⟨_, List.mem_map_of_mem hplace, rfl, rfl, rfl, rfl⟩

/-- Every relationship is made from a link. -/
theorem exists_link {x : GraphRelationship}
    (h : x ∈ (ofReport ids now projectId p r).relationships) :
    ∃ l ∈ Directory.links ⟨projectId, p, r⟩ ids, Link.Made ids l x :=
  exists_of_forall₂ (forall₂_made ids now projectId p r) h

/-- Relationships are chosen as the links are that they are made from. -/
theorem forall₂_made_filter {label : RelationshipType} {select : Link → Bool}
    {choose : GraphRelationship → Bool}
    (h : ∀ l x, Directory.Joins ⟨projectId, p, r⟩ l → Link.Made ids l x →
      (select l = true ↔ choose x = true)) :
    List.Forall₂ (Link.Made ids)
      ((labelled label (Directory.links ⟨projectId, p, r⟩ ids)).filter select)
      (((ofReport ids now projectId p r).relationships.filter (·.label = label)).filter choose) := by
  have hmade : List.Forall₂ (fun l x => Directory.Joins ⟨projectId, p, r⟩ l ∧ Link.Made ids l x)
      (labelled label (Directory.links ⟨projectId, p, r⟩ ids))
      ((ofReport ids now projectId p r).relationships.filter (·.label = label)) := by
    refine (List.forall₂_and_left _ _).mpr ⟨fun l hl => ?_, ?_⟩
    · exact Directory.joins_of_mem_links (List.mem_filter.mp hl).1
    · exact forall₂_made_labelled ids now projectId p r label
  exact (List.rel_filter (fun l x hlx => h l x hlx.1 hlx.2) hmade).imp fun _ _ hlx => hlx.2

/-- The relationships of dependencies stand for them one for one, as long as their packages are
found. -/
theorem forall₂_depicts (hpackages : ∀ e ∈ r.dependencies.edges,
      (∃ k ∈ p.packages, k.importPath = e.source) ∧ ∃ k ∈ p.packages, k.importPath = e.target) :
    List.Forall₂ (Directory.Depicts ⟨projectId, p, r⟩ ids) r.dependencies.edges
      ((ofReport ids now projectId p r).relationships.filter (·.label = .dependsOn)) := by
  have hmade := forall₂_made_labelled ids now projectId p r .dependsOn
  rw [Directory.dependsOn_links] at hmade
  refine forall₂_trans (fun e l x hl hx => ?_) (forall₂_filterMap fun e he => ?_) hmade
  · obtain ⟨hsource, htarget, hproperties⟩ := Link.between_eq_some.mp hl
    exact ⟨⟨_, hsource, hx.source⟩, ⟨_, htarget, hx.target⟩, hx.properties.trans hproperties⟩
  · obtain ⟨hsource, htarget⟩ := hpackages e he
    obtain ⟨source, hsource⟩ := Directory.exists_package? (d := ⟨projectId, p, r⟩) hsource
    obtain ⟨target, htarget⟩ := Directory.exists_package? (d := ⟨projectId, p, r⟩) htarget
    rw [hsource, htarget]
    rfl

end Graph

end CodeGraph
