import CodeGraph.Proofs.Graph.Places

/-!
# Graphs of packages in any order

* `Link.unplaced` — a link without places; `Reordered.contains_perm` and the like say that the links of a
  label are the same up to order, and `Reordered.links_perm`, `Reordered.drafts_perm` that all links and
  drafts are.
* `Graph.SameUpToOrder` — two graphs have the same nodes and relationships, written in another order and
  maybe at another time.
* `Project.analysis_reordered` — the main result.
-/

namespace CodeGraph

open Hash (Uuid)

/-- What is left of a link if places are ignored. -/
def Link.unplaced (l : Link) : Link := ⟨l.source.unplaced, l.target.unplaced, l.properties⟩

/-- Identifiers of nodes that do not tell of places. -/
def Identities.Unplaced (ids : Identities) : Prop := ∀ x : Draft, ids.node x.unplaced = ids.node x

theorem Link.unplaced_congr {x y z w : Draft} {q : RelationshipProperties}
    (hsource : x.unplaced = y.unplaced) (htarget : z.unplaced = w.unplaced) :
    Link.unplaced ⟨x, z, q⟩ = Link.unplaced ⟨y, w, q⟩ := by
  rw [Link.unplaced, Link.unplaced, hsource, htarget]

/-- A link between ends that are looked up. -/
theorem Link.unplaced_between (source target : Option Draft) (q : RelationshipProperties) :
    (do Pure.pure ⟨← source, ← target, q⟩ : Option Link).map Link.unplaced =
      (do Pure.pure ⟨← source.map Draft.unplaced, ← target.map Draft.unplaced, q⟩ : Option Link) := by
  cases source <;> cases target <;> rfl

/-- Links that are the same up to order label by label are the same up to order. -/
theorem map_unplaced_perm {ls ms : List Link}
    (h : ∀ label, ((labelled label ls).map Link.unplaced).Perm ((labelled label ms).map Link.unplaced)) :
    (ls.map Link.unplaced).Perm (ms.map Link.unplaced) := by
  have hgroups (ls : List Link) : (RelationshipType.all.flatMap fun label =>
      (labelled label ls).map Link.unplaced).Perm (ls.map Link.unplaced) := by
    rw [← List.map_flatMap]
    exact (flatMap_filter_perm Link.label (by decide) ls fun l _ => by cases l.label <;> decide).map _
  exact (hgroups ls).symm.trans ((List.Perm.flatMap_left _ fun label _ => h label).trans (hgroups ms))

namespace Directory.Reordered

variable {d d' : Directory} {ids : Identities}

/-! ### What contains what -/

theorem packageLinks_perm (h : d.Reordered d') :
    (d.packageLinks.map Link.unplaced).Perm (d'.packageLinks.map Link.unplaced) := by
  have hlinks (d : Directory) : d.packageLinks.map Link.unplaced = d.project.packages.flatMap fun k =>
      ⟨d.root.unplaced, (k.draft 0).unplaced, .contains⟩ :: k.slots.map fun s =>
        ⟨(k.draft 0).unplaced, s.draft.unplaced, .contains⟩ := by
    rw [packageLinks, List.map_flatMap, ← flatMap_zipIdx_fst _ d.project.packages]
    refine List.flatMap_congr fun u _ => ?_
    rw [List.map_cons, List.map_map, Package.slots, List.map_map]
    rfl
  rw [hlinks, hlinks, h.root]
  exact h.packages.flatMap_right _

/-- The same is declared in the same files. -/
theorem map_contains (h : d.Reordered d') {s : FileSlot} {i : Nat} (hs : s ∈ d.slots)
    (hs' : { s with p := i } ∈ d'.slots) {xs ys : List Draft}
    (hdrafts : xs.map Draft.unplaced = ys.map Draft.unplaced) :
    (xs.map (Link.contains (d.fileOf s))).map Link.unplaced =
      (ys.map (Link.contains (d'.fileOf { s with p := i }))).map Link.unplaced := by
  have hlinks (owner : Draft) (xs : List Draft) : (xs.map (Link.contains owner)).map Link.unplaced =
      (xs.map Draft.unplaced).map (Link.contains owner.unplaced) := by
    rw [List.map_map, List.map_map]
    rfl
  rw [hlinks, hlinks, hdrafts, h.fileOf hs hs']

theorem map_typeDrafts (h : d.Reordered d') {s : FileSlot} {i : Nat} (hs : s ∈ d.slots)
    (hs' : { s with p := i } ∈ d'.slots) : (d.typeDrafts s).map Draft.unplaced =
      (d'.typeDrafts { s with p := i }).map Draft.unplaced := by
  rw [typeDrafts, typeDrafts, ← h.typesOf hs hs', List.map_flatMap, List.map_flatMap]
  refine List.flatMap_congr fun u _ => ?_
  rw [List.map_cons, List.map_cons, FileSlot.fieldDrafts, FileSlot.fieldDrafts, List.map_map, List.map_map,
    List.map_map, List.map_map]
  rfl

theorem map_valueDrafts (s : FileSlot) (i : Nat) : s.valueDrafts.map Draft.unplaced =
    (FileSlot.valueDrafts { s with p := i }).map Draft.unplaced := by
  rw [FileSlot.valueDrafts, FileSlot.valueDrafts, List.map_map, List.map_map]
  rfl

theorem map_functionDrafts (h : d.Reordered d') (s : FileSlot) (i : Nat) :
    (d.functionDrafts s).map Draft.unplaced =
      (d'.functionDrafts { s with p := i }).map Draft.unplaced := by
  rw [functionDrafts, functionDrafts, List.map_map, List.map_map]
  exact List.map_congr_left fun u _ => h.functionDraft s i u.1 u.2

theorem contains_perm (h : d.Reordered d') : ((labelled .contains (d.links ids)).map Link.unplaced).Perm
    ((labelled .contains (d'.links ids)).map Link.unplaced) := by
  rw [contains_links, contains_links]
  simp only [List.map_append, List.map_flatMap]
  refine ((h.packageLinks_perm.append (h.flatMap_slots_perm fun s hs i hs' => ?_)).append
    (h.flatMap_slots_perm fun s hs i hs' => ?_)).append ?_
  · rw [← List.map_append, ← List.map_append, ← List.map_append, ← List.map_append]
    refine h.map_contains hs hs' ?_
    rw [List.map_append, List.map_append, h.map_typeDrafts hs hs', map_valueDrafts s i]
  · exact h.map_contains hs hs' (h.map_functionDrafts s i)
  · rw [h.root]
    exact (h.importPaths_perm.map _).map _

/-! ### What belongs to types, and imports -/

theorem hasField_perm (h : d.Reordered d') : ((labelled .hasField (d.links ids)).map Link.unplaced).Perm
    ((labelled .hasField (d'.links ids)).map Link.unplaced) := by
  rw [hasField_links, hasField_links, List.map_flatMap, List.map_flatMap]
  refine h.flatMap_slots_perm fun s hs i hs' => ?_
  rw [hasField_typeLinks, hasField_typeLinks, ← h.typesOf hs hs', List.map_flatMap, List.map_flatMap]
  refine List.flatMap_congr fun u _ => ?_
  obtain ⟨t, n⟩ := u
  simp only [FileSlot.fieldDrafts, List.map_map]
  rfl

theorem hasMethod_perm (h : d.Reordered d') :
    ((labelled .hasMethod (d.links ids)).map Link.unplaced).Perm
      ((labelled .hasMethod (d'.links ids)).map Link.unplaced) := by
  rw [hasMethod_links, hasMethod_links, List.map_flatMap, List.map_flatMap]
  refine h.flatMap_slots_perm fun s hs i hs' => ?_
  rw [hasMethod_functionLinks, hasMethod_functionLinks, List.map_filterMap, List.map_filterMap]
  refine List.filterMap_congr fun u _ => ?_
  obtain ⟨f, n⟩ := u
  have hlink (owner : Option Draft) (x : Draft) (q : RelationshipProperties) :
      (owner.map fun type => (⟨type, x, q⟩ : Link)).map Link.unplaced =
        (owner.map Draft.unplaced).map fun type => ⟨type, x.unplaced, q⟩ := by
    cases owner <;> rfl
  dsimp only
  rw [hlink, hlink, h.functionDraft s i f n]
  cases f.isMethod with
  | false => rfl
  | true =>
    rw [if_pos rfl, if_pos rfl, h.type?]

theorem imports_perm (h : d.Reordered d') : ((labelled .imports (d.links ids)).map Link.unplaced).Perm
    ((labelled .imports (d'.links ids)).map Link.unplaced) := by
  have hlinks (d : Directory) : (d.fileImports.map d.importLink).map Link.unplaced =
      d.slots.flatMap fun s => s.file.imports.map fun i => (d.importLink (s, i)).unplaced := by
    rw [List.map_map]
    exact map_inSlots fun s i => (d.importLink (s, i)).unplaced
  rw [imports_links, imports_links, hlinks, hlinks]
  refine h.flatMap_slots_perm fun s hs i hs' => List.map_congr_left fun imported _ => ?_
  have htarget : ((d.package? imported.path).getD (importDraft imported.path)).unplaced =
      ((d'.package? imported.path).getD (importDraft imported.path)).unplaced := by
    rw [← Option.getD_map Draft.unplaced, ← Option.getD_map Draft.unplaced, h.package?]
  exact Link.unplaced_congr (h.fileOf hs hs') htarget

/-! ### What the report finds -/

theorem dependencyLinks (h : d.Reordered d') :
    d.dependencyLinks.map Link.unplaced = d'.dependencyLinks.map Link.unplaced := by
  rw [Directory.dependencyLinks, Directory.dependencyLinks, List.map_filterMap, List.map_filterMap,
    h.dependencies]
  refine List.filterMap_congr fun e _ => ?_
  rw [Link.unplaced_between, Link.unplaced_between, h.package?, h.package?]

theorem implementationLinks (h : d.Reordered d') :
    d.implementationLinks.map Link.unplaced = d'.implementationLinks.map Link.unplaced := by
  rw [Directory.implementationLinks, Directory.implementationLinks, List.map_filterMap,
    List.map_filterMap, h.implementations]
  refine List.filterMap_congr fun i _ => ?_
  rw [Link.unplaced_between, Link.unplaced_between, h.type?, h.type?]

theorem callLinks (h : d.Reordered d') (hids : ids.Unplaced) (known : List (Uuid × Uuid))
    (calls : List CallEdge) : (d.callLinks ids known calls).map Link.unplaced =
      (d'.callLinks ids known calls).map Link.unplaced := by
  induction calls generalizing known with
  | nil => rw [Directory.callLinks, Directory.callLinks]
  | cons e rest ih =>
    rw [Directory.callLinks, Directory.callLinks]
    dsimp only
    obtain ⟨hcaller, hcaller'⟩ | ⟨x, y, hcaller, hcaller', hxy⟩ :=
      cases_of_map_eq (h.function? e.caller)
    · rw [hcaller, hcaller']
      exact ih known
    · rw [hcaller, hcaller']
      cases e.target with
      | resolved f =>
        dsimp only
        rw [List.map_append, List.map_append, ih]
        obtain ⟨hcallee, hcallee'⟩ | ⟨z, w, hcallee, hcallee', hzw⟩ := cases_of_map_eq (h.function? f)
        · rw [hcallee, hcallee']
          rfl
        · rw [hcallee, hcallee']
          exact congrArg (· :: _) (Link.unplaced_congr hxy hzw)
      | unresolved name reason => exact ih known
      | external package name =>
        dsimp only
        rw [h.import?]
        cases d'.import? package with
        | none => exact ih known
        | some target =>
          dsimp only
          have hnode : ids.node x = ids.node y := by rw [← hids x, hxy, hids y]
          rw [hnode]
          split
          · exact ih known
          · rw [List.map_cons, List.map_cons, ih, Link.unplaced_congr hxy rfl]

/-! ### All links and drafts -/

theorem links_perm (h : d.Reordered d') (hids : ids.Unplaced) :
    ((d.links ids).map Link.unplaced).Perm ((d'.links ids).map Link.unplaced) := by
  refine map_unplaced_perm fun label => ?_
  cases label with
  | contains => exact h.contains_perm
  | imports => exact h.imports_perm
  | hasMethod => exact h.hasMethod_perm
  | hasField => exact h.hasField_perm
  | dependsOn => rw [dependsOn_links, dependsOn_links, h.dependencyLinks]
  | implements => rw [implements_links, implements_links, h.implementationLinks]
  | calls => rw [calls_links, calls_links, h.callLinks hids, h.calls]

/-- The drafts are the project and what is contained in something. -/
theorem drafts_perm (h : d.Reordered d') :
    (d.drafts.map Draft.unplaced).Perm (d'.drafts.map Draft.unplaced) := by
  have hdrafts (d : Directory) : d.drafts.map Draft.unplaced = d.root.unplaced ::
      ((labelled .contains (d.links (.contentAddressed ""))).map Link.unplaced).map (·.target) := by
    rw [← root_cons_targets d (.contentAddressed ""), List.map_cons, List.map_map, List.map_map]
    rfl
  rw [hdrafts, hdrafts, h.root]
  exact (h.contains_perm.map _).cons _

theorem unresolvedCount (h : d.Reordered d') : d.unresolvedCount = d'.unresolvedCount := by
  have hcaller (e : CallEdge) : (d.function? e.caller).isSome = (d'.function? e.caller).isSome := by
    rw [← Option.isSome_map, h.function?, Option.isSome_map]
  simp only [Directory.unresolvedCount, h.calls, hcaller]

end Directory.Reordered

/-! ### Graphs -/

/-- What is left of a node if the time of writing is ignored. -/
def GraphNode.undated (n : GraphNode) : GraphNode := { n with createdAt := default }

/-- What is left of a relationship if the time of writing is ignored. -/
def GraphRelationship.undated (x : GraphRelationship) : GraphRelationship := { x with createdAt := default }

namespace Graph

/-- Two graphs have the same nodes and relationships, with the same identifiers; the order and the times
of writing may be others. -/
structure SameUpToOrder (g g' : Graph) : Prop where
  projectId : g.projectId = g'.projectId
  nodes : (g.nodes.map GraphNode.undated).Perm (g'.nodes.map GraphNode.undated)
  relationships : (g.relationships.map GraphRelationship.undated).Perm
    (g'.relationships.map GraphRelationship.undated)
  summary : g.summary = g'.summary

section

variable {projectId : String} {now : Instant} {p : Project} {r : Report}

theorem map_undated_nodes : (ofReport (.contentAddressed projectId) now projectId p r).nodes.map
      GraphNode.undated =
    ((Directory.drafts ⟨projectId, p, r⟩).map Draft.unplaced).map
      (Draft.node (.contentAddressed projectId) projectId default) := by
  rw [nodes_ofReport, List.map_map, List.map_map]
  rfl

theorem map_undated_relationships : (ofReport (.contentAddressed projectId) now projectId p
      r).relationships.map GraphRelationship.undated =
    ((Directory.links ⟨projectId, p, r⟩ (.contentAddressed projectId)).map Link.unplaced).map
      (Link.relationship (.contentAddressed projectId) projectId default 0) := by
  rw [relationships_ofReport, List.map_map, List.map_map]
  exact map_zipIdx_fst
    (Link.relationship (.contentAddressed projectId) projectId default 0 ∘ Link.unplaced) _

end

/-- Packages in another order make the same graph up to order, if the reports are the same up to order. -/
theorem ofReport_perm {p : Project} {qs : List Package} {r r' : Report} (h : p.packages.Perm qs)
    (hpaths : (p.packages.map (·.importPath)).Nodup)
    (hfiles : ((p.packages.flatMap (·.files)).map (·.path)).Nodup) (hr : r.SameUpToOrder r')
    (projectId : String) (now now' : Instant) :
    (ofReport (.contentAddressed projectId) now projectId p r).SameUpToOrder
      (ofReport (.contentAddressed projectId) now' projectId { p with packages := qs } r') := by
  have hd : Directory.Reordered ⟨projectId, p, r⟩ ⟨projectId, { p with packages := qs }, r'⟩ :=
    ⟨h, hpaths, hfiles, rfl, hr.edges, hr.implementations, hr.calls⟩
  have hids : (Identities.contentAddressed projectId).Unplaced := fun _ => rfl
  have hlinks := hd.links_perm hids
  have hnodes (label : NodeType) : (Directory.drafts ⟨projectId, p, r⟩).countP (·.label = label) =
      (Directory.drafts ⟨projectId, { p with packages := qs }, r'⟩).countP (·.label = label) := by
    have hcount := hd.drafts_perm.countP_eq fun x => decide (x.label = label)
    rwa [List.countP_map, List.countP_map] at hcount
  have himplementations := hlinks.countP_eq fun l => decide (l.properties.label = .implements)
  rw [List.countP_map, List.countP_map] at himplementations
  refine ⟨by simp, ?_, ?_, ?_⟩
  · rw [map_undated_nodes, map_undated_nodes]
    exact hd.drafts_perm.map _
  · rw [map_undated_relationships, map_undated_relationships]
    exact hlinks.map _
  · rw [summary_ofReport, summary_ofReport]
    simp only [Directory.graph, hnodes, hr.calls, hd.unresolvedCount, hr.cycles, Summary.mk.injEq,
      true_and, and_true]
    exact himplementations

end Graph

/-! ### The analysis and the graph -/

/-- **The order of packages does not matter.**  Let import paths and the paths of files be distinct.  With
the packages in any order the analysis ends with the same error, or with the same report up to the order of
figures and degradations, and the content-addressed graphs have the same nodes and relationships.  Nor
does it matter in which order the types and functions of a package are gone through. -/
theorem Project.analysis_reordered {p : Project} {qs : List Package} (h : p.packages.Perm qs)
    (hpaths : (p.packages.map (·.importPath)).Nodup)
    (hfiles : ((p.packages.flatMap (·.files)).map (·.path)).Nodup) (settings : AnalysisSettings)
    (signal : Signal) :
    (∃ e, (Report.ofProject settings p).outcome signal = .error e ∧
      (Report.ofProject settings { p with packages := qs }).outcome signal = .error e) ∨
    ∃ r r', (Report.ofProject settings p).outcome signal = .ok r ∧
      (Report.ofProject settings { p with packages := qs }).outcome signal = .ok r' ∧
      r.SameUpToOrder r' ∧
      (∀ projectId now now', (Graph.ofReport (.contentAddressed projectId) now projectId p r).SameUpToOrder
        (Graph.ofReport (.contentAddressed projectId) now' projectId { p with packages := qs } r')) ∧
      ∀ types functions, (∀ k ∈ p.packages, HoldsFirsts (·.1.name) k.types (types k)) →
        (∀ k ∈ p.packages, HoldsFirsts Package.nameOf k.functions (functions k)) →
        Report.foundIn ((SymbolTable.ofProject p).listed types functions) settings p = r := by
  rcases (Report.ofProject_perm settings h hpaths).outcome signal with
    ⟨e, he, he'⟩ | ⟨r, r', hr, hr', hsame⟩
  · exact Or.inl ⟨e, he, he'⟩
  · refine Or.inr ⟨r, r', hr, hr', hsame, Graph.ofReport_perm h hpaths hfiles hsame,
      fun types functions htypes hfunctions => ?_⟩
    have hlisted : (SymbolTable.ofProject p).SameNames ((SymbolTable.ofProject p).listed types functions) :=
      SymbolTable.sameNames_listed (fun k hk => htypes k (SymbolTable.mem_of_mem_packages hk))
        fun k hk => hfunctions k (SymbolTable.mem_of_mem_packages hk)
    rw [Report.ofProject_eq_ok hr, Report.found_eq_foundIn]
    exact (Report.foundIn_of_sameNames hlisted settings p).symm

/-- A program of two functions that calls into another package. -/
def callingPackage : Package :=
  ⟨"a", "main", "a",
    [⟨"a/a.go", "main", [⟨"b", none, 3⟩],
      [⟨"main", "func main()", "", false, [], [], .unexported, ⟨5, 7⟩, 1,
          [⟨"Run", some "b", none, .direct, 6⟩]⟩,
        ⟨"init", "func init()", "", false, [], [], .unexported, ⟨9, 9⟩, 1, []⟩], [], [], "", 9⟩]⟩

def calledPackage : Package :=
  ⟨"b", "b", "b",
    [⟨"b/b.go", "b", [], [⟨"Run", "func Run()", "", false, [], [], .exported, ⟨3, 3⟩, 1, []⟩], [], [],
      "", 3⟩]⟩

/-- The figures of the functions stand in the order of packages; nothing else changes, nor if the functions
of each package are gone through backwards. -/
theorem Project.analysis_reordered_pair :
    let p : Project := ⟨"/p", none, [callingPackage, calledPackage], []⟩
    let q : Project := { p with packages := [calledPackage, callingPackage] }
    p.packages.Perm q.packages ∧ (p.packages.map (·.importPath)).Nodup ∧
      ((p.packages.flatMap (·.files)).map (·.path)).Nodup ∧
      ∃ r r', (Report.ofProject {} p).outcome .never = .ok r ∧
        (Report.ofProject {} q).outcome .never = .ok r' ∧ r.SameUpToOrder r' ∧
        r.dependencies.packages = ["a", "b"] ∧ r'.dependencies.packages = ["b", "a"] ∧
        (∀ projectId now, (Graph.ofReport (.contentAddressed projectId) now projectId p r).SameUpToOrder
          (Graph.ofReport (.contentAddressed projectId) now projectId q r')) ∧
        Report.foundIn ((SymbolTable.ofProject p).listed (·.types.reverse) (·.functions.reverse)) {} p =
          r := by
  intro p q
  have hperm : p.packages.Perm q.packages := List.Perm.swap _ _ _
  have hpaths : (p.packages.map (·.importPath)).Nodup := by decide
  have hfiles : ((p.packages.flatMap (·.files)).map (·.path)).Nodup := by decide
  refine ⟨hperm, hpaths, hfiles, ?_⟩
  rcases Project.analysis_reordered hperm hpaths hfiles {} .never with
    ⟨e, he, -⟩ | ⟨r, r', hr, hr', hsame, hgraph, hlisted⟩
  · rw [Report.ofProject_never p (by decide)] at he
    cases he
  · have hpackages : r.dependencies.packages = ["a", "b"] := by
      rw [Report.ofProject_eq_ok hr]
      rfl
    have hpackages' : r'.dependencies.packages = ["b", "a"] := by
      rw [Report.ofProject_eq_ok hr']
      rfl
    refine ⟨r, r', hr, hr', hsame, hpackages, hpackages', fun projectId now => hgraph projectId now now,
      hlisted _ _ (fun k hk => ?_) fun k hk => ?_⟩
    · refine holdsFirsts_of_perm (List.reverse_perm _).symm ?_
      rcases List.mem_pair.mp hk with rfl | rfl <;> decide
    · refine holdsFirsts_of_perm (List.reverse_perm _).symm ?_
      rcases List.mem_pair.mp hk with rfl | rfl <;> decide

end CodeGraph
