import CodeGraph.Proofs.Graph.Keys
import CodeGraph.Proofs.Graph.Links
import CodeGraph.Proofs.Project.Files
import CodeGraph.Proofs.Report.Basic
import Mathlib.Data.List.Flatten

/-!
# Which nodes and relationships are told apart

* `Directory.Apart` — files, packages and findings are told apart, as they are when a project has been
  read and analysed (`Directory.apart_of_read`).
* `Directory.DeclaresOnce`, `Directory.ImportsOnce` — no file makes a declaration, or an import, twice
  on a line.
* `Directory.nodup_headings_iff` — nodes have distinct headings exactly if no file makes a declaration
  twice.
* `Directory.nodup_links_iff` — relationships are distinct exactly if no file makes an import twice.
-/

namespace CodeGraph

open Hash (Uuid)

/-! ### Headings -/

/-- The place of a label in the order in which nodes are drafted. -/
def NodeType.tier : NodeType → Nat
  | .project => 0
  | .package => 1
  | .file => 2
  | .importPath => 4
  | _ => 3

/-- What a declaration is within its file: its label, its qualified name and its line. -/
def Draft.entry (x : Draft) : NodeType × String × Nat := (x.label, x.qualifiedName, x.line)

/-- The name of a type across packages. -/
def Draft.typeId (x : Draft) : TypeId := ⟨x.properties.package?.getD "", x.name⟩

/-- The name of a function across packages; nothing else has one. -/
def Draft.functionId? (x : Draft) : Option FunctionId :=
  match x.properties with
  | .function p => some ⟨p.package, p.receiver, x.name⟩
  | _ => none

theorem Project.map_file_slots (p : Project) :
    p.slots.map (·.file) = p.packages.flatMap (·.files) := by
  rw [List.map_eq_flatMap, Project.flatMap_slots fun _ file => [file]]
  refine List.flatMap_congr fun k _ => ?_
  exact List.flatMap_singleton' k.files

theorem Project.map_path_slots (p : Project) :
    p.slots.map (·.file.path) = (p.packages.flatMap (·.files)).map (·.path) := by
  rw [← Project.map_file_slots, List.map_map]
  rfl

/-- The files of a project that is read have distinct paths, where names are texts. -/
theorem Project.nodup_slot_paths {languages : List Language} {settings : ReadingSettings}
    {tree : FileTree} {path : String} {signal : Signal} {p : Project}
    (h : (Project.read languages settings tree path).outcome signal = .ok p) (hnamed : tree.Named)
    (hdistinct : tree.Distinct) (hlegible : tree.Legible) : (p.slots.map (·.file.path)).Nodup := by
  rw [Project.map_path_slots]
  exact Project.nodup_paths h hnamed hdistinct hlegible

namespace Directory

variable {d : Directory} {s : FileSlot} {x : Draft}

/-- Files, packages and findings are told apart. -/
structure Apart (d : Directory) : Prop where
  files : (d.slots.map (·.file.path)).Nodup
  packages : (d.project.packages.map fun k => (k.importPath, k.shownFolder)).Nodup
  dependencies : d.report.dependencies.edges.Nodup
  implementations : d.report.implementations.Nodup
  calls : (d.report.calls.map CallEdge.key).Nodup

/-- No file makes a declaration twice: two declarations of a file differ in their labels, in their
qualified names or in their lines. -/
def DeclaresOnce (d : Directory) : Prop :=
  ∀ s ∈ d.slots, ((d.declared s).map Draft.entry).Nodup

/-- No file makes an import twice: two imports of a file differ in their paths, in the names they are
given or in their lines. -/
def ImportsOnce (d : Directory) : Prop := ∀ s ∈ d.slots, s.file.imports.Nodup

theorem heading_of_mem_declared (hx : x ∈ d.declared s) :
    x.label.tier = 3 ∧ x.path = some s.file.path := by
  simp only [declared, typeDrafts, functionDrafts, FileSlot.valueDrafts, FileSlot.fieldDrafts,
    List.mem_append, List.mem_flatMap, List.mem_cons, List.mem_map, Prod.exists] at hx
  rcases hx with (⟨t, i, -, rfl | ⟨field, y, ⟨f, j, -, hy⟩, rfl⟩⟩ | ⟨v, i, -, rfl⟩) | ⟨f, i, -, rfl⟩
  · refine ⟨?_, rfl⟩
    rw [FileSlot.typeDraft]
    cases t.form <;> rfl
  · rw [← (Prod.mk.inj hy).2]
    exact ⟨rfl, rfl⟩
  · refine ⟨?_, rfl⟩
    cases v.form <;> rfl
  · refine ⟨?_, rfl⟩
    rw [functionDraft, FileSlot.functionDraft]
    cases f.isMethod <;> rfl

/-- The drafts of a project, tier by tier. -/
def tiers (d : Directory) : List (Nat × List Draft) :=
  [(0, [d.root]), (1, d.project.packages.zipIdx.map fun (k, i) => k.draft i),
    (2, d.slots.map FileSlot.draft), (3, d.slots.flatMap d.declared),
    (4, d.importPaths.map importDraft)]

theorem drafts_perm (d : Directory) : d.drafts.Perm (d.tiers.flatMap (·.2)) := by
  have hpackages : d.packageDrafts.Perm
      (d.project.packages.zipIdx.map (fun u => u.1.draft u.2) ++ d.slots.map FileSlot.draft) := by
    have hslots : d.slots.map FileSlot.draft = d.project.packages.zipIdx.flatMap fun u =>
        u.1.files.zipIdx.map fun v => FileSlot.draft ⟨u.2, v.2, u.1, v.1⟩ := by
      rw [slots, Project.slots, List.map_flatMap]
      refine List.flatMap_congr fun u _ => ?_
      rw [List.map_map]
      rfl
    rw [hslots]
    exact (List.map_append_flatMap_perm _ _ _).symm
  have hdeclared : ((d.slots.flatMap fun s => d.typeDrafts s ++ s.valueDrafts) ++
      d.slots.flatMap d.functionDrafts).Perm (d.slots.flatMap d.declared) :=
    List.flatMap_append_perm _ _ _
  have hall : d.drafts = d.root :: (d.packageDrafts ++
      (((d.slots.flatMap fun s => d.typeDrafts s ++ s.valueDrafts) ++
        d.slots.flatMap d.functionDrafts) ++ d.importPaths.map importDraft)) := by
    simp only [drafts, List.cons_append, List.append_assoc]
  rw [hall]
  simp only [tiers, List.flatMap_cons, List.flatMap_nil, List.append_nil, List.singleton_append]
  refine (((hpackages.append (hdeclared.append_right _)).trans ?_)).cons d.root
  rw [List.append_assoc]

/-- A tier holds drafts with its labels only. -/
theorem tier_of_mem_tiers : ∀ tier ∈ d.tiers, ∀ x ∈ tier.2, x.label.tier = tier.1 := by
  simp only [tiers, List.forall_mem_cons, List.mem_map]
  refine ⟨?_, ?_, ?_, ?_, ?_, fun _ h => absurd h List.not_mem_nil⟩
  · exact ⟨rfl, fun _ h => absurd h List.not_mem_nil⟩
  · rintro _ ⟨⟨k, i⟩, -, rfl⟩
    rfl
  · rintro _ ⟨s, -, rfl⟩
    rfl
  · intro x hx
    obtain ⟨s, -, hx⟩ := List.mem_flatMap.mp hx
    exact (heading_of_mem_declared hx).1
  · rintro _ ⟨path, -, rfl⟩
    rfl

theorem nodup_headings_packages (h : d.Apart) :
    ((d.project.packages.zipIdx.map fun u => u.1.draft u.2).map Draft.heading).Nodup := by
  have hmap : (d.project.packages.zipIdx.map fun u => u.1.draft u.2).map Draft.heading =
      (d.project.packages.map fun k => (k.importPath, k.shownFolder)).map
        fun place => (NodeType.package, place.1, place.2, 0) := by
    rw [List.map_map, List.map_map]
    exact map_zipIdx_fst (fun k : Package => (NodeType.package, k.importPath, k.shownFolder, 0)) _
  rw [hmap]
  refine h.packages.map fun a b hab => ?_
  simp only [Prod.mk.injEq, true_and, and_true] at hab
  exact Prod.ext hab.1 hab.2

theorem nodup_headings_files (h : d.Apart) :
    ((d.slots.map FileSlot.draft).map Draft.heading).Nodup := by
  have hmap : (d.slots.map FileSlot.draft).map Draft.heading =
      (d.slots.map (·.file.path)).map fun path => (NodeType.file, path, path, 0) := by
    rw [List.map_map, List.map_map]
    rfl
  rw [hmap]
  refine h.files.map fun a b hab => ?_
  exact (Prod.mk.inj (Prod.mk.inj hab).2).1

/-- The declarations of a file have its path. -/
theorem nodup_headings_declared_iff (s : FileSlot) :
    ((d.declared s).map Draft.heading).Nodup ↔ ((d.declared s).map Draft.entry).Nodup := by
  refine nodup_map_congr fun x hx y hy => ?_
  simp only [Draft.heading, Draft.entry, (heading_of_mem_declared hx).2,
    (heading_of_mem_declared hy).2, Prod.mk.injEq, true_and]

theorem nodup_headings_importPaths : ((d.importPaths.map importDraft).map Draft.heading).Nodup := by
  rw [List.map_map]
  refine (nodup_eraseDups _).map fun a b hab => ?_
  exact (Prod.mk.inj (Prod.mk.inj hab).2).1

/-- Nodes have distinct headings exactly if no file makes a declaration twice. -/
theorem nodup_headings_iff (h : d.Apart) :
    (d.drafts.map Draft.heading).Nodup ↔ d.DeclaresOnce := by
  rw [(d.drafts_perm.map Draft.heading).nodup_iff, List.map_flatMap]
  constructor
  · intro hnodup s hs
    have htier := (List.nodup_flatMap.mp hnodup).1 (3, d.slots.flatMap d.declared) (by simp [tiers])
    rw [List.map_flatMap] at htier
    exact (nodup_headings_declared_iff s).mp ((List.nodup_flatMap.mp htier).1 s hs)
  · intro hdeclares
    have hdeclared : ((d.slots.flatMap d.declared).map Draft.heading).Nodup := by
      rw [List.map_flatMap]
      refine nodup_flatMap_of_keys (·.file.path) (fun x => x.2.2.1) h.files ?_ fun s hs =>
        (nodup_headings_declared_iff s).mpr (hdeclares s hs)
      intro s _ b hb
      obtain ⟨x, hx, rfl⟩ := List.mem_map.mp hb
      rw [Draft.heading, (heading_of_mem_declared hx).2]
      rfl
    refine nodup_flatMap_of_keys Prod.fst (fun x => x.1.tier) (by simp [tiers]) ?_ ?_
    · intro tier htier b hb
      obtain ⟨x, hx, rfl⟩ := List.mem_map.mp hb
      exact tier_of_mem_tiers tier htier x hx
    · simp only [tiers, List.forall_mem_cons]
      exact ⟨List.nodup_singleton _, nodup_headings_packages h, nodup_headings_files h, hdeclared,
        nodup_headings_importPaths, fun _ h => absurd h List.not_mem_nil⟩

/-- Where nodes have distinct headings, files have distinct paths. -/
theorem nodup_paths_of_headings (h : (d.drafts.map Draft.heading).Nodup) :
    (d.slots.map (·.file.path)).Nodup := by
  rw [(d.drafts_perm.map Draft.heading).nodup_iff, List.map_flatMap] at h
  have htier := (List.nodup_flatMap.mp h).1 (2, d.slots.map FileSlot.draft) (by simp [tiers])
  rw [List.map_map] at htier
  refine nodup_map_of_imp (fun s _ t _ hpath => ?_) htier
  show (NodeType.file, s.file.path, s.file.path, 0) = (NodeType.file, t.file.path, t.file.path, 0)
  rw [hpath]

/-! ### Relationships -/

variable {ids : Identities} {l : Link}

/-- Everything but the project has one owner. -/
theorem nodup_contains (hdrafts : d.drafts.Nodup) : (labelled .contains (d.links ids)).Nodup := by
  rw [← root_cons_targets d ids] at hdrafts
  exact (List.nodup_cons.mp hdrafts).2.of_map

/-- The declarations of files are among the drafts, in their order. -/
theorem flatMap_sublist_drafts {part : FileSlot → List Draft}
    (hpart : (∀ s, (part s).Sublist (d.typeDrafts s)) ∨ ∀ s, (part s).Sublist (d.functionDrafts s)) :
    (d.slots.flatMap part).Sublist d.drafts := by
  have htypes : (d.slots.flatMap fun s => d.typeDrafts s ++ s.valueDrafts).Sublist d.drafts := by
    rw [drafts, List.append_assoc, List.append_assoc]
    exact (List.sublist_append_left _ _).trans (List.sublist_append_right _ _)
  have hfunctions : (d.slots.flatMap d.functionDrafts).Sublist d.drafts :=
    (List.sublist_append_right _ _).trans (List.sublist_append_left _ _)
  rcases hpart with hpart | hpart
  · refine (List.Sublist.flatMap_right _ fun s _ => ?_).trans htypes
    exact (hpart s).trans (List.sublist_append_left _ _)
  · exact (List.Sublist.flatMap_right _ fun s _ => hpart s).trans hfunctions

theorem nodup_hasField (hdrafts : d.drafts.Nodup) : (labelled .hasField (d.links ids)).Nodup := by
  refine List.Nodup.of_map (·.target) ?_
  rw [hasField_links, List.map_flatMap]
  refine (flatMap_sublist_drafts (Or.inl fun s => ?_)).nodup hdrafts
  rw [hasField_typeLinks, List.map_flatMap, typeDrafts]
  refine List.Sublist.flatMap_right _ fun u _ => ?_
  rw [List.map_map]
  exact List.sublist_cons_self _ _

theorem nodup_hasMethod (hdrafts : d.drafts.Nodup) : (labelled .hasMethod (d.links ids)).Nodup := by
  refine List.Nodup.of_map (·.target) ?_
  rw [hasMethod_links, List.map_flatMap]
  exact (flatMap_sublist_drafts (Or.inr fun s => hasMethod_functionLinks_sublist)).nodup hdrafts

theorem qualifiedName_of_package? {path : String} (h : d.package? path = some x) :
    x.qualifiedName = path := by
  obtain ⟨k, i, -, hpath, rfl⟩ := package?_eq_some h
  exact hpath

theorem nodup_dependsOn (h : d.Apart) : (labelled .dependsOn (d.links ids)).Nodup := by
  rw [dependsOn_links]
  refine List.Nodup.filterMap (fun e e' l hl hl' => ?_) h.dependencies
  obtain ⟨hsource, htarget, hproperties⟩ := Link.between_eq_some.mp hl
  obtain ⟨hsource', htarget', hproperties'⟩ := Link.between_eq_some.mp hl'
  obtain ⟨hweight, hcycle⟩ := RelationshipProperties.dependsOn.inj (hproperties.symm.trans hproperties')
  have hfrom : e.source = e'.source :=
    (qualifiedName_of_package? hsource).symm.trans (qualifiedName_of_package? hsource')
  have hto : e.target = e'.target :=
    (qualifiedName_of_package? htarget).symm.trans (qualifiedName_of_package? htarget')
  cases e
  cases e'
  simp only [Dependency.mk.injEq]
  exact ⟨hfrom, hto, hweight, hcycle⟩

theorem typeId_of_type? {id : TypeId} (h : d.type? id = some x) : x.typeId = id := by
  obtain ⟨s, -, t, i, -, hid, rfl⟩ := type?_eq_some h
  exact hid

theorem nodup_implements (h : d.Apart) : (labelled .implements (d.links ids)).Nodup := by
  rw [implements_links]
  refine List.Nodup.filterMap (fun i i' l hl hl' => ?_) h.implementations
  obtain ⟨hstruct, hinterface, hproperties⟩ := Link.between_eq_some.mp hl
  obtain ⟨hstruct', hinterface', hproperties'⟩ := Link.between_eq_some.mp hl'
  have hpointer := RelationshipProperties.implements.inj (hproperties.symm.trans hproperties')
  have hfrom : i.struct = i'.struct :=
    (typeId_of_type? hstruct).symm.trans (typeId_of_type? hstruct')
  have hto : i.interface = i'.interface :=
    (typeId_of_type? hinterface).symm.trans (typeId_of_type? hinterface')
  cases i
  cases i'
  simp only [Implementation.mk.injEq]
  exact ⟨hto, hfrom, hpointer⟩

theorem functionId_of_function? {id : FunctionId} (h : d.function? id = some x) :
    x.functionId? = some id := by
  obtain ⟨s, -, f, i, -, hid, rfl⟩ := function?_eq_some h
  exact congrArg some hid

/-- An import path is no function. -/
theorem functionId_of_import? {path : String} (h : d.import? path = some x) :
    x.functionId? = none := by
  rw [show x = importDraft path from (import?_eq_some h).2]
  rfl

/-- A link to a function tells the key of the call that it comes from. -/
theorem FromCall.key_eq {known known' : List (Uuid × Uuid)} {e e' : CallEdge} {f : FunctionId}
    (h : d.FromCall ids known e l) (h' : d.FromCall ids known' e' l)
    (htarget : d.function? f = some l.target) : e.key = e'.key := by
  have hcallers : e.caller = e'.caller := Option.some.inj
    ((functionId_of_function? h.source).symm.trans (functionId_of_function? h'.source))
  have hfunction := functionId_of_function? htarget
  have hresolved {known : List (Uuid × Uuid)} {e : CallEdge} (h : d.FromCall ids known e l) :
      e.target = .resolved f := by
    rcases h.target with ⟨f', he, hf'⟩ | ⟨⟨package, name, -, himport⟩, -⟩
    · rw [he, Option.some.inj (hfunction.symm.trans (functionId_of_function? hf'))]
    · rw [functionId_of_import? himport] at hfunction
      cases hfunction
  have hkinds := h.properties.symm.trans h'.properties
  simp only [RelationshipProperties.calls.injEq] at hkinds
  rw [CallEdge.key, CallEdge.key, hcallers, hresolved h, hresolved h', hkinds.1]

/-- Call edges of different keys make different links: a link tells the caller, the kind and the
function that is called, and only one link leads from a caller to an import path. -/
theorem nodup_callLinks {calls : List CallEdge} (hkeys : (calls.map CallEdge.key).Nodup)
    (known : List (Uuid × Uuid)) : (d.callLinks ids known calls).Nodup := by
  induction calls generalizing known with
  | nil =>
    rw [callLinks]
    exact List.nodup_nil
  | cons e rest ih =>
    obtain ⟨hfresh, hrest⟩ := List.nodup_cons.mp hkeys
    rw [callLinks]
    dsimp only
    split
    next caller f hcaller htarget =>
      rw [List.nodup_append']
      refine ⟨?_, ih hrest known, fun l hl hl' => ?_⟩
      · cases d.function? f with
        | none => exact List.nodup_nil
        | some callee => exact List.nodup_singleton _
      · obtain ⟨callee, hcallee, rfl⟩ := List.mem_map.mp hl
        obtain ⟨e', he', hfrom'⟩ := mem_callLinks hl'
        have hcallee := Option.mem_toList.mp hcallee
        have hfrom : d.FromCall ids known e ⟨caller, callee, .calls e.kind e.line e.nameMatched⟩ :=
          ⟨rfl, hcaller, Or.inl ⟨f, htarget, hcallee⟩⟩
        exact hfresh (List.mem_map.mpr ⟨e', he', (hfrom.key_eq hfrom' hcallee).symm⟩)
    next caller package name hcaller htarget =>
      split
      next target himport =>
        split
        · exact ih hrest known
        · refine List.nodup_cons.mpr ⟨fun hl => ?_, ih hrest _⟩
          obtain ⟨e', -, hfrom⟩ := mem_callLinks hl
          rcases hfrom.target with ⟨f', -, hcallee⟩ | ⟨-, hnew⟩
          · have hfunction := functionId_of_function? hcallee
            rw [functionId_of_import? himport] at hfunction
            cases hfunction
          · exact hnew List.mem_cons_self
      next => exact ih hrest known
    next => exact ih hrest known

theorem nodup_calls (h : d.Apart) : (labelled .calls (d.links ids)).Nodup := by
  rw [calls_links]
  exact nodup_callLinks h.calls []

/-- Where paths are distinct, declarations belong to their own file. -/
theorem draft_fileOf (h : (d.slots.map (·.file.path)).Nodup) (hs : s ∈ d.slots) :
    d.fileOf s = s.draft := by
  obtain ⟨t, ht, -, hpath, hdraft⟩ := exists_fileOf hs
  rw [hdraft, List.inj_on_of_nodup_map h ht hs hpath]

/-- The target of an import is called like the path that is imported. -/
theorem qualifiedName_importLink (u : FileSlot × ImportDecl) :
    (d.importLink u).target.qualifiedName = u.2.path := by
  rw [importLink]
  cases hpackage : d.package? u.2.path with
  | none => rfl
  | some package => exact qualifiedName_of_package? hpackage

/-- The imports of files make distinct links exactly if no file makes an import twice. -/
theorem nodup_imports_iff (h : d.Apart) (ids : Identities) :
    (labelled .imports (d.links ids)).Nodup ↔ d.ImportsOnce := by
  rw [imports_links]
  constructor
  · intro hnodup s hs
    have hparts := (List.nodup_flatMap.mp hnodup.of_map).1 s hs
    exact hparts.of_map
  · intro honce
    have himports : d.fileImports.Nodup := nodup_inSlots honce
    refine himports.map_on fun u hu v hv huv => ?_
    have hpath : u.2.path = v.2.path := by
      rw [← qualifiedName_importLink (d := d) u, huv, qualifiedName_importLink]
    simp only [importLink, Link.mk.injEq, RelationshipProperties.imports.injEq,
      draft_fileOf h.files (mem_fileImports.mp hu).1,
      draft_fileOf h.files (mem_fileImports.mp hv).1] at huv
    obtain ⟨hfile, -, hname, hline⟩ := huv
    have hslot : u.1 = v.1 := List.inj_on_of_nodup_map h.files (mem_fileImports.mp hu).1
      (mem_fileImports.mp hv).1 (congrArg Draft.qualifiedName hfile)
    have himport : u.2 = v.2 := by
      show ImportDecl.mk u.2.path u.2.givenName u.2.line = _
      rw [hpath, hname, hline]
    exact Prod.ext hslot himport

/-- Relationships are distinct exactly if no file makes an import twice. -/
theorem nodup_links_iff (h : d.Apart) (hdrafts : d.drafts.Nodup) (ids : Identities) :
    (d.links ids).Nodup ↔ d.ImportsOnce := by
  rw [nodup_iff_filter Link.label, ← nodup_imports_iff h ids]
  constructor
  · intro hall
    exact hall .imports
  · intro himports label
    cases label with
    | contains => exact nodup_contains hdrafts
    | imports => exact himports
    | calls => exact nodup_calls h
    | implements => exact nodup_implements h
    | hasMethod => exact nodup_hasMethod hdrafts
    | hasField => exact nodup_hasField hdrafts
    | dependsOn => exact nodup_dependsOn h

end Directory

end CodeGraph
