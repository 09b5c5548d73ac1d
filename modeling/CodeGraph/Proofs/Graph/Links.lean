import CodeGraph.Proofs.Graph.Ends
import CodeGraph.Proofs.Lists
import Mathlib.Data.List.Flatten

/-!
# The relationships of each label

* `labelled` — the links with a label; `Directory.labelled_links` puts them together stage by stage.
* `Directory.contains_links`, `Directory.imports_links`, … — which they are, label by label.
* `Directory.hasMethod_functionLinks` — a method belongs to the type of its receiver.
* `Directory.FromCall`, `Directory.mem_callLinks` — where the links of calls come from.
-/

namespace CodeGraph

open Hash (Uuid)

/-- The label of a link. -/
def Link.label (l : Link) : RelationshipType := l.properties.label

/-- The links with a label. -/
def labelled (label : RelationshipType) (ls : List Link) : List Link :=
  ls.filter (·.label = label)

section

variable {label other : RelationshipType} {ls ms : List Link} {l : Link}

theorem labelled_append : labelled label (ls ++ ms) = labelled label ls ++ labelled label ms :=
  List.filter_append ls ms

theorem labelled_flatMap {α : Type} (as : List α) (stage : α → List Link) :
    labelled label (as.flatMap stage) = as.flatMap fun a => labelled label (stage a) :=
  List.filter_flatMap

theorem labelled_cons : labelled label (l :: ls) =
    if l.label = label then l :: labelled label ls else labelled label ls := by
  simp only [labelled, List.filter_cons, decide_eq_true_eq]

theorem labelled_none (h : ∀ l ∈ ls, l.label ≠ label) : labelled label ls = [] :=
  List.filter_eq_nil_iff.mpr fun l hl => by simpa using h l hl

theorem flatMap_none {α β : Type} (as : List α) : (as.flatMap fun _ => ([] : List β)) = [] :=
  List.flatMap_eq_nil_iff.mpr fun _ _ => rfl

/-- Links of one label only. -/
theorem labelled_of_one (h : ∀ l ∈ ls, l.label = other) (label : RelationshipType) :
    labelled label ls = if other = label then ls else [] := by
  split
  next heq => exact List.filter_eq_self.mpr fun l hl => decide_eq_true ((h l hl).trans heq)
  next hne => exact labelled_none fun l hl heq => hne ((h l hl).symm.trans heq)

/-- Links of two labels only. -/
theorem labelled_of_two {third : RelationshipType} (h : ∀ l ∈ ls, l.label = other ∨ l.label = third)
    (hother : other ≠ label) (hthird : third ≠ label) : labelled label ls = [] :=
  labelled_none fun l hl heq =>
    (h l hl).elim (fun hl' => hother (hl'.symm.trans heq)) fun hl' => hthird (hl'.symm.trans heq)

end

namespace Directory

variable {d : Directory} {s : FileSlot} {l : Link} {label : RelationshipType}

/-! ### Labels of the stages -/

theorem packageLinks_labels : ∀ l ∈ d.packageLinks, l.label = .contains := by
  intro l h
  simp only [packageLinks, List.mem_flatMap, List.mem_cons, List.mem_map, Prod.exists] at h
  obtain ⟨k, i, -, rfl | ⟨file, j, -, rfl⟩⟩ := h <;> rfl

theorem typeLinks_labels : ∀ l ∈ d.typeLinks s, l.label = .contains ∨ l.label = .hasField := by
  intro l h
  simp only [typeLinks, List.mem_flatMap, List.mem_cons, List.not_mem_nil, or_false,
    Prod.exists] at h
  obtain ⟨t, i, -, rfl | ⟨field, x, -, rfl | rfl⟩⟩ := h
  · exact Or.inl rfl
  · exact Or.inl rfl
  · exact Or.inr rfl

theorem valueLinks_labels : ∀ l ∈ d.valueLinks s, l.label = .contains := by
  intro l h
  obtain ⟨x, -, rfl⟩ := List.mem_map.mp h
  rfl

theorem functionLinks_labels : ∀ l ∈ d.functionLinks s, l.label = .contains ∨ l.label = .hasMethod := by
  intro l h
  simp only [functionLinks, List.mem_flatMap, List.mem_cons, List.mem_map, Prod.exists] at h
  obtain ⟨f, i, -, rfl | ⟨type, -, rfl⟩⟩ := h
  · exact Or.inl rfl
  · exact Or.inr rfl

theorem importLinks_labels (known : List String) (imports : List (FileSlot × ImportDecl)) :
    ∀ l ∈ d.importLinks known imports, l.label = .contains ∨ l.label = .imports := by
  intro l h
  induction imports generalizing known with
  | nil =>
    rw [importLinks] at h
    cases h
  | cons u rest ih =>
    rw [importLinks] at h
    dsimp only at h
    split at h
    · rcases List.mem_cons.mp h with rfl | h
      · exact Or.inr rfl
      · exact ih known h
    · split at h
      · rcases List.mem_cons.mp h with rfl | h
        · exact Or.inr rfl
        · exact ih known h
      · rcases List.mem_cons.mp h with rfl | h
        · exact Or.inl rfl
        · rcases List.mem_cons.mp h with rfl | h
          · exact Or.inr rfl
          · exact ih _ h

theorem dependencyLinks_labels : ∀ l ∈ d.dependencyLinks, l.label = .dependsOn := by
  intro l h
  obtain ⟨e, -, he⟩ := List.mem_filterMap.mp h
  exact congrArg RelationshipProperties.label (Link.between_eq_some.mp he).2.2

theorem implementationLinks_labels : ∀ l ∈ d.implementationLinks, l.label = .implements := by
  intro l h
  obtain ⟨i, -, hi⟩ := List.mem_filterMap.mp h
  exact congrArg RelationshipProperties.label (Link.between_eq_some.mp hi).2.2

/-- A link comes from a call.  If it leads to the outside, its ends were not known. -/
structure FromCall (d : Directory) (ids : Identities) (known : List (Uuid × Uuid)) (e : CallEdge)
    (l : Link) : Prop where
  properties : l.properties = .calls e.kind e.line e.nameMatched
  source : d.function? e.caller = some l.source
  target : (∃ f, e.target = .resolved f ∧ d.function? f = some l.target) ∨
    ((∃ package name, e.target = .external package name ∧ d.import? package = some l.target) ∧
      (ids.node l.source, ids.node l.target) ∉ known)

theorem FromCall.of_subset {ids : Identities} {known known' : List (Uuid × Uuid)} {e : CallEdge}
    (h : d.FromCall ids known' e l) (hsub : known ⊆ known') : d.FromCall ids known e l :=
  ⟨h.properties, h.source, h.target.imp_right fun ht => ⟨ht.1, fun hknown => ht.2 (hsub hknown)⟩⟩

/-- Every link of calls comes from one of them. -/
theorem mem_callLinks {ids : Identities} {known : List (Uuid × Uuid)} {calls : List CallEdge}
    (h : l ∈ d.callLinks ids known calls) : ∃ e ∈ calls, d.FromCall ids known e l := by
  induction calls generalizing known with
  | nil =>
    rw [callLinks] at h
    cases h
  | cons e rest ih =>
    have hlater {known' : List (Uuid × Uuid)} (hsub : known ⊆ known')
        (h : l ∈ d.callLinks ids known' rest) : ∃ e' ∈ e :: rest, d.FromCall ids known e' l := by
      obtain ⟨e', he', hfrom⟩ := ih h
      exact ⟨e', List.mem_cons_of_mem _ he', hfrom.of_subset hsub⟩
    rw [callLinks] at h
    dsimp only at h
    split at h
    next caller f hcaller htarget =>
      rcases List.mem_append.mp h with h | h
      · obtain ⟨callee, hcallee, rfl⟩ := List.mem_map.mp h
        exact ⟨e, List.mem_cons_self, rfl, hcaller,
          Or.inl ⟨f, htarget, Option.mem_toList.mp hcallee⟩⟩
      · exact hlater (List.Subset.refl _) h
    next caller package name hcaller htarget =>
      split at h
      next target himport =>
        split at h
        next => exact hlater (List.Subset.refl _) h
        next hnew =>
          rcases List.mem_cons.mp h with rfl | h
          · refine ⟨e, List.mem_cons_self, rfl, hcaller, Or.inr ⟨⟨package, name, htarget, himport⟩, ?_⟩⟩
            exact fun hknown => hnew (List.contains_iff_mem.mpr hknown)
          · exact hlater (List.subset_cons_self _ _) h
      next => exact hlater (List.Subset.refl _) h
    next => exact hlater (List.Subset.refl _) h

theorem callLinks_labels (ids : Identities) (known : List (Uuid × Uuid)) (calls : List CallEdge) :
    ∀ l ∈ d.callLinks ids known calls, l.label = .calls := by
  intro l h
  obtain ⟨e, -, hfrom⟩ := mem_callLinks h
  rw [Link.label, hfrom.properties]
  rfl

/-! ### Stages of two labels -/

/-- The import of a file, wherever it leads. -/
def importLink (d : Directory) (u : FileSlot × ImportDecl) : Link :=
  ⟨d.fileOf u.1, (d.package? u.2.path).getD (importDraft u.2.path), .imports u.2.givenName u.2.line⟩

theorem imports_importLinks (known : List String) (imports : List (FileSlot × ImportDecl)) :
    labelled .imports (d.importLinks known imports) = imports.map d.importLink := by
  induction imports generalizing known with
  | nil =>
    rw [importLinks]
    rfl
  | cons u rest ih =>
    rw [importLinks, List.map_cons, importLink]
    dsimp only
    split
    next package hpackage =>
      simp only [labelled_cons, Link.label, RelationshipProperties.label, if_true, ih, hpackage,
        Option.getD_some]
    next hnone =>
      split
      · simp only [labelled_cons, Link.label, RelationshipProperties.label, if_true, ih, hnone,
          Option.getD_none]
      · simp only [labelled_cons, Link.label, Link.contains, RelationshipProperties.label,
          reduceCtorEq, if_true, if_false, ih, hnone, Option.getD_none]

/-- The import paths that are handed to the project: each once, those known before left out. -/
def handedOver (d : Directory) (known : List String) (imports : List (FileSlot × ImportDecl)) :
    List String :=
  ((imports.map (·.2.path)).filter fun path =>
    (d.package? path).isNone && !known.contains path).eraseDups

theorem contains_importLinks (known : List String) (imports : List (FileSlot × ImportDecl)) :
    labelled .contains (d.importLinks known imports) =
      (d.handedOver known imports).map fun path => Link.contains d.root (importDraft path) := by
  induction imports generalizing known with
  | nil =>
    rw [importLinks]
    rfl
  | cons u rest ih =>
    rw [importLinks, handedOver, List.map_cons]
    dsimp only
    split
    next package hpackage =>
      rw [List.filter_cons_of_neg (by simp [hpackage]), labelled_cons]
      exact ih known
    next hnone =>
      split
      next hknown =>
        have hmem := List.contains_iff_mem.mp hknown
        rw [List.filter_cons_of_neg (by simp [hmem]), labelled_cons]
        exact ih known
      next hnew =>
        have hmem : u.2.path ∉ known := fun h => hnew (List.contains_iff_mem.mpr h)
        -- from here on the path is known
        have hlater : ((rest.map (·.2.path)).filter fun path =>
              (d.package? path).isNone && !known.contains path).filter (fun path => !path == u.2.path) =
            (rest.map (·.2.path)).filter fun path =>
              (d.package? path).isNone && !(u.2.path :: known).contains path := by
          rw [List.filter_filter]
          refine List.filter_congr fun path _ => ?_
          rw [List.contains_cons, Bool.not_or, Bool.and_left_comm]
        have hrest := ih (u.2.path :: known)
        rw [handedOver, ← hlater] at hrest
        rw [List.filter_cons_of_pos (by simp [hnone, hmem]), List.eraseDups_cons, List.map_cons,
          ← hrest]
        rfl

theorem contains_typeLinks :
    labelled .contains (d.typeLinks s) = (d.typeDrafts s).map (.contains (d.fileOf s)) := by
  rw [typeLinks, labelled_flatMap, typeDrafts, List.map_flatMap]
  refine List.flatMap_congr fun u _ => ?_
  obtain ⟨t, i⟩ := u
  dsimp only
  simp only [labelled_cons, Link.label, Link.contains, RelationshipProperties.label, if_true,
    labelled_flatMap, List.map_cons, List.cons.injEq, true_and]
  induction s.fieldDrafts t i with
  | nil => rfl
  | cons f fields ih =>
    rw [List.flatMap_cons, ih]
    rfl

theorem hasField_typeLinks : labelled .hasField (d.typeLinks s) =
    (d.typesOf s).flatMap fun (t, i) => (s.fieldDrafts t i).map fun (field, draft) =>
      ⟨s.typeDraft t i, draft, .hasField field.embedded⟩ := by
  rw [typeLinks, labelled_flatMap]
  refine List.flatMap_congr fun u _ => ?_
  obtain ⟨t, i⟩ := u
  dsimp only
  simp only [labelled_cons, Link.label, Link.contains, RelationshipProperties.label, reduceCtorEq,
    if_false, labelled_flatMap]
  induction s.fieldDrafts t i with
  | nil => rfl
  | cons f fields ih =>
    rw [List.flatMap_cons, ih]
    rfl

theorem contains_functionLinks :
    labelled .contains (d.functionLinks s) = (d.functionDrafts s).map (.contains (d.fileOf s)) := by
  rw [functionLinks, labelled_flatMap, functionDrafts, List.map_map]
  induction s.functions with
  | nil => rfl
  | cons f functions ih =>
    obtain ⟨f, i⟩ := f
    rw [List.flatMap_cons, ih]
    dsimp only
    rw [labelled_cons, labelled_none]
    · rfl
    · intro l hl
      obtain ⟨type, -, rfl⟩ := List.mem_map.mp hl
      exact RelationshipType.noConfusion

/-- A method belongs to the type of its receiver, if that one is found. -/
theorem hasMethod_functionLinks : labelled .hasMethod (d.functionLinks s) =
    s.functions.filterMap fun (f, i) =>
      (if f.isMethod then d.type? ⟨s.package.importPath, f.receiver⟩ else none).map fun type =>
        ⟨type, d.functionDraft s f i, .hasMethod f.pointerReceiver⟩ := by
  rw [functionLinks, labelled_flatMap]
  induction s.functions with
  | nil => rfl
  | cons u functions ih =>
    obtain ⟨f, i⟩ := u
    rw [List.flatMap_cons, ih, List.filterMap_cons]
    simp only [labelled_cons, Link.label, Link.contains, RelationshipProperties.label, reduceCtorEq,
      if_false]
    cases (if f.isMethod = true then d.type? ⟨s.package.importPath, f.receiver⟩ else none) with
    | none => rfl
    | some type => rfl

/-- A method is handed to one type at most. -/
theorem hasMethod_functionLinks_sublist :
    ((labelled .hasMethod (d.functionLinks s)).map (·.target)).Sublist (d.functionDrafts s) := by
  rw [hasMethod_functionLinks, functionDrafts]
  refine map_filterMap_sublist (fun u : FunctionDecl × Nat => d.functionDraft s u.1 u.2) Link.target
    fun u _ l hl => ?_
  obtain ⟨type, -, rfl⟩ := Option.map_eq_some_iff.mp hl
  rfl

/-! ### Labels one by one -/

variable (d) (ids : Identities)

/-- The stages that have links of a label. -/
theorem labelled_links (label : RelationshipType) :
    labelled label (d.links ids) =
      (if .contains = label then d.packageLinks else []) ++
        (d.slots.flatMap fun s => labelled label (d.typeLinks s) ++
          (if .contains = label then d.valueLinks s else [])) ++
        (d.slots.flatMap fun s => labelled label (d.functionLinks s)) ++
        labelled label (d.importLinks [] d.fileImports) ++
        (if .dependsOn = label then d.dependencyLinks else []) ++
        (if .implements = label then d.implementationLinks else []) ++
        (if .calls = label then d.callLinks ids [] d.report.calls else []) := by
  have hvalues (s : FileSlot) : labelled label (d.valueLinks s) =
      if .contains = label then d.valueLinks s else [] := labelled_of_one valueLinks_labels label
  simp only [links, labelled_append, labelled_flatMap, hvalues,
    labelled_of_one packageLinks_labels, labelled_of_one dependencyLinks_labels,
    labelled_of_one implementationLinks_labels, labelled_of_one (callLinks_labels ids [] _)]
  rfl

/-- Everything but the project is contained in something. -/
theorem contains_links : labelled .contains (d.links ids) =
    d.packageLinks ++
      (d.slots.flatMap fun s => (d.typeDrafts s ++ s.valueDrafts).map (.contains (d.fileOf s))) ++
      (d.slots.flatMap fun s => (d.functionDrafts s).map (.contains (d.fileOf s))) ++
      d.importPaths.map fun path => Link.contains d.root (importDraft path) := by
  have hpaths : d.handedOver [] d.fileImports = d.importPaths := by
    have hmap : d.fileImports.map (·.2.path) =
        d.slots.flatMap fun s => s.file.imports.map (·.path) :=
      map_inSlots fun _ (i : ImportDecl) => i.path
    rw [handedOver, importPaths, hmap]
    refine congrArg List.eraseDups (List.filter_congr fun path _ => ?_)
    simp
  rw [labelled_links]
  simp only [contains_typeLinks, contains_functionLinks, contains_importLinks, hpaths, valueLinks,
    reduceCtorEq, if_true, if_false, List.append_nil, List.map_append]

/-- The drafts are the project and what is contained in something. -/
theorem root_cons_targets : d.root :: (labelled .contains (d.links ids)).map (·.target) = d.drafts := by
  have hpackages : d.packageLinks.map (·.target) = d.packageDrafts := by
    rw [packageLinks, List.map_flatMap, packageDrafts]
    refine List.flatMap_congr fun u _ => ?_
    rw [List.map_cons, List.map_map]
    rfl
  have hchildren (owner : Draft) (xs : List Draft) :
      (xs.map (Link.contains owner)).map (·.target) = xs := by
    rw [List.map_map]
    exact List.map_id xs
  rw [contains_links, List.map_append, List.map_append, List.map_append, hpackages, List.map_flatMap,
    List.map_flatMap, List.map_map]
  simp only [hchildren]
  rfl

/-- The declarations of a file are contained in it. -/
theorem contains_declared_sublist (hs : s ∈ d.slots) :
    ((d.declared s).map (Link.contains (d.fileOf s))).Sublist (d.links ids) := by
  have hpart (part : FileSlot → List Link) : (part s).Sublist (d.slots.flatMap part) := by
    rw [← List.flatMap_singleton part s]
    exact (List.singleton_sublist.mpr hs).flatMap part
  have hlabelled : ((d.declared s).map (Link.contains (d.fileOf s))).Sublist
      (labelled .contains (d.links ids)) := by
    rw [contains_links, declared, List.map_append]
    have htypes := hpart fun s => (d.typeDrafts s ++ s.valueDrafts).map (.contains (d.fileOf s))
    have hfunctions := hpart fun s => (d.functionDrafts s).map (.contains (d.fileOf s))
    exact ((htypes.trans (List.sublist_append_right _ _)).append hfunctions).trans
      (List.sublist_append_left _ _)
  exact hlabelled.trans List.filter_sublist

theorem imports_links : labelled .imports (d.links ids) = d.fileImports.map d.importLink := by
  have htypes (s : FileSlot) : labelled .imports (d.typeLinks s) = [] :=
    labelled_of_two typeLinks_labels (by decide) (by decide)
  have hfunctions (s : FileSlot) : labelled .imports (d.functionLinks s) = [] :=
    labelled_of_two functionLinks_labels (by decide) (by decide)
  rw [labelled_links]
  simp [htypes, hfunctions, flatMap_none, imports_importLinks]

theorem hasField_links :
    labelled .hasField (d.links ids) = d.slots.flatMap fun s => labelled .hasField (d.typeLinks s) := by
  have hfunctions (s : FileSlot) : labelled .hasField (d.functionLinks s) = [] :=
    labelled_of_two functionLinks_labels (by decide) (by decide)
  rw [labelled_links, labelled_of_two (importLinks_labels [] _) (by decide) (by decide)]
  simp [hfunctions, flatMap_none]

theorem hasMethod_links : labelled .hasMethod (d.links ids) =
    d.slots.flatMap fun s => labelled .hasMethod (d.functionLinks s) := by
  have htypes (s : FileSlot) : labelled .hasMethod (d.typeLinks s) = [] :=
    labelled_of_two typeLinks_labels (by decide) (by decide)
  rw [labelled_links, labelled_of_two (importLinks_labels [] _) (by decide) (by decide)]
  simp [htypes, flatMap_none]

/-- No other stage has links of the labels of the last three. -/
theorem late_links {label : RelationshipType}
    (h : label = .dependsOn ∨ label = .implements ∨ label = .calls) :
    labelled label (d.links ids) =
      (if .dependsOn = label then d.dependencyLinks else []) ++
        (if .implements = label then d.implementationLinks else []) ++
        (if .calls = label then d.callLinks ids [] d.report.calls else []) := by
  have hlabel : .contains ≠ label ∧ .hasField ≠ label ∧ .hasMethod ≠ label ∧ .imports ≠ label := by
    rcases h with rfl | rfl | rfl <;> decide
  obtain ⟨hcontains, hfield, hmethod, himports⟩ := hlabel
  have htypes (s : FileSlot) : labelled label (d.typeLinks s) = [] :=
    labelled_of_two typeLinks_labels hcontains hfield
  have hfunctions (s : FileSlot) : labelled label (d.functionLinks s) = [] :=
    labelled_of_two functionLinks_labels hcontains hmethod
  rw [labelled_links, labelled_of_two (importLinks_labels [] _) hcontains himports]
  simp [htypes, hfunctions, hcontains, flatMap_none]

theorem dependsOn_links : labelled .dependsOn (d.links ids) = d.dependencyLinks := by
  rw [late_links d ids (Or.inl rfl)]
  simp

theorem implements_links : labelled .implements (d.links ids) = d.implementationLinks := by
  rw [late_links d ids (Or.inr (Or.inl rfl))]
  simp

theorem calls_links : labelled .calls (d.links ids) = d.callLinks ids [] d.report.calls := by
  rw [late_links d ids (Or.inr (Or.inr rfl))]
  simp

end Directory

end CodeGraph
