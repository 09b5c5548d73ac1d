import CodeGraph.Proofs.Graph.Growth

/-!
# The passes over packages and declarations

* `Builder.addPackages_eq` — packages and files are added; for each path the last one is indexed.
* `Builder.exists_addTypesAndValues` — types are added where none of their name was declared before,
  with their fields; values are all added.
* `Builder.lookup_foldl_countCall` — the counters of calls that lead to no node.
* `Builder.exists_addFunctions` — functions are all added; for each name the first one is indexed.
-/

namespace CodeGraph

open Hash (Uuid)

namespace Builder

variable {b : Builder} {s : BuildState}

/-! ### Packages and files -/

/-- A file under its path. -/
def fileEntry (b : Builder) (slot : FileSlot) : String × Uuid :=
  (slot.file.path, b.ids.node slot.draft)

/-- A package under its import path. -/
def packageEntry (b : Builder) (u : Package × Nat) : String × Uuid :=
  (u.1.importPath, b.ids.node (u.1.draft u.2))

/-- The files of a package. -/
def slotsIn (u : Package × Nat) : List FileSlot :=
  u.1.files.zipIdx.map fun (file, i) => ⟨u.2, i, u.1, file⟩

theorem addFile_eq (owner : Draft) (slot : FileSlot) :
    b.addFile s (b.ids.node owner) slot =
      s.grow b { s.toNodeIndex with files := b.fileEntry slot :: s.files } [slot.draft]
        [.contains owner slot.draft] := by
  rw [addFile, addNode_eq]
  dsimp only
  rw [contain_eq, BuildState.grow_grow]
  rfl

theorem foldl_addFile (owner : Draft) (slots : List FileSlot) :
    slots.foldl (fun s slot => b.addFile s (b.ids.node owner) slot) s =
      s.grow b { s.toNodeIndex with files := (slots.map b.fileEntry).reverse ++ s.files }
        (slots.map FileSlot.draft) (slots.map fun slot => .contains owner slot.draft) := by
  obtain ⟨m, hgrow, rfl⟩ := BuildState.foldl_grow slots _ _ _
    (fun done m => m = { s.toNodeIndex with files := (done.map b.fileEntry).reverse ++ s.files })
    (fun done slot rest _ t _ ht => ⟨_, addFile_eq (b := b) owner slot, by simp [ht]⟩) rfl rfl
  rw [hgrow, ← List.map_eq_flatMap, ← List.map_eq_flatMap]

theorem addPackage_eq {d : Directory} (hproject : s.project = b.ids.node d.root) (k : Package)
    (i : Nat) : b.addPackage s k i =
      s.grow b { s.toNodeIndex with
          packages := b.packageEntry (k, i) :: s.packages
          files := ((slotsIn (k, i)).map b.fileEntry).reverse ++ s.files }
        (k.draft i :: (slotsIn (k, i)).map FileSlot.draft)
        (.contains d.root (k.draft i) :: (slotsIn (k, i)).map fun slot => .contains (k.draft i) slot.draft) := by
  rw [addPackage, addNode_eq]
  dsimp only
  rw [show (s.grow b s.toNodeIndex [k.draft i] []).project = b.ids.node d.root from hproject,
    contain_eq, BuildState.grow_grow]
  have hslots := foldl_addFile (b := b) (k.draft i) (slotsIn (k, i)) (s :=
    s.grow b { s.toNodeIndex with packages := b.packageEntry (k, i) :: s.packages } [k.draft i]
      [.contains d.root (k.draft i)])
  rw [slotsIn, List.foldl_map] at hslots
  exact hslots.trans (BuildState.grow_grow ..)

/-- The packages and files of a project; for each path the last one counts. -/
theorem addPackages_eq {d : Directory} (hproject : s.project = b.ids.node d.root) :
    b.addPackages s d.project =
      s.grow b { s.toNodeIndex with
          packages := (d.project.packages.zipIdx.map b.packageEntry).reverse ++ s.packages
          files := (d.slots.map b.fileEntry).reverse ++ s.files }
        d.packageDrafts d.packageLinks := by
  obtain ⟨m, hgrow, rfl⟩ := BuildState.foldl_grow d.project.packages.zipIdx
    (fun s u => b.addPackage s u.1 u.2) _ _
    (fun done m => m = { s.toNodeIndex with
      packages := (done.map b.packageEntry).reverse ++ s.packages
      files := ((done.flatMap slotsIn).map b.fileEntry).reverse ++ s.files })
    (fun done u rest _ t ht hm => ⟨_, addPackage_eq ht u.1 u.2, by simp [hm]⟩) hproject rfl
  rw [addPackages]
  refine hgrow.trans ?_
  simp only [slotsIn, List.map_map]
  rfl

/-! ### Types and values -/

section

variable {d : Directory} {slot : FileSlot}

theorem addField_eq (file type x : Draft) (field : FieldDecl) :
    b.addField s (b.ids.node file) (b.ids.node type) field x =
      s.grow b s.toNodeIndex [x] [.contains file x, ⟨type, x, .hasField field.embedded⟩] := by
  rw [addField, addNode_eq]
  dsimp only
  rw [contain_eq, relate_eq, BuildState.grow_grow, BuildState.grow_grow]
  rfl

theorem foldl_addField (file type : Draft) (fields : List (FieldDecl × Draft)) :
    fields.foldl (fun s (field, x) => b.addField s (b.ids.node file) (b.ids.node type) field x) s =
      s.grow b s.toNodeIndex (fields.map (·.2)) (fields.flatMap fun (field, x) =>
        [.contains file x, ⟨type, x, .hasField field.embedded⟩]) := by
  obtain ⟨m, hgrow, rfl⟩ := BuildState.foldl_grow fields
    (fun s u => b.addField s (b.ids.node file) (b.ids.node type) u.1 u.2) _ _
    (fun _ m => m = s.toNodeIndex)
    (fun done u rest _ t _ hm => ⟨_, addField_eq file type u.2 u.1, hm⟩) rfl rfl
  rw [List.map_eq_flatMap]
  exact hgrow

/-- A type that is new to the index is added with its fields. -/
theorem addType_eq (file : Draft) (t : TypeDecl) (i : Nat)
    (h : (s.types.lookup (slot.typeId t)).isSome = false) :
    b.addType s slot (b.ids.node file) t i =
      s.grow b { s.toNodeIndex with
          types := (slot.typeId t, b.ids.node (slot.typeDraft t i)) :: s.types }
        (slot.typeDraft t i :: (slot.fieldDrafts t i).map (·.2))
        (.contains file (slot.typeDraft t i) :: (slot.fieldDrafts t i).flatMap fun (field, x) =>
          [.contains file x, ⟨slot.typeDraft t i, x, .hasField field.embedded⟩]) := by
  rw [addType, h, addNode_eq]
  dsimp only
  rw [if_neg Bool.false_ne_true, contain_eq, BuildState.grow_grow]
  exact (foldl_addField file (slot.typeDraft t i) _).trans (BuildState.grow_grow ..)

/-- Types are noted under their names, and nothing else is changed. -/
def NotesTypes (b : Builder) (m : NodeIndex) (noted : List (FileSlot × TypeDecl × Nat))
    (m' : NodeIndex) : Prop :=
  ∃ types, m' = { m with types } ∧
    Recalls Directory.declaredId (fun u => b.ids.node (u.1.typeDraft u.2.1 u.2.2)) types noted

/-- Whether a type is the first one of its name. -/
def isFirst (d : Directory) (slot : FileSlot) (u : TypeDecl × Nat) : Bool :=
  (d.type? (slot.typeId u.1)).map Draft.site = some (.type slot.p slot.f u.2)

/-- What a type adds, if it is the first one of its name. -/
def typeDrafts (d : Directory) (slot : FileSlot) (u : TypeDecl × Nat) : List Draft :=
  if isFirst d slot u then slot.typeDraft u.1 u.2 :: (slot.fieldDrafts u.1 u.2).map (·.2) else []

def typeLinks (d : Directory) (slot : FileSlot) (u : TypeDecl × Nat) : List Link :=
  if isFirst d slot u then
    .contains (d.fileOf slot) (slot.typeDraft u.1 u.2) ::
      (slot.fieldDrafts u.1 u.2).flatMap fun (field, x) =>
        [.contains (d.fileOf slot) x, ⟨slot.typeDraft u.1 u.2, x, .hasField field.embedded⟩]
  else []

/-- One turn over the types of a file: what was met before decides whether the type is added. -/
theorem exists_addType {m : NodeIndex} (hslot : slot ∈ d.slots)
    {before after : List (FileSlot × TypeDecl × Nat)} {u : TypeDecl × Nat}
    (hdeclared : d.typeDeclarations = before ++ (slot, u) :: after)
    (hs : b.NotesTypes m before s.toNodeIndex) :
    ∃ m', b.addType s slot (b.ids.node (d.fileOf slot)) u.1 u.2 =
        s.grow b m' (typeDrafts d slot u) (typeLinks d slot u) ∧
      b.NotesTypes m (before ++ [(slot, u)]) m' := by
  obtain ⟨types, hindex, hnoted⟩ := hs
  obtain rfl : s.types = types := congrArg NodeIndex.types hindex
  have hfirst : isFirst d slot u = true ↔ (s.types.lookup (slot.typeId u.1)).isSome = false := by
    have hmem : isFirst d slot u = true ↔ u ∈ d.typesOf slot := by
      have hu : u ∈ slot.types := (Directory.mem_inSlots.mp
        (hdeclared ▸ List.mem_append_right before List.mem_cons_self)).2
      exact (List.mem_filter.trans (and_iff_right hu)).symm
    rw [hmem, Directory.mem_typesOf_iff_of_append hslot hdeclared, hnoted (slot.typeId u.1),
      Option.isSome_map, Option.isSome_eq_false_iff, Option.isNone_iff_eq_none]
  cases hknown : (s.types.lookup (slot.typeId u.1)).isSome with
  | true =>
    have hnot : isFirst d slot u = false := by
      rw [← Bool.not_eq_true, hfirst, hknown]
      exact Bool.noConfusion
    refine ⟨s.toNodeIndex, ?_, s.types, hindex, hnoted.skip hknown⟩
    rw [addType, hknown, typeDrafts, typeLinks, hnot]
    exact (BuildState.grow_nil b s).symm
  | false =>
    refine ⟨{ s.toNodeIndex with
      types := (slot.typeId u.1, b.ids.node (slot.typeDraft u.1 u.2)) :: s.types }, ?_, _,
      by rw [hindex]; rfl, hnoted.cons hknown⟩
    rw [addType_eq _ _ _ hknown, typeDrafts, typeLinks, hfirst.mpr hknown]
    rfl

/-- The types of a file that are not declared before are added. -/
theorem exists_foldl_addType {m : NodeIndex} (hslot : slot ∈ d.slots)
    {before after : List (FileSlot × TypeDecl × Nat)}
    (hdeclared : d.typeDeclarations = before ++ slot.types.map (slot, ·) ++ after)
    (hs : b.NotesTypes m before s.toNodeIndex) :
    ∃ m', slot.types.foldl (fun s (t, i) => b.addType s slot (b.ids.node (d.fileOf slot)) t i) s =
        s.grow b m' (d.typeDrafts slot) (d.typeLinks slot) ∧
      b.NotesTypes m (before ++ slot.types.map (slot, ·)) m' := by
  obtain ⟨m', hgrow, hnoted⟩ := BuildState.foldl_grow (b := b) (s := s) slot.types
    (fun s u => b.addType s slot (b.ids.node (d.fileOf slot)) u.1 u.2) (typeDrafts d slot)
    (typeLinks d slot) (fun done => b.NotesTypes m (before ++ done.map (slot, ·)))
    (fun done u rest hsplit t _ ht => by
      have hrest : d.typeDeclarations =
          before ++ done.map (slot, ·) ++ (slot, u) :: (rest.map (slot, ·) ++ after) := by
        simp [hdeclared, hsplit]
      simpa using exists_addType hslot hrest ht) rfl (by simpa using hs)
  refine ⟨m', hgrow.trans ?_, hnoted⟩
  rw [Directory.typeDrafts, Directory.typeLinks, Directory.typesOf, flatMap_filter, flatMap_filter]
  rfl

theorem foldl_addValue (file : Draft) (xs : List Draft) :
    xs.foldl (fun s x => b.addValue s (b.ids.node file) x) s =
      s.grow b s.toNodeIndex xs (xs.map (.contains file)) := by
  have hvalue (t : BuildState) (x : Draft) : b.addValue t (b.ids.node file) x =
      t.grow b t.toNodeIndex [x] [.contains file x] := by
    rw [addValue, addNode_eq]
    dsimp only
    rw [contain_eq, BuildState.grow_grow]
    rfl
  obtain ⟨m, hgrow, rfl⟩ := BuildState.foldl_grow xs _ _ _ (fun _ m => m = s.toNodeIndex)
    (fun done x rest _ t _ hm => ⟨_, hvalue t x, hm⟩) rfl rfl
  rw [hgrow, ← List.map_eq_flatMap, ← List.map_eq_flatMap, List.map_id']

/-- The types and values of all files. -/
theorem exists_addTypesAndValues {m : NodeIndex} (hs : b.NotesTypes m [] s.toNodeIndex) :
    ∃ m', d.slots.foldl (fun s slot => b.addTypesAndValues s slot (b.ids.node (d.fileOf slot))) s =
        s.grow b m' (d.slots.flatMap fun slot => d.typeDrafts slot ++ slot.valueDrafts)
          (d.slots.flatMap fun slot => d.typeLinks slot ++ d.valueLinks slot) ∧
      b.NotesTypes m d.typeDeclarations m' := by
  refine BuildState.foldl_grow d.slots _ _ _
    (fun done => b.NotesTypes m (done.flatMap fun slot => slot.types.map (slot, ·)))
    (fun done slot rest hsplit t _ ht => ?_) rfl hs
  have hslot : slot ∈ d.slots := hsplit ▸ List.mem_append_right done List.mem_cons_self
  have hdeclared : d.typeDeclarations =
      (done.flatMap fun slot => slot.types.map (slot, ·)) ++ slot.types.map (slot, ·) ++
        rest.flatMap fun slot => slot.types.map (slot, ·) := by
    rw [Directory.typeDeclarations, Directory.inSlots, hsplit, List.flatMap_append,
      List.flatMap_cons, List.append_assoc]
  obtain ⟨m', hgrow, hnoted⟩ := exists_foldl_addType hslot hdeclared ht
  refine ⟨m', ?_, by simpa using hnoted⟩
  rw [addTypesAndValues]
  dsimp only
  rw [hgrow, foldl_addValue, BuildState.grow_grow]
  rfl

/-! ### Functions -/

/-- Whether a call leaves a function for a place outside without a node. -/
def isOutside (d : Directory) (f : FunctionId) (e : CallEdge) : Bool :=
  e.caller = f &&
    match e.target with
    | .external package _ => (d.import? package).isNone
    | _ => false

/-- Whether the target of a call of a function was not found. -/
def isNotFound (f : FunctionId) (e : CallEdge) : Bool :=
  e.caller = f &&
    match e.target with
    | .unresolved _ _ => true
    | _ => false

/-- Import paths outside the project are those with a node. -/
def KnowsOutside (b : Builder) (d : Directory) : Prop :=
  ∀ path, b.external.contains path = (d.import? path).isSome

theorem lookup_countCall (hexternal : b.KnowsOutside d) (counters : List (FunctionId × Nat × Nat))
    (e : CallEdge) (f : FunctionId) :
    ((b.countCall counters e).lookup f).getD (0, 0) =
      (((counters.lookup f).getD (0, 0)).1 + if isOutside d f e then 1 else 0,
        ((counters.lookup f).getD (0, 0)).2 + if isNotFound f e then 1 else 0) := by
  have hcons (n : Nat × Nat) : ((e.caller, n) :: counters).lookup f =
      if e.caller = f then some n else counters.lookup f := by
    rw [List.lookup_cons]
    by_cases hf : e.caller = f
    · rw [if_pos hf, hf, beq_self_eq_true]
    · rw [if_neg hf, beq_eq_false_iff_ne.mpr (Ne.symm hf)]
  rw [countCall, isOutside, isNotFound]
  dsimp only
  cases e.target with
  | resolved g => simp
  | external package name =>
    have hnode := hexternal package
    rcases Option.eq_none_or_eq_some (d.import? package) with himport | ⟨x, himport⟩
    · rw [himport, Option.isSome_none] at hnode
      by_cases hf : e.caller = f <;> simp [-List.contains_eq_mem, hnode, himport, hcons, hf]
    · rw [himport, Option.isSome_some] at hnode
      simp [-List.contains_eq_mem, hnode, himport]
  | unresolved name reason => by_cases hf : e.caller = f <;> simp [hcons, hf]

/-- The counters of a function tell how many of its calls lead to no node. -/
theorem lookup_foldl_countCall (hexternal : b.KnowsOutside d) (f : FunctionId) :
    ((d.report.calls.foldl b.countCall []).lookup f).getD (0, 0) =
      (d.externalCalls f, d.unresolvedCalls f) := by
  -- counting goes on from any counters
  suffices ∀ (calls : List CallEdge) (counters : List (FunctionId × Nat × Nat)),
      ((calls.foldl b.countCall counters).lookup f).getD (0, 0) =
        (((counters.lookup f).getD (0, 0)).1 + calls.countP (isOutside d f),
          ((counters.lookup f).getD (0, 0)).2 + calls.countP (isNotFound f)) by
    refine (this d.report.calls []).trans (Prod.ext ?_ ?_)
    · exact Nat.zero_add _
    · exact Nat.zero_add _
  intro calls
  induction calls with
  | nil => exact fun counters => rfl
  | cons e calls ih =>
    intro counters
    rw [List.foldl_cons, ih, lookup_countCall hexternal, List.countP_cons, List.countP_cons]
    refine Prod.ext ?_ ?_
    · dsimp only
      omega
    · dsimp only
      omega

/-- Types are found as their first declarations. -/
def FindsTypes (b : Builder) (d : Directory) (m : NodeIndex) : Prop :=
  ∀ id, m.types.lookup id = (d.type? id).map b.ids.node

/-- Functions are noted under their names, and nothing else is changed. -/
def NotesFunctions (b : Builder) (d : Directory) (m : NodeIndex)
    (noted : List (FileSlot × FunctionDecl × Nat)) (m' : NodeIndex) : Prop :=
  ∃ functions, m' = { m with functions } ∧
    Recalls (fun u => u.1.functionId u.2.1)
      (fun u => b.ids.node (d.functionDraft u.1 u.2.1 u.2.2)) functions noted

/-- What a function is linked to. -/
def functionLinks (d : Directory) (slot : FileSlot) (u : FunctionDecl × Nat) : List Link :=
  let draft := d.functionDraft slot u.1 u.2
  let owner := if u.1.isMethod then d.type? ⟨slot.package.importPath, u.1.receiver⟩ else none
  .contains (d.fileOf slot) draft ::
    owner.toList.map fun type => ⟨type, draft, .hasMethod u.1.pointerReceiver⟩

theorem addFunction_eq {counters : List (FunctionId × Nat × Nat)}
    (hcounters : ∀ f, (counters.lookup f).getD (0, 0) = (d.externalCalls f, d.unresolvedCalls f))
    (htypes : b.FindsTypes d s.toNodeIndex) (f : FunctionDecl) (i : Nat) :
    b.addFunction s counters slot (b.ids.node (d.fileOf slot)) f i =
      s.grow b { s.toNodeIndex with
          functions := insertNew s.functions (slot.functionId f)
            (b.ids.node (d.functionDraft slot f i)) }
        [d.functionDraft slot f i] (functionLinks d slot (f, i)) := by
  let grown := s.grow b
    { s.toNodeIndex with
      functions := insertNew s.functions (slot.functionId f) (b.ids.node (d.functionDraft slot f i)) }
    [d.functionDraft slot f i] [.contains (d.fileOf slot) (d.functionDraft slot f i)]
  let owner := if f.isMethod then d.type? ⟨slot.package.importPath, f.receiver⟩ else none
  have hsplit : grown.grow b grown.toNodeIndex [] (owner.toList.map fun type =>
      ⟨type, d.functionDraft slot f i, .hasMethod f.pointerReceiver⟩) =
        s.grow b grown.toNodeIndex [d.functionDraft slot f i] (functionLinks d slot (f, i)) :=
    BuildState.grow_grow ..
  have howner : (if f.isMethod then grown.types.lookup ⟨slot.package.importPath, f.receiver⟩ else none) =
      owner.map b.ids.node := by
    show _ = (if f.isMethod then d.type? ⟨slot.package.importPath, f.receiver⟩ else none).map _
    cases f.isMethod with
    | true => exact htypes _
    | false => rfl
  rw [addFunction, hcounters]
  dsimp only
  rw [addNode_eq]
  dsimp only
  rw [contain_eq, BuildState.grow_grow]
  refine Eq.trans ?_ hsplit
  split
  next type hfound =>
    obtain ⟨_, hdraft, rfl⟩ := Option.map_eq_some_iff.mp (howner.symm.trans hfound)
    rw [hdraft]
    exact relate_eq ..
  next hfound =>
    rw [Option.map_eq_none_iff.mp (howner.symm.trans hfound)]
    exact (BuildState.grow_nil b grown).symm

/-- The functions of all files; each is found as its first declaration. -/
theorem exists_addFunctions {m : NodeIndex} {counters : List (FunctionId × Nat × Nat)}
    (hcounters : ∀ f, (counters.lookup f).getD (0, 0) = (d.externalCalls f, d.unresolvedCalls f))
    (htypes : b.FindsTypes d m) (hs : b.NotesFunctions d m [] s.toNodeIndex) :
    ∃ m', d.slots.foldl
          (fun s slot => b.addFunctions s counters slot (b.ids.node (d.fileOf slot))) s =
        s.grow b m' (d.slots.flatMap d.functionDrafts) (d.slots.flatMap d.functionLinks) ∧
      b.NotesFunctions d m (d.inSlots FileSlot.functions) m' := by
  refine BuildState.foldl_grow d.slots _ _ _
    (fun done => b.NotesFunctions d m (done.flatMap fun slot => slot.functions.map (slot, ·)))
    (fun done slot rest _ t _ ht => ?_) rfl hs
  obtain ⟨m', hgrow, hnoted⟩ := BuildState.foldl_grow (b := b) (s := t) slot.functions
    (fun s u => b.addFunction s counters slot (b.ids.node (d.fileOf slot)) u.1 u.2)
    (fun u => [d.functionDraft slot u.1 u.2]) (functionLinks d slot)
    (fun turns => b.NotesFunctions d m
      ((done.flatMap fun slot => slot.functions.map (slot, ·)) ++ turns.map (slot, ·)))
    (fun turns u _ _ v _ hv => by
      obtain ⟨functions, hindex, hnoted⟩ := hv
      obtain rfl : v.functions = functions := congrArg NodeIndex.functions hindex
      have hfinds : b.FindsTypes d v.toNodeIndex := hindex ▸ htypes
      refine ⟨_, addFunction_eq hcounters hfinds u.1 u.2, _, by rw [hindex], ?_⟩
      simpa using hnoted.insertNew (slot, u)) rfl (by simpa using ht)
  refine ⟨m', hgrow.trans ?_, by simpa using hnoted⟩
  rw [← List.map_eq_flatMap]
  rfl

end

end Builder

end CodeGraph
