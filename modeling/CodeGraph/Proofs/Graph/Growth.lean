import CodeGraph.Proofs.Graph.Drafts

/-!
# Graphs under construction

* `Recalls` — a list of pairs answers for a key as the first of the things noted so far does.
* `BuildState.grow` — a state with more nodes and relationships, and with another index.
* `BuildState.foldl_grow` — a loop makes the state grow as each of its turns does.
* `Builder.addNode_eq`, `Builder.relate_eq` — what the two basic steps make.
* `Builder.overFiles_eq` — where files are found under their paths, no look-up of a file fails.
-/

namespace CodeGraph

open Hash (Uuid)

/-! ### Lists of pairs -/

section

variable {α β κ : Type} [DecidableEq κ] {key : α → κ} {value : α → β} {known : List (κ × β)}
  {noted : List α}

/-- A list of pairs answers for a key as the first of the things noted so far does. -/
def Recalls (key : α → κ) (value : α → β) (known : List (κ × β)) (noted : List α) : Prop :=
  ∀ k, known.lookup k = (noted.find? (key · = k)).map value

theorem Recalls.nil (key : α → κ) (value : α → β) : Recalls key value [] [] := fun _ => rfl

/-- Nothing is to be noted where the key has a value. -/
theorem Recalls.skip (h : Recalls key value known noted) {a : α}
    (ha : (known.lookup (key a)).isSome = true) : Recalls key value known (noted ++ [a]) := by
  intro k
  rw [List.find?_append, h k]
  by_cases hk : key a = k
  · rw [h (key a), Option.isSome_map] at ha
    obtain ⟨c, hc⟩ := Option.isSome_iff_exists.mp ha
    rw [← hk, hc, Option.some_or]
  · rw [List.find?_cons, decide_eq_false hk, List.find?_nil, Option.or_none]

theorem Recalls.cons (h : Recalls key value known noted) {a : α}
    (ha : (known.lookup (key a)).isSome = false) :
    Recalls key value ((key a, value a) :: known) (noted ++ [a]) := by
  intro k
  rw [List.find?_append, List.lookup_cons]
  by_cases hk : key a = k
  · rw [h (key a), Option.isSome_map, Option.isSome_eq_false_iff, Option.isNone_iff_eq_none] at ha
    rw [← hk, ha, beq_self_eq_true, Option.none_or, List.find?_cons, decide_eq_true rfl]
    rfl
  · rw [beq_eq_false_iff_ne.mpr (Ne.symm hk), List.find?_cons, decide_eq_false hk, List.find?_nil,
      Option.or_none]
    exact h k

theorem Recalls.insertNew (h : Recalls key value known noted) (a : α) :
    Recalls key value (insertNew known (key a) (value a)) (noted ++ [a]) := by
  rw [CodeGraph.insertNew]
  split
  next ha => exact h.skip ha
  next ha => exact h.cons (eq_false_of_ne_true ha)

end

/-! ### States that grow -/

namespace BuildState

variable {b : Builder} {s : BuildState}

/-- More nodes and relationships, and another index. -/
def grow (b : Builder) (s : BuildState) (m : NodeIndex) (xs : List Draft) (ls : List Link) :
    BuildState :=
  { s with
    toNodeIndex := m
    nodes := s.nodes ++ (xs.map (·.node b.ids b.projectId b.now)).toArray
    relationships := s.relationships ++ ((ls.zipIdx s.relationships.size).map fun (l, i) =>
      l.relationship b.ids b.projectId b.now i).toArray }

/-- The same graph, with other notes on calls. -/
def noting (s : BuildState) (known : List (Uuid × Uuid)) (unresolvedCalls : Nat) : BuildState :=
  { s with importCalls := known, unresolvedCalls }

theorem grow_nil (b : Builder) (s : BuildState) : s.grow b s.toNodeIndex [] [] = s := by
  simp [grow]

theorem grow_grow (m m' : NodeIndex) (xs ys : List Draft) (ls ms : List Link) :
    (s.grow b m xs ls).grow b m' ys ms = s.grow b m' (xs ++ ys) (ls ++ ms) := by
  simp [grow, List.zipIdx_append, Array.append_assoc]

theorem toList_nodes_grow (m : NodeIndex) (xs : List Draft) (ls : List Link) :
    (s.grow b m xs ls).nodes.toList =
      s.nodes.toList ++ xs.map (·.node b.ids b.projectId b.now) := by
  simp [grow]

theorem toList_relationships_grow (m : NodeIndex) (xs : List Draft) (ls : List Link) :
    (s.grow b m xs ls).relationships.toList =
      s.relationships.toList ++ (ls.zipIdx s.relationships.size).map fun (l, i) =>
        l.relationship b.ids b.projectId b.now i := by
  simp [grow]

/-- A loop makes the state grow as each of its turns does; what holds of the index and the things seen
so far is carried along. -/
theorem foldl_grow {α : Type} {u : Uuid} (as : List α) (step : BuildState → α → BuildState)
    (xs : α → List Draft) (ls : α → List Link) (known : List α → NodeIndex → Prop)
    (hstep : ∀ done a rest, as = done ++ a :: rest → ∀ s : BuildState, s.project = u →
      known done s.toNodeIndex → ∃ m, step s a = s.grow b m (xs a) (ls a) ∧ known (done ++ [a]) m)
    (hproject : s.project = u) (hs : known [] s.toNodeIndex) :
    ∃ m, as.foldl step s = s.grow b m (as.flatMap xs) (as.flatMap ls) ∧ known as m := by
  suffices ∀ done rest, as = done ++ rest → ∀ s : BuildState, s.project = u →
      known done s.toNodeIndex →
      ∃ m, rest.foldl step s = s.grow b m (rest.flatMap xs) (rest.flatMap ls) ∧ known as m from
    this [] as rfl s hproject hs
  intro done rest has
  induction rest generalizing done with
  | nil =>
    intro s _ hs
    rw [List.append_nil] at has
    exact ⟨s.toNodeIndex, (grow_nil b s).symm, has ▸ hs⟩
  | cons a rest ih =>
    intro s hproject hs
    obtain ⟨m, hgrow, hm⟩ := hstep done a rest has s hproject hs
    obtain ⟨m', hrest, hm'⟩ := ih (done ++ [a]) (by rw [has, List.append_assoc]; rfl)
      (s.grow b m (xs a) (ls a)) hproject hm
    refine ⟨m', ?_, hm'⟩
    rw [List.foldl_cons, hgrow, hrest, grow_grow]
    rfl

end BuildState

namespace Builder

variable {b : Builder} {s : BuildState}

theorem addNode_eq (x : Draft) :
    b.addNode s x = (b.ids.node x, s.grow b s.toNodeIndex [x] []) := by
  simp [addNode, BuildState.grow, Draft.node]

theorem relate_eq (x y : Draft) (p : RelationshipProperties) :
    b.relate s (b.ids.node x) (b.ids.node y) p = s.grow b s.toNodeIndex [] [⟨x, y, p⟩] := by
  simp [relate, BuildState.grow, Link.relationship]

theorem contain_eq (x y : Draft) :
    b.contain s (b.ids.node x) (b.ids.node y) = s.grow b s.toNodeIndex [] [.contains x y] :=
  relate_eq x y .contains

/-! ### Going through files -/

/-- Files are found under their paths. -/
def FindsFiles (b : Builder) (d : Directory) (m : NodeIndex) : Prop :=
  ∀ slot ∈ d.slots, m.files.lookup slot.file.path = some (b.ids.node (d.fileOf slot))

/-- Where no visit changes the index of files, every file is found. -/
theorem overFiles_eq {d : Directory} {visit : BuildState → FileSlot → Uuid → BuildState}
    (hvisit : ∀ s slot file, (visit s slot file).files = s.files)
    (hfiles : b.FindsFiles d s.toNodeIndex) :
    s.overFiles d.project visit =
      some (d.slots.foldl (fun s slot => visit s slot (b.ids.node (d.fileOf slot))) s) := by
  suffices ∀ slots ⊆ d.slots, ∀ t : BuildState, t.files = s.files →
      slots.foldlM (fun t slot => (t.files.lookup slot.file.path).map (visit t slot)) t =
        some (slots.foldl (fun t slot => visit t slot (b.ids.node (d.fileOf slot))) t) from
    this d.slots (List.Subset.refl _) s rfl
  intro slots hslots
  induction slots with
  | nil => exact fun t _ => rfl
  | cons slot slots ih =>
    intro t ht
    obtain ⟨hslot, hrest⟩ := List.cons_subset.mp hslots
    rw [List.foldlM_cons, ht, hfiles slot hslot]
    exact ih hrest _ ((hvisit t slot _).trans ht)

/-- A loop leaves the index of files alone if each of its turns does. -/
theorem foldl_files {α : Type} (step : BuildState → α → BuildState)
    (hstep : ∀ s a, (step s a).files = s.files) (as : List α) (s : BuildState) :
    (as.foldl step s).files = s.files := by
  induction as generalizing s with
  | nil => rfl
  | cons a as ih => exact (ih _).trans (hstep s a)

theorem addTypesAndValues_files (s : BuildState) (slot : FileSlot) (file : Uuid) :
    (b.addTypesAndValues s slot file).files = s.files := by
  have htype (s : BuildState) (u : TypeDecl × Nat) :
      (b.addType s slot file u.1 u.2).files = s.files := by
    rw [addType]
    split
    · rfl
    · exact foldl_files (fun s (u : FieldDecl × Draft) => b.addField s file _ u.1 u.2) (fun s u => rfl) _ _
  exact (foldl_files (fun s x => b.addValue s file x) (fun s x => rfl) slot.valueDrafts _).trans
    (foldl_files (fun s u => b.addType s slot file u.1 u.2) htype slot.types s)

theorem addFunctions_files (counters : List (FunctionId × Nat × Nat)) (s : BuildState)
    (slot : FileSlot) (file : Uuid) : (b.addFunctions s counters slot file).files = s.files := by
  refine foldl_files (fun s (u : FunctionDecl × Nat) => b.addFunction s counters slot file u.1 u.2)
    (fun s u => ?_) _ _
  rw [addFunction]
  dsimp only
  split
  · rfl
  · rfl

theorem addImports_files (s : BuildState) (slot : FileSlot) (file : Uuid) :
    (b.addImports s slot file).files = s.files := by
  refine foldl_files (fun s i => b.addImport s file i) (fun s i => ?_) _ _
  have hnode : (b.importNode s i.path).2.files = s.files := by
    rw [importNode]
    split
    · rfl
    · rfl
  rw [addImport]
  cases s.packages.lookup i.path with
  | some package => rfl
  | none => exact hnode

end Builder

end CodeGraph
