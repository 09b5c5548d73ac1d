import CodeGraph.Project.Basic
import CodeGraph.Proofs.Names.Order
import CodeGraph.Proofs.Text.Utf8
import Mathlib.Data.List.Basic
import Mathlib.Data.List.TakeWhile

/-!
# Where sources lie

* `Path.parent_join` — the folder of a path is the path without its last step.
* `FileName.IsName` — bytes that are the name of a file; they are shown as such a name.
* `FileTree.Each` — a tree of which the entries have names of some kind: as files have them
  (`FileTree.Named`), or texts (`FileTree.Legible`).
* `discoverAt_each`, `shown_of_mem_discoverAt` — a source lies at a place of such names, and in no folder
  that is hidden.
* `parent_ne_dot` — so no source lies in a folder that is called `.`.
-/

namespace CodeGraph

/-! ### Paths -/

namespace Path

/-- The name of a file or folder: not empty and without a slash. -/
def IsName (name : String) : Prop := name ≠ "" ∧ '/' ∉ name.toList

theorem toList_join_concat {ps : List String} (h : ps ≠ []) (p : String) :
    (join (ps ++ [p])).toList = (join ps).toList ++ '/' :: p.toList := by
  rw [join, String.intercalate_append_of_ne_nil h (List.cons_ne_nil p []),
    String.intercalate_singleton, String.toList_append, String.toList_append, List.append_assoc]
  rfl

theorem parent_of_slash {path : String} {front back : List Char} (hback : '/' ∉ back)
    (h : path.toList = front ++ '/' :: back) : parent path = String.ofList front := by
  have hpass : ∀ c ∈ back.reverse, (decide (c ≠ '/')) = true := by
    intro c hc
    exact decide_eq_true fun hslash => hback (hslash ▸ List.mem_reverse.mp hc)
  have hreverse : path.toList.reverse = back.reverse ++ '/' :: front.reverse := by
    rw [h, List.reverse_append, List.reverse_cons, List.append_assoc]
    rfl
  rw [parent, hreverse, List.dropWhile_append_of_pos hpass, List.dropWhile_cons_of_neg (by simp),
    List.drop_one, List.tail_cons, List.reverse_reverse]

theorem parent_of_no_slash {path : String} (h : '/' ∉ path.toList) : parent path = "" := by
  have hpass : path.toList.reverse.dropWhile (fun c => decide (c ≠ '/')) = [] := by
    refine List.dropWhile_eq_nil_iff.mpr fun c hc => ?_
    exact decide_eq_true fun hslash => h (hslash ▸ List.mem_reverse.mp hc)
  rw [parent, hpass]
  rfl

/-- The folder of a path is the path without its last step. -/
theorem parent_join (ps : List String) {p : String} (h : '/' ∉ p.toList) :
    parent (join (ps ++ [p])) = join ps := by
  cases ps with
  | nil => exact parent_of_no_slash (by simpa [join] using h)
  | cons q qs =>
    rw [parent_of_slash h (toList_join_concat (List.cons_ne_nil q qs) p), String.ofList_toList]

/-- Only the step `.` alone is the path `.`. -/
theorem join_eq_dot {ps : List String} (h : join ps = ".") : ps = ["."] := by
  rcases List.eq_nil_or_concat' ps with rfl | ⟨qs, p, rfl⟩
  · exact absurd h (by decide)
  · cases qs with
    | nil =>
      rw [List.nil_append, join, String.intercalate_singleton] at h
      rw [h]
      rfl
    | cons q qs =>
      have hchars := toList_join_concat (List.cons_ne_nil q qs) p
      rw [h] at hchars
      have hslash : '/' ∈ ".".toList := by
        rw [hchars]
        simp
      exact absurd hslash (by decide)

end Path

/-! ### Names -/

namespace FileName

variable {n : FileName}

@[simp]
theorem text_ofText (s : String) : (ofText s).text = s := Text.Utf8.decode_encode s

@[simp]
theorem ofText_inj {s t : String} : ofText s = ofText t ↔ s = t := by
  constructor
  · intro h
    rw [← text_ofText s, h, text_ofText]
  · rintro rfl
    rfl

@[simp]
theorem ofText_beq (s t : String) : (ofText s == ofText t) = (s == t) := by
  rw [Bool.eq_iff_iff, beq_iff_eq, beq_iff_eq, ofText_inj]

/-- The name of a file or folder: not empty and without a slash. -/
def IsName (n : FileName) : Prop := n.bytes ≠ [] ∧ ∀ b ∈ n.bytes, b.toNat ≠ 0x2F

instance (n : FileName) : Decidable n.IsName := inferInstanceAs (Decidable (_ ∧ _))

/-- What is shown of a name is one, whatever its bytes are. -/
theorem IsName.text (h : n.IsName) : Path.IsName n.text := by
  refine ⟨Text.Utf8.decode_ne_empty h.1, fun hslash => ?_⟩
  obtain ⟨b, hb, hvalue⟩ := Text.Utf8.slash_of_mem_decode hslash
  exact h.2 b hb hvalue

/-- The name is a text, and is shown as what it is. -/
def IsText (n : FileName) : Prop := ofText n.text = n

instance (n : FileName) : Decidable n.IsText := inferInstanceAs (Decidable (_ = _))

theorem isText_ofText (s : String) : (ofText s).IsText := by rw [IsText, text_ofText]

/-- Names that are texts are told apart by how they are shown. -/
theorem text_inj {m : FileName} (hn : n.IsText) (hm : m.IsText) (h : n.text = m.text) : n = m := by
  rw [← hn, ← hm, h]

theorem map_text_inj {a b : List FileName} (ha : ∀ n ∈ a, n.IsText) (hb : ∀ n ∈ b, n.IsText)
    (h : a.map text = b.map text) : a = b := by
  induction a generalizing b with
  | nil => exact (List.map_eq_nil_iff.mp h.symm).symm
  | cons n ns ih =>
    obtain ⟨m, ms, rfl⟩ := List.exists_cons_of_ne_nil (l := b) (by rintro rfl; cases h)
    obtain ⟨hn, hns⟩ := List.forall_mem_cons.mp ha
    obtain ⟨hm, hms⟩ := List.forall_mem_cons.mp hb
    obtain ⟨hhead, htail⟩ := List.cons.inj h
    rw [text_inj hn hm hhead, ih hns hms htail]

theorem forall_text {place : List FileName} (h : ∀ n ∈ place, n.IsName) :
    ∀ p ∈ place.map FileName.text, Path.IsName p := by
  intro p hp
  obtain ⟨n, hn, rfl⟩ := List.mem_map.mp hp
  exact (h n hn).text

end FileName

/-! ### Trees -/

mutual
/-- The entries of a tree have names of some kind. -/
def FileTree.Each (P : FileName → Prop) : FileTree → Prop
  | .folder entries => EachEntry P entries
  | _ => True

/-- The same over the entries of a folder. -/
def EachEntry (P : FileName → Prop) : List (FileName × FileTree) → Prop
  | [] => True
  | (name, t) :: entries => P name ∧ t.Each P ∧ EachEntry P entries
end

/-- The entries of a tree have names as files have them. -/
def FileTree.Named (t : FileTree) : Prop := t.Each FileName.IsName

/-- The names in a tree are texts: each is shown as what it is. -/
def FileTree.Legible (t : FileTree) : Prop := t.Each FileName.IsText

section

variable {P : FileName → Prop}

mutual
theorem FileTree.each_of_mem_leavesFrom {place : List FileName} (hplace : ∀ p ∈ place, P p) :
    ∀ (t : FileTree), t.Each P → ∀ u ∈ t.leavesFrom place, ∀ p ∈ u.1, P p
  | .folder entries, h, u, hu => by
    rw [FileTree.leavesFrom] at hu
    exact each_of_mem_leavesOfEntries hplace entries h u hu
  | .file _, _, u, hu | .lockedFile _, _, u, hu | .lockedFolder _, _, u, hu | .link _, _, u, hu => by
    obtain rfl := List.mem_singleton.mp hu
    exact hplace

theorem each_of_mem_leavesOfEntries {place : List FileName} (hplace : ∀ p ∈ place, P p) :
    ∀ (entries : List (FileName × FileTree)), EachEntry P entries →
      ∀ u ∈ leavesOfEntries place entries, ∀ p ∈ u.1, P p
  | [], _, u, hu => by
    rw [leavesOfEntries] at hu
    exact absurd hu List.not_mem_nil
  | (name, t) :: entries, h, u, hu => by
    obtain ⟨hname, ht, hentries⟩ := h
    rw [leavesOfEntries, List.mem_append] at hu
    rcases hu with hu | hu
    · refine FileTree.each_of_mem_leavesFrom (fun p hp => ?_) t ht u hu
      rcases List.mem_append.mp hp with hp | hp
      · exact hplace p hp
      · rw [List.mem_singleton.mp hp]
        exact hname
    · exact each_of_mem_leavesOfEntries hplace entries hentries u hu
end

/-- An entry of a folder has such a name, and so have the entries below it. -/
theorem FileTree.Each.entry {entries : List (FileName × FileTree)} (h : EachEntry P entries)
    {name : FileName} {t : FileTree} (ht : entries.lookup name = some t) : P name ∧ t.Each P := by
  induction entries with
  | nil => cases ht
  | cons e entries ih =>
    obtain ⟨hname, he, hentries⟩ := h
    rw [List.lookup_cons] at ht
    split at ht
    next heq => exact ⟨eq_of_beq heq ▸ hname, Option.some.inj ht ▸ he⟩
    next => exact ih hentries ht

end

/-- What is taken of a tree is taken of its leaves. -/
theorem FileTree.mem_taken {α : Type} {take : FileTree → Option α} {t : FileTree}
    {x : List FileName × α} :
    x ∈ t.taken take ↔ ∃ u, (x.1, u) ∈ t.leaves ∧ take u = some x.2 := by
  rw [FileTree.taken, List.mem_filterMap]
  constructor
  · rintro ⟨⟨place, u⟩, hu, hx⟩
    obtain ⟨a, ha, rfl⟩ := Option.map_eq_some_iff.mp hx
    exact ⟨u, hu, ha⟩
  · rintro ⟨u, hu, ha⟩
    exact ⟨(x.1, u), hu, by rw [ha]; rfl⟩

/-- What every folder passes on to its entries holds at every place below. -/
theorem FileTree.at?_ind {P : FileTree → Prop}
    (hentry : ∀ {entries : List (FileName × FileTree)} {name : FileName} {t : FileTree},
      P (.folder entries) → entries.lookup name = some t → P t)
    {t u : FileTree} (h : P t) {place : List FileName} (hu : t.at? place = some u) : P u := by
  induction place generalizing t with
  | nil => exact Option.some.inj hu ▸ h
  | cons p ps ih =>
    obtain ⟨v, hv, hrest⟩ := Option.bind_eq_some_iff.mp hu
    cases t with
    | folder entries => exact ih (hentry h hv) hrest
    | file _ | lockedFile _ | lockedFolder _ | link _ => cases hv

theorem FileTree.Each.at? {P : FileName → Prop} {t u : FileTree} (h : t.Each P) {place : List FileName}
    (hu : t.at? place = some u) : u.Each P :=
  FileTree.at?_ind (P := FileTree.Each P) (fun hfolder ht => (FileTree.Each.entry hfolder ht).2) h hu

/-- The names on the way to what stands at a place are of the kind that all names of the tree are. -/
theorem FileTree.Each.of_at? {P : FileName → Prop} {t u : FileTree} (h : t.Each P)
    {place : List FileName} (hu : t.at? place = some u) : ∀ p ∈ place, P p := by
  induction place generalizing t with
  | nil => exact fun p hp => absurd hp List.not_mem_nil
  | cons p ps ih =>
    obtain ⟨v, hv, hrest⟩ := Option.bind_eq_some_iff.mp hu
    cases t with
    | folder entries =>
      obtain ⟨hp, hbelow⟩ := FileTree.Each.entry h hv
      exact List.forall_mem_cons.mpr ⟨hp, ih hbelow hrest⟩
    | file _ | lockedFile _ | lockedFolder _ | link _ => cases hv

/-! ### Sources -/

variable {languages : List Language} {settings : ReadingSettings} {tree : FileTree} {path : String}
  {found : Discovery} {s : Source}

theorem mem_discover {t : FileTree} (h : discover languages settings path t = .ok found)
    (hs : s ∈ found.sources) :
    s ∈ t.files ∧ ∃ rootName ignored,
      (Selection.mk languages settings ignored).selects rootName s.1 = true := by
  unfold discover at h
  cases hparse : parsePatterns settings.ignoredPatterns with
  | error f => simp [hparse, Except.map] at h
  | ok ignored =>
    simp only [hparse, Except.map, Except.ok.injEq] at h
    rw [← h] at hs
    obtain ⟨hfile, hselects⟩ := List.mem_filter.mp ((sortedBy_perm _ _).mem_iff.mp hs)
    exact ⟨hfile, _, ignored, hselects⟩

/-- Sources are discovered below a place of the tree, if there is anything to discover. -/
theorem discoverAt_eq_ok (h : discoverAt languages settings tree path = .ok found) :
    found = ⟨[], []⟩ ∨
      ∃ place t, tree.at? place = some t ∧ discover languages settings path t = .ok found := by
  unfold discoverAt at h
  split at h
  · cases h
  · split at h
    · cases h
    next place _ =>
      split at h
      · exact Or.inl (Except.ok.inj h).symm
      · cases h
      next t _ ht =>
        split at h
        · exact Or.inl (Except.ok.inj h).symm
        · refine Or.inr ⟨place, t, ht, ?_⟩
          cases hd : discover languages settings path t with
          | error f => simp [hd, Except.mapError] at h
          | ok d => simpa [hd, Except.mapError] using h

/-- The names on the way to a source are of the kind that all names of the tree are. -/
theorem discoverAt_each {P : FileName → Prop}
    (h : discoverAt languages settings tree path = .ok found) (htree : tree.Each P)
    (hs : s ∈ found.sources) : ∀ p ∈ s.1, P p := by
  rcases discoverAt_eq_ok h with rfl | ⟨place, t, ht, hfound⟩
  · exact absurd hs List.not_mem_nil
  · obtain ⟨u, hu, -⟩ := FileTree.mem_taken.mp (mem_discover hfound hs).1
    exact FileTree.each_of_mem_leavesFrom (by simp) t (htree.at? ht) _ hu

/-- A source lies in no folder that is hidden. -/
theorem shown_of_mem_discoverAt (h : discoverAt languages settings tree path = .ok found)
    (hs : s ∈ found.sources) : ∀ p ∈ s.1.dropLast, p.text.toList.head? ≠ some '.' := by
  rcases discoverAt_eq_ok h with rfl | ⟨place, t, ht, hfound⟩
  · exact absurd hs List.not_mem_nil
  · obtain ⟨-, rootName, ignored, hselects⟩ := mem_discover hfound hs
    intro p hp hhidden
    have hskips : s.1.dropLast.any (Selection.mk languages settings ignored).skipsFolder = true :=
      List.any_eq_true.mpr ⟨p, hp, by simp [Selection.skipsFolder, hhidden]⟩
    simp [Selection.selects, hskips] at hselects

/-- No source lies in a folder that is called `.`. -/
theorem parent_ne_dot (h : discoverAt languages settings tree path = .ok found)
    (htree : tree.Named) (hs : s ∈ found.sources) : Path.parent s.path ≠ "." := by
  have hnames := discoverAt_each h htree hs
  have hshown := shown_of_mem_discoverAt h hs
  rw [Source.path]
  rcases List.eq_nil_or_concat' s.1 with hnil | ⟨ps, p, hplace⟩
  · rw [hnil]
    decide
  · rw [hplace] at hnames hshown ⊢
    rw [List.map_append, List.map_singleton, Path.parent_join _ (hnames p (by simp)).text.2]
    intro hdot
    obtain ⟨q, hq, hpoint⟩ : ∃ q ∈ ps, q.text = "." := by
      have hstep : "." ∈ ps.map FileName.text := by
        rw [Path.join_eq_dot hdot]
        exact List.mem_singleton_self _
      exact List.mem_map.mp hstep
    exact hshown q (by simpa using hq) (by rw [hpoint]; decide)

end CodeGraph
