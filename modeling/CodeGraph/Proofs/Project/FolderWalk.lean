import CodeGraph.Proofs.Imports.Cycle
import CodeGraph.Proofs.Project.Files

/-!
# A walk through folders

* `FileTree.mem_leavesFrom` — the leaves of a tree are what stands at its places, folders apart.
* `FolderWalk` — a walk that leaves out whole folders by their names and takes what it comes to by its
  place; `mem_walk` says where it comes, and `pairwise_walk` in which order.
* `discover_eq_walk` — what is found below a folder is what such walks take: the sources, and the folders
  that cannot be listed.
-/

namespace CodeGraph

/-! ### Entries -/

namespace EntriesDistinct

variable {entries : List (FileName × FileTree)}

theorem nodup_names (h : EntriesDistinct entries) : (entries.map (·.1)).Nodup := by
  induction entries with
  | nil => exact List.nodup_nil
  | cons e entries ih =>
    obtain ⟨hname, -, hentries⟩ := h
    exact List.nodup_cons.mpr ⟨hname, ih hentries⟩

theorem lookup_eq_some (h : EntriesDistinct entries) {name : FileName} {t : FileTree} :
    entries.lookup name = some t ↔ (name, t) ∈ entries := by
  induction entries with
  | nil => simp
  | cons e entries ih =>
    obtain ⟨hname, -, hentries⟩ := h
    rw [List.lookup_cons, List.mem_cons]
    split
    next heq =>
      obtain rfl := eq_of_beq heq
      constructor
      · intro ht
        exact .inl (Prod.ext rfl (Option.some.inj ht).symm)
      · rintro (he | ht)
        · rw [← he]
        · exact absurd (List.mem_map_of_mem ht) hname
    next hne =>
      rw [ih hentries]
      refine (or_iff_right fun he => ?_).symm
      rw [← he, beq_self_eq_true] at hne
      cases hne

end EntriesDistinct

namespace FileTree

/-- What a walk ends at: anything but a folder that can be listed. -/
def IsLeaf : FileTree → Prop
  | folder _ => False
  | _ => True

theorem isLeaf_or_folder (t : FileTree) : t.IsLeaf ∨ ∃ entries, t = folder entries := by
  cases t with
  | folder entries => exact .inr ⟨entries, rfl⟩
  | file _ | lockedFile _ | lockedFolder _ | link _ => exact .inl trivial

theorem at?_cons_folder {entries : List (FileName × FileTree)} {p : FileName} {ps : List FileName} :
    (FileTree.folder entries).at? (p :: ps) = (entries.lookup p).bind (at? ps) := rfl

theorem at?_append {t : FileTree} (ps qs : List FileName) :
    t.at? (ps ++ qs) = (t.at? ps).bind (at? qs) := by
  induction ps generalizing t with
  | nil => rfl
  | cons p ps ih =>
    rw [List.cons_append, FileTree.at?, FileTree.at?, Option.bind_assoc]
    exact Option.bind_congr fun u _ => ih

/-- Below a leaf there is nothing; a walk does not follow links. -/
theorem IsLeaf.at? {t u : FileTree} (h : t.IsLeaf) {q : List FileName} :
    t.at? q = some u ↔ q = [] ∧ u = t := by
  cases q with
  | nil => simp [FileTree.at?, eq_comm]
  | cons p ps =>
    cases t with
    | folder entries => exact absurd h id
    | file _ | lockedFile _ | lockedFolder _ | link _ => simp [FileTree.at?, FileTree.child?]

/-- A leaf below a folder is, or lies below, one of the entries. -/
theorem at?_folder {entries : List (FileName × FileTree)} {q : List FileName} {u : FileTree}
    (h : EntriesDistinct entries) (hu : u.IsLeaf) : (FileTree.folder entries).at? q = some u ↔
      ∃ e ∈ entries, ∃ ps, q = e.1 :: ps ∧ e.2.at? ps = some u := by
  cases q with
  | nil =>
    refine iff_of_false (fun hfolder => ?_) (by simp)
    rw [← Option.some.inj hfolder] at hu
    exact hu
  | cons p ps =>
    rw [at?_cons_folder, Option.bind_eq_some_iff]
    constructor
    · rintro ⟨t, ht, hbelow⟩
      exact ⟨(p, t), h.lookup_eq_some.mp ht, ps, rfl, hbelow⟩
    · rintro ⟨⟨_, t⟩, he, _, hq, hbelow⟩
      obtain ⟨rfl, rfl⟩ := List.cons.inj hq
      exact ⟨t, h.lookup_eq_some.mpr he, hbelow⟩

/-! ### The leaves of a tree -/

theorem leavesFrom_of_isLeaf (place : List FileName) {t : FileTree} (h : t.IsLeaf) :
    t.leavesFrom place = [(place, t)] := by
  cases t with
  | folder entries => exact absurd h id
  | file _ | lockedFile _ | lockedFolder _ | link _ => rfl

theorem mem_leavesFrom_of_isLeaf {place : List FileName} {x : List FileName × FileTree} {t : FileTree}
    (h : t.IsLeaf) :
    x ∈ t.leavesFrom place ↔ ∃ q, x.1 = place ++ q ∧ x.2.IsLeaf ∧ t.at? q = some x.2 := by
  rw [leavesFrom_of_isLeaf place h, List.mem_singleton]
  constructor
  · rintro rfl
    exact ⟨[], (List.append_nil place).symm, h, rfl⟩
  · rintro ⟨_, hplace, -, hat⟩
    obtain ⟨rfl, hleaf⟩ := h.at?.mp hat
    exact Prod.ext (hplace.trans (List.append_nil place)) hleaf

mutual
/-- The leaves of a tree are what stands at its places, folders apart. -/
theorem mem_leavesFrom {place : List FileName} {x : List FileName × FileTree} :
    ∀ t : FileTree, t.Distinct →
      (x ∈ t.leavesFrom place ↔ ∃ q, x.1 = place ++ q ∧ x.2.IsLeaf ∧ t.at? q = some x.2)
  | .folder entries, h => by
    rw [FileTree.leavesFrom, mem_leavesOfEntries entries h]
    constructor
    · rintro ⟨e, he, ps, hplace, hleaf, hbelow⟩
      exact ⟨e.1 :: ps, hplace, hleaf, (at?_folder h hleaf).mpr ⟨e, he, ps, rfl, hbelow⟩⟩
    · rintro ⟨_, hplace, hleaf, hfolder⟩
      obtain ⟨e, he, ps, rfl, hbelow⟩ := (at?_folder h hleaf).mp hfolder
      exact ⟨e, he, ps, hplace, hleaf, hbelow⟩
  | .file _, _ | .lockedFile _, _ | .lockedFolder _, _ | .link _, _ =>
    mem_leavesFrom_of_isLeaf trivial

theorem mem_leavesOfEntries {place : List FileName} {x : List FileName × FileTree} :
    ∀ entries : List (FileName × FileTree), EntriesDistinct entries →
      (x ∈ leavesOfEntries place entries ↔
        ∃ e ∈ entries, ∃ ps, x.1 = place ++ e.1 :: ps ∧ x.2.IsLeaf ∧ e.2.at? ps = some x.2)
  | [], _ => by simp [leavesOfEntries]
  | (name, t) :: entries, h => by
    obtain ⟨-, ht, hentries⟩ := h
    rw [leavesOfEntries, List.mem_append, mem_leavesFrom t ht, mem_leavesOfEntries entries hentries,
      List.exists_mem_cons_iff]
    simp only [List.append_assoc, List.singleton_append]
end

/-- What is taken of a tree stands at its place. -/
theorem mem_taken_iff {α : Type} {take : FileTree → Option α} {t : FileTree} (h : t.Distinct)
    {x : List FileName × α} (htake : ∀ u, take u = some x.2 → u.IsLeaf) :
    x ∈ t.taken take ↔ ∃ u, t.at? x.1 = some u ∧ take u = some x.2 := by
  simp only [mem_taken, leaves, mem_leavesFrom t h, List.nil_append]
  constructor
  · rintro ⟨u, ⟨_, rfl, -, hu⟩, htaken⟩
    exact ⟨u, hu, htaken⟩
  · rintro ⟨u, hu, htaken⟩
    exact ⟨u, ⟨x.1, rfl, htake u htaken, hu⟩, htaken⟩

theorem isLeaf_of_answer? {u : FileTree} {a : Except AccessFault (List UInt8)}
    (h : u.answer? = some a) : u.IsLeaf := by
  cases u with
  | folder entries => cases h
  | file _ | lockedFile _ | lockedFolder _ | link _ => exact trivial

theorem isLeaf_of_refusal? {u : FileTree} {f : AccessFault} (h : u.refusal? = some f) : u.IsLeaf := by
  cases u with
  | folder entries => cases h
  | file _ | lockedFile _ | lockedFolder _ | link _ => exact trivial

theorem isFolder_of_answer? {u : FileTree} {a : Except AccessFault (List UInt8)}
    (h : u.answer? = some a) : u.isFolder = false := by
  cases u with
  | folder _ | lockedFolder _ | link _ => cases h
  | file _ | lockedFile _ => rfl

theorem refusal?_eq_some {u : FileTree} {f : AccessFault} :
    u.refusal? = some f ↔ u = .lockedFolder f := by
  cases u <;> simp [refusal?]

/-- The files of a tree are what can be read at its places, or what one tries to read in vain. -/
theorem mem_files {t : FileTree} (h : t.Distinct) {s : Source} :
    s ∈ t.files ↔ ∃ u, t.at? s.1 = some u ∧ u.answer? = some s.2 :=
  mem_taken_iff h fun _ => isLeaf_of_answer?

end FileTree

/-! ### The order of places -/

instance : Std.TransOrd FileName := inferInstanceAs (Std.TransCmp (compareOn FileName.bytes))

instance : Std.LawfulEqOrd FileName where
  eq_of_compare {a b} h := by
    cases a
    cases b
    exact congrArg FileName.mk (Std.LawfulEqCmp.eq_of_compare h)

theorem precedes_names {a b : List FileName} : Precedes a b ↔ a < b :=
  precedes_list fun _ _ => Iff.rfl

/-- By their places, step by step. -/
def ByPlace {β : Type} (x y : List FileName × β) : Prop := x.1 < y.1

instance {β : Type} : Std.Asymm (ByPlace (β := β)) where
  asymm x y hxy hyx :=
    Std.Asymm.asymm (r := Precedes) x.1 y.1 (precedes_names.mpr hxy) (precedes_names.mpr hyx)

/-- What is sorted by different places is in their strict order. -/
theorem pairwise_byPlace {β : Type} {xs : List (List FileName × β)} (h : (xs.map (·.1)).Nodup) :
    (sortedBy (·.1) xs).Pairwise ByPlace := by
  have hdistinct : (sortedBy (·.1) xs).Pairwise fun x y => x.1 ≠ y.1 := by
    rw [← List.pairwise_map, ← List.Nodup, ((sortedBy_perm _ _).map _).nodup_iff]
    exact h
  exact ((pairwise_sortedBy (·.1) xs).and hdistinct).imp fun hpair =>
    precedes_names.mp (precedes_of_isLE_of_ne hpair.1 hpair.2)

/-- Sources come in the strict order of their places. -/
theorem pairwise_discoverAt {languages : List Language} {settings : ReadingSettings} {tree : FileTree}
    {path : String} {found : Discovery} (hdistinct : tree.Distinct)
    (h : discoverAt languages settings tree path = .ok found) : found.sources.Pairwise ByPlace := by
  have hnodup := nodup_places_discoverAt h hdistinct
  rcases discoverAt_eq_ok h with rfl | ⟨place, t, -, hfound⟩
  · exact List.Pairwise.nil
  · rw [discover] at hfound
    cases hparse : parsePatterns settings.ignoredPatterns with
    | error f =>
      rw [hparse] at hfound
      cases hfound
    | ok ignored =>
      rw [hparse] at hfound
      obtain rfl := Except.ok.inj hfound
      exact pairwise_byPlace (((sortedBy_perm _ _).map _).nodup_iff.mp hnodup)

/-! ### Walks -/

/-- Into which folders a walk goes, by their names, and what it takes of what it comes to, by the place. -/
structure FolderWalk (β : Type) where
  enters : FileName → Bool
  takes : List FileName → FileTree → Option β

/-- The folders on the way to what stands at a place, with the place itself if a folder stands there. -/
def foldersTo (u : FileTree) (q : List FileName) : List FileName := if u.isFolder then q else q.dropLast

theorem foldersTo_nil (u : FileTree) : foldersTo u [] = [] := by
  rw [foldersTo]
  split <;> rfl

theorem foldersTo_cons_cons (u : FileTree) (p q : FileName) (ps : List FileName) :
    foldersTo u (p :: q :: ps) = p :: foldersTo u (q :: ps) := by
  rw [foldersTo, foldersTo]
  split <;> rfl

namespace FolderWalk

variable {β : Type} (w : FolderWalk β)

/-- Whether a walk goes on at an entry of a folder. -/
def passes (name : FileName) (t : FileTree) : Bool := !t.isFolder || w.enters name

mutual
/-- Walk through a tree that stands at `place`.  Links are not followed; the entries of a folder come in the
order of their names. -/
def walk (place : List FileName) : FileTree → List (List FileName × β)
  | .folder entries => (sortedBy (·.1) (walkEntries place entries)).flatMap (·.2)
  | t => ((w.takes place t).map fun b => (place, b)).toList

/-- What a walk takes of every entry, with the name of the entry. -/
def walkEntries (place : List FileName) :
    List (FileName × FileTree) → List (FileName × List (List FileName × β))
  | [] => []
  | (name, t) :: entries =>
    (name, if w.passes name t then walk (place ++ [name]) t else []) :: walkEntries place entries
end

variable {w}

theorem names_walkEntries (place : List FileName) (entries : List (FileName × FileTree)) :
    (w.walkEntries place entries).map (·.1) = entries.map (·.1) := by
  induction entries with
  | nil => rfl
  | cons e entries ih => rw [walkEntries, List.map_cons, List.map_cons, ih]

theorem walk_of_isLeaf (place : List FileName) {t : FileTree} (h : t.IsLeaf) :
    w.walk place t = ((w.takes place t).map fun b => (place, b)).toList := by
  cases t with
  | folder entries => exact absurd h id
  | file _ | lockedFile _ | lockedFolder _ | link _ => rfl

theorem mem_walk_folder {place : List FileName} {entries : List (FileName × FileTree)}
    {x : List FileName × β} :
    x ∈ w.walk place (.folder entries) ↔ ∃ e ∈ w.walkEntries place entries, x ∈ e.2 := by
  simp only [walk, List.mem_flatMap, (sortedBy_perm _ _).mem_iff]

/-- Where a walk comes: to the leaves of a tree, if no folder on the way is left out. -/
structure Finds (w : FolderWalk β) (t : FileTree) (q : List FileName) (u : FileTree) : Prop where
  leaf : u.IsLeaf
  stands : t.at? q = some u
  enters : ∀ d ∈ foldersTo u q, w.enters d = true

theorem finds_of_isLeaf {t u : FileTree} {q : List FileName} (h : t.IsLeaf) :
    w.Finds t q u ↔ q = [] ∧ u = t := by
  constructor
  · rintro ⟨-, hat, -⟩
    exact h.at?.mp hat
  · rintro ⟨rfl, rfl⟩
    exact ⟨h, rfl, by simp [foldersTo_nil]⟩

/-- The name of an entry is one on the way if the entry is a folder. -/
theorem finds_entry {name : FileName} {t u : FileTree} {ps : List FileName} :
    w.passes name t = true ∧ w.Finds t ps u ↔
      u.IsLeaf ∧ t.at? ps = some u ∧ ∀ d ∈ foldersTo u (name :: ps), w.enters d = true := by
  cases ps with
  | nil =>
    constructor
    · rintro ⟨hpasses, hleaf, hat, -⟩
      obtain rfl := Option.some.inj hat
      refine ⟨hleaf, rfl, fun d hd => ?_⟩
      rw [foldersTo] at hd
      split at hd
      next hfolder =>
        rw [List.mem_singleton.mp hd]
        simpa [passes, hfolder] using hpasses
      next => exact absurd hd List.not_mem_nil
    · rintro ⟨hleaf, hat, henters⟩
      obtain rfl := Option.some.inj hat
      refine ⟨?_, hleaf, rfl, by simp [foldersTo_nil]⟩
      cases hfolder : t.isFolder with
      | false => simp [passes, hfolder]
      | true => simp [passes, henters name (by simp [foldersTo, hfolder])]
  | cons p ps =>
    rw [foldersTo_cons_cons, List.forall_mem_cons]
    constructor
    · rintro ⟨hpasses, hleaf, hat, henters⟩
      refine ⟨hleaf, hat, ?_, henters⟩
      obtain ⟨v, hv, -⟩ := Option.bind_eq_some_iff.mp hat
      cases t with
      | folder entries => exact hpasses
      | file _ | lockedFile _ | lockedFolder _ | link _ => cases hv
    · rintro ⟨hleaf, hat, hname, henters⟩
      exact ⟨by simp [passes, hname], hleaf, hat, henters⟩

theorem finds_folder {entries : List (FileName × FileTree)} {q : List FileName} {u : FileTree}
    (h : EntriesDistinct entries) : w.Finds (.folder entries) q u ↔
      ∃ e ∈ entries, ∃ ps, q = e.1 :: ps ∧ w.passes e.1 e.2 = true ∧ w.Finds e.2 ps u := by
  simp only [finds_entry]
  constructor
  · rintro ⟨hleaf, hat, henters⟩
    obtain ⟨e, he, ps, rfl, hbelow⟩ := (FileTree.at?_folder h hleaf).mp hat
    exact ⟨e, he, ps, rfl, hleaf, hbelow, henters⟩
  · rintro ⟨e, he, ps, rfl, hleaf, hbelow, henters⟩
    exact ⟨hleaf, (FileTree.at?_folder h hleaf).mpr ⟨e, he, ps, rfl, hbelow⟩, henters⟩

theorem mem_walk_of_isLeaf {place : List FileName} {x : List FileName × β} {t : FileTree} (h : t.IsLeaf) :
    x ∈ w.walk place t ↔ ∃ q u, x.1 = place ++ q ∧ w.Finds t q u ∧ w.takes x.1 u = some x.2 := by
  rw [walk_of_isLeaf place h, Option.mem_toList, Option.map_eq_some_iff]
  simp only [finds_of_isLeaf h]
  constructor
  · rintro ⟨b, hb, rfl⟩
    exact ⟨[], t, (List.append_nil place).symm, ⟨rfl, rfl⟩, hb⟩
  · rintro ⟨_, _, hplace, ⟨rfl, rfl⟩, htakes⟩
    rw [List.append_nil] at hplace
    exact ⟨x.2, hplace ▸ htakes, Prod.ext hplace.symm rfl⟩

mutual
/-- A walk comes to the leaves of a tree on the way to which no folder is left out, and takes something of
them by their places. -/
theorem mem_walk {place : List FileName} {x : List FileName × β} : ∀ t : FileTree, t.Distinct →
    (x ∈ w.walk place t ↔ ∃ q u, x.1 = place ++ q ∧ w.Finds t q u ∧ w.takes x.1 u = some x.2)
  | .folder entries, h => by
    rw [mem_walk_folder, mem_walkEntries entries h]
    simp only [finds_folder h]
    constructor
    · rintro ⟨e, he, ps, u, hplace, hpasses, hfinds, htakes⟩
      exact ⟨e.1 :: ps, u, hplace, ⟨e, he, ps, rfl, hpasses, hfinds⟩, htakes⟩
    · rintro ⟨_, u, hplace, ⟨e, he, ps, rfl, hpasses, hfinds⟩, htakes⟩
      exact ⟨e, he, ps, u, hplace, hpasses, hfinds, htakes⟩
  | .file _, _ | .lockedFile _, _ | .lockedFolder _, _ | .link _, _ =>
    mem_walk_of_isLeaf trivial

theorem mem_walkEntries {place : List FileName} {x : List FileName × β} :
    ∀ entries : List (FileName × FileTree), EntriesDistinct entries →
      ((∃ g ∈ w.walkEntries place entries, x ∈ g.2) ↔
        ∃ e ∈ entries, ∃ ps u, x.1 = place ++ e.1 :: ps ∧ w.passes e.1 e.2 = true ∧
          w.Finds e.2 ps u ∧ w.takes x.1 u = some x.2)
  | [], _ => by simp [walkEntries]
  | (name, t) :: entries, h => by
    obtain ⟨-, ht, hentries⟩ := h
    rw [walkEntries, List.exists_mem_cons_iff, List.exists_mem_cons_iff,
      mem_walkEntries entries hentries]
    refine or_congr_left ?_
    split
    next hpasses =>
      rw [mem_walk t ht]
      simp only [List.append_assoc, List.singleton_append, hpasses, true_and]
    next hpasses => simp [hpasses]
end

/-! ### The order of a walk -/

theorem pairwise_walk_of_isLeaf (place : List FileName) {t : FileTree} (h : t.IsLeaf) :
    (w.walk place t).Pairwise ByPlace := by
  rw [walk_of_isLeaf place h]
  cases w.takes place t with
  | none => exact List.Pairwise.nil
  | some b => exact List.pairwise_singleton _ _

mutual
/-- A walk takes things in the strict order of their places. -/
theorem pairwise_walk (place : List FileName) :
    ∀ t : FileTree, t.Distinct → (w.walk place t).Pairwise ByPlace
  | .folder entries, h => by
    rw [walk]
    have hentries {e : FileName × List (List FileName × β)}
        (he : e ∈ sortedBy (·.1) (w.walkEntries place entries)) :=
      pairwise_walkEntries place entries h e ((sortedBy_perm _ _).mem_iff.mp he)
    have hdistinct : (sortedBy (·.1) (w.walkEntries place entries)).Pairwise
        fun e e' => e.1 ≠ e'.1 := by
      rw [← List.pairwise_map, ← List.Nodup, ((sortedBy_perm _ _).map _).nodup_iff,
        names_walkEntries]
      exact h.nodup_names
    refine List.pairwise_flatMap.mpr ⟨fun e he => (hentries he).1, ?_⟩
    refine ((pairwise_sortedBy Prod.fst _).and hdistinct).imp_of_mem ?_
    rintro e e' he he' ⟨hle, hne⟩ x hx y hy
    -- below different entries, places first differ in the names of the entries
    obtain ⟨ps, hplace⟩ := (hentries he).2 x hx
    obtain ⟨ps', hplace'⟩ := (hentries he').2 y hy
    rw [ByPlace, hplace, hplace']
    exact List.append_left_lt (List.cons_lt_cons_iff.mpr (.inl (precedes_of_isLE_of_ne hle hne)))
  | .file _, _ | .lockedFile _, _ | .lockedFolder _, _ | .link _, _ =>
    pairwise_walk_of_isLeaf place trivial

theorem pairwise_walkEntries (place : List FileName) :
    ∀ entries : List (FileName × FileTree), EntriesDistinct entries →
      ∀ e ∈ w.walkEntries place entries,
        e.2.Pairwise ByPlace ∧ ∀ x ∈ e.2, ∃ ps, x.1 = place ++ e.1 :: ps
  | [], _ => by simp [walkEntries]
  | (name, t) :: entries, h => by
    obtain ⟨-, ht, hentries⟩ := h
    rw [walkEntries]
    refine List.forall_mem_cons.mpr ⟨?_, pairwise_walkEntries place entries hentries⟩
    split
    next =>
      refine ⟨pairwise_walk (place ++ [name]) t ht, fun x hx => ?_⟩
      obtain ⟨ps, u, hplace, -⟩ := (mem_walk t ht).mp hx
      exact ⟨ps, by rw [hplace, List.append_assoc, List.singleton_append]⟩
    next => exact ⟨List.Pairwise.nil, fun x hx => absurd hx List.not_mem_nil⟩
end

/-- What is sorted by place is what a walk takes if it is the same, all at different places. -/
theorem sortedBy_eq_walk {t : FileTree} (h : t.Distinct) {xs : List (List FileName × β)}
    (hnodup : (xs.map (·.1)).Nodup) (hmem : ∀ x, x ∈ xs ↔ x ∈ w.walk [] t) :
    sortedBy (·.1) xs = w.walk [] t :=
  List.Pairwise.eq_of_mem_iff (pairwise_byPlace hnodup) (pairwise_walk [] t h) fun x => by
    rw [(sortedBy_perm _ _).mem_iff, hmem]

end FolderWalk

/-! ### Discovery -/

namespace Selection

variable {selection : Selection} {rootName : String} {t : FileTree}

/-- Whether a file is a source if it lies in no folder that is left out. -/
def keeps (s : Selection) (rootName : String) (place : List FileName) : Bool :=
  let name := (place.getLast?.map FileName.text).getD rootName
  match Languages.ofPath? s.languages name with
  | none => false
  | some l =>
    (s.settings.includeTests || !l.isTestFile name) &&
      !s.ignored.any fun pieces => Text.Glob.isMatch pieces (Path.join (place.map FileName.text))

theorem selects_iff {place : List FileName} : selection.selects rootName place = true ↔
    (∀ d ∈ place.dropLast, (!selection.skipsFolder d) = true) ∧
      selection.keeps rootName place = true := by
  have hselects : selection.selects rootName place =
      (!place.dropLast.any selection.skipsFolder && selection.keeps rootName place) := rfl
  rw [hselects, Bool.and_eq_true, Bool.not_eq_true', List.any_eq_false]
  simp only [Bool.not_eq_true', Bool.not_eq_true]

/-- The walk that goes into no folder that is left out, for the sources. -/
def sourceWalk (s : Selection) (rootName : String) : FolderWalk (Except AccessFault (List UInt8)) where
  enters d := !s.skipsFolder d
  takes place t := if s.keeps rootName place then t.answer? else none

/-- The same for the folders that cannot be listed. -/
def refusalWalk (s : Selection) : FolderWalk AccessFault where
  enters d := !s.skipsFolder d
  takes _ t := t.refusal?

/-- A walk for sources finds what is selected. -/
theorem mem_sourceWalk (h : t.Distinct) {s : Source} :
    s ∈ (selection.sourceWalk rootName).walk [] t ↔
      (∃ u, t.at? s.1 = some u ∧ u.answer? = some s.2) ∧ selection.selects rootName s.1 = true := by
  rw [FolderWalk.mem_walk t h, selects_iff]
  simp only [List.nil_append, sourceWalk, Option.ite_none_right_eq_some]
  constructor
  · rintro ⟨_, u, rfl, ⟨-, hat, henters⟩, hkeeps, hanswer⟩
    rw [foldersTo, FileTree.isFolder_of_answer? hanswer] at henters
    exact ⟨⟨u, hat, hanswer⟩, henters, hkeeps⟩
  · rintro ⟨⟨u, hat, hanswer⟩, henters, hkeeps⟩
    refine ⟨s.1, u, rfl, ⟨FileTree.isLeaf_of_answer? hanswer, hat, ?_⟩, hkeeps, hanswer⟩
    rw [foldersTo, FileTree.isFolder_of_answer? hanswer]
    exact henters

/-- A walk for folders that cannot be listed finds those that are not left out. -/
theorem mem_refusalWalk (h : t.Distinct) {r : List FileName × AccessFault} :
    r ∈ selection.refusalWalk.walk [] t ↔
      t.at? r.1 = some (.lockedFolder r.2) ∧ selection.entersAt r.1 = true := by
  rw [FolderWalk.mem_walk t h, entersAt, Bool.not_eq_true', List.any_eq_false]
  simp only [List.nil_append, refusalWalk, FileTree.refusal?_eq_some]
  constructor
  · rintro ⟨_, _, rfl, ⟨-, hat, henters⟩, rfl⟩
    exact ⟨hat, fun d hd => by simpa using henters d hd⟩
  · rintro ⟨hat, henters⟩
    have hleaf : (FileTree.lockedFolder r.2).IsLeaf := trivial
    exact ⟨r.1, _, rfl, ⟨hleaf, hat, fun d hd => by simpa using henters d hd⟩, rfl⟩

/-- The files that are selected among all those of a tree are what a walk takes that leaves out whole
folders. -/
theorem selected_eq_walk (selection : Selection) (rootName : String) (h : t.Distinct) :
    sortedBy (·.1) (t.files.filter fun f => selection.selects rootName f.1) =
      (selection.sourceWalk rootName).walk [] t := by
  refine FolderWalk.sortedBy_eq_walk h ?_ fun s => ?_
  · exact (List.filter_sublist.map _).nodup (FileTree.nodup_taken _ h)
  · rw [List.mem_filter, FileTree.mem_files h, mem_sourceWalk h]

/-- The folders that cannot be listed and are not left out are what a walk takes as well. -/
theorem refused_eq_walk (selection : Selection) (h : t.Distinct) :
    sortedBy (·.1) (t.refusals.filter fun r => selection.entersAt r.1) =
      selection.refusalWalk.walk [] t := by
  refine FolderWalk.sortedBy_eq_walk h ?_ fun r => ?_
  · exact (List.filter_sublist.map _).nodup (FileTree.nodup_taken _ h)
  · rw [List.mem_filter, FileTree.refusals, FileTree.mem_taken_iff h fun _ => FileTree.isLeaf_of_refusal?,
      mem_refusalWalk h]
    simp only [FileTree.refusal?_eq_some, exists_eq_right]

end Selection

/-- What is found below a folder is what walks take that leave out whole folders. -/
theorem discover_eq_walk (languages : List Language) (settings : ReadingSettings) (path : String)
    {t : FileTree} (h : t.Distinct) : discover languages settings path t =
      (parsePatterns settings.ignoredPatterns).map fun ignored =>
        let selection : Selection := ⟨languages, settings, ignored⟩
        ⟨(selection.sourceWalk ((Path.fileName? path).getD "")).walk [] t,
          (selection.refusalWalk.walk [] t).map (refusalIssue path)⟩ := by
  rw [discover]
  refine congrArg (Except.map · _) (funext fun ignored => ?_)
  dsimp only
  rw [Selection.selected_eq_walk _ _ h, Selection.refused_eq_walk _ h]

end CodeGraph
