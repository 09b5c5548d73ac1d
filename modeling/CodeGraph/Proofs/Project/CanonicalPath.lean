import CodeGraph.Proofs.Project.FolderWalk

/-!
# The path of a place

* `Path.splitFrom_join`, `FileTree.steps_placeText` — the steps of the path of a place are its names.
* `FileTree.isStep_of_resolve` — following a path leads to a place of texts that are steps down.
* `FileTree.walk_at?`, `FileTree.resolve_placeText` — such a place is where its own path leads, unless a link
  stands there.
* `discoverAt_openRoot`, `exists_entries_of_discoverAt` — discovery at the path of a root is a walk through
  the folder there, which must be one that can be listed.
-/

namespace CodeGraph

/-! ### Steps -/

namespace Path

theorem splitFrom_ne_nil (separator : Char) (piece cs : List Char) : splitFrom separator piece cs ≠ [] := by
  induction cs generalizing piece with
  | nil => exact List.cons_ne_nil _ _
  | cons c cs ih =>
    rw [splitFrom]
    split
    · exact List.cons_ne_nil _ _
    · exact ih (c :: piece)

theorem splitFrom_of_not_mem {separator : Char} {cs : List Char} (h : separator ∉ cs)
    (piece : List Char) : splitFrom separator piece cs = [String.ofList (piece.reverse ++ cs)] := by
  induction cs generalizing piece with
  | nil => rw [splitFrom, List.append_nil]
  | cons c cs ih =>
    obtain ⟨hc, hcs⟩ := List.ne_and_not_mem_of_not_mem_cons h
    rw [splitFrom, if_neg (Ne.symm hc), ih hcs, List.reverse_cons, List.append_assoc]
    rfl

theorem splitFrom_append_separator {separator : Char} {cs : List Char} (h : separator ∉ cs)
    (piece rest : List Char) : splitFrom separator piece (cs ++ separator :: rest) =
      String.ofList (piece.reverse ++ cs) :: splitFrom separator [] rest := by
  induction cs generalizing piece with
  | nil => rw [List.nil_append, splitFrom, if_pos rfl, List.append_nil]
  | cons c cs ih =>
    obtain ⟨hc, hcs⟩ := List.ne_and_not_mem_of_not_mem_cons h
    rw [List.cons_append, splitFrom, if_neg (Ne.symm hc), ih hcs, List.reverse_cons,
      List.append_assoc]
    rfl

/-- Names that are joined to a path are the pieces of the path between its slashes. -/
theorem splitFrom_join {ps : List String} (hne : ps ≠ []) (h : ∀ p ∈ ps, IsName p) :
    splitFrom '/' [] (join ps).toList = ps := by
  induction ps with
  | nil => exact absurd rfl hne
  | cons p ps ih =>
    obtain ⟨hp, hrest⟩ := List.forall_mem_cons.mp h
    cases ps with
    | nil =>
      rw [join, String.intercalate_singleton, splitFrom_of_not_mem hp.2, List.reverse_nil,
        List.nil_append, String.ofList_toList]
    | cons q qs =>
      have hchars : (join (p :: q :: qs)).toList = p.toList ++ '/' :: (join (q :: qs)).toList := by
        rw [join, String.intercalate_cons_cons, String.toList_append, String.toList_append,
          List.append_assoc]
        rfl
      rw [hchars, splitFrom_append_separator hp.2, ih (List.cons_ne_nil q qs) hrest,
        List.reverse_nil, List.nil_append, String.ofList_toList]

end Path

/-- A name that a path leads down by from a folder to one of its entries. -/
structure FileName.IsStep (n : FileName) : Prop where
  name : n.IsName
  text : n.IsText
  down : n ≠ "." ∧ n ≠ ".."

namespace FileTree

/-- The steps of the path of a place are its names; the path of the root stays where it is. -/
theorem steps_placeText {place : List FileName} (h : ∀ p ∈ place, p.IsStep) :
    steps (placeText place) = if place = [] then [↑"."] else place := by
  split
  next hroot =>
    rw [hroot]
    decide +kernel
  next hne =>
    have hnames : ∀ p ∈ place.map FileName.text, Path.IsName p :=
      FileName.forall_text fun p hp => (h p hp).name
    have hshown : place.map FileName.text ≠ [] := fun hnil => hne (List.map_eq_nil_iff.mp hnil)
    have hpieces : Path.splitFrom '/' [] (placeText place).toList = "" :: place.map FileName.text := by
      have hslash : (placeText place).toList =
          [] ++ '/' :: (Path.join (place.map FileName.text)).toList := by
        rw [placeText, String.toList_append]
        rfl
      rw [hslash, Path.splitFrom_append_separator List.not_mem_nil, Path.splitFrom_join hshown hnames]
      rfl
    have hlast : ("" :: place.map FileName.text).getLast? ≠ some "" := by
      rw [List.getLast?_cons_of_ne_nil hshown]
      exact fun hempty => (hnames "" (List.mem_of_getLast? hempty)).1 rfl
    have hkept : (place.map FileName.text).filter (· ≠ "") = place.map FileName.text :=
      List.filter_eq_self.mpr fun p hp => decide_eq_true (hnames p hp).1
    rw [steps, hpieces, if_neg hlast, List.append_nil, List.filter_cons_of_neg (by simp), hkept,
      List.map_map]
    exact (List.map_congr_left fun p hp => (h p hp).text).trans (List.map_id place)

theorem steps_ne_nil (path : String) : steps path ≠ [] := by
  intro hnone
  rw [steps, List.map_eq_nil_iff, List.append_eq_nil_iff] at hnone
  obtain ⟨hpieces, hlast⟩ := hnone
  -- without a name among the pieces the last one is empty, and asks for a folder
  have hempty : ∀ piece ∈ Path.splitFrom '/' [] path.toList, piece = "" := by
    simpa [List.filter_eq_nil_iff] using hpieces
  obtain ⟨pieces, piece, hsplit⟩ :=
    (List.eq_nil_or_concat' (Path.splitFrom '/' [] path.toList)).resolve_left (Path.splitFrom_ne_nil _ _ _)
  rw [hsplit, List.getLast?_concat, hempty piece (by simp [hsplit]), if_pos rfl] at hlast
  cases hlast

theorem isText_of_mem_steps {path : String} {step : FileName} (h : step ∈ steps path) : step.IsText := by
  obtain ⟨piece, -, rfl⟩ := List.mem_map.mp h
  exact FileName.isText_ofText piece

/-! ### Where a path leads -/

variable {root : FileTree}

/-- A walk goes down to entries and up again; with links it does so if what follows them does. -/
theorem isStep_of_walk (hroot : root.Named)
    {follow : List FileName → List FileName → Except AccessFault (List FileName)}
    (hfollow : ∀ place steps q, (∀ p ∈ place, p.IsStep) → (∀ p ∈ steps, p.IsText) →
      follow place steps = .ok q → ∀ p ∈ q, p.IsStep)
    {place steps q : List FileName} (hplace : ∀ p ∈ place, p.IsStep) (hsteps : ∀ p ∈ steps, p.IsText)
    (h : root.walk follow place steps = .ok q) : ∀ p ∈ q, p.IsStep := by
  induction steps generalizing place with
  | nil =>
    rw [FileTree.walk] at h
    exact Except.ok.inj h ▸ hplace
  | cons step rest ih =>
    obtain ⟨hstep, hrest⟩ := List.forall_mem_cons.mp hsteps
    rw [FileTree.walk] at h
    split at h
    next entries hentries =>
      split at h
      next => exact ih hplace hrest h
      next hdot =>
        split at h
        next => exact ih (fun p hp => hplace p (List.mem_of_mem_dropLast hp)) hrest h
        next hdots =>
          split at h
          next => cases h
          next target _ =>
            refine hfollow _ _ _ ?_ (fun p hp => ?_) h
            · split
              next => exact fun p hp => absurd hp List.not_mem_nil
              next => exact hplace
            · exact (List.mem_append.mp hp).elim isText_of_mem_steps (hrest p)
          next u _ hlookup =>
            refine ih (fun p hp => ?_) hrest h
            rcases List.mem_append.mp hp with hp | hp
            · exact hplace p hp
            · obtain rfl := List.mem_singleton.mp hp
              exact ⟨(FileTree.Each.entry (FileTree.Each.at? hroot hentries) hlookup).1, hstep,
                hdot, hdots⟩
    next => cases h
    next => cases h
    next => cases h

theorem isStep_of_resolveFrom (hroot : root.Named) (links : Nat) {place steps q : List FileName}
    (hplace : ∀ p ∈ place, p.IsStep) (hsteps : ∀ p ∈ steps, p.IsText)
    (h : root.resolveFrom links place steps = .ok q) : ∀ p ∈ q, p.IsStep := by
  induction links generalizing place steps q with
  | zero =>
    refine isStep_of_walk hroot (fun _ _ _ _ _ hnone => ?_) hplace hsteps h
    cases hnone
  | succ links ih =>
    exact isStep_of_walk hroot (fun _ _ _ hp ht hq => ih hp ht hq) hplace hsteps h

/-- A path leads to a place of names that are steps down, whatever links and dots are on the way. -/
theorem isStep_of_resolve (hroot : root.Named) {path : String} {place : List FileName}
    (h : root.resolve path = .ok place) : ∀ p ∈ place, p.IsStep :=
  isStep_of_resolveFrom hroot linkLimit (fun _ hp => absurd hp List.not_mem_nil)
    (fun _ hp => isText_of_mem_steps hp) h

/-- A path leads somewhere only if the root is a folder that can be listed. -/
theorem exists_entries_of_resolve {path : String} {place : List FileName}
    (h : root.resolve path = .ok place) : ∃ entries, root = .folder entries := by
  obtain ⟨step, rest, hsteps⟩ := List.exists_cons_of_ne_nil (steps_ne_nil path)
  rw [resolve, follow, hsteps, linkLimit, resolveFrom, FileTree.walk] at h
  cases root with
  | folder entries => exact ⟨entries, rfl⟩
  | file _ | lockedFile _ | lockedFolder _ | link _ => cases h

/-- Steps down lead to what stands there, if no link does. -/
theorem walk_at? (follow : List FileName → List FileName → Except AccessFault (List FileName))
    {place q : List FileName} {t : FileTree} (h : root.at? (place ++ q) = some t)
    (hlink : ∀ target, t ≠ .link target) (hq : ∀ p ∈ q, p ≠ "." ∧ p ≠ "..") :
    root.walk follow place q = .ok (place ++ q) := by
  induction q generalizing place with
  | nil => rw [FileTree.walk, List.append_nil]
  | cons p ps ih =>
    obtain ⟨⟨hdot, hdots⟩, hps⟩ := List.forall_mem_cons.mp hq
    have hrest : root.walk follow (place ++ [p]) ps = .ok (place ++ [p] ++ ps) :=
      ih (by rwa [List.append_assoc]) hps
    obtain ⟨v, hv, hbelow⟩ := Option.bind_eq_some_iff.mp ((at?_append place (p :: ps)).symm.trans h)
    rcases isLeaf_or_folder v with hleaf | ⟨entries, rfl⟩
    · exact absurd (hleaf.at?.mp hbelow).1 (List.cons_ne_nil p ps)
    · obtain ⟨u, hu, hend⟩ := Option.bind_eq_some_iff.mp hbelow
      rw [FileTree.child?] at hu
      rw [List.append_assoc] at hrest
      simp only [FileTree.walk, hv, if_neg hdot, if_neg hdots, hu]
      cases u with
      | link target =>
        have hleaf : (link target).IsLeaf := trivial
        exact absurd (hleaf.at?.mp hend).2 (hlink target)
      | file _ | lockedFile _ | lockedFolder _ | folder _ => exact hrest

/-- The path of a place leads to the place, unless a link stands there. -/
theorem resolve_placeText {place : List FileName} {t : FileTree} (h : root.at? place = some t)
    (hlink : ∀ target, t ≠ .link target) (hplace : ∀ p ∈ place, p.IsStep)
    (hroot : ∃ entries, root = .folder entries) :
    root.resolve (placeText place) = .ok place := by
  rw [FileTree.resolve, steps_placeText hplace]
  split
  next hnil =>
    obtain ⟨entries, rfl⟩ := hroot
    rw [hnil]
    simp [follow, linkLimit, resolveFrom, FileTree.walk, FileTree.at?]
  next => exact walk_at? _ h hlink fun p hp => (hplace p hp).down

end FileTree

/-! ### The root of a project -/

variable {tree : FileTree} {path : String} {place : List FileName}

theorem rootPlace_eq_ok : rootPlace tree path = .ok place ↔
    tree.resolve path = .ok place ∧ ∃ t, tree.at? place = some t ∧ t.isFolder = true := by
  unfold rootPlace
  cases hresolve : tree.resolve path with
  | error f => exact iff_of_false (fun h => nomatch h) fun h => nomatch h.1
  | ok p =>
    dsimp only
    rw [FileTree.isFolderAt]
    constructor
    · intro h
      split at h
      next hfolder =>
        obtain rfl := Except.ok.inj h
        exact ⟨rfl, (Option.any_eq_true _ _).mp hfolder⟩
      next => cases h
    · rintro ⟨hp, t, ht, hfolder⟩
      obtain rfl := Except.ok.inj hp
      rw [ht, Option.any_some, if_pos hfolder]

/-- The path of a root leads to the root: it is canonical. -/
theorem resolve_rootPlace (hnamed : tree.Named) (h : rootPlace tree path = .ok place) :
    tree.resolve (placeText place) = .ok place := by
  obtain ⟨hresolve, t, ht, hfolder⟩ := rootPlace_eq_ok.mp h
  refine FileTree.resolve_placeText ht ?_ (FileTree.isStep_of_resolve hnamed hresolve)
    (FileTree.exists_entries_of_resolve hresolve)
  rintro target rfl
  cases hfolder

/-- Discovery at the path of a root is a walk through the folder there, if the patterns can be read. -/
theorem discoverAt_openRoot (languages : List Language) (settings : ReadingSettings) (hnamed : tree.Named)
    (hdistinct : tree.Distinct) (h : rootPlace tree path = .ok place)
    {entries : List (FileName × FileTree)} (hopen : tree.at? place = some (.folder entries)) :
    discoverAt languages settings tree (placeText place) =
      ((parsePatterns settings.ignoredPatterns).map fun ignored =>
        let selection : Selection := ⟨languages, settings, ignored⟩
        ⟨(selection.sourceWalk ((Path.fileName? (placeText place)).getD "")).walk [] (.folder entries),
          (selection.refusalWalk.walk [] (.folder entries)).map
            (refusalIssue (placeText place))⟩).mapError .settings := by
  rw [← discover_eq_walk languages settings _ (FileTree.Distinct.at? hdistinct hopen)]
  cases hparse : parsePatterns settings.ignoredPatterns with
  | error f => simp only [discoverAt, discover, hparse, Except.map, Except.mapError]
  | ok ignored =>
    simp only [discoverAt, hparse, resolve_rootPlace hnamed h, hopen, FileTree.isFolder, Bool.not_true,
      Bool.and_false, Bool.false_eq_true, if_false]

/-- Anything is discovered at the path of a root only if the folder there can be listed. -/
theorem exists_entries_of_discoverAt {languages : List Language} {settings : ReadingSettings}
    {found : Discovery} (hnamed : tree.Named) (h : rootPlace tree path = .ok place)
    (hfound : discoverAt languages settings tree (placeText place) = .ok found) :
    ∃ entries, tree.at? place = some (.folder entries) := by
  obtain ⟨-, t, ht, hfolder⟩ := rootPlace_eq_ok.mp h
  cases t with
  | folder entries => exact ⟨entries, ht⟩
  | lockedFolder fault =>
    cases hparse : parsePatterns settings.ignoredPatterns <;>
      simp [discoverAt, hparse, resolve_rootPlace hnamed h, ht] at hfound
  | file _ | lockedFile _ | link _ => cases hfolder

end CodeGraph
