import CodeGraph.Proofs.Project.CanonicalPath

/-!
# Which files are sources

* `IsGoName` — a name with the extension of Go files; `Languages.ofPath?_standard` says that only those have
  a language.
* `ReadingSettings.Admits` — what the settings ask of a file, by the folders it lies in and by its name;
  `Selection.selects_standard` reads it off the selection.
* `ReadingSettings.Narrows` — settings that leave out more; `Admits.of_narrows`.
* `discoverAt_by_place` — the main result: the sources of a project are the files that are admitted.
-/

namespace CodeGraph

/-! ### Extensions -/

namespace Path

theorem extensionOfName?_append {stem extension : String} (h : '.' ∉ extension.toList) :
    extensionOfName? (stem ++ "." ++ extension) = if stem = "" then none else some extension := by
  have hreverse : (stem ++ "." ++ extension).toList.reverse =
      extension.toList.reverse ++ '.' :: stem.toList.reverse := by
    simp
  rw [extensionOfName?, hreverse, takeWhile_ne_append_cons (by simpa using h), List.drop_left]
  split
  next dot c front hstem =>
    have hne : stem ≠ "" := by
      rintro rfl
      cases (List.cons.inj hstem).2
    rw [if_neg hne, List.reverse_reverse, String.ofList_toList]
  next hshort =>
    rw [if_pos]
    by_contra hne
    obtain ⟨c, front, hstem⟩ := List.exists_cons_of_ne_nil (l := stem.toList.reverse) (by simpa using hne)
    exact hshort '.' c front (by rw [hstem])

theorem extensionOfName?_of_not_mem {name : String} (h : '.' ∉ name.toList) :
    extensionOfName? name = none := by
  have hall : name.toList.reverse.takeWhile (· ≠ '.') = name.toList.reverse :=
    List.takeWhile_eq_self_iff.mpr fun c hc => decide_eq_true fun hdot => h (by simpa [hdot] using hc)
  rw [extensionOfName?, hall, List.drop_length]

/-- What follows the last dot of a name, if something precedes that dot. -/
theorem extensionOfName?_eq_some {name extension : String} :
    extensionOfName? name = some extension ↔
      ∃ stem, stem ≠ "" ∧ name = stem ++ "." ++ extension ∧ '.' ∉ extension.toList := by
  constructor
  · intro h
    by_cases hdot : '.' ∈ name.toList.reverse
    · obtain ⟨back, front, hname, hback⟩ := List.eq_append_cons_of_mem hdot
      obtain rfl : name = String.ofList front.reverse ++ "." ++ String.ofList back.reverse := by
        rw [← String.toList_inj, ← List.reverse_inj, hname]
        simp
      have hlast : '.' ∉ (String.ofList back.reverse).toList := by simpa using hback
      rw [extensionOfName?_append hlast] at h
      split at h
      next => cases h
      next hstem => exact ⟨_, hstem, by rw [Option.some.inj h], Option.some.inj h ▸ hlast⟩
    · rw [extensionOfName?_of_not_mem (by simpa using hdot)] at h
      cases h
  · rintro ⟨stem, hstem, rfl, hdot⟩
    rw [extensionOfName?_append hdot, if_neg hstem]

end Path

/-- A name with the extension of Go files, in either case; the name is not the extension alone. -/
def IsGoName (name : String) : Prop :=
  ∃ stem extension, stem ≠ "" ∧ name = stem ++ "." ++ extension ∧ extension.map Char.toLower = "go"

theorem IsGoName.ne_dots {name : String} (h : IsGoName name) : name ≠ "." ∧ name ≠ ".." := by
  obtain ⟨stem, extension, -, rfl, hgo⟩ := h
  have hlength : extension.toList.length = 2 := by
    rw [← List.length_map (f := Char.toLower), ← String.toList_map, hgo]
    rfl
  refine ⟨fun hdot => ?_, fun hdots => ?_⟩
  · have hchars := congrArg (fun s : String => s.toList.length) hdot
    simp [hlength] at hchars
  · have hchars := congrArg (fun s : String => s.toList.length) hdots
    simp [hlength] at hchars

theorem Path.extension?_of_name {name : String} (hname : IsName name) (hdots : name ≠ "..") :
    extension? name = extensionOfName? name := by
  have hparts : parts name = [name].filter fun p => p != "" && p != "." := by
    rw [parts, splitFrom_of_not_mem hname.2, List.reverse_nil, List.nil_append, String.ofList_toList]
  by_cases hdot : name = "."
  · rw [hdot]
    decide
  · have hkept : parts name = [name] := by
      rw [hparts, List.filter_cons_of_pos (by simp [hname.1, hdot]), List.filter_nil]
    rw [extension?, fileName?, hkept]
    dsimp only [List.getLast?_singleton]
    split
    next heq => exact absurd (Option.some.inj heq) hdots
    next => rfl

theorem Languages.ofExtension?_standard {extension : String} {l : Language} :
    ofExtension? standard extension = some l ↔ l = .go ∧ extension.map Char.toLower = "go" := by
  have hgo : Language.go.extension.map Char.toLower = "go" := by
    rw [← String.toList_inj, String.toList_map]
    decide
  rw [ofExtension?, standard, List.find?_singleton, hgo]
  by_cases hextension : extension.map Char.toLower = "go"
  · simp [hextension, eq_comm]
  · simp [hextension, Ne.symm hextension]

/-- Only files with the extension of Go files have a language. -/
theorem Languages.ofPath?_standard {name : String} (hname : Path.IsName name) {l : Language} :
    Languages.ofPath? Languages.standard name = some l ↔ l = .go ∧ IsGoName name := by
  rw [Languages.ofPath?, Option.bind_eq_some_iff]
  constructor
  · rintro ⟨extension, hextension, hl⟩
    have hdots : name ≠ ".." := by
      rintro rfl
      have hnone : Path.extension? ".." = none := by decide
      rw [hnone] at hextension
      cases hextension
    rw [Path.extension?_of_name hname hdots] at hextension
    obtain ⟨stem, hstem, hsplit, -⟩ := Path.extensionOfName?_eq_some.mp hextension
    obtain ⟨hl, hgo⟩ := Languages.ofExtension?_standard.mp hl
    exact ⟨hl, stem, extension, hstem, hsplit, hgo⟩
  · rintro ⟨hl, hgoName⟩
    obtain ⟨stem, extension, hstem, hsplit, hgo⟩ := hgoName
    have hdot : '.' ∉ extension.toList := by
      intro hmem
      have hlower : Char.toLower '.' ∈ (extension.map Char.toLower).toList := by
        rw [String.toList_map]
        exact List.mem_map_of_mem hmem
      rw [hgo] at hlower
      exact absurd hlower (by decide)
    refine ⟨extension, ?_, Languages.ofExtension?_standard.mpr ⟨hl, hgo⟩⟩
    rw [Path.extension?_of_name hname (IsGoName.ne_dots ⟨stem, extension, hstem, hsplit, hgo⟩).2]
    exact Path.extensionOfName?_eq_some.mpr ⟨stem, hstem, hsplit, hdot⟩

/-! ### Test files and patterns -/

theorem Path.endsWith_iff {s ending : String} : endsWith s ending = true ↔ ∃ stem, s = stem ++ ending := by
  rw [endsWith, List.isPrefixOf_iff_prefix, List.reverse_prefix]
  constructor
  · rintro ⟨stem, hstem⟩
    refine ⟨String.ofList stem, String.toList_inj.mp ?_⟩
    rw [String.toList_append, String.toList_ofList, hstem]
  · rintro ⟨stem, rfl⟩
    exact ⟨stem.toList, String.toList_append.symm⟩

/-- A pattern is well formed and stands for a path. -/
def Text.Glob.Matches (pattern path : String) : Prop :=
  ∃ pieces, parse pattern = .ok pieces ∧ isMatch pieces path = true

/-- Patterns can be read if each of them can. -/
theorem parsePatterns_eq_ok {patterns : List String} {ignored : List (List Text.Glob.Piece)} :
    parsePatterns patterns = .ok ignored ↔
      List.Forall₂ (fun pattern pieces => Text.Glob.parse pattern = .ok pieces) patterns ignored := by
  induction patterns generalizing ignored with
  | nil => rw [parsePatterns, List.forall₂_nil_left_iff, Except.ok.injEq, eq_comm]
  | cons pattern patterns ih =>
    rw [parsePatterns, List.forall₂_cons_left_iff]
    cases hparse : Text.Glob.parse pattern with
    | error f => simp
    | ok pieces =>
      simp only [except_map_eq_ok, ih, Except.ok.injEq]
      constructor
      · rintro ⟨rest, hrest, rfl⟩
        exact ⟨pieces, rest, rfl, hrest, rfl⟩
      · rintro ⟨_, rest, rfl, hrest, rfl⟩
        exact ⟨rest, hrest, rfl⟩

theorem exists_parsePatterns_iff {patterns : List String} :
    (∃ ignored, parsePatterns patterns = .ok ignored) ↔
      ∀ pattern ∈ patterns, ∃ pieces, Text.Glob.parse pattern = .ok pieces := by
  simp only [parsePatterns_eq_ok]
  constructor
  · rintro ⟨ignored, hignored⟩ pattern hpattern
    obtain ⟨pieces, -, hpieces⟩ := exists_of_forall₂ hignored.flip hpattern
    exact ⟨pieces, hpieces⟩
  · intro h
    induction patterns with
    | nil => exact ⟨[], List.Forall₂.nil⟩
    | cons pattern patterns ih =>
      obtain ⟨⟨pieces, hpieces⟩, hrest⟩ := List.forall_mem_cons.mp h
      obtain ⟨ignored, hignored⟩ := ih hrest
      exact ⟨pieces :: ignored, List.Forall₂.cons hpieces hignored⟩

/-- What is left out by the pieces of patterns is left out by the patterns. -/
theorem any_isMatch_iff {patterns : List String} {ignored : List (List Text.Glob.Piece)} {path : String}
    (h : parsePatterns patterns = .ok ignored) :
    (ignored.any fun pieces => Text.Glob.isMatch pieces path) = true ↔
      ∃ pattern ∈ patterns, Text.Glob.Matches pattern path := by
  have hpairs := parsePatterns_eq_ok.mp h
  rw [List.any_eq_true]
  constructor
  · rintro ⟨pieces, hpieces, hmatch⟩
    obtain ⟨pattern, hpattern, hparse⟩ := exists_of_forall₂ hpairs hpieces
    exact ⟨pattern, hpattern, pieces, hparse, hmatch⟩
  · rintro ⟨pattern, hpattern, pieces, hparse, hmatch⟩
    obtain ⟨pieces', hpieces', hparse'⟩ := exists_of_forall₂ hpairs.flip hpattern
    obtain rfl := Except.ok.inj (hparse.symm.trans hparse')
    exact ⟨pieces, hpieces', hmatch⟩

/-! ### What the settings ask for -/

namespace ReadingSettings

/-- A folder that is entered is not hidden, is not one that the settings leave out, and is the vendor folder
only if the settings include it. -/
structure Enters (settings : ReadingSettings) (name : String) : Prop where
  shown : name.toList.head? ≠ some '.'
  wanted : name ∉ settings.ignoredFolders
  vendor : name = "vendor" → settings.includeVendor = true

/-- A file that is admitted lies in folders that are entered, is a Go file, is a test only if the settings
include tests, and no pattern stands for its path. -/
structure Admits (settings : ReadingSettings) (folders : List String) (name : String) : Prop where
  enters : ∀ d ∈ folders, settings.Enters d
  goName : IsGoName name
  test : (∃ stem, name = stem ++ "_test.go") → settings.includeTests = true
  path : ∀ pattern ∈ settings.ignoredPatterns, ¬Text.Glob.Matches pattern (Path.join (folders ++ [name]))

/-- Other settings leave out more folders and files, and include no more. -/
structure Narrows (settings narrower : ReadingSettings) : Prop where
  folders : settings.ignoredFolders ⊆ narrower.ignoredFolders
  patterns : settings.ignoredPatterns ⊆ narrower.ignoredPatterns
  tests : narrower.includeTests = true → settings.includeTests = true
  vendor : narrower.includeVendor = true → settings.includeVendor = true

variable {settings narrower : ReadingSettings} {folders : List String} {name : String}

/-- What narrower settings admit is admitted. -/
theorem Admits.of_narrows (h : narrower.Admits folders name) (hnarrows : settings.Narrows narrower) :
    settings.Admits folders name where
  enters d hd := by
    obtain ⟨hshown, hwanted, hvendor⟩ := h.enters d hd
    exact ⟨hshown, fun hd => hwanted (hnarrows.folders hd), fun hd => hnarrows.vendor (hvendor hd)⟩
  goName := h.goName
  test htest := hnarrows.tests (h.test htest)
  path pattern hpattern := h.path pattern (hnarrows.patterns hpattern)

end ReadingSettings

namespace Selection

variable {languages : List Language} {settings : ReadingSettings}
  {ignored : List (List Text.Glob.Piece)} {rootName : String} {folders : List FileName} {name : FileName}

theorem enters_iff {d : FileName} :
    (!(Selection.mk languages settings ignored).skipsFolder d) = true ↔ settings.Enters d.text := by
  simp only [skipsFolder, Bool.not_eq_true', Bool.or_eq_false_iff, Bool.and_eq_false_imp,
    decide_eq_false_iff_not, decide_eq_true_eq, Bool.not_eq_false', List.contains_eq_mem]
  constructor
  · rintro ⟨⟨hshown, hvendor⟩, hwanted⟩
    exact ⟨hshown, hwanted, hvendor⟩
  · rintro ⟨hshown, hwanted, hvendor⟩
    exact ⟨⟨hshown, hvendor⟩, hwanted⟩

/-- What is selected is what the settings admit. -/
theorem selects_standard (hparse : parsePatterns settings.ignoredPatterns = .ok ignored)
    (hname : name.IsName) :
    (Selection.mk Languages.standard settings ignored).selects rootName (folders ++ [name]) = true ↔
      settings.Admits (folders.map FileName.text) name.text := by
  rw [selects_iff, List.dropLast_concat, keeps, List.getLast?_concat, Option.map_some, Option.getD_some,
    List.map_append, List.map_singleton]
  simp only [enters_iff]
  have hfolders : (∀ d ∈ folders, settings.Enters d.text) ↔
      ∀ d ∈ folders.map FileName.text, settings.Enters d := List.forall_mem_map.symm
  cases hlanguage : Languages.ofPath? Languages.standard name.text with
  | none =>
    refine iff_of_false (fun h => absurd h.2 Bool.false_ne_true) fun h => ?_
    have hgo := (Languages.ofPath?_standard hname.text).mpr ⟨rfl, h.goName⟩
    rw [hlanguage] at hgo
    cases hgo
  | some l =>
    obtain ⟨rfl, hgo⟩ := (Languages.ofPath?_standard hname.text).mp hlanguage
    have htest : Language.go.isTestFile name.text = true ↔ ∃ stem, name.text = stem ++ "_test.go" :=
      Path.endsWith_iff
    dsimp only
    rw [Bool.and_eq_true, Bool.or_eq_true, Bool.not_eq_true', Bool.not_eq_true', ← Bool.not_eq_true,
      ← Bool.not_eq_true, htest, any_isMatch_iff hparse, hfolders]
    constructor
    · rintro ⟨henters, htests, hpaths⟩
      exact ⟨henters, hgo, fun h => htests.resolve_right (not_not_intro h),
        fun pattern hpattern hmatch => hpaths ⟨pattern, hpattern, hmatch⟩⟩
    · rintro ⟨henters, -, htests, hpaths⟩
      refine ⟨henters, (Classical.em _).imp_left htests, ?_⟩
      rintro ⟨pattern, hpattern, hmatch⟩
      exact hpaths pattern hpattern hmatch

end Selection

/-! ### Sources -/

section

variable {tree : FileTree} {path : String} {place : List FileName} {settings narrower : ReadingSettings}
  {found fewer : Discovery} (hnamed : tree.Named) (hdistinct : tree.Distinct)
  (hplace : rootPlace tree path = .ok place)

include hnamed hdistinct hplace

/-- Something is discovered unless a pattern cannot be read or the root cannot be listed. -/
theorem exists_discoverAt_iff :
    (∃ found, discoverAt Languages.standard settings tree (placeText place) = .ok found) ↔
      (∃ entries, tree.at? place = some (.folder entries)) ∧
        ∀ pattern ∈ settings.ignoredPatterns, ∃ pieces, Text.Glob.parse pattern = .ok pieces := by
  rw [← exists_parsePatterns_iff]
  constructor
  · rintro ⟨found, hfound⟩
    obtain ⟨entries, hopen⟩ := exists_entries_of_discoverAt hnamed hplace hfound
    rw [discoverAt_openRoot _ _ hnamed hdistinct hplace hopen] at hfound
    cases hparse : parsePatterns settings.ignoredPatterns with
    | error f =>
      rw [hparse] at hfound
      cases hfound
    | ok ignored => exact ⟨⟨entries, hopen⟩, ignored, rfl⟩
  · rintro ⟨⟨entries, hopen⟩, ignored, hparse⟩
    rw [discoverAt_openRoot _ _ hnamed hdistinct hplace hopen, hparse]
    exact ⟨_, rfl⟩

/-- What is discovered is what walks take. -/
theorem exists_walk
    (h : discoverAt Languages.standard settings tree (placeText place) = .ok found) :
    ∃ entries rootName ignored, tree.at? place = some (.folder entries) ∧
      parsePatterns settings.ignoredPatterns = .ok ignored ∧
      found.sources = ((Selection.mk Languages.standard settings ignored).sourceWalk rootName).walk []
        (.folder entries) ∧
      found.issues = ((Selection.mk Languages.standard settings ignored).refusalWalk.walk []
        (.folder entries)).map (refusalIssue (placeText place)) := by
  obtain ⟨entries, hopen⟩ := exists_entries_of_discoverAt hnamed hplace h
  rw [discoverAt_openRoot _ _ hnamed hdistinct hplace hopen] at h
  cases hparse : parsePatterns settings.ignoredPatterns with
  | error f =>
    rw [hparse] at h
    cases h
  | ok ignored =>
    rw [hparse] at h
    obtain rfl := Except.ok.inj h
    exact ⟨entries, _, ignored, hopen, rfl, rfl, rfl⟩

/-- Sources are the files below the root that the settings admit. -/
theorem mem_sources_iff
    (h : discoverAt Languages.standard settings tree (placeText place) = .ok found) {s : Source} :
    s ∈ found.sources ↔
      (∃ t, tree.at? (place ++ s.1) = some t ∧ t.answer? = some s.2) ∧
        ∃ folders name, s.1 = folders ++ [name] ∧
          settings.Admits (folders.map FileName.text) name.text := by
  obtain ⟨entries, rootName, ignored, hfolder, hparse, hsources, -⟩ :=
    exists_walk hnamed hdistinct hplace h
  rw [hsources, Selection.mem_sourceWalk (FileTree.Distinct.at? hdistinct hfolder), FileTree.at?_append,
    hfolder, Option.bind_some]
  refine and_congr_right fun hfile => ?_
  obtain ⟨t, ht, hanswer⟩ := hfile
  rcases List.eq_nil_or_concat' s.1 with hnil | ⟨folders, name, hlast⟩
  · rw [hnil] at ht
    rw [← Option.some.inj ht] at hanswer
    cases hanswer
  · have hname : name.IsName := (FileTree.Each.at? hnamed hfolder).of_at? ht name (by simp [hlast])
    rw [hlast, Selection.selects_standard hparse hname]
    constructor
    · intro hadmits
      exact ⟨folders, name, rfl, hadmits⟩
    · rintro ⟨_, _, hsame, hadmits⟩
      obtain ⟨rfl, rfl⟩ := List.append_singleton_inj.mp hsame
      exact hadmits

/-- No link and no dots lead out of the root on the way to a source, nor in its path if that is what it
reads as. -/
theorem follow_source
    (h : discoverAt Languages.standard settings tree (placeText place) = .ok found) {s : Source}
    (hs : s ∈ found.sources) : tree.follow (place ++ s.1) = .ok (place ++ s.1) ∧
      ((∀ p ∈ s.1, p.IsText) → tree.resolve (placeText (place ++ s.1)) = .ok (place ++ s.1)) := by
  obtain ⟨⟨t, ht, hanswer⟩, folders, name, hlast, hadmits⟩ :=
    (mem_sources_iff hnamed hdistinct hplace h).mp hs
  have hnames := FileTree.Each.of_at? hnamed ht
  have hresolve := (rootPlace_eq_ok.mp hplace).1
  have hroot := FileTree.isStep_of_resolve hnamed hresolve
  have hlink : ∀ target, t ≠ .link target := by
    rintro target rfl
    cases hanswer
  have hdown : ∀ p ∈ s.1, p ≠ "." ∧ p ≠ ".." := by
    have hshown : ∀ p ∈ s.1, p.text ≠ "." ∧ p.text ≠ ".." := by
      intro p hp
      rw [hlast] at hp
      rcases List.mem_append.mp hp with hp | hp
      · -- a folder called `.` or `..` would be hidden
        have hfront := (hadmits.enters p.text (List.mem_map_of_mem hp)).shown
        exact ⟨fun hdot => hfront (by rw [hdot]; decide), fun hdots => hfront (by rw [hdots]; decide)⟩
      · rw [List.mem_singleton.mp hp]
        exact hadmits.goName.ne_dots
    intro p hp
    refine ⟨?_, ?_⟩ <;> rintro rfl
    · exact (hshown _ hp).1 (FileName.text_ofText _)
    · exact (hshown _ hp).2 (FileName.text_ofText _)
  constructor
  · refine FileTree.walk_at? _ ht hlink fun p hp => ?_
    exact (List.mem_append.mp hp).elim (fun hp => (hroot p hp).down) (hdown p)
  · intro htexts
    refine FileTree.resolve_placeText ht hlink (fun p hp => ?_)
      (FileTree.exists_entries_of_resolve hresolve)
    exact (List.mem_append.mp hp).elim (hroot p) fun hs =>
      ⟨hnames p hp, htexts p hs, hdown p hs⟩

/-- Narrower settings leave sources out and add none. -/
theorem discoverAt_sublist
    (h : discoverAt Languages.standard settings tree (placeText place) = .ok found)
    (hfewer : discoverAt Languages.standard narrower tree (placeText place) = .ok fewer)
    (hnarrows : settings.Narrows narrower) : fewer.sources.Sublist found.sources := by
  have hsorted := pairwise_discoverAt hdistinct hfewer
  refine List.sublist_of_subperm_of_pairwise (List.subperm_of_subset hsorted.nodup fun s hs => ?_) hsorted
    (pairwise_discoverAt hdistinct h)
  obtain ⟨hfile, folders, name, hlast, hadmits⟩ :=
    (mem_sources_iff hnamed hdistinct hplace hfewer).mp hs
  exact (mem_sources_iff hnamed hdistinct hplace h).mpr
    ⟨hfile, folders, name, hlast, hadmits.of_narrows hnarrows⟩

end

/-- **Which files are sources.**  Below the canonical root that a path leads to, sources are discovered
whenever all patterns can be read and the root can be listed.  They are exactly the files, and not links, that
lie in no folder left out on the way from the root, have the extension of Go files, are tests only if the
settings include those, and have no path that a pattern stands for; what comes of reading each is what the
system answers there.  They come in the strict order of their places, as a walk finds them that leaves out
whole folders.  The names on the way to each lead to it and nowhere else, and so does its path if they are
texts, so it lies inside the root; and settings that leave out more and include no more only take sources
away. -/
theorem discoverAt_by_place {tree : FileTree} {path : String} {place : List FileName} (hnamed : tree.Named)
    (hdistinct : tree.Distinct) (hplace : rootPlace tree path = .ok place) :
    (∀ settings : ReadingSettings,
      (∃ found, discoverAt Languages.standard settings tree (placeText place) = .ok found) ↔
        (∃ entries, tree.at? place = some (.folder entries)) ∧
          ∀ pattern ∈ settings.ignoredPatterns, ∃ pieces, Text.Glob.parse pattern = .ok pieces) ∧
    ∀ (settings : ReadingSettings) (found : Discovery),
      discoverAt Languages.standard settings tree (placeText place) = .ok found →
        (∀ s, s ∈ found.sources ↔
          (∃ t, tree.at? (place ++ s.1) = some t ∧ t.answer? = some s.2) ∧
            ∃ folders name, s.1 = folders ++ [name] ∧
              settings.Admits (folders.map FileName.text) name.text) ∧
        found.sources.Pairwise (fun s s' => s.1 < s'.1) ∧
        (∃ entries rootName ignored, tree.at? place = some (.folder entries) ∧
          parsePatterns settings.ignoredPatterns = .ok ignored ∧
          found.sources =
            ((Selection.mk Languages.standard settings ignored).sourceWalk rootName).walk []
              (.folder entries) ∧
          found.issues = ((Selection.mk Languages.standard settings ignored).refusalWalk.walk []
            (.folder entries)).map (refusalIssue (placeText place))) ∧
        (∀ s ∈ found.sources, tree.follow (place ++ s.1) = .ok (place ++ s.1) ∧
          ((∀ p ∈ s.1, p.IsText) → tree.resolve (placeText (place ++ s.1)) = .ok (place ++ s.1))) ∧
        ∀ narrower, settings.Narrows narrower → ∀ fewer,
          discoverAt Languages.standard narrower tree (placeText place) = .ok fewer →
            fewer.sources.Sublist found.sources := by
  refine ⟨fun settings => exists_discoverAt_iff hnamed hdistinct hplace, fun settings found h => ?_⟩
  refine ⟨fun s => mem_sources_iff hnamed hdistinct hplace h,
    pairwise_discoverAt hdistinct h, exists_walk hnamed hdistinct hplace h,
    fun s hs => follow_source hnamed hdistinct hplace h hs, fun narrower hnarrows fewer hfewer => ?_⟩
  exact discoverAt_sublist hnamed hdistinct hplace h hfewer hnarrows

/-- A hidden folder as the root of a project, with a link to it beside it and links inside. -/
def hiddenRoot : FileTree :=
  .folder [
    (".work", .folder [
      ("main.go", .link "gen/Z.GO"),
      ("gen", .folder [("loop", .link "/home"), ("Z.GO", .file [1]), ("skip.go", .file [2])]),
      ("vendor", .folder [("v.go", .file [3])])]),
    ("home", .link ".work")]

theorem discoverAt_by_place_hidden :
    hiddenRoot.Named ∧ hiddenRoot.Distinct ∧ rootPlace hiddenRoot "home/gen/.." = .ok [".work"] ∧
      ∃ found, discoverAt Languages.standard { ignoredPatterns := ["**/skip.go"] } hiddenRoot "/.work" =
          .ok found ∧
        ((["gen", "Z.GO"], .ok [1]) : Source) ∈ found.sources ∧
        hiddenRoot.resolve "/.work/gen/Z.GO" = .ok [".work", "gen", "Z.GO"] ∧
        ∀ answer, ((["main.go"], answer) : Source) ∉ found.sources ∧
          ((["vendor", "v.go"], answer) : Source) ∉ found.sources := by
  have hnamed : hiddenRoot.Named := by
    simp only [hiddenRoot, FileTree.Named, FileTree.Each, EachEntry]
    decide +kernel
  have hdistinct : hiddenRoot.Distinct := by
    simp only [hiddenRoot, FileTree.Distinct, EntriesDistinct]
    decide +kernel
  have hplace : rootPlace hiddenRoot "home/gen/.." = .ok [".work"] := by decide +kernel
  have hroot : placeText [".work"] = "/.work" := by decide +kernel
  obtain ⟨hexists, hall⟩ := discoverAt_by_place hnamed hdistinct hplace
  rw [hroot] at hexists hall
  have hparse : parsePatterns ["**/skip.go"] = .ok [.leading :: "skip.go".toList.map .literal] := rfl
  obtain ⟨found, hfound⟩ := (hexists { ignoredPatterns := ["**/skip.go"] }).mpr
    ⟨⟨_, by simp [hiddenRoot, FileTree.at?, FileTree.child?]; rfl⟩,
      exists_parsePatterns_iff.mp ⟨_, hparse⟩⟩
  obtain ⟨hmem, -, -, hfollow, -⟩ := hall _ found hfound
  have hadmits : ({ ignoredPatterns := ["**/skip.go"] } : ReadingSettings).Admits ["gen"] "Z.GO" := by
    have hpasses : ([.leading :: "skip.go".toList.map .literal].any fun pieces =>
        Text.Glob.isMatch pieces (Path.join (["gen"] ++ ["Z.GO"]))) = false := by decide +kernel
    refine ⟨List.forall_mem_singleton.mpr ⟨by decide, by decide, by decide⟩, ⟨"Z", "GO", by decide, rfl, ?_⟩,
      fun htest => ?_, fun pattern hpattern hmatch => ?_⟩
    · rw [← String.toList_inj, String.toList_map]
      decide
    · exact absurd (Path.endsWith_iff.mpr htest) (by decide)
    · have hany := (any_isMatch_iff hparse).mpr ⟨pattern, hpattern, hmatch⟩
      rw [hpasses] at hany
      cases hany
  have hselects : ((["gen", "Z.GO"], .ok [1]) : Source) ∈ found.sources := by
    refine (hmem _).mpr ⟨⟨.file [1], ?_, rfl⟩, ["gen"], "Z.GO", rfl, ?_⟩
    · simp [hiddenRoot, FileTree.at?, FileTree.child?, List.lookup_cons]
    · simpa using hadmits
  have hpath : placeText [".work", "gen", "Z.GO"] = "/.work/gen/Z.GO" := by decide +kernel
  have hresolved : hiddenRoot.resolve (placeText [".work", "gen", "Z.GO"]) =
      .ok [".work", "gen", "Z.GO"] := (hfollow _ hselects).2 (by decide +kernel)
  rw [hpath] at hresolved
  refine ⟨hnamed, hdistinct, hplace, found, hfound, hselects, hresolved, fun answer => ?_⟩
  refine ⟨fun hlink => ?_, fun hvendor => ?_⟩
  · obtain ⟨⟨t, ht, hanswer⟩, -⟩ := (hmem _).mp hlink
    have hstands : hiddenRoot.at? [".work", "main.go"] = some (.link "gen/Z.GO") := by
      simp [hiddenRoot, FileTree.at?, FileTree.child?]
    obtain rfl := Option.some.inj (hstands.symm.trans ht)
    cases hanswer
  · obtain ⟨-, folders, name, hlast, hadmits⟩ := (hmem _).mp hvendor
    have hplaces : [FileName.ofText "vendor"] ++ [.ofText "v.go"] = folders ++ [name] := hlast
    obtain ⟨rfl, rfl⟩ := List.append_singleton_inj.mp hplaces
    have hvendored := (hadmits.enters "vendor" (by simp)).vendor rfl
    cases hvendored

end CodeGraph
