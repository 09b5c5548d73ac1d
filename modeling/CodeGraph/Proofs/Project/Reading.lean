import CodeGraph.Proofs.Project.Discovery
import CodeGraph.Proofs.Run.Basic

/-!
# What a reading does

* `readSources_eq_ok` — every source is read, in order, whatever is reported on the way.
* `Project.read_eq_ok` — a project that is read is assembled from the sources below its root.
* `assemble_eq_ok` — its packages are those of the files with a package clause.
* `readSource_eq_ok`, `mem_filesRead` — its files are what the languages of the sources find in them.
* `discoverAt_child` — what is discovered in a folder of its own.
-/

namespace CodeGraph

variable {languages : List Language} {settings : ReadingSettings} {tree : FileTree} {path : String}
  {signal : Signal} {p : Project}

theorem readSources_eq_ok {total finished : Nat} {sources : List Source} {s s' : RunState}
    {outcomes : List (Except FileIssue SourceFile)}
    (h : readSources languages total finished sources signal s = (.ok outcomes, s')) :
    outcomes = sources.map (readSource languages) := by
  induction sources generalizing finished s s' outcomes with
  | nil =>
    obtain ⟨rfl, -⟩ := Run.pure_eq_ok.mp h
    rfl
  | cons source rest ih =>
    obtain ⟨_, m₁, -, h⟩ := Run.bind_eq_ok.mp h
    obtain ⟨_, m₂, -, h⟩ := Run.bind_eq_ok.mp h
    obtain ⟨others, m₃, hrest, h⟩ := Run.bind_eq_ok.mp h
    obtain ⟨rfl, -⟩ := Run.pure_eq_ok.mp h
    rw [List.map_cons, ih hrest]

/-- A project that is read is assembled from the sources below its root. -/
theorem Project.read_eq_ok
    (h : (Project.read languages settings tree path).outcome signal = .ok p) :
    ∃ place found, rootPlace tree path = .ok place ∧
      discoverAt languages settings tree (placeText place) = .ok found ∧
      assemble (placeText place) (modulePathAt tree place) found.issues
        (found.sources.map (readSource languages)) = .ok p := by
  obtain ⟨s', h⟩ := Run.outcome_eq_ok.mp h
  obtain ⟨_, m₁, -, h⟩ := Run.bind_eq_ok.mp h
  obtain ⟨place, m₂, hplace, h⟩ := Run.bind_eq_ok.mp h
  obtain ⟨_, m₃, -, h⟩ := Run.bind_eq_ok.mp h
  obtain ⟨found, m₄, hfound, h⟩ := Run.bind_eq_ok.mp h
  obtain ⟨_, m₅, -, h⟩ := Run.bind_eq_ok.mp h
  obtain ⟨outcomes, m₆, houtcomes, h⟩ := Run.bind_eq_ok.mp h
  obtain ⟨_, m₇, -, h⟩ := Run.bind_eq_ok.mp h
  rw [readSources_eq_ok houtcomes] at h
  exact ⟨place, found, (Run.ofExcept_eq_ok.mp hplace).1, (Run.ofExcept_eq_ok.mp hfound).1,
    (Run.ofExcept_eq_ok.mp h).1⟩

/-- Nobody stops the reading of sources. -/
theorem readSources_never (languages : List Language) (total finished : Nat)
    (sources : List Source) (s : RunState) :
    ∃ s', readSources languages total finished sources .never s =
      (.ok (sources.map (readSource languages)), s') := by
  induction sources generalizing finished s with
  | nil => exact ⟨s, rfl⟩
  | cons source rest ih =>
    obtain ⟨m, hm⟩ : ∃ m, reportParsed total (finished + 1) .never ⟨s.looks + 1, s.events⟩ =
        (.ok (), m) := by
      unfold reportParsed
      split
      · exact ⟨_, rfl⟩
      · exact ⟨_, rfl⟩
    obtain ⟨s', hs'⟩ := ih (finished + 1) m
    refine ⟨s', Run.bind_eq_ok.mpr ⟨(), _, Run.check_eq_ok.mpr ⟨rfl, rfl⟩, ?_⟩⟩
    exact Run.bind_eq_ok.mpr ⟨(), m, hm, Run.bind_eq_ok.mpr ⟨_, s', hs', rfl⟩⟩

/-- A project that nobody stops from being read is what is assembled from its sources. -/
theorem Project.read_never {place : List FileName} {found : Discovery}
    (hworkers : settings.workers ≠ 0) (hplace : rootPlace tree path = .ok place)
    (hfound : discoverAt languages settings tree (placeText place) = .ok found)
    (hassemble : assemble (placeText place) (modulePathAt tree place) found.issues
      (found.sources.map (readSource languages)) = .ok p) :
    (Project.read languages settings tree path).outcome .never = .ok p := by
  have hrequired : requireWorkers settings = pure () := if_neg hworkers
  obtain ⟨s', hs'⟩ := readSources_never languages found.sources.length 0 found.sources
    ⟨1, [⟨.parse, ⟨0, 1⟩, toString found.sources.length ++ " files to parse"⟩]⟩
  refine Run.outcome_eq_ok.mpr ⟨⟨s'.looks + 1, s'.events⟩, Run.bind_eq_ok.mpr ⟨(), ⟨0, []⟩, ?_, ?_⟩⟩
  · rw [hrequired]
    rfl
  refine Run.bind_eq_ok.mpr ⟨place, _, Run.ofExcept_eq_ok.mpr ⟨hplace, rfl⟩, ?_⟩
  refine Run.bind_eq_ok.mpr ⟨(), _, Run.check_eq_ok.mpr ⟨rfl, rfl⟩, ?_⟩
  refine Run.bind_eq_ok.mpr ⟨found, _, Run.ofExcept_eq_ok.mpr ⟨hfound, rfl⟩, ?_⟩
  refine Run.bind_eq_ok.mpr ⟨(), _, Run.report_eq_ok.mpr rfl, ?_⟩
  refine Run.bind_eq_ok.mpr ⟨_, s', hs', ?_⟩
  refine Run.bind_eq_ok.mpr ⟨(), _, Run.check_eq_ok.mpr ⟨rfl, rfl⟩, ?_⟩
  exact Run.ofExcept_eq_ok.mpr ⟨hassemble, rfl⟩

/-- A project has the packages of the files with a package clause. -/
theorem assemble_eq_ok {root : String} {module : Option String} {found : List FileIssue}
    {outcomes : List (Except FileIssue SourceFile)} (h : assemble root module found outcomes = .ok p) :
    p.root = root ∧ p.modulePath = module ∧
      p.packages = groupPackages module ((filesRead outcomes).filter (·.package ≠ "")) := by
  unfold assemble at h
  split at h
  · cases h
  · rw [← Except.ok.inj h]
    exact ⟨rfl, rfl, rfl⟩

/-- Where a file with a package clause was read there is a project. -/
theorem exists_assemble (root : String) {module : Option String} (found : List FileIssue)
    {outcomes : List (Except FileIssue SourceFile)}
    (h : groupPackages module ((filesRead outcomes).filter (·.package ≠ "")) ≠ []) :
    ∃ p, assemble root module found outcomes = .ok p := by
  rw [assemble]
  split
  next hnone => exact absurd hnone h
  next => exact ⟨_, rfl⟩

/-- A file that was read is what its language finds in the text, with the path of its source. -/
theorem readSource_eq_ok {s : Source} {f : SourceFile} (h : readSource languages s = .ok f) :
    ∃ l content file, Languages.ofPath? languages s.path = some l ∧ s.2 = .ok content ∧
      l.read (Text.Utf8.decode content) = .ok file ∧
      f = { file with
        path := s.path
        contentHash := Hash.hexText (Hash.sha256 (Text.Utf8.encode (Text.Utf8.decode content)))
        lineCount := Text.lineCount (Text.Utf8.decode content) } := by
  rw [readSource, readFile] at h
  split at h
  · cases h
  next l hl =>
    split at h
    · cases h
    next content hcontent =>
      simp only [readContent] at h
      split at h
      · cases h
      next file hfile => exact ⟨l, content, file, hl, hcontent, hfile, (Except.ok.inj h).symm⟩

/-- A file holds what a Go text declares. -/
def SourceFile.IsReadFrom (file : SourceFile) (text : String) : Prop :=
  ∃ path contentHash lineCount, file =
    { Source.outline (.ofString text) (.ofText text) with path, contentHash, lineCount }

namespace SourceFile.IsReadFrom

variable {file : SourceFile} {text : String} (h : file.IsReadFrom text)

include h

theorem imports : file.imports = (Source.outline (.ofString text) (.ofText text)).imports := by
  obtain ⟨_, _, _, rfl⟩ := h
  rfl

theorem functions : file.functions = (Source.outline (.ofString text) (.ofText text)).functions := by
  obtain ⟨_, _, _, rfl⟩ := h
  rfl

theorem types : file.types = (Source.outline (.ofString text) (.ofText text)).types := by
  obtain ⟨_, _, _, rfl⟩ := h
  rfl

end SourceFile.IsReadFrom

theorem Language.eq_outline_of_read {l : Language} {text : String} {file : SourceFile}
    (h : l.read text = .ok file) : file = l.outline (.ofString text) (l.tree text) := by
  simp only [read] at h
  split at h
  next => cases h
  next => exact (Except.ok.inj h).symm

theorem isReadFrom_readContent {path : String} {content : List UInt8} {file : SourceFile}
    (h : readContent .go path content = .ok file) : file.IsReadFrom (Text.Utf8.decode content) := by
  rw [readContent] at h
  split at h
  next => cases h
  next read hread =>
    obtain rfl := Language.eq_outline_of_read hread
    exact ⟨_, _, _, (Except.ok.inj h).symm⟩

theorem isReadFrom_readSource {s : Source} {file : SourceFile}
    (h : readSource Languages.standard s = .ok file) :
    ∃ content, s.2 = .ok content ∧ file.IsReadFrom (Text.Utf8.decode content) := by
  obtain ⟨l, content, outline, hl, hcontent, hread, rfl⟩ := readSource_eq_ok h
  -- there is one language only
  obtain ⟨extension, -, hlanguage⟩ := Option.bind_eq_some_iff.mp hl
  obtain rfl := List.mem_singleton.mp (List.mem_of_find?_eq_some hlanguage)
  obtain rfl := Language.eq_outline_of_read hread
  exact ⟨content, hcontent, _, _, _, rfl⟩

theorem path_readSource {s : Source} {f : SourceFile} (h : readSource languages s = .ok f) :
    f.path = s.path := by
  obtain ⟨l, content, file, -, -, -, rfl⟩ := readSource_eq_ok h
  rfl

theorem mem_filesRead {sources : List Source} {f : SourceFile} :
    f ∈ filesRead (sources.map (readSource languages)) ↔
      ∃ s ∈ sources, readSource languages s = .ok f := by
  rw [filesRead, List.filterMap_map, List.mem_filterMap]
  refine exists_congr fun s => and_congr_right fun _ => ?_
  rw [Function.comp_apply]
  cases readSource languages s with
  | error i => exact iff_of_false (fun h => nomatch h) fun h => nomatch h
  | ok g =>
    constructor
    · intro h
      exact congrArg Except.ok (Option.some.inj h)
    · intro h
      exact congrArg some (Except.ok.inj h)

theorem path_of_mem_filesRead {sources : List Source} {f : SourceFile}
    (h : f ∈ filesRead (sources.map (readSource languages))) :
    ∃ s ∈ sources, f.path = s.path := by
  obtain ⟨s, hs, hread⟩ := mem_filesRead.mp h
  exact ⟨s, hs, path_readSource hread⟩

/-! ### A folder of its own -/

/-- Where a tree has one folder only, its path leads there, and the path of its parent to the root. -/
theorem resolve_child (entries : List (FileName × FileTree)) :
    (FileTree.folder [("p", .folder entries)]).resolve "/p" = .ok ["p"] ∧
      (FileTree.folder [("p", .folder entries)]).resolve (Path.parent "/p") = .ok [] := by
  have hsteps : FileTree.steps "/p" = ["p"] := by decide +kernel
  have hparent : FileTree.steps (Path.parent "/p") = ["."] := by decide +kernel
  rw [FileTree.resolve, FileTree.resolve, hsteps, hparent]
  simp [FileTree.follow, FileTree.linkLimit, FileTree.resolveFrom, FileTree.walk, FileTree.at?,
    FileName.ofText_inj]

theorem rootPlace_child (entries : List (FileName × FileTree)) :
    rootPlace (.folder [("p", .folder entries)]) "/p" = .ok ["p"] := by
  rw [rootPlace, (resolve_child entries).1]
  simp [FileTree.isFolderAt, FileTree.at?, FileTree.child?, FileTree.isFolder]

theorem placeText_child : placeText ["p"] = "/p" := by decide +kernel

variable {entries : List (FileName × FileTree)} {sources : List Source}
  {ignored : List (List Text.Glob.Piece)}

/-- What is found in the only folder of a tree. -/
theorem discoverAt_child (hpatterns : parsePatterns settings.ignoredPatterns = .ok ignored)
    (hselected : (FileTree.folder entries).files.filter (fun f =>
      (Selection.mk languages settings ignored).selects "p" f.1) = sources)
    (hsorted : sources.Pairwise fun a b => (compare a.1 b.1).isLE = true) :
    discoverAt languages settings (.folder [("p", .folder entries)]) "/p" =
      .ok ⟨sources, (sortedBy (·.1) ((FileTree.folder entries).refusals.filter fun r =>
        (Selection.mk languages settings ignored).entersAt r.1)).map (refusalIssue "/p")⟩ := by
  have hname : (Path.fileName? "/p").getD "" = "p" := by decide
  have hfolder : (FileTree.folder [("p", .folder entries)]).at? ["p"] = some (.folder entries) := by
    simp [FileTree.at?, FileTree.child?]
  simp only [discoverAt, hpatterns, (resolve_child entries).1, hfolder, FileTree.isFolder, Bool.not_true,
    Bool.and_false, Bool.false_eq_true, if_false]
  rw [discover, hpatterns, Except.map]
  dsimp only
  rw [hname, hselected, sortedBy, List.mergeSort_of_pairwise hsorted]
  rfl

/-- What is found in the only folder of a tree if every folder there can be listed. -/
theorem discoverAt_openChild (hpatterns : parsePatterns settings.ignoredPatterns = .ok ignored)
    (hselected : (FileTree.folder entries).files.filter (fun f =>
      (Selection.mk languages settings ignored).selects "p" f.1) = sources)
    (hsorted : sources.Pairwise fun a b => (compare a.1 b.1).isLE = true)
    (hopen : (FileTree.folder entries).refusals = []) :
    discoverAt languages settings (.folder [("p", .folder entries)]) "/p" = .ok ⟨sources, []⟩ := by
  rw [discoverAt_child hpatterns hselected hsorted, hopen, List.filter_nil, sortedBy, List.mergeSort_nil,
    List.map_nil]

end CodeGraph
