import CodeGraph.Proofs.Imports.Weight
import CodeGraph.Proofs.Project.Files
import CodeGraph.Proofs.Text.Lines

/-!
# Module paths and comments

* `moduleOfLine?_eq_some` — which lines declare a module path.
* `ModuleDirective` — the line of a `go.mod` text that declares the module path, with what stands before
  and after it; `exists_directive` finds it in every text with a module path.
* `Comment` — a comment that can be put behind a line; `ModuleDirective.modulePath?_commented` — it is
  read as part of the path.
* `importPath_ne_of_leaves`, `contents_groupPackages_perm` — what that does to packages.
* `Project.read_commented` — a project keeps none of its import paths when a comment is put behind the
  directive.
-/

namespace CodeGraph

/-! ### Lines that declare a module path -/

/-- A line declares what stands between the word and its end, without blanks and then without quotes
around it. -/
theorem moduleOfLine?_eq_some {line path : String} : moduleOfLine? line = some path ↔
    ∃ c rest, (Text.trim line).toList = "module".toList ++ c :: rest ∧ Text.isBlank c = true ∧
      path = Text.trimBy (· = '"') (Text.trim (String.ofList (c :: rest))) ∧ path ≠ "" := by
  rw [moduleOfLine?]
  generalize "module".toList = word
  generalize (Text.trim line).toList = cs
  constructor
  · intro h
    by_cases hword : word.isPrefixOf cs = true
    · obtain ⟨rest, rfl⟩ := List.isPrefixOf_iff_prefix.mp hword
      simp only [hword, if_true, List.drop_left] at h
      cases rest with
      | nil => cases h
      | cons c rest =>
        by_cases hblank : Text.isBlank c = true
        · simp only [hblank, if_true] at h
          split at h
          next => cases h
          next hne => exact ⟨c, rest, rfl, hblank, (Option.some.inj h).symm, Option.some.inj h ▸ hne⟩
        · simp only [hblank] at h
          cases h
    · simp only [hword] at h
      cases h
  · intro ⟨c, rest, hline, hblank, hpath, hne⟩
    subst hline
    have hword : word.isPrefixOf (word ++ c :: rest) = true :=
      List.isPrefixOf_iff_prefix.mpr (List.prefix_append _ _)
    simp only [hword, if_true, List.drop_left, hblank, ← hpath, if_neg hne]

theorem moduleOfLine?_congr {line line' : String} (h : Text.trim line = Text.trim line') :
    moduleOfLine? line = moduleOfLine? line' := by
  rw [moduleOfLine?, h, ← moduleOfLine?]

/-- A carriage return at the end of a line makes no difference. -/
theorem moduleOfLine?_lineOf (cs : List Char) :
    moduleOfLine? (String.ofList (Text.lineOf cs.reverse)) = moduleOfLine? (String.ofList cs) := by
  rcases Text.lineOf_cases cs with h | h
  · rw [h]
  · apply moduleOfLine?_congr
    conv_rhs => rw [h]
    exact (Text.trim_concat rfl _).symm

/-- The first line of a text that goes on with a line end, if it goes on. -/
theorem exists_first_line {line after : String} (hsingle : '\n' ∉ line.toList) (hline : line ≠ "")
    (hended : after = "" ∨ (∃ rest, after = "\n" ++ rest) ∨ ∃ rest, after = "\r\n" ++ rest) :
    ∃ l ls, Text.lines (line ++ after) = l :: ls ∧ moduleOfLine? l = moduleOfLine? line := by
  have hlines (rest : List Char) (h : after.toList = rest) : Text.lines (line ++ after) =
      (Text.linesFrom line.toList.reverse rest).map String.ofList := by
    rw [Text.lines, String.toList_append, h, Text.linesFrom_line hsingle, List.append_nil]
  rcases hended with rfl | ⟨rest, rfl⟩ | ⟨rest, rfl⟩
  · exact ⟨line, [], by rw [String.append_empty, Text.lines_of_single hsingle hline], rfl⟩
  · refine ⟨String.ofList (Text.lineOf line.toList.reverse),
      (Text.linesFrom [] rest.toList).map String.ofList, ?_, ?_⟩
    · rw [hlines ('\n' :: rest.toList) String.toList_append, Text.linesFrom_newline, List.map_cons]
    · rw [moduleOfLine?_lineOf, String.ofList_toList]
  · refine ⟨line, (Text.linesFrom [] rest.toList).map String.ofList, ?_, rfl⟩
    rw [hlines ('\r' :: '\n' :: rest.toList) String.toList_append, Text.linesFrom_other (by decide),
      Text.linesFrom_newline, Text.lineOf, List.reverse_reverse, List.map_cons, String.ofList_toList]

theorem modulePath?_append {before : String} (h : Text.Whole before) (after : String) :
    modulePath? (before ++ after) = (modulePath? before).or (modulePath? after) := by
  rw [modulePath?, Text.lines_append h, List.findSome?_append, ← modulePath?, ← modulePath?]

/-! ### Directives -/

/-- The line of a `go.mod` text that declares the module path, with what stands before and after it. -/
structure ModuleDirective where
  before : String
  line : String
  after : String
  path : String
  whole : Text.Whole before
  first : ∀ l ∈ Text.lines before, moduleOfLine? l = none
  declares : moduleOfLine? line = some path
  single : '\n' ∉ line.toList
  ended : after = "" ∨ (∃ rest, after = "\n" ++ rest) ∨ ∃ rest, after = "\r\n" ++ rest

/-- A comment that can be put behind a line, with blanks in front of it. -/
structure Comment where
  gap : String
  remark : String
  blank : ∀ c ∈ gap.toList, Text.isBlank c = true
  single : '\n' ∉ gap.toList ∧ '\n' ∉ remark.toList

def Comment.text (c : Comment) : String := c.gap ++ "//" ++ c.remark

theorem Comment.toList_text (c : Comment) :
    c.text.toList = c.gap.toList ++ '/' :: '/' :: c.remark.toList := by
  rw [Comment.text, String.toList_append, String.toList_append, List.append_assoc]
  rfl

namespace ModuleDirective

/-- The text that the directive belongs to. -/
def text (d : ModuleDirective) : String := d.before ++ (d.line ++ d.after)

/-- The text with a comment behind the line of the directive. -/
def commented (d : ModuleDirective) (c : Comment) : String := d.before ++ (d.line ++ c.text ++ d.after)

/-- Another line in place of the directive, that declares a path as well. -/
theorem modulePath?_line (d : ModuleDirective) {line path : String} (hsingle : '\n' ∉ line.toList)
    (hdeclares : moduleOfLine? line = some path) :
    modulePath? (d.before ++ (line ++ d.after)) = some path := by
  have hbefore : modulePath? d.before = none := List.findSome?_eq_none_iff.mpr d.first
  have hline : line ≠ "" := by
    intro hempty
    rw [hempty] at hdeclares
    cases hdeclares
  obtain ⟨l, ls, hlines, hl⟩ := exists_first_line hsingle hline d.ended
  rw [modulePath?_append d.whole, hbefore, Option.none_or, modulePath?, hlines,
    List.findSome?_cons_of_isSome (by rw [hl, hdeclares]; rfl), hl, hdeclares]

theorem modulePath?_text (d : ModuleDirective) : modulePath? d.text = some d.path :=
  d.modulePath?_line d.single d.declares

end ModuleDirective

/-- A first line that declares a module path. -/
theorem ModuleDirective.exists_leading {line after path : String}
    (hdeclares : moduleOfLine? line = some path) (hsingle : '\n' ∉ line.toList)
    (hended : after = "" ∨ (∃ rest, after = "\n" ++ rest) ∨ ∃ rest, after = "\r\n" ++ rest) :
    ∃ d : ModuleDirective, d.text = line ++ after ∧ d.path = path :=
  ⟨⟨"", line, after, path, .inl rfl, fun _ hl => absurd hl List.not_mem_nil, hdeclares, hsingle,
    hended⟩, String.empty_append, rfl⟩

/-- A carriage return in front of the line feed belongs to what follows the line. -/
theorem ModuleDirective.exists_leading_newline {cs : List Char} {path : String} (hsingle : '\n' ∉ cs)
    (hdeclares : moduleOfLine? (String.ofList (Text.lineOf cs.reverse)) = some path)
    (rest : List Char) :
    ∃ d : ModuleDirective, d.text = String.ofList (cs ++ '\n' :: rest) ∧ d.path = path := by
  rcases Text.lineOf_cases cs with hline | hline
  · have htext : String.ofList (cs ++ '\n' :: rest) =
        String.ofList cs ++ ("\n" ++ String.ofList rest) := by
      apply String.toList_inj.mp
      simp
    rw [hline] at hdeclares
    rw [htext]
    exact exists_leading hdeclares (by simpa using hsingle) (.inr (.inl ⟨_, rfl⟩))
  · have htext : String.ofList (cs ++ '\n' :: rest) =
        String.ofList (Text.lineOf cs.reverse) ++ ("\r\n" ++ String.ofList rest) := by
      apply String.toList_inj.mp
      conv_lhs => rw [hline]
      simp
    rw [hline, List.mem_append, not_or] at hsingle
    rw [htext]
    exact exists_leading hdeclares (by simpa using hsingle.1) (.inr (.inr ⟨_, rfl⟩))

/-- A line in front of a directive that declares nothing. -/
theorem ModuleDirective.exists_behind {cs : List Char} (hsingle : '\n' ∉ cs)
    (hnone : moduleOfLine? (String.ofList (Text.lineOf cs.reverse)) = none) (d : ModuleDirective) :
    ∃ d' : ModuleDirective, d'.text = String.ofList (cs ++ '\n' :: d.text.toList) ∧
      d'.path = d.path := by
  have hbefore : String.ofList cs ++ "\n" ++ d.before =
      String.ofList (cs ++ '\n' :: d.before.toList) := by
    apply String.toList_inj.mp
    simp
  refine ⟨{ d with before := String.ofList cs ++ "\n" ++ d.before, whole := ?_, first := ?_ }, ?_, rfl⟩
  · rcases d.whole with hempty | ⟨front, hfront⟩
    · exact .inr ⟨String.ofList cs, by rw [hempty, String.append_empty]⟩
    · exact .inr ⟨String.ofList cs ++ "\n" ++ front, by rw [hfront, ← String.append_assoc]⟩
  · intro l hl
    rw [hbefore, Text.lines_line hsingle, String.ofList_toList] at hl
    rcases List.mem_cons.mp hl with rfl | hl
    · exact hnone
    · exact d.first l hl
  · apply String.toList_inj.mp
    simp [text]

/-- Every text with a module path has a directive. -/
theorem exists_directive {text path : String} (h : modulePath? text = some path) :
    ∃ d : ModuleDirective, d.text = text ∧ d.path = path := by
  obtain ⟨cs, rfl⟩ : ∃ cs, text = String.ofList cs := ⟨text.toList, String.ofList_toList.symm⟩
  -- line by line: the induction is on what is left of the text behind the first line
  induction hn : cs.length using Nat.strong_induction_on generalizing cs with
  | _ n ih =>
  by_cases hend : '\n' ∈ cs
  · obtain ⟨front, rest, rfl, hsingle⟩ := List.eq_append_cons_of_mem hend
    rw [modulePath?, Text.lines_line hsingle, List.findSome?_cons] at h
    cases hfirst : moduleOfLine? (String.ofList (Text.lineOf front.reverse)) with
    | none =>
      rw [hfirst] at h
      obtain ⟨d, htext, hpath⟩ := ih rest.length (by simp [← hn]; omega) rest h rfl
      obtain ⟨d', htext', hpath'⟩ := d.exists_behind hsingle hfirst
      rw [htext, String.toList_ofList] at htext'
      exact ⟨d', htext', hpath'.trans hpath⟩
    | some found =>
      rw [hfirst] at h
      obtain rfl := Option.some.inj h
      exact ModuleDirective.exists_leading_newline hsingle hfirst rest
  · have hsingle : '\n' ∉ (String.ofList cs).toList := by simpa using hend
    have hne : String.ofList cs ≠ "" := by
      intro hempty
      rw [hempty] at h
      cases h
    rw [modulePath?, Text.lines_of_single hsingle hne, List.findSome?_singleton] at h
    rw [← String.append_empty (s := String.ofList cs)]
    exact ModuleDirective.exists_leading h hsingle (.inl rfl)

/-! ### Comments -/

/-- What is read of a comment: quotes that stood around the path, the blanks in front of the comment,
and the comment without blanks, and then without quotes, at its end. -/
def Comment.Leaves (c : Comment) (tail : String) : Prop :=
  ∃ quotes blanks : List Char, (∀ q ∈ quotes, q = '"') ∧ (∀ b ∈ blanks, Text.isBlank b = true) ∧
    tail.toList = quotes ++ (blanks ++ '/' :: '/' ::
      (c.remark.toList.rdropWhile Text.isBlank).rdropWhile (· = '"'))

/-- What is left of a text goes on with a comment that is put behind it. -/
theorem exists_stripped_comment {p : Char → Bool} (hslash : p '/' = false) {text : List Char}
    (hne : Text.stripped p text ≠ []) (gap remark : List Char) :
    ∃ cut, (∀ x ∈ cut, p x = true) ∧
      Text.stripped p (text ++ (gap ++ '/' :: '/' :: remark)) =
        Text.stripped p text ++ (cut ++ gap ++ '/' :: '/' :: remark.rdropWhile p) := by
  obtain ⟨cut, hcut, happend⟩ := Text.exists_stripped_append hslash hne (gap ++ ['/']) remark
  refine ⟨cut, hcut, ?_⟩
  simpa only [List.append_assoc, List.singleton_append] using happend

/-- A comment behind a line is read as part of the path. -/
theorem moduleOfLine?_commented {line path : String} (h : moduleOfLine? line = some path)
    (c : Comment) : ∃ tail, c.Leaves tail ∧ moduleOfLine? (line ++ c.text) = some (path ++ tail) := by
  obtain ⟨b, rest, hline, hb, hpath, hne⟩ := moduleOfLine?_eq_some.mp h
  have hslash : Text.isBlank '/' = false := by decide
  have hquote : decide ('/' = '"') = false := by decide
  have hpath : path.toList = Text.stripped (· = '"') (Text.stripped Text.isBlank (b :: rest)) := by
    rw [hpath, Text.toList_trimBy, Text.toList_trim, String.toList_ofList]
  rw [Text.toList_trim] at hline
  -- three times something is left: of the line, of what follows the word, and without quotes
  have hneline : Text.stripped Text.isBlank line.toList ≠ [] := by
    rw [hline]
    simp
  have hnepath : path.toList ≠ [] := fun hnil => hne (String.toList_eq_nil_iff.mp hnil)
  have hnerest : Text.stripped Text.isBlank (b :: rest) ≠ [] := by
    intro hnil
    rw [hnil] at hpath
    exact hnepath hpath
  rw [hpath] at hnepath
  obtain ⟨cut, hcut, htrim⟩ := exists_stripped_comment hslash hneline c.gap.toList c.remark.toList
  obtain ⟨cut', hcut', htrim'⟩ := exists_stripped_comment hslash hnerest (cut ++ c.gap.toList)
    (c.remark.toList.rdropWhile Text.isBlank)
  rw [List.rdropWhile_idempotent] at htrim'
  obtain ⟨quotes, hquotes, hbare⟩ := exists_stripped_comment hquote hnepath
    (cut' ++ (cut ++ c.gap.toList)) (c.remark.toList.rdropWhile Text.isBlank)
  refine ⟨String.ofList (quotes ++ ((cut' ++ (cut ++ c.gap.toList)) ++ '/' :: '/' ::
    (c.remark.toList.rdropWhile Text.isBlank).rdropWhile (· = '"'))), ?_, ?_⟩
  · refine ⟨quotes, cut' ++ (cut ++ c.gap.toList), fun q hq => of_decide_eq_true (hquotes q hq), ?_,
      String.toList_ofList⟩
    simp only [List.forall_mem_append]
    exact ⟨hcut', hcut, c.blank⟩
  · refine moduleOfLine?_eq_some.mpr ⟨b, rest ++ (cut ++ c.gap.toList ++ '/' :: '/' ::
      c.remark.toList.rdropWhile Text.isBlank), ?_, hb, ?_, ?_⟩
    · rw [Text.toList_trim, String.toList_append, c.toList_text, htrim, hline, List.append_assoc]
      rfl
    · apply String.toList_inj.mp
      rw [Text.toList_trimBy, Text.toList_trim, String.toList_ofList, String.toList_append,
        String.toList_ofList, hpath, ← List.cons_append, htrim', hbare,
        List.append_assoc quotes]
    · intro hempty
      exact hne (String.append_eq_empty_iff.mp hempty).1

/-- What is read of a comment does not begin like a step of a path, or like a mark behind one. -/
theorem Comment.Leaves.head {c : Comment} {tail : String} (h : c.Leaves tail) :
    ∃ x rest, tail.toList = x :: rest ∧ (x = '"' ∨ Text.isBlank x = true ∨
      x = '/' ∧ rest.head? = some '/') := by
  obtain ⟨quotes, blanks, hquotes, hblanks, htail⟩ := h
  cases quotes with
  | cons q quotes => exact ⟨q, _, htail, .inl (hquotes q List.mem_cons_self)⟩
  | nil =>
    cases blanks with
    | cons b blanks => exact ⟨b, _, htail, .inr (.inl (hblanks b List.mem_cons_self))⟩
    | nil => exact ⟨'/', _, htail, .inr (.inr ⟨rfl, rfl⟩)⟩

/-- With a comment behind its line a directive declares another path. -/
theorem ModuleDirective.modulePath?_commented (d : ModuleDirective) (c : Comment) :
    ∃ tail, c.Leaves tail ∧ modulePath? (d.commented c) = some (d.path ++ tail) := by
  obtain ⟨tail, htail, hdeclares⟩ := moduleOfLine?_commented d.declares c
  refine ⟨tail, htail, d.modulePath?_line ?_ hdeclares⟩
  have hsingle := c.single
  simp [d.single, hsingle, c.toList_text]

/-! ### Packages of another module path -/

section

variable {files files' : List SourceFile} {m tail : String} {k k' : Package}

/-- Behind the folder, the import path of a package goes on with a mark, if it goes on. -/
theorem exists_marks {module : Option String} (hk : k ∈ groupPackages module files) :
    ∃ marks, k.importPath.toList =
        (module.getD "").toList ++ (folderTail module k.folder ++ marks) ∧
      ∀ x ∈ marks.head?, x = '_' ∨ x = '#' := by
  have hmark : markTail k.name = [] ∨ ∃ rest, markTail k.name = '_' :: rest := by
    unfold markTail
    split
    · exact .inr ⟨_, rfl⟩
    · exact .inl rfl
  rcases mem_groupPackages hk with ⟨hkeeps, -⟩ | haside
  · refine ⟨markTail k.name, ?_, ?_⟩
    · rw [hkeeps, toList_plainImportPath]
    · rcases hmark with h | ⟨rest, h⟩ <;> simp [h]
  · refine ⟨markTail k.name ++ '#' :: k.name.toList, ?_, ?_⟩
    · rw [toList_setAside haside, List.append_assoc]
    · rcases hmark with h | ⟨rest, h⟩ <;> simp [h]

/-- What a comment leaves behind a module path makes every import path another one. -/
theorem importPath_ne_of_leaves {c : Comment} (htail : c.Leaves tail)
    (hk : k ∈ groupPackages (some m) files) (hfolder : k.folder.toList.head? ≠ some '/')
    (hk' : k' ∈ groupPackages (some (m ++ tail)) files') : k.importPath ≠ k'.importPath := by
  intro hpath
  obtain ⟨marks, hmarks, hmark⟩ := exists_marks hk
  obtain ⟨marks', hmarks', -⟩ := exists_marks hk'
  obtain ⟨x, rest, hx, hcases⟩ := htail.head
  have hbehind : folderTail (some m) k.folder ++ marks =
      x :: (rest ++ (folderTail (some (m ++ tail)) k'.folder ++ marks')) := by
    rw [hpath, hmarks', Option.getD_some, Option.getD_some, String.toList_append, hx,
      List.append_assoc, List.append_cancel_left_eq] at hmarks
    exact hmarks.symm
  rw [folderTail] at hbehind
  split at hbehind
  next =>
    -- the project's folder itself: a mark follows, and no comment begins with one
    rw [List.nil_append] at hbehind
    have hx := hmark x (by rw [hbehind]; rfl)
    rcases hx with rfl | rfl <;> simp [Text.isBlank] at hcases
  next hne =>
    -- a folder below: a slash follows and then its name, and a comment has two slashes
    rw [List.cons_append] at hbehind
    obtain ⟨hslash, hrest⟩ := List.cons.inj hbehind
    subst hslash
    have hname : k.folder.toList ≠ [] := fun hnil => hne (String.toList_eq_nil_iff.mp hnil)
    have hsecond : rest.head? = some '/' := by simpa [Text.isBlank] using hcases
    have hheads := congrArg List.head? hrest
    rw [List.head?_append_of_ne_nil _ hname, List.head?_append, hsecond] at hheads
    exact hfolder hheads

/-- What a package holds, whatever its import path is. -/
def Package.contents (k : Package) : String × String × List SourceFile := (k.folder, k.name, k.files)

/-- Files make the same packages whatever the module path is, but for their import paths. -/
theorem contents_groupPackages_perm (module module' : Option String) (files : List SourceFile) :
    ((groupPackages module files).map Package.contents).Perm
      ((groupPackages module' files).map Package.contents) := by
  have hsettled (ks : List Package) : Package.contents ∘ settle ks = Package.contents := by
    funext k
    have hkey := Prod.mk.inj (key_settle ks k)
    show ((settle ks k).folder, (settle ks k).name, (settle ks k).files) = _
    rw [hkey.1, hkey.2, files_settle]
    rfl
  have hcontents (module : Option String) : ((groupPackages module files).map Package.contents).Perm
      ((packagesByKey none files).map Package.contents) := by
    refine ((perm_groupPackages module files).map _).trans (List.Perm.of_eq ?_)
    rw [List.map_map, hsettled, packagesByKey, packagesByKey, List.map_map, List.map_map]
    rfl
  exact (hcontents module).trans (hcontents module').symm

end

/-! ### Projects of another module path -/

theorem Path.head_join {ps : List String} (h : ∀ p ∈ ps, IsName p) :
    (join ps).toList.head? ≠ some '/' := by
  induction ps using List.reverseRecOn with
  | nil => decide
  | append_singleton ps p ih =>
    cases ps with
    | nil =>
      intro hhead
      rw [List.nil_append, join, String.intercalate_singleton] at hhead
      exact (h p (by simp)).2 (List.mem_of_head? hhead)
    | cons q qs =>
      have hnames : ∀ r ∈ q :: qs, IsName r := fun r hr => h r (List.mem_append_left _ hr)
      have hfront : (join (q :: qs)).toList ≠ [] := fun hnil =>
        join_ne_empty (List.cons_ne_nil q qs) hnames (String.toList_eq_nil_iff.mp hnil)
      rw [toList_join_concat (List.cons_ne_nil q qs), List.head?_append_of_ne_nil _ hfront]
      exact ih hnames

section

variable {languages : List Language} {settings : ReadingSettings} {tree tree' : FileTree}
  {path : String} {place : List FileName} {sources : List Source} {signal : Signal} {p : Project}

/-- The folder of a package is written from the root of the project on. -/
theorem head_folder_groupPackages {module : Option String} {k : Package} {found : Discovery}
    (hfound : discoverAt languages settings tree path = .ok found) (htree : tree.Named)
    (hk : k ∈ groupPackages module
      ((filesRead (found.sources.map (readSource languages))).filter (·.package ≠ ""))) :
    k.folder.toList.head? ≠ some '/' := by
  obtain ⟨f, hf, hfolder⟩ := folder_of_mem_groupPackages hk
  obtain ⟨s, hs, hpath⟩ := path_of_mem_filesRead (List.mem_filter.mp hf).1
  have hnames := discoverAt_each hfound htree hs
  rw [hfolder, hpath, Source.path]
  rcases List.eq_nil_or_concat' s.1 with hnil | ⟨ps, name, hplace⟩
  · rw [hnil]
    decide
  · rw [hplace] at hnames ⊢
    rw [List.map_append, List.map_singleton, Path.parent_join _ (hnames name (by simp)).text.2]
    exact Path.head_join (FileName.forall_text fun q hq => hnames q (List.mem_append_left _ hq))

/-- A path leads to a folder with certain sources and a `go.mod` of a certain text. -/
structure FileTree.HoldsModule (languages : List Language) (settings : ReadingSettings)
    (tree : FileTree) (path : String) (place : List FileName) (sources : List Source) (text : String) :
    Prop where
  root : rootPlace tree path = .ok place
  found : ∃ issues, discoverAt languages settings tree (placeText place) = .ok ⟨sources, issues⟩
  module : ∃ content, tree.read (placeText (place ++ [.ofText "go.mod"])) = .ok content ∧
    Text.Utf8.decode? content = some text

theorem FileTree.HoldsModule.modulePathAt_eq {text : String}
    (h : tree.HoldsModule languages settings path place sources text) :
    modulePathAt tree place = modulePath? text := by
  obtain ⟨content, hread, htext⟩ := h.module
  rw [modulePathAt, hread]
  show (Text.Utf8.decode? content).bind modulePath? = _
  rw [htext, Option.bind_some]

/-- A project is assembled from the sources of the folder and the path that its `go.mod` declares. -/
theorem FileTree.HoldsModule.packages {text : String}
    (h : tree.HoldsModule languages settings path place sources text)
    (hread : (Project.read languages settings tree path).outcome signal = .ok p) :
    p.packages = groupPackages (modulePath? text)
      ((filesRead (sources.map (readSource languages))).filter (·.package ≠ "")) := by
  obtain ⟨place', found, hplace, hfound, hassemble⟩ := Project.read_eq_ok hread
  obtain rfl := Except.ok.inj (h.root.symm.trans hplace)
  obtain ⟨issues, hissues⟩ := h.found
  obtain rfl := Except.ok.inj (hissues.symm.trans hfound)
  rw [(assemble_eq_ok hassemble).2.2, h.modulePathAt_eq]

/-- From the same sources a project is read as well, with the path that the other `go.mod` declares. -/
theorem FileTree.HoldsModule.exists_read {text text' : String}
    (h : tree.HoldsModule languages settings path place sources text)
    (h' : tree'.HoldsModule languages settings path place sources text')
    (hread : (Project.read languages settings tree path).outcome signal = .ok p) :
    ∃ p', (Project.read languages settings tree' path).outcome .never = .ok p' := by
  have hworkers : settings.workers ≠ 0 := by
    intro hnone
    obtain ⟨_, hread⟩ := Run.outcome_eq_ok.mp hread
    obtain ⟨_, _, hrequired, -⟩ := Run.bind_eq_ok.mp hread
    rw [requireWorkers, if_pos hnone] at hrequired
    cases hrequired
  have hfiles : (filesRead (sources.map (readSource languages))).filter (·.package ≠ "") ≠ [] := by
    obtain ⟨place', found, hplace, hfound, hassemble⟩ := Project.read_eq_ok hread
    obtain ⟨issues, hissues⟩ := h.found
    obtain rfl := Except.ok.inj (hissues.symm.trans
      ((Except.ok.inj (h.root.symm.trans hplace)) ▸ hfound))
    intro hnone
    rw [assemble, hnone, groupPackages_nil] at hassemble
    cases hassemble
  obtain ⟨issues, hissues⟩ := h'.found
  obtain ⟨p', hassemble⟩ := exists_assemble (placeText place) issues
    (groupPackages_ne_nil (modulePathAt tree' place) hfiles)
  exact ⟨p', Project.read_never hworkers h'.root hissues hassemble⟩

/-- **A comment is read as part of the module path.**  A comment behind the line of a directive makes the
declared path another one: behind the path stand quotes and blanks that are left, and the comment.  A
project that is read with the comment has the packages that it has without it, but no import path stays
the same, and what was imported from a package of the project counts as imported from outside. -/
theorem Project.read_commented (d : ModuleDirective) (c : Comment) :
    ∃ tail, c.Leaves tail ∧ modulePath? d.text = some d.path ∧
      modulePath? (d.commented c) = some (d.path ++ tail) ∧ d.path ≠ d.path ++ tail ∧
      ∀ {languages : List Language} {settings : ReadingSettings} {tree tree' : FileTree} {path : String}
        {place : List FileName} {sources : List Source} {signal : Signal} {p : Project}, tree.Named →
        tree.HoldsModule languages settings path place sources d.text →
        tree'.HoldsModule languages settings path place sources (d.commented c) →
        (Project.read languages settings tree path).outcome signal = .ok p →
        ∃ p', (Project.read languages settings tree' path).outcome .never = .ok p' ∧
          (p'.packages.map Package.contents).Perm (p.packages.map Package.contents) ∧
          (∀ k ∈ p.packages, ∀ k' ∈ p'.packages, k.importPath ≠ k'.importPath) ∧
          ∀ k ∈ p.packages, ∀ f ∈ k.files, ∀ i, f.Imports i → i ∈ p.packages.map (·.importPath) →
            i ∉ (Dependencies.ofPackages p.packages).externals ∧
              i ∈ (Dependencies.ofPackages p'.packages).externals := by
  obtain ⟨tail, htail, hcommented⟩ := d.modulePath?_commented c
  have hne : d.path ≠ d.path ++ tail := by
    intro hsame
    obtain ⟨x, rest, hx, -⟩ := htail.head
    have hlength := congrArg (·.toList.length) hsame
    simp [hx] at hlength
  refine ⟨tail, htail, d.modulePath?_text, hcommented, hne, ?_⟩
  intro languages settings tree tree' path place sources signal p hnamed h h' hread
  obtain ⟨p', hread'⟩ := h.exists_read h' hread
  have hpackages := h.packages hread
  have hpackages' := h'.packages hread'
  rw [d.modulePath?_text] at hpackages
  rw [hcommented] at hpackages'
  obtain ⟨issues, hissues⟩ := h.found
  have hpaths : ∀ k ∈ p.packages, ∀ k' ∈ p'.packages, k.importPath ≠ k'.importPath := by
    rw [hpackages, hpackages']
    intro k hk k' hk'
    exact importPath_ne_of_leaves htail hk (head_folder_groupPackages hissues hnamed hk) hk'
  refine ⟨p', hread', ?_, hpaths, ?_⟩
  · rw [hpackages, hpackages']
    exact contents_groupPackages_perm _ _ _
  · intro k hk f hf i himports hown
    obtain ⟨target, htarget, rfl⟩ := List.mem_map.mp hown
    constructor
    · intro hexternal
      exact (Dependencies.mem_externals_iff.mp hexternal).2 target htarget rfl
    · have hfile : f ∈ p'.packages.flatMap (·.files) := by
        rw [hpackages', (files_groupPackages_perm _ _).mem_iff,
          ← (files_groupPackages_perm (some d.path) _).mem_iff, ← hpackages]
        exact List.mem_flatMap.mpr ⟨k, hk, hf⟩
      obtain ⟨k', hk', hf'⟩ := List.mem_flatMap.mp hfile
      refine Dependencies.mem_externals_iff.mpr ⟨⟨k', hk', f, hf', himports⟩, ?_⟩
      intro other hother
      exact (hpaths target htarget other hother).symm

end

/-! ### A module with a comment -/

/-- A module of two packages, one of which imports the other. -/
def twoPackages (goMod : String) : FileTree :=
  let text (s : String) : FileTree := .file (Text.Utf8.encode s)
  .folder [("p", .folder [("go.mod", text goMod),
    ("a", .folder [("a.go", text "package a\n")]),
    ("b", .folder [("b.go", text "package b\n\nimport \"m/a\"\n")])])]

/-- Its sources. -/
def twoSources : List Source :=
  [(["a", "a.go"], .ok (Text.Utf8.encode "package a\n")),
    (["b", "b.go"], .ok (Text.Utf8.encode "package b\n\nimport \"m/a\"\n"))]

theorem holdsModule_two {goMod : String}
    (hfound : discoverAt Languages.standard {} (twoPackages goMod) "/p" = .ok ⟨twoSources, []⟩)
    (hmodule : Text.Utf8.decode? (Text.Utf8.encode goMod) = some goMod) :
    (twoPackages goMod).HoldsModule Languages.standard {} "/p" ["p"] twoSources goMod := by
  refine ⟨rootPlace_child _, ⟨[], ?_⟩, Text.Utf8.encode goMod, ?_, hmodule⟩
  · rw [placeText_child]
    exact hfound
  have hsteps : FileTree.steps (placeText ["p", "go.mod"]) = ["p", "go.mod"] := by decide +kernel
  have hplace : (twoPackages goMod).resolve (placeText ["p", "go.mod"]) = .ok ["p", "go.mod"] := by
    rw [FileTree.resolve, hsteps]
    simp [twoPackages, FileTree.follow, FileTree.linkLimit, FileTree.resolveFrom, FileTree.walk,
      FileTree.at?, FileTree.child?]
  rw [List.singleton_append, FileTree.read, hplace]
  simp [twoPackages, FileTree.at?, FileTree.child?]

/-- The files that are read from them. -/
def twoFiles : List SourceFile :=
  (filesRead (twoSources.map (readSource Languages.standard))).filter (·.package ≠ "")

/-- The import path of a package and the paths that its files import. -/
def Package.pathAndImports (k : Package) : String × List (List String) :=
  (k.importPath, k.files.map fun f => f.imports.map (·.path))

theorem imports_two : (groupPackages (some "m") twoFiles).map Package.pathAndImports =
    [("m/a", [[]]), ("m/b", [["m/a"]])] := by
  have hkeys : (twoFiles.map packageKey).eraseDups = [("a", "a"), ("b", "b")] := by
    decide +kernel
  have hsorted : [("a", "a"), ("b", "b")].Pairwise fun a b => keyLessOrEqual a b = true := by
    decide +kernel
  have hsettled : (settleRivals (packagesByKey (some "m") twoFiles)).map Package.pathAndImports =
      [("m/a", [[]]), ("m/b", [["m/a"]])] := by
    rw [packagesByKey, hkeys, List.mergeSort_of_pairwise hsorted]
    decide +kernel
  exact map_groupPackages Prod.fst (fun _ => rfl) hsettled (by decide +kernel)

/-- The directive of the module. -/
def twoDirective : ModuleDirective where
  before := ""
  line := "module m"
  after := "\n"
  path := "m"
  whole := .inl rfl
  first := fun _ hl => absurd hl List.not_mem_nil
  declares := by decide
  single := by decide
  ended := .inr (.inl ⟨"", by decide⟩)

/-- A comment for it. -/
def twoComment : Comment where
  gap := " "
  remark := " the module"
  blank := by
    intro c hc
    obtain rfl : c = ' ' := by simpa using hc
    decide
  single := by decide

/-- With the comment an import from within the module is one from outside. -/
theorem Project.read_commented_two :
    (twoPackages "module m\n").Named ∧
      (twoPackages "module m\n").HoldsModule Languages.standard {} "/p" ["p"] twoSources
        twoDirective.text ∧
      (twoPackages "module m // the module\n").HoldsModule Languages.standard {} "/p" ["p"] twoSources
        (twoDirective.commented twoComment) ∧
      ∃ p p', (Project.read Languages.standard {} (twoPackages "module m\n") "/p").outcome .never =
          .ok p ∧
        (Project.read Languages.standard {} (twoPackages "module m // the module\n") "/p").outcome
          .never = .ok p' ∧
        "m/a" ∉ (Dependencies.ofPackages p.packages).externals ∧
        "m/a" ∈ (Dependencies.ofPackages p'.packages).externals := by
  have htext : twoDirective.text = "module m\n" := by decide
  have hcommented : twoDirective.commented twoComment = "module m // the module\n" := by decide
  have hfound : discoverAt Languages.standard {} (twoPackages "module m\n") "/p" =
      .ok ⟨twoSources, []⟩ :=
    discoverAt_openChild rfl (by decide +kernel) (by decide +kernel) (by decide +kernel)
  have hfound' : discoverAt Languages.standard {} (twoPackages "module m // the module\n") "/p" =
      .ok ⟨twoSources, []⟩ :=
    discoverAt_openChild rfl (by decide +kernel) (by decide +kernel) (by decide +kernel)
  have h := holdsModule_two hfound (by decide +kernel)
  have h' := holdsModule_two hfound' (by decide +kernel)
  have hnamed : (twoPackages "module m\n").Named := by
    simp only [twoPackages, FileTree.Named, FileTree.Each, EachEntry]
    decide +kernel
  rw [htext, hcommented]
  refine ⟨hnamed, h, h', ?_⟩
  have hfiles : twoFiles ≠ [] := by decide +kernel
  obtain ⟨p, hread, -⟩ := Project.exists_read_child Languages.standard {} (twoPackages "module m\n")
    twoSources rfl (by decide) rfl (by decide +kernel) (by decide +kernel) hfiles
  have hmodule : modulePath? "module m\n" = some "m" := htext ▸ twoDirective.modulePath?_text
  have himports : p.packages.map Package.pathAndImports = [("m/a", [[]]), ("m/b", [["m/a"]])] := by
    rw [h.packages hread, hmodule]
    exact imports_two
  have htarget : "m/a" ∈ p.packages.map (·.importPath) := by
    have hpaths : p.packages.map (·.importPath) = (p.packages.map Package.pathAndImports).map Prod.fst := by
      rw [List.map_map]
      rfl
    rw [hpaths, himports]
    decide
  obtain ⟨k, hk, hsource⟩ : ∃ k ∈ p.packages, k.pathAndImports = ("m/b", [["m/a"]]) := by
    apply List.mem_map.mp
    rw [himports]
    decide
  obtain ⟨f, hf, himported⟩ : ∃ f ∈ k.files, f.imports.map (·.path) = ["m/a"] := by
    apply List.mem_map.mp
    rw [(Prod.mk.inj hsource).2]
    exact List.mem_singleton_self _
  have hf' : f.Imports "m/a" := by
    apply List.mem_map.mp
    rw [himported]
    exact List.mem_singleton_self _
  obtain ⟨tail, -, -, -, -, hcommon⟩ := Project.read_commented twoDirective twoComment
  rw [htext, hcommented] at hcommon
  obtain ⟨p', hread', -, -, hexternals⟩ := hcommon hnamed h h' hread
  exact ⟨p, p', hread, hread', hexternals k hk f hf "m/a" hf' htarget⟩

end CodeGraph
