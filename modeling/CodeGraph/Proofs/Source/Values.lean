import Mathlib.Data.List.Basic
import CodeGraph.Proofs.Syntax.Specifications
import CodeGraph.Proofs.Project.Reading

/-!
# Values of a file

Which constants and variables are read off a file.

* `packageSpecs` — the specifications of constants and variables at package level, in source order.
* `declaredNames` — the identifiers in the role of a name: what a specification declares.
* `recordedNames` — what is taken for its names: everything in the role of a name.  That includes the commas
  between the names of constants, but not those between the names of variables.
* `values_by_specification` — the values of a file, compared with those that it declares.
-/

namespace CodeGraph.Source

open Syntax

/-- A specification of constants or variables at package level. -/
structure ValueSpec where
  form : ValueForm
  node : Node

/-- The specifications at package level, single or in groups. -/
def packageSpecs (root : Node) : List ValueSpec :=
  root.children.flatMap fun d =>
    if d.kind = .constDeclaration then
      (d.children.filter (·.kind = .constSpec)).map (ValueSpec.mk .constant)
    else if d.kind = .varDeclaration then
      d.children.flatMap fun c =>
        if c.kind = .varSpec then [⟨.variable, c⟩]
        else if c.kind = .varSpecList then
          (c.children.filter (·.kind = .varSpec)).map (ValueSpec.mk .variable)
        else []
    else []

namespace ValueSpec

/-- The names that a specification declares. -/
def declaredNames (text : SourceText) (s : ValueSpec) : List String :=
  ((s.node.childrenIn .name).filter (·.kind = .identifier)).map text.textOf

/-- The texts that are taken for the names of a specification. -/
def recordedNames (text : SourceText) (s : ValueSpec) : List String :=
  match s.form with
  | .constant => (s.declaredNames text).intersperse ","
  | .variable => s.declaredNames text

/-- An entry for each of the names but `_`, with the form, type and line of the specification. -/
def entries (text : SourceText) (s : ValueSpec) (names : List String) : List ValueDecl :=
  (names.filter (· ≠ "_")).map fun name =>
    ⟨name, s.form, (s.node.child? .type).map (normalText text), .ofName name, s.node.startLine⟩

end ValueSpec

/-- The constants and variables that a file declares at package level. -/
def declaredValues (text : SourceText) (root : Node) : List ValueDecl :=
  (packageSpecs root).flatMap fun s => s.entries text (s.declaredNames text)

/-! ### Separators -/

section Separators

variable {α β : Type} {separator : α} {l : List α}

theorem map_intersperse (f : α → β) (l : List α) :
    (l.intersperse separator).map f = (l.map f).intersperse (f separator) := by
  induction l with
  | nil => rfl
  | cons a l ih =>
    cases l with
    | nil => rfl
    | cons b l => rw [List.intersperse_cons_cons, List.map_cons, List.map_cons, ih]; rfl

/-- A test that tells the elements from the separator takes the separators out. -/
theorem filter_intersperse {p : α → Bool} (hseparator : p separator = false) (h : ∀ a ∈ l, p a) :
    (l.intersperse separator).filter p = l := by
  induction l with
  | nil => rfl
  | cons a l ih =>
    obtain ⟨ha, hl⟩ := List.forall_mem_cons.mp h
    cases l with
    | nil => exact List.filter_cons_of_pos ha
    | cons b l =>
      rw [List.intersperse_cons_cons, List.filter_cons_of_pos ha,
        List.filter_cons_of_neg (Bool.eq_false_iff.mp hseparator), ih hl]

theorem mem_intersperse_iff (h : separator ∉ l) :
    separator ∈ l.intersperse separator ↔ 1 < l.length := by
  cases l with
  | nil => simp
  | cons a l =>
    obtain ⟨ha, -⟩ := not_or.mp (mt List.mem_cons.mpr h)
    cases l with
    | nil => simp [ha]
    | cons b l => simp

end Separators

/-! ### Specifications of a text -/

section Specs

variable {text : SourceText} {s : ValueSpec} {names : List String} {n : Node}

theorem textsIn_name (n : Node) : textsIn text .name n = (nameLeaves text n).map (·.2) := by
  rw [textsIn, nameLeaves, List.map_map]
  rfl

theorem declaredNames_eq : s.declaredNames text =
    ((nameLeaves text s.node).filter (·.1 = .identifier)).map (·.2) := by
  rw [ValueSpec.declaredNames, nameLeaves, List.filter_map, List.map_map]
  rfl

theorem map_snd_identifiers (names : List String) : (names.map (Kind.identifier, ·)).map (·.2) = names := by
  rw [List.map_map]
  exact List.map_id names

/-- What is known of a specification at package level. -/
structure ValueSpec.Regular (text : SourceText) (s : ValueSpec) : Prop where
  texts : textsIn text .name s.node = s.recordedNames text
  names : "," ∉ s.declaredNames text

theorem comma_notMem (h : ∀ name ∈ names, OpensName name) : "," ∉ names := by
  intro hcomma
  obtain ⟨c, hc, hstarts⟩ := h "," hcomma
  obtain rfl : ',' = c := Option.some.inj hc
  exact absurd hstarts (by decide)

theorem regular_constant (h : IsConstSpec text names n) : (ValueSpec.mk .constant n).Regular text := by
  have hdeclared : (ValueSpec.mk .constant n).declaredNames text = names := by
    rw [declaredNames_eq, h.leaves, filter_intersperse rfl (by simp), map_snd_identifiers]
  refine ⟨?_, hdeclared ▸ comma_notMem h.opens⟩
  rw [textsIn_name, h.leaves, map_intersperse, map_snd_identifiers, ValueSpec.recordedNames, hdeclared]

theorem regular_variable (h : IsVarSpec text names n) : (ValueSpec.mk .variable n).Regular text := by
  have hdeclared : (ValueSpec.mk .variable n).declaredNames text = names := by
    rw [declaredNames_eq, h.leaves, List.filter_eq_self.mpr (by simp), map_snd_identifiers]
  refine ⟨?_, hdeclared ▸ comma_notMem h.opens⟩
  rw [textsIn_name, h.leaves, map_snd_identifiers, ValueSpec.recordedNames, hdeclared]

end Specs

/-! ### Values of declarations -/

section Declarations

variable {text : SourceText} {n : Node}

theorem flatMap_filter {α β : Type} (p : α → Bool) (f : α → List β) (l : List α) :
    (l.filter p).flatMap f = l.flatMap fun a => if p a then f a else [] := by
  induction l with
  | nil => rfl
  | cons a l ih =>
    rw [List.filter_cons, List.flatMap_cons, ← ih]
    split <;> rfl

theorem valuesOfChildren_eq (form : ValueForm) (cs : List Node) : valuesOfChildren text form cs =
    cs.flatMap fun c =>
      if c.kind = specKind form then specValues text form c
      else if c.kind = .varSpecList then valueDecls text form c
      else [] := by
  induction cs with
  | nil => rfl
  | cons c cs ih => rw [valuesOfChildren, List.flatMap_cons, ih]

theorem valueDecls_eq (form : ValueForm) (n : Node) : valueDecls text form n =
    n.children.flatMap fun c =>
      if c.kind = specKind form then specValues text form c
      else if c.kind = .varSpecList then valueDecls text form c
      else [] := by
  obtain ⟨l, cs⟩ := n
  exact valuesOfChildren_eq form cs

/-- Where there are no groups, every specification of the form counts. -/
theorem valueDecls_of_ungrouped (form : ValueForm) (h : ∀ c ∈ n.children, c.kind ≠ .varSpecList) :
    valueDecls text form n =
      (n.children.filter (·.kind = specKind form)).flatMap (specValues text form) := by
  rw [valueDecls_eq, flatMap_filter]
  refine List.flatMap_congr fun c hc => ?_
  rw [if_neg (h c hc)]
  simp

/-- The values of the declarations of a file are those of its specifications. -/
theorem values_eq_of_wellDeclared {root : Node} (h : ∀ d ∈ root.children, WellDeclared text d) :
    (outline text root).values =
      (packageSpecs root).flatMap fun s => s.entries text (textsIn text .name s.node) := by
  show root.children.flatMap _ = _
  rw [packageSpecs, List.flatMap_assoc]
  refine List.flatMap_congr fun d hd => ?_
  by_cases hconst : d.kind = .constDeclaration
  · have hspecs := (h d hd).constantSpecs hconst
    rw [if_pos hconst, if_pos hconst, List.flatMap_map]
    exact valueDecls_of_ungrouped .constant (hspecs.kind_ne nofun nofun
      fun c ⟨_, hc⟩ => hc.kind ▸ nofun)
  rw [if_neg hconst, if_neg hconst]
  by_cases hvar : d.kind = .varDeclaration
  · have hspecs := (h d hd).variableSpecs hvar
    rw [if_pos hvar, if_pos hvar, valueDecls_eq, List.flatMap_assoc]
    refine List.flatMap_congr fun c hc => ?_
    by_cases hspec : c.kind = .varSpec
    · rw [if_pos (show c.kind = specKind .variable from hspec), if_pos hspec]
      exact (List.append_nil _).symm
    rw [if_neg (show ¬c.kind = specKind .variable from hspec), if_neg hspec]
    by_cases hgroup : c.kind = .varSpecList
    · rw [if_pos hgroup, if_pos hgroup, List.flatMap_map]
      refine valueDecls_of_ungrouped .variable ?_
      obtain hk | hk | ⟨_, hk⟩ | hk := hspecs c hc
      · cases hk.symm.trans hgroup
      · cases hk.symm.trans hgroup
      · exact absurd hk.kind hspec
      · exact hk.2.kind_ne nofun nofun fun c ⟨_, hc⟩ => hc.kind ▸ nofun
    · rw [if_neg hgroup, if_neg hgroup]
      rfl
  · rw [if_neg hvar, if_neg hvar]
    rfl

/-- Declarations that are made up of specifications have none but regular ones. -/
theorem regular_of_wellDeclared {root : Node} (h : ∀ d ∈ root.children, WellDeclared text d)
    {s : ValueSpec} (hs : s ∈ packageSpecs root) : s.Regular text := by
  -- The one sort of children that a specification of variables is found among.
  have hvariable {P : Node → Prop} {d c : Node} (hd : ChildrenAre P d)
      (hP : ∀ c, P c → c.kind = .varSpec → ∃ names, IsVarSpec text names c) (hc : c ∈ d.children)
      (hk : c.kind = .varSpec) : (ValueSpec.mk .variable c).Regular text := by
    obtain hother | hother | hsort := hd c hc
    · cases hother.symm.trans hk
    · cases hother.symm.trans hk
    · obtain ⟨_, hspec⟩ := hP c hsort hk
      exact regular_variable hspec
  obtain ⟨d, hd, hs⟩ := List.mem_flatMap.mp hs
  split at hs
  next hconst =>
    obtain ⟨c, hc, rfl⟩ := List.mem_map.mp hs
    obtain ⟨hc, hk⟩ := List.mem_filter.mp hc
    obtain hother | hother | ⟨_, hspec⟩ := (h d hd).constantSpecs hconst c hc
    · cases hother.symm.trans (of_decide_eq_true hk)
    · cases hother.symm.trans (of_decide_eq_true hk)
    · exact regular_constant hspec
  next =>
    split at hs
    next hvar =>
      have hspecs := (h d hd).variableSpecs hvar
      obtain ⟨c, hc, hs⟩ := List.mem_flatMap.mp hs
      split at hs
      next hk =>
        obtain rfl := List.mem_singleton.mp hs
        exact hvariable hspecs
          (fun c hsort hk => hsort.resolve_right fun hgroup => nomatch hgroup.1.symm.trans hk) hc hk
      next =>
        split at hs
        next hk =>
          obtain ⟨e, he, rfl⟩ := List.mem_map.mp hs
          obtain ⟨he, hke⟩ := List.mem_filter.mp he
          obtain hother | hother | ⟨_, hspec⟩ | hgroup := hspecs c hc
          · cases hother.symm.trans hk
          · cases hother.symm.trans hk
          · cases hspec.kind.symm.trans hk
          · exact hvariable hgroup.2 (fun _ hspec _ => hspec) he (of_decide_eq_true hke)
        next => cases hs
    next => cases hs

/-- Leaving the commas out of the recorded names leaves the declared ones. -/
theorem ValueSpec.Regular.declared {s : ValueSpec} (h : s.Regular text) :
    (s.entries text (s.recordedNames text)).filter (·.name ≠ ",") =
      s.entries text (s.declaredNames text) := by
  have hnames : (s.recordedNames text).filter (· ≠ ",") = s.declaredNames text := by
    have hkeep : ∀ name ∈ s.declaredNames text, decide (name ≠ ",") = true := fun name hname =>
      decide_eq_true fun hcomma => h.names (hcomma ▸ hname)
    rw [ValueSpec.recordedNames]
    split
    next => exact filter_intersperse (by simp) hkeep
    next => exact List.filter_eq_self.mpr hkeep
  rw [ValueSpec.entries, ValueSpec.entries, List.filter_map, List.filter_filter, ← hnames, List.filter_filter]
  refine congrArg _ (List.filter_congr fun name _ => ?_)
  exact Bool.and_comm _ _

/-- A comma is recorded between constants that are declared together. -/
theorem ValueSpec.Regular.comma_mem_iff {s : ValueSpec} (h : s.Regular text) :
    (∃ v ∈ s.entries text (s.recordedNames text), v.name = ",") ↔
      s.form = .constant ∧ 1 < (s.declaredNames text).length := by
  have hmem : (∃ v ∈ s.entries text (s.recordedNames text), v.name = ",") ↔
      "," ∈ s.recordedNames text := by
    simp [ValueSpec.entries]
  rw [hmem, ValueSpec.recordedNames]
  split
  next hform => simp [hform, mem_intersperse_iff h.names]
  next hform => simp [hform, h.names]

end Declarations

end CodeGraph.Source

namespace CodeGraph

open Source Syntax

/-- **The values of a file are its declared constants and variables, with a comma between every two
constants that are declared together.**  They are the declared ones exactly if no specification declares
several constants. -/
theorem values_by_specification {path : String} {content : List UInt8} {file : SourceFile}
    (h : readContent .go path content = .ok file) :
    let text := SourceText.ofString (Text.Utf8.decode content)
    let root := Node.ofText (Text.Utf8.decode content)
    file.values = (packageSpecs root).flatMap (fun s => s.entries text (s.recordedNames text)) ∧
      file.values.filter (·.name ≠ ",") = declaredValues text root ∧
      (file.values = declaredValues text root ↔
        ∀ s ∈ packageSpecs root, s.form = .constant → (s.declaredNames text).length ≤ 1) := by
  intro text root
  have hroot : ∀ d ∈ root.children, WellDeclared text d := wellDeclared_ofText _
  have hvalues : file.values =
      (packageSpecs root).flatMap fun s => s.entries text (s.recordedNames text) := by
    obtain ⟨_, _, _, rfl⟩ := isReadFrom_readContent h
    refine (values_eq_of_wellDeclared hroot).trans ?_
    exact List.flatMap_congr fun s hs => by rw [(regular_of_wellDeclared hroot hs).texts]
  have hdeclared : file.values.filter (·.name ≠ ",") = declaredValues text root := by
    rw [hvalues, List.filter_flatMap]
    exact List.flatMap_congr fun s hs => (regular_of_wellDeclared hroot hs).declared
  refine ⟨hvalues, hdeclared, ?_⟩
  rw [← hdeclared, eq_comm, List.filter_eq_self, hvalues]
  constructor
  · intro hnone s hs hform
    by_contra hseveral
    obtain ⟨v, hv, hname⟩ :=
      (regular_of_wellDeclared hroot hs).comma_mem_iff.mpr ⟨hform, Nat.not_le.mp hseveral⟩
    exact of_decide_eq_true (hnone v (List.mem_flatMap.mpr ⟨s, hs, hv⟩)) hname
  · intro hfew v hv
    obtain ⟨s, hs, hv⟩ := List.mem_flatMap.mp hv
    refine decide_eq_true fun hname => ?_
    obtain ⟨hform, hseveral⟩ := (regular_of_wellDeclared hroot hs).comma_mem_iff.mp ⟨v, hv, hname⟩
    exact absurd (hfew s hs hform) (Nat.not_le.mpr hseveral)

/-- Two constants declared together. -/
def pairText : String := "package p\n\nconst A, B = 1, 2\n"

/-- The comma between the two constants is recorded as a third one. -/
theorem values_by_specification_pair : ∃ file,
    readContent .go "p.go" (Text.Utf8.encode pairText) = .ok file ∧
      file.values.map (·.name) = ["A", ",", "B"] ∧
      (declaredValues (.ofString pairText) (.ofText pairText)).map (·.name) = ["A", "B"] ∧
      file.values ≠ declaredValues (.ofString pairText) (.ofText pairText) := by
  have htext : Text.Utf8.decode (Text.Utf8.encode pairText) = pairText := by decide +kernel
  have hread : ((readContent .go "p.go" (Text.Utf8.encode pairText)).toOption.map
      (·.values.map (·.name))) = some ["A", ",", "B"] := by decide +kernel
  have hseveral : ¬∀ s ∈ packageSpecs (.ofText pairText), s.form = .constant →
      (s.declaredNames (.ofString pairText)).length ≤ 1 := by decide +kernel
  cases hfile : readContent .go "p.go" (Text.Utf8.encode pairText) with
  | error issue => simp [hfile, Except.toOption] at hread
  | ok file =>
    have hnames : file.values.map (·.name) = ["A", ",", "B"] := by
      simpa [hfile, Except.toOption] using hread
    obtain ⟨-, hdeclared, hiff⟩ := values_by_specification hfile
    rw [htext] at hdeclared hiff
    refine ⟨file, rfl, hnames, ?_, fun heq => hseveral (hiff.mp heq)⟩
    have hfilter : (file.values.filter (·.name ≠ ",")).map (·.name) =
        (file.values.map (·.name)).filter (· ≠ ",") := by
      rw [List.filter_map]
      rfl
    rw [← hdeclared, hfilter, hnames]
    rfl

end CodeGraph
