import CodeGraph.Proofs.Names.Spelling
import Mathlib.Data.List.Induction

/-!
# Texts without names of packages

* `StandsAlone` — a name in a text that is part of no longer one there.
* `HasQualifier` — a text has such a name with a dot and the start of another name behind it;
  `hasQualifier_iff` says that these are the texts into which a name of a package has been put.
* `stripFrom_eq_self_iff` — the texts that stay as they are.
* `stripFrom_eq_iff_canonical` — what is left of a text is the one text without such names that differs
  from it in them alone.
* `signaturesMatch_by_canonical_form` — the main result.
-/

namespace CodeGraph

/-! ### Names that stand in a text -/

/-- The name that stands between two texts is part of no longer one. -/
structure StandsAlone (before name after : List Char) : Prop where
  isName : IsName name
  maximal : ∀ front back more rest, before = front ++ back → after = more ++ rest →
    IsName (back ++ (name ++ more)) → back = [] ∧ more = []

/-- A text has the name of a package in it: a name, a dot and the start of another name. -/
def HasQualifier (text : List Char) : Prop :=
  ∃ before package after, text = before ++ (package ++ '.' :: after) ∧
    StandsAlone before package ('.' :: after) ∧ StartsName after

theorem continuesName_of_isName {q : List Char} (h : IsName q) : ∀ c ∈ q, continuesName c := by
  obtain ⟨c, cs, rfl, hc, hcs⟩ := h
  exact List.forall_mem_cons.mpr ⟨continuesName_of_startsName hc, hcs⟩

theorem IsName.append {q more : List Char} (h : IsName q) (hmore : ∀ c ∈ more, continuesName c) :
    IsName (q ++ more) := by
  obtain ⟨c, cs, rfl, hc, hcs⟩ := h
  exact ⟨c, cs ++ more, rfl, hc, List.forall_mem_append.mpr ⟨hcs, hmore⟩⟩

/-- The front of a name is a name, unless it is empty. -/
theorem isName_of_append {q more : List Char} (hq : q ≠ []) (h : IsName (q ++ more)) : IsName q := by
  obtain ⟨c, cs, rfl⟩ := List.exists_cons_of_ne_nil hq
  obtain ⟨d, ds, heq, hd, hds⟩ := h
  obtain ⟨rfl, rfl⟩ := List.cons.inj heq
  exact ⟨c, cs, rfl, hd, (List.forall_mem_append.mp hds).1⟩

/-- Wherever a name stands, it goes on at its end. -/
theorem foldl_inName_of_isName {q : List Char} (h : IsName q) (inside : Bool) :
    q.foldl inName inside = true := by
  have hgoes {cs : List Char} (hcs : ∀ c ∈ cs, continuesName c) : cs.foldl inName true = true := by
    induction cs with
    | nil => rfl
    | cons c cs ih =>
      obtain ⟨hc, hcs⟩ := List.forall_mem_cons.mp hcs
      rw [List.foldl_cons, inName, if_pos rfl, hc]
      exact ih hcs
  obtain ⟨c, cs, rfl, hc, hcs⟩ := h
  have hfirst : inName inside c = true := by
    cases inside with
    | true => exact continuesName_of_startsName hc
    | false => exact hc
  rw [List.foldl_cons, hfirst]
  exact hgoes hcs

/-- A name goes on at the end of a text if the text ends in a name. -/
theorem endsInName_iff {text : List Char} :
    endsInName text = true ↔ ∃ front back, text = front ++ back ∧ IsName back := by
  constructor
  · intro h
    induction text using List.reverseRecOn with
    | nil => cases h
    | append_singleton text c ih =>
      rw [endsInName_append, List.foldl_cons, List.foldl_nil] at h
      cases hinside : endsInName text with
      | true =>
        obtain ⟨front, back, rfl, hback⟩ := ih hinside
        rw [hinside] at h
        exact ⟨front, back ++ [c], List.append_assoc _ _ _, hback.concat h⟩
      | false =>
        rw [hinside] at h
        exact ⟨text, [c], rfl, c, [], rfl, h, List.forall_mem_nil _⟩
  · rintro ⟨front, back, rfl, hback⟩
    rw [endsInName_append]
    exact foldl_inName_of_isName hback _

/-- In front of a dot a name is part of no longer one if no name goes on where it starts. -/
theorem standsAlone_dot_iff {before name after : List Char} :
    StandsAlone before name ('.' :: after) ↔ IsName name ∧ endsInName before = false := by
  constructor
  · intro h
    refine ⟨h.isName, Bool.eq_false_of_not_eq_true fun hinside => ?_⟩
    obtain ⟨front, back, hbefore, hback⟩ := endsInName_iff.mp hinside
    have hlonger : IsName (back ++ (name ++ [])) := by
      rw [List.append_nil]
      exact hback.append (continuesName_of_isName h.isName)
    obtain ⟨c, cs, rfl, -⟩ := hback
    exact List.cons_ne_nil _ _ (h.maximal front _ [] _ hbefore rfl hlonger).1
  · rintro ⟨hname, hbefore⟩
    refine ⟨hname, fun front back more rest hfront hrest hlonger => ⟨?_, ?_⟩⟩
    · -- what the name could be longer by in front would be a name that goes on
      by_contra hback
      refine Bool.false_ne_true (hbefore.symm.trans (endsInName_iff.mpr ⟨front, back, hfront, ?_⟩))
      exact isName_of_append hback hlonger
    · -- behind the name the dot comes first
      cases more with
      | nil => rfl
      | cons d ds =>
        obtain ⟨rfl, -⟩ := List.cons.inj hrest
        have hdot : continuesName '.' := continuesName_of_isName hlonger _ (by simp)
        rw [not_continuesName_dot] at hdot
        exact absurd hdot Bool.false_ne_true

/-- The texts with the name of a package in them are those that arise by putting one in. -/
theorem hasQualifier_iff {text : List Char} : HasQualifier text ↔ ∃ plain, Qualifies plain text := by
  constructor
  · rintro ⟨before, package, after, rfl, halone, hafter⟩
    obtain ⟨hpackage, hbefore⟩ := standsAlone_dot_iff.mp halone
    exact ⟨_, before, package, after, hbefore, hpackage, hafter, rfl, rfl⟩
  · rintro ⟨_, before, package, after, hbefore, hpackage, hafter, rfl, rfl⟩
    exact ⟨before, package, after, rfl, standsAlone_dot_iff.mpr ⟨hpackage, hbefore⟩, hafter⟩

/-! ### The canonical form of a text -/

theorem Qualifies.length_lt {plain qualified : List Char} (h : Qualifies plain qualified) :
    plain.length < qualified.length := by
  obtain ⟨before, package, after, -, -, -, rfl, rfl⟩ := h
  simp only [List.length_append, List.length_cons]
  omega

theorem length_stripFrom_le (text : List Char) : (stripFrom [] text).length ≤ text.length := by
  have hlonger {plain text : List Char} (h : Relation.ReflTransGen Qualifies plain text) :
      plain.length ≤ text.length := by
    induction h with
    | refl => exact Nat.le_refl _
    | tail _ hlast ih => exact ih.trans hlast.length_lt.le
  exact hlonger (qualifies_stripFrom text)

theorem stripFrom_stripFrom (text : List Char) :
    stripFrom [] (stripFrom [] text) = stripFrom [] text :=
  stripFrom_eq_iff.mpr (Relation.EqvGen.reflTransGen_le_eqvGen _ _ _ (qualifies_stripFrom text))

/-- Nothing is left to be taken out: otherwise it would be taken out the second time. -/
theorem not_hasQualifier_stripFrom (text : List Char) : ¬HasQualifier (stripFrom [] text) := by
  intro h
  obtain ⟨plain, hplain⟩ := hasQualifier_iff.mp h
  have hsame : stripFrom [] plain = stripFrom [] text :=
    (stripFrom_of_qualifies hplain).trans (stripFrom_stripFrom text)
  have hle : (stripFrom [] text).length ≤ plain.length := hsame ▸ length_stripFrom_le plain
  exact absurd hplain.length_lt (Nat.not_lt.mpr hle)

/-- The texts that stay as they are. -/
theorem stripFrom_eq_self_iff {text : List Char} : stripFrom [] text = text ↔ ¬HasQualifier text := by
  constructor
  · intro h
    exact h ▸ not_hasQualifier_stripFrom text
  · intro h
    rcases (qualifies_stripFrom text).cases_tail with heq | ⟨plain, -, hlast⟩
    · exact heq.symm
    · exact absurd (hasQualifier_iff.mpr ⟨plain, hlast⟩) h

/-- What is left of a text is the one text without names of packages that differs from it in these
alone. -/
theorem stripFrom_eq_iff_canonical {text left : List Char} :
    stripFrom [] text = left ↔ Relation.EqvGen Qualifies left text ∧ ¬HasQualifier left := by
  rw [← stripFrom_eq_iff, ← stripFrom_eq_self_iff]
  constructor
  · rintro rfl
    exact ⟨stripFrom_stripFrom text, stripFrom_stripFrom text⟩
  · rintro ⟨hsame, hleft⟩
    exact hsame.symm.trans hleft

/-! ### Signatures -/

/-- A signature with the names of packages taken out of its types. -/
def MethodSignature.canonical (m : MethodSignature) : MethodSignature :=
  { m with params := m.params.map stripQualifiers, results := m.results.map stripQualifiers }

theorem stripQualifiers_stripQualifiers (s : String) :
    stripQualifiers (stripQualifiers s) = stripQualifiers s := by
  rw [stripQualifiers, stripQualifiers, String.toList_ofList, stripFrom_stripFrom]

theorem MethodSignature.canonical_canonical (m : MethodSignature) :
    m.canonical.canonical = m.canonical := by
  have htypes (types : List String) :
      (types.map stripQualifiers).map stripQualifiers = types.map stripQualifiers := by
    rw [List.map_map]
    exact List.map_congr_left fun s _ => stripQualifiers_stripQualifiers s
  simp only [canonical, htypes]

theorem signaturesMatch_iff_canonical {a b : MethodSignature} :
    signaturesMatch a b ↔ a.canonical = b.canonical := by
  simp only [signaturesMatch, typesMatch, Bool.and_eq_true, decide_eq_true_eq,
    MethodSignature.canonical, MethodSignature.mk.injEq, and_assoc]

/-- **Signatures are compared in a canonical form.**  What is left of a type text once the names of
packages are taken out of it is the one text without such names that differs from it in them alone: taking
them out again changes nothing, and just the texts that have none stay as they are.  Two signatures match
if they are the same in this form, so it makes no difference whether one of them is brought into it
beforehand. -/
theorem signaturesMatch_by_canonical_form (s : String) (a b : MethodSignature) :
    (∀ left, stripQualifiers s = left ↔ SpelledAlike left s ∧ ¬HasQualifier left.toList) ∧
    stripQualifiers (stripQualifiers s) = stripQualifiers s ∧
    ¬HasQualifier (stripQualifiers s).toList ∧
    (stripQualifiers s = s ↔ ¬HasQualifier s.toList) ∧
    (signaturesMatch a b ↔ a.canonical = b.canonical) ∧
    signaturesMatch a.canonical b = signaturesMatch a b ∧
    signaturesMatch a b.canonical = signaturesMatch a b := by
  have hleft (left : String) : stripQualifiers s = left ↔ stripFrom [] s.toList = left.toList := by
    rw [← String.toList_inj, stripQualifiers, String.toList_ofList]
  refine ⟨fun left => (hleft left).trans stripFrom_eq_iff_canonical,
    stripQualifiers_stripQualifiers s, ?_, (hleft s).trans stripFrom_eq_self_iff,
    signaturesMatch_iff_canonical, ?_, ?_⟩
  · rw [stripQualifiers, String.toList_ofList]
    exact not_hasQualifier_stripFrom s.toList
  · rw [Bool.eq_iff_iff, signaturesMatch_iff_canonical, signaturesMatch_iff_canonical,
      MethodSignature.canonical_canonical]
  · rw [Bool.eq_iff_iff, signaturesMatch_iff_canonical, signaturesMatch_iff_canonical,
      MethodSignature.canonical_canonical]

/-- A digit starts no name, and of a chain of names the last one is left. -/
example : stripQualifiers "func(1a.b.c, ...io.Reader) x.1y.z" = "func(1c, ...Reader) x.1z" := by decide

end CodeGraph
