import CodeGraph.Proofs.Source.Scope
import CodeGraph.Syntax.File

/-!
# Calls on a name that is declared more than once

What is recorded of a call `x.F()`, compared with the scopes of the language.

* `selectorSite` — such a call, told by what is known of `x`: a variable of a type, a variable of an unknown
  type, or an import.
* `site?_of_selection` — what is recorded goes by the latest declaration of `x` that begins before the call,
  wherever it ends and whichever block it is in.
* `selector_calls_by_latest_declaration` — when that agrees with the innermost declaration in scope.
-/

namespace CodeGraph.Source

open Syntax

/-- The name and the member of a call `x.F()`. -/
def selection? (text : SourceText) (call : Node) : Option (String × String) := do
  let function ← call.child? .function
  let operand ← function.child? .operand
  let member ← function.child? .field
  if function.kind = .selectorExpression ∧ operand.kind = .identifier then
    some (text.textOf operand, text.textOf member)
  else none

/-- A call `x.F()`, told by what is known of `x`: the type of a variable if there is one, or that there is no
such variable. -/
def selectorSite (names : ImportNames) (x member : String) (line : Nat)
    (known? : Option (Option TypeName)) : CallSite :=
  match known? with
  | some (some t) => ⟨member, t.qualifier, some t.name, .method, line⟩
  | some none => ⟨member, none, none, .method, line⟩
  | none =>
    match names.lookup x with
    | some path => ⟨member, some path, none, .direct, line⟩
    | none => ⟨member, none, none, .method, line⟩

section Selections

variable {text : SourceText} {names : ImportNames} {p : CallPoint} {x member : String}

theorem selection?_eq_some (h : selection? text p.call = some (x, member)) :
    ∃ function operand field, p.call.child? .function = some function ∧ function.kind = .selectorExpression ∧
      function.child? .operand = some operand ∧ operand.kind = .identifier ∧ text.textOf operand = x ∧
      function.child? .field = some field ∧ text.textOf field = member := by
  simp only [selection?, Option.bind_eq_bind, Option.bind_eq_some_iff] at h
  obtain ⟨function, hfunction, operand, hoperand, field, hfield, h⟩ := h
  split at h
  next hkinds =>
    cases h
    exact ⟨function, operand, field, hfunction, hkinds.1, hoperand, hkinds.2, rfl, hfield, rfl⟩
  next => cases h

/-- What is recorded of a call on a name goes by the latest binding of the name that has been met. -/
theorem site?_of_selection (hmet : ∀ b ∈ p.met, b.1 ≠ "_") (h : selection? text p.call = some (x, member)) :
    p.site? text names =
      some (selectorSite names x member p.call.startLine ((latest? p.met x).map (·.2))) := by
  obtain ⟨function, operand, field, hfunction, hselector, hoperand, hidentifier, rfl, hfield, rfl⟩ :=
    selection?_eq_some h
  have htype := Scope.type?_bindAll (s := .empty) (x := text.textOf operand) hmet
  have hbound := Scope.isBound_bindAll (s := .empty) (x := text.textOf operand) hmet
  have hplain : function.kind ≠ .identifier := hselector ▸ nofun
  simp only [CallPoint.site?, callSite?, Option.bind_eq_bind, hfunction, Option.bind_some, if_neg hplain,
    if_pos hselector, hoperand, hfield, selectorCall, if_pos hidentifier, htype]
  cases hlatest : latest? p.met (text.textOf operand) with
  | some b =>
    obtain ⟨name, type⟩ := b
    cases type with
    | some t => rfl
    | none =>
      dsimp only
      rw [if_pos (hbound.mpr (.inl ⟨_, latest?_eq_some hlatest⟩))]
      rfl
  | none =>
    have hfree : ¬(Scope.empty.bindAll p.met).isBound (text.textOf operand) := by
      rintro hb
      obtain ⟨b, hb, hname⟩ | hb := hbound.mp hb
      · exact latest?_eq_none_iff.mp hlatest b hb hname
      · cases hb
    rw [if_neg hfree, Option.map_none, selectorSite]
    cases names.lookup (text.textOf operand) <;> rfl

theorem selectorSite_eq_direct_iff {line : Nat} {path : String} {known? : Option (Option TypeName)}
    (hpath : names.lookup x = some path) :
    selectorSite names x member line known? = ⟨member, some path, none, .direct, line⟩ ↔
      known? = none := by
  match known? with
  | some (some t) => simp [selectorSite]
  | some none => simp [selectorSite]
  | none => simp [selectorSite, hpath]

theorem selectorSite_eq_method_iff {line : Nat} {t : TypeName} {known? : Option (Option TypeName)} :
    selectorSite names x member line known? = ⟨member, t.qualifier, some t.name, .method, line⟩ ↔
      known? = some (some t) := by
  obtain ⟨qualifier, name⟩ := t
  match known? with
  | some (some ⟨qualifier', name'⟩) => simp [selectorSite]
  | some none => simp [selectorSite]
  | none => cases hpath : names.lookup x <;> simp [selectorSite, hpath]

/-- Where a walk takes note of the innermost declaration of a name, that is the latest one it knows. -/
theorem latest?_noted (ds : List LocalDecl) (h : ∀ d ∈ ds.reverse.find? (·.name = x), d.form.isNoted) :
    latest? (noted ds) x = (ds.reverse.find? (·.name = x)).map fun d => (d.name, d.type) := by
  rw [latest?, noted, ← List.map_reverse, ← List.filter_reverse, List.find?_map, List.find?_filter]
  congr 1
  generalize ds.reverse = ds at h
  induction ds with
  | nil => rfl
  | cons d ds ih =>
    by_cases hd : d.name = x
    · have hnoted : d.form.isNoted := h d (by simp [hd])
      simp [hd, hnoted]
    · simp only [List.find?_cons, hd] at h ⊢
      simpa [hd] using ih h

end Selections

/-- **A call `x.F()` is told by the latest declaration of `x` that begins before it, not by the innermost one
in scope.**  With no declaration of `x` in scope it is recorded as a call into the package imported as `x`
exactly if no variable `x` is bound before it, be it in a block that is closed again or by the statement that
the call is part of.  It keeps the type of the innermost declaration exactly if the latest one gives `x` that
type too.  All is well where everything bound before as `x` is still in scope. -/
theorem selector_calls_by_latest_declaration {text : SourceText} {names : ImportNames} {n : Node}
    {f : FunctionDecl} (h : functionDecl? text names n = some f) :
    f.calls = (callPoints text names n).filterMap (CallPoint.site? text names) ∧
    ∀ p ∈ callPoints text names n, ∀ x member, selection? text p.call = some (x, member) →
      let line := p.call.startLine
      let expected := selectorSite names x member line ((p.scopes.innermost? x).map (·.type))
      (∃ body before after, n.child? .body = some body ∧ body.preorder = before ++ p.call :: after ∧
        p.met = headingBindings text names n ++ before.flatMap (nodeBindings text names)) ∧
      (∀ path, p.scopes.innermost? x = none → names.lookup x = some path →
        expected = ⟨member, some path, none, .direct, line⟩ ∧
          (p.site? text names = some expected ↔ ∀ b ∈ p.met, b.1 ≠ x)) ∧
      (∀ d t, p.scopes.innermost? x = some d → d.type = some t →
        expected = ⟨member, t.qualifier, some t.name, .method, line⟩ ∧
          (p.site? text names = some expected ↔ latest? p.met x = some (x, some t))) ∧
      (p.met.filter (·.1 = x) = (noted p.scopes.declared).filter (·.1 = x) →
        (∀ d ∈ p.scopes.innermost? x, d.form.isNoted) → p.site? text names = some expected) := by
  refine ⟨calls_eq_points text names h, fun p hp x member hselection => ?_⟩
  intro line expected
  have hsite : p.site? text names =
      some (selectorSite names x member line ((latest? p.met x).map (·.2))) :=
    site?_of_selection (ne_blank_of_mem_callPoints text names hp) hselection
  refine ⟨exists_before text names hp, fun path hfree hpath => ?_, fun d t hd ht => ?_,
    fun hscope hnoted => ?_⟩
  · have hexpected : expected = ⟨member, some path, none, .direct, line⟩ := by
      rw [selectorSite_eq_direct_iff hpath, hfree, Option.map_none]
    refine ⟨hexpected, ?_⟩
    rw [hsite, Option.some_inj, hexpected, selectorSite_eq_direct_iff hpath, Option.map_eq_none_iff,
      latest?_eq_none_iff]
  · have hexpected : expected = ⟨member, t.qualifier, some t.name, .method, line⟩ := by
      rw [selectorSite_eq_method_iff, hd, Option.map_some, ht]
    refine ⟨hexpected, ?_⟩
    rw [hsite, Option.some_inj, hexpected, selectorSite_eq_method_iff, Option.map_eq_some_iff]
    constructor
    · rintro ⟨⟨name, type⟩, hlatest, rfl⟩
      obtain ⟨-, rfl⟩ := latest?_eq_some hlatest
      exact hlatest
    · intro hlatest
      exact ⟨_, hlatest, rfl⟩
  · have hlatest := latest?_noted p.scopes.declared hnoted
    rw [← latest?_filter, ← hscope, latest?_filter] at hlatest
    rw [hsite, hlatest, Option.map_map]
    rfl

/-- A call into a package, behind a block that declares a variable of the package's name. -/
def shadowText : String :=
  "package p\n\nfunc f() \x7b\n\t\x7b\n\t\tpath := 1\n\t\t_ = path\n\t\x7d\n\tpath.Base()\n\x7d\n"

/-- The variable is forgotten by the scopes, but not by the walk. -/
theorem selector_calls_by_latest_declaration_shadow : ∃ n f p,
    functionDecl? (.ofString shadowText) [("path", "path/filepath")] n = some f ∧
      p ∈ callPoints (.ofString shadowText) [("path", "path/filepath")] n ∧
      selection? (.ofString shadowText) p.call = some ("path", "Base") ∧
      p.scopes.innermost? "path" = none ∧
      p.site? (.ofString shadowText) [("path", "path/filepath")] ≠
        some ⟨"Base", some "path/filepath", none, .direct, p.call.startLine⟩ := by
  have hnode : ((Node.ofText shadowText).children.any fun n =>
      (functionDecl? (.ofString shadowText) [("path", "path/filepath")] n).isSome &&
        (callPoints (.ofString shadowText) [("path", "path/filepath")] n).any fun p =>
          selection? (.ofString shadowText) p.call == some ("path", "Base") &&
            p.scopes.innermost? "path" == none && latest? p.met "path" == some ("path", none)) = true := by
    decide +kernel
  simp only [List.any_eq_true, Bool.and_eq_true, beq_iff_eq] at hnode
  obtain ⟨n, -, hsome, p, hp, ⟨hselection, hscope⟩, hlatest⟩ := hnode
  obtain ⟨f, hf⟩ := Option.isSome_iff_exists.mp hsome
  refine ⟨n, f, p, hf, hp, hselection, hscope, fun hsite => ?_⟩
  obtain ⟨-, himported, -⟩ := (selector_calls_by_latest_declaration hf).2 p hp "path" "Base" hselection
  obtain ⟨hexpected, hiff⟩ := himported "path/filepath" hscope rfl
  exact hiff.mp (hexpected ▸ hsite) ("path", none) (latest?_eq_some hlatest).1 rfl

end CodeGraph.Source
