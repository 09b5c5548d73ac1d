import CodeGraph.Proofs.Calls.Sites
import CodeGraph.Proofs.Source.Scope
import CodeGraph.Syntax.File

/-!
# Calls of local variables

What is recorded of a call `f()`, and what it is resolved to, where `f` is a variable of the function.

* `site?_of_plainCallee` — a call by a name is one of a function value exactly if a variable of the name has
  been bound before it.
* `plain_calls_by_noted_forms` — that covers receivers, parameters, `:=` and `var`, but not results, range
  clauses, type switches, cases that receive and function literals: a call of such a variable is resolved to
  the function of the package that has its name.
-/

namespace CodeGraph.Source

open Syntax

/-- The name in a call `f()`. -/
def plainCallee? (text : SourceText) (call : Node) : Option String := do
  let function ← call.child? .function
  if function.kind = .identifier then some (text.textOf function) else none

section Plain

variable {text : SourceText} {names : ImportNames} {p : CallPoint} {x : String}

theorem plainCallee?_eq_some (h : plainCallee? text p.call = some x) :
    ∃ function, p.call.child? .function = some function ∧ function.kind = .identifier ∧
      text.textOf function = x := by
  simp only [plainCallee?, Option.bind_eq_bind, Option.bind_eq_some_iff] at h
  obtain ⟨function, hfunction, h⟩ := h
  split at h
  next hkind =>
    cases h
    exact ⟨function, hfunction, hkind, rfl⟩
  next => cases h

theorem site?_of_plainCallee (hmet : ∀ b ∈ p.met, b.1 ≠ "_") (h : plainCallee? text p.call = some x) :
    p.site? text names = some ⟨x, none, none,
      if ∃ b ∈ p.met, b.1 = x then .dynamic else .direct, p.call.startLine⟩ := by
  obtain ⟨function, hfunction, hkind, rfl⟩ := plainCallee?_eq_some h
  have hbound : (Scope.empty.bindAll p.met).isBound (text.textOf function) ↔
      ∃ b ∈ p.met, b.1 = text.textOf function :=
    (Scope.isBound_bindAll hmet).trans (or_iff_left nofun)
  simp only [CallPoint.site?, callSite?, Option.bind_eq_bind, hfunction, Option.bind_some, if_pos hkind,
    hbound]

/-- A variable that a walk takes note of has been bound before it is called. -/
theorem exists_met_of_innermost? {n : Node} (hp : p ∈ callPoints text names n) {d : LocalDecl}
    (hd : p.scopes.innermost? x = some d) (hnoted : d.form.isNoted) : ∃ b ∈ p.met, b.1 = x := by
  have hmem : d ∈ p.scopes.declared := List.mem_reverse.mp (List.mem_of_find?_eq_some hd)
  have hname : d.name = x := by simpa using List.find?_some hd
  refine ⟨(d.name, d.type), (noted_sublist_met text names hp).subset ?_, hname⟩
  exact List.mem_map.mpr ⟨d, List.mem_filter.mpr ⟨hmem, hnoted⟩, rfl⟩

end Plain

/-- A call by a name of which the package has a function is resolved to the function. -/
theorem callKeys_of_function {r : Resolver} {k k' : Package} {f : FunctionDecl} {x : String} {line : Nat}
    (hk : r.symbols.package? k.importPath = some k') (hx : (k'.function? x).isSome) :
    r.callKeys ⟨k, f, ⟨x, none, none, .direct, line⟩⟩ =
      [⟨.ofDecl k.importPath f, .resolved ⟨k.importPath, none, x⟩, .direct⟩] := by
  simp only [Resolver.callKeys, Resolver.resolve, Resolver.direct, Option.getD_none, hk, if_pos hx]
  rfl

/-- **A call of a local variable is one of a function value exactly if its form is one that the walk takes
note of, or another variable of its name has been bound before.**  Otherwise it is recorded as a call by name:
where the package has a function of that name, the call has an edge to the function. -/
theorem plain_calls_by_noted_forms {text : SourceText} {names : ImportNames} {n : Node} {f : FunctionDecl}
    (h : functionDecl? text names n = some f) :
    f.calls = (callPoints text names n).filterMap (CallPoint.site? text names) ∧
    ∀ p ∈ callPoints text names n, ∀ x, plainCallee? text p.call = some x →
      let site (kind : CallKind) : CallSite := ⟨x, none, none, kind, p.call.startLine⟩
      (p.site? text names = some (site .dynamic) ∨ p.site? text names = some (site .direct)) ∧
      (∀ d, p.scopes.innermost? x = some d → d.form.isVariable →
        (p.site? text names = some (site .dynamic) ↔ d.form.isNoted ∨ ∃ b ∈ p.met, b.1 = x)) ∧
      ∀ (r : Resolver) (ps : List Package), ∀ k ∈ ps, f ∈ k.functions →
        r.callKeys ⟨k, f, site .dynamic⟩ = [⟨.ofDecl k.importPath f,
          .unresolved x UnresolvedReason.functionValue.message, .dynamic⟩] ∧
        (p.site? text names = some (site .direct) →
          (∃ k', r.symbols.package? k.importPath = some k' ∧ (k'.function? x).isSome) →
          ∃ e ∈ resolveCalls r ps,
            e.key = ⟨.ofDecl k.importPath f, .resolved ⟨k.importPath, none, x⟩, .direct⟩) := by
  have hcalls := calls_eq_points text names h
  refine ⟨hcalls, fun p hp x hcallee => ?_⟩
  intro site
  have hsite : p.site? text names = some (site (if ∃ b ∈ p.met, b.1 = x then .dynamic else .direct)) :=
    site?_of_plainCallee (ne_blank_of_mem_callPoints text names hp) hcallee
  refine ⟨?_, fun d hd _ => ?_, fun r ps k hk hf => ⟨rfl, fun hdirect hfunction => ?_⟩⟩
  · rw [hsite]
    split
    next => exact .inl rfl
    next => exact .inr rfl
  · have hmet := exists_met_of_innermost? hp hd
    rw [or_iff_right_of_imp hmet, hsite]
    split
    next h => exact iff_of_true rfl h
    next h => exact iff_of_false nofun h
  · obtain ⟨k', hk', hx⟩ := hfunction
    have hmem : site .direct ∈ f.calls := hcalls ▸ List.mem_filterMap.mpr ⟨p, hp, hdirect⟩
    have hcall : (⟨k, f, site .direct⟩ : Call) ∈ callsOf ps := mem_callsOf.mpr ⟨hk, hf, hmem⟩
    exact mem_keys_resolveCalls.mpr
      ⟨_, hcall, by rw [callKeys_of_function hk' hx]; exact List.mem_singleton_self _⟩

/-- A function `f`, and a loop over functions that calls each of them `f`. -/
def eachText : String :=
  "package p\n\nfunc f() \x7b\x7d\n\nfunc each(fs []func()) \x7b\n" ++
    "\tfor _, f := range fs \x7b\n\t\tf()\n\t\x7d\n\x7d\n"

def eachFile : SourceFile := outline (.ofString eachText) (.ofText eachText)

def eachPackage : Package := ⟨"m", "p", "", [eachFile]⟩

/-- The call of the loop's variable has an edge to the function. -/
theorem plain_calls_by_noted_forms_each : ∃ n f p,
    functionDecl? (.ofString eachText) (importNames eachFile.imports) n = some f ∧
      p ∈ callPoints (.ofString eachText) (importNames eachFile.imports) n ∧
      plainCallee? (.ofString eachText) p.call = some "f" ∧
      p.scopes.innermost? "f" = some ⟨"f", .ranged, none⟩ ∧
      p.site? (.ofString eachText) (importNames eachFile.imports) =
        some ⟨"f", none, none, .direct, p.call.startLine⟩ ∧
      ∃ e ∈ resolveCalls ⟨⟨[eachPackage]⟩, [], true⟩ [eachPackage],
        e.key = ⟨⟨"m", none, "each"⟩, .resolved ⟨"m", none, "f"⟩, .direct⟩ := by
  have hnode : ((Node.ofText eachText).children.any fun n => n.kind == .functionDeclaration &&
      ((functionDecl? (.ofString eachText) (importNames eachFile.imports) n).any fun f =>
        FunctionId.ofDecl "m" f == ⟨"m", none, "each"⟩) &&
      (callPoints (.ofString eachText) (importNames eachFile.imports) n).any fun p =>
        plainCallee? (.ofString eachText) p.call == some "f" &&
          p.scopes.innermost? "f" == some ⟨"f", .ranged, none⟩ && p.met.all (·.1 ≠ "f")) = true := by
    decide +kernel
  have hfunction : (eachPackage.function? "f").isSome := by decide +kernel
  simp only [List.any_eq_true, Bool.and_eq_true, beq_iff_eq, Option.any_eq_true] at hnode
  obtain ⟨n, hn, ⟨hkind, f, hf, hid⟩, p, hp, ⟨hcallee, hscope⟩, hmet⟩ := hnode
  obtain ⟨hkinds, hform, hedges⟩ := (plain_calls_by_noted_forms hf).2 p hp "f" hcallee
  have hunmet : ¬∃ b ∈ p.met, b.1 = "f" := fun ⟨b, hb, hname⟩ =>
    of_decide_eq_true (List.all_eq_true.mp hmet b hb) hname
  have hdirect := hkinds.resolve_left fun hdynamic =>
    ((hform _ hscope rfl).mp hdynamic).elim nofun hunmet
  have hfile : f ∈ eachFile.functions := mem_functions_outline.mpr ⟨n, hn, .inl hkind, hf⟩
  have hmem : f ∈ eachPackage.functions :=
    List.mem_flatMap.mpr ⟨eachFile, List.mem_singleton_self _, hfile⟩
  obtain ⟨e, he, hkey⟩ := (hedges ⟨⟨[eachPackage]⟩, [], true⟩ [eachPackage] eachPackage
    (List.mem_singleton_self _) hmem).2 hdirect ⟨eachPackage, by rfl, hfunction⟩
  exact ⟨n, f, p, hf, hp, hcallee, hscope, hdirect, e, he, hid ▸ hkey⟩

end CodeGraph.Source
