import CodeGraph.Proofs.Source.Bindings
import CodeGraph.Syntax.File
import Mathlib.Data.List.Forall2

/-!
# What the body of a function amounts to

The walk over a body counts branches and records calls while it keeps track of variables.

* `Branches` — a node adds a branch; `branches_foldl_visitBody` counts these nodes.
* `IsOmitted` — a call expression of which nothing is recorded; `callSite?_eq_none_iff` says that no variable
  in scope and no import has a part in that.
* `StandsFor` — a call site is that of a call expression; `forall₂_sitesAmong` matches them one for one.
* `complexity_and_calls_by_preorder` — the main result.
-/

namespace CodeGraph.Source

open Syntax

section

variable {text : SourceText} {names : ImportNames}

/-! ### Branches -/

/-- A node that adds a branch: a condition, a loop, a case, or an operator that may leave its right side
out. -/
def Branches (text : SourceText) (n : Node) : Prop :=
  n.kind = .ifStatement ∨ n.kind = .forStatement ∨
    n.kind = .expressionCase ∨ n.kind = .typeCase ∨ n.kind = .communicationCase ∨
    n.kind = .binaryExpression ∧ ∃ o, n.child? .operator = some o ∧
      (text.textOf o = "&&" ∨ text.textOf o = "||")

theorem addsBranch_iff {n : Node} : addsBranch text n = true ↔ Branches text n := by
  have hkinds : branchKinds.contains n.kind = true ↔ n.kind = .ifStatement ∨ n.kind = .forStatement ∨
      n.kind = .expressionCase ∨ n.kind = .typeCase ∨ n.kind = .communicationCase := by
    simp [branchKinds]
  rw [addsBranch, Bool.or_eq_true, hkinds, Bool.and_eq_true, decide_eq_true_eq, Branches]
  cases n.child? .operator with
  | none => simp
  | some o => simp [or_assoc]

instance : DecidablePred (Branches text) := fun _ => decidable_of_iff _ addsBranch_iff

theorem branches_visitBody (facts : BodyFacts) (n : Node) : (visitBody text names facts n).branches =
    facts.branches + if Branches text n then 1 else 0 := by
  have hbranches : (visitBody text names facts n).branches =
      if addsBranch text n then facts.branches + 1 else facts.branches := by
    rw [visitBody]
    split <;> rfl
  rw [hbranches]
  simp only [addsBranch_iff]
  split <;> rfl

theorem branches_foldl_visitBody (ns : List Node) (facts : BodyFacts) :
    (ns.foldl (visitBody text names) facts).branches =
      facts.branches + ns.countP (Branches text ·) := by
  induction ns generalizing facts with
  | nil => rfl
  | cons n ns ih =>
    rw [List.foldl_cons, ih, branches_visitBody, List.countP_cons]
    simp only [decide_eq_true_eq]
    omega

/-! ### Calls -/

/-- A call expression of which nothing is recorded: it has no function, its function is a selector that lacks
a part, or a type stands in the place of the function. -/
def IsOmitted (call : Node) : Prop :=
  ∀ function ∈ call.child? .function,
    function.kind = .selectorExpression ∧
        ((function.child? .operand).isNone ∨ (function.child? .field).isNone) ∨
      function.kind ∈ conversionKinds

instance : DecidablePred IsOmitted := fun call =>
  inferInstanceAs (Decidable (∀ function ∈ call.child? .function, _))

/-- A call expression of which something is recorded. -/
def IsRecorded (n : Node) : Prop := n.kind = .callExpression ∧ ¬IsOmitted n

instance : DecidablePred IsRecorded := fun n =>
  inferInstanceAs (Decidable (n.kind = .callExpression ∧ ¬IsOmitted n))

/-- The name under which the function of a call is recorded. -/
def calleeText (text : SourceText) (function : Node) : String :=
  match function.kind with
  | .identifier => text.textOf function
  | .selectorExpression => ((function.child? .field).map text.textOf).getD ""
  | _ => String.ofList ((normalText text function).toList.take calleeLimit)

/-- A call site is that of a call expression: it has its line and the name of its function. -/
structure StandsFor (text : SourceText) (call : Node) (site : CallSite) : Prop where
  line : site.line = call.startLine
  callee : ∃ function, call.child? .function = some function ∧ site.callee = calleeText text function

theorem callSite?_eq_none_iff {s : Scope} {call : Node} :
    callSite? text names s call = none ↔ IsOmitted call := by
  rw [callSite?, IsOmitted]
  cases call.child? .function with
  | none => simp
  | some function =>
    simp only [Option.mem_some_iff, forall_eq', Option.bind_eq_bind, Option.bind_some]
    split
    next hplain => simp [hplain, conversionKinds]
    next =>
      split
      next hselector =>
        cases function.child? .operand <;> cases function.child? .field <;>
          simp [hselector, conversionKinds]
      next hselector =>
        split
        next hconversion => simpa [hselector] using hconversion
        next hconversion => simpa [hselector] using hconversion

/-- Whatever is known of the variable or package in front, the line and the name are those of the call. -/
theorem standsFor_selectorCall (s : Scope) (operand : Node) (callee : String) (line : Nat) :
    (selectorCall text names s operand callee line).line = line ∧
      (selectorCall text names s operand callee line).callee = callee := by
  rw [selectorCall]
  dsimp only
  split
  next =>
    split
    next => exact ⟨rfl, rfl⟩
    next => split <;> exact ⟨rfl, rfl⟩
  next => exact ⟨rfl, rfl⟩

theorem standsFor_of_callSite? {s : Scope} {call : Node} {site : CallSite}
    (h : callSite? text names s call = some site) : StandsFor text call site := by
  simp only [callSite?, Option.bind_eq_bind, Option.bind_eq_some_iff] at h
  obtain ⟨function, hfunction, h⟩ := h
  suffices site.line = call.startLine ∧ site.callee = calleeText text function from
    ⟨this.1, function, hfunction, this.2⟩
  rw [calleeText]
  split at h
  next hplain =>
    obtain rfl := Option.some.inj h
    rw [hplain]
    exact ⟨rfl, rfl⟩
  next hplain =>
    split at h
    next hselector =>
      simp only [Option.bind_eq_some_iff, Option.some.injEq] at h
      obtain ⟨operand, -, field, hfield, rfl⟩ := h
      rw [hselector, hfield]
      exact standsFor_selectorCall s operand _ _
    next hselector =>
      split at h
      next => cases h
      next =>
        obtain rfl := Option.some.inj h
        refine ⟨rfl, ?_⟩
        split
        next hkind => exact absurd hkind hplain
        next hkind => exact absurd hkind hselector
        next => rfl

/-- What is recorded of nodes stands for the calls among them, one for one. -/
theorem forall₂_sitesAmong (bindings : List Binding) (ns : List Node) :
    List.Forall₂ (StandsFor text) (ns.filter (IsRecorded ·)) (sitesAmong text names bindings ns) := by
  induction ns generalizing bindings with
  | nil => exact List.Forall₂.nil
  | cons n ns ih =>
    have hrest := ih (bindings ++ nodeBindings text names n)
    rw [sitesAmong]
    by_cases hkind : n.kind = .callExpression
    · rw [if_pos hkind]
      cases hsite : callSite? text names (Scope.empty.bindAll bindings) n with
      | none =>
        have homitted : ¬IsRecorded n := fun h => h.2 (callSite?_eq_none_iff.mp hsite)
        rw [List.filter_cons_of_neg (by simpa using homitted)]
        exact hrest
      | some site =>
        have hrecorded : IsRecorded n := ⟨hkind, fun h => by
          rw [callSite?_eq_none_iff.mpr h] at hsite
          cases hsite⟩
        rw [List.filter_cons_of_pos (by simpa using hrecorded)]
        exact List.Forall₂.cons (standsFor_of_callSite? hsite) hrest
    · rw [if_neg hkind, List.filter_cons_of_neg (by simpa using fun h : IsRecorded n => hkind h.1)]
      exact hrest

/-! ### Functions -/

/-- The nodes in the body of a function or method, the body first. -/
def bodyNodes (n : Node) : List Node :=
  match n.child? .body with
  | some body => body.preorder
  | none => []

theorem branches_functionDecl? {n : Node} {f : FunctionDecl} (h : functionDecl? text names n = some f) :
    f.complexity = 1 + (bodyNodes n).countP (Branches text ·) := by
  obtain ⟨_, -, rfl⟩ := Option.map_eq_some_iff.mp h
  dsimp only
  rw [bodyNodes, Nat.add_comm]
  cases n.child? .body with
  | none => rfl
  | some body =>
    rw [bodyFacts, Node.walk_descend, branches_foldl_visitBody]
    exact congrArg (1 + ·) (Nat.zero_add _)

/-- **Complexity and calls go by the nodes of the body in preorder.**  Every function or method with a name is
read, whatever its tree.  Its complexity is one more than the number of nodes that add a branch.  Its calls
stand for the call expressions one for one, in their order, but for those of which nothing is recorded.  Nodes
count at any depth, in function literals as well. -/
theorem complexity_and_calls_by_preorder (text : SourceText) (names : ImportNames) (n : Node) :
    ((functionDecl? text names n).isSome ↔ (n.child? .name).isSome) ∧
      ∀ f, functionDecl? text names n = some f →
        f.complexity = 1 + (bodyNodes n).countP (Branches text ·) ∧
          List.Forall₂ (StandsFor text) ((bodyNodes n).filter (IsRecorded ·)) f.calls := by
  refine ⟨by rw [functionDecl?, Option.isSome_map], fun f h => ⟨branches_functionDecl? h, ?_⟩⟩
  rw [calls_functionDecl? text names h, bodyNodes]
  cases n.child? .body with
  | none => exact List.Forall₂.nil
  | some body => exact forall₂_sitesAmong _ _

end

/-- A function with calls inside of calls and a function literal inside of a loop. -/
def nestedText : String :=
  "package p\n\nfunc f(xs []int, done chan int) \x7b\n\tfor _, x := range xs \x7b\n" ++
    "\t\tif x > 0 && g(h(x)) \x7b\n\t\t\tgo func() \x7b log(name(x)) \x7d()\n\t\t\x7d\n\t\x7d\n" ++
    "\tselect \x7b\n\tcase <-done:\n\tdefault:\n\t\x7d\n\x7d\n"

/-- The loop, the condition, the operator and the case of a channel count, and all five calls are recorded. -/
theorem complexity_and_calls_by_preorder_nested :
    let text := SourceText.ofString nestedText
    ∃ n ∈ (Node.ofText nestedText).children, ∃ f, functionDecl? text [] n = some f ∧ f.complexity = 5 ∧
      ((bodyNodes n).filter (IsRecorded ·)).map Node.startLine = [5, 5, 6, 6, 6] ∧ f.calls.length = 5 := by
  intro text
  have hnode : ((Node.ofText nestedText).children.any fun n => (n.child? .name).isSome &&
      decide ((bodyNodes n).countP (Branches text ·) = 4) &&
      decide (((bodyNodes n).filter (IsRecorded ·)).map Node.startLine = [5, 5, 6, 6, 6])) = true := by
    decide +kernel
  simp only [List.any_eq_true, Bool.and_eq_true, decide_eq_true_eq] at hnode
  obtain ⟨n, hn, ⟨hname, hbranches⟩, hlines⟩ := hnode
  obtain ⟨hread, hbody⟩ := complexity_and_calls_by_preorder text [] n
  obtain ⟨f, hf⟩ := Option.isSome_iff_exists.mp (hread.mpr hname)
  obtain ⟨hcomplexity, hcalls⟩ := hbody f hf
  refine ⟨n, hn, f, hf, by rw [hcomplexity, hbranches], hlines, ?_⟩
  rw [← hcalls.length_eq, ← List.length_map (f := Node.startLine), hlines]
  rfl

end CodeGraph.Source
