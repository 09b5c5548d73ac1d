import CodeGraph.Proofs.Syntax.Walk
import CodeGraph.Source.Outline

/-!
# What a walk over a body knows of variables

A walk over a body binds variables as it meets their declarations and never forgets one.

* `Scope.isBound_bindAll`, `Scope.type?_bindAll` — bound is what has been met, with the type of the latest
  declaration met.
* `headingBindings`, `nodeBindings` — what a heading and a node of a body bind.
* `calls_functionDecl?` — each call is told by the variables bound before it in source order.
-/

namespace CodeGraph.Source

open Syntax

/-- A variable with the type known of it. -/
abbrev Binding := String × Option TypeName

namespace Scope

variable {x name : String} {type : Option TypeName} {s : Scope}

/-- Entries under other names do not matter to a look-up. -/
theorem lookup_filter (keep : String → Bool) (l : List (String × TypeName)) :
    (l.filter fun entry => keep entry.1).lookup x = if keep x then l.lookup x else none := by
  induction l with
  | nil => rw [List.filter_nil, List.lookup_nil, ite_self]
  | cons entry l ih =>
    obtain ⟨key, value⟩ := entry
    by_cases hx : x = key
    · subst hx
      cases hkeep : keep x <;> simp [hkeep, ih]
    · have hne : (x == key) = false := beq_eq_false_iff_ne.mpr hx
      cases hkeep : keep key <;> simp [hkeep, ih, List.lookup_cons, hne]

theorem bind_of_blank : s.bind "_" type = s := if_pos rfl

theorem isBound_bind (hname : name ≠ "_") : (s.bind name type).isBound x ↔ name = x ∨ s.isBound x := by
  simp only [bind, if_neg hname, isBound, List.contains_iff_mem]
  split
  next hbound => exact ⟨.inr, fun h => h.elim (fun heq => heq ▸ hbound) id⟩
  next => rw [List.mem_cons, eq_comm]

theorem type?_bind (hname : name ≠ "_") :
    (s.bind name type).type? x = if name = x then type else s.type? x := by
  have hothers := lookup_filter (x := x) (· != name) s.typed
  simp only [bind, if_neg hname, type?]
  by_cases hx : name = x
  · subst hx
    cases type with
    | none => simpa using hothers
    | some t => simp
  · have hkeep : (x != name) = true := bne_iff_ne.mpr (Ne.symm hx)
    rw [if_pos hkeep] at hothers
    cases type with
    | none => simpa [hx] using hothers
    | some t =>
      have hne : (x == name) = false := beq_eq_false_iff_ne.mpr (Ne.symm hx)
      simpa [hx, List.lookup_cons, hne] using hothers

end Scope

/-- The latest binding of a variable. -/
def latest? (bindings : List Binding) (x : String) : Option Binding := bindings.reverse.find? (·.1 = x)

theorem latest?_cons (b : Binding) (bindings : List Binding) (x : String) :
    latest? (b :: bindings) x = (latest? bindings x).or (if b.1 = x then some b else none) := by
  rw [latest?, List.reverse_cons, List.find?_append, List.find?_singleton, latest?]
  simp

theorem latest?_eq_none_iff {bindings : List Binding} {x : String} :
    latest? bindings x = none ↔ ∀ b ∈ bindings, b.1 ≠ x := by
  simp [latest?]

theorem latest?_filter (bindings : List Binding) (x : String) :
    latest? (bindings.filter (·.1 = x)) x = latest? bindings x := by
  rw [latest?, ← List.filter_reverse, List.find?_filter, latest?]
  simp

theorem latest?_eq_some {bindings : List Binding} {x : String} {b : Binding}
    (h : latest? bindings x = some b) : b ∈ bindings ∧ b.1 = x :=
  ⟨List.mem_reverse.mp (List.mem_of_find?_eq_some h), by simpa using List.find?_some h⟩

namespace Scope

variable {x : String} {s : Scope} {bindings : List Binding}

theorem bindAll_cons (b : Binding) : s.bindAll (b :: bindings) = (s.bind b.1 b.2).bindAll bindings := rfl

theorem bindAll_append (bs cs : List Binding) : s.bindAll (bs ++ cs) = (s.bindAll bs).bindAll cs :=
  List.foldl_append

theorem isBound_bindAll (h : ∀ b ∈ bindings, b.1 ≠ "_") :
    (s.bindAll bindings).isBound x ↔ (∃ b ∈ bindings, b.1 = x) ∨ s.isBound x := by
  induction bindings generalizing s with
  | nil => simp [bindAll]
  | cons b bindings ih =>
    obtain ⟨hb, hbindings⟩ := List.forall_mem_cons.mp h
    rw [bindAll_cons, ih hbindings, isBound_bind hb]
    simp only [List.mem_cons, exists_eq_or_imp, or_left_comm, or_assoc]

theorem type?_bindAll (h : ∀ b ∈ bindings, b.1 ≠ "_") :
    (s.bindAll bindings).type? x =
      match latest? bindings x with
      | some b => b.2
      | none => s.type? x := by
  induction bindings generalizing s with
  | nil => rfl
  | cons b bindings ih =>
    obtain ⟨hb, hbindings⟩ := List.forall_mem_cons.mp h
    rw [bindAll_cons, ih hbindings, latest?_cons, type?_bind hb]
    cases latest? bindings x with
    | some c => rfl
    | none => by_cases hx : b.1 = x <;> simp [hx]

/-- Blank variables are not bound. -/
theorem bindAll_filter : s.bindAll (bindings.filter (·.1 ≠ "_")) = s.bindAll bindings := by
  induction bindings generalizing s with
  | nil => rfl
  | cons b bindings ih =>
    rw [bindAll_cons, List.filter_cons]
    split
    next => exact ih
    next hblank =>
      rw [show b.1 = "_" by simpa using hblank, bind_of_blank]
      exact ih

end Scope

/-! ### Headings and nodes -/

section Bindings

variable (text : SourceText) (names : ImportNames)

/-- The variables of a parameter list, with the type stated for them. -/
def parameterBindings (list : Node) : List Binding :=
  list.namedChildren.flatMap fun param =>
    let type := (param.child? .type).bind (typeName? text names)
    (textsIn text .name param).map fun name => (name, type)

/-- What the heading of a function or method binds. -/
def headingBindings (n : Node) : List Binding :=
  (((n.child? .receiver).map (receiverBindings text)).getD [] ++
    ((n.child? .parameters).map (parameterBindings text names)).getD []).filter (·.1 ≠ "_")

/-- What a node of a body binds. -/
def nodeBindings (n : Node) : List Binding :=
  (match n.kind with
  | .shortVarDeclaration => shortBindings text names n
  | .varSpec => varBindings text names n
  | _ => []).filter (·.1 ≠ "_")

/-- The calls among the nodes of a body, told by what is bound before each. -/
def sitesAmong (bindings : List Binding) : List Node → List CallSite
  | [] => []
  | n :: ns =>
    (if n.kind = .callExpression then (callSite? text names (Scope.empty.bindAll bindings) n).toList
      else []) ++ sitesAmong (bindings ++ nodeBindings text names n) ns

theorem scope_visitBody (facts : BodyFacts) (n : Node) : (visitBody text names facts n).scope =
    facts.scope.bindAll (nodeBindings text names n) := by
  rw [visitBody, nodeBindings, Scope.bindAll_filter]
  generalize (if addsBranch text n = true then facts.branches + 1 else facts.branches) = branches
  split
  next hkind => rw [hkind]; rfl
  next hkind => rw [hkind]
  next hkind => rw [hkind]
  next hshort hvar =>
    split
    next hkind => exact absurd hkind hshort
    next hkind => exact absurd hkind hvar
    next => rfl

theorem calls_visitBody (facts : BodyFacts) (n : Node) : (visitBody text names facts n).calls =
    (if n.kind = .callExpression then (callSite? text names facts.scope n).toList else []) ++
      facts.calls := by
  rw [visitBody]
  generalize (if addsBranch text n = true then facts.branches + 1 else facts.branches) = branches
  split
  next hkind =>
    rw [if_pos hkind]
    cases callSite? text names facts.scope n <;> rfl
  next hkind => rw [if_neg (hkind ▸ nofun)]; rfl
  next hkind => rw [if_neg (hkind ▸ nofun)]; rfl
  next hcall _ _ => rw [if_neg hcall]; rfl

/-- A walk tells each call by what it has bound before. -/
theorem calls_foldl_visitBody (ns : List Node) {facts : BodyFacts} {bindings : List Binding}
    (h : facts.scope = Scope.empty.bindAll bindings) :
    (ns.foldl (visitBody text names) facts).calls.reverse =
      facts.calls.reverse ++ sitesAmong text names bindings ns := by
  induction ns generalizing facts bindings with
  | nil => exact (List.append_nil _).symm
  | cons n ns ih =>
    have hscope : (visitBody text names facts n).scope =
        Scope.empty.bindAll (bindings ++ nodeBindings text names n) := by
      rw [scope_visitBody, h, Scope.bindAll_append]
    rw [List.foldl_cons, ih hscope, calls_visitBody, List.reverse_append, List.append_assoc, sitesAmong, h]
    congr 2
    split
    next => cases callSite? text names (Scope.empty.bindAll bindings) n <;> rfl
    next => rfl

theorem calls_bodyFacts (bindings : List Binding) (body : Node) :
    (bodyFacts text names (Scope.empty.bindAll bindings) (some body)).calls.reverse =
      sitesAmong text names bindings body.preorder := by
  rw [bodyFacts, Node.walk_descend]
  exact calls_foldl_visitBody text names _ rfl

/-- Each call of a function is told by what its heading and the nodes before the call bind. -/
theorem calls_functionDecl? {n : Node} {f : FunctionDecl} (h : functionDecl? text names n = some f) :
    f.calls = match n.child? .body with
      | some body => sitesAmong text names (headingBindings text names n) body.preorder
      | none => [] := by
  have hscope : Scope.empty.bindAll (headingBindings text names n) =
      (Scope.empty.bindAll (((n.child? .receiver).map (receiverBindings text)).getD [])).bindAll
        (((n.child? .parameters).map (parameterBindings text names)).getD []) := by
    rw [headingBindings, Scope.bindAll_filter, Scope.bindAll_append]
  obtain ⟨_, -, rfl⟩ := Option.map_eq_some_iff.mp h
  dsimp only
  cases n.child? .body with
  | none => rfl
  | some body =>
    refine Eq.trans ?_ (calls_bodyFacts text names _ body)
    rw [hscope]
    cases n.child? .parameters <;> rfl

end Bindings

/-- The functions of a file are those of its function and method nodes. -/
theorem mem_functions_outline {text : SourceText} {root : Node} {f : FunctionDecl} :
    f ∈ (outline text root).functions ↔ ∃ n ∈ root.children,
      (n.kind = .functionDeclaration ∨ n.kind = .methodDeclaration) ∧
        functionDecl? text (importNames (outline text root).imports) n = some f := by
  have hfunctions : (outline text root).functions = (root.children.filter fun n =>
      n.kind = .functionDeclaration || n.kind = .methodDeclaration).filterMap
        (functionDecl? text (importNames (outline text root).imports)) := rfl
  rw [hfunctions, List.mem_filterMap]
  simp only [List.mem_filter, Bool.or_eq_true, decide_eq_true_eq, and_assoc]

end CodeGraph.Source
