import CodeGraph.Proofs.Source.Bindings

/-!
# Where declarations inside a function are in scope

The scopes of the language, for comparison with what a walk over a body knows.

* `LocalDecl` — a declaration inside a function, in any of the forms there are; `Scopes` — those in scope
  at a place, scope by scope.
* `situated` — every node of a body with the scopes that it stands in.  A declaration is in scope after the
  statement that makes it, up to the end of the innermost block around it; a type is in scope in its own
  specification; the clauses of a switch or select, `if` and `for` are blocks of their own.
* `CallPoint` — a call of a body with the scopes that it stands in and the bindings that a walk has met
  before it; `calls_eq_points` — the calls of a function are told by the latter.
* `noted_sublist_met` — of the declarations in scope at a call, those of a form that a walk takes note of
  have been met, in the same order.
-/

namespace CodeGraph.Source

open Syntax

/-- How a name is declared inside a function. -/
inductive LocalForm where
  | typeParameter | receiver | parameter | result
  /-- A parameter or result of a function literal. -/
  | literalParameter | literalResult
  | short | variable | constant | type
  /-- The key or value of a range clause, the variable of a type switch, and what a case receives. -/
  | ranged | alias | received
  deriving DecidableEq, Repr

/-- Whether a variable is declared. -/
def LocalForm.isVariable : LocalForm → Bool
  | .typeParameter | .constant | .type => false
  | _ => true

/-- Whether a walk over the body takes note of it. -/
def LocalForm.isNoted : LocalForm → Bool
  | .receiver | .parameter | .short | .variable => true
  | _ => false

/-- A declaration inside a function, with the type known of what it declares. -/
structure LocalDecl where
  name : String
  form : LocalForm
  type : Option TypeName
  deriving DecidableEq, Repr

/-- The scopes around a place, the innermost first, each with its declarations in source order. -/
abbrev Scopes := List (List LocalDecl)

namespace Scopes

/-- All declarations in scope, the innermost last. -/
def declared (scopes : Scopes) : List LocalDecl := scopes.reverse.flatten

/-- The declaration that a name refers to. -/
def innermost? (scopes : Scopes) (name : String) : Option LocalDecl :=
  scopes.declared.reverse.find? (·.name = name)

/-- Declare names in the innermost scope, except for those that it has already. -/
def declare (ds : List LocalDecl) : Scopes → Scopes
  | [] => [ds]
  | scope :: outer => (scope ++ ds.filter fun d => scope.all (·.name ≠ d.name)) :: outer

end Scopes

/-- The bindings of the declarations that a walk takes note of. -/
def noted (ds : List LocalDecl) : List Binding :=
  (ds.filter (·.form.isNoted)).map fun d => (d.name, d.type)

/-! ### Declarations -/

section Declarations

variable (text : SourceText) (names : ImportNames)

/-- The children of a kind in the role of a name, as declarations. -/
def namedAs (kind : Kind) (form : LocalForm) (n : Node) : List LocalDecl :=
  ((n.childrenIn .name).filter (·.kind = kind)).map fun c => ⟨text.textOf c, form, none⟩

/-- The identifiers of a list of expressions, as declarations. -/
def listedAs (role : Field) (form : LocalForm) (n : Node) : List LocalDecl :=
  ((((n.child? role).map expressionsOf).getD []).filter (·.kind = .identifier)).map fun c =>
    ⟨text.textOf c, form, none⟩

/-- Bindings, as declarations. -/
def boundAs (form : LocalForm) (bindings : List Binding) : List LocalDecl :=
  bindings.map fun b => ⟨b.1, form, b.2⟩

/-- Whether a clause assigns to new variables. -/
def assignsNew (n : Node) : Bool := n.children.any fun c => c.kind = .token && text.textOf c = ":="

/-- The kinds of node that declare something where they stand. -/
def declaringKinds : List Kind :=
  [.shortVarDeclaration, .varSpec, .constSpec, .typeSpec, .typeAlias, .rangeClause, .receiveStatement]

/-- What a node declares where it stands. -/
def declarations (n : Node) : List LocalDecl :=
  let ds := match n.kind with
    | .shortVarDeclaration => boundAs .short (shortBindings text names n)
    | .varSpec => boundAs .variable (varBindings text names n)
    | .constSpec => namedAs text .identifier .constant n
    | .typeSpec | .typeAlias => namedAs text .typeIdentifier .type n
    | .rangeClause => if assignsNew text n then listedAs text .left .ranged n else []
    | .receiveStatement => if assignsNew text n then listedAs text .left .received n else []
    | _ => []
  ds.filter (·.name ≠ "_")

/-- The kinds of node that are scopes of their own. -/
def scopeKinds : List Kind :=
  [.block, .ifStatement, .forStatement, .expressionSwitchStatement, .typeSwitchStatement,
   .expressionCase, .typeCase, .defaultCase, .communicationCase]

/-- The variables of a parameter list, as declarations; a result may be a type instead. -/
def parametersAs (role : Field) (form : LocalForm) (n : Node) : List LocalDecl :=
  match n.child? role with
  | some list => if list.kind = .parameterList then boundAs form (parameterBindings text names list) else []
  | none => []

/-- What the scope of a child begins with: the body of a function literal with its parameters and results,
the clauses of a type switch with the variable of the switch. -/
def handedDown (parent child : Node) : List LocalDecl :=
  let ds :=
    if parent.kind = .funcLiteral ∧ child.kind = .block then
      parametersAs text names .parameters .literalParameter parent ++
        parametersAs text names .result .literalResult parent
    else if parent.kind = .typeSwitchStatement ∧ (child.kind = .typeCase ∨ child.kind = .defaultCase) then
      listedAs text .aliases .alias parent
    else []
  ds.filter (·.name ≠ "_")

/-- The type parameters that the receiver of a method gives names to. -/
def receiverTypeParameters (list : Node) : List LocalDecl :=
  ((list.preorder.filter (·.kind = .typeArguments)).flatMap Node.preorder).filterMap fun n =>
    if n.kind = .typeIdentifier then some ⟨text.textOf n, .typeParameter, none⟩ else none

/-- What the heading of a function or method declares in the scope of the body. -/
def headingDecls (n : Node) : List LocalDecl :=
  (((n.child? .typeParameters).map fun list =>
      list.children.flatMap (namedAs text .identifier .typeParameter)).getD [] ++
    ((n.child? .receiver).map (receiverTypeParameters text)).getD [] ++
    boundAs .receiver (((n.child? .receiver).map (receiverBindings text)).getD []) ++
    parametersAs text names .parameters .parameter n ++
    parametersAs text names .result .result n).filter (·.name ≠ "_")

end Declarations

/-! ### Scopes of nodes -/

section Situated

variable (text : SourceText) (names : ImportNames)

mutual
/-- The nodes of a tree in preorder, each with the scopes that it stands in, and the scopes after the tree.
If the tree is a scope of its own, it begins with the given declarations. -/
def situated (entry : List LocalDecl) : Node → Scopes → List (Node × Scopes) × Scopes
  | .node l cs, scopes =>
    let n := Node.node l cs
    let declared := scopes.declare (declarations text names n)
    let inside :=
      if scopeKinds.contains l.kind then entry :: scopes
      else if l.kind = .typeSpec ∨ l.kind = .typeAlias then declared
      else scopes
    let (below, after) := situatedAll n cs inside
    ((n, scopes) :: below,
      if scopeKinds.contains l.kind then scopes
      else if declaringKinds.contains l.kind then declared
      else after)

/-- The same for the children of a node, one after the other. -/
def situatedAll (parent : Node) : List Node → Scopes → List (Node × Scopes) × Scopes
  | [], scopes => ([], scopes)
  | c :: cs, scopes =>
    let (first, scopes) := situated (handedDown text names parent c) c scopes
    let (others, scopes) := situatedAll parent cs scopes
    (first ++ others, scopes)
end

end Situated

/-- A call in a body. -/
structure CallPoint where
  call : Node
  /-- The scopes that the call stands in. -/
  scopes : Scopes
  /-- What a walk over the body has bound before. -/
  met : List Binding

section Points

variable (text : SourceText) (names : ImportNames)

/-- The calls among the nodes of a body. -/
def pointsAmong (met : List Binding) : List (Node × Scopes) → List CallPoint
  | [] => []
  | (n, scopes) :: others =>
    (if n.kind = .callExpression then [⟨n, scopes, met⟩] else []) ++
      pointsAmong (met ++ nodeBindings text names n) others

/-- The calls in the body of a function. -/
def callPoints (n : Node) : List CallPoint :=
  match n.child? .body with
  | some body =>
    pointsAmong text names (headingBindings text names n)
      (situated text names (headingDecls text names n) body []).1
  | none => []

/-- What is recorded of a call. -/
def CallPoint.site? (p : CallPoint) : Option CallSite :=
  callSite? text names (Scope.empty.bindAll p.met) p.call

mutual
theorem map_fst_situated (entry : List LocalDecl) (n : Node) (scopes : Scopes) :
    (situated text names entry n scopes).1.map (·.1) = n.preorder := by
  obtain ⟨l, cs⟩ := n
  rw [situated, Node.preorder, List.map_cons, map_fst_situatedAll]

theorem map_fst_situatedAll (parent : Node) (ns : List Node) (scopes : Scopes) :
    (situatedAll text names parent ns scopes).1.map (·.1) = forestPreorder ns := by
  cases ns with
  | nil => rfl
  | cons n ns =>
    rw [situatedAll, forestPreorder, List.map_append, map_fst_situated, map_fst_situatedAll]
end

theorem sitesAmong_eq_points (met : List Binding) (nodes : List (Node × Scopes)) :
    sitesAmong text names met (nodes.map (·.1)) =
      (pointsAmong text names met nodes).filterMap (CallPoint.site? text names) := by
  induction nodes generalizing met with
  | nil => rfl
  | cons node nodes ih =>
    rw [List.map_cons, sitesAmong, ih, pointsAmong, List.filterMap_append]
    congr 1
    split
    next =>
      rw [List.filterMap_cons, List.filterMap_nil, CallPoint.site?]
      cases callSite? text names (Scope.empty.bindAll met) node.1 <;> rfl
    next => rfl

/-- The calls of a function are what is recorded of the calls in its body, one after the other. -/
theorem calls_eq_points {n : Node} {f : FunctionDecl} (h : functionDecl? text names n = some f) :
    f.calls = (callPoints text names n).filterMap (CallPoint.site? text names) := by
  rw [calls_functionDecl? text names h, callPoints]
  cases n.child? .body with
  | none => rfl
  | some body =>
    dsimp only
    rw [← map_fst_situated text names (headingDecls text names n) body [], sitesAmong_eq_points]

end Points

/-! ### What has been met -/

theorem noted_append (ds es : List LocalDecl) : noted (ds ++ es) = noted ds ++ noted es := by
  rw [noted, List.filter_append, List.map_append, noted, noted]

theorem noted_sublist {ds es : List LocalDecl} (h : ds.Sublist es) : (noted ds).Sublist (noted es) :=
  (h.filter _).map _

theorem noted_eq_nil {ds : List LocalDecl} (h : ∀ d ∈ ds, d.form.isNoted = false) : noted ds = [] := by
  rw [noted, List.filter_eq_nil_iff.mpr fun d hd => by simp [h d hd], List.map_nil]

theorem noted_boundAs {form : LocalForm} (h : form.isNoted) (bindings : List Binding) :
    noted (boundAs form bindings) = bindings := by
  have hall : ∀ d ∈ boundAs form bindings, d.form.isNoted := fun d hd => by
    obtain ⟨_, -, rfl⟩ := List.mem_map.mp hd
    exact h
  rw [noted, List.filter_eq_self.mpr hall, boundAs, List.map_map]
  exact List.map_id bindings

theorem noted_filter (p : String → Bool) (ds : List LocalDecl) :
    noted (ds.filter fun d => p d.name) = (noted ds).filter fun b => p b.1 := by
  rw [noted, noted, List.filter_map, List.filter_filter, List.filter_filter]
  refine congrArg _ (List.filter_congr fun d _ => ?_)
  exact Bool.and_comm _ _

theorem Scopes.declared_cons (scope : List LocalDecl) (scopes : Scopes) :
    Scopes.declared (scope :: scopes) = scopes.declared ++ scope := by
  rw [Scopes.declared, List.reverse_cons, List.flatten_append, List.flatten_singleton]
  rfl

theorem Scopes.declared_declare (ds : List LocalDecl) (scopes : Scopes) :
    (scopes.declare ds).declared.Sublist (scopes.declared ++ ds) := by
  cases scopes with
  | nil =>
    exact Scopes.declared_cons ds [] ▸ List.Sublist.refl _
  | cons scope outer =>
    rw [Scopes.declare, Scopes.declared_cons, Scopes.declared_cons, List.append_assoc]
    exact (List.filter_sublist.append_left _).append_left _

section Met

variable (text : SourceText) (names : ImportNames)

theorem noted_namedAs {kind : Kind} {form : LocalForm} (h : form.isNoted = false) (n : Node) :
    noted (namedAs text kind form n) = [] := by
  refine noted_eq_nil fun d hd => ?_
  obtain ⟨_, -, rfl⟩ := List.mem_map.mp hd
  exact h

theorem noted_listedAs {role : Field} {form : LocalForm} (h : form.isNoted = false) (n : Node) :
    noted (listedAs text role form n) = [] := by
  refine noted_eq_nil fun d hd => ?_
  obtain ⟨_, -, rfl⟩ := List.mem_map.mp hd
  exact h

theorem noted_parametersAs_eq_nil {role : Field} {form : LocalForm} (h : form.isNoted = false) (n : Node) :
    noted (parametersAs text names role form n) = [] := by
  refine noted_eq_nil fun d hd => ?_
  rw [parametersAs] at hd
  split at hd
  next =>
    split at hd
    next =>
      obtain ⟨_, -, rfl⟩ := List.mem_map.mp hd
      exact h
    next => cases hd
  next => cases hd

/-- A walk takes note of a node's declarations as it binds variables. -/
theorem noted_declarations (n : Node) :
    noted (declarations text names n) = nodeBindings text names n := by
  rw [declarations, nodeBindings]
  refine (noted_filter (· ≠ "_") _).trans (congrArg _ ?_)
  split
  next hkind => rw [hkind]; exact noted_boundAs rfl _
  next hkind => rw [hkind]; exact noted_boundAs rfl _
  next hkind => rw [hkind]; exact noted_namedAs text rfl n
  next hkind => rw [hkind]; exact noted_namedAs text rfl n
  next hkind => rw [hkind]; exact noted_namedAs text rfl n
  next hkind => rw [hkind]; split; exact noted_listedAs text rfl n; rfl
  next hkind => rw [hkind]; split; exact noted_listedAs text rfl n; rfl
  next hshort hvar _ _ _ _ _ =>
    split
    next hkind => exact absurd hkind hshort
    next hkind => exact absurd hkind hvar
    next => rfl

/-- Of what an inner scope begins with a walk takes no note. -/
theorem noted_handedDown (parent child : Node) : noted (handedDown text names parent child) = [] := by
  rw [handedDown]
  refine (noted_filter (· ≠ "_") _).trans (List.filter_eq_nil_iff.mpr ?_)
  split
  next =>
    rw [noted_append, noted_parametersAs_eq_nil text names rfl, noted_parametersAs_eq_nil text names rfl]
    exact nofun
  next =>
    split
    next => rw [noted_listedAs text rfl]; exact nofun
    next => exact nofun

theorem noted_parametersAs_sublist {role : Field} {form : LocalForm} (h : form.isNoted) (n : Node) :
    (noted (parametersAs text names role form n)).Sublist
      (((n.child? role).map (parameterBindings text names)).getD []) := by
  rw [parametersAs]
  split
  next list hlist =>
    rw [hlist]
    split
    next => rw [noted_boundAs h]; exact List.Sublist.refl _
    next => exact List.nil_sublist _
  next => exact List.nil_sublist _

/-- What a walk takes note of in a heading is among its bindings. -/
theorem noted_headingDecls (n : Node) :
    (noted (headingDecls text names n)).Sublist (headingBindings text names n) := by
  have htypes : noted ((((n.child? .typeParameters).map fun list =>
      list.children.flatMap (namedAs text .identifier .typeParameter)).getD [] ++
        ((n.child? .receiver).map (receiverTypeParameters text)).getD [])) = [] := by
    refine noted_eq_nil fun d hd => ?_
    rcases List.mem_append.mp hd with hd | hd
    · cases hlist : n.child? .typeParameters with
      | none => simp [hlist] at hd
      | some list =>
        rw [hlist] at hd
        obtain ⟨_, -, hd⟩ := List.mem_flatMap.mp hd
        obtain ⟨_, -, rfl⟩ := List.mem_map.mp hd
        rfl
    · cases hlist : n.child? .receiver with
      | none => simp [hlist] at hd
      | some list =>
        rw [hlist] at hd
        obtain ⟨_, -, hd⟩ := List.mem_filterMap.mp hd
        split at hd
        next => rw [← Option.some.inj hd]; rfl
        next => cases hd
  rw [headingDecls, headingBindings]
  refine (noted_filter (· ≠ "_") _).symm ▸ List.Sublist.filter _ ?_
  have hresults : noted (parametersAs text names .result .result n) = [] :=
    noted_parametersAs_eq_nil text names rfl n
  rw [noted_append, noted_append, noted_append, htypes, List.nil_append, noted_boundAs rfl, hresults,
    List.append_nil]
  exact (noted_parametersAs_sublist text names rfl n).append_left _

/-- At each of the nodes what a walk takes note of, among the declarations in scope, has been met. -/
def Covered (met : List Binding) : List (Node × Scopes) → Prop
  | [] => True
  | (n, scopes) :: others =>
    (noted scopes.declared).Sublist met ∧ Covered (met ++ nodeBindings text names n) others

theorem covered_append {met : List Binding} {xs ys : List (Node × Scopes)} :
    Covered text names met (xs ++ ys) ↔ Covered text names met xs ∧
      Covered text names (met ++ (xs.map (·.1)).flatMap (nodeBindings text names)) ys := by
  induction xs generalizing met with
  | nil => simp [Covered]
  | cons x xs ih =>
    rw [List.cons_append, Covered, Covered, ih, List.map_cons, List.flatMap_cons, List.append_assoc,
      and_assoc]

theorem noted_declare {met : List Binding} {scopes : Scopes} (h : (noted scopes.declared).Sublist met)
    (n : Node) : (noted (scopes.declare (declarations text names n)).declared).Sublist
      (met ++ nodeBindings text names n) := by
  refine (noted_sublist (scopes.declared_declare _)).trans ?_
  rw [noted_append, noted_declarations]
  exact h.append_right _

mutual
/-- **A tree keeps what has been met ahead of what is in scope.** -/
theorem covered_situated (entry : List LocalDecl) (n : Node) {scopes : Scopes} {met : List Binding}
    (hscopes : (noted scopes.declared).Sublist met)
    (hentry : (noted (Scopes.declared (entry :: scopes))).Sublist met) :
    Covered text names met (situated text names entry n scopes).1 ∧
      (noted (situated text names entry n scopes).2.declared).Sublist
        (met ++ n.preorder.flatMap (nodeBindings text names)) := by
  obtain ⟨l, cs⟩ := n
  have hkeep : met.Sublist (met ++ nodeBindings text names (.node l cs)) := List.sublist_append_left _ _
  have hdeclared := noted_declare text names hscopes (.node l cs)
  have hinside : (noted (Scopes.declared (if scopeKinds.contains l.kind then entry :: scopes
      else if l.kind = .typeSpec ∨ l.kind = .typeAlias then
        scopes.declare (declarations text names (.node l cs))
      else scopes))).Sublist (met ++ nodeBindings text names (.node l cs)) := by
    split
    next => exact hentry.trans hkeep
    next =>
      split
      next => exact hdeclared
      next => exact hscopes.trans hkeep
  obtain ⟨hbelow, hafter⟩ := covered_situatedAll (.node l cs) cs hinside
  rw [situated, Node.preorder, List.flatMap_cons, ← List.append_assoc]
  refine ⟨⟨hscopes, hbelow⟩, ?_⟩
  dsimp only
  split
  next => exact (hscopes.trans hkeep).trans (List.sublist_append_left _ _)
  next hopen =>
    rw [if_neg hopen] at hafter
    split
    next => exact hdeclared.trans (List.sublist_append_left _ _)
    next => exact hafter

theorem covered_situatedAll (parent : Node) (ns : List Node) {scopes : Scopes} {met : List Binding}
    (hscopes : (noted scopes.declared).Sublist met) :
    Covered text names met (situatedAll text names parent ns scopes).1 ∧
      (noted (situatedAll text names parent ns scopes).2.declared).Sublist
        (met ++ (forestPreorder ns).flatMap (nodeBindings text names)) := by
  cases ns with
  | nil => exact ⟨trivial, by rwa [forestPreorder, List.flatMap_nil, List.append_nil]⟩
  | cons n ns =>
    have hentry : (noted (Scopes.declared (handedDown text names parent n :: scopes))).Sublist met := by
      rwa [Scopes.declared_cons, noted_append, noted_handedDown, List.append_nil]
    obtain ⟨hfirst, hafter⟩ := covered_situated (handedDown text names parent n) n hscopes hentry
    obtain ⟨hothers, hend⟩ := covered_situatedAll parent ns hafter
    rw [situatedAll, forestPreorder, List.flatMap_append, ← List.append_assoc]
    refine ⟨(covered_append text names).mpr ⟨hfirst, ?_⟩, hend⟩
    rwa [map_fst_situated]
end

theorem noted_of_mem_pointsAmong {met : List Binding} {nodes : List (Node × Scopes)}
    (h : Covered text names met nodes) {p : CallPoint} (hp : p ∈ pointsAmong text names met nodes) :
    (noted p.scopes.declared).Sublist p.met := by
  induction nodes generalizing met with
  | nil => cases hp
  | cons node nodes ih =>
    obtain ⟨n, scopes⟩ := node
    obtain ⟨hnode, hothers⟩ := h
    rcases List.mem_append.mp hp with hp | hp
    · split at hp
      next => rwa [List.mem_singleton.mp hp]
      next => cases hp
    · exact ih hothers hp

/-- At every call, what a walk takes note of among the declarations in scope has been met, in the same
order. -/
theorem noted_sublist_met {n : Node} {p : CallPoint} (hp : p ∈ callPoints text names n) :
    (noted p.scopes.declared).Sublist p.met := by
  rw [callPoints] at hp
  split at hp
  next body hbody =>
    have houter : (noted (Scopes.declared [])).Sublist (headingBindings text names n) :=
      List.nil_sublist _
    refine noted_of_mem_pointsAmong text names (covered_situated text names _ body houter ?_).1 hp
    rw [Scopes.declared_cons]
    exact noted_headingDecls text names n
  next => cases hp

theorem exists_before_of_mem_pointsAmong {met : List Binding} {nodes : List (Node × Scopes)} {p : CallPoint}
    (hp : p ∈ pointsAmong text names met nodes) : ∃ before after,
      nodes.map (·.1) = before ++ p.call :: after ∧
        p.met = met ++ before.flatMap (nodeBindings text names) := by
  induction nodes generalizing met with
  | nil => cases hp
  | cons node nodes ih =>
    obtain ⟨n, scopes⟩ := node
    rcases List.mem_append.mp hp with hp | hp
    · split at hp
      next =>
        obtain rfl := List.mem_singleton.mp hp
        exact ⟨[], nodes.map (·.1), rfl, (List.append_nil met).symm⟩
      next => cases hp
    · obtain ⟨before, after, hnodes, hmet⟩ := ih hp
      refine ⟨n :: before, after, by rw [List.map_cons, hnodes]; rfl, ?_⟩
      rw [hmet, List.flatMap_cons, List.append_assoc]

/-- What has been met before a call: the heading and the nodes of the body that begin before the call. -/
theorem exists_before {n : Node} {p : CallPoint} (hp : p ∈ callPoints text names n) :
    ∃ body before after, n.child? .body = some body ∧ body.preorder = before ++ p.call :: after ∧
      p.met = headingBindings text names n ++ before.flatMap (nodeBindings text names) := by
  rw [callPoints] at hp
  split at hp
  next body hbody =>
    obtain ⟨before, after, hnodes, hmet⟩ := exists_before_of_mem_pointsAmong text names hp
    exact ⟨body, before, after, hbody, (map_fst_situated text names _ body []).symm.trans hnodes, hmet⟩
  next => cases hp

theorem met_ne_blank {met : List Binding} (hmet : ∀ b ∈ met, b.1 ≠ "_") {nodes : List (Node × Scopes)}
    {p : CallPoint} (hp : p ∈ pointsAmong text names met nodes) : ∀ b ∈ p.met, b.1 ≠ "_" := by
  induction nodes generalizing met with
  | nil => cases hp
  | cons node nodes ih =>
    obtain ⟨n, scopes⟩ := node
    rcases List.mem_append.mp hp with hp | hp
    · split at hp
      next => rwa [List.mem_singleton.mp hp]
      next => cases hp
    · refine ih (List.forall_mem_append.mpr ⟨hmet, fun b hb => ?_⟩) hp
      exact of_decide_eq_true (List.mem_filter.mp hb).2

/-- No blank variable is bound. -/
theorem ne_blank_of_mem_callPoints {n : Node} {p : CallPoint} (hp : p ∈ callPoints text names n) :
    ∀ b ∈ p.met, b.1 ≠ "_" := by
  rw [callPoints] at hp
  split at hp
  next => exact met_ne_blank text names (fun b hb => of_decide_eq_true (List.mem_filter.mp hb).2) hp
  next => cases hp

end Met

end CodeGraph.Source
