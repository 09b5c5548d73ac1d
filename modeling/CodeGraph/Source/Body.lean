import CodeGraph.Source.TypeText

/-!
# Bodies of functions

* `Scope` — the variables that a body has bound so far, and the types known of some of them.
* `callSite?` — what a call expression calls, as far as the variables and imports in scope tell.
* `BodyFacts`, `visitBody` — the complexity and the call sites of a body, gathered in one walk.
-/

namespace CodeGraph.Source

open Syntax

/-! ### Variables -/

/-- The variables bound so far.  A later binding of a name replaces an earlier one. -/
structure Scope where
  /-- The types known of variables, the latest first. -/
  typed : List (String × TypeName)
  bound : List String
  deriving Inhabited

namespace Scope

def empty : Scope := ⟨[], []⟩

/-- Bind a variable, with its type if that is known; `_` binds nothing. -/
def bind (s : Scope) (name : String) (type : Option TypeName) : Scope :=
  if name = "_" then s
  else
    let others := s.typed.filter (·.1 != name)
    ⟨match type with
      | some t => (name, t) :: others
      | none => others,
     if s.bound.contains name then s.bound else name :: s.bound⟩

/-- Bind several variables. -/
def bindAll (s : Scope) (bindings : List (String × Option TypeName)) : Scope :=
  bindings.foldl (fun s (name, type) => s.bind name type) s

def isBound (s : Scope) (name : String) : Bool := s.bound.contains name

def type? (s : Scope) (name : String) : Option TypeName := s.typed.lookup name

/-- Bind the parameters of a list. -/
def bindParameters (text : SourceText) (names : ImportNames) (s : Scope) (list : Node) : Scope :=
  s.bindAll (list.namedChildren.flatMap fun param =>
    let type := (param.child? .type).bind (typeName? text names)
    (textsIn text .name param).map fun name => (name, type))

end Scope

/-! ### Values -/

/-- The expressions of a list, or the one expression that is no list. -/
def expressionsOf (n : Node) : List Node :=
  if n.kind = .expressionList then n.namedChildren else [n]

mutual
/-- The type of a composite literal or of a pointer to one. -/
def literalType? (text : SourceText) (names : ImportNames) : Node → Option TypeName
  | .node l cs =>
    match l.kind with
    | .compositeLiteral => ((Node.node l cs).child? .type).bind (typeName? text names)
    | .unaryExpression =>
      if ((Node.node l cs).child? .operator).map text.textOf = some "&"
      then operandLiteralType? text names cs
      else none
    | _ => none

/-- The same for the first child in the role of the operand. -/
def operandLiteralType? (text : SourceText) (names : ImportNames) : List Node → Option TypeName
  | [] => none
  | c :: cs =>
    if c.field = some .operand then literalType? text names c
    else operandLiteralType? text names cs
end

/-- What `a, b := x, y` binds.  Types follow only if there are as many values as targets. -/
def shortBindings (text : SourceText) (names : ImportNames) (n : Node) :
    List (String × Option TypeName) :=
  let left := ((n.child? .left).map expressionsOf).getD []
  let right := ((n.child? .right).map expressionsOf).getD []
  left.zipIdx.filterMap fun (target, i) =>
    if target.kind = .identifier then
      some (text.textOf target,
        if left.length = right.length then right[i]?.bind (literalType? text names) else none)
    else none

/-- What a variable specification binds: with the type it states, or that of the value. -/
def varBindings (text : SourceText) (names : ImportNames) (n : Node) :
    List (String × Option TypeName) :=
  let stated := (n.child? .type).bind (typeName? text names)
  let values := ((n.child? .value).map expressionsOf).getD []
  (textsIn text .name n).zipIdx.map fun (name, i) =>
    (name, stated <|> values[i]?.bind (literalType? text names))

/-! ### Calls -/

/-- The kinds of type that stand in the place of a function only in a conversion. -/
def conversionKinds : List Kind :=
  [.sliceType, .arrayType, .mapType, .pointerType, .channelType, .interfaceType, .structType,
   .functionType, .qualifiedType]

/-- How much of a function expression is kept as the name of what it calls. -/
def calleeLimit : Nat := 64

/-- A call of a method or of a function of another package. -/
def selectorCall (text : SourceText) (names : ImportNames) (s : Scope) (operand : Node)
    (callee : String) (line : Nat) : CallSite :=
  let unknown : CallSite := ⟨callee, none, none, .method, line⟩
  if operand.kind = .identifier then
    let name := text.textOf operand
    match s.type? name with
    | some t => ⟨callee, t.qualifier, some t.name, .method, line⟩
    | none =>
      match if s.isBound name then none else names.lookup name with
      | some path => ⟨callee, some path, none, .direct, line⟩
      | none => unknown
  else unknown

/-- What a call expression calls; nothing for a conversion. -/
def callSite? (text : SourceText) (names : ImportNames) (s : Scope) (n : Node) :
    Option CallSite := do
  let function ← n.child? .function
  let line := n.startLine
  if function.kind = .identifier then
    let name := text.textOf function
    some ⟨name, none, none, if s.isBound name then .dynamic else .direct, line⟩
  else if function.kind = .selectorExpression then
    let operand ← function.child? .operand
    let field ← function.child? .field
    some (selectorCall text names s operand (text.textOf field) line)
  else if conversionKinds.contains function.kind then none
  else
    let shown := String.ofList ((normalText text function).toList.take calleeLimit)
    some ⟨shown, none, none, .dynamic, line⟩

/-! ### The walk -/

/-- The kinds of node that add a branch. -/
def branchKinds : List Kind :=
  [.ifStatement, .forStatement, .expressionCase, .typeCase, .communicationCase]

/-- Whether a node adds a branch: a condition, a loop, a case, or an operator that may leave its
right side out. -/
def addsBranch (text : SourceText) (n : Node) : Bool :=
  branchKinds.contains n.kind ||
    n.kind = .binaryExpression &&
      match (n.child? .operator).map text.textOf with
      | some o => o = "&&" || o = "||"
      | none => false

/-- What a walk over a body has gathered; call sites are in reverse. -/
structure BodyFacts where
  scope : Scope
  branches : Nat
  calls : List CallSite
  deriving Inhabited

/-- What one node of a body adds. -/
def visitBody (text : SourceText) (names : ImportNames) (facts : BodyFacts) (n : Node) :
    BodyFacts :=
  let branches := if addsBranch text n then facts.branches + 1 else facts.branches
  match n.kind with
  | .callExpression =>
    let calls := match callSite? text names facts.scope n with
      | some c => c :: facts.calls
      | none => facts.calls
    { facts with branches, calls }
  | .shortVarDeclaration =>
    { facts with branches, scope := facts.scope.bindAll (shortBindings text names n) }
  | .varSpec =>
    { facts with branches, scope := facts.scope.bindAll (varBindings text names n) }
  | _ => { facts with branches }

/-- What the body of a function shows, given the variables its heading binds. -/
def bodyFacts (text : SourceText) (names : ImportNames) (scope : Scope) (body : Option Node) :
    BodyFacts :=
  match body with
  | some b => b.walk (fun facts n => (visitBody text names facts n, .descend)) ⟨scope, 0, []⟩
  | none => ⟨scope, 0, []⟩

end CodeGraph.Source
