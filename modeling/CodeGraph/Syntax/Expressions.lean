import CodeGraph.Syntax.Types

/-!
# Expressions

* `binaryRule` — operands joined by binary operators, five levels, each grouping to the left.
* `operandRule` — a unary operator with its operand, or a primary expression: a base and then
  selectors, indexes, slices, assertions, calls and literal bodies as long as they follow.
* A type applied to exactly one argument is a conversion.  A name with type arguments counts as a
  type wherever it can be read as one, so `g[t](x)` is a conversion and `g[t](x, y)` a call.
-/

namespace CodeGraph.Syntax

open Reader

/-! ### Operators -/

/-- The binary operators with their levels; a higher level binds tighter. -/
def binaryOperators : List (String × Nat) :=
  [("*", 5), ("/", 5), ("%", 5), ("<<", 5), (">>", 5), ("&", 5), ("&^", 5),
   ("+", 4), ("-", 4), ("|", 4), ("^", 4),
   ("==", 3), ("!=", 3), ("<", 3), ("<=", 3), (">", 3), (">=", 3),
   ("&&", 2), ("||", 1)]

/-- The operators that assign to what is on their left. -/
def assignmentOperators : List String :=
  ["=", "*=", "/=", "%=", "<<=", ">>=", "&=", "&^=", "+=", "-=", "|=", "^="]

/-- The operators that may follow the first expression of a statement, beside the binary ones. -/
def stepOperators : List String := assignmentOperators ++ [":=", "<-", "++", "--"]

/-- The operator ahead, among those that may follow here. -/
def operatorAhead (s : Setting) (i : Input) : Option String :=
  let spellings := binaryOperators.map (·.1)
  Lexeme.longestOf (if s.steps then spellings ++ stepOperators else spellings)
    (i.skip s.lineEnds).rest

/-- A binary operator of at least a level, with its level. -/
def binaryOperator (s : Setting) (level : Nat) : Reader (Node × Nat) := do
  match (operatorAhead s (← peek)).bind fun o => binaryOperators.find? (·.1 == o) with
  | some (o, l) =>
    guardThat fun _ => level ≤ l
    let n ← symbol o
    pure (n, l)
  | none => fail

/-- Operands joined by operators of at least a level. -/
def binaryRule (rules : Rules) (s : Setting) (level : Nat) : Reader Node := do
  let first ← rules (.operand s)
  let inner := { s with typeSwitch := false }
  let others ← many do
    let (o, l) ← binaryOperator s level
    let right ← rules (.binary inner (l + 1))
    pure (o, right)
  pure (others.foldl (fun left (o, right) =>
    .branch .binaryExpression
      [left.inField .left, o.inField .operator, right.inField .right]) first)

/-- Expressions separated by commas, as a node of their own. -/
def expressionList (rules : Rules) (s : Setting) : Reader Node :=
  build .expressionList (separated
    (do guardThat (aheadOn s.lineEnds ","); symbol ",") (rules (.expression s)))

/-! ### Arguments and literal bodies -/

def argument (rules : Rules) : Reader Node := do
  let n ← rules (.expression .enclosed)
  if ahead "..." (← peek) then
    build .variadicArgument (parts [pure [n], single (symbol "...")])
  else pure n

def argumentsRule (rules : Rules) : Reader Node :=
  build .argumentList
    (parts [single (symbol "("),
      optionalSeq (parts [separated (symbol ",") (argument rules), optionally (symbol ",")]),
      single (symbol ")")])

/-- The arguments of `new` and `make`: a type, then expressions. -/
def specialArguments (rules : Rules) : Reader Node :=
  build .argumentList
    (parts [single (symbol "("),
      optionalSeq (parts [single (rules (.type false)),
        moreSeparated (symbol ",") (rules (.expression .enclosed)), optionally (symbol ",")]),
      single (symbol ")")])

def literalElement (rules : Rules) : Reader Node := do
  if ahead "\x7b" (← peek) then build .literalElement (single (rules .literalValue))
  else build .literalElement (single (rules (.expression .enclosed)))

/-- An element of a literal, with a key or without. -/
def elementOrKeyed (rules : Rules) : Reader Node := do
  let n ← literalElement rules
  if ahead ":" (← peek) then
    build .keyedElement (parts [pure [n.inField .key], single (symbol ":"),
      as .value (literalElement rules)])
  else pure n

def literalValueRule (rules : Rules) : Reader Node :=
  build .literalValue (bracketed "\x7b" "\x7d" (optionalSeq
    (separated (symbol ",") (elementOrKeyed rules))))

/-! ### Names read as types and back -/

/-- A name read as a type. -/
def Node.asType? (n : Node) : Option Node :=
  match n.kind, n.children with
  | .identifier, _ => some (n.withKind .typeIdentifier)
  | .selectorExpression, [operand, dot, member] =>
    if operand.kind = .identifier then
      some (.branch .qualifiedType [(operand.withKind .packageIdentifier).inField .package, dot,
        (member.withKind .typeIdentifier).inField .name])
    else none
  | _, _ => none

/-- A type name read as an expression. -/
def Node.asExpression (n : Node) : Node :=
  match n.kind, n.children with
  | .qualifiedType, [package, dot, member] =>
    .branch .selectorExpression [(package.withKind .identifier).inField .operand, dot,
      (member.withKind .fieldIdentifier).inField .field]
  | _, _ => n.withKind .identifier

/-- A composite literal of a type. -/
def compositeLiteral (rules : Rules) (type : Node) : Reader Node :=
  build .compositeLiteral (parts [pure [type.inField .type], as .body (rules .literalValue)])

/-- What is applied when a type is called with exactly one plain argument: a conversion. -/
def conversion? (type arguments : Node) : Option Node :=
  match arguments.children.filter Node.isNamed with
  | [a] =>
    if a.kind = .variadicArgument then none
    else some (.branch .typeConversionExpression (type.inField .type ::
      arguments.children.map fun c => if c.isNamed then c.inField .operand else c))
  | _ => none

/-! ### Operands that open with a type -/

/-- The type inside any pointers and parentheses around it. -/
def innermostKind : Nat → Node → Kind
  | 0, n => n.kind
  | fuel + 1, n =>
    if n.kind = .pointerType || n.kind = .parenthesizedType then
      match n.namedChildren.head? with
      | some inner => innermostKind fuel inner
      | none => n.kind
    else n.kind

/-- Whether a type can be nothing but a type; a name, also behind pointers and parentheses, can be an
expression. -/
def isPlainName (n : Node) : Bool :=
  match innermostKind n.size n with
  | .typeIdentifier | .qualifiedType => true
  | _ => false

/-- Whether the text ahead, past stars and opening parentheses, can be a type that is not just a
name. -/
def typeOpens : Nat → Input → Bool
  | 0, _ => false
  | fuel + 1, i =>
    let j := i.skip false
    match j.rest with
    | '(' :: _ => typeOpens fuel (j.drop 1)
    | '*' :: _ => typeOpens fuel (j.drop 1)
    | '[' :: _ => true
    | '~' :: _ => true
    | '<' :: '-' :: _ => wordAhead false (j.drop 2) = "chan"
    | _ =>
      match Lexeme.identifierLength j.rest with
      | 0 => false
      | n =>
        if typeWords.contains j.word then true
        else if valueWords.contains j.word then false
        else
          let k := (j.drop n).skip false
          match k.rest with
          | '[' :: _ => true
          | '.' :: _ =>
            let l := (k.drop 1).skip false
            match ((l.drop (Lexeme.identifierLength l.rest)).skip false).rest with
            | '[' :: _ => true
            | _ => false
          | _ => false

/-- The kinds of type a composite literal can have beside names. -/
def literalKinds : List Kind := [.mapType, .sliceType, .arrayType, .structType]

/-- An operand that opens with a type: a literal, a conversion, a call with type arguments or an
instantiation. -/
def typedOperand (rules : Rules) (s : Setting) : Reader Node := do
  guardThat fun i => typeOpens (i.rest.length + 1) i
  (do let t ← implicitLengthArrayType rules
      compositeLiteral rules t)
  <|> do
    let t ← rules (.type false)
    if isPlainName t then fail
    else do
      let i ← peek
      let generic := innermostKind t.size t = .genericType
      let lineEnds := s.lineEnds && generic
      if aheadOn lineEnds "\x7b" i &&
          (literalKinds.contains t.kind || (t.kind = .genericType && s.literals != .never)) then
        compositeLiteral rules t
      else if aheadOn lineEnds "(" i then do
        let arguments ← rules .arguments
        match conversion? t arguments with
        | some n => pure n
        | none =>
          match t.kind, t.children with
          | .genericType, [callee, typeArgs] =>
            pure (.branch .callExpression [callee.asExpression.inField .function,
              typeArgs, arguments.inField .arguments])
          | _, _ => fail
      else if !generic && aheadOn lineEnds "[" i then
        build .typeInstantiationExpression (parts [pure [t.inField .type],
          bracketed "[" "]" (separated (symbol ",") (rules (.type false)))])
      else fail

/-! ### Primary expressions -/

def functionLiteral (rules : Rules) : Reader Node :=
  build .funcLiteral (parts [single (keyword "func"), as .parameters (rules .parameters),
    result rules false, as .body (rules .block)])

/-- A call of `new` or `make`, or just the word. -/
def allocation (rules : Rules) (s : Setting) (word : String) : Reader Node := do
  let n ← Node.withKind .identifier <$> keyword word
  if aheadOn s.lineEnds "(" (← peek) then
    build .callExpression (parts [pure [n.inField .function],
      as .arguments (specialArguments rules)])
  else pure n

def numberLiteral : Reader Node := do
  match Lexeme.numberLexeme? ((← peek).skip false).rest with
  | some (kind, n) => lexeme kind fun _ => n
  | none => fail

/-- The expression that a primary expression starts with. -/
def primaryBase (rules : Rules) (s : Setting) : Reader Node := do
  let i ← peek
  match wordAhead false i with
  | "func" => functionLiteral rules
  | "new" => allocation rules s "new"
  | "make" => allocation rules s "make"
  | "nil" => Node.withKind .nilWord <$> keyword "nil"
  | "true" => Node.withKind .trueWord <$> keyword "true"
  | "false" => Node.withKind .falseWord <$> keyword "false"
  | "iota" => Node.withKind .iotaWord <$> keyword "iota"
  | "" =>
    if ahead "(" i then
      build .parenthesizedExpression (parts [single (symbol "("),
        single (rules (.expression .enclosed)), single (symbol ")")])
    else if ahead "\"" i || ahead "\x60" i then stringLiteral
    else if ahead "'" i then
      lexeme .runeLiteral fun cs => (Lexeme.runeLength? cs).getD 0
    else numberLiteral
  | _ => name .identifier operandWords

/-- An index or a slice of an operand. -/
def indexOrSlice (rules : Rules) (n : Node) : Reader Node := do
  let opening ← symbol "["
  let first ← optionally (rules (.expression .enclosed))
  if ahead ":" (← peek) then
    let one ← symbol ":"
    let second ← optionally (rules (.expression .enclosed))
    let third ← if second.isEmpty then pure [] else optionalSeq (parts [
      single (symbol ":"), as .capacity (rules (.expression .enclosed))])
    let closing ← symbol "]"
    pure (.branch .sliceExpression ([n.inField .operand, opening] ++ first.map (Node.inField .start)
      ++ [one] ++ second.map (Node.inField .finish) ++ third ++ [closing]))
  else if first.isEmpty then fail
  else
    let closing ← symbol "]"
    pure (.branch .indexExpression
      ([n.inField .operand, opening] ++ first.map (Node.inField .index) ++ [closing]))

/-- A call with type arguments. -/
def instantiatedCall (rules : Rules) (s : Setting) (n : Node) : Reader Node := do
  guardThat fun i => !valueWords.contains (wordAhead false ((i.skip false).drop 1))
  let typeArgs ← typeArguments rules
  guardThat (aheadOn s.lineEnds "(")
  let arguments ← rules .arguments
  pure (.branch .callExpression [n.inField .function, typeArgs.inField .typeArguments,
    arguments.inField .arguments])

/-- A name with a list of types, standing alone. -/
def instantiation (rules : Rules) (n : Node) : Reader Node := do
  let type : Option Node :=
    match n.kind, n.children with
    | .parenthesizedExpression, [opening, inner, closing] =>
      inner.asType?.map fun t => .branch .parenthesizedType [opening, t, closing]
    | _, _ => n.asType?
  match type with
  | some t =>
    build .typeInstantiationExpression (parts [pure [t.inField .type],
      bracketed "[" "]" (separated (symbol ",") (rules (.type false)))])
  | none => fail

/-- What brackets after an operand make of it. -/
def bracketSuffix (rules : Rules) (n : Node) : Reader Node := do
  match ← maybe (indexOrSlice rules n) with
  | some m => pure m
  | none => instantiation rules n

/-- One more suffix of a primary expression. -/
def suffix (rules : Rules) (s : Setting) (n : Node) : Reader Node := do
  let i ← peek
  if s.lineEnds && i.atLineEnd then fail
  else
    match (i.skip false).rest with
    | '.' :: '.' :: '.' :: _ => fail
    | '.' :: _ =>
      let j := (i.skip false).drop 1
      if ahead "(" j then
        let k := (j.skip false).drop 1
        if s.typeSwitch && wordAhead false k = "type" then fail
        else
          build .typeAssertionExpression (parts [pure [n.inField .operand], single (symbol "."),
            single (symbol "("), as .type (rules (.type false)), single (symbol ")")])
      else
        build .selectorExpression (parts [pure [n.inField .operand], single (symbol "."),
          as .field (name .fieldIdentifier [])])
    | '(' :: _ =>
      build .callExpression (parts [pure [n.inField .function], as .arguments (rules .arguments)])
    | '[' :: _ => instantiatedCall rules s n <|> bracketSuffix rules n
    | '{' :: _ =>
      match n.kind, n.asType? with
      | .identifier, some t => if s.literals = .any then compositeLiteral rules t else fail
      | _, some t => if s.literals = .never then fail else compositeLiteral rules t
      | _, none => fail
    | _ => fail

/-- All the suffixes that follow. -/
def suffixes (rules : Rules) (s : Setting) : Nat → Node → Reader Node
  | 0, n => pure n
  | fuel + 1, n => fun i =>
    match suffix rules s n i with
    | .done m j => suffixes rules s fuel m j
    | .stuck p => .done n { i with reach := i.reach.later p }

/-- The unary operators. -/
def unaryOperators : List String := ["+", "-", "!", "^", "*", "&", "<-"]

/-- An operand with its suffixes.  The words for allocation name no type, so no literal opens
with them. -/
def operandRule (rules : Rules) (s : Setting) : Reader Node := do
  let i ← peek
  let fuel := i.rest.length + 1
  let s := if ["new", "make"].contains (wordAhead false i) then { s with literals := .never } else s
  (do suffixes rules s fuel (← typedOperand rules s))
  <|> do
    match Lexeme.longestOf unaryOperators ((← peek).skip false).rest with
    | some o =>
      build .unaryExpression (parts [as .operator (symbol o),
        as .operand (rules (.operand { s with typeSwitch := false }))])
    | none => suffixes rules s fuel (← primaryBase rules s)

def expressionRule (rules : Rules) (s : Setting) : Reader Node := rules (.binary s 1)

end CodeGraph.Syntax
