import CodeGraph.Syntax.Goal

/-!
# Types, parameters and fields

* `typeRule` — every form of a type.
* `parametersRule` — a parameter list: groups of names with one type, or types alone.
* `typeParameters`, `typeArguments`, `result` — the parts of generic and function types.
-/

namespace CodeGraph.Syntax

open Reader

/-! ### Parts of generic types -/

/-- Types joined by `|`. -/
def typeElem (rules : Rules) (kind : Kind) (lineEnds : Bool) : Reader Node :=
  build kind (separated (symbol "|") (rules (.type lineEnds)))

/-- The bracketed arguments of a generic type or function. -/
def typeArguments (rules : Rules) : Reader Node :=
  build .typeArguments
    (bracketed "[" "]" (separated (symbol ",") (typeElem rules .typeElem false)))

/-- Names with one constraint, before the next group or the end of the list. -/
def typeParameterDeclaration (rules : Rules) : Reader Node := do
  let n ← build .typeParameterDeclaration (parts [
    separated (symbol ",") (Node.inField .name <$> name .identifier []),
    as .type (typeElem rules .typeConstraint false)])
  guardThat fun i => ahead "," i || ahead "]" i
  pure n

def typeParameters (rules : Rules) : Reader Node :=
  build .typeParameterList
    (bracketed "[" "]" (separated (symbol ",") (typeParameterDeclaration rules)))

/-! ### Parameters and results -/

/-- Whether a type can start at the next lexeme. -/
def typeAhead (i : Input) : Bool :=
  let j := i.skip false
  Lexeme.identifierLength j.rest > 0 ||
    ["[", "*", "~", "<-"].any fun s => Lexeme.opensWith s j.rest

/-- What a function gives back: a parameter list, a type or nothing. -/
def result (rules : Rules) (lineEnds : Bool) : Reader (List Node) := do
  let i ← peek
  if lineEnds && i.atLineEnd then pure []
  else if ahead "(" i then as .result (rules .parameters)
  else if typeAhead i then as .result (rules (.type lineEnds))
  else pure []

/-- A comma or the end of a parameter list. -/
def parameterEnd : Reader Unit := guardThat fun i => ahead "," i || ahead ")" i

/-- A group of names with one type.  Behind a comma of the group even the words that open a type
are names: a group goes on as long as its last name is followed by a type. -/
def namedParameters (rules : Rules) : Reader Node := do
  let n ← build .parameterDeclaration (parts [
    as .name (name .identifier typeWords),
    moreSeparated (symbol ",") (Node.inField .name <$> name .identifier []),
    as .type (rules (.type false))])
  parameterEnd
  pure n

/-- A final parameter that takes any number of values. -/
def variadicParameter (rules : Rules) : Reader Node :=
  build .variadicParameterDeclaration (parts [
    optionally (Node.inField .name <$> name .identifier typeWords),
    single (symbol "..."),
    as .type (rules (.type false))])

/-- A parameter without a name. -/
def unnamedParameter (rules : Rules) : Reader Node := do
  let n ← build .parameterDeclaration (as .type (rules (.type false)))
  parameterEnd
  pure n

def parametersRule (rules : Rules) : Reader Node :=
  build .parameterList (bracketed "(" ")" (optionalSeq
    (separated (symbol ",")
      (namedParameters rules <|> variadicParameter rules <|> unnamedParameter rules))))

/-! ### Fields of structs and elements of interfaces -/

def rawStringLiteral : Reader Node := do
  let quote ← symbol "\x60"
  let i ← peek
  let content := (i.rest.takeWhile (· ≠ '\x60')).length
  let j := i.drop content
  fun _ => match j.rest with
    | '\x60' :: _ =>
      let k := j.accept 1
      .done (.branch .rawStringLiteral
        [quote, .leaf .rawStringLiteralContent i.place j.place, .leaf .token j.place k.place]) k
    | _ => .stuck (i.missAt quote.start)

/-- The pieces of an interpreted string up to its closing quote. -/
def stringPieces : Nat → Reader (List Node)
  | 0 => fail
  | fuel + 1 => fun i =>
    match i.rest with
    | '"' :: _ =>
      let j := i.accept 1
      .done [.leaf .token i.place j.place] j
    | cs =>
      let plain := (cs.takeWhile fun c => c ≠ '"' && c ≠ '\n' && c ≠ '\\').length
      let piece : Option (Kind × Nat) :=
        match Lexeme.escapeLength? cs with
        | some n => some (.escapeSequence, n)
        | none => if plain = 0 then none else some (.interpretedStringLiteralContent, plain)
      match piece with
      | some (kind, n) =>
        let j := i.drop n
        match stringPieces fuel j with
        | .done ps k => .done (.leaf kind i.place j.place :: ps) k
        | .stuck p => .stuck p
      | none => .stuck (i.missAt i.place)

def interpretedStringLiteral : Reader Node := do
  let quote ← symbol "\""
  let i ← peek
  let pieces ← stringPieces (i.rest.length + 1)
  pure (.branch .interpretedStringLiteral (quote :: pieces))

def stringLiteral : Reader Node := rawStringLiteral <|> interpretedStringLiteral

/-- A name that is not reserved, with the package it comes from or without. -/
def typeName (reserved : List String) (lineEnds : Bool) : Reader Node := do
  let n ← name .typeIdentifier reserved
  let i ← peek
  if aheadOn lineEnds "." i && !aheadOn lineEnds "..." i then
    let dot ← symbol "."
    let m ← name .typeIdentifier []
    pure (.branch .qualifiedType
      [(n.withKind .packageIdentifier).inField .package, dot, m.inField .name])
  else pure n

/-- A type, or what it becomes applied to the type arguments that follow. -/
def applied (rules : Rules) (lineEnds : Bool) (n : Node) : Reader Node := do
  if aheadOn lineEnds "[" (← peek) then
    build .genericType (parts [pure [n.inField .type], as .typeArguments (typeArguments rules)])
  else pure n

/-- A type name, or one applied to type arguments. -/
def namedType (rules : Rules) (reserved : List String) (lineEnds : Bool) : Reader Node := do
  applied rules lineEnds (← typeName reserved lineEnds)

/-- The end of a field or interface element, a tag in front of it not counted. -/
def memberEnd (i : Input) : Bool :=
  match (i.skip true).rest with
  | [] => true
  | c :: _ => ['\n', ';', '\x00', '}', '"', '\x60'].contains c

/-- A type by itself that the struct takes its fields and methods from.  No type but a named one
can stand here, so every word is a name. -/
def embeddedField (rules : Rules) : Reader (List Node) := do
  let star ← optionally (symbol "*")
  let n ← namedType rules [] true
  guardThat memberEnd
  pure (star ++ [n.inField .type])

/-- Names with one type. -/
def namedFields (rules : Rules) : Reader (List Node) :=
  parts [separated (symbol ",") (Node.inField .name <$> name .fieldIdentifier []),
    as .type (rules (.type true))]

/-- A tag on the line of its field. -/
def fieldTag : Reader (List Node) := do
  let i ← peek
  if i.atLineEnd then pure []
  else if ahead "\"" i || ahead "\x60" i then as .tag stringLiteral
  else pure []

def fieldDeclaration (rules : Rules) : Reader Node :=
  build .fieldDeclaration
    (parts [embeddedField rules <|> namedFields rules, fieldTag])

def fieldDeclarationList (rules : Rules) : Reader Node :=
  build .fieldDeclarationList (parts [
    single (symbol "\x7b"), terminated (fieldDeclaration rules), single (symbol "\x7d")])

/-- A method of an interface. -/
def methodElem (rules : Rules) : Reader Node := do
  let n ← name .fieldIdentifier typeWords
  guardThat (aheadOn true "(")
  build .methodElem (parts [
    pure [n.inField .name], as .parameters (rules .parameters), result rules true])

def interfaceBody (rules : Rules) : Reader (List Node) :=
  parts [single (symbol "\x7b"),
    terminated (methodElem rules <|> typeElem rules .typeElem true),
    single (symbol "\x7d")]

/-! ### Types -/

/-- A type that opens with a bracket: an array or a slice. -/
def bracketType (rules : Rules) (lineEnds : Bool) : Reader Node :=
  build .sliceType (parts [single (symbol "["), single (symbol "]"),
    as .element (rules (.type lineEnds))])
  <|> build .arrayType (parts [single (symbol "["),
    as .length (rules (.expression .enclosed)), single (symbol "]"),
    as .element (rules (.type lineEnds))])

/-- The array type of a composite literal that leaves its length to be counted. -/
def implicitLengthArrayType (rules : Rules) : Reader Node :=
  build .implicitLengthArrayType (parts [single (symbol "["), single (symbol "..."),
    single (symbol "]"), as .element (rules (.type false))])

def functionType (rules : Rules) (lineEnds : Bool) : Reader Node :=
  build .functionType (parts [single (keyword "func"),
    as .parameters (rules .parameters), result rules lineEnds])

def channelType (rules : Rules) (lineEnds : Bool) : Reader Node :=
  build .channelType (parts [single (keyword "chan"), optionally (symbol "<-"),
    as .value (rules (.type lineEnds))])
  <|> build .channelType (parts [single (symbol "<-"), single (keyword "chan"),
    as .value (rules (.type lineEnds))])

def mapType (rules : Rules) (lineEnds : Bool) : Reader Node :=
  build .mapType (parts [single (keyword "map"), single (symbol "["),
    as .key (rules (.type false)), single (symbol "]"),
    as .value (rules (.type lineEnds))])

def parenthesizedType (rules : Rules) : Reader Node :=
  build .parenthesizedType (parts [single (symbol "("), single (rules (.type false)),
    single (symbol ")")])

def typeRule (rules : Rules) (lineEnds : Bool) : Reader Node := do
  let i ← peek
  match wordAhead false i with
  | "func" => functionType rules lineEnds
  | "struct" =>
    build .structType (parts [single (keyword "struct"), single (fieldDeclarationList rules)])
  | "interface" =>
    build .interfaceType (parts [single (keyword "interface"), interfaceBody rules])
  | "map" => mapType rules lineEnds
  | "chan" => channelType rules lineEnds
  | _ =>
    if ahead "[" i then bracketType rules lineEnds
    else if ahead "*" i then
      build .pointerType (parts [single (symbol "*"), single (rules (.type lineEnds))])
    else if ahead "~" i then do
      let n ← build .negatedType (parts [single (symbol "~"), single (rules (.type lineEnds))])
      applied rules lineEnds n
    else if ahead "(" i then parenthesizedType rules
    else if ahead "<-" i then channelType rules lineEnds
    else namedType rules typeWords lineEnds

end CodeGraph.Syntax
