import CodeGraph.Syntax.Expressions

/-!
# Declarations

* `declaration` — constants, variables and types, singly or in a group; these are statements too.
* `topLevelDeclaration` — package clauses, imports, functions and methods.
* Each specification of a group of constants, variables or types needs its terminator, the last one
  of an import group does not.
-/

namespace CodeGraph.Syntax

open Reader

/-! ### Constants, variables and types -/

/-- Specifications in parentheses, each with its terminator. -/
def group (spec : Reader Node) : Reader (List Node) :=
  indivisible <| parts [single (symbol "("), many (do let n ← spec; terminator; pure n), single (symbol ")")]

/-- The values of a specification. -/
def specValues (rules : Rules) : Reader (List Node) :=
  parts [single (symbol "="), as .value (expressionList rules .closing)]

/-- Names, each on its own or all with one type, and their values; commas count among the names. -/
def constSpec (rules : Rules) : Reader Node := indivisible do
  let names ← separated (do guardThat (aheadOn true ","); Node.inField .name <$> symbol ",")
    (Node.inField .name <$> name .identifier [])
  if (← peek).atLineEnd then pure (.branch .constSpec names)
  else
    build .constSpec (parts [pure names,
      optionalSeq (specValues rules <|> parts [as .type (rules (.type false)), specValues rules])])

def varSpec (rules : Rules) : Reader Node := indivisible do
  let names ← separated (symbol ",") (Node.inField .name <$> name .identifier [])
  if ahead "=" (← peek) then build .varSpec (parts [pure names, specValues rules])
  else
    let type ← rules (.type true)
    if aheadOn true "=" (← peek) then
      build .varSpec (parts [pure names, pure [type.inField .type], specValues rules])
    else pure (.branch .varSpec (names ++ [type.inField .type]))

/-- A name for a type: another name for it, a type of its own or a generic one. -/
def typeSpec (rules : Rules) : Reader Node := do
  let n ← Node.inField .name <$> name .typeIdentifier []
  build .typeAlias (parts [pure [n], single (symbol "="), as .type (rules (.type true))])
  <|> build .typeSpec (parts [pure [n], as .type (rules (.type true))])
  <|> build .typeSpec (parts [pure [n], as .typeParameters (typeParameters rules),
    as .type (rules (.type true))])

def constDeclaration (rules : Rules) : Reader Node :=
  build .constDeclaration (parts [single (keyword "const"),
    group (constSpec rules) <|> single (constSpec rules)])

def varDeclaration (rules : Rules) : Reader Node :=
  build .varDeclaration (parts [single (keyword "var"),
    single (build .varSpecList (group (varSpec rules))) <|> single (varSpec rules)])

def typeDeclaration (rules : Rules) : Reader Node :=
  build .typeDeclaration (parts [single (keyword "type"),
    group (typeSpec rules) <|> single (typeSpec rules)])

/-! ### Package clauses and imports -/

def packageClause : Reader Node :=
  build .packageClause (parts [single (keyword "package"), single (name .packageIdentifier [])])

/-- The name that an import is given in the file. -/
def importName : Reader Node := do
  if ahead "." (← peek) then Node.withKind .dotName <$> symbol "."
  else if wordAhead false (← peek) = "_" then Node.withKind .blankIdentifier <$> keyword "_"
  else name .packageIdentifier []

def importSpec : Reader Node :=
  indivisible <| build .importSpec (parts [optionally (Node.inField .name <$> importName), as .path stringLiteral])

def importDeclaration : Reader Node :=
  build .importDeclaration (parts [single (keyword "import"),
    single (build .importSpecList
      (parts [single (symbol "("), terminated importSpec, single (symbol ")")]))
    <|> single importSpec])

/-! ### Functions and methods -/

/-- The body of a function on the line of its heading. -/
def functionBody (rules : Rules) : Reader (List Node) := do
  if aheadOn true "\x7b" (← peek) then as .body (rules .block) else pure []

def functionDeclaration (rules : Rules) : Reader Node :=
  build .functionDeclaration (parts [single (keyword "func"), as .name (name .identifier []),
    (do if ahead "[" (← peek) then as .typeParameters (typeParameters rules) else pure []),
    as .parameters (rules .parameters), result rules true, functionBody rules])

def methodDeclaration (rules : Rules) : Reader Node :=
  build .methodDeclaration (parts [single (keyword "func"), as .receiver (rules .parameters),
    as .name (name .fieldIdentifier []), as .parameters (rules .parameters), result rules true,
    functionBody rules])

/-- The declarations that stand only at the top level of a file. -/
def topLevelDeclaration (rules : Rules) : Reader Node := do
  match wordAhead false (← peek) with
  | "package" => packageClause
  | "import" => importDeclaration
  | "func" => methodDeclaration rules <|> functionDeclaration rules
  | _ => fail

end CodeGraph.Syntax
