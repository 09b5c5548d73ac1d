import CodeGraph.Syntax.Declarations

/-!
# Statements

* `statementRule` — a statement, told by its first word where that is a keyword.
* `blockRule` — statements in braces, closed by terminators.
* The headers of `if`, `for` and `switch` end before a block.  There a brace after a qualified or
  generic name is read as a literal body if a block still follows, and as the block otherwise.
-/

namespace CodeGraph.Syntax

open Reader

/-! ### Simple statements -/

/-- What is assigned, after an operator that needs it. -/
def assigned (rules : Rules) (kind : Kind) (left : Node) (operator : Node) (s : Setting) :
    Reader Node := do
  let right ← expressionList rules s
  pure (.branch kind [left.inField .left, operator, right.inField .right])

/-- A statement that opens with expressions; `right` is the setting of what is assigned.  A line end
closes no statement after several of them, as these have to be assigned something. -/
def simpleStatement (rules : Rules) (s right : Setting) : Reader Node := indivisible do
  let list ← expressionList rules s
  let only := match list.children with
    | [n] => some n
    | _ => none
  match operatorAhead { s with lineEnds := s.lineEnds && only.isSome } (← peek), only with
  | some ":=", _ => assigned rules .shortVarDeclaration list (← symbol ":=") right
  | some "++", some n => build .incStatement (parts [pure [n], single (symbol "++")])
  | some "--", some n => build .decStatement (parts [pure [n], single (symbol "--")])
  | some "<-", some n =>
    build .sendStatement (parts [pure [n.inField .channel], single (symbol "<-"),
      as .value (rules (.expression right))])
  | some o, only =>
    if assignmentOperators.contains o then
      assigned rules .assignmentStatement list (Node.inField .operator (← symbol o)) right
    else match only with
      | some n => pure (.branch .expressionStatement [n])
      | none => fail
  | none, some n => pure (.branch .expressionStatement [n])
  | none, none => fail

/-! ### Blocks and labels -/

/-- Whether the statements of a block or case end here. -/
def statementsEnd (i : Input) : Bool :=
  ahead "\x7d" i || ["case", "default"].contains (wordAhead false i)

/-- A label with its statement, or without one at the end of a block. -/
def labeledStatement (rules : Rules) : Reader Node := do
  let label ← name .labelName []
  guardThat fun i => aheadOn true ":" i && !aheadOn true ":=" i
  let colon ← symbol ":"
  if statementsEnd (← peek) then
    pure (.branch .labeledStatement [label.inField .label, colon])
  else
    let body ← rules .statement
    pure (.branch .labeledStatement [label.inField .label, colon, body])

/-- Statements with terminators between them, if the first is not absent. -/
def statements (rules : Rules) (absent : Input → Bool) : Reader (List Node) :=
  optionalSeq do
    guardThat fun i => !absent i
    let first ← rules .statement
    let others ← many do
      terminator
      guardThat fun i => !statementsEnd i
      rules .statement
    let _ ← maybe terminator
    pure (first :: others)

/-- Statements in braces.  Nothing but a statement can follow the opening one, so there the words
that begin a case are names. -/
def blockRule (rules : Rules) : Reader Node :=
  build .block (parts [single (symbol "\x7b"), statements rules (ahead "\x7d"),
    single (symbol "\x7d")])

/-! ### Headers -/

/-- Read a header so that a block follows: names may open literals as far as that leaves one. -/
def beforeBlock (read : NameLiterals → Reader (List Node)) : Reader (List Node) :=
  let closed (literals : NameLiterals) : Reader (List Node) := do
    let ns ← read literals
    guardThat (ahead "\x7b")
    pure ns
  closed .qualified <|> closed .never

/-- A simple statement and its semicolon, before the rest of a header. -/
def initializer (rules : Rules) (s : Setting) : Reader (List Node) :=
  parts [as .initializer (simpleStatement rules s .enclosed), single (symbol ";")]

/-- A condition, behind an initializer or alone. -/
def ifHeader (rules : Rules) (literals : NameLiterals) : Reader (List Node) :=
  let s := Setting.header literals
  parts [optionalSeq (initializer rules s),
    as .condition (rules (.expression { s with steps := false }))]

/-- The branch for when the condition fails. -/
def elseBranch (rules : Rules) : Reader (List Node) := do
  let i ← peek
  if !i.atLineEnd && wordAhead true i = "else" then
    parts [single (keyword "else"), as .alternative
      (do if wordAhead false (← peek) = "if" then rules .statement else rules .block)]
  else pure []

def ifStatement (rules : Rules) : Reader Node :=
  build .ifStatement (parts [single (keyword "if"), beforeBlock (ifHeader rules),
    as .consequence (rules .block), elseBranch rules])

/-- What is ranged over, with the names it is assigned to. -/
def rangeClause (rules : Rules) (literals : NameLiterals) : Reader Node :=
  let s := Setting.header literals
  build .rangeClause (parts [
    optionalSeq (parts [as .left (expressionList rules s),
      single (symbol ":=" <|> symbol "=")]),
    single (keyword "range"),
    as .right (rules (.expression { s with steps := false }))])

/-- Start, condition and step of a loop. -/
def forClause (rules : Rules) (literals : NameLiterals) : Reader Node :=
  let s := Setting.header literals
  build .forClause (parts [
    optionally (Node.inField .initializer <$> simpleStatement rules s .enclosed),
    single (symbol ";"),
    optionally (Node.inField .condition <$> rules (.expression .enclosed)),
    single (symbol ";"),
    optionally (Node.inField .update <$> simpleStatement rules s { s with steps := false })])

def forHeader (rules : Rules) (literals : NameLiterals) : Reader (List Node) := do
  let i ← peek
  if ahead "\x7b" i then pure []
  else if wordAhead false i = "range" then single (rangeClause rules literals)
  else
    single (rangeClause rules literals)
    <|> single (forClause rules literals)
    <|> single (rules (.expression { Setting.header literals with steps := false }))

def forStatement (rules : Rules) : Reader Node :=
  build .forStatement (parts [single (keyword "for"), beforeBlock (forHeader rules),
    as .body (rules .block)])

/-! ### Cases -/

/-- A case: its own head, a colon and its statements. -/
def caseClause (rules : Rules) (kind : Kind) (head : Reader (List Node)) : Reader Node :=
  build kind (parts [head, single (symbol ":"), statements rules statementsEnd])

def defaultCase (rules : Rules) : Reader Node :=
  caseClause rules .defaultCase (single (keyword "default"))

def expressionCase (rules : Rules) : Reader Node :=
  caseClause rules .expressionCase (parts [single (keyword "case"),
    as .value (expressionList rules .enclosed)])

def typeCase (rules : Rules) : Reader Node :=
  caseClause rules .typeCase (parts [single (keyword "case"),
    separated (Node.inField .type <$> symbol ",") (Node.inField .type <$> rules (.type false))])

/-- A value received, with what it is assigned to, or a value sent. -/
def communication (rules : Rules) : Reader Node := do
  let s : Setting := { Setting.enclosed with steps := true }
  let list ← expressionList rules s
  let receive (parts' : List Node) : Reader Node := do
    let right ← rules (.expression .enclosed)
    pure (.branch .receiveStatement (parts' ++ [right.inField .right]))
  match operatorAhead s (← peek), list.children with
  | some ":=", _ => receive [list.inField .left, ← symbol ":="]
  | some "=", _ => receive [list.inField .left, ← symbol "="]
  | some "<-", [n] =>
    build .sendStatement (parts [pure [n.inField .channel], single (symbol "<-"),
      as .value (rules (.expression .enclosed))])
  | _, [n] => pure (.branch .receiveStatement [n.inField .right])
  | _, _ => fail

def communicationCase (rules : Rules) : Reader Node :=
  caseClause rules .communicationCase
    (parts [single (keyword "case"), as .communication (communication rules)])

/-- Cases in braces. -/
def cases (rules : Rules) (case : Reader Node) : Reader (List Node) :=
  indivisible <| parts [single (symbol "\x7b"), many (case <|> defaultCase rules), single (symbol "\x7d")]

/-! ### Switches -/

/-- The value whose type decides, with the name it is given. -/
def typeSwitchHeader (rules : Rules) (literals : NameLiterals) : Reader (List Node) :=
  let s := { Setting.header literals with steps := false, typeSwitch := true }
  parts [
    optionalSeq (initializer rules { Setting.header literals with typeSwitch := true }),
    optionalSeq (parts [as .aliases (expressionList rules (Setting.header literals)),
      single (symbol ":=")]),
    as .value (rules (.expression s)),
    single (symbol "."), single (symbol "("), single (keyword "type"), single (symbol ")")]

/-- The value that decides, if there is one. -/
def switchHeader (rules : Rules) (literals : NameLiterals) : Reader (List Node) :=
  let s := Setting.header literals
  parts [optionalSeq (initializer rules s),
    (do if ahead "\x7b" (← peek) then pure []
        else as .value (rules (.expression { s with steps := false })))]

def switchStatement (rules : Rules) : Reader Node :=
  build .typeSwitchStatement (parts [single (keyword "switch"),
    beforeBlock (typeSwitchHeader rules), cases rules (typeCase rules)])
  <|> build .expressionSwitchStatement (parts [single (keyword "switch"),
    beforeBlock (switchHeader rules), cases rules (expressionCase rules)])

def selectStatement (rules : Rules) : Reader Node :=
  build .selectStatement (parts [single (keyword "select"),
    cases rules (communicationCase rules)])

/-! ### Statements -/

/-- A jump with a label on the same line, or without one. -/
def jump (kind : Kind) (word : String) : Reader Node :=
  build kind (parts [single (keyword word),
    (do let i ← peek
        if i.atLineEnd || statementsEnd i then pure []
        else optionally (name .labelName []))])

def returnStatement (rules : Rules) : Reader Node :=
  build .returnStatement (parts [single (keyword "return"),
    (do let i ← peek
        let next := (i.skip true).rest.head?
        if statementsEnd i || [none, some '\n', some ';', some '\x00'].contains next then pure []
        else single (expressionList rules .closing))])

def statementRule (rules : Rules) : Reader Node := do
  let i ← peek
  match wordAhead false i with
  | "const" => constDeclaration rules
  | "type" => typeDeclaration rules
  | "var" => varDeclaration rules
  | "return" => returnStatement rules
  | "go" => build .goStatement (parts [single (keyword "go"), single (rules (.expression .closing))])
  | "defer" =>
    build .deferStatement (parts [single (keyword "defer"), single (rules (.expression .closing))])
  | "if" => ifStatement rules
  | "for" => forStatement rules
  | "switch" => switchStatement rules
  | "select" => selectStatement rules
  | "fallthrough" => build .fallthroughStatement (single (keyword "fallthrough"))
  | "break" => jump .breakStatement "break"
  | "continue" => jump .continueStatement "continue"
  | "goto" => build .gotoStatement (parts [single (keyword "goto"), single (name .labelName [])])
  | word =>
    if word ≠ "" && !operandWords.contains word then
      labeledStatement rules <|> simpleStatement rules .opening .closing
    else if ahead "\x7b" i then rules .block
    else if ahead ";" i then build .emptyStatement (single (symbol ";"))
    else simpleStatement rules .opening .closing

end CodeGraph.Syntax
