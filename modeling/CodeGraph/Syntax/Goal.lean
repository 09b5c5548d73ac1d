import CodeGraph.Syntax.Reader

/-!
# What a grammar rule is asked for

* `NameLiterals` — which names may open a composite literal.  Where a block is to follow, the brace
  after a plain name is the block's.
* `Setting` — what may follow an expression: this decides how its last tokens are cut.
* `Goal` — the constituents that grammar rules ask each other for.  A rule is written against a
  `Rules` table, and the table is tied to the rules at the very end.
-/

namespace CodeGraph.Syntax

/-- Which names may open a composite literal. -/
inductive NameLiterals where
  | any
  | qualified
  | never
  deriving DecidableEq, Repr

/-- What may follow an expression. -/
structure Setting where
  /-- A line end closes the statement the expression ends. -/
  lineEnds : Bool
  /-- An assignment operator, an arrow, `++` or `--` may follow. -/
  steps : Bool
  literals : NameLiterals
  /-- `.(type)` may follow. -/
  typeSwitch : Bool
  deriving DecidableEq, Repr

namespace Setting

/-- Inside brackets of any kind nothing outside matters. -/
def enclosed : Setting := ⟨false, false, .any, false⟩

/-- At the end of a statement. -/
def closing : Setting := ⟨true, false, .any, false⟩

/-- At the start of a statement. -/
def opening : Setting := ⟨true, true, .any, false⟩

/-- Before the block of an `if`, `for` or `switch`. -/
def header (literals : NameLiterals) : Setting := ⟨false, true, literals, false⟩

end Setting

/-- A constituent that a rule asks for. -/
inductive Goal where
  /-- A type; a line end may close the statement it ends. -/
  | type (lineEnds : Bool)
  | expression (s : Setting)
  /-- Operands joined by binary operators of at least a level. -/
  | binary (s : Setting) (level : Nat)
  | operand (s : Setting)
  | parameters
  | arguments
  | literalValue
  | block
  | statement

/-- How each constituent is read. -/
abbrev Rules := Goal → Reader Node

/-- The words that open a type. -/
def typeWords : List String := ["func", "struct", "map", "chan", "interface"]

/-- The words that are values or functions by themselves. -/
def valueWords : List String := ["new", "make", "nil", "true", "false", "iota"]

/-- The words with a meaning of their own where an operand is expected. -/
def operandWords : List String := typeWords ++ valueWords

namespace Reader

/-- Elements closed by terminators, the last of which is free to have none. -/
def terminated (element : Reader Node) : Reader (List Node) :=
  optionalSeq do
    let first ← element
    let others ← many (do terminator; element)
    let _ ← maybe terminator
    pure (first :: others)

/-- A list in brackets with an optional comma before the closing one. -/
def bracketed (opening closing : String) (elements : Reader (List Node)) : Reader (List Node) :=
  parts [single (symbol opening), elements, optionally (symbol ","), single (symbol closing)]

end Reader

end CodeGraph.Syntax
