import CodeGraph.Text.Property.Identifier
import CodeGraph.Syntax.Kind

/-!
# Lexemes

The longest lexeme of each class at the head of a text, as the number of characters it takes.

* `identifierLength`, `numberLexeme?`, `runeLength?`, `escapeLength?`, `commentLength?`.
* `longestOf` — the longest of several spellings.
* `isSpace` — the white space between lexemes is ASCII white space.
-/

namespace CodeGraph.Syntax.Lexeme

open CodeGraph.Text

/-- The white space between lexemes. -/
def isSpace (c : Char) : Bool := c = ' ' || (9 ≤ c.toNat && c.toNat ≤ 13)

/-- Length of the identifier at the head, zero if there is none. -/
def identifierLength : List Char → Nat
  | [] => 0
  | c :: cs => if startsIdentifier c then (cs.takeWhile continuesIdentifier).length + 1 else 0

/-- Whether a text opens with a spelling. -/
def opensWith (s : String) (cs : List Char) : Bool := s.toList.isPrefixOf cs

/-- The longest of several spellings a text opens with. -/
def longestOf (spellings : List String) (cs : List Char) : Option String :=
  spellings.foldl (fun best s =>
    if opensWith s cs && (best.map (·.length)).getD 0 < s.length then some s else best) none

/-! ### Numbers -/

def isBinaryDigit (c : Char) : Bool := c = '0' || c = '1'
def isOctalDigit (c : Char) : Bool := '0' ≤ c && c ≤ '7'
def isDecimalDigit (c : Char) : Bool := '0' ≤ c && c ≤ '9'
def isHexDigit (c : Char) : Bool :=
  isDecimalDigit c || ('a' ≤ c && c ≤ 'f') || ('A' ≤ c && c ≤ 'F')

/-- Further digits, each after at most one underscore. -/
def moreDigits (digit : Char → Bool) : List Char → Nat
  | [] => 0
  | [c] => if digit c then 1 else 0
  | c :: d :: cs =>
    if digit c then moreDigits digit (d :: cs) + 1
    else if c = '_' && digit d then moreDigits digit cs + 2
    else 0

/-- A run of digits with single underscores between them; zero if the head is no digit. -/
def digitRun (digit : Char → Bool) : List Char → Nat
  | [] => 0
  | c :: cs => if digit c then moreDigits digit cs + 1 else 0

/-- A run of digits that may follow one underscore. -/
def markedRun (digit : Char → Bool) : List Char → Nat
  | '_' :: cs => match digitRun digit cs with
    | 0 => 0
    | n + 1 => n + 2
  | cs => digitRun digit cs

/-- Several lengths of which the longest counts. -/
def longest (ls : List (Option Nat)) : Option Nat :=
  ls.foldl (fun best l => match best, l with
    | some a, some b => some (max a b)
    | none, l => l
    | b, none => b) none

/-- A length that must not be zero. -/
def positive : Nat → Option Nat
  | 0 => none
  | n + 1 => some (n + 1)

/-- An integer: binary, octal, decimal or hexadecimal. -/
def integerLength? : List Char → Option Nat
  | '0' :: cs => longest [some 1,
      match cs with
      | c :: r =>
        if c = 'b' || c = 'B' then (positive (markedRun isBinaryDigit r)).map (· + 2)
        else if c = 'x' || c = 'X' then (positive (markedRun isHexDigit r)).map (· + 2)
        else if c = 'o' || c = 'O' then (positive (markedRun isOctalDigit r)).map (· + 2)
        else (positive (markedRun isOctalDigit cs)).map (· + 1)
      | [] => none]
  | c :: cs => if isDecimalDigit c then some (moreDigits isDecimalDigit cs + 1) else none
  | [] => none

/-- An exponent after one of two marks. -/
def exponentLength? (low high : Char) : List Char → Option Nat
  | c :: cs =>
    if c = low || c = high then
      match cs with
      | s :: r =>
        if s = '+' || s = '-' then (positive (digitRun isDecimalDigit r)).map (· + 2)
        else (positive (digitRun isDecimalDigit cs)).map (· + 1)
      | [] => none
    else none
  | [] => none

/-- A mantissa with what may follow it: the exponent, if there is one. -/
def withExponent (low high : Char) (n : Nat) (cs : List Char) : Nat :=
  n + (exponentLength? low high (cs.drop n)).getD 0

/-- A decimal number with a point or an exponent. -/
def decimalFloatLength? (cs : List Char) : Option Nat :=
  let whole := digitRun isDecimalDigit cs
  match cs.drop whole with
  | '.' :: r =>
    let part := digitRun isDecimalDigit r
    if whole = 0 && part = 0 then none else some (withExponent 'e' 'E' (whole + 1 + part) cs)
  | rest =>
    if whole = 0 then none else (exponentLength? 'e' 'E' rest).map (whole + ·)

/-- A hexadecimal number with a binary exponent. -/
def hexFloatLength? : List Char → Option Nat
  | '0' :: x :: cs =>
    if x = 'x' || x = 'X' then
      let whole := markedRun isHexDigit cs
      let mantissa : Option Nat := match cs.drop whole with
        | '.' :: r =>
          let part := digitRun isHexDigit r
          if whole = 0 && part = 0 then none else some (whole + 1 + part)
        | _ => positive whole
      mantissa.bind fun m => (exponentLength? 'p' 'P' (cs.drop m)).map (m + 2 + ·)
    else none
  | _ => none

/-- A number and its class: an integer, a floating-point number, or either followed by `i`. -/
def numberLexeme? (cs : List Char) : Option (Kind × Nat) :=
  let int := integerLength? cs
  let float := longest [decimalFloatLength? cs, hexFloatLength? cs]
  let imaginary := longest ([int, float, positive (digitRun isDecimalDigit cs)].map fun l =>
    l.bind fun n => if (cs.drop n).head? = some 'i' then some (n + 1) else none)
  match longest [int, float, imaginary] with
  | none => none
  | some n =>
    if imaginary = some n then some (.imaginaryLiteral, n)
    else if float = some n then some (.floatLiteral, n)
    else some (.intLiteral, n)

/-! ### Characters and strings -/

/-- The first `n` characters when all are there and all are hexadecimal digits. -/
def hexDigits (n : Nat) (cs : List Char) : Bool :=
  (cs.take n).length = n && (cs.take n).all isHexDigit

/-- A rune literal. -/
def runeLength? : List Char → Option Nat
  | '\'' :: '\\' :: cs =>
    let body : Option Nat := match cs with
      | 'x' :: r => if hexDigits 2 r then some 3 else none
      | 'u' :: r => if hexDigits 4 r then some 5 else none
      | 'U' :: r => if hexDigits 8 r then some 9 else none
      | c :: r =>
        if isOctalDigit c then
          if (r.take 2).length = 2 && (r.take 2).all isOctalDigit then some 3 else none
        else if ['a', 'b', 'f', 'n', 'r', 't', 'v', '\\', '\'', '"'].contains c then some 1
        else none
      | [] => none
    body.bind fun n => if (cs.drop n).head? = some '\'' then some (n + 3) else none
  | '\'' :: c :: '\'' :: _ => if c = '\'' then none else some 3
  | _ => none

/-- An escape sequence of an interpreted string, backslash included. -/
def escapeLength? : List Char → Option Nat
  | '\\' :: c :: cs =>
    if c = 'x' then
      let n := (cs.takeWhile isHexDigit).length
      if 2 ≤ n then some (n + 2) else none
    else if c = 'u' then if hexDigits 4 cs then some 6 else none
    else if c = 'U' then if hexDigits 8 cs then some 10 else none
    else if isDecimalDigit c then some (min 3 ((cs.takeWhile isDecimalDigit).length + 1) + 1)
    else some 2
  | _ => none

/-- Distance to the end of the first closing mark of a block comment. -/
def blockEnd? : List Char → Option Nat
  | '*' :: '/' :: _ => some 2
  | _ :: cs => (blockEnd? cs).map (· + 1)
  | [] => none

/-- A comment, from its opening mark; a line comment leaves the line end out. -/
def commentLength? : List Char → Option Nat
  | '/' :: '/' :: cs => some ((cs.takeWhile (· ≠ '\n')).length + 2)
  | '/' :: '*' :: cs => (blockEnd? cs).map (· + 2)
  | _ => none

end CodeGraph.Syntax.Lexeme
