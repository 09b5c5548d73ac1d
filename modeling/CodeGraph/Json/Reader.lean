import CodeGraph.Decimal.Digits
import CodeGraph.Hash.Hex
import CodeGraph.Json.Basic

/-!
# Reading JSON text

* `Json.read?` — the value of a text, if it is one.
* A number without point and exponent is whole as long as it fits sixty-four bits; every other
  number is the double-precision number nearest to it, which must be finite.
-/

namespace CodeGraph.Json

/-- Skip blanks. -/
def skipBlanks (cs : List Char) : List Char :=
  cs.dropWhile fun c => c = ' ' || c = '\n' || c = '\r' || c = '\t'

/-- The value of four hexadecimal digits at the head. -/
def unit16? : List Char → Option (Nat × List Char)
  | a :: b :: c :: d :: rest => do
    let a ← Hash.hexValue? a
    let b ← Hash.hexValue? b
    let c ← Hash.hexValue? c
    let d ← Hash.hexValue? d
    pure (((a * 16 + b) * 16 + c) * 16 + d, rest)
  | _ => none

/-- The character of an escape behind its backslash; two units of a pair make one character. -/
def escape? : List Char → Option (Char × List Char)
  | 'u' :: rest => do
    let (high, rest) ← unit16? rest
    if 0xD800 ≤ high && high < 0xDC00 then
      match rest with
      | '\\' :: 'u' :: rest => do
        let (low, rest) ← unit16? rest
        if 0xDC00 ≤ low && low < 0xE000 then
          pure (Char.ofNat (0x10000 + (high - 0xD800) * 0x400 + (low - 0xDC00)), rest)
        else none
      | _ => none
    else if 0xDC00 ≤ high && high < 0xE000 then none
    else pure (Char.ofNat high, rest)
  | c :: rest =>
    (match c with
      | '"' => some '"'
      | '\\' => some '\\'
      | '/' => some '/'
      | 'b' => some '\x08'
      | 'f' => some '\x0c'
      | 'n' => some '\n'
      | 'r' => some '\r'
      | 't' => some '\t'
      | _ => none).map fun c => (c, rest)
  | [] => none

/-- The characters of a text up to its closing quote; `fuel` bounds their number. -/
def textBody? : (fuel : Nat) → List Char → List Char → Option (String × List Char)
  | 0, _, _ => none
  | _ + 1, _, [] => none
  | fuel + 1, back, c :: cs =>
    if c = '"' then some (String.ofList back.reverse, cs)
    else if c = '\\' then
      match escape? cs with
      | some (c, rest) => textBody? fuel (c :: back) rest
      | none => none
    else if c.toNat < 32 then none
    else textBody? fuel (c :: back) cs

/-- The digits at the head. -/
def digitsOf (cs : List Char) : List Char × List Char :=
  (cs.takeWhile Char.isDigit, cs.dropWhile Char.isDigit)

/-- The part of a number behind its point. -/
def fraction? : List Char → Option (List Char × List Char)
  | '.' :: cs =>
    match digitsOf cs with
    | ([], _) => none
    | part => some part
  | cs => some ([], cs)

/-- The exponent of a number, if it has one. -/
def exponent? : List Char → Option (Option Int × List Char)
  | c :: cs =>
    if c = 'e' || c = 'E' then
      let (negative, cs) := match cs with
        | '-' :: r => (true, r)
        | '+' :: r => (false, r)
        | r => (false, r)
      match digitsOf cs with
      | ([], _) => none
      | (ds, rest) =>
        let n : Int := Decimal.ofDigits ds
        some (some (if negative then -n else n), rest)
    else some (none, c :: cs)
  | [] => some (none, [])

/-- The double-precision number nearest to `digits * 10 ^ exponent`. -/
def scientific (negative : Bool) (digits : Nat) (exponent : Int) : Float :=
  let x := Float.ofScientific digits (exponent < 0) exponent.natAbs
  if negative then -x else x

/-- A number. -/
def number? (negative : Bool) (cs : List Char) : Option (Json × List Char) := do
  let (whole, rest) := digitsOf cs
  if whole.isEmpty || (whole.head? = some '0' && 1 < whole.length) then none
  let (part, rest) ← fraction? rest
  let (power, rest) ← exponent? rest
  let n := Decimal.ofDigits whole
  let fits := if negative then 0 < n && n ≤ 0x8000000000000000 else n < 0x10000000000000000
  if part.isEmpty && power.isNone && fits then pure (int (if negative then -n else n), rest)
  else
    let digits := Decimal.ofDigits (whole ++ part)
    let exponent : Int := power.getD 0 - part.length
    -- beyond these bounds the number is zero or infinite, whatever its exact exponent
    let exponent := max (-20000) (min 20000 exponent)
    let x := scientific negative digits exponent
    if x.isInf then none else pure (real x, rest)

mutual
/-- A value at the head of a text; `fuel` bounds the depth and the number of parts. -/
def value? : (fuel : Nat) → List Char → Option (Json × List Char)
  | 0, _ => none
  | fuel + 1, cs =>
    match skipBlanks cs with
    | 'n' :: 'u' :: 'l' :: 'l' :: rest => some (null, rest)
    | 't' :: 'r' :: 'u' :: 'e' :: rest => some (bool true, rest)
    | 'f' :: 'a' :: 'l' :: 's' :: 'e' :: rest => some (bool false, rest)
    | '"' :: rest => (textBody? (rest.length + 1) [] rest).map fun (s, rest) => (text s, rest)
    | '[' :: rest =>
      match skipBlanks rest with
      | ']' :: rest => some (list [], rest)
      | rest => items? fuel [] rest
    | '\x7b' :: rest =>
      match skipBlanks rest with
      | '\x7d' :: rest => some (object [], rest)
      | rest => members? fuel [] rest
    | '-' :: rest => number? true rest
    | rest => number? false rest

/-- The items of a list up to its closing bracket. -/
def items? : (fuel : Nat) → List Json → List Char → Option (Json × List Char)
  | 0, _, _ => none
  | fuel + 1, back, cs =>
    match value? fuel cs with
    | none => none
    | some (j, rest) =>
      match skipBlanks rest with
      | ',' :: rest => items? fuel (j :: back) rest
      | ']' :: rest => some (list (j :: back).reverse, rest)
      | _ => none

/-- The members of an object up to its closing brace. -/
def members? : (fuel : Nat) → List (String × Json) → List Char → Option (Json × List Char)
  | 0, _, _ => none
  | fuel + 1, back, cs =>
    match skipBlanks cs with
    | '"' :: rest =>
      match textBody? (rest.length + 1) [] rest with
      | none => none
      | some (key, rest) =>
        match skipBlanks rest with
        | ':' :: rest =>
          match value? fuel rest with
          | none => none
          | some (j, rest) =>
            match skipBlanks rest with
            | ',' :: rest => members? fuel ((key, j) :: back) rest
            | '\x7d' :: rest => some (object ((key, j) :: back).reverse, rest)
            | _ => none
        | _ => none
    | _ => none
end

/-- The value of a text. -/
def read? (s : String) : Option Json :=
  let cs := s.toList
  match value? (cs.length + 1) cs with
  | some (j, rest) => if (skipBlanks rest).isEmpty then some j else none
  | none => none

end CodeGraph.Json
