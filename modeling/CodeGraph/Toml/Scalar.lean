import CodeGraph.Hash.Hex
import CodeGraph.Json.Reader
import CodeGraph.Time.Instant

/-!
# Scalars of TOML

* `quotedText?` — texts in double and single quotes, over one line or several.
* `number?` — whole numbers to several bases, and other numbers, with `_` between digits.
* `date?` — dates, times and both; what they say is not kept.
* `scalar?` — the value of a word that stands without quotes.
-/

namespace CodeGraph.Toml

/-- Blanks within a line. -/
def isBlank (c : Char) : Bool := c = ' ' || c = '\t'

/-- Whether a character may stand in a text or comment as it is; line ends are not among them. -/
def isPlain (c : Char) : Bool := c = '\t' || (32 ≤ c.toNat && c.toNat ≠ 127)

/-- The text behind a line end, if there is one at the head. -/
def lineEnd? : List Char → Option (List Char)
  | '\n' :: cs => some cs
  | '\r' :: '\n' :: cs => some cs
  | _ => none

/-! ### Texts -/

/-- The character that some hexadecimal digits stand for. -/
def codePoint? (count : Nat) (cs : List Char) : Option (Char × List Char) := do
  let ds := cs.take count
  if ds.length < count then none
  let n ← ds.foldlM (fun n c => do pure (n * 16 + (← Hash.hexValue? c))) 0
  if n.isValidChar then pure (Char.ofNat n, cs.drop count) else none

/-- The character of an escape behind its backslash. -/
def escape? : List Char → Option (Char × List Char)
  | 'b' :: cs => some ('\x08', cs)
  | 't' :: cs => some ('\t', cs)
  | 'n' :: cs => some ('\n', cs)
  | 'f' :: cs => some ('\x0c', cs)
  | 'r' :: cs => some ('\r', cs)
  | '"' :: cs => some ('"', cs)
  | '\\' :: cs => some ('\\', cs)
  | 'u' :: cs => codePoint? 4 cs
  | 'U' :: cs => codePoint? 8 cs
  | _ => none

/-- The text behind a backslash at the end of a line: line ends and blanks are left out. -/
def continued? (cs : List Char) : Option (List Char) := do
  let rest ← lineEnd? (cs.dropWhile isBlank)
  let rec skip : Nat → List Char → List Char
    | 0, cs => cs
    | fuel + 1, cs =>
      match lineEnd? (cs.dropWhile isBlank) with
      | some rest => skip fuel rest
      | none => cs.dropWhile isBlank
  pure (skip rest.length rest)

/-- How a text is closed: by one quote on its line, or by three on any line. -/
inductive Closing where
  | single
  | triple
  deriving DecidableEq

/-- The rest behind the closing quotes at the head, and the quotes before them that belong to the
text. -/
def closed? (closing : Closing) (quote : Char) (cs : List Char) : Option (List Char × List Char) :=
  match closing with
  | .single => if cs.head? = some quote then some ([], cs.tail) else none
  | .triple =>
    let count := ((cs.take 5).takeWhile (· = quote)).length
    if 3 ≤ count then some (List.replicate (count - 3) quote, cs.drop count) else none

/-- The characters of a text up to its closing quotes; `escapes` says whether a backslash is an
escape, and `fuel` bounds the number of characters. -/
def textBody? (closing : Closing) (quote : Char) (escapes : Bool) :
    (fuel : Nat) → List Char → List Char → Option (String × List Char)
  | 0, _, _ => none
  | fuel + 1, back, cs =>
    match closed? closing quote cs with
    | some (quotes, rest) => some (String.ofList (back.reverse ++ quotes), rest)
    | none =>
      match cs with
      | [] => none
      | c :: rest =>
        if c = '\\' && escapes then
          match escape? rest with
          | some (e, rest) => textBody? closing quote escapes fuel (e :: back) rest
          | none =>
            if closing = .triple then do
              textBody? closing quote escapes fuel back (← continued? rest)
            else none
        else if isPlain c then textBody? closing quote escapes fuel (c :: back) rest
        else if closing = .triple then do
          textBody? closing quote escapes fuel ('\n' :: back) (← lineEnd? cs)
        else none

/-- A text behind its first quote. -/
def quotedText? (quote : Char) (escapes : Bool) (cs : List Char) : Option (String × List Char) :=
  match cs with
  | a :: b :: rest =>
    if a = quote && b = quote then
      textBody? .triple quote escapes (rest.length + 1) [] ((lineEnd? rest).getD rest)
    else textBody? .single quote escapes (cs.length + 1) [] cs
  | _ => textBody? .single quote escapes (cs.length + 1) [] cs

/-! ### Numbers -/

/-- Digits of which neighbours may have one `_` between them, without these. -/
def digits? (isDigit : Char → Bool) : List Char → Option (List Char)
  | [] => none
  | [c] => if isDigit c then some [c] else none
  | c :: '_' :: rest => if isDigit c then (digits? isDigit rest).map (c :: ·) else none
  | c :: rest => if isDigit c then (digits? isDigit rest).map (c :: ·) else none

/-- A whole number must fit sixty-four bits. -/
def whole? (n : Int) : Option Json := if -0x8000000000000000 ≤ n && n < 0x8000000000000000 then some (.int n) else none

/-- A number to a base of its own. -/
def based? (base : Nat) (cs : List Char) : Option Json := do
  let ds ← digits? (fun c => (Hash.hexValue? c).any (· < base)) cs
  whole? (ds.foldl (fun n c => n * base + (Hash.hexValue? c).getD 0) 0 : Nat)

/-- A sign and what follows it. -/
def signed : List Char → Bool × List Char
  | '-' :: cs => (true, cs)
  | '+' :: cs => (false, cs)
  | cs => (false, cs)

/-- Digits of a decimal number: no zero stands in front of others. -/
def decimal? (cs : List Char) : Option (List Char) :=
  if cs.head? = some '0' && 1 < cs.length then none else digits? Char.isDigit cs

/-- The exponent of a number behind its `e`. -/
def exponent? (cs : List Char) : Option Int := do
  let (negative, rest) := signed cs
  let n : Int := Decimal.ofDigits (← digits? Char.isDigit rest)
  pure (if negative then -n else n)

/-- A number with a fraction or an exponent; what is too large for it is an error, but for negative
numbers. -/
def real? (negative : Bool) (cs : List Char) : Option Json := do
  let isMark (c : Char) := c = 'e' || c = 'E'
  let mantissa := cs.takeWhile (!isMark ·)
  let exponent ← match cs.dropWhile (!isMark ·) with
    | [] => some 0
    | _ :: rest => exponent? rest
  let whole ← decimal? (mantissa.takeWhile (· ≠ '.'))
  let part ← match mantissa.dropWhile (· ≠ '.') with
    | [] => some []
    | _ :: rest => digits? Char.isDigit rest
  let power := max (-20000) (min 20000 (exponent - part.length))
  let x := Json.scientific negative (Decimal.ofDigits (whole ++ part)) power
  if x.isInf && !negative then none else pure (.real x)

/-- A number. -/
def number? (cs : List Char) : Option Json :=
  match cs with
  | '0' :: 'x' :: rest => based? 16 rest
  | '0' :: 'o' :: rest => based? 8 rest
  | '0' :: 'b' :: rest => based? 2 rest
  | _ =>
    let (negative, rest) := signed cs
    if rest = ['i', 'n', 'f'] then some (.real (if negative then -1.0 / 0.0 else 1.0 / 0.0))
    else if rest = ['n', 'a', 'n'] then some (.real (0.0 / 0.0))
    else if rest.any fun c => c = '.' || c = 'e' || c = 'E' then real? negative rest
    else do
      let n : Int := Decimal.ofDigits (← decimal? rest)
      whole? (if negative then -n else n)

/-! ### Dates -/

/-- Numbers of so many digits between given characters, and the text behind them. -/
def fields? : (shape : List (Nat × Option Char)) → List Char → Option (List Nat × List Char)
  | [], cs => some ([], cs)
  | (width, mark) :: shape, cs => do
    let ds := cs.take width
    if ds.length < width || !ds.all Char.isDigit then none
    let rest ← match mark, cs.drop width with
      | none, rest => some rest
      | some m, c :: rest => if c = m then some rest else none
      | some _, [] => none
    let (ns, rest) ← fields? shape rest
    pure (Decimal.ofDigits ds :: ns, rest)

/-- The text behind a date. -/
def calendarDate? (cs : List Char) : Option (List Char) := do
  match ← fields? [(4, some '-'), (2, some '-'), (2, none)] cs with
  | ([year, month, day], rest) =>
    if 1 ≤ month && month ≤ 12 && 1 ≤ day && day ≤ Instant.daysIn year month then some rest
    else none
  | _ => none

/-- The text behind a time of day. -/
def clockTime? (cs : List Char) : Option (List Char) := do
  match ← fields? [(2, some ':'), (2, some ':'), (2, none)] cs with
  | ([hour, minute, second], rest) =>
    if hour < 24 && minute < 60 && second ≤ 60 then
      match rest with
      | '.' :: d :: more => if d.isDigit then some (more.dropWhile Char.isDigit) else none
      | _ => some rest
    else none
  | _ => none

/-- Whether a text is nothing or a zone. -/
def isZone (cs : List Char) : Bool :=
  match cs with
  | [] | ['Z'] | ['z'] => true
  | c :: rest =>
    (c = '+' || c = '-') &&
      match fields? [(2, some ':'), (2, none)] rest with
      | some ([hour, minute], []) => hour < 24 && minute < 60
      | _ => false

/-- The value of a date, a time or both. -/
def date? (cs : List Char) : Option Json :=
  let whole := match calendarDate? cs with
    | some [] => true
    | some (c :: rest) =>
      (c = 'T' || c = 't' || c = ' ') && ((clockTime? rest).map isZone).getD false
    | none => clockTime? cs = some []
  if whole then some (.object [("date", .text (String.ofList cs))]) else none

/-- The value of a word without quotes. -/
def scalar? (cs : List Char) : Option Json :=
  if cs = "true".toList then some (.bool true)
  else if cs = "false".toList then some (.bool false)
  else (date? cs).or (number? cs)

end CodeGraph.Toml
