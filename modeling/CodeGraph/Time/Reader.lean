import CodeGraph.Time.Instant
import CodeGraph.Text.Blank

/-!
# Reading instants

* `Instant.read` — the instant of a text in the form of RFC 3339, in any zone.
* `Instant.readFreely?` — the same with blanks between the parts, fewer digits, signs before the
  year, and zones without their colon or by the name `UTC`.
-/

namespace CodeGraph.Instant

/-- Why a text is no instant. -/
inductive ReadFault where
  | tooShort
  | tooLong
  | invalid
  | outOfRange
  deriving DecidableEq, Repr

def ReadFault.message : ReadFault → String
  | .tooShort => "premature end of input"
  | .tooLong => "trailing input"
  | .invalid => "input contains invalid characters"
  | .outOfRange => "input is out of range"

/-- A result and the text behind it. -/
abbrev Step (α : Type) := List Char → Except ReadFault (α × List Char)

/-- A number of at least `least` and at most `most` digits. -/
def number (least most : Nat) : Step Nat := fun cs =>
  let ds := (cs.take most).takeWhile Char.isDigit
  if ds.length < least then .error (if cs.length < least then .tooShort else .invalid)
  else .ok (Decimal.ofDigits ds, cs.drop ds.length)

/-- One of several characters. -/
def oneOf (allowed : List Char) : Step Char
  | [] => .error .tooShort
  | c :: cs => if allowed.contains c then .ok (c, cs) else .error .invalid

/-- How freely a text is read. -/
structure Manner where
  blanks : Bool
  /-- Least number of digits of a part of the date or time, and of the year. -/
  digits : Nat
  yearDigits : Nat

def strict : Manner := ⟨false, 2, 4⟩

def free : Manner := ⟨true, 1, 1⟩

namespace Manner

/-- Skip blanks where they are allowed. -/
def skip (m : Manner) (cs : List Char) : List Char :=
  if m.blanks then cs.dropWhile Text.isBlank else cs

/-- A part of a date or time. -/
def part (m : Manner) : Step Nat := fun cs => number m.digits 2 (m.skip cs)

def mark (m : Manner) (c : Char) : Step Char := fun cs => oneOf [c] (m.skip cs)

/-- The year; only a free reading knows signs. -/
def year (m : Manner) : Step Int := fun cs =>
  match m.blanks, m.skip cs with
  | true, '-' :: rest => do
    let (n, rest) ← number 1 rest.length rest
    pure (-(n : Int), rest)
  | true, '+' :: rest => do
    let (n, rest) ← number 1 rest.length rest
    pure ((n : Int), rest)
  | _, rest => do
    let (n, rest) ← number m.yearDigits 4 rest
    pure ((n : Int), rest)

/-- The fraction of a second, of which nine digits count. -/
def nanos (_ : Manner) : Step Nat
  | '.' :: cs => do
    let (_, rest) ← number 1 cs.length cs
    let ds := (cs.takeWhile Char.isDigit).take 9
    pure (Decimal.ofDigits ds * Nat.pow 10 (9 - ds.length), rest)
  | cs => .ok (0, cs)

/-- The minutes by which a zone is ahead of universal time. -/
def zone (m : Manner) : Step Int := fun cs =>
  match m.skip cs with
  | [] => .error .tooShort
  | 'Z' :: rest => .ok (0, rest)
  | 'z' :: rest => .ok (0, rest)
  | sign :: rest =>
    if m.blanks && ((sign :: rest).take 3).map Char.toUpper = ['U', 'T', 'C'] then
      .ok (0, rest.drop 2)
    else do
      let (sign, rest) ← oneOf ['+', '-', '\u2212'] (sign :: rest)
      let (hours, rest) ← number 2 2 rest
      let rest ← if m.blanks then pure (rest.dropWhile fun c => c = ':' || Text.isBlank c)
        else (oneOf [':'] rest).map (·.2)
      let (minutes, rest) ← number 2 2 rest
      if 60 ≤ minutes || 24 ≤ hours then throw .outOfRange
      let total : Int := hours * 60 + minutes
      pure (if sign = '+' then total else -total, rest)

/-- An instant. -/
def instant (m : Manner) (cs : List Char) : Except ReadFault Instant := do
  let (year, cs) ← m.year cs
  let (_, cs) ← m.mark '-' cs
  let (month, cs) ← m.part cs
  let (_, cs) ← m.mark '-' cs
  let (day, cs) ← m.part cs
  let (_, cs) ← oneOf ['T', 't', ' '] cs
  let (hour, cs) ← m.part cs
  let (_, cs) ← m.mark ':' cs
  let (minute, cs) ← m.part cs
  let (_, cs) ← m.mark ':' cs
  let (second, cs) ← m.part cs
  let (nanos, cs) ← m.nanos cs
  let (ahead, cs) ← m.zone cs
  let t : Instant := ⟨year, month, day, hour, minute, second, nanos⟩
  if !(m.skip cs).isEmpty then .error .tooLong
  else if t.Valid then .ok (t.shifted (-ahead))
  else .error .outOfRange

end Manner

/-- The instant of a text. -/
def read (s : String) : Except ReadFault Instant :=
  if s.utf8ByteSize < 19 then .error .tooShort else strict.instant s.toList

/-- The instant of a text that is read freely. -/
def readFreely? (s : String) : Option Instant := (free.instant s.toList).toOption

end CodeGraph.Instant
