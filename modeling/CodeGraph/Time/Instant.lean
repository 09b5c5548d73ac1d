import CodeGraph.Decimal.Digits

/-!
# Instants

* `Instant` — a moment of universal time, as its calendar date and the time of day; a leap second
  is second 60 of its minute.
* `Instant.stamp` — its text in the form of RFC 3339 with a zone of its own choice: `Z` in answers,
  `+00:00` in stored columns.
* `Instant.shifted` — the moment some minutes later; `Instant.sinceEpoch` — the moment some time
  after the start of 1970.
-/

namespace CodeGraph

open Decimal (padded)

/-- A moment of universal time. -/
structure Instant where
  year : Int
  month : Nat
  day : Nat
  hour : Nat
  minute : Nat
  second : Nat
  nanos : Nat
  deriving DecidableEq, Repr, Inhabited

namespace Instant

def isLeapYear (year : Int) : Bool := year % 4 = 0 && (year % 100 ≠ 0 || year % 400 = 0)

/-- Number of days of a month. -/
def daysIn (year : Int) (month : Nat) : Nat :=
  if month = 2 then if isLeapYear year then 29 else 28
  else if [4, 6, 9, 11].contains month then 30
  else 31

/-- Whether the parts are those of a date and a time of day. -/
def Valid (t : Instant) : Prop :=
  1 ≤ t.month ∧ t.month ≤ 12 ∧ 1 ≤ t.day ∧ t.day ≤ daysIn t.year t.month ∧
    t.hour < 24 ∧ t.minute < 60 ∧ t.second ≤ 60 ∧ t.nanos < 1000000000

instance (t : Instant) : Decidable t.Valid := by unfold Valid; infer_instance

/-- The earlier of two instants is less. -/
instance : Ord Instant where
  compare a b :=
    (compare a.year b.year).then <| (compare a.month b.month).then <|
      (compare a.day b.day).then <| (compare a.hour b.hour).then <|
      (compare a.minute b.minute).then <| (compare a.second b.second).then <|
      compare a.nanos b.nanos

/-! ### The calendar -/

/-- The same time on the day after. -/
def nextDay (t : Instant) : Instant :=
  if t.day < daysIn t.year t.month then { t with day := t.day + 1 }
  else if t.month < 12 then { t with month := t.month + 1, day := 1 }
  else { t with year := t.year + 1, month := 1, day := 1 }

/-- The same time on the day before. -/
def previousDay (t : Instant) : Instant :=
  if 1 < t.day then { t with day := t.day - 1 }
  else if 1 < t.month then
    { t with month := t.month - 1, day := daysIn t.year (t.month - 1) }
  else { t with year := t.year - 1, month := 12, day := 31 }

/-- The instant some minutes later, of which there may be less than a day's in either direction. -/
def shifted (minutes : Int) (t : Instant) : Instant :=
  let total : Int := t.hour * 60 + t.minute + minutes
  let within := (total % 1440).toNat
  let moved := { t with hour := within / 60, minute := within % 60 }
  if total < 0 then moved.previousDay
  else if 1440 ≤ total then moved.nextDay
  else moved

/-- The instant so many nanoseconds after the start of 1970. -/
def sinceEpoch (nanos : Nat) : Instant :=
  let seconds := nanos / 1000000000
  let within := seconds % 86400
  Nat.repeat nextDay (seconds / 86400)
    ⟨1970, 1, 1, within / 3600, within / 60 % 60, within % 60, nanos % 1000000000⟩

/-! ### Text -/

/-- A year beyond four digits bears its sign. -/
def yearText (year : Int) : String :=
  if 0 ≤ year && year ≤ 9999 then padded 4 year.toNat
  else (if year < 0 then "-" else "+") ++ padded 4 year.natAbs

/-- The fraction of a second with three, six or nine digits, as many as it takes. -/
def fractionText (nanos : Nat) : String :=
  if nanos = 0 then ""
  else if nanos % 1000000 = 0 then "." ++ padded 3 (nanos / 1000000)
  else if nanos % 1000 = 0 then "." ++ padded 6 (nanos / 1000)
  else "." ++ padded 9 nanos

/-- The text of an instant with a text for its zone. -/
def stamp (zone : String) (t : Instant) : String :=
  yearText t.year ++ "-" ++ padded 2 t.month ++ "-" ++ padded 2 t.day ++ "T" ++
    padded 2 t.hour ++ ":" ++ padded 2 t.minute ++ ":" ++ padded 2 t.second ++
    fractionText t.nanos ++ zone

/-- The text in an answer. -/
def text (t : Instant) : String := t.stamp "Z"

/-- The text in a column of the store. -/
def columnText (t : Instant) : String := t.stamp "+00:00"

end Instant

end CodeGraph
