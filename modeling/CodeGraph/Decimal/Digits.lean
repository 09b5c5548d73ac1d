/-!
# Decimal digits

* `padded` — a number with leading zeros up to a width.
* `ofDigits` — the number that digits spell.
-/

namespace CodeGraph.Decimal

/-- A number with leading zeros up to a width; one that is wider keeps all its digits. -/
def padded (width n : Nat) : String :=
  let digits := Nat.toDigits 10 n
  String.ofList (List.replicate (width - digits.length) '0' ++ digits)

/-- The number that digits spell. -/
def ofDigits (cs : List Char) : Nat := cs.foldl (fun n c => n * 10 + (c.toNat - 48)) 0

end CodeGraph.Decimal
