import CodeGraph.Decimal.Digits

/-!
# Rounding of quotients

* `roundDiv` — the natural number nearest to a quotient; a half goes to the even neighbour.
* `nearestBinary` — the number nearest to a quotient among those with so many binary digits.
* `sixPlaces` — a quotient written with six decimal places.
-/

namespace CodeGraph.Decimal

/-- A quotient of natural numbers. -/
structure Quotient where
  numerator : Nat
  denominator : Nat
  deriving DecidableEq, Repr, Inhabited

/-- The natural number nearest to a quotient; a half goes to the even neighbour. -/
def roundDiv (numerator denominator : Nat) : Nat :=
  let q := numerator / denominator
  let r := numerator % denominator
  if 2 * r < denominator then q
  else if denominator < 2 * r then q + 1
  else if q % 2 = 0 then q else q + 1

/-- The number nearest to a quotient among those whose binary digits, from the first one that is not
zero, are at most `digits`; a half goes to the even neighbour. -/
def nearestBinary (digits : Nat) (x : Quotient) : Quotient :=
  if x.numerator = 0 || x.denominator = 0 then ⟨0, 1⟩
  else
    let down := x.denominator.log2 + digits + 1
    -- scale so that the whole part has more digits than asked for, then cut the surplus off
    let scaled := x.numerator * Nat.pow 2 down
    let surplus := (scaled / x.denominator).log2 + 1 - digits
    let digitsValue := roundDiv scaled (x.denominator * Nat.pow 2 surplus)
    ⟨digitsValue * Nat.pow 2 surplus, Nat.pow 2 down⟩

/-- A quotient with six decimal places; a half goes to the even neighbour. -/
def sixPlaces (x : Quotient) : String :=
  let n := roundDiv (x.numerator * 1000000) x.denominator
  String.ofList (Nat.toDigits 10 (n / 1000000)) ++ "." ++ padded 6 (n % 1000000)

end CodeGraph.Decimal
