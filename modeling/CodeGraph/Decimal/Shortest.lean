import CodeGraph.Decimal.Rounding

/-!
# The fewest digits that read back

* `Binary` — a positive double-precision number as a whole number times a power of two.
* `Digits` — decimal digits with the power of ten of the first of them.
* `shortest` — the fewest decimal digits that no other double-precision number is nearer to.
* `FloatParts.ofFloat` — sign and value of a double-precision number.
-/

namespace CodeGraph.Decimal

/-- A positive number `mantissa * 2 ^ exponent`. -/
structure Binary where
  mantissa : Nat
  exponent : Int
  deriving DecidableEq, Repr

/-- The digits of a number whose first digit counts `10 ^ exponent`. -/
structure Digits where
  digits : Nat
  exponent : Int
  deriving DecidableEq, Repr

namespace Digits

def text (d : Digits) : List Char := Nat.toDigits 10 d.digits

end Digits

namespace Binary

/-- The number as a quotient, four times as fine as needed to name the middle between two
neighbours. -/
def numerator (b : Binary) : Nat := 4 * b.mantissa * Nat.pow 2 b.exponent.toNat
def denominator (b : Binary) : Nat := 4 * Nat.pow 2 (-b.exponent).toNat

/-- Whether the number below is only half as far away as the one above. -/
def atPowerOfTwo (b : Binary) : Bool := b.mantissa = 0x10000000000000 && -1074 < b.exponent

/-- The ends of the interval of what reads back as the number, in quarters of its last digit. -/
def lowQuarters (b : Binary) : Nat := 4 * b.mantissa - if b.atPowerOfTwo then 1 else 2
def highQuarters (b : Binary) : Nat := 4 * b.mantissa + 2

/-- Whether `n * 10 ^ e` reads back as the number; the ends count where the mantissa is even. -/
def readsBack (b : Binary) (n : Nat) (e : Int) : Bool :=
  let scale := b.exponent.toNat
  let left := n * Nat.pow 10 e.toNat * 4 * Nat.pow 2 (-b.exponent).toNat
  let right (quarters : Nat) := quarters * Nat.pow 2 scale * Nat.pow 10 (-e).toNat
  if b.mantissa % 2 = 0 then right b.lowQuarters ≤ left && left ≤ right b.highQuarters
  else right b.lowQuarters < left && left < right b.highQuarters

/-- The power of ten of the first decimal digit. -/
def leadingPower (b : Binary) : Int :=
  let whole := b.numerator / b.denominator
  if 0 < whole then ((Nat.toDigits 10 whole).length : Int) - 1
  else
    -(((List.range 400).find? fun k => b.denominator ≤ b.numerator * Nat.pow 10 k).getD 400 : Int)

/-- The two multiples of `10 ^ e` around the number: the lower one, and whether it is the nearer
one; a tie goes to the even one. -/
def around (b : Binary) (e : Int) : Nat × Bool :=
  let top := b.numerator * Nat.pow 10 (-e).toNat
  let bottom := b.denominator * Nat.pow 10 e.toNat
  let low := top / bottom
  let twice := 2 * (top % bottom)
  (low, twice < bottom || (twice = bottom && low % 2 = 0))

/-- The nearest of the decimals with `count` digits that read back. -/
def withDigits? (b : Binary) (count : Nat) : Option Digits :=
  let first := b.leadingPower
  let e := first - ((count : Int) - 1)
  let (low, lowNearer) := b.around e
  let candidates := if lowNearer then [low, low + 1] else [low + 1, low]
  (candidates.find? fun n => 0 < n && b.readsBack n e).map fun n =>
    ⟨n, e + ((Nat.toDigits 10 n).length : Int) - 1⟩

/-- The fewest digits that read back. -/
def shortest (b : Binary) : Digits :=
  ((List.range 17).findSome? fun n => b.withDigits? (n + 1)).getD ⟨b.mantissa, 0⟩

end Binary

/-- What a double-precision number is. -/
inductive FloatParts where
  | undefined
  | infinite (negative : Bool)
  | zero (negative : Bool)
  | finite (negative : Bool) (magnitude : Binary)
  deriving DecidableEq, Repr

/-- Sign and value of a double-precision number. -/
def FloatParts.ofFloat (x : Float) : FloatParts :=
  let bits := x.toBits.toNat
  let negative := bits / 0x8000000000000000 = 1
  let exponent : Nat := bits / 0x10000000000000 % 0x800
  let fraction : Nat := bits % 0x10000000000000
  if exponent = 2047 then if fraction = 0 then .infinite negative else .undefined
  else if exponent = 0 then
    if fraction = 0 then .zero negative else .finite negative ⟨fraction, -1074⟩
  else .finite negative ⟨0x10000000000000 + fraction, (exponent : Int) - 1075⟩

/-- Digits without zeros at their end. -/
def Digits.trimmed (d : Digits) : List Char := (d.text.reverse.dropWhile (· = '0')).reverse

/-- The digits of a number and the place of its point, counted from the first digit. -/
def Digits.pointAt (d : Digits) : Int := d.exponent + 1

/-- A number written without an exponent. -/
def Digits.positional (d : Digits) : String :=
  let digits := d.trimmed
  let point := d.pointAt
  if point ≤ 0 then
    String.ofList ("0.".toList ++ List.replicate (-point).toNat '0' ++ digits)
  else if (digits.length : Int) ≤ point then
    String.ofList (digits ++ List.replicate (point.toNat - digits.length) '0')
  else String.ofList (digits.take point.toNat ++ '.' :: digits.drop point.toNat)

/-- A sign where the number is negative. -/
def signText (negative : Bool) : String := if negative then "-" else ""

/-- A double-precision number without an exponent; a whole number has no point. -/
def plainText (x : Float) : String :=
  match FloatParts.ofFloat x with
  | .undefined => "NaN"
  | .infinite negative => signText negative ++ "inf"
  | .zero negative => signText negative ++ "0"
  | .finite negative b => signText negative ++ b.shortest.positional

end CodeGraph.Decimal
