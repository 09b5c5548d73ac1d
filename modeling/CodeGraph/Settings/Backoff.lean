import CodeGraph.Settings.Basic

/-!
# Waiting between attempts

* `Arithmetic` — the operations that a wait is computed with; `Arithmetic.double` are those of
  double-precision numbers, `Arithmetic.exact` those of rational numbers.
* `RetrySettings.delayAfter` — the wait after an attempt, which grows by a factor with every attempt
  up to a cap.
-/

namespace CodeGraph

/-- The operations that a wait is computed with. -/
structure Arithmetic (α : Type) where
  ofNat : Nat → α
  mul : α → α → α
  /-- One over a number. -/
  inverse : α → α
  /-- The first number where it is less than the second, else the second. -/
  least : α → α → α
  /-- The whole part of a number, from zero up to the greatest that fits sixty-four bits. -/
  whole : α → Nat

namespace Arithmetic

/-- Double-precision numbers. -/
def double : Arithmetic Float where
  ofNat := Float.ofNat
  mul a b := a * b
  inverse a := 1.0 / a
  least a b := if a < b then a else b
  whole a := a.toUInt64.toNat

/-- Rational numbers. -/
def exact : Arithmetic Rat where
  ofNat n := n
  mul a b := a * b
  inverse a := 1 / a
  least a b := if a < b then a else b
  whole a := min a.floor.toNat 0xffffffffffffffff

/-- Multiply a number by a power, squaring the base. -/
def timesPower (ar : Arithmetic α) (result base : α) (n : Nat) : α :=
  let result := if n % 2 = 1 then ar.mul result base else result
  if n / 2 = 0 then result else ar.timesPower result (ar.mul base base) (n / 2)
termination_by n
decreasing_by omega

/-- A whole power; negative exponents invert it. -/
def power (ar : Arithmetic α) (base : α) (exponent : Int) : α :=
  let p := ar.timesPower (ar.ofNat 1) base exponent.natAbs
  if exponent < 0 then ar.inverse p else p

/-- The wait after an attempt, counted from one.  The exponent is kept in thirty-two bits with a
sign. -/
def delay (ar : Arithmetic α) (initial : Nat) (multiplier : α) (cap attempt : Nat) : Nat :=
  let exponent := ((attempt - 1 : Nat) : Int).bmod 0x100000000
  ar.whole (ar.least (ar.mul (ar.ofNat initial) (ar.power multiplier exponent)) (ar.ofNat cap))

end Arithmetic

/-- The milliseconds to wait after an attempt. -/
def RetrySettings.delayAfter (s : RetrySettings) (attempt : Nat) : Nat :=
  Arithmetic.double.delay s.initialDelay s.multiplier s.maxDelay attempt

end CodeGraph
