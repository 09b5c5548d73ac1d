import CodeGraph.Settings.Backoff
import Mathlib.Algebra.Order.Field.Power
import Mathlib.Algebra.Order.Floor.Semiring
import Mathlib.Data.Rat.Floor

/-!
# Waits that grow

* `Arithmetic.exact_power` — squaring the base gives the power.
* `Arithmetic.exponentAfter` — the exponent of the wait after an attempt; it grows with the attempts
  up to the half of what thirty-two bits hold, and is negative from there on.
* `Arithmetic.exact_delay` — a wait is the whole part of the first wait times a power, up to the cap.
* `Arithmetic.exact_delay_grows_by_halves` — waits grow with the attempts in each half, and shrink from
  the one to the other.
-/

namespace CodeGraph.Arithmetic

/-! ### Powers -/

/-- Squaring the base while the exponent is halved gives the power. -/
theorem exact_timesPower (result base : Rat) (n : Nat) :
    exact.timesPower result base n = result * base ^ n := by
  induction n using Nat.strongRecOn generalizing result base with
  | ind n ih =>
    have hhalves : base ^ n = base ^ (n % 2) * (base * base) ^ (n / 2) := by
      rw [← pow_two, ← pow_mul, ← pow_add, Nat.mod_add_div]
    have hodd : (if n % 2 = 1 then exact.mul result base else result) = result * base ^ (n % 2) := by
      rcases Nat.mod_two_eq_zero_or_one n with hn | hn
      · rw [hn, if_neg (by decide), pow_zero, mul_one]
      · rw [hn, if_pos rfl, pow_one]
        rfl
    rw [timesPower, hodd, hhalves]
    split
    next hzero => rw [hzero, pow_zero, mul_one]
    next hzero =>
      rw [ih (n / 2) (by omega), mul_assoc]
      rfl

/-- A negative exponent inverts the power. -/
theorem exact_power (base : Rat) (exponent : Int) : exact.power base exponent = base ^ exponent := by
  have hpower : exact.timesPower (exact.ofNat 1) base exponent.natAbs = base ^ exponent.natAbs := by
    rw [exact_timesPower]
    exact (congrArg (· * base ^ exponent.natAbs) Nat.cast_one).trans (one_mul _)
  rw [power, hpower]
  split
  next hnegative =>
    have hexponent : exponent = -(exponent.natAbs : Int) := by omega
    conv_rhs => rw [hexponent, zpow_neg, zpow_natCast]
    exact one_div _
  next hnegative =>
    have hexponent : exponent = (exponent.natAbs : Int) := by omega
    conv_rhs => rw [hexponent, zpow_natCast]

/-! ### Exponents -/

/-- The exponent of the wait after an attempt, in thirty-two bits with a sign. -/
def exponentAfter (attempt : Nat) : Int := ((attempt - 1 : Nat) : Int).bmod 0x100000000

variable {a b : Nat}

theorem exponentAfter_of_le (h : b ≤ 2 ^ 31) : exponentAfter b = ((b - 1 : Nat) : Int) := by
  unfold exponentAfter
  exact Int.bmod_eq_of_le (by omega) (by omega)

theorem exponentAfter_of_lt (h : 2 ^ 31 < b) (hb : b < 2 ^ 32) :
    exponentAfter b = -((2 ^ 32 + 1 - b : Nat) : Int) := by
  unfold exponentAfter
  rw [Int.bmod_def, if_neg (by omega)]
  omega

/-- Exponents grow with the attempts, as long as these do not go from the first half to the second. -/
theorem exponentAfter_mono (hab : a ≤ b) (hb : b < 2 ^ 32) (hside : b ≤ 2 ^ 31 ∨ 2 ^ 31 < a) :
    exponentAfter a ≤ exponentAfter b := by
  rcases hside with hfirst | hsecond
  · rw [exponentAfter_of_le hfirst, exponentAfter_of_le (hab.trans hfirst)]
    omega
  · rw [exponentAfter_of_lt hsecond (by omega), exponentAfter_of_lt (by omega) hb]
    omega

theorem exponentAfter_lt (ha : a ≤ 2 ^ 31) (h : 2 ^ 31 < b) (hb : b < 2 ^ 32) :
    exponentAfter b < exponentAfter a := by
  rw [exponentAfter_of_le ha, exponentAfter_of_lt h hb]
  omega

/-! ### Waits -/

variable {initial cap : Nat} {multiplier : Rat}

theorem exact_whole (x : Rat) : exact.whole x = min ⌊x⌋₊ 0xffffffffffffffff := rfl

/-- A wait is the whole part of the first wait times a power, up to the cap and to what sixty-four
bits hold. -/
theorem exact_delay (initial cap attempt : Nat) (multiplier : Rat) :
    exact.delay initial multiplier cap attempt =
      min (min ⌊initial * multiplier ^ exponentAfter attempt⌋₊ cap) 0xffffffffffffffff := by
  have hleast : exact.delay initial multiplier cap attempt =
      exact.whole (min (initial * multiplier ^ exponentAfter attempt) cap) := by
    rw [delay, exact_power, min_def_lt]
    rfl
  rw [hleast, exact_whole, Nat.floor_mono.map_min, Nat.floor_natCast]

theorem exact_delay_le_cap (attempt : Nat) :
    exact.delay initial multiplier cap attempt ≤ cap := by
  rw [exact_delay]
  exact (min_le_left _ _).trans (min_le_right _ _)

/-- Where the multiplier is at least one, a greater exponent does not give a shorter wait. -/
theorem exact_delay_le_of_exponent (hmultiplier : 1 ≤ multiplier)
    (h : exponentAfter a ≤ exponentAfter b) :
    exact.delay initial multiplier cap a ≤ exact.delay initial multiplier cap b := by
  rw [exact_delay, exact_delay]
  have hpower : multiplier ^ exponentAfter a ≤ multiplier ^ exponentAfter b :=
    zpow_le_zpow_right₀ hmultiplier h
  have hproduct := mul_le_mul_of_nonneg_left hpower (Nat.cast_nonneg (α := Rat) initial)
  exact min_le_min_right _ (min_le_min_right cap (Nat.floor_mono hproduct))

/-- A wait of the second half is the first wait divided by a power. -/
theorem exact_delay_mul_le (hmultiplier : 1 ≤ multiplier) (h : 2 ^ 31 < b) (hb : b < 2 ^ 32) :
    (exact.delay initial multiplier cap b : Rat) * multiplier ^ (2 ^ 32 + 1 - b) ≤ initial := by
  have hpositive : 0 < multiplier ^ (2 ^ 32 + 1 - b) := pow_pos (by linarith) _
  have hfloor : (⌊initial * multiplier ^ exponentAfter b⌋₊ : Rat) ≤
      initial * multiplier ^ exponentAfter b :=
    Nat.floor_le (mul_nonneg (Nat.cast_nonneg _) (zpow_nonneg (by linarith) _))
  have hwait : exact.delay initial multiplier cap b ≤
      ⌊initial * multiplier ^ exponentAfter b⌋₊ := by
    rw [exact_delay]
    exact (min_le_left _ _).trans (min_le_left _ _)
  rw [exponentAfter_of_lt h hb, zpow_neg, zpow_natCast, ← div_eq_mul_inv] at hfloor
  rw [exponentAfter_of_lt h hb, zpow_neg, zpow_natCast, ← div_eq_mul_inv] at hwait
  rw [← le_div_iff₀ hpositive]
  exact (Nat.cast_le.mpr hwait).trans hfloor

/-- **Waits grow with the attempts in each half of what thirty-two bits hold, and are never above the
cap.**  From the first half to the second they do not grow: a wait of the second half is at most the
first wait divided by a power of the multiplier. -/
theorem exact_delay_grows_by_halves (initial cap : Nat) {multiplier : Rat}
    (hmultiplier : 1 ≤ multiplier) {a b : Nat} (hab : a ≤ b) (hb : b < 2 ^ 32) :
    let wait := exact.delay initial multiplier cap
    wait b ≤ cap ∧
    (b ≤ 2 ^ 31 ∨ 2 ^ 31 < a → wait a ≤ wait b) ∧
    (a ≤ 2 ^ 31 → 2 ^ 31 < b →
      wait b ≤ wait a ∧ (wait b : Rat) * multiplier ^ (2 ^ 32 + 1 - b) ≤ initial) := by
  refine ⟨exact_delay_le_cap b, fun hside => ?_, fun hfirst hsecond => ⟨?_, ?_⟩⟩
  · exact exact_delay_le_of_exponent hmultiplier (exponentAfter_mono hab hb hside)
  · exact exact_delay_le_of_exponent hmultiplier (exponentAfter_lt hfirst hsecond hb).le
  · exact exact_delay_mul_le hmultiplier hsecond hb

/-- The waits of the default settings are at the cap up to the middle, and nothing is left of them
right behind it. -/
theorem exact_delay_grows_by_halves_default :
    exact.delay 2000 2 10000 (2 ^ 31) = 10000 ∧ exact.delay 2000 2 10000 (2 ^ 31 + 1) = 0 := by
  have htwo : (1 : Rat) ≤ 2 := by decide
  have hfourth : exact.delay 2000 2 10000 4 = 10000 := by
    rw [exact_delay, exponentAfter_of_le (by decide)]
    norm_num
  obtain ⟨hcap, hgrows, -⟩ :=
    exact_delay_grows_by_halves 2000 10000 htwo (a := 4) (b := 2 ^ 31) (by decide) (by decide)
  obtain ⟨-, -, hshrinks⟩ := exact_delay_grows_by_halves 2000 10000 htwo
    (a := 2 ^ 31) (b := 2 ^ 31 + 1) (by decide) (by decide)
  obtain ⟨-, hbound⟩ := hshrinks le_rfl (by decide)
  refine ⟨hcap.antisymm (hfourth.symm.trans_le (hgrows (.inl le_rfl))), ?_⟩
  -- a wait of one millisecond would make the power at most two thousand
  by_contra hsome
  have hone : (1 : Rat) ≤ (exact.delay 2000 2 10000 (2 ^ 31 + 1) : Nat) :=
    Nat.one_le_cast.mpr (Nat.pos_of_ne_zero hsome)
  have hpower : (2 : Rat) ^ 11 ≤ 2 ^ (2 ^ 32 + 1 - (2 ^ 31 + 1)) :=
    pow_le_pow_right₀ htwo (by decide)
  have hproduct : (2 : Rat) ^ 11 ≤ (2000 : Nat) := by
    calc (2 : Rat) ^ 11 ≤ 2 ^ (2 ^ 32 + 1 - (2 ^ 31 + 1)) := hpower
      _ ≤ (exact.delay 2000 2 10000 (2 ^ 31 + 1) : Nat) * 2 ^ (2 ^ 32 + 1 - (2 ^ 31 + 1)) :=
        le_mul_of_one_le_left (pow_nonneg (by decide) _) hone
      _ ≤ (2000 : Nat) := hbound
  exact absurd hproduct (by norm_num)

end CodeGraph.Arithmetic
