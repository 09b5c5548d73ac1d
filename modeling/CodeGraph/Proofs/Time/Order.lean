import CodeGraph.Proofs.Text.Order
import CodeGraph.Proofs.Time.Column
import Mathlib.Data.List.Induction

/-!
# The order of instants and of their texts

* `Decimal.compare_padded` — numbers of one width are in the order of their digits;
  `Decimal.compare_padded_of_shorter` — of two fractions the one with fewer digits ends with a sign that
  comes before every digit.
* `Instant.compare_fractionText` — fractions of three, six and nine digits, or none, are in order before
  a sign.
* `Instant.compare_columnText` — the texts in columns are in the order of the instants that they were
  written for, and so are their bytes.
-/

namespace CodeGraph

/-! ### Digits in order -/

namespace Decimal

/-- A last digit decides between numbers that are the same before it. -/
theorem compare_digit {b r r' l l' : Nat} (h : l < b) (h' : l' < b) :
    compare (r * b + l) (r' * b + l') = (compare r r').then (compare l l') := by
  cases hr : compare r r' with
  | lt =>
    have hle : (r + 1) * b ≤ r' * b := Nat.mul_le_mul_right b (Nat.compare_eq_lt.mp hr)
    rw [Nat.add_mul, Nat.one_mul] at hle
    apply Nat.compare_eq_lt.mpr
    omega
  | eq =>
    obtain rfl := Nat.compare_eq_eq.mp hr
    show _ = compare l l'
    simp only [Nat.compare_eq_ite_lt, Nat.add_lt_add_iff_left]
  | gt =>
    have hle : (r' + 1) * b ≤ r * b := Nat.mul_le_mul_right b (Nat.compare_eq_gt.mp hr)
    rw [Nat.add_mul, Nat.one_mul] at hle
    apply Nat.compare_eq_gt.mpr
    omega

theorem compare_mul_right (a a' : Nat) {c : Nat} (hc : 0 < c) :
    compare (a * c) (a' * c) = compare a a' := by
  have h : compare (a * c + 0) (a' * c + 0) = _ := compare_digit hc hc
  rw [Nat.add_zero, Nat.add_zero, Std.compare_self, Ordering.then_eq] at h
  exact h

theorem toNat_of_isDigit {c : Char} (h : c.isDigit = true) : 48 ≤ c.toNat ∧ c.toNat ≤ 57 := by
  simpa [Char.isDigit, UInt32.le_iff_toNat_le] using h

/-- Digits, as many on both sides, are in the order of the numbers that they spell. -/
theorem compare_ofDigits {ds es : List Char} (hlength : ds.length = es.length)
    (hds : ∀ c ∈ ds, c.isDigit = true) (hes : ∀ c ∈ es, c.isDigit = true) :
    compare ds es = compare (ofDigits ds) (ofDigits es) := by
  induction ds using List.reverseRecOn generalizing es with
  | nil =>
    obtain rfl := List.length_eq_zero_iff.mp hlength.symm
    rfl
  | append_singleton ds c ih =>
    obtain ⟨es, d, rfl⟩ : ∃ es' d, es = es' ++ [d] := by
      rcases List.eq_nil_or_concat' es with rfl | h
      · simp at hlength
      · exact h
    have hrest : ds.length = es.length := by simpa using hlength
    have hc := toNat_of_isDigit (hds c (by simp))
    have hd := toNat_of_isDigit (hes d (by simp))
    have hlast : compare [c] [d] = compare (c.toNat - 48) (d.toNat - 48) := by
      have hless : c.toNat < d.toNat ↔ c.toNat - 48 < d.toNat - 48 := by omega
      have hmore : d.toNat < c.toNat ↔ d.toNat - 48 < c.toNat - 48 := by omega
      rw [List.compare_cons_cons, Text.compare_char]
      show (compare c.toNat d.toNat).then .eq = _
      rw [Ordering.then_eq]
      simp only [Nat.compare_eq_ite_lt, hless, hmore]
    rw [compare_append hrest, ofDigits_concat, ofDigits_concat, compare_digit (by omega) (by omega),
      ih hrest (fun e he => hds e (List.mem_append_left _ he))
        fun e he => hes e (List.mem_append_left _ he), hlast]

theorem ofDigits_append (ds es : List Char) :
    ofDigits (ds ++ es) = ofDigits ds * 10 ^ es.length + ofDigits es := by
  induction es using List.reverseRecOn with
  | nil => simp [ofDigits]
  | append_singleton es c ih =>
    rw [← List.append_assoc, ofDigits_concat, ofDigits_concat, ih, List.length_append,
      List.length_singleton, Nat.pow_succ, Nat.add_mul, Nat.mul_assoc, Nat.add_assoc]

variable {width n m : Nat}

/-- **Numbers of one width are in the order of their digits.** -/
theorem compare_padded (hwidth : 0 < width) (hn : n < 10 ^ width) (hm : m < 10 ^ width) :
    compare (padded width n).toList (padded width m).toList = compare n m := by
  have hlength : (padded width n).toList.length = (padded width m).toList.length := by
    rw [length_padded width hwidth hn, length_padded width hwidth hm]
  rw [compare_ofDigits hlength (fun _ => isDigit_of_mem_padded) fun _ => isDigit_of_mem_padded,
    ofDigits_padded, ofDigits_padded]

/-- The digits of a number are those of its parts. -/
theorem padded_add {front back : Nat} (hfront : 0 < front) (hback : 0 < back)
    (h : n < 10 ^ (front + back)) : (padded (front + back) n).toList =
      (padded front (n / 10 ^ back)).toList ++ (padded back (n % 10 ^ back)).toList := by
  have hpos : 0 < 10 ^ back := Nat.pow_pos (by decide)
  have hhigh : n / 10 ^ back < 10 ^ front := by
    rw [Nat.div_lt_iff_lt_mul hpos, ← Nat.pow_add]
    exact h
  have hlow : n % 10 ^ back < 10 ^ back := Nat.mod_lt _ hpos
  have hlengthBack := length_padded back hback hlow
  have hlength : (padded (front + back) n).toList.length =
      ((padded front (n / 10 ^ back)).toList ++ (padded back (n % 10 ^ back)).toList).length := by
    rw [List.length_append, length_padded (front + back) (by omega) h,
      length_padded front hfront hhigh, hlengthBack]
  have hsame := compare_ofDigits hlength (fun _ => isDigit_of_mem_padded) fun c hc => by
    rcases List.mem_append.mp hc with hc | hc
    · exact isDigit_of_mem_padded hc
    · exact isDigit_of_mem_padded hc
  rw [ofDigits_append, ofDigits_padded, ofDigits_padded, ofDigits_padded, hlengthBack, Nat.mul_comm,
    Nat.div_add_mod, Std.compare_self] at hsame
  exact Std.compare_eq_iff_eq.mp hsame

/-- A sign comes before the further digits of a longer number. -/
theorem compare_padded_of_shorter {front back : Nat} (hfront : 0 < front) (hback : 0 < back)
    (hm : m < 10 ^ front) (hn : n < 10 ^ (front + back)) (hlow : n % 10 ^ back ≠ 0)
    (xs ys : List Char) :
    compare ((padded front m).toList ++ '+' :: xs) ((padded (front + back) n).toList ++ ys) =
      compare (m * 10 ^ back) n := by
  have hpos : 0 < 10 ^ back := Nat.pow_pos (by decide)
  have hhigh : n / 10 ^ back < 10 ^ front := by
    rw [Nat.div_lt_iff_lt_mul hpos, ← Nat.pow_add]
    exact hn
  have hless : n % 10 ^ back < 10 ^ back := Nat.mod_lt _ hpos
  have hsign : compare ('+' :: xs) ((padded back (n % 10 ^ back)).toList ++ ys) = .lt := by
    have hlength := length_padded back hback hless
    have hdigit (c : Char) (hc : c ∈ (padded back (n % 10 ^ back)).toList) : c.isDigit = true :=
      isDigit_of_mem_padded hc
    cases hdigits : (padded back (n % 10 ^ back)).toList with
    | nil =>
      rw [hdigits, List.length_nil] at hlength
      omega
    | cons d ds =>
      have hd := toNat_of_isDigit (hdigit d (by simp [hdigits]))
      have hcompare : compare '+' d = .lt := by
        rw [Text.compare_char, Nat.compare_eq_lt]
        show 43 < d.toNat
        omega
      rw [List.cons_append, List.compare_cons_cons, hcompare]
      rfl
  have hsplit : n = n / 10 ^ back * 10 ^ back + n % 10 ^ back := by
    rw [Nat.mul_comm, Nat.div_add_mod]
  have hlengths : (padded front m).toList.length = (padded front (n / 10 ^ back)).toList.length := by
    rw [length_padded front hfront hm, length_padded front hfront hhigh]
  rw [padded_add hfront hback hn, List.append_assoc, compare_append hlengths,
    compare_padded hfront hm hhigh, hsign]
  conv_rhs => rw [hsplit, ← Nat.add_zero (m * 10 ^ back), compare_digit hpos hless]
  rw [Nat.compare_eq_lt.mpr (Nat.pos_of_ne_zero hlow)]

end Decimal

/-! ### Fractions -/

namespace Instant

open Decimal (padded)

/-- A fraction is written with three, six or nine digits of which the last three are not all zero. -/
theorem exists_fractionText {nanos : Nat} (hpos : nanos ≠ 0) (h : nanos < 1000000000) :
    ∃ width n, (width = 3 ∨ width = 6 ∨ width = 9) ∧ n < 10 ^ width ∧ n % 1000 ≠ 0 ∧
      nanos = n * 10 ^ (9 - width) ∧ fractionText nanos = "." ++ padded width n := by
  unfold fractionText
  rw [if_neg hpos]
  by_cases hmillis : nanos % 1000000 = 0
  · rw [if_pos hmillis]
    refine ⟨3, nanos / 1000000, by simp, ?_, ?_, ?_, rfl⟩ <;> omega
  · rw [if_neg hmillis]
    by_cases hmicros : nanos % 1000 = 0
    · rw [if_pos hmicros]
      refine ⟨6, nanos / 1000, by simp, ?_, ?_, ?_, rfl⟩ <;> omega
    · rw [if_neg hmicros]
      refine ⟨9, nanos, by simp, ?_, hmicros, ?_, rfl⟩ <;> omega

/-- Of two fractions the one with fewer digits is in order before the other. -/
theorem compare_fraction_of_shorter {front width m n : Nat} (hfront : 3 ≤ front) (hless : front + 3 ≤ width)
    (hm : m < 10 ^ front) (hwidth : width ≤ 9) (hn : n < 10 ^ width) (hlow : n % 1000 ≠ 0)
    (xs ys : List Char) :
    compare ((padded front m).toList ++ '+' :: xs) ((padded width n).toList ++ ys) =
      compare (m * 10 ^ (9 - front)) (n * 10 ^ (9 - width)) := by
  obtain ⟨back, rfl⟩ := Nat.exists_eq_add_of_le hless
  have hscale : 10 ^ (9 - front) = 10 ^ (3 + back) * 10 ^ (9 - (front + 3 + back)) := by
    rw [← Nat.pow_add]
    congr 1
    omega
  have hrest : n % 10 ^ (3 + back) ≠ 0 := by
    intro hzero
    have hdvd : 1000 ∣ n := by
      refine Nat.dvd_trans ?_ (Nat.dvd_of_mod_eq_zero hzero)
      exact Nat.pow_dvd_pow 10 (show 3 ≤ 3 + back by omega)
    exact hlow (Nat.mod_eq_zero_of_dvd hdvd)
  rw [hscale, ← Nat.mul_assoc, Decimal.compare_mul_right _ _ (Nat.pow_pos (by decide))]
  rw [Nat.add_assoc] at hn ⊢
  exact Decimal.compare_padded_of_shorter (by omega) (by omega) hm hn hrest xs ys

/-- Fractions are in order before a sign, however many digits they have. -/
theorem compare_fractionText {nanos nanos' : Nat} (h : nanos < 1000000000) (h' : nanos' < 1000000000)
    (rest : List Char) :
    compare ((fractionText nanos).toList ++ '+' :: rest) ((fractionText nanos').toList ++ '+' :: rest) =
      compare nanos nanos' := by
  have hnone : (fractionText 0).toList = [] := rfl
  have hpoint : compare '+' '.' = .lt := by decide
  by_cases hzero : nanos = 0
  · subst hzero
    by_cases hzero' : nanos' = 0
    · subst hzero'
      rw [Std.compare_self, Std.compare_self]
    · obtain ⟨width, n, -, -, -, -, htext⟩ := exists_fractionText hzero' h'
      rw [htext, hnone, Nat.compare_eq_lt.mpr (Nat.pos_of_ne_zero hzero')]
      simp [String.toList_append, List.compare_cons_cons, hpoint]
  · obtain ⟨width, n, hwidth, hn, hlow, hnanos, htext⟩ := exists_fractionText hzero h
    by_cases hzero' : nanos' = 0
    · subst hzero'
      rw [htext, hnone, Nat.compare_eq_gt.mpr (Nat.pos_of_ne_zero hzero)]
      have hpoint' : compare '.' '+' = .gt := by decide
      simp [String.toList_append, List.compare_cons_cons, hpoint']
    · obtain ⟨width', n', hwidth', hn', hlow', hnanos', htext'⟩ := exists_fractionText hzero' h'
      have hdot (s : String) (xs : List Char) : ("." ++ s).toList ++ xs = '.' :: (s.toList ++ xs) := by
        simp [String.toList_append]
      rw [htext, htext', hdot, hdot, Text.compare_cons_self, hnanos, hnanos']
      by_cases hless : width < width'
      · exact compare_fraction_of_shorter (by omega) (by omega) hn (by omega) hn' hlow' _ _
      · by_cases hmore : width' < width
        · refine Std.OrientedCmp.eq_swap.trans ?_
          rw [compare_fraction_of_shorter (by omega) (by omega) hn' (by omega) hn hlow]
          exact Std.OrientedCmp.eq_swap.symm
        · obtain rfl : width = width' := by omega
          have hlengths : (padded width n).toList.length = (padded width n').toList.length := by
            rw [Decimal.length_padded width (by omega) hn, Decimal.length_padded width (by omega) hn']
          rw [compare_append hlengths, Decimal.compare_padded (by omega) hn hn', Std.compare_self,
            Ordering.then_eq, Decimal.compare_mul_right _ _ (Nat.pow_pos (by decide))]

/-! ### Texts in columns -/

theorem compare_yearText {year year' : Int} (h : 0 ≤ year ∧ year ≤ 9999)
    (h' : 0 ≤ year' ∧ year' ≤ 9999) (xs ys : List Char) :
    compare ((yearText year).toList ++ xs) ((yearText year').toList ++ ys) =
      (compare year year').then (compare xs ys) := by
  have hlength {y : Int} (hy : 0 ≤ y ∧ y ≤ 9999) : (padded 4 y.toNat).toList.length = 4 :=
    Decimal.length_padded 4 (by decide) (by omega)
  have hnat : compare year.toNat year'.toNat = compare year year' := by
    have hless : year.toNat < year'.toNat ↔ year < year' := by omega
    have heq : year.toNat = year'.toNat ↔ year = year' := by omega
    show compareOfLessAndEq year.toNat year'.toNat = compareOfLessAndEq year year'
    simp only [compareOfLessAndEq, hless, heq]
  have hlengths := (hlength h).trans (hlength h').symm
  rw [yearText_eq_padded h.1 h.2, yearText_eq_padded h'.1 h'.2, compare_append hlengths,
    Decimal.compare_padded (by decide) (by omega) (by omega), hnat]

theorem compare_part {n m : Nat} (hn : n < 100) (hm : m < 100) (xs ys : List Char) :
    compare ((padded 2 n).toList ++ xs) ((padded 2 m).toList ++ ys) =
      (compare n m).then (compare xs ys) := by
  have hlengths : (padded 2 n).toList.length = (padded 2 m).toList.length := by
    rw [Decimal.length_padded 2 (by decide) hn, Decimal.length_padded 2 (by decide) hm]
  rw [compare_append hlengths, Decimal.compare_padded (by decide) hn hm]

/-- **Texts in columns are in the order of the instants that they were written for.** -/
theorem compare_columnText {t t' : Instant} (h : t.Storable) (h' : t'.Storable) :
    compare t.columnText t'.columnText = compare t t' := by
  obtain ⟨⟨-, hmonth, -, hday, hhour, hminute, hsecond, hnanos⟩, hyear, hyearMax⟩ := h
  obtain ⟨⟨-, hmonth', -, hday', hhour', hminute', hsecond', hnanos'⟩, hyear', hyearMax'⟩ := h'
  have hdays := daysIn_le t.year t.month
  have hdays' := daysIn_le t'.year t'.month
  rw [← Text.compare_toList, toList_columnText, toList_columnText,
    compare_yearText ⟨hyear, hyearMax⟩ ⟨hyear', hyearMax'⟩,
    Text.compare_cons_self, compare_part (by omega) (by omega),
    Text.compare_cons_self, compare_part (by omega) (by omega),
    Text.compare_cons_self, compare_part (by omega) (by omega),
    Text.compare_cons_self, compare_part (by omega) (by omega),
    Text.compare_cons_self, compare_part (by omega) (by omega),
    compare_fractionText hnanos hnanos']
  rfl

/-- A column holds digits and the signs between them. -/
theorem ascii_columnText {t : Instant} (h : t.Storable) : ∀ c ∈ t.columnText.toList, c.toNat < 128 := by
  have hpadded (width n : Nat) : ∀ c ∈ (padded width n).toList, c.toNat < 128 := by
    intro c hc
    have hrange := Decimal.toNat_of_isDigit (Decimal.isDigit_of_mem_padded hc)
    omega
  have hyear : ∀ c ∈ (yearText t.year).toList, c.toNat < 128 := by
    rw [yearText_eq_padded h.year_nonneg h.year_le]
    exact hpadded 4 _
  have hfraction : ∀ c ∈ (fractionText t.nanos).toList, c.toNat < 128 := by
    by_cases hzero : t.nanos = 0
    · rw [hzero]
      simp [fractionText]
    · obtain ⟨width, n, -, -, -, -, htext⟩ := exists_fractionText hzero h.valid.2.2.2.2.2.2.2
      rw [htext, String.toList_append]
      intro c hc
      rcases List.mem_append.mp hc with hc | hc
      · obtain rfl : c = '.' := by simpa using hc
        decide
      · exact hpadded width n c hc
  have hoffset : ∀ c ∈ "00:00".toList, c.toNat < 128 := by simp
  rw [toList_columnText]
  simp only [List.forall_mem_append, List.forall_mem_cons]
  exact ⟨hyear, by decide, hpadded 2 _, by decide, hpadded 2 _, by decide, hpadded 2 _, by decide,
    hpadded 2 _, by decide, hpadded 2 _, hfraction, by decide, hoffset⟩

/-- **The bytes of columns are in the order of the instants that they were written for.** -/
theorem compare_encode_columnText {t t' : Instant} (h : t.Storable) (h' : t'.Storable) :
    compare (Text.Utf8.encode t.columnText) (Text.Utf8.encode t'.columnText) = compare t t' := by
  rw [Text.Utf8.compare_encode (ascii_columnText h) (ascii_columnText h'), compare_columnText h h']

end Instant

end CodeGraph
