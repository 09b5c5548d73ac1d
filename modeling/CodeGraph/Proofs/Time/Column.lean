import CodeGraph.Proofs.Decimal.Digits
import CodeGraph.Time.Reader
import Mathlib.Data.List.TakeWhile

/-!
# Instants read back from columns

* `Instant.Storable` — an instant of which the year has four digits.
* `Instant.number_padded`, `Instant.nanos_fractionText` — the parts of a text are read off one by
  one.
* `Instant.read_columnText` — the text in a column is read back as the instant it was written for.
-/

namespace CodeGraph.Instant

open Decimal (padded)

/-- An instant of the years 0 to 9999. -/
structure Storable (t : Instant) : Prop where
  valid : t.Valid
  year_nonneg : 0 ≤ t.year
  year_le : t.year ≤ 9999

instance (t : Instant) : Decidable t.Storable :=
  decidable_of_iff (t.Valid ∧ 0 ≤ t.year ∧ t.year ≤ 9999)
    ⟨fun h => ⟨h.1, h.2.1, h.2.2⟩, fun h => ⟨h.1, h.2, h.3⟩⟩

theorem daysIn_le (year : Int) (month : Nat) : daysIn year month ≤ 31 := by
  unfold daysIn
  split_ifs <;> omega

/-! ### Parts of a text -/

theorem number_digits {least most : Nat} {ds rest : List Char} (hleast : least ≤ ds.length)
    (htake : ((ds ++ rest).take most).takeWhile Char.isDigit = ds) :
    number least most (ds ++ rest) = .ok (Decimal.ofDigits ds, rest) := by
  simp only [number, htake]
  rw [if_neg (by omega), List.drop_left]

theorem number_padded {width n : Nat} {rest : List Char} (hwidth : 0 < width)
    (h : n < 10 ^ width) :
    number width width ((padded width n).toList ++ rest) = .ok (n, rest) := by
  have hlength := Decimal.length_padded width hwidth h
  have hdigits : ∀ c ∈ (padded width n).toList, c.isDigit = true :=
    fun c => Decimal.isDigit_of_mem_padded
  have htake : (((padded width n).toList ++ rest).take width).takeWhile Char.isDigit =
      (padded width n).toList := by
    rw [List.take_left' hlength]
    exact List.takeWhile_eq_self_iff.mpr hdigits
  rw [number_digits (by omega) htake, Decimal.ofDigits_padded]

theorem part_padded {n : Nat} {rest : List Char} (h : n < 100) :
    strict.part ((padded 2 n).toList ++ rest) = .ok (n, rest) :=
  number_padded (by decide) h

theorem mark_cons (c : Char) (cs : List Char) : strict.mark c (c :: cs) = .ok (c, cs) := by
  simp [Manner.mark, Manner.skip, strict, oneOf]

theorem yearText_eq_padded {year : Int} (h : 0 ≤ year) (h' : year ≤ 9999) :
    yearText year = padded 4 year.toNat := by simp [yearText, h, h']

theorem year_yearText {year : Int} {rest : List Char} (h : 0 ≤ year) (h' : year ≤ 9999) :
    strict.year ((yearText year).toList ++ rest) = .ok (year, rest) := by
  have hnumber : number 4 4 ((padded 4 year.toNat).toList ++ rest) = .ok (year.toNat, rest) :=
    number_padded (by decide) (by omega)
  have hyear : strict.year ((padded 4 year.toNat).toList ++ rest) =
      (number 4 4 ((padded 4 year.toNat).toList ++ rest)).bind fun r =>
        .ok ((r.1 : Int), r.2) := rfl
  rw [yearText_eq_padded h h', hyear, hnumber]
  show Except.ok ((year.toNat : Int), rest) = _
  rw [Int.toNat_of_nonneg h]

theorem nanos_fraction (width n : Nat) {rest : List Char} (hwidth : 0 < width) (hle : width ≤ 9)
    (h : n < 10 ^ width) (hrest : ∀ c ∈ rest.head?, c.isDigit = false) :
    strict.nanos ('.' :: ((padded width n).toList ++ rest)) = .ok (n * 10 ^ (9 - width), rest) := by
  have hlength := Decimal.length_padded width hwidth h
  have hdigits : ∀ c ∈ (padded width n).toList, c.isDigit = true :=
    fun c => Decimal.isDigit_of_mem_padded
  have hwhile := Decimal.takeWhile_digits hdigits hrest
  have hnumber : number 1 ((padded width n).toList ++ rest).length
      ((padded width n).toList ++ rest) = .ok (n, rest) := by
    rw [number_digits (by omega) (by rw [List.take_length, hwhile]), Decimal.ofDigits_padded]
  simp only [Manner.nanos, hnumber, hwhile]
  show Except.ok _ = _
  rw [List.take_of_length_le (by omega), Decimal.ofDigits_padded, hlength]
  rfl

theorem nanos_fractionText {nanos : Nat} {rest : List Char} (h : nanos < 1000000000) :
    strict.nanos ((fractionText nanos).toList ++ '+' :: rest) = .ok (nanos, '+' :: rest) := by
  have hstop : ∀ c ∈ ('+' :: rest).head?, c.isDigit = false := by
    intro c hc
    obtain rfl : '+' = c := Option.some.inj hc
    rfl
  unfold fractionText
  split
  next hzero =>
    subst hzero
    rfl
  next hpos =>
    split
    next hmillis =>
      have hpart := nanos_fraction 3 (nanos / 1000000) (by decide) (by decide)
        (by omega) hstop
      rw [String.toList_append]
      refine Eq.trans hpart ?_
      show Except.ok (nanos / 1000000 * 1000000, _) = _
      rw [Nat.div_mul_cancel (Nat.dvd_of_mod_eq_zero hmillis)]
    next =>
      split
      next hmicros =>
        have hpart := nanos_fraction 6 (nanos / 1000) (by decide) (by decide)
          (by omega) hstop
        rw [String.toList_append]
        refine Eq.trans hpart ?_
        show Except.ok (nanos / 1000 * 1000, _) = _
        rw [Nat.div_mul_cancel (Nat.dvd_of_mod_eq_zero hmicros)]
      next =>
        have hpart := nanos_fraction 9 nanos (by decide) (by decide) h hstop
        rw [String.toList_append]
        refine Eq.trans hpart ?_
        rw [Nat.sub_self, Nat.pow_zero, Nat.mul_one]

theorem shifted_zero {t : Instant} (hhour : t.hour < 24) (hminute : t.minute < 60) :
    t.shifted 0 = t := by
  have htotal : (((t.hour : Int) * 60 + t.minute + 0) % 1440).toNat = t.hour * 60 + t.minute := by
    omega
  have hday : (t.hour * 60 + t.minute) / 60 = t.hour := by omega
  have hrest : (t.hour * 60 + t.minute) % 60 = t.minute := by omega
  simp only [shifted, htotal, hday, hrest]
  rw [if_neg (by omega), if_neg (by omega)]

/-! ### The whole text -/

theorem toList_columnText (t : Instant) : t.columnText.toList =
    (yearText t.year).toList ++ '-' :: ((padded 2 t.month).toList ++ '-' ::
      ((padded 2 t.day).toList ++ 'T' :: ((padded 2 t.hour).toList ++ ':' ::
      ((padded 2 t.minute).toList ++ ':' :: ((padded 2 t.second).toList ++
      ((fractionText t.nanos).toList ++ '+' :: "00:00".toList)))))) := by
  simp [columnText, stamp, String.toList_append]

/-- No character takes less than a byte. -/
theorem length_le_utf8ByteSize (s : String) : s.toList.length ≤ s.utf8ByteSize := by
  have hchars (cs : List Char) : cs.length ≤ (String.ofList cs).utf8ByteSize := by
    induction cs with
    | nil => exact Nat.zero_le _
    | cons c cs ih =>
      have hpos := Char.utf8Size_pos c
      rw [String.ofList_cons, String.utf8ByteSize_append, String.utf8ByteSize_singleton,
        List.length_cons]
      omega
  have h := hchars s.toList
  rwa [String.ofList_toList] at h

/-- **The text in a column is read back as the instant it was written for.** -/
theorem read_columnText {t : Instant} (h : t.Storable) : read t.columnText = .ok t := by
  obtain ⟨⟨hmonth, hmonth', hday, hday', hhour, hminute, hsecond, hnanos⟩, hyear, hyear'⟩ := h
  have hdays := daysIn_le t.year t.month
  have hsize : ¬t.columnText.utf8ByteSize < 19 := by
    have hle := length_le_utf8ByteSize t.columnText
    have hparts : 19 ≤ t.columnText.toList.length := by
      rw [toList_columnText, yearText_eq_padded hyear hyear']
      simp only [List.length_append, List.length_cons,
        Decimal.length_padded 4 (by decide) (show t.year.toNat < 10 ^ 4 by omega),
        Decimal.length_padded 2 (by decide) (show t.month < 10 ^ 2 by omega),
        Decimal.length_padded 2 (by decide) (show t.day < 10 ^ 2 by omega),
        Decimal.length_padded 2 (by decide) (show t.hour < 10 ^ 2 by omega),
        Decimal.length_padded 2 (by decide) (show t.minute < 10 ^ 2 by omega),
        Decimal.length_padded 2 (by decide) (show t.second < 10 ^ 2 by omega)]
      omega
    omega
  have hzone : strict.zone ('+' :: "00:00".toList) = .ok (0, []) := by decide
  have hletter (cs : List Char) : oneOf ['T', 't', ' '] ('T' :: cs) = .ok ('T', cs) := rfl
  have hvalid : Valid ⟨t.year, t.month, t.day, t.hour, t.minute, t.second, t.nanos⟩ :=
    ⟨hmonth, hmonth', hday, hday', hhour, hminute, hsecond, hnanos⟩
  rw [read, if_neg hsize, toList_columnText]
  simp only [Manner.instant, year_yearText hyear hyear', bind, Except.bind, mark_cons,
    part_padded (show t.month < 100 by omega), part_padded (show t.day < 100 by omega), hletter,
    part_padded (show t.hour < 100 by omega), part_padded (show t.minute < 100 by omega),
    part_padded (show t.second < 100 by omega), nanos_fractionText hnanos, hzone, if_pos hvalid]
  rw [Int.neg_zero, shifted_zero hhour hminute]
  rfl

end CodeGraph.Instant
