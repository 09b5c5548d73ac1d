import CodeGraph.Proofs.Text.Order
import Mathlib.Data.List.TakeWhile

/-!
# Texts and their bytes

* `Text.Utf8.decode_encode` — a text is read back from its bytes.
* `Text.Utf8.slash_of_mem_decode` — there is a slash in the text of some bytes only if there is one among
  the bytes: no stretch of several bytes is read as a slash.
* `Text.Utf8.decode_ne_empty` — bytes make a text that is not empty, whatever they are.
-/

namespace CodeGraph.Text.Utf8

/-! ### First bytes -/

section

variable {b : UInt8}

theorem leadByte_one (h : b.toNat < 0x80) : leadByte b = some ⟨0, 0, 0⟩ := by
  rw [leadByte]
  exact if_pos h

theorem leadByte_two (h : 0xC2 ≤ b.toNat) (h' : b.toNat ≤ 0xDF) :
    leadByte b = some ⟨1, 0x80, 0xBF⟩ := by
  have hmany : ¬b.toNat < 0x80 := by omega
  simp only [leadByte, if_neg hmany, h, h', decide_true, Bool.and_self, if_true]

theorem leadByte_three (h : 0xE0 ≤ b.toNat) (h' : b.toNat ≤ 0xEF) :
    leadByte b = some ⟨2, if b.toNat = 0xE0 then 0xA0 else 0x80,
      if b.toNat = 0xED then 0x9F else 0xBF⟩ := by
  simp only [leadByte, Bool.and_eq_true, decide_eq_true_eq]
  split_ifs <;> first | rfl | omega

theorem leadByte_four (h : 0xF0 ≤ b.toNat) (h' : b.toNat ≤ 0xF4) :
    leadByte b = some ⟨3, if b.toNat = 0xF0 then 0x90 else 0x80,
      if b.toNat = 0xF4 then 0x8F else 0xBF⟩ := by
  simp only [leadByte, Bool.and_eq_true, decide_eq_true_eq]
  split_ifs <;> first | rfl | omega

/-- The number of further bytes tells the range of a first byte. -/
theorem range_of_leadByte {lead : LeadByte} (h : leadByte b = some lead) :
    (lead.further = 0 ∧ b.toNat < 0x80) ∨
      (lead.further = 1 ∧ 0xC2 ≤ b.toNat ∧ b.toNat ≤ 0xDF) ∨
      (lead.further = 2 ∧ 0xE0 ≤ b.toNat ∧ b.toNat ≤ 0xEF) ∨
      (lead.further = 3 ∧ 0xF0 ≤ b.toNat ∧ b.toNat ≤ 0xF4) := by
  simp only [leadByte, Bool.and_eq_true, decide_eq_true_eq] at h
  split_ifs at h <;> obtain rfl := Option.some.inj h <;> simp <;> omega

end

/-! ### Reading back -/

theorem units_append (more rest : List UInt8) :
    units more.length (more ++ rest) = units 0 rest := by
  induction more with
  | nil => rfl
  | cons b more ih => exact ih

/-- A first byte takes its further bytes, if the first of them lies in the range that is left to it. -/
theorem units_character {b c : UInt8} {lead : LeadByte} {others : List UInt8}
    (hlead : leadByte b = some lead) (hlength : others.length + 1 = lead.further)
    (hfirst : within lead.low lead.high c = true) (hothers : ∀ d ∈ others, within 0x80 0xBF d = true)
    (rest : List UInt8) : units 0 (b :: c :: others ++ rest) =
      some (Char.ofNat (codePoint b (c :: others))) :: units 0 rest := by
  have hall : others.takeWhile (within 0x80 0xBF) = others := List.takeWhile_eq_self_iff.mpr hothers
  have htake : (c :: others ++ rest).take (others.length + 1) = c :: others := List.take_left' rfl
  have hmore : continuation lead (c :: others ++ rest) = c :: others := by
    rw [continuation, ← hlength, htake]
    dsimp only
    rw [if_pos hfirst, hall]
  have hunit : unit b (c :: others ++ rest) =
      (some (Char.ofNat (codePoint b (c :: others))), (c :: others).length) := by
    simp only [unit, hlead, hmore, List.length_cons, if_pos hlength]
  rw [List.cons_append, units, hunit]
  exact congrArg _ (units_append (c :: others) rest)

theorem within_iff {low high : Nat} {b : UInt8} :
    within low high b = true ↔ low ≤ b.toNat ∧ b.toNat ≤ high := by
  rw [within, Bool.and_eq_true, decide_eq_true_eq, decide_eq_true_eq]

theorem toNat_ofNat {n : Nat} (h : n < 256) : (UInt8.ofNat n).toNat = n :=
  UInt8.toNat_ofNat_of_lt' h

theorem toNat_further (n : Nat) : (UInt8.ofNat (n % 64 + 128)).toNat = n % 64 + 128 :=
  toNat_ofNat (by omega)

theorem within_further (n : Nat) : within 0x80 0xBF (UInt8.ofNat (n % 64 + 128)) = true := by
  rw [within_iff, toNat_further]
  omega

section

variable {v : Nat} (rest : List UInt8)

theorem units_one (h : v < 0x80) :
    units 0 ([UInt8.ofNat v] ++ rest) = some (Char.ofNat v) :: units 0 rest := by
  have hb : (UInt8.ofNat v).toNat = v := toNat_ofNat (by omega)
  have hlead : leadByte (UInt8.ofNat v) = some ⟨0, 0, 0⟩ := leadByte_one (by omega)
  have hunit : unit (UInt8.ofNat v) rest = (some (Char.ofNat v), 0) := by
    simp only [unit, hlead, continuation, List.take_zero, codePoint, hb]
    rfl
  rw [List.singleton_append, units, hunit]

theorem units_two (h : 0x80 ≤ v) (h' : v < 0x800) :
    units 0 ([UInt8.ofNat (v / 64 % 32 + 192), UInt8.ofNat (v % 64 + 128)] ++ rest) =
      some (Char.ofNat v) :: units 0 rest := by
  have hb : (UInt8.ofNat (v / 64 % 32 + 192)).toNat = v / 64 % 32 + 192 := toNat_ofNat (by omega)
  have hlead := leadByte_two (b := UInt8.ofNat (v / 64 % 32 + 192)) (by omega) (by omega)
  have hunits := units_character hlead rfl (within_further v) (List.forall_mem_nil _) rest
  have hvalue : (v / 64 % 32 + 192) % 0x20 * 0x40 + (v % 64 + 128) % 0x40 = v := by omega
  rw [codePoint, hb, toNat_further, hvalue] at hunits
  exact hunits

theorem units_three (h : 0x800 ≤ v) (h' : v < 0x10000) (hvalid : v < 0xD800 ∨ 0xDFFF < v) :
    units 0 ([UInt8.ofNat (v / 4096 % 16 + 224), UInt8.ofNat (v / 64 % 64 + 128),
      UInt8.ofNat (v % 64 + 128)] ++ rest) = some (Char.ofNat v) :: units 0 rest := by
  have hb : (UInt8.ofNat (v / 4096 % 16 + 224)).toNat = v / 4096 % 16 + 224 := toNat_ofNat (by omega)
  have hlead := leadByte_three (b := UInt8.ofNat (v / 4096 % 16 + 224)) (by omega) (by omega)
  -- no code point is written longer than it need be, and none is a surrogate
  have hfirst : within (if v / 4096 % 16 + 224 = 0xE0 then 0xA0 else 0x80)
      (if v / 4096 % 16 + 224 = 0xED then 0x9F else 0xBF) (UInt8.ofNat (v / 64 % 64 + 128)) = true := by
    rw [within_iff, toNat_further]
    split_ifs <;> omega
  rw [hb] at hlead
  have hunits := units_character hlead rfl hfirst
    (List.forall_mem_singleton.mpr (within_further v)) rest
  have hvalue : ((v / 4096 % 16 + 224) % 0x10 * 0x40 + (v / 64 % 64 + 128) % 0x40) * 0x40 +
      (v % 64 + 128) % 0x40 = v := by omega
  rw [codePoint, hb, toNat_further, toNat_further, hvalue] at hunits
  exact hunits

theorem units_four (h : 0x10000 ≤ v) (h' : v < 0x110000) :
    units 0 ([UInt8.ofNat (v / 262144 % 8 + 240), UInt8.ofNat (v / 4096 % 64 + 128),
      UInt8.ofNat (v / 64 % 64 + 128), UInt8.ofNat (v % 64 + 128)] ++ rest) =
        some (Char.ofNat v) :: units 0 rest := by
  have hb : (UInt8.ofNat (v / 262144 % 8 + 240)).toNat = v / 262144 % 8 + 240 := toNat_ofNat (by omega)
  have hlead := leadByte_four (b := UInt8.ofNat (v / 262144 % 8 + 240)) (by omega) (by omega)
  have hfirst : within (if v / 262144 % 8 + 240 = 0xF0 then 0x90 else 0x80)
      (if v / 262144 % 8 + 240 = 0xF4 then 0x8F else 0xBF) (UInt8.ofNat (v / 4096 % 64 + 128)) = true := by
    rw [within_iff, toNat_further]
    split_ifs <;> omega
  rw [hb] at hlead
  have hunits := units_character hlead rfl hfirst
    (List.forall_mem_cons.mpr ⟨within_further (v / 64), List.forall_mem_singleton.mpr (within_further v)⟩)
    rest
  have hvalue : (((v / 262144 % 8 + 240) % 0x08 * 0x40 + (v / 4096 % 64 + 128) % 0x40) * 0x40 +
      (v / 64 % 64 + 128) % 0x40) * 0x40 + (v % 64 + 128) % 0x40 = v := by omega
  rw [codePoint, hb, toNat_further, toNat_further, toNat_further, hvalue] at hunits
  exact hunits

/-- The bytes of a character are read as that character. -/
theorem units_encodeChar (c : Char) :
    units 0 (String.utf8EncodeChar c ++ rest) = some c :: units 0 rest := by
  have hback : Char.ofNat c.val.toNat = c := Char.ofNat_toNat c
  have hvalid : c.val.toNat < 0xD800 ∨ 0xDFFF < c.val.toNat ∧ c.val.toNat < 0x110000 := c.valid
  rw [String.utf8EncodeChar]
  generalize c.val.toNat = v at hback hvalid
  subst hback
  split_ifs with hone htwo hthree
  · exact units_one rest (by omega)
  · exact units_two rest (by omega) (by omega)
  · exact units_three rest (by omega) (by omega) (by omega)
  · exact units_four rest (by omega) (by omega)

end

theorem units_encode (s : String) : units 0 (encode s) = s.toList.map some := by
  rw [encode_eq_flatMap]
  induction s.toList with
  | nil => rfl
  | cons c cs ih => rw [List.flatMap_cons, units_encodeChar, ih, List.map_cons]

/-- **A text is read back from its bytes.** -/
@[simp]
theorem decode_encode (s : String) : decode (encode s) = s := by
  rw [decode, units_encode, List.map_map]
  exact (congrArg String.ofList (List.map_id _)).trans String.ofList_toList

/-! ### Slashes -/

theorem within_of_continuation {lead : LeadByte} {bs more : List UInt8} {c : UInt8}
    (h : continuation lead bs = c :: more) : lead.low ≤ c.toNat ∧ c.toNat ≤ lead.high := by
  rw [continuation] at h
  split at h
  · cases h
  · split at h
    next hwithin =>
      obtain rfl := (List.cons.inj h).1
      exact within_iff.mp hwithin
    · cases h

/-- Several bytes are never read as a character of one byte. -/
theorem le_codePoint {b : UInt8} {lead : LeadByte} {bs : List UInt8} (hlead : leadByte b = some lead)
    (hlength : (continuation lead bs).length = lead.further) (hsome : lead.further ≠ 0) :
    0x80 ≤ codePoint b (continuation lead bs) := by
  cases hmore : continuation lead bs with
  | nil =>
    rw [hmore] at hlength
    exact absurd hlength.symm hsome
  | cons c others =>
    obtain ⟨hlow, hhigh⟩ := within_of_continuation hmore
    rw [hmore, List.length_cons] at hlength
    rcases range_of_leadByte hlead with
      ⟨hnone, -⟩ | ⟨htwo, hb, hb'⟩ | ⟨hthree, hb, hb'⟩ | ⟨hfour, hb, hb'⟩
    · exact absurd hnone hsome
    · obtain rfl : others = [] := List.eq_nil_of_length_eq_zero (by omega)
      rw [codePoint]
      omega
    · obtain ⟨d, rfl⟩ := List.length_eq_one_iff.mp (show others.length = 1 by omega)
      obtain rfl := Option.some.inj ((leadByte_three hb hb').symm.trans hlead)
      dsimp only at hlow hhigh
      rw [codePoint]
      split_ifs at hlow hhigh <;> omega
    · obtain ⟨d, e, rfl⟩ := List.length_eq_two.mp (show others.length = 2 by omega)
      obtain rfl := Option.some.inj ((leadByte_four hb hb').symm.trans hlead)
      dsimp only at hlow hhigh
      rw [codePoint]
      split_ifs at hlow hhigh <;> omega

theorem eq_slash_of_ofNat {n : Nat} (h : Char.ofNat n = '/') : n = 0x2F := by
  by_cases hvalid : n.isValidChar
  · have hnat : (Char.ofNat n).toNat = 0x2F := congrArg Char.toNat h
    rw [Char.ofNat, dif_pos hvalid] at hnat
    exact hnat
  · rw [Char.ofNat, dif_neg hvalid] at h
    cases h

theorem slash_of_unit {b : UInt8} {bs : List UInt8} (h : (unit b bs).1 = some '/') : b.toNat = 0x2F := by
  rw [unit] at h
  split at h
  · cases h
  next lead hlead =>
    dsimp only at h
    split at h
    next hlength =>
      have hslash := eq_slash_of_ofNat (Option.some.inj h)
      by_cases hsome : lead.further = 0
      · rw [List.eq_nil_of_length_eq_zero (hlength.trans hsome), codePoint] at hslash
        exact hslash
      · have hle := le_codePoint hlead hlength hsome
        omega
    · cases h

theorem slash_of_mem_units {skip : Nat} {bs : List UInt8} (h : some '/' ∈ units skip bs) :
    ∃ b ∈ bs, b.toNat = 0x2F := by
  induction bs generalizing skip with
  | nil =>
    cases skip <;> cases h
  | cons b bs ih =>
    cases skip with
    | zero =>
      rcases List.mem_cons.mp h with hunit | h
      · exact ⟨b, List.mem_cons_self, slash_of_unit hunit.symm⟩
      · obtain ⟨c, hc, hslash⟩ := ih h
        exact ⟨c, List.mem_cons_of_mem _ hc, hslash⟩
    | succ skip =>
      obtain ⟨c, hc, hslash⟩ := ih h
      exact ⟨c, List.mem_cons_of_mem _ hc, hslash⟩

/-- **No slash comes out of bytes among which there is none.** -/
theorem slash_of_mem_decode {bs : List UInt8} (h : '/' ∈ (decode bs).toList) :
    ∃ b ∈ bs, b.toNat = 0x2F := by
  rw [decode, String.toList_ofList, List.mem_map] at h
  obtain ⟨c, hc, hslash⟩ := h
  cases c with
  | none => cases hslash
  | some c =>
    obtain rfl : c = '/' := hslash
    exact slash_of_mem_units hc

theorem decode_ne_empty {bs : List UInt8} (h : bs ≠ []) : decode bs ≠ "" := by
  obtain ⟨b, bs, rfl⟩ := List.exists_cons_of_ne_nil h
  intro hempty
  have hchars := congrArg String.toList hempty
  rw [decode, String.toList_ofList, units] at hchars
  cases hchars

end CodeGraph.Text.Utf8
