import CodeGraph.Text.Utf8
import Mathlib.Data.List.Lex
import Mathlib.Data.String.Basic

/-!
# The order of texts and of their bytes

* `compare_append` — of lists that begin with equally long parts, the first parts decide, and behind
  them the rest.
* `Text.compare_toList` — texts are compared by their characters.
* `Text.Utf8.compare_encode` — texts of ASCII characters are in the order of their bytes.
-/

namespace CodeGraph

theorem compare_append {α : Type} [Ord α] {as bs : List α} (h : as.length = bs.length)
    (xs ys : List α) :
    compare (as ++ xs) (bs ++ ys) = (compare as bs).then (compare xs ys) := by
  induction as generalizing bs with
  | nil =>
    cases bs with
    | nil => rfl
    | cons b bs => simp at h
  | cons a as ih =>
    cases bs with
    | nil => simp at h
    | cons b bs =>
      have hrest : as.length = bs.length := by simpa using h
      rw [List.cons_append, List.cons_append, List.compare_cons_cons, List.compare_cons_cons,
        ih hrest, Ordering.then_assoc]

namespace Text

theorem compare_char (c d : Char) : compare c d = compare c.toNat d.toNat := by
  have hless : c < d ↔ c.toNat < d.toNat := Iff.rfl
  have heq : c = d ↔ c.toNat = d.toNat := Char.toNat_inj.symm
  show compareOfLessAndEq c d = compareOfLessAndEq c.toNat d.toNat
  simp only [compareOfLessAndEq, hless, heq]

theorem compare_cons_self (c : Char) (cs ds : List Char) : compare (c :: cs) (c :: ds) = compare cs ds := by
  rw [List.compare_cons_cons, Std.compare_self]
  rfl

theorem compare_chars_eq_lt (cs ds : List Char) : compare cs ds = .lt ↔ cs < ds := by
  induction cs generalizing ds with
  | nil => cases ds <;> simp
  | cons c cs ih =>
    cases ds with
    | nil => simp
    | cons d ds =>
      have hchar : compare c d = .lt ↔ c < d := by
        rw [compare_char, Nat.compare_eq_lt]
        rfl
      rw [List.compare_cons_cons, Ordering.then_eq_lt, hchar, List.cons_lt_cons_iff, ih,
        Std.compare_eq_iff_eq]

/-- Texts are compared by their characters. -/
theorem compare_toList (s t : String) : compare s.toList t.toList = compare s t := by
  have hless (s t : String) : compare s.toList t.toList = .lt ↔ s < t := compare_chars_eq_lt _ _
  show _ = compareOfLessAndEq s t
  unfold compareOfLessAndEq
  by_cases hlt : s < t
  · rw [if_pos hlt]
    exact (hless s t).mpr hlt
  · rw [if_neg hlt]
    by_cases heq : s = t
    · rw [if_pos heq, heq]
      exact Std.compare_self
    · rw [if_neg heq]
      cases h : compare s.toList t.toList with
      | lt => exact absurd ((hless s t).mp h) hlt
      | eq => exact absurd (String.toList_inj.mp (Std.compare_eq_iff_eq.mp h)) heq
      | gt => rfl

/-! ### Bytes -/

namespace Utf8

theorem toList_loop (bs : ByteArray) (i : Nat) (done : List UInt8) :
    ByteArray.toList.loop bs i done = done.reverse ++ bs.data.toList.drop i := by
  fun_induction ByteArray.toList.loop bs i done with
  | case1 i done hlt ih =>
    have hi : i < bs.data.toList.length := hlt
    have hget : bs.get! i = bs.data.toList[i] := by
      simp only [ByteArray.get!, Array.getElem_toList]
      exact getElem!_pos bs.data i hlt
    rw [ih, List.reverse_cons, List.append_assoc, hget, List.drop_eq_getElem_cons hi]
    rfl
  | case2 i done hge =>
    have hi : bs.data.toList.length ≤ i := Nat.le_of_not_lt hge
    rw [List.drop_of_length_le hi, List.append_nil]

theorem encode_eq_flatMap (s : String) : encode s = s.toList.flatMap String.utf8EncodeChar := by
  have hbytes : s.toUTF8 = s.toList.utf8Encode := String.utf8Encode_toList.symm
  rw [encode, hbytes, ByteArray.toList, toList_loop, List.utf8Encode, List.toList_data_toByteArray]
  rfl

/-- An ASCII character is one byte. -/
theorem encodeChar_of_lt {c : Char} (h : c.toNat < 128) :
    String.utf8EncodeChar c = [UInt8.ofNat c.toNat] := by
  have hval : c.val ≤ 0x7f := by
    show c.toNat ≤ 127
    omega
  exact String.utf8EncodeChar_eq_singleton (Char.utf8Size_eq_one_iff.mpr hval)

theorem encode_of_ascii {s : String} (h : ∀ c ∈ s.toList, c.toNat < 128) :
    encode s = s.toList.map fun c => UInt8.ofNat c.toNat := by
  rw [encode_eq_flatMap, List.map_eq_flatMap]
  exact List.flatMap_congr fun c hc => encodeChar_of_lt (h c hc)

theorem compare_byte {c d : Char} (hc : c.toNat < 128) (hd : d.toNat < 128) :
    compare (UInt8.ofNat c.toNat) (UInt8.ofNat d.toNat) = compare c d := by
  have hnat (b b' : UInt8) : compare b b' = compare b.toNat b'.toNat := by
    have hless : b < b' ↔ b.toNat < b'.toNat := Iff.rfl
    have heq : b = b' ↔ b.toNat = b'.toNat := UInt8.toNat_inj.symm
    show compareOfLessAndEq b b' = compareOfLessAndEq b.toNat b'.toNat
    simp only [compareOfLessAndEq, hless, heq]
  have hsmall {n : Nat} (h : n < 128) : (UInt8.ofNat n).toNat = n :=
    UInt8.toNat_ofNat_of_lt' (Nat.lt_trans h (by decide))
  rw [hnat, compare_char, hsmall hc, hsmall hd]

/-- **Texts of ASCII characters are in the order of their bytes.** -/
theorem compare_encode {s t : String} (hs : ∀ c ∈ s.toList, c.toNat < 128)
    (ht : ∀ c ∈ t.toList, c.toNat < 128) : compare (encode s) (encode t) = compare s t := by
  rw [encode_of_ascii hs, encode_of_ascii ht, ← compare_toList]
  generalize s.toList = cs at hs ⊢
  generalize t.toList = ds at ht ⊢
  induction cs generalizing ds with
  | nil => cases ds <;> rfl
  | cons c cs ih =>
    cases ds with
    | nil => rfl
    | cons d ds =>
      have hrest := ih (fun c hc => hs c (List.mem_cons_of_mem _ hc)) ds
        fun d hd => ht d (List.mem_cons_of_mem _ hd)
      rw [List.map_cons, List.map_cons, List.compare_cons_cons, List.compare_cons_cons, hrest,
        compare_byte (hs c List.mem_cons_self) (ht d List.mem_cons_self)]

end Utf8

end Text

end CodeGraph
