import CodeGraph.Hash.Uuid
import Mathlib.Algebra.Group.Nat.Defs
import Mathlib.Data.List.Basic

/-!
# Identifiers and their texts

* `ofBytes_bytes` — an identifier of sixteen bytes is spelled by its bytes.
* `hexText_inj` — bytes are known by their digits.
* `Uuid.toText_inj` — an identifier of sixteen bytes is known by its text.
* `Uuid.named_lt` — the identifier of a name has sixteen bytes.
-/

namespace CodeGraph.Hash

/-! ### Bytes -/

theorem length_bigEndian (count n : Nat) : (bigEndian count n).length = count := by
  induction count generalizing n with
  | zero => rfl
  | succ count ih => rw [bigEndian, List.length_append, ih, List.length_singleton]

/-- The bytes of a number spell it again, as far as they go. -/
theorem foldl_bigEndian (count n : Nat) :
    (bigEndian count n).foldl (fun m b => m * 256 + b.toNat) 0 = n % 256 ^ count := by
  induction count generalizing n with
  | zero => rw [Nat.pow_zero, Nat.mod_one]; rfl
  | succ count ih =>
    have hpower : 256 ^ (count + 1) = 256 * 256 ^ count := Nat.pow_succ'
    rw [bigEndian, List.foldl_append, ih, List.foldl_cons, List.foldl_nil, UInt8.toNat_ofNat',
      hpower, Nat.mod_mul]
    omega

theorem foldl_bytes_lt (bs : List UInt8) (m : Nat) :
    bs.foldl (fun m b => m * 256 + b.toNat) m < (m + 1) * 256 ^ bs.length := by
  induction bs generalizing m with
  | nil => simp
  | cons b bs ih =>
    have hb : b.toNat < 256 := b.toNat_lt
    calc (b :: bs).foldl (fun m b => m * 256 + b.toNat) m
        < (m * 256 + b.toNat + 1) * 256 ^ bs.length := ih _
      _ ≤ ((m + 1) * 256) * 256 ^ bs.length := Nat.mul_le_mul_right _ (by omega)
      _ = (m + 1) * 256 ^ (b :: bs).length := by rw [List.length_cons, Nat.pow_succ', Nat.mul_assoc]

/-! ### Digits -/

theorem hexDigit_inj : ∀ m < 16, ∀ n < 16, hexDigit m = hexDigit n → m = n := by decide

theorem hexDigit_ne_mark : ∀ n < 16, hexDigit n ≠ '-' ∧ hexDigit n ≠ '\x00' := by decide

theorem length_hexText (bs : List UInt8) : (hexText bs).toList.length = 2 * bs.length := by
  rw [hexText, String.toList_ofList]
  induction bs with
  | nil => rfl
  | cons b bs ih =>
    rw [List.flatMap_cons, List.length_append, ih, List.length_cons]
    simp only [List.length_cons, List.length_nil]
    omega

theorem ne_mark_of_mem_hexText {bs : List UInt8} {c : Char} (hc : c ∈ (hexText bs).toList) :
    c ≠ '-' ∧ c ≠ '\x00' := by
  rw [hexText, String.toList_ofList] at hc
  obtain ⟨b, -, hdigit⟩ := List.mem_flatMap.mp hc
  have hb : b.toNat < 256 := b.toNat_lt
  simp only [List.mem_cons, List.not_mem_nil, or_false] at hdigit
  rcases hdigit with rfl | rfl
  · exact hexDigit_ne_mark _ (by omega)
  · exact hexDigit_ne_mark _ (by omega)

/-- Bytes are known by their digits. -/
theorem hexText_inj {as bs : List UInt8} (h : (hexText as).toList = (hexText bs).toList) :
    as = bs := by
  simp only [hexText, String.toList_ofList] at h
  induction as generalizing bs with
  | nil =>
    cases bs with
    | nil => rfl
    | cons b bs => cases h
  | cons a as ih =>
    cases bs with
    | nil => cases h
    | cons b bs =>
      simp only [List.flatMap_cons, List.cons_append, List.nil_append, List.cons.injEq] at h
      obtain ⟨hhigh, hlow, hrest⟩ := h
      have ha : a.toNat < 256 := a.toNat_lt
      have hb : b.toNat < 256 := b.toNat_lt
      have hq := hexDigit_inj _ (by omega) _ (by omega) hhigh
      have hr := hexDigit_inj _ (by omega) _ (by omega) hlow
      have hbyte : a.toNat = b.toNat := by omega
      rw [UInt8.toNat_inj.mp hbyte, ih hrest]

/-- What is left of parts between marks without the marks. -/
theorem filter_intercalate {mark : Char} {parts : List (List Char)}
    (h : ∀ cs ∈ parts, ∀ c ∈ cs, c ≠ mark) :
    ([mark].intercalate parts).filter (· ≠ mark) = parts.flatten := by
  induction parts with
  | nil => rfl
  | cons cs parts ih =>
    obtain ⟨hcs, hparts⟩ := List.forall_mem_cons.mp h
    have hkeep : cs.filter (· ≠ mark) = cs :=
      List.filter_eq_self.mpr fun c hc => decide_eq_true (hcs c hc)
    cases parts with
    | nil => rw [List.intercalate_singleton, hkeep, List.flatten_cons, List.flatten_nil,
        List.append_nil]
    | cons ds parts =>
      rw [List.intercalate_cons_cons, List.filter_append, List.filter_append, ih hparts, hkeep,
        List.filter_cons_of_neg (by simp), List.filter_nil, List.append_nil]
      rfl

namespace Uuid

theorem ofBytes_bytes {u : Uuid} (h : u.value < 256 ^ 16) : ofBytes u.bytes = u := by
  rw [ofBytes, bytes, foldl_bigEndian, Nat.mod_eq_of_lt h]

/-- Without its hyphens, the text of an identifier is its digits. -/
theorem filter_toText (u : Uuid) :
    u.toText.toList.filter (· ≠ '-') = (hexText u.bytes).toList := by
  have hlength : (hexText u.bytes).toList.length = 32 := by
    rw [length_hexText, bytes, length_bigEndian]
  have hdigits : ∀ c ∈ (hexText u.bytes).toList, c ≠ '-' :=
    fun c hc => (ne_mark_of_mem_hexText hc).1
  simp only [toText, String.toList_intercalate]
  generalize (hexText u.bytes).toList = ds at hlength hdigits ⊢
  have hjoin (start length : Nat) :
      (ds.drop start).take length ++ ds.drop (start + length) = ds.drop start := by
    rw [← List.drop_drop, List.take_append_drop]
  have hlast : (ds.drop 20).take 12 = ds.drop 20 :=
    List.take_of_length_le (by rw [List.length_drop]; omega)
  have hclean : ∀ cs ∈ [(ds.drop 0).take 8, (ds.drop 8).take 4, (ds.drop 12).take 4,
      (ds.drop 16).take 4, (ds.drop 20).take 12], ∀ c ∈ cs, c ≠ '-' := by
    intro cs hcs c hc
    simp only [List.mem_cons, List.not_mem_nil, or_false] at hcs
    rcases hcs with rfl | rfl | rfl | rfl | rfl <;>
      exact hdigits c (List.mem_of_mem_drop (List.mem_of_mem_take hc))
  have hmark : "-".toList = ['-'] := rfl
  simp only [List.map_cons, List.map_nil, String.toList_ofList, hmark]
  rw [filter_intercalate hclean]
  simp only [List.flatten_cons, List.flatten_nil, List.append_nil]
  rw [hlast, hjoin 16 4, hjoin 12 4, hjoin 8 4, hjoin 0 8, List.drop_zero]

/-- An identifier of sixteen bytes is known by its text. -/
theorem toText_inj {u v : Uuid} (hu : u.value < 256 ^ 16) (hv : v.value < 256 ^ 16)
    (h : u.toText = v.toText) : u = v := by
  have hdigits : (hexText u.bytes).toList = (hexText v.bytes).toList := by
    rw [← filter_toText, h, filter_toText]
  rw [← ofBytes_bytes hu, hexText_inj hdigits, ofBytes_bytes hv]

theorem nul_notMem_toText (u : Uuid) : '\x00' ∉ u.toText.toList := by
  intro hnul
  have hdigit : '\x00' ∈ u.toText.toList.filter (· ≠ '-') := List.mem_filter.mpr ⟨hnul, rfl⟩
  rw [filter_toText] at hdigit
  exact (ne_mark_of_mem_hexText hdigit).2 rfl

/-- The identifier of a name has sixteen bytes. -/
theorem named_lt (space : Uuid) (name : String) : (named space name).value < 256 ^ 16 := by
  have hlength : (marked 5 ((sha1 (space.bytes ++ Text.Utf8.encode name)).take 16)).length ≤ 16 := by
    rw [marked, List.length_map, List.length_zipIdx, List.length_take]
    exact Nat.min_le_left _ _
  calc (named space name).value
      < (0 + 1) * 256 ^ (marked 5 ((sha1 (space.bytes ++ Text.Utf8.encode name)).take 16)).length :=
        foldl_bytes_lt _ 0
    _ ≤ 256 ^ 16 := by
        rw [Nat.zero_add, Nat.one_mul]
        exact Nat.pow_le_pow_right (by decide) hlength

end Uuid

end CodeGraph.Hash
