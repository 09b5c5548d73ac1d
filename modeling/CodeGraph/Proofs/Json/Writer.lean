import CodeGraph.Proofs.Json.Reader

/-!
# What is written can be told apart

* `Json.quoted_append_inj` — a text in quotes is known, and so is what follows it.
* `Json.SelfDelimiting` — a kind of values that are known by their texts, whatever follows them
  within an object.
* `Json.member_inj` — so the members of two objects under the same keys are told apart one after the
  other.
-/

namespace CodeGraph.Json

/-! ### Texts -/

/-- A text in quotes ends where it ends. -/
theorem quoted_append_inj {s t : String} {r r' : List Char}
    (h : (quoted s).toList ++ r = (quoted t).toList ++ r') : s = t ∧ r = r' := by
  have hread (u : String) (rest : List Char) (fuel : Nat) (hfuel : u.toList.length < fuel) :
      textBody? fuel [] ((quoted u).toList ++ rest).tail = some (u, rest) := by
    rw [quoted, String.toList_ofList, List.cons_append, List.cons_append, List.tail_cons,
      List.append_assoc, List.singleton_append, textBody?_escaped _ _ hfuel, List.reverse_nil,
      List.nil_append, String.ofList_toList]
  have hs := hread s r (s.toList.length + t.toList.length + 1) (by omega)
  have ht := hread t r' (s.toList.length + t.toList.length + 1) (by omega)
  rw [h, ht] at hs
  obtain ⟨hst, hr⟩ := Prod.mk.inj (Option.some.inj hs)
  exact ⟨hst.symm, hr.symm⟩

/-! ### Values in objects -/

/-- Values of a kind are known by their texts, whatever follows them within an object. -/
def SelfDelimiting {α : Type} (value : α → Json) : Prop :=
  ∀ {a b : α} {p q : List String}, EndsNumber (pieceChars p) → EndsNumber (pieceChars q) →
    pieceChars (compactPieces (value a) p) = pieceChars (compactPieces (value b) q) →
    a = b ∧ pieceChars p = pieceChars q

theorem selfDelimiting_text : SelfDelimiting text := by
  intro s t p q _ _ h
  rw [compactPieces, compactPieces, pieceChars_cons, pieceChars_cons] at h
  exact quoted_append_inj h

theorem selfDelimiting_bool : SelfDelimiting bool := by
  intro a b p q _ _ h
  rw [compactPieces, compactPieces, pieceChars_cons, pieceChars_cons] at h
  cases a <;> cases b
  · exact ⟨rfl, List.append_cancel_left h⟩
  · exact absurd (List.cons.inj h).1 (by decide)
  · exact absurd (List.cons.inj h).1 (by decide)
  · exact ⟨rfl, List.append_cancel_left h⟩

theorem selfDelimiting_nat : SelfDelimiting nat := by
  intro m n p q hp hq h
  rw [nat, nat, compactPieces, compactPieces, pieceChars_cons, pieceChars_cons, toList_toString_nat,
    toList_toString_nat] at h
  have hdigits (k : Nat) : ∀ c ∈ Nat.toDigits 10 k, c.isDigit = true :=
    fun c hc => Decimal.isDigit_of_mem_toDigits hc
  have hread := congrArg digitsOf h
  rw [digitsOf_append (hdigits m) hp, digitsOf_append (hdigits n) hq] at hread
  obtain ⟨hmn, hrest⟩ := Prod.mk.inj hread
  refine ⟨?_, hrest⟩
  rw [← Decimal.ofDigits_toDigits m, hmn, Decimal.ofDigits_toDigits n]

theorem selfDelimiting_optionalText : SelfDelimiting optionalText := by
  have hmark (t : String) (r r' : List Char) : "null".toList ++ r ≠ (quoted t).toList ++ r' := by
    intro h
    rw [quoted, String.toList_ofList, String.toList_ofList] at h
    exact absurd (List.cons.inj h).1 (by decide)
  intro a b p q hp hq h
  cases a with
  | none =>
    cases b with
    | none => exact ⟨rfl, List.append_cancel_left h⟩
    | some t => exact absurd h (hmark t _ _)
  | some s =>
    cases b with
    | none => exact absurd h.symm (hmark s _ _)
    | some t =>
      obtain ⟨rfl, hrest⟩ := selfDelimiting_text hp hq h
      exact ⟨rfl, hrest⟩

/-- The end of an object and what comes before it. -/
def tailChars (ms : List (String × Json)) : List Char := pieceChars (compactMembers ms ["\x7d"])

theorem endsNumber_tailChars (ms : List (String × Json)) : EndsNumber (tailChars ms) := by
  cases ms with
  | nil => exact ⟨rfl, by decide, by decide, by decide⟩
  | cons m ms => exact ⟨rfl, by decide, by decide, by decide⟩

variable {α : Type} {value : α → Json} {a b : α} {ms ns : List (String × Json)}

/-- Two objects agree in their members under one key, and then in what follows. -/
theorem member_inj (hvalue : SelfDelimiting value) {key : String}
    (h : tailChars ((key, value a) :: ms) = tailChars ((key, value b) :: ns)) :
    a = b ∧ tailChars ms = tailChars ns := by
  simp only [tailChars, compactMembers, pieceChars_cons, List.append_cancel_left_eq] at h
  exact hvalue (endsNumber_tailChars ms) (endsNumber_tailChars ns) h

end CodeGraph.Json
