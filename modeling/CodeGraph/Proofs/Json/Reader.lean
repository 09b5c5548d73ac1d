import CodeGraph.Json.Reader
import CodeGraph.Json.Writer
import CodeGraph.Proofs.Decimal.Digits

/-!
# Objects of numbers read back

* `Json.textBody?_escaped` — a text in quotes is read up to its closing quote.
* `Json.number?_digits` — the digits of a number that fits sixty-four bits are read as that number.
* `Json.read?_compact_numbers` — an object of such numbers is read back from its text.
-/

namespace CodeGraph.Json

/-! ### Texts -/

theorem unit16?_hex4 {n : Nat} (h : n < 32) (rest : List Char) :
    unit16? ((hex4 n).toList ++ rest) = some (n, rest) := by
  have hdigits : ∀ n < 32, (hex4 n).toList.length = 4 ∧ unit16? (hex4 n).toList = some (n, []) := by
    decide
  obtain ⟨hlength, hunit⟩ := hdigits n h
  generalize (hex4 n).toList = cs at hlength hunit ⊢
  match cs with
  | [a, b, c, d] =>
    simp only [unit16?, List.cons_append, List.nil_append, Option.bind_eq_bind, Option.pure_def,
      Option.bind_eq_some_iff, Option.some.injEq, Prod.mk.injEq, and_true] at hunit ⊢
    exact hunit

/-- A character in quotes is read as itself. -/
theorem textBody?_escaped_cons (fuel : Nat) (back : List Char) (c : Char) (rest : List Char) :
    textBody? (fuel + 1) back (escaped c ++ rest) = textBody? fuel (c :: back) rest := by
  have hescape {cs tail : List Char} {d : Char} (h : escape? cs = some (d, tail)) :
      textBody? (fuel + 1) back ('\\' :: cs) = textBody? fuel (d :: back) tail := by
    rw [textBody?, if_neg (by decide), if_pos rfl, h]
  -- two characters that stand for themselves behind a backslash, and five that have a letter
  by_cases hquote : c = '"'
  · rw [hquote]
    exact hescape rfl
  by_cases hslash : c = '\\'
  · rw [hslash]
    exact hescape rfl
  by_cases hline : c = '\n'
  · rw [hline]
    exact hescape rfl
  by_cases hreturn : c = '\r'
  · rw [hreturn]
    exact hescape rfl
  by_cases htab : c = '\t'
  · rw [htab]
    exact hescape rfl
  by_cases hback : c = '\x08'
  · rw [hback]
    exact hescape rfl
  by_cases hfeed : c = '\x0c'
  · rw [hfeed]
    exact hescape rfl
  rw [escaped, if_neg hquote, if_neg hslash, if_neg hline, if_neg hreturn, if_neg htab,
    if_neg hback, if_neg hfeed]
  split
  next hcontrol =>
    refine hescape ?_
    have hunit := unit16?_hex4 hcontrol rest
    have hhigh : ¬(0xD800 ≤ c.toNat) := by omega
    have hlow : ¬(0xDC00 ≤ c.toNat) := by omega
    show escape? ('u' :: ((hex4 c.toNat).toList ++ rest)) = some (c, rest)
    simp [escape?, hunit, hhigh, hlow]
  next hcontrol =>
    rw [List.singleton_append, textBody?, if_neg hquote, if_neg hslash, if_neg hcontrol]

/-- A text in quotes is read up to its closing quote. -/
theorem textBody?_escaped {cs : List Char} {fuel : Nat} (back rest : List Char)
    (hfuel : cs.length < fuel) :
    textBody? fuel back (cs.flatMap escaped ++ '"' :: rest) =
      some (String.ofList (back.reverse ++ cs), rest) := by
  obtain ⟨fuel, rfl⟩ : ∃ k, fuel = k + 1 := ⟨fuel - 1, by omega⟩
  induction cs generalizing fuel back with
  | nil => simp only [List.flatMap_nil, List.nil_append, textBody?, if_pos, List.append_nil]
  | cons c cs ih =>
    simp only [List.length_cons] at hfuel
    obtain ⟨fuel, rfl⟩ : ∃ k, fuel = k + 1 := ⟨fuel - 1, by omega⟩
    rw [List.flatMap_cons, List.append_assoc, textBody?_escaped_cons,
      ih (c :: back) fuel (by omega), List.reverse_cons, List.append_assoc]
    rfl

theorem length_le_flatMap_escaped (cs : List Char) : cs.length ≤ (cs.flatMap escaped).length := by
  have hescaped (c : Char) : 0 < (escaped c).length := by
    unfold escaped
    repeat' split
    all_goals exact Nat.zero_lt_succ _
  induction cs with
  | nil => exact Nat.le_refl 0
  | cons c cs ih =>
    rw [List.flatMap_cons, List.length_append, List.length_cons]
    have hc := hescaped c
    omega

/-! ### Numbers -/

/-- What may follow a number that has neither point nor exponent. -/
def EndsNumber : List Char → Prop
  | [] => True
  | c :: _ => c.isDigit = false ∧ c ≠ '.' ∧ c ≠ 'e' ∧ c ≠ 'E'

theorem digitsOf_append {ds rest : List Char} (hds : ∀ c ∈ ds, c.isDigit = true)
    (hrest : EndsNumber rest) : digitsOf (ds ++ rest) = (ds, rest) := by
  have hstop : ∀ c ∈ rest.head?, c.isDigit = false := by
    intro c hc
    cases rest with
    | nil => cases hc
    | cons d cs =>
      obtain rfl : d = c := Option.some.inj hc
      exact hrest.1
  rw [digitsOf, Decimal.takeWhile_digits hds hstop, Decimal.dropWhile_digits hds hstop]

theorem fraction?_of_endsNumber {rest : List Char} (h : EndsNumber rest) :
    fraction? rest = some ([], rest) := by
  unfold fraction?
  split
  next => exact absurd rfl h.2.1
  next => rfl

theorem exponent?_of_endsNumber {rest : List Char} (h : EndsNumber rest) :
    exponent? rest = some (none, rest) := by
  cases rest with
  | nil => rfl
  | cons c cs => simp [exponent?, h.2.2.1, h.2.2.2]

theorem number?_digits {n : Nat} {rest : List Char} (hn : n < 2 ^ 64) (hrest : EndsNumber rest) :
    number? false (Nat.toDigits 10 n ++ rest) = some (nat n, rest) := by
  have hdigits := digitsOf_append (fun c => Decimal.isDigit_of_mem_toDigits (n := n)) hrest
  have hshape : ((Nat.toDigits 10 n).isEmpty || ((Nat.toDigits 10 n).head? = some '0' &&
      1 < (Nat.toDigits 10 n).length)) = false := by
    rw [List.isEmpty_eq_false_iff.mpr Nat.toDigits_ne_nil]
    rcases Nat.eq_zero_or_pos n with rfl | hpos
    · rfl
    · simp [Decimal.head_toDigits_ne hpos]
  simp only [number?, hdigits, hshape, fraction?_of_endsNumber hrest, Decimal.ofDigits_toDigits]
  have hfits : n < 18446744073709551616 := hn
  simp [exponent?_of_endsNumber hrest, hfits, nat]

/-- A number at the head of a text is read as a value. -/
theorem value?_digits {fuel n : Nat} {rest : List Char} (hn : n < 2 ^ 64)
    (hrest : EndsNumber rest) :
    value? (fuel + 1) (Nat.toDigits 10 n ++ rest) = some (nat n, rest) := by
  have hnumber := number?_digits hn hrest
  obtain ⟨c, ds, hdigits⟩ : ∃ c ds, Nat.toDigits 10 n = c :: ds :=
    List.exists_cons_of_ne_nil Nat.toDigits_ne_nil
  have hc : c.isDigit = true :=
    Decimal.isDigit_of_mem_toDigits (n := n) (hdigits ▸ List.mem_cons_self)
  rw [hdigits, List.cons_append] at hnumber ⊢
  have hskip : skipBlanks (c :: (ds ++ rest)) = c :: (ds ++ rest) := by
    refine List.dropWhile_cons_of_neg ?_
    intro hblank
    simp only [Bool.or_eq_true, decide_eq_true_eq] at hblank
    rcases hblank with ((rfl | rfl) | rfl) | rfl <;> exact absurd hc (by decide)
  rw [value?, hskip]
  -- a digit starts no value but a number without a sign
  split
  all_goals
    first
    | exact hnumber
    | (rename_i heq
       obtain ⟨rfl, -⟩ := List.cons.inj heq
       exact absurd hc (by decide))

/-! ### Objects of numbers -/

/-- Numbers under their keys. -/
def numbers (ms : List (String × Nat)) : List (String × Json) := ms.map fun m => (m.1, nat m.2)

theorem numbers_cons (m : String × Nat) (ms : List (String × Nat)) :
    numbers (m :: ms) = (m.1, nat m.2) :: numbers ms := rfl

/-- The characters of pieces. -/
def pieceChars (pieces : List String) : List Char := pieces.flatMap String.toList

theorem pieceChars_cons (s : String) (pieces : List String) :
    pieceChars (s :: pieces) = s.toList ++ pieceChars pieces := List.flatMap_cons

theorem pieceChars_mark {s : String} {c : Char} (h : s.toList = [c]) (pieces : List String) :
    pieceChars (s :: pieces) = c :: pieceChars pieces := by
  rw [pieceChars_cons, h, List.singleton_append]

theorem toList_toString_nat (n : Nat) : (toString (n : Int)).toList = Nat.toDigits 10 n :=
  String.toList_ofList

theorem skipBlanks_cons {c : Char} {cs : List Char}
    (h : c = '"' ∨ c = ',' ∨ c = ':' ∨ c = '\x7b' ∨ c = '\x7d') :
    skipBlanks (c :: cs) = c :: cs := by
  rcases h with rfl | rfl | rfl | rfl | rfl <;> rfl

/-- What becomes of the members read so far: a comma announces another, a brace closes the
object. -/
def afterMember (fuel : Nat) (back : List (String × Json)) (rest : List Char) :
    Option (Json × List Char) :=
  match skipBlanks rest with
  | ',' :: rest => members? fuel back rest
  | '\x7d' :: rest => some (object back.reverse, rest)
  | _ => none

theorem afterMember_comma (fuel : Nat) (back : List (String × Json)) (rest : List Char) :
    afterMember fuel back (',' :: rest) = members? fuel back rest := rfl

theorem afterMember_brace (fuel : Nat) (back : List (String × Json)) (rest : List Char) :
    afterMember fuel back ('\x7d' :: rest) = some (object back.reverse, rest) := rfl

/-- One member is read off, and what follows it decides whether there are more. -/
theorem members?_number {n : Nat} {rest : List Char} (key : String) (fuel : Nat)
    (back : List (String × Json)) (hn : n < 2 ^ 64) (hrest : EndsNumber rest) :
    members? (fuel + 2) back ((quoted key).toList ++ ':' :: (Nat.toDigits 10 n ++ rest)) =
      afterMember (fuel + 1) ((key, nat n) :: back) rest := by
  have hlength : key.toList.length <
      (key.toList.flatMap escaped ++ '"' :: ':' :: (Nat.toDigits 10 n ++ rest)).length + 1 := by
    have hle := length_le_flatMap_escaped key.toList
    rw [List.length_append]
    omega
  have htext := textBody?_escaped [] (':' :: (Nat.toDigits 10 n ++ rest)) hlength
  have hchars : (quoted key).toList ++ ':' :: (Nat.toDigits 10 n ++ rest) =
      '"' :: (key.toList.flatMap escaped ++ '"' :: ':' :: (Nat.toDigits 10 n ++ rest)) := by
    simp [quoted]
  rw [hchars, members?, skipBlanks_cons (by simp)]
  simp only [htext, List.reverse_nil, List.nil_append, String.ofList_toList,
    skipBlanks_cons (c := ':') (by simp), value?_digits hn hrest]
  rfl

theorem pieceChars_member (key : String) (n : Nat) (pieces : List String) :
    pieceChars (quoted key :: ":" :: compactPieces (nat n) pieces) =
      (quoted key).toList ++ ':' :: (Nat.toDigits 10 n ++ pieceChars pieces) := by
  rw [nat, compactPieces, pieceChars_cons, pieceChars_cons, pieceChars_cons, toList_toString_nat]
  rfl

theorem pieceChars_members (m : String × Nat) (ms : List (String × Nat)) (pieces : List String) :
    pieceChars (compactMembers (numbers (m :: ms)) pieces) =
      ',' :: pieceChars (quoted m.1 :: ":" ::
        compactPieces (nat m.2) (compactMembers (numbers ms) pieces)) := by
  rw [numbers_cons, compactMembers, pieceChars_mark (c := ',') rfl]

/-- The members of an object are read up to its closing brace. -/
theorem members?_numbers {ms : List (String × Nat)} {fuel : Nat} (key : String) (n : Nat)
    (hfuel : ms.length + 2 ≤ fuel) (back : List (String × Json)) (pieces : List String)
    (hsize : ∀ m ∈ (key, n) :: ms, m.2 < 2 ^ 64) :
    members? fuel back (pieceChars (quoted key :: ":" ::
      compactPieces (nat n) (compactMembers (numbers ms) ("\x7d" :: pieces)))) =
      some (object (back.reverse ++ numbers ((key, n) :: ms)), pieceChars pieces) := by
  induction ms generalizing key n fuel back with
  | nil =>
    obtain ⟨fuel, rfl⟩ : ∃ k, fuel = k + 2 := ⟨fuel - 2, by omega⟩
    have hend : EndsNumber ('\x7d' :: pieceChars pieces) := ⟨rfl, by decide, by decide, by decide⟩
    have hmember := members?_number key fuel back (hsize _ List.mem_cons_self) hend
    have hclose : pieceChars (compactMembers (numbers []) ("\x7d" :: pieces)) =
        '\x7d' :: pieceChars pieces := pieceChars_mark rfl _
    rw [pieceChars_member, hclose, hmember, afterMember_brace]
    simp [numbers]
  | cons m ms ih =>
    obtain ⟨fuel, rfl⟩ : ∃ k, fuel = k + 2 := ⟨fuel - 2, by omega⟩
    have hshort : ms.length + 2 ≤ fuel + 1 := by
      rw [List.length_cons] at hfuel
      omega
    have hend : EndsNumber (',' :: pieceChars (quoted m.1 :: ":" ::
        compactPieces (nat m.2) (compactMembers (numbers ms) ("\x7d" :: pieces)))) :=
      ⟨rfl, by decide, by decide, by decide⟩
    have hrest := ih m.1 m.2 hshort ((key, nat n) :: back)
      (fun x hx => hsize x (List.mem_cons_of_mem _ hx))
    have hmember := members?_number key fuel back (hsize _ List.mem_cons_self) hend
    rw [pieceChars_member, pieceChars_members, hmember, afterMember_comma, hrest]
    simp [numbers]

/-- An opening brace in front of a key starts an object. -/
theorem value?_object {fuel : Nat} {tail : List Char} :
    value? (fuel + 1) ('\x7b' :: '"' :: tail) = members? fuel [] ('"' :: tail) := by
  rw [value?, skipBlanks_cons (by simp)]
  simp only [skipBlanks_cons (c := '"') (by simp)]
  rfl

theorem length_le_members (ms : List (String × Nat)) (pieces : List String) :
    ms.length ≤ (pieceChars (compactMembers (numbers ms) pieces)).length := by
  induction ms with
  | nil => exact Nat.zero_le _
  | cons m ms ih =>
    rw [pieceChars_members, pieceChars_member]
    simp only [List.length_cons, List.length_append]
    omega

/-- **An object of numbers is read back from its text**, when every number fits sixty-four bits. -/
theorem read?_compact_numbers {ms : List (String × Nat)} (hsize : ∀ m ∈ ms, m.2 < 2 ^ 64) :
    read? (object (numbers ms)).compact = some (object (numbers ms)) := by
  cases ms with
  | nil => rfl
  | cons m ms =>
    obtain ⟨chars, hchars⟩ : ∃ chars, pieceChars (quoted m.1 :: ":" ::
      compactPieces (nat m.2) (compactMembers (numbers ms) ["\x7d"])) = chars := ⟨_, rfl⟩
    have htext : (object (numbers (m :: ms))).compact.toList = '\x7b' :: chars := by
      rw [compact, String.toList_join, numbers_cons, compactPieces, ← hchars]
      exact pieceChars_mark rfl _
    obtain ⟨tail, htail⟩ : ∃ tail, chars = '"' :: tail := by
      rw [← hchars, pieceChars_member, quoted, String.toList_ofList]
      exact ⟨_, rfl⟩
    have hlength : ms.length + 1 ≤ chars.length := by
      have hle := length_le_members ms ["\x7d"]
      rw [← hchars, pieceChars_member]
      simp only [List.length_cons, List.length_append]
      omega
    have hmembers : members? (chars.length + 1) [] chars =
        some (object (numbers (m :: ms)), []) := by
      have hfuel : ms.length + 2 ≤ chars.length + 1 := by omega
      have hall := members?_numbers m.1 m.2 hfuel [] [] hsize
      rw [hchars] at hall
      exact hall
    have hvalue : value? (chars.length + 2) ('\x7b' :: chars) =
        some (object (numbers (m :: ms)), []) := by
      rw [htail] at hmembers ⊢
      rw [value?_object, hmembers]
    simp only [read?, htext, List.length_cons, hvalue]
    rfl

end CodeGraph.Json
