import CodeGraph.Text.Blank
import Mathlib.Data.List.DropRight

/-!
# Lines and their ends

* `Text.lines_append` — the lines of a text that begins with whole lines.
* `Text.linesFrom_line` — the first line of a text, up to its end.
* `Text.trim_concat` — white space at the end of a text makes no difference to what is left of it.
* `Text.exists_stripped_append` — what is left of a text when something that is not trimmed is put
  behind it.
-/

namespace CodeGraph.Text

/-! ### Lines -/

/-- A line that was read in reverse; a carriage return belongs to the line end. -/
def lineOf (line : List Char) : List Char :=
  match line with
  | '\r' :: rest => rest.reverse
  | _ => line.reverse

theorem lineOf_cases (cs : List Char) : lineOf cs.reverse = cs ∨ cs = lineOf cs.reverse ++ ['\r'] := by
  cases cs using List.reverseRecOn with
  | nil => exact .inl rfl
  | append_singleton cs c =>
    rw [List.reverse_append, List.reverse_singleton, List.singleton_append]
    by_cases hc : c = '\r'
    · subst hc
      right
      rw [lineOf, List.reverse_reverse]
    · left
      unfold lineOf
      split
      next h => exact absurd (List.cons.inj h).1 hc
      next => rw [List.reverse_cons, List.reverse_reverse]

theorem linesFrom_newline (line cs : List Char) :
    linesFrom line ('\n' :: cs) = lineOf line :: linesFrom [] cs := by
  rw [linesFrom.eq_def]
  simp only [if_true]
  rfl

theorem linesFrom_other {c : Char} (h : c ≠ '\n') (line cs : List Char) :
    linesFrom line (c :: cs) = linesFrom (c :: line) cs := by
  rw [linesFrom.eq_def]
  simp only [h, if_false]

theorem linesFrom_nil {line : List Char} (h : line ≠ []) : linesFrom line [] = [line.reverse] := by
  cases line with
  | nil => exact absurd rfl h
  | cons c cs => rfl

theorem linesFrom_append (line front cs : List Char) :
    linesFrom line (front ++ '\n' :: cs) = linesFrom line (front ++ ['\n']) ++ linesFrom [] cs := by
  induction front generalizing line with
  | nil =>
    rw [List.nil_append, List.nil_append, linesFrom_newline, linesFrom_newline, linesFrom,
      List.singleton_append]
  | cons c front ih =>
    rw [List.cons_append, List.cons_append]
    by_cases hc : c = '\n'
    · subst hc
      rw [linesFrom_newline, linesFrom_newline, ih, List.cons_append]
    · rw [linesFrom_other hc, linesFrom_other hc, ih]

/-- A text that consists of whole lines. -/
def Whole (s : String) : Prop := s = "" ∨ ∃ front, s = front ++ "\n"

theorem lines_append {s : String} (h : Whole s) (t : String) : lines (s ++ t) = lines s ++ lines t := by
  rcases h with rfl | ⟨front, rfl⟩
  · rw [String.empty_append]
    rfl
  · have hchars : (front ++ "\n" ++ t).toList = front.toList ++ '\n' :: t.toList := by
      rw [String.toList_append, String.toList_append, List.append_assoc]
      rfl
    have hfront : (front ++ "\n").toList = front.toList ++ ['\n'] := String.toList_append
    rw [lines, lines, lines, hchars, hfront, linesFrom_append, List.map_append]

theorem linesFrom_line {cs : List Char} (h : '\n' ∉ cs) (line rest : List Char) :
    linesFrom line (cs ++ rest) = linesFrom (cs.reverse ++ line) rest := by
  induction cs generalizing line with
  | nil => rfl
  | cons c cs ih =>
    rw [List.mem_cons, not_or] at h
    rw [List.cons_append, linesFrom_other (Ne.symm h.1), ih h.2, List.reverse_cons,
      List.append_assoc]
    rfl

theorem lines_of_single {s : String} (h : '\n' ∉ s.toList) (hne : s ≠ "") : lines s = [s] := by
  have hchars : s.toList.reverse ≠ [] := by simpa using hne
  have hall := linesFrom_line h [] []
  rw [List.append_nil, List.append_nil, linesFrom_nil hchars, List.reverse_reverse] at hall
  rw [lines, hall, List.map_singleton, String.ofList_toList]

/-- A line and its end come first, and a carriage return belongs to the end. -/
theorem lines_line {cs : List Char} (h : '\n' ∉ cs) (rest : List Char) :
    lines (String.ofList (cs ++ '\n' :: rest)) =
      String.ofList (lineOf cs.reverse) :: lines (String.ofList rest) := by
  rw [lines, lines, String.toList_ofList, String.toList_ofList, linesFrom_line h, linesFrom_newline,
    List.append_nil, List.map_cons]

/-! ### Trimming -/

/-- What is left of characters without those at their ends that `p` holds for. -/
def stripped (p : Char → Bool) (cs : List Char) : List Char := (cs.dropWhile p).rdropWhile p

theorem toList_trimBy (p : Char → Bool) (s : String) : (trimBy p s).toList = stripped p s.toList :=
  String.toList_ofList

theorem toList_trim (s : String) : (trim s).toList = stripped isBlank s.toList :=
  String.toList_ofList

theorem trim_concat {c : Char} (h : isBlank c = true) (cs : List Char) :
    trim (String.ofList (cs ++ [c])) = trim (String.ofList cs) := by
  rw [← String.toList_inj, toList_trim, toList_trim, String.toList_ofList, String.toList_ofList,
    stripped, stripped, List.dropWhile_append]
  by_cases hnil : cs.dropWhile isBlank = []
  · rw [hnil]
    simp [h]
  · have hne : (cs.dropWhile isBlank).isEmpty = false := by simpa using hnil
    rw [hne]
    exact List.rdropWhile_concat_pos _ _ _ h

theorem rdropWhile_append_cons {p : Char → Bool} {c : Char} (hc : p c = false) (front back : List Char) :
    (front ++ c :: back).rdropWhile p = front ++ c :: back.rdropWhile p := by
  induction back using List.reverseRecOn with
  | nil => exact List.rdropWhile_concat_neg _ _ _ (by simp [hc])
  | append_singleton back d ih =>
    have happend : front ++ c :: (back ++ [d]) = (front ++ c :: back) ++ [d] := by simp
    rw [happend, List.rdropWhile_concat, List.rdropWhile_concat, ih]
    split
    · rfl
    · simp

/-- What is put behind a text, from a character on that is not trimmed, stays behind what was left of
it, with what was trimmed from its end in between. -/
theorem exists_stripped_append {p : Char → Bool} {c : Char} (hc : p c = false) {text : List Char}
    (hne : stripped p text ≠ []) (front back : List Char) :
    ∃ cut, (∀ x ∈ cut, p x = true) ∧
      stripped p (text ++ (front ++ c :: back)) =
        stripped p text ++ (cut ++ (front ++ c :: back.rdropWhile p)) := by
  have hnil : text.dropWhile p ≠ [] := by
    intro hnil
    rw [stripped, hnil] at hne
    exact hne rfl
  have hempty : (text.dropWhile p).isEmpty = false := by simpa using hnil
  refine ⟨(text.dropWhile p).rtakeWhile p, fun x hx => List.mem_rtakeWhile_imp hx, ?_⟩
  rw [stripped, stripped, List.dropWhile_append, hempty, if_neg Bool.false_ne_true,
    ← List.append_assoc, rdropWhile_append_cons hc, ← List.append_assoc,
    List.rdropWhile_append_rtakeWhile, List.append_assoc]

end CodeGraph.Text
