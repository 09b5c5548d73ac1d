/-!
# White space, words and lines

* `isBlank` — the property White_Space.
* `words` — the maximal runs of other characters; `normalize` joins them by single spaces.
* `trim` — a text without the white space at its ends.
* `lineCount`, `lines` — lines end at a line feed; a last line without one counts if it is not empty,
  and a carriage return before the line feed belongs to the line end.
-/

namespace CodeGraph.Text

/-- The property White_Space. -/
def isBlank (c : Char) : Bool :=
  let n := c.toNat
  n == 32 || (9 ≤ n && n ≤ 13) || n == 0x85 || n == 0xA0 || n == 0x1680 ||
    (0x2000 ≤ n && n ≤ 0x200A) || n == 0x2028 || n == 0x2029 || n == 0x202F || n == 0x205F || n == 0x3000

/-- The words of a text, with the word in progress in reverse. -/
def wordsFrom : List Char → List Char → List (List Char)
  | [], [] => []
  | word, [] => [word.reverse]
  | word, c :: cs =>
    if isBlank c then
      if word.isEmpty then wordsFrom [] cs else word.reverse :: wordsFrom [] cs
    else wordsFrom (c :: word) cs

/-- The maximal runs without white space. -/
def words (s : String) : List String := (wordsFrom [] s.toList).map String.ofList

/-- Every run of white space becomes one space, and none is left at the ends. -/
def normalize (s : String) : String := " ".intercalate (words s)

/-- A text without the white space at its ends. -/
def trim (s : String) : String :=
  String.ofList ((s.toList.dropWhile isBlank).reverse.dropWhile isBlank).reverse

/-- A text without leading and trailing copies of the characters `p` holds for. -/
def trimBy (p : Char → Bool) (s : String) : String :=
  String.ofList ((s.toList.dropWhile p).reverse.dropWhile p).reverse

/-- The lines of a text, with the line in progress in reverse. -/
def linesFrom : List Char → List Char → List (List Char)
  | [], [] => []
  | line, [] => [line.reverse]
  | line, c :: cs =>
    if c = '\n' then
      (match line with
        | '\r' :: rest => rest.reverse
        | _ => line.reverse) :: linesFrom [] cs
    else linesFrom (c :: line) cs

/-- The lines of a text, without their line ends. -/
def lines (s : String) : List String := (linesFrom [] s.toList).map String.ofList

/-- Number of lines. -/
def lineCount (s : String) : Nat := (linesFrom [] s.toList).length

end CodeGraph.Text
