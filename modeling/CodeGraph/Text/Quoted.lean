import CodeGraph.Text.Property.Visible

/-!
# Quoted text

* `quoted` — a text in double quotes, with escapes for quotes, backslashes and the characters that
  would not show by themselves.
-/

namespace CodeGraph.Text

/-- A character in quoted text. -/
def quotedChar (c : Char) : String :=
  if c = '\x00' then "\\0"
  else if c = '\t' then "\\t"
  else if c = '\r' then "\\r"
  else if c = '\n' then "\\n"
  else if c = '\'' || c = '"' || c = '\\' then "\\" ++ c.toString
  else if showsByItself c then c.toString
  else "\\u\x7b" ++ String.ofList (Nat.toDigits 16 c.toNat) ++ "\x7d"

/-- A text in double quotes. -/
def quoted (s : String) : String := "\"" ++ String.join (s.toList.map quotedChar) ++ "\""

end CodeGraph.Text
