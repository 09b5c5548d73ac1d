import CodeGraph.Decimal.Shortest
import CodeGraph.Json.Basic

/-!
# JSON text

* `Json.quoted` — a text in quotes; only quotes, backslashes and control characters are escaped.
* `Json.numberText` — the shortest text of a number that reads back.
* `Json.compact` — a value on one line, without blanks.
* `Json.pretty` — a value over several lines, two blanks to the level.
-/

namespace CodeGraph.Json

/-- Four hexadecimal digits. -/
def hex4 (n : Nat) : String :=
  let digits := Nat.toDigits 16 n
  String.ofList (List.replicate (4 - digits.length) '0' ++ digits)

/-- A character within quotes. -/
def escaped (c : Char) : List Char :=
  if c = '"' then ['\\', '"']
  else if c = '\\' then ['\\', '\\']
  else if c = '\n' then ['\\', 'n']
  else if c = '\r' then ['\\', 'r']
  else if c = '\t' then ['\\', 't']
  else if c = '\x08' then ['\\', 'b']
  else if c = '\x0c' then ['\\', 'f']
  else if c.toNat < 32 then '\\' :: 'u' :: (hex4 c.toNat).toList
  else [c]

/-- A text in quotes. -/
def quoted (s : String) : String := String.ofList ('"' :: s.toList.flatMap escaped ++ ['"'])

/-- Digits with an exponent where a point would stand far away from them. -/
def digitsText (d : Decimal.Digits) : String :=
  let digits := d.trimmed
  let point := d.pointAt
  let count : Int := digits.length
  if count ≤ point && point ≤ 16 then d.positional ++ ".0"
  else if -5 < point && point ≤ 16 then d.positional
  else
    let power := toString (point - 1)
    match digits with
    | [c] => c.toString ++ "e" ++ power
    | c :: cs => c.toString ++ "." ++ String.ofList cs ++ "e" ++ power
    | [] => "0"

/-- The text of a number; what is no number has none. -/
def numberText (x : Float) : String :=
  match Decimal.FloatParts.ofFloat x with
  | .undefined | .infinite _ => "null"
  | .zero negative => Decimal.signText negative ++ "0.0"
  | .finite negative b => Decimal.signText negative ++ digitsText b.shortest

mutual
/-- The pieces of a value on one line, in front of other pieces. -/
def compactPieces : Json → List String → List String
  | null, rest => "null" :: rest
  | bool b, rest => (if b then "true" else "false") :: rest
  | int n, rest => toString n :: rest
  | real x, rest => numberText x :: rest
  | text s, rest => quoted s :: rest
  | list [], rest => "[]" :: rest
  | list (j :: js), rest => "[" :: compactPieces j (compactItems js ("]" :: rest))
  | object [], rest => "\x7b\x7d" :: rest
  | object ((k, j) :: ms), rest =>
    "\x7b" :: quoted k :: ":" :: compactPieces j (compactMembers ms ("\x7d" :: rest))

def compactItems : List Json → List String → List String
  | [], rest => rest
  | j :: js, rest => "," :: compactPieces j (compactItems js rest)

def compactMembers : List (String × Json) → List String → List String
  | [], rest => rest
  | (k, j) :: ms, rest => "," :: quoted k :: ":" :: compactPieces j (compactMembers ms rest)
end

/-- A value on one line. -/
def compact (j : Json) : String := String.join (compactPieces j [])

/-- A new line at a level. -/
def lineAt (level : Nat) : String := "\n" ++ String.ofList (List.replicate (2 * level) ' ')

mutual
/-- The pieces of a value over several lines, in front of other pieces. -/
def prettyPieces (level : Nat) : Json → List String → List String
  | list [], rest => "[]" :: rest
  | list (j :: js), rest =>
    "[" :: lineAt (level + 1) ::
      prettyPieces (level + 1) j (prettyItems level js (lineAt level :: "]" :: rest))
  | object [], rest => "\x7b\x7d" :: rest
  | object ((k, j) :: ms), rest =>
    "\x7b" :: lineAt (level + 1) :: quoted k :: ": " ::
      prettyPieces (level + 1) j (prettyMembers level ms (lineAt level :: "\x7d" :: rest))
  | null, rest => "null" :: rest
  | bool b, rest => (if b then "true" else "false") :: rest
  | int n, rest => toString n :: rest
  | real x, rest => numberText x :: rest
  | text s, rest => quoted s :: rest

def prettyItems (level : Nat) : List Json → List String → List String
  | [], rest => rest
  | j :: js, rest =>
    "," :: lineAt (level + 1) :: prettyPieces (level + 1) j (prettyItems level js rest)

def prettyMembers (level : Nat) : List (String × Json) → List String → List String
  | [], rest => rest
  | (k, j) :: ms, rest =>
    "," :: lineAt (level + 1) :: quoted k :: ": " ::
      prettyPieces (level + 1) j (prettyMembers level ms rest)
end

/-- A value over several lines. -/
def pretty (j : Json) : String := String.join (prettyPieces 0 j [])

end CodeGraph.Json
