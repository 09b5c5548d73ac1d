import CodeGraph.Decimal.Shortest
import CodeGraph.Json.Writer
import CodeGraph.Toml.Scalar

/-!
# Writing TOML

* `textLiteral` — a text in the first form that needs no escapes, or else with escapes.
* `realLiteral` — a number, with a point wherever it is finite.
* `textsLiteral` — a list of texts; two or more stand on lines of their own.
-/

namespace CodeGraph.Toml

/-- The length of the longest run of a character. -/
def longestRun (c : Char) (cs : List Char) : Nat :=
  (cs.foldl (fun (longest, run) d =>
    if d = c then (max longest (run + 1), run + 1) else (longest, 0)) (0, 0)).1

/-- What is to be heeded in choosing a form for a text. -/
structure Traits where
  /-- Whether there is a character that must be escaped. -/
  control : Bool
  backslash : Bool
  newline : Bool
  singleQuotes : Nat
  doubleQuotes : Nat

def Traits.of (s : String) : Traits :=
  let cs := s.toList
  { control := cs.any fun c => !isPlain c && c ≠ '\n'
    backslash := cs.contains '\\'
    newline := cs.contains '\n'
    singleQuotes := longestRun '\'' cs
    doubleQuotes := longestRun '"' cs }

/-- The forms of a text: with escapes or without, on one line or over several. -/
structure TextForm where
  escapes : Bool
  closing : Closing
  deriving DecidableEq

/-- The first form that shows a text as it is, or else one with escapes. -/
def TextForm.of (t : Traits) : TextForm :=
  if !t.control && !t.backslash && t.doubleQuotes = 0 && !t.newline then ⟨true, .single⟩
  else if !t.control && t.singleQuotes = 0 && !t.newline then ⟨false, .single⟩
  else if !t.control && !t.backslash && t.doubleQuotes ≤ 2 then ⟨true, .triple⟩
  else if !t.control && t.singleQuotes ≤ 2 then ⟨false, .triple⟩
  else if t.newline then ⟨true, .triple⟩
  else ⟨true, .single⟩

/-- The characters of a text with escapes; of a run of quotes those beyond `allowed` are escaped. -/
def escapedBody (allowed : Nat) (lines : Bool) : (run : Nat) → List Char → List Char
  | _, [] => []
  | run, c :: cs =>
    if c = '"' then
      if run < allowed then c :: escapedBody allowed lines (run + 1) cs
      else '\\' :: c :: escapedBody allowed lines 0 cs
    else
      (if c = '\x08' then ['\\', 'b']
        else if c = '\t' then ['\\', 't']
        else if c = '\n' then if lines then ['\n'] else ['\\', 'n']
        else if c = '\x0c' then ['\\', 'f']
        else if c = '\r' then ['\\', 'r']
        else if c = '\\' then ['\\', '\\']
        else if isPlain c then [c]
        else '\\' :: 'u' :: (Json.hex4 c.toNat).toList.map Char.toUpper)
        ++ escapedBody allowed lines 0 cs

/-- A text. -/
def textLiteral (s : String) : String :=
  let t := Traits.of s
  let form := TextForm.of t
  let quote := if form.escapes then '"' else '\''
  let quotes := match form.closing with
    | .single => [quote]
    | .triple => [quote, quote, quote]
  let start := if form.closing = .triple && t.newline then quotes ++ ['\n'] else quotes
  let body := if form.escapes then
      escapedBody (if form.closing = .triple then 2 else 0) (form.closing = .triple) 0 s.toList
    else s.toList
  String.ofList (start ++ body ++ quotes)

/-- A number. -/
def realLiteral (x : Float) : String :=
  match Decimal.FloatParts.ofFloat x with
  | .undefined => "nan"
  | .infinite negative => Decimal.signText negative ++ "inf"
  | _ =>
    let text := Decimal.plainText x
    if text.contains '.' then text else text ++ ".0"

/-- A list of texts. -/
def textsLiteral : List String → String
  | [] => "[]"
  | [s] => "[" ++ textLiteral s ++ "]"
  | ss => "[\n" ++ String.join (ss.map fun s => "    " ++ textLiteral s ++ ",\n") ++ "]"

end CodeGraph.Toml
