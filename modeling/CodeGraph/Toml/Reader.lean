import CodeGraph.Toml.Scalar
import CodeGraph.Toml.Table

/-!
# Reading TOML

* `value?` — a value, which may be a list or a table on its own line.
* `Document.line?` — what a line adds to a document.
* `read?` — the value of a whole text, which is a table.
-/

namespace CodeGraph.Toml

/-! ### Blanks and keys -/

def skipBlanks (cs : List Char) : List Char := cs.dropWhile isBlank

/-- The text behind a comment, if there is one at the head. -/
def skipComment (cs : List Char) : List Char :=
  match cs with
  | '#' :: rest => rest.dropWhile isPlain
  | _ => cs

/-- Skip blanks, comments and line ends. -/
def skipLines : (fuel : Nat) → List Char → List Char
  | 0, cs => cs
  | fuel + 1, cs =>
    match lineEnd? (skipComment (skipBlanks cs)) with
    | some rest => skipLines fuel rest
    | none => skipBlanks cs

/-- One part of a key. -/
def simpleKey? (cs : List Char) : Option (String × List Char) :=
  match cs with
  | '"' :: rest => textBody? .single '"' true (rest.length + 1) [] rest
  | '\'' :: rest => textBody? .single '\'' false (rest.length + 1) [] rest
  | _ =>
    let isBare (c : Char) := c.isAlphanum || c = '_' || c = '-'
    match cs.takeWhile isBare with
    | [] => none
    | word => some (String.ofList word, cs.dropWhile isBare)

/-- The parts of a key: all but the last one, and the last one; `fuel` bounds their number. -/
def key? : (fuel : Nat) → List Char → Option ((List String × String) × List Char)
  | 0, _ => none
  | fuel + 1, cs => do
    let (part, rest) ← simpleKey? (skipBlanks cs)
    match skipBlanks rest with
    | '.' :: rest =>
      let ((path, last), rest) ← key? fuel rest
      pure ((part :: path, last), rest)
    | rest => pure (([], part), rest)

/-- Whether a character ends a word. -/
def endsWord (c : Char) : Bool :=
  c = ' ' || c = '\t' || c = '\n' || c = '\r' || c = ',' || c = ']' || c = '\x7d' || c = '#'

/-- A word without quotes; a blank may stand between a date and a time. -/
def word (cs : List Char) : List Char × List Char :=
  let first := cs.takeWhile (!endsWord ·)
  let rest := cs.dropWhile (!endsWord ·)
  match calendarDate? first, rest with
  | some [], ' ' :: d :: more =>
    if d.isDigit then
      (first ++ ' ' :: (d :: more).takeWhile (!endsWord ·), (d :: more).dropWhile (!endsWord ·))
    else (first, rest)
  | _, _ => (first, rest)

/-! ### Values -/

mutual
/-- A value at the head of a text; `fuel` bounds the number of its parts. -/
def value? : (fuel : Nat) → List Char → Option (Json × List Char)
  | 0, _ => none
  | fuel + 1, cs =>
    match cs with
    | '"' :: rest => (quotedText? '"' true rest).map fun (s, rest) => (.text s, rest)
    | '\'' :: rest => (quotedText? '\'' false rest).map fun (s, rest) => (.text s, rest)
    | '[' :: rest => items? fuel [] (skipLines rest.length rest)
    | '\x7b' :: rest =>
      match skipBlanks rest with
      | '\x7d' :: rest => some (.object [], rest)
      | rest => inlineMembers? fuel [] rest
    | _ =>
      let (w, rest) := word cs
      (scalar? w).map fun j => (j, rest)

/-- The items of a list up to its closing bracket. -/
def items? : (fuel : Nat) → List Json → List Char → Option (Json × List Char)
  | 0, _, _ => none
  | fuel + 1, back, cs =>
    match cs with
    | ']' :: rest => some (.list back.reverse, rest)
    | _ => do
      let (j, rest) ← value? fuel cs
      match skipLines rest.length rest with
      | ',' :: rest => items? fuel (j :: back) (skipLines rest.length rest)
      | ']' :: rest => pure (.list (j :: back).reverse, rest)
      | _ => none

/-- The members of a table on its own line up to its closing brace. -/
def inlineMembers? : (fuel : Nat) → Members → List Char → Option (Json × List Char)
  | 0, _, _ => none
  | fuel + 1, ms, cs => do
    let ((path, key), rest) ← key? cs.length cs
    match rest with
    | '=' :: rest =>
      let (j, rest) ← value? fuel (skipBlanks rest)
      let ms ← ms.assign? path key j
      match skipBlanks rest with
      | ',' :: rest => inlineMembers? fuel ms rest
      | '\x7d' :: rest => pure (.object (membersJson ms), rest)
      | _ => none
    | _ => none
end

/-! ### Documents -/

/-- A document so far, and the path of the table that is open. -/
structure Document where
  members : Members
  path : List String

namespace Document

/-- Add what the line at the head says, up to its end. -/
def line? (d : Document) (cs : List Char) : Option (Document × List Char) :=
  match skipBlanks cs with
  | '[' :: '[' :: rest => do
    let ((path, key), rest) ← key? rest.length rest
    match rest with
    | ']' :: ']' :: rest =>
      pure (⟨← d.members.openElement? path key, path ++ [key]⟩, rest)
    | _ => none
  | '[' :: rest => do
    let ((path, key), rest) ← key? rest.length rest
    match rest with
    | ']' :: rest => pure (⟨← d.members.openTable? path key, path ++ [key]⟩, rest)
    | _ => none
  | rest =>
    if rest.isEmpty || (rest.head? = some '#') || (lineEnd? rest).isSome then some (d, rest)
    else do
      let ((path, key), rest) ← key? rest.length rest
      match rest with
      | '=' :: rest =>
        let rest := skipBlanks rest
        let (j, rest) ← value? (rest.length + 1) rest
        pure ({ d with members := ← d.members.edit? (·.assign? path key j) d.path }, rest)
      | _ => none

/-- Add all lines; `fuel` bounds their number. -/
def lines? : (fuel : Nat) → Document → List Char → Option Document
  | 0, _, _ => none
  | fuel + 1, d, cs => do
    let (d, rest) ← d.line? cs
    match skipComment (skipBlanks rest) with
    | [] => pure d
    | rest => lines? fuel d (← lineEnd? rest)

end Document

/-- The value of a text; a byte order mark at its head is left out. -/
def read? (s : String) : Option Json :=
  let cs := match s.toList with
    | '\ufeff' :: rest => rest
    | cs => cs
  (Document.lines? (cs.length + 1) ⟨[], []⟩ cs).map fun d => .object (membersJson d.members)

end CodeGraph.Toml
