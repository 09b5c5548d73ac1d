import CodeGraph.Syntax.Lexeme
import CodeGraph.Syntax.Node

/-!
# Reading a text token by token

* `Input` — what is still to be read, where that is, and the furthest place at which a token was
  looked for in vain.
* `Reader α` — reads an `α` off the front of an input, or is stuck.
* A line end is white space, except where `Input.skip true` is asked to stop at it: that is how a
  line end closes a statement, and only where one can be closed.
-/

namespace CodeGraph.Syntax

namespace Place

def start : Place := ⟨0, 0⟩

/-- The place after one more character. -/
def after (p : Place) (c : Char) : Place := ⟨p.offset + 1, if c = '\n' then p.row + 1 else p.row⟩

end Place

/-- A token looked for in vain. -/
structure Miss where
  wanted : Place
  /-- Where what was read before it ends. -/
  settled : Place
  /-- Where what follows the last terminator begins. -/
  begun : Place
  /-- It was wanted inside something that is given up as a whole where the text ends. -/
  whole : Bool
  deriving DecidableEq, Inhabited

/-- The further of two misses, the second of two that are equally far. -/
def Miss.later (m n : Miss) : Miss :=
  if n.wanted.offset < m.wanted.offset ∨
      n.wanted.offset = m.wanted.offset ∧ n.settled.offset < m.settled.offset then m else n

/-- What is still to be read. -/
structure Input where
  rest : List Char
  place : Place
  /-- Where the last token or terminator ends. -/
  settled : Place
  /-- Where what follows the last terminator begins. -/
  begun : Place
  reach : Miss
  deriving Inhabited

namespace Input

def ofString (s : String) : Input := ⟨s.toList, .start, .start, .start, ⟨.start, .start, .start, false⟩⟩

/-- Pass over `n` characters. -/
def drop : Nat → Input → Input
  | 0, i => i
  | n + 1, ⟨c :: cs, p, q, b, r⟩ => drop n ⟨cs, p.after c, q, b, r⟩
  | _, i => i

/-- Take the first `n` characters as a token. -/
def accept (n : Nat) (i : Input) : Input :=
  let j := i.drop n
  { j with settled := j.place }

/-- Note that a token was looked for in vain at a place. -/
def missAt (i : Input) (p : Place) : Miss := i.reach.later ⟨p, i.settled, i.begun, false⟩

/-- Length of the white space and comments at the head, of which `inside` characters of a comment
are still to come; with `stopAtLineEnd`, only up to the first line end outside a comment. -/
def blankLength (stopAtLineEnd : Bool) : (inside : Nat) → List Char → Nat
  | _, [] => 0
  | inside + 1, _ :: cs => blankLength stopAtLineEnd inside cs + 1
  | 0, c :: cs =>
    if c = '\n' && stopAtLineEnd then 0
    else if Lexeme.isSpace c then blankLength stopAtLineEnd 0 cs + 1
    else match Lexeme.commentLength? (c :: cs) with
      | some (n + 1) => blankLength stopAtLineEnd n cs + 1
      | _ => 0

/-- Pass over white space and comments. -/
def skip (stopAtLineEnd : Bool) (i : Input) : Input :=
  i.drop (blankLength stopAtLineEnd 0 i.rest)

/-- Begin afresh with the next token. -/
def settle (i : Input) : Input :=
  let p := (i.skip false).place
  { i with settled := p, begun := p }

/-- Whether the next thing after blanks is a line end at which a statement could close. -/
def atLineEnd (i : Input) : Bool := (i.skip true).rest.head? = some '\n'

/-- The identifier or keyword at the head, empty if there is none. -/
def word (i : Input) : String := String.ofList (i.rest.take (Lexeme.identifierLength i.rest))

end Input

/-- What reading comes to: a value and the input left, or the furthest place reached in vain. -/
inductive Outcome (α : Type) where
  | done (value : α) (left : Input)
  | stuck (reach : Miss)

/-- Reads an `α` off the front of an input. -/
def Reader (α : Type) : Type := Input → Outcome α

namespace Reader

instance : Inhabited (Reader α) := ⟨fun i => .stuck i.reach⟩

instance : Monad Reader where
  pure a := fun i => .done a i
  bind r f := fun i => match r i with
    | .done a i => f a i
    | .stuck p => .stuck p

/-- No reading from here: remember the place. -/
def fail : Reader α := fun i => .stuck (i.missAt (i.skip false).place)

/-- Try the first reader and, where it is stuck, the second. -/
def orElse (r s : Reader α) : Reader α := fun i =>
  match r i with
  | .done a i => .done a i
  | .stuck p => s { i with reach := i.reach.later p }

instance : OrElse (Reader α) := ⟨fun r s => r.orElse (s ())⟩

/-- The value of a reader if it is not stuck. -/
def maybe (r : Reader α) : Reader (Option α) := (some <$> r) <|> pure none

/-- The input ahead, unread. -/
def peek : Reader Input := fun i => .done i i

/-- Go on only where a condition on the input ahead holds. -/
def guardThat (p : Input → Bool) : Reader Unit := fun i =>
  if p i then .done () i else .stuck (i.missAt (i.skip false).place)

/-- A reader of something that is given up as a whole where the text ends inside it. -/
def indivisible (r : Reader α) : Reader α := fun i =>
  let mark (m : Miss) : Miss :=
    if m ≠ i.reach ∧ i.settled.offset < m.settled.offset then { m with whole := true } else m
  match r i with
  | .done a j => .done a { j with reach := mark j.reach }
  | .stuck m => .stuck (mark m)

/-- Repeat a reader as long as it moves on; `fuel` bounds the number of rounds. -/
def manyUpTo (r : Reader α) : Nat → Reader (List α)
  | 0 => pure []
  | fuel + 1 => fun i =>
    match r i with
    | .stuck p => .done [] { i with reach := i.reach.later p }
    | .done a j =>
      if j.place.offset ≤ i.place.offset then .done [] i
      else match manyUpTo r fuel j with
        | .done as k => .done (a :: as) k
        | .stuck p => .stuck p

/-- As many values as can be read one after the other. -/
def many (r : Reader α) : Reader (List α) := fun i => manyUpTo r (i.rest.length + 1) i

/-! ### Tokens -/

/-- The lexeme of the given length after blanks. -/
def lexeme (kind : Kind) (length : List Char → Nat) : Reader Node := fun i =>
  let j := i.skip false
  match length j.rest with
  | 0 => .stuck (i.missAt j.place)
  | n + 1 =>
    let k := j.accept (n + 1)
    .done (.leaf kind j.place k.place) k

/-- A spelling, wherever the text goes on with it. -/
def symbol (s : String) : Reader Node :=
  lexeme .token fun cs => if Lexeme.opensWith s cs then s.length else 0

/-- A keyword: the spelling as a whole word. -/
def keyword (s : String) : Reader Node :=
  lexeme .token fun cs =>
    let n := Lexeme.identifierLength cs
    if String.ofList (cs.take n) = s then n else 0

/-- A word that is none of the given keywords. -/
def name (kind : Kind) (keywords : List String) : Reader Node :=
  lexeme kind fun cs =>
    let n := Lexeme.identifierLength cs
    if keywords.contains (String.ofList (cs.take n)) then 0 else n

/-- Whether the next lexeme after blanks opens with a spelling. -/
def ahead (s : String) (i : Input) : Bool := Lexeme.opensWith s (i.skip false).rest

/-- Whether the next lexeme, not past a line end if one can close the statement, opens with a
spelling. -/
def aheadOn (lineEnds : Bool) (s : String) (i : Input) : Bool :=
  Lexeme.opensWith s (i.skip lineEnds).rest

/-- The word ahead, empty if there is none. -/
def wordAhead (lineEnds : Bool) (i : Input) : String := (i.skip lineEnds).word

/-- The end of a statement or specification: a line end, a semicolon, a NUL or the end of the
text. -/
def terminator : Reader Unit := fun i =>
  let j := i.skip true
  match j.rest with
  | [] => .done () j
  | c :: _ =>
    if c = '\n' || c = ';' || c = '\x00' then .done () (j.drop 1).settle
    else .stuck (i.missAt j.place)

/-! ### Sequences -/

/-- Further elements, each after a separator token; separators are kept. -/
def moreSeparated (separator : Reader Node) (element : Reader Node) : Reader (List Node) := do
  let rounds ← many do
    let s ← separator
    let e ← element
    pure [s, e]
  pure rounds.flatten

/-- One element or more with separators between them. -/
def separated (separator : Reader Node) (element : Reader Node) : Reader (List Node) := do
  let first ← element
  let others ← moreSeparated separator element
  pure (first :: others)

/-- A reader's node as a list of one, or nothing. -/
def optionally (r : Reader Node) : Reader (List Node) := do
  match ← maybe r with
  | some n => pure [n]
  | none => pure []

/-- A reader's nodes, or nothing. -/
def optionalSeq (r : Reader (List Node)) : Reader (List Node) := do
  match ← maybe r with
  | some ns => pure ns
  | none => pure []

/-- A node over the children read. -/
def build (kind : Kind) (r : Reader (List Node)) : Reader Node := do
  let children ← r
  pure (.branch kind children)

/-- Several parts one after the other. -/
def parts (rs : List (Reader (List Node))) : Reader (List Node) :=
  rs.foldr (fun r acc => do
    let first ← r
    let rest ← acc
    pure (first ++ rest)) (pure [])

/-- A single node as a list. -/
def single (r : Reader Node) : Reader (List Node) := do
  let n ← r
  pure [n]

/-- A node in a role. -/
def as (f : Field) (r : Reader Node) : Reader (List Node) := do
  let n ← r
  pure [n.inField f]

end Reader

end CodeGraph.Syntax
