import CodeGraph.Text.Utf8

/-!
# Glob patterns

A pattern stands for a set of byte strings: `?` for any byte, `*` for any bytes, `**` as a whole
component for any number of components, `[…]` for one byte of a class, `{…,…}` for one of several
patterns; a backslash takes away the meaning of the character after it.

* `Glob.parse` — the pieces of a pattern, or what is wrong with it (`Glob.Fault.message`).
* `Piece.ends` — where a piece that starts at the head of a text can end.
* `Glob.isMatch` — whether a pattern stands for a text.
-/

namespace CodeGraph.Text.Glob

/-- A piece of a pattern. -/
inductive Piece where
  | literal (c : Char)
  /-- Any one byte. -/
  | any
  /-- Any bytes. -/
  | star
  /-- Any leading components, each with its slash. -/
  | leading
  /-- A slash and anything after it. -/
  | trailing
  /-- A slash, or components between two slashes. -/
  | between
  /-- One byte that is, or is not, in one of several ranges of characters. -/
  | oneOf (negated : Bool) (ranges : List (Char × Char))
  | alternatives (options : List (List Piece))
  deriving Inhabited

/-- What can be wrong with a pattern. -/
inductive Fault where
  | unclosedClass
  | invalidRange (low high : Char)
  | unopenedAlternatives
  | unclosedAlternatives
  | danglingEscape
  deriving DecidableEq, Repr

/-- The fault in words, for the pattern it is in. -/
def Fault.message (pattern : String) (f : Fault) : String :=
  "error parsing glob '" ++ pattern ++ "': " ++
    match f with
    | .unclosedClass => "unclosed character class; missing ']'"
    | .invalidRange low high =>
      "invalid range; '" ++ low.toString ++ "' > '" ++ high.toString ++ "'"
    | .unopenedAlternatives =>
      "unopened alternate group; missing '\x7b' (maybe escape '\x7d' with '[\x7d]'?)"
    | .unclosedAlternatives =>
      "unclosed alternate group; missing '\x7d' (maybe escape '\x7b' with '[\x7b]'?)"
    | .danglingEscape => "dangling '\\'"

/-! ### Reading a pattern -/

/-- What of a class has been read: its ranges, the latest first, and whether the last of them is
still to get its upper end. -/
structure ClassState where
  ranges : List (Char × Char)
  unfinished : Bool
  first : Bool

/-- Give the latest range its upper end. -/
def closeRange (high : Char) : List (Char × Char) → Except Fault (List (Char × Char))
  | [] => .ok []
  | (low, _) :: ranges =>
    if high < low then .error (.invalidRange low high) else .ok ((low, high) :: ranges)

/-- Read a class up to its closing bracket. -/
def readClass (s : ClassState) : List Char → Except Fault (List (Char × Char) × List Char)
  | [] => .error .unclosedClass
  | c :: cs =>
    if c = ']' && !s.first then
      .ok ((if s.unfinished then ('-', '-') :: s.ranges else s.ranges).reverse, cs)
    else if s.unfinished then
      match closeRange c s.ranges with
      | .ok ranges => readClass ⟨ranges, false, false⟩ cs
      | .error f => .error f
    else if c = '-' && !s.first then readClass ⟨s.ranges, true, false⟩ cs
    else readClass ⟨(c, c) :: s.ranges, false, false⟩ cs

/-- The options of a group that is still open, the current one first, each in reverse, and the
groups around it. -/
structure ReadState where
  current : List Piece
  earlier : List (List Piece)
  outer : List (List Piece × List (List Piece))

namespace ReadState

def push (s : ReadState) (p : Piece) : ReadState := { s with current := p :: s.current }

/-- Put a piece in the place of the latest. -/
def replaceLast (s : ReadState) (p : Piece) : ReadState := { s with current := p :: s.current.tail }

def inGroup (s : ReadState) : Bool := !s.outer.isEmpty

end ReadState

/-- What two stars stand for, given the character before them and the text after them; also
whether they take the slash after them along. -/
def doubleStar (s : ReadState) (before : Option Char) (after : List Char) : ReadState × Bool :=
  let plain := ((s.push .star).push .star, false)
  if s.current.isEmpty then
    if after.isEmpty || after.head? = some '/' then (s.push .leading, true) else plain
  else if before ≠ some '/' && !(s.inGroup && (before = some ',' || before = some '\x7b')) then plain
  else
    let atEnd := match after with
      | [] => true
      | c :: _ => s.inGroup && (c = ',' || c = '\x7d')
    if !atEnd && after.head? ≠ some '/' then plain
    else
      let s := match s.current.head? with
        | some .leading => s
        | some .trailing => s
        | _ => s.replaceLast (if atEnd then .trailing else .between)
      (s, !atEnd)

/-- Read a pattern; `before` is the character in front, `fuel` bounds the number of steps. -/
def read : (fuel : Nat) → ReadState → (before : Option Char) → List Char →
    Except Fault (List Piece)
  | 0, _, _, _ => .error .unclosedAlternatives
  | _ + 1, s, _, [] =>
    if s.inGroup then .error .unclosedAlternatives else .ok s.current.reverse
  | fuel + 1, s, before, c :: cs =>
    if c = '?' then read fuel (s.push .any) (some c) cs
    else if c = '*' then
      match cs with
      | '*' :: rest =>
        let (s, takesSlash) := doubleStar s before rest
        match takesSlash, rest with
        | true, slash :: rest => read fuel s (some slash) rest
        | _, rest => read fuel s (some '*') rest
      | _ => read fuel (s.push .star) (some c) cs
    else if c = '[' then
      let negated := cs.head? = some '!' || cs.head? = some '^'
      match readClass ⟨[], false, true⟩ (if negated then cs.tail else cs) with
      | .error f => .error f
      | .ok (ranges, rest) => read fuel (s.push (.oneOf negated ranges)) (some ']') rest
    else if c = '\x7b' then
      read fuel ⟨[], [], (s.current, s.earlier) :: s.outer⟩ (some c) cs
    else if c = '\x7d' then
      match s.outer with
      | [] => .error .unopenedAlternatives
      | (current, earlier) :: outer =>
        let options := (s.current :: s.earlier).reverse.map List.reverse
        read fuel ⟨.alternatives options :: current, earlier, outer⟩ (some c) cs
    else if c = ',' && s.inGroup then
      read fuel { s with current := [], earlier := s.current :: s.earlier } (some c) cs
    else if c = '\\' then
      match cs with
      | [] => .error .danglingEscape
      | d :: rest => read fuel (s.push (.literal d)) (some d) rest
    else read fuel (s.push (.literal c)) (some c) cs

/-- The pieces of a pattern. -/
def parse (pattern : String) : Except Fault (List Piece) :=
  read (pattern.length + 1) ⟨[], [], []⟩ none pattern.toList

/-! ### Matching -/

/-- The bytes of a character. -/
def bytesOf (c : Char) : List UInt8 := Utf8.encode c.toString

/-- The byte ranges that the bytes of a range of characters spell: all but the innermost two bytes
stand for themselves. -/
def byteRanges (low high : Char) : List (UInt8 × UInt8) :=
  let lows := bytesOf low
  let highs := bytesOf high
  if low = high then lows.map fun b => (b, b)
  else
    (lows.dropLast.map fun b => (b, b)) ++
      [(lows.getLast?.getD 0, highs.head?.getD 0)] ++ (highs.tail.map fun b => (b, b))

/-- Whether a byte is in one of several ranges of characters. -/
def inRanges (ranges : List (Char × Char)) (b : UInt8) : Bool :=
  ranges.any fun (low, high) => (byteRanges low high).any fun (l, h) => l ≤ b && b ≤ h

/-- All ends of a list, itself included. -/
def ends : List UInt8 → List (List UInt8)
  | [] => [[]]
  | b :: bs => (b :: bs) :: ends bs

/-- The ends of a list that follow a slash. -/
def endsAfterSlash : List UInt8 → List (List UInt8)
  | [] => []
  | b :: bs => if b = 47 then bs :: endsAfterSlash bs else endsAfterSlash bs

/-- Keep one of several ends of the same text that are equally long. -/
def distinctEnds (es : List (List UInt8)) : List (List UInt8) :=
  es.foldl (fun seen e => if seen.any (·.length == e.length) then seen else e :: seen) []

mutual
/-- Whether a piece is a group without any option that says something. -/
def Piece.isVoid : Piece → Bool
  | .alternatives options => optionsVoid options
  | _ => false

def piecesVoid : List Piece → Bool
  | [] => true
  | p :: ps => p.isVoid && piecesVoid ps

def optionsVoid : List (List Piece) → Bool
  | [] => true
  | ps :: options => piecesVoid ps && optionsVoid options
end

mutual
/-- What can be left of a text after a piece at its head. -/
def Piece.ends : Piece → List UInt8 → List (List UInt8)
  | .literal c, bs => if (bytesOf c).isPrefixOf bs then [bs.drop (bytesOf c).length] else []
  | .any, bs => match bs with
    | [] => []
    | _ :: rest => [rest]
  | .star, bs => Glob.ends bs
  | .leading, bs => bs :: endsAfterSlash bs
  | .trailing, bs => match bs with
    | b :: rest => if b = 47 then Glob.ends rest else []
    | [] => []
  | .between, bs => match bs with
    | b :: rest => if b = 47 then rest :: endsAfterSlash rest else []
    | [] => []
  | .oneOf negated ranges, bs => match bs with
    | b :: rest => if inRanges ranges b != negated then [rest] else []
    | [] => []
  | .alternatives options, bs => if optionsVoid options then [bs] else optionEnds options bs

/-- What can be left after one of several options; an option that says nothing does not count. -/
def optionEnds : List (List Piece) → List UInt8 → List (List UInt8)
  | [], _ => []
  | ps :: options, bs =>
    (if piecesVoid ps then [] else pieceEnds ps [bs]) ++ optionEnds options bs

/-- What can be left of one of several texts after pieces one after the other. -/
def pieceEnds : List Piece → List (List UInt8) → List (List UInt8)
  | [], texts => texts
  | p :: ps, texts => pieceEnds ps (distinctEnds (texts.flatMap (Piece.ends p)))
end

/-- Whether pieces stand for a text.  A pattern of nothing but leading components stands for
every text. -/
def isMatch (pieces : List Piece) (text : String) : Bool :=
  match pieces with
  | [.leading] => true
  | _ => (pieceEnds pieces [Utf8.encode text]).any List.isEmpty

end CodeGraph.Text.Glob
