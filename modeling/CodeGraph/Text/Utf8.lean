/-!
# Text from bytes

* `decode` — the text of a byte string.  Every maximal stretch of bytes that could begin a
  character but does not become one is replaced by a single U+FFFD.
* `decode?` — the text of a byte string that is well formed throughout.
* `encode` — the bytes of a text.
-/

namespace CodeGraph.Text.Utf8

/-- The number of further bytes a character needs after its first byte, and the range in which the
second byte must lie. -/
structure LeadByte where
  further : Nat
  low : Nat
  high : Nat

/-- What a byte announces when it stands first. -/
def leadByte (b : UInt8) : Option LeadByte :=
  let n := b.toNat
  if n < 0x80 then some ⟨0, 0, 0⟩
  else if 0xC2 ≤ n && n ≤ 0xDF then some ⟨1, 0x80, 0xBF⟩
  else if n = 0xE0 then some ⟨2, 0xA0, 0xBF⟩
  else if n = 0xED then some ⟨2, 0x80, 0x9F⟩
  else if 0xE1 ≤ n && n ≤ 0xEF then some ⟨2, 0x80, 0xBF⟩
  else if n = 0xF0 then some ⟨3, 0x90, 0xBF⟩
  else if 0xF1 ≤ n && n ≤ 0xF3 then some ⟨3, 0x80, 0xBF⟩
  else if n = 0xF4 then some ⟨3, 0x80, 0x8F⟩
  else none

/-- Whether a byte lies in a range. -/
def within (low high : Nat) (b : UInt8) : Bool := low ≤ b.toNat && b.toNat ≤ high

/-- The continuation bytes at the head, of which the first must lie in the given range. -/
def continuation (lead : LeadByte) (bs : List UInt8) : List UInt8 :=
  match bs.take lead.further with
  | [] => []
  | b :: rest =>
    if within lead.low lead.high b then b :: rest.takeWhile (within 0x80 0xBF) else []

/-- The code point of a first byte and its continuation bytes. -/
def codePoint (b : UInt8) : List UInt8 → Nat
  | [] => b.toNat
  | [c] => (b.toNat % 0x20) * 0x40 + c.toNat % 0x40
  | [c, d] => ((b.toNat % 0x10) * 0x40 + c.toNat % 0x40) * 0x40 + d.toNat % 0x40
  | c :: d :: e :: _ =>
    (((b.toNat % 0x08) * 0x40 + c.toNat % 0x40) * 0x40 + d.toNat % 0x40) * 0x40 + e.toNat % 0x40

/-- One step of decoding: a character, or nothing for an ill-formed stretch, and the number of
bytes after the first that belong to it. -/
def unit (b : UInt8) (bs : List UInt8) : Option Char × Nat :=
  match leadByte b with
  | none => (none, 0)
  | some lead =>
    let more := continuation lead bs
    if more.length = lead.further then (some (Char.ofNat (codePoint b more)), more.length)
    else (none, more.length)

/-- The characters of a byte string, ill-formed stretches as nothing. -/
def units : (skip : Nat) → List UInt8 → List (Option Char)
  | _, [] => []
  | 0, b :: bs => (unit b bs).1 :: units (unit b bs).2 bs
  | skip + 1, _ :: bs => units skip bs

/-- The text of a byte string, with U+FFFD for what is ill formed. -/
def decode (bs : List UInt8) : String :=
  String.ofList ((units 0 bs).map fun c => c.getD '\uFFFD')

/-- The text of a byte string if it is well formed. -/
def decode? (bs : List UInt8) : Option String :=
  let cs := units 0 bs
  if cs.all Option.isSome then some (String.ofList (cs.filterMap id)) else none

/-- The bytes of a text. -/
def encode (s : String) : List UInt8 := s.toUTF8.toList

end CodeGraph.Text.Utf8
