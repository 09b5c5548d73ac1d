import CodeGraph.Hash.Sha1
import CodeGraph.Text.Utf8

/-!
# Universally unique identifiers

* `Uuid` — sixteen bytes, kept as a number.
* `Uuid.named` — the identifier of a name within a namespace: the first sixteen bytes of a SHA-1
  digest, marked as version 5.
* `Uuid.drawn` — an identifier drawn from a seed, marked as version 4.
* `Uuid.toText`, `Uuid.ofText?` — lower-case digits in five groups; they are read in either case,
  with hyphens or without.
-/

namespace CodeGraph.Hash

/-- A universally unique identifier. -/
structure Uuid where
  value : Nat
  deriving DecidableEq, Repr, Inhabited, Hashable

namespace Uuid

/-- The identifier whose bytes are all zero. -/
def nil : Uuid := ⟨0⟩

/-- The identifier that sixteen bytes spell. -/
def ofBytes (bs : List UInt8) : Uuid := ⟨bs.foldl (fun n b => n * 256 + b.toNat) 0⟩

/-- The sixteen bytes of an identifier. -/
def bytes (u : Uuid) : List UInt8 := bigEndian 16 u.value

/-- Mark sixteen bytes as a version of the common variant. -/
def marked (version : UInt8) (bs : List UInt8) : List UInt8 :=
  bs.zipIdx.map fun (b, i) =>
    if i = 6 then (b &&& 0x0f) ||| version * 16
    else if i = 8 then (b &&& 0x3f) ||| 0x80
    else b

/-- The identifier of a name within a namespace. -/
def named (space : Uuid) (name : String) : Uuid :=
  ofBytes (marked 5 ((sha1 (space.bytes ++ Text.Utf8.encode name)).take 16))

/-- The identifier that is drawn from a seed for a purpose. -/
def drawn (seed : List UInt8) (purpose : String) : Uuid :=
  ofBytes (marked 4 ((sha1 (seed ++ Text.Utf8.encode purpose)).take 16))

/-- The namespace of uniform resource locators. -/
def urlNamespace : Uuid := ⟨0x6ba7b8119dad11d180b400c04fd430c8⟩

/-- The digits of an identifier, in groups of eight, four, four, four and twelve. -/
def toText (u : Uuid) : String :=
  let digits := (hexText u.bytes).toList
  let group (start length : Nat) := String.ofList ((digits.drop start).take length)
  "-".intercalate [group 0 8, group 8 4, group 12 4, group 16 4, group 20 12]

/-- The value of a text of hexadecimal digits. -/
def hexNumber? (cs : List Char) : Option Nat :=
  cs.foldl (fun n c => do pure ((← n) * 16 + (← hexValue? c))) (some 0)

/-- The identifier that digits in hyphened groups spell. -/
def ofGroups? (cs : List Char) : Option Uuid :=
  if cs.length = 36 && [8, 13, 18, 23].all (fun i => cs[i]? == some '-') then
    let digits := (cs.zipIdx.filter fun (_, i) => !([8, 13, 18, 23].contains i)).map (·.1)
    (hexNumber? digits).map Uuid.mk
  else none

/-- The identifier a text spells: thirty-two digits, or the groups of `toText` alone, in braces or
behind `urn:uuid:`. -/
def ofText? (s : String) : Option Uuid :=
  let cs := s.toList
  let urn := "urn:uuid:".toList
  if cs.length = 32 then (hexNumber? cs).map Uuid.mk
  else if cs.head? = some '\x7b' && cs.getLast? = some '\x7d' then ofGroups? cs.tail.dropLast
  else if urn.isPrefixOf cs then ofGroups? (cs.drop urn.length)
  else ofGroups? cs

end Uuid

end CodeGraph.Hash
