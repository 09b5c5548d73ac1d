import CodeGraph.Hash.Hex

/-!
# SHA-1

* `Sha1.schedule` — the eighty words of a block.
* `Sha1.compress` — all rounds of a block on the chaining state.
* `sha1` — the digest of a message.
-/

namespace CodeGraph.Hash

namespace Sha1

/-- The chaining state of five words. -/
structure State where
  a : UInt32
  b : UInt32
  c : UInt32
  d : UInt32
  e : UInt32

/-- The state before the first block. -/
def initial : State := ⟨0x67452301, 0xefcdab89, 0x98badcfe, 0x10325476, 0xc3d2e1f0⟩

/-- Further words before those given, from the latest to the earliest. -/
def extendWords : (count : Nat) → List UInt32 → List UInt32
  | 0, recent => recent
  | count + 1, recent =>
    let word (back : Nat) : UInt32 := recent.getD (back - 1) 0
    extendWords count (rotateLeft (word 3 ^^^ word 8 ^^^ word 14 ^^^ word 16) 1 :: recent)

/-- The words of a block's rounds. -/
def schedule (block : List UInt8) : List UInt32 :=
  (extendWords 64 (wordsOfBytes 16 block).reverse).reverse

/-- How a round combines three words of the state, and its constant: twenty rounds of each. -/
def mixing (round : Nat) (b c d : UInt32) : UInt32 × UInt32 :=
  if round < 20 then ((b &&& c) ||| (~~~b &&& d), 0x5a827999)
  else if round < 40 then (b ^^^ c ^^^ d, 0x6ed9eba1)
  else if round < 60 then ((b &&& c) ||| (b &&& d) ||| (c &&& d), 0x8f1bbcdc)
  else (b ^^^ c ^^^ d, 0xca62c1d6)

/-- One round with its number and word. -/
def round (s : State) (number : Nat) (word : UInt32) : State :=
  let (mixed, constant) := mixing number s.b s.c s.d
  ⟨rotateLeft s.a 5 + mixed + s.e + constant + word, s.a, rotateLeft s.b 30, s.c, s.d⟩

/-- The state after a block. -/
def compress (s : State) (block : List UInt8) : State :=
  let t := ((schedule block).zipIdx).foldl (fun t (w, i) => round t i w) s
  ⟨s.a + t.a, s.b + t.b, s.c + t.c, s.d + t.d, s.e + t.e⟩

/-- The words of a state as bytes. -/
def State.bytes (s : State) : List UInt8 :=
  [s.a, s.b, s.c, s.d, s.e].flatMap fun w => bigEndian 4 w.toNat

end Sha1

/-- The SHA-1 digest of a message: twenty bytes. -/
def sha1 (message : List UInt8) : List UInt8 :=
  let bytes := framed message
  ((blocks (bytes.length / 64) bytes).foldl Sha1.compress Sha1.initial).bytes

end CodeGraph.Hash
