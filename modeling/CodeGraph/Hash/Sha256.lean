import CodeGraph.Hash.Hex

/-!
# SHA-256

* `Sha256.schedule` — the sixty-four words of a block: its own sixteen and those they extend to.
* `Sha256.round`, `Sha256.compress` — one round, and all rounds of a block, on the chaining state.
* `sha256` — the digest of a message.
-/

namespace CodeGraph.Hash

namespace Sha256

/-- The chaining state of eight words. -/
structure State where
  a : UInt32
  b : UInt32
  c : UInt32
  d : UInt32
  e : UInt32
  f : UInt32
  g : UInt32
  h : UInt32

/-- The state before the first block: fractions of the square roots of the first eight primes. -/
def initial : State :=
  ⟨0x6a09e667, 0xbb67ae85, 0x3c6ef372, 0xa54ff53a,
   0x510e527f, 0x9b05688c, 0x1f83d9ab, 0x5be0cd19⟩

/-- One constant for every round: fractions of the cube roots of the first sixty-four primes. -/
def roundConstants : List UInt32 :=
  [0x428a2f98, 0x71374491, 0xb5c0fbcf, 0xe9b5dba5, 0x3956c25b, 0x59f111f1,
   0x923f82a4, 0xab1c5ed5, 0xd807aa98, 0x12835b01, 0x243185be, 0x550c7dc3,
   0x72be5d74, 0x80deb1fe, 0x9bdc06a7, 0xc19bf174, 0xe49b69c1, 0xefbe4786,
   0x0fc19dc6, 0x240ca1cc, 0x2de92c6f, 0x4a7484aa, 0x5cb0a9dc, 0x76f988da,
   0x983e5152, 0xa831c66d, 0xb00327c8, 0xbf597fc7, 0xc6e00bf3, 0xd5a79147,
   0x06ca6351, 0x14292967, 0x27b70a85, 0x2e1b2138, 0x4d2c6dfc, 0x53380d13,
   0x650a7354, 0x766a0abb, 0x81c2c92e, 0x92722c85, 0xa2bfe8a1, 0xa81a664b,
   0xc24b8b70, 0xc76c51a3, 0xd192e819, 0xd6990624, 0xf40e3585, 0x106aa070,
   0x19a4c116, 0x1e376c08, 0x2748774c, 0x34b0bcb5, 0x391c0cb3, 0x4ed8aa4a,
   0x5b9cca4f, 0x682e6ff3, 0x748f82ee, 0x78a5636f, 0x84c87814, 0x8cc70208,
   0x90befffa, 0xa4506ceb, 0xbef9a3f7, 0xc67178f2]

/-- The word that follows the last sixteen, which are given from the latest to the earliest. -/
def nextWord (recent : List UInt32) : UInt32 :=
  let word (back : Nat) : UInt32 := recent.getD (back - 1) 0
  let near := word 2
  let far := word 15
  let mix1 := rotateRight near 17 ^^^ rotateRight near 19 ^^^ (near >>> 10)
  let mix0 := rotateRight far 7 ^^^ rotateRight far 18 ^^^ (far >>> 3)
  mix1 + word 7 + mix0 + word 16

/-- Further words before those given, from the latest to the earliest. -/
def extendWords : (count : Nat) → List UInt32 → List UInt32
  | 0, recent => recent
  | count + 1, recent => extendWords count (nextWord recent :: recent)

/-- The words of a block's rounds. -/
def schedule (block : List UInt8) : List UInt32 :=
  (extendWords 48 (wordsOfBytes 16 block).reverse).reverse

/-- One round with its constant and word. -/
def round (s : State) (constant word : UInt32) : State :=
  let mix1 := rotateRight s.e 6 ^^^ rotateRight s.e 11 ^^^ rotateRight s.e 25
  let choice := (s.e &&& s.f) ^^^ (~~~s.e &&& s.g)
  let t1 := s.h + mix1 + choice + constant + word
  let mix0 := rotateRight s.a 2 ^^^ rotateRight s.a 13 ^^^ rotateRight s.a 22
  let majority := (s.a &&& s.b) ^^^ (s.a &&& s.c) ^^^ (s.b &&& s.c)
  ⟨t1 + mix0 + majority, s.a, s.b, s.c, s.d + t1, s.e, s.f, s.g⟩

/-- The state after a block. -/
def compress (s : State) (block : List UInt8) : State :=
  let t := (roundConstants.zip (schedule block)).foldl (fun t (k, w) => round t k w) s
  ⟨s.a + t.a, s.b + t.b, s.c + t.c, s.d + t.d, s.e + t.e, s.f + t.f, s.g + t.g, s.h + t.h⟩

/-- The words of a state as bytes. -/
def State.bytes (s : State) : List UInt8 :=
  [s.a, s.b, s.c, s.d, s.e, s.f, s.g, s.h].flatMap fun w => bigEndian 4 w.toNat

end Sha256

/-- The SHA-256 digest of a message: thirty-two bytes. -/
def sha256 (message : List UInt8) : List UInt8 :=
  let bytes := framed message
  ((blocks (bytes.length / 64) bytes).foldl Sha256.compress Sha256.initial).bytes

end CodeGraph.Hash
