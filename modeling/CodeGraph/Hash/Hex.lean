/-!
# Hexadecimal digits

* `hexText` — two lower-case digits for every byte.
* `hexValue?` — the value of a digit in either case.
* `bigEndian` — the bytes of a number, the most significant first.
-/

namespace CodeGraph.Hash

/-- The lower-case digit of a value below sixteen. -/
def hexDigit (n : Nat) : Char :=
  if n < 10 then Char.ofNat ('0'.toNat + n) else Char.ofNat ('a'.toNat + (n - 10))

/-- Two lower-case digits for every byte. -/
def hexText (bs : List UInt8) : String :=
  String.ofList (bs.flatMap fun b => [hexDigit (b.toNat / 16), hexDigit (b.toNat % 16)])

/-- The value of a hexadecimal digit in either case. -/
def hexValue? (c : Char) : Option Nat :=
  if '0' ≤ c && c ≤ '9' then some (c.toNat - '0'.toNat)
  else if 'a' ≤ c && c ≤ 'f' then some (c.toNat - 'a'.toNat + 10)
  else if 'A' ≤ c && c ≤ 'F' then some (c.toNat - 'A'.toNat + 10)
  else none

/-- The lowest `count` bytes of a number, the most significant first. -/
def bigEndian : (count n : Nat) → List UInt8
  | 0, _ => []
  | count + 1, n => bigEndian count (n / 256) ++ [UInt8.ofNat n]

/-- The word that four bytes spell, the most significant first. -/
def wordOfBytes (bs : List UInt8) : UInt32 :=
  bs.foldl (fun w b => (w <<< 8) ||| b.toUInt32) 0

/-- The first `count` groups of four bytes as words. -/
def wordsOfBytes : (count : Nat) → List UInt8 → List UInt32
  | 0, _ => []
  | count + 1, bs => wordOfBytes (bs.take 4) :: wordsOfBytes count (bs.drop 4)

/-- A message framed for a hash over blocks of sixty-four bytes: a marker bit, zeros up to eight
bytes before a block's end, and the message's length in bits. -/
def framed (message : List UInt8) : List UInt8 :=
  let zeros := (119 - message.length % 64) % 64
  message ++ 0x80 :: List.replicate zeros 0 ++ bigEndian 8 (message.length * 8)

/-- The blocks of sixty-four bytes, at most `count` of them. -/
def blocks : (count : Nat) → List UInt8 → List (List UInt8)
  | 0, _ => []
  | _, [] => []
  | count + 1, bs => bs.take 64 :: blocks count (bs.drop 64)

/-- Rotation of a word to the left. -/
def rotateLeft (w : UInt32) (n : UInt32) : UInt32 := (w <<< n) ||| (w >>> (32 - n))

/-- Rotation of a word to the right. -/
def rotateRight (w : UInt32) (n : UInt32) : UInt32 := (w >>> n) ||| (w <<< (32 - n))

end CodeGraph.Hash
