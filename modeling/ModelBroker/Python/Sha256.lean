import Mathlib.Data.List.Basic
import Mathlib.Data.Nat.Notation

/-!
# `hashlib.sha256`

The digest of a byte string: the message is padded to blocks of 64 bytes, and each
block is mixed into eight words of 32 bits by 64 rounds.
-/

namespace ModelBroker.Python.Sha256

/-- A word, which is added modulo `2 ^ 32`. -/
abbrev Word := BitVec 32

/-- The hash value between blocks, and the working variables between rounds. -/
structure Hash where
  a : Word
  b : Word
  c : Word
  d : Word
  e : Word
  f : Word
  g : Word
  h : Word

/-- The fractional parts of the square roots of the first 8 primes. -/
def initialHash : Hash :=
  ⟨0x6a09e667, 0xbb67ae85, 0x3c6ef372, 0xa54ff53a, 0x510e527f, 0x9b05688c, 0x1f83d9ab, 0x5be0cd19⟩

/-- The fractional parts of the cube roots of the first 64 primes. -/
def roundConstants : List Word :=
  [ 0x428a2f98, 0x71374491, 0xb5c0fbcf, 0xe9b5dba5, 0x3956c25b, 0x59f111f1, 0x923f82a4, 0xab1c5ed5,
    0xd807aa98, 0x12835b01, 0x243185be, 0x550c7dc3, 0x72be5d74, 0x80deb1fe, 0x9bdc06a7, 0xc19bf174,
    0xe49b69c1, 0xefbe4786, 0x0fc19dc6, 0x240ca1cc, 0x2de92c6f, 0x4a7484aa, 0x5cb0a9dc, 0x76f988da,
    0x983e5152, 0xa831c66d, 0xb00327c8, 0xbf597fc7, 0xc6e00bf3, 0xd5a79147, 0x06ca6351, 0x14292967,
    0x27b70a85, 0x2e1b2138, 0x4d2c6dfc, 0x53380d13, 0x650a7354, 0x766a0abb, 0x81c2c92e, 0x92722c85,
    0xa2bfe8a1, 0xa81a664b, 0xc24b8b70, 0xc76c51a3, 0xd192e819, 0xd6990624, 0xf40e3585, 0x106aa070,
    0x19a4c116, 0x1e376c08, 0x2748774c, 0x34b0bcb5, 0x391c0cb3, 0x4ed8aa4a, 0x5b9cca4f, 0x682e6ff3,
    0x748f82ee, 0x78a5636f, 0x84c87814, 0x8cc70208, 0x90befffa, 0xa4506ceb, 0xbef9a3f7, 0xc67178f2]

/-! ## Padding -/

/-- The length of a message in bits, as eight bytes. -/
def lengthBytes (length : ℕ) : List UInt8 :=
  (List.range 8).map fun i => UInt8.ofNat (8 * length >>> (8 * (7 - i)))

/-- The message, a bit that is one, zeros, and the length. -/
def padded (message : List UInt8) : List UInt8 :=
  message ++ 0x80 :: List.replicate ((119 - message.length % 64) % 64) 0 ++
    lengthBytes message.length

/-- Four bytes make a word, the most significant first. -/
def wordsOf : List UInt8 → List Word
  | a :: b :: c :: d :: rest =>
    BitVec.ofNat 32 (((a.toNat * 256 + b.toNat) * 256 + c.toNat) * 256 + d.toNat) :: wordsOf rest
  | _ => []

/-- Sixteen words make a block. -/
def blocksOf : ℕ → List Word → List (List Word)
  | 0, _ => []
  | count + 1, words => words.take 16 :: blocksOf count (words.drop 16)

/-! ## Rounds -/

/-- The words of the rounds, from a window of the next 16. -/
def schedule : ℕ → List Word → List Word
  | 0, _ => []
  | count + 1, window =>
    let w := fun i => window.getD i 0
    let small0 := (w 1).rotateRight 7 ^^^ (w 1).rotateRight 18 ^^^ (w 1) >>> 3
    let small1 := (w 14).rotateRight 17 ^^^ (w 14).rotateRight 19 ^^^ (w 14) >>> 10
    w 0 :: schedule count (window.tail ++ [w 0 + small0 + w 9 + small1])

/-- One round, with its constant and its word. -/
def round (s : Hash) (constant : Word × Word) : Hash :=
  let big1 := s.e.rotateRight 6 ^^^ s.e.rotateRight 11 ^^^ s.e.rotateRight 25
  let choice := (s.e &&& s.f) ^^^ (~~~s.e &&& s.g)
  let t1 := s.h + big1 + choice + constant.1 + constant.2
  let big0 := s.a.rotateRight 2 ^^^ s.a.rotateRight 13 ^^^ s.a.rotateRight 22
  let majority := (s.a &&& s.b) ^^^ (s.a &&& s.c) ^^^ (s.b &&& s.c)
  ⟨t1 + (big0 + majority), s.a, s.b, s.c, s.d + t1, s.e, s.f, s.g⟩

/-- The hash value after one more block. -/
def compress (hash : Hash) (block : List Word) : Hash :=
  let s := (roundConstants.zip (schedule 64 block)).foldl round hash
  ⟨hash.a + s.a, hash.b + s.b, hash.c + s.c, hash.d + s.d, hash.e + s.e, hash.f + s.f,
    hash.g + s.g, hash.h + s.h⟩

/-- The four bytes of a word. -/
def bytesOf (w : Word) : List UInt8 :=
  [24, 16, 8, 0].map fun shift => UInt8.ofNat (w.toNat >>> shift)

/-- `hashlib.sha256(message).digest()`. -/
def sha256 (message : List UInt8) : List UInt8 :=
  let bytes := padded message
  let hash := (blocksOf (bytes.length / 64) (wordsOf bytes)).foldl compress initialHash
  [hash.a, hash.b, hash.c, hash.d, hash.e, hash.f, hash.g, hash.h].flatMap bytesOf

example : (sha256 [97, 98, 99]).take 4 = [0xba, 0x78, 0x16, 0xbf] := by decide +kernel

end ModelBroker.Python.Sha256
