/-!
The SHA-256 digest. A message is padded to whole blocks of 64 bytes: one bit,
zeros, and the length in bits at the end. Each block is turned into 64 words,
which are mixed into the state one after the other.
-/
namespace ProcessStart.Sha256

/-- The first 32 bits of the fractional parts of the cube roots of the first 64 primes. -/
def roundConstants : List UInt32 :=
  [ 0x428a2f98, 0x71374491, 0xb5c0fbcf, 0xe9b5dba5, 0x3956c25b, 0x59f111f1,
    0x923f82a4, 0xab1c5ed5, 0xd807aa98, 0x12835b01, 0x243185be, 0x550c7dc3,
    0x72be5d74, 0x80deb1fe, 0x9bdc06a7, 0xc19bf174, 0xe49b69c1, 0xefbe4786,
    0x0fc19dc6, 0x240ca1cc, 0x2de92c6f, 0x4a7484aa, 0x5cb0a9dc, 0x76f988da,
    0x983e5152, 0xa831c66d, 0xb00327c8, 0xbf597fc7, 0xc6e00bf3, 0xd5a79147,
    0x06ca6351, 0x14292967, 0x27b70a85, 0x2e1b2138, 0x4d2c6dfc, 0x53380d13,
    0x650a7354, 0x766a0abb, 0x81c2c92e, 0x92722c85, 0xa2bfe8a1, 0xa81a664b,
    0xc24b8b70, 0xc76c51a3, 0xd192e819, 0xd6990624, 0xf40e3585, 0x106aa070,
    0x19a4c116, 0x1e376c08, 0x2748774c, 0x34b0bcb5, 0x391c0cb3, 0x4ed8aa4a,
    0x5b9cca4f, 0x682e6ff3, 0x748f82ee, 0x78a5636f, 0x84c87814, 0x8cc70208,
    0x90befffa, 0xa4506ceb, 0xbef9a3f7, 0xc67178f2 ]

structure State where
  a : UInt32
  b : UInt32
  c : UInt32
  d : UInt32
  e : UInt32
  f : UInt32
  g : UInt32
  h : UInt32
  deriving DecidableEq, Repr

namespace State

/-- The first 32 bits of the fractional parts of the square roots of the first eight primes. -/
def initial : State :=
  ⟨0x6a09e667, 0xbb67ae85, 0x3c6ef372, 0xa54ff53a,
    0x510e527f, 0x9b05688c, 0x1f83d9ab, 0x5be0cd19⟩

def words (s : State) : List UInt32 := [s.a, s.b, s.c, s.d, s.e, s.f, s.g, s.h]

def add (s t : State) : State :=
  ⟨s.a + t.a, s.b + t.b, s.c + t.c, s.d + t.d, s.e + t.e, s.f + t.f, s.g + t.g, s.h + t.h⟩

end State

def rotateRight (w amount : UInt32) : UInt32 := w >>> amount ||| w <<< (32 - amount)

def round (s : State) (input : UInt32 × UInt32) : State :=
  let mixE := rotateRight s.e 6 ^^^ rotateRight s.e 11 ^^^ rotateRight s.e 25
  let choice := s.e &&& s.f ^^^ ~~~s.e &&& s.g
  let first := s.h + mixE + choice + input.1 + input.2
  let mixA := rotateRight s.a 2 ^^^ rotateRight s.a 13 ^^^ rotateRight s.a 22
  let majority := s.a &&& s.b ^^^ s.a &&& s.c ^^^ s.b &&& s.c
  ⟨first + mixA + majority, s.a, s.b, s.c, s.d + first, s.e, s.f, s.g⟩

/-- The word that follows sixteen words of the schedule. -/
def following (window : List UInt32) : UInt32 :=
  let early := window.getD 1 0
  let late := window.getD 14 0
  let mixEarly := rotateRight early 7 ^^^ rotateRight early 18 ^^^ early >>> 3
  let mixLate := rotateRight late 17 ^^^ rotateRight late 19 ^^^ late >>> 10
  window.getD 0 0 + mixEarly + window.getD 9 0 + mixLate

def extension : Nat → List UInt32 → List UInt32
  | 0, _ => []
  | n + 1, window => following window :: extension n (window.drop 1 ++ [following window])

def schedule (block : List UInt32) : List UInt32 := block ++ extension 48 block

def compress (s : State) (block : List UInt32) : State :=
  s.add ((roundConstants.zip (schedule block)).foldl round s)

/-- The least number of zero bytes that fills the last block. -/
def paddingZeros (size : Nat) : Nat := (119 - size % 64) % 64

/-- A number in this many bytes, the highest first. -/
def bigEndian : Nat → Nat → List UInt8
  | 0, _ => []
  | width + 1, n => UInt8.ofNat (n >>> (8 * width)) :: bigEndian width n

def pad (message : List UInt8) : List UInt8 :=
  message ++ 0x80 :: List.replicate (paddingZeros message.length) 0 ++
    bigEndian 8 (8 * message.length)

def wordsOf : List UInt8 → List UInt32
  | a :: b :: c :: d :: rest =>
    (a.toUInt32 <<< 24 ||| b.toUInt32 <<< 16 ||| c.toUInt32 <<< 8 ||| d.toUInt32) :: wordsOf rest
  | _ => []

def absorb : Nat → State → List UInt32 → State
  | 0, s, _ => s
  | blocks + 1, s, words => absorb blocks (compress s (words.take 16)) (words.drop 16)

def digest (message : List UInt8) : List UInt8 :=
  let words := wordsOf (pad message)
  (absorb (words.length / 16) .initial words).words.flatMap fun w => bigEndian 4 w.toNat

end ProcessStart.Sha256
