import Mathlib.Data.BitVec

/-!
# SHA-256

The hash function on lists of bytes, as `hashlib.sha256` computes it, and the
text of its digest.
-/

namespace Agentcy.Library.Sha256

abbrev Word := BitVec 32

/-- The fractional parts of the cube roots of the first 64 primes. -/
def constants : List Word :=
  [0x428a2f98, 0x71374491, 0xb5c0fbcf, 0xe9b5dba5, 0x3956c25b, 0x59f111f1,
    0x923f82a4, 0xab1c5ed5, 0xd807aa98, 0x12835b01, 0x243185be, 0x550c7dc3,
    0x72be5d74, 0x80deb1fe, 0x9bdc06a7, 0xc19bf174, 0xe49b69c1, 0xefbe4786,
    0x0fc19dc6, 0x240ca1cc, 0x2de92c6f, 0x4a7484aa, 0x5cb0a9dc, 0x76f988da,
    0x983e5152, 0xa831c66d, 0xb00327c8, 0xbf597fc7, 0xc6e00bf3, 0xd5a79147,
    0x06ca6351, 0x14292967, 0x27b70a85, 0x2e1b2138, 0x4d2c6dfc, 0x53380d13,
    0x650a7354, 0x766a0abb, 0x81c2c92e, 0x92722c85, 0xa2bfe8a1, 0xa81a664b,
    0xc24b8b70, 0xc76c51a3, 0xd192e819, 0xd6990624, 0xf40e3585, 0x106aa070,
    0x19a4c116, 0x1e376c08, 0x2748774c, 0x34b0bcb5, 0x391c0cb3, 0x4ed8aa4a,
    0x5b9cca4f, 0x682e6ff3, 0x748f82ee, 0x78a5636f, 0x84c87814, 0x8cc70208,
    0x90befffa, 0xa4506ceb, 0xbef9a3f7, 0xc67178f2]

structure State where
  a : Word
  b : Word
  c : Word
  d : Word
  e : Word
  f : Word
  g : Word
  h : Word

/-- The fractional parts of the square roots of the first 8 primes. -/
def initial : State :=
  ⟨0x6a09e667, 0xbb67ae85, 0x3c6ef372, 0xa54ff53a, 0x510e527f, 0x9b05688c,
    0x1f83d9ab, 0x5be0cd19⟩

def smallSigma0 (word : Word) : Word :=
  word.rotateRight 7 ^^^ word.rotateRight 18 ^^^ (word >>> 3)

def smallSigma1 (word : Word) : Word :=
  word.rotateRight 17 ^^^ word.rotateRight 19 ^^^ (word >>> 10)

def bigSigma0 (word : Word) : Word :=
  word.rotateRight 2 ^^^ word.rotateRight 13 ^^^ word.rotateRight 22

def bigSigma1 (word : Word) : Word :=
  word.rotateRight 6 ^^^ word.rotateRight 11 ^^^ word.rotateRight 25

/-- One round, with its constant and its word of the schedule. -/
def State.round (state : State) (constant word : Word) : State :=
  let choice := (state.e &&& state.f) ^^^ (~~~state.e &&& state.g)
  let majority :=
    (state.a &&& state.b) ^^^ (state.a &&& state.c) ^^^
      (state.b &&& state.c)
  let first :=
    state.h + bigSigma1 state.e + choice + constant + word
  let second := bigSigma0 state.a + majority
  ⟨first + second, state.a, state.b, state.c, state.d + first, state.e,
    state.f, state.g⟩

/-- The word of the schedule after the sixteen in the window. -/
def nextWord (window : List Word) : Word :=
  smallSigma1 (window.getD 14 0) + window.getD 9 0 +
    smallSigma0 (window.getD 1 0) + window.getD 0 0

/-- A round for each constant, where the window moves on by one word. -/
def rounds : List Word → List Word → State → State
  | [], _, state => state
  | constant :: rest, window, state =>
      rounds rest (window.tail ++ [nextWord window])
        (state.round constant (window.headD 0))

def State.add (first second : State) : State :=
  ⟨first.a + second.a, first.b + second.b, first.c + second.c,
    first.d + second.d, first.e + second.e, first.f + second.f,
    first.g + second.g, first.h + second.h⟩

/-- A number as big-endian bytes. -/
def bigEndian : Nat → Nat → List UInt8
  | 0, _ => []
  | width + 1, number =>
      bigEndian width (number / 256) ++ [UInt8.ofNat number]

/-- The message with the one bit, the zeros and its length in bits, which fill
up a block of 64 bytes. -/
def pad (message : List UInt8) : List UInt8 :=
  message ++ [0x80] ++
    List.replicate ((119 - message.length % 64) % 64) 0 ++
      bigEndian 8 (8 * message.length)

def wordAt (bytes : List UInt8) (index : Nat) : Word :=
  BitVec.ofNat 32
    (((bytes.drop (4 * index)).take 4).foldl
      (fun number byte => number * 256 + byte.toNat) 0)

def compress (state : State) (block : List UInt8) : State :=
  state.add (rounds constants ((List.range 16).map (wordAt block)) state)

def digest (message : List UInt8) : State :=
  let padded := pad message
  ((List.range (padded.length / 64)).map fun index =>
    (padded.drop (64 * index)).take 64).foldl compress initial

def hexWord (word : Word) : List Char :=
  (List.range 8).map fun index =>
    Nat.digitChar (word.toNat / 16 ^ (7 - index) % 16)

/-- `hashlib.sha256(message).hexdigest()`. -/
def hexdigest (message : List UInt8) : List Char :=
  let state := digest message
  [state.a, state.b, state.c, state.d, state.e, state.f, state.g,
    state.h].flatMap hexWord

/-- The digest of `abc`. -/
example :
    String.ofList (hexdigest [97, 98, 99]) =
      "ba7816bf8f01cfea414140de5dae2223" ++
        "b00361a396177a9cb410ff61f20015ad" := by
  decide +kernel

end Agentcy.Library.Sha256
