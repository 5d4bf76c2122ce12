/-
Module: Authorship.Sha2
Purpose: The SHA-2 family over words of any of its two widths: padding, the message schedule as a
  window of sixteen words that slides once a round, and the compression of blocks. SHA-256 works on
  32-bit words, SHA-512 on 64-bit words; all else is shared.
Main exports: Sha2.Word, Sha2.pad, Sha2.compress, Sha2.digest, sha256, sha512
-/
import Authorship.Bytes

namespace Authorship

namespace Sha2

/-- The eight words that a block is mixed into. -/
structure State (ω : Type) where
  a : ω
  b : ω
  c : ω
  d : ω
  e : ω
  f : ω
  g : ω
  h : ω
deriving DecidableEq, Repr

/-- What tells the members of the family apart. -/
class Word (ω : Type) extends Add ω where
  /-- Bytes of a word. -/
  width : Nat
  ofNat : Nat → ω
  toNat : ω → Nat
  choose : ω → ω → ω → ω
  majority : ω → ω → ω → ω
  bigSigma0 : ω → ω
  bigSigma1 : ω → ω
  smallSigma0 : ω → ω
  smallSigma1 : ω → ω
  /-- One constant a round. -/
  constants : List ω
  start : State ω

variable {ω : Type} [Word ω]

/-- Mix one round's constant and message word into the state. -/
@[specialize] def State.round (state : State ω) (constant word : ω) : State ω :=
  let first := state.h + Word.bigSigma1 state.e + Word.choose state.e state.f state.g
    + constant + word
  let second := Word.bigSigma0 state.a + Word.majority state.a state.b state.c
  { a := first + second, b := state.a, c := state.b, d := state.c,
    e := state.d + first, f := state.e, g := state.f, h := state.g }

/-- The word that enters the window when `oldest` leaves it. -/
@[specialize] def nextWord (oldest : ω) (window : List ω) : ω :=
  Word.smallSigma1 (window.getD 13 oldest) + window.getD 8 oldest
    + Word.smallSigma0 (window.getD 0 oldest) + oldest

/-- One round for every constant; the window holds the next sixteen message words. -/
@[specialize] def rounds : (constants window : List ω) → State ω → State ω
  | constant :: constants, word :: window, state =>
    rounds constants (window ++ [nextWord word window]) (state.round constant word)
  | _, _, state => state

@[specialize] def State.add (one two : State ω) : State ω :=
  { a := one.a + two.a, b := one.b + two.b, c := one.c + two.c, d := one.d + two.d,
    e := one.e + two.e, f := one.f + two.f, g := one.g + two.g, h := one.h + two.h }

/-- Split bytes into `count` words, highest byte first. -/
@[specialize] def wordsOf : (count : Nat) → Bytes → List ω
  | 0, _ => []
  | count + 1, bytes =>
    Word.ofNat (ofLittleEndian (bytes.take (Word.width ω)).reverse)
      :: wordsOf count (bytes.drop (Word.width ω))

/-- Mix a block of sixteen words into the state. -/
@[specialize] def compress (state : State ω) (block : Bytes) : State ω :=
  state.add (rounds Word.constants (wordsOf 16 block) state)

/-- Mix `count` blocks into the state. -/
@[specialize] def absorb : (count : Nat) → Bytes → State ω → State ω
  | 0, _, state => state
  | count + 1, bytes, state =>
    absorb count (bytes.drop (16 * Word.width ω))
      (compress state (bytes.take (16 * Word.width ω)))

/-- Bytes of zero between the end mark and the length, so that the whole fills blocks of
`16 * width` bytes with a length of `2 * width` bytes. -/
def fill (width length : Nat) : Nat :=
  (16 * width - (length + 1 + 2 * width) % (16 * width)) % (16 * width)

/-- The message, the end mark, zeros and the length in bits. -/
def pad (width : Nat) (message : Bytes) : Bytes :=
  message ++ 0x80 :: List.replicate (fill width message.length) 0
    ++ bigEndian (2 * width) (8 * message.length)

def State.toBytes (state : State ω) : Bytes :=
  [state.a, state.b, state.c, state.d, state.e, state.f, state.g, state.h].flatMap
    fun word => bigEndian (Word.width ω) (Word.toNat word)

@[specialize] def digest (ω : Type) [Word ω] (message : Bytes) : Bytes :=
  let padded := pad (Word.width ω) message
  (absorb (padded.length / (16 * Word.width ω)) padded (Word.start : State ω)).toBytes

theorem length_toBytes (state : State ω) : state.toBytes.length = 8 * Word.width ω := by
  simp [State.toBytes]
  omega

theorem length_digest (ω : Type) [Word ω] (message : Bytes) :
    (digest ω message).length = 8 * Word.width ω :=
  length_toBytes _

end Sha2

/-! ## SHA-256 -/

def rotateRight32 (word amount : UInt32) : UInt32 :=
  (word >>> amount) ||| (word <<< (32 - amount))

instance : Sha2.Word UInt32 where
  width := 4
  ofNat := UInt32.ofNat
  toNat := UInt32.toNat
  choose x y z := (x &&& y) ^^^ (~~~x &&& z)
  majority x y z := (x &&& y) ^^^ (x &&& z) ^^^ (y &&& z)
  bigSigma0 x := rotateRight32 x 2 ^^^ rotateRight32 x 13 ^^^ rotateRight32 x 22
  bigSigma1 x := rotateRight32 x 6 ^^^ rotateRight32 x 11 ^^^ rotateRight32 x 25
  smallSigma0 x := rotateRight32 x 7 ^^^ rotateRight32 x 18 ^^^ (x >>> 3)
  smallSigma1 x := rotateRight32 x 17 ^^^ rotateRight32 x 19 ^^^ (x >>> 10)
  constants := [
    0x428a2f98, 0x71374491, 0xb5c0fbcf, 0xe9b5dba5, 0x3956c25b, 0x59f111f1, 0x923f82a4, 0xab1c5ed5,
    0xd807aa98, 0x12835b01, 0x243185be, 0x550c7dc3, 0x72be5d74, 0x80deb1fe, 0x9bdc06a7, 0xc19bf174,
    0xe49b69c1, 0xefbe4786, 0x0fc19dc6, 0x240ca1cc, 0x2de92c6f, 0x4a7484aa, 0x5cb0a9dc, 0x76f988da,
    0x983e5152, 0xa831c66d, 0xb00327c8, 0xbf597fc7, 0xc6e00bf3, 0xd5a79147, 0x06ca6351, 0x14292967,
    0x27b70a85, 0x2e1b2138, 0x4d2c6dfc, 0x53380d13, 0x650a7354, 0x766a0abb, 0x81c2c92e, 0x92722c85,
    0xa2bfe8a1, 0xa81a664b, 0xc24b8b70, 0xc76c51a3, 0xd192e819, 0xd6990624, 0xf40e3585, 0x106aa070,
    0x19a4c116, 0x1e376c08, 0x2748774c, 0x34b0bcb5, 0x391c0cb3, 0x4ed8aa4a, 0x5b9cca4f, 0x682e6ff3,
    0x748f82ee, 0x78a5636f, 0x84c87814, 0x8cc70208, 0x90befffa, 0xa4506ceb, 0xbef9a3f7, 0xc67178f2]
  start :=
    { a := 0x6a09e667, b := 0xbb67ae85, c := 0x3c6ef372, d := 0xa54ff53a,
      e := 0x510e527f, f := 0x9b05688c, g := 0x1f83d9ab, h := 0x5be0cd19 }

def sha256 (message : Bytes) : FixedBytes 32 :=
  ⟨Sha2.digest UInt32 message, Sha2.length_digest UInt32 message⟩

/-! ## SHA-512 -/

def rotateRight64 (word amount : UInt64) : UInt64 :=
  (word >>> amount) ||| (word <<< (64 - amount))

instance : Sha2.Word UInt64 where
  width := 8
  ofNat := UInt64.ofNat
  toNat := UInt64.toNat
  choose x y z := (x &&& y) ^^^ (~~~x &&& z)
  majority x y z := (x &&& y) ^^^ (x &&& z) ^^^ (y &&& z)
  bigSigma0 x := rotateRight64 x 28 ^^^ rotateRight64 x 34 ^^^ rotateRight64 x 39
  bigSigma1 x := rotateRight64 x 14 ^^^ rotateRight64 x 18 ^^^ rotateRight64 x 41
  smallSigma0 x := rotateRight64 x 1 ^^^ rotateRight64 x 8 ^^^ (x >>> 7)
  smallSigma1 x := rotateRight64 x 19 ^^^ rotateRight64 x 61 ^^^ (x >>> 6)
  constants := [
    0x428a2f98d728ae22, 0x7137449123ef65cd, 0xb5c0fbcfec4d3b2f, 0xe9b5dba58189dbbc,
    0x3956c25bf348b538, 0x59f111f1b605d019, 0x923f82a4af194f9b, 0xab1c5ed5da6d8118,
    0xd807aa98a3030242, 0x12835b0145706fbe, 0x243185be4ee4b28c, 0x550c7dc3d5ffb4e2,
    0x72be5d74f27b896f, 0x80deb1fe3b1696b1, 0x9bdc06a725c71235, 0xc19bf174cf692694,
    0xe49b69c19ef14ad2, 0xefbe4786384f25e3, 0x0fc19dc68b8cd5b5, 0x240ca1cc77ac9c65,
    0x2de92c6f592b0275, 0x4a7484aa6ea6e483, 0x5cb0a9dcbd41fbd4, 0x76f988da831153b5,
    0x983e5152ee66dfab, 0xa831c66d2db43210, 0xb00327c898fb213f, 0xbf597fc7beef0ee4,
    0xc6e00bf33da88fc2, 0xd5a79147930aa725, 0x06ca6351e003826f, 0x142929670a0e6e70,
    0x27b70a8546d22ffc, 0x2e1b21385c26c926, 0x4d2c6dfc5ac42aed, 0x53380d139d95b3df,
    0x650a73548baf63de, 0x766a0abb3c77b2a8, 0x81c2c92e47edaee6, 0x92722c851482353b,
    0xa2bfe8a14cf10364, 0xa81a664bbc423001, 0xc24b8b70d0f89791, 0xc76c51a30654be30,
    0xd192e819d6ef5218, 0xd69906245565a910, 0xf40e35855771202a, 0x106aa07032bbd1b8,
    0x19a4c116b8d2d0c8, 0x1e376c085141ab53, 0x2748774cdf8eeb99, 0x34b0bcb5e19b48a8,
    0x391c0cb3c5c95a63, 0x4ed8aa4ae3418acb, 0x5b9cca4f7763e373, 0x682e6ff3d6b2b8a3,
    0x748f82ee5defb2fc, 0x78a5636f43172f60, 0x84c87814a1f0ab72, 0x8cc702081a6439ec,
    0x90befffa23631e28, 0xa4506cebde82bde9, 0xbef9a3f7b2c67915, 0xc67178f2e372532b,
    0xca273eceea26619c, 0xd186b8c721c0c207, 0xeada7dd6cde0eb1e, 0xf57d4f7fee6ed178,
    0x06f067aa72176fba, 0x0a637dc5a2c898a6, 0x113f9804bef90dae, 0x1b710b35131c471b,
    0x28db77f523047d84, 0x32caab7b40c72493, 0x3c9ebe0a15c9bebc, 0x431d67c49c100d4c,
    0x4cc5d4becb3e42b6, 0x597f299cfc657e2a, 0x5fcb6fab3ad6faec, 0x6c44198c4a475817]
  start :=
    { a := 0x6a09e667f3bcc908, b := 0xbb67ae8584caa73b
      c := 0x3c6ef372fe94f82b, d := 0xa54ff53a5f1d36f1
      e := 0x510e527fade682d1, f := 0x9b05688c2b3e6c1f
      g := 0x1f83d9abfb41bd6b, h := 0x5be0cd19137e2179 }

def sha512 (message : Bytes) : FixedBytes 64 :=
  ⟨Sha2.digest UInt64 message, Sha2.length_digest UInt64 message⟩

end Authorship
