/-
Module: Authorship.Bytes
Purpose: Byte strings, byte strings of a fixed width, fixed-width integers as bytes, and the
  hexadecimal text of bytes. A byte string is a list, so that the codec, the hash and the
  signature can be reasoned about by structural induction.
Main exports: Bytes, FixedBytes, littleEndian, bigEndian, ofLittleEndian, Bytes.toHex, Bytes.ofHex?
-/

namespace Authorship

/-- A byte string. -/
abbrev Bytes := List UInt8

structure FixedBytes (width : Nat) where
  toList : Bytes
  length_toList : toList.length = width
deriving DecidableEq

namespace FixedBytes

variable {width : Nat}

@[ext] theorem ext {one two : FixedBytes width} (same : one.toList = two.toList) : one = two := by
  cases one; cases two; cases same; rfl

/-- The bytes as a string of fixed width, if there are exactly `width` of them. -/
def ofList? (bytes : Bytes) : Option (FixedBytes width) :=
  if fits : bytes.length = width then some ⟨bytes, fits⟩ else none

/-- The same byte `width` times. -/
def replicate (width : Nat) (byte : UInt8) : FixedBytes width :=
  ⟨List.replicate width byte, List.length_replicate⟩

theorem ofList?_toList (bytes : FixedBytes width) : ofList? bytes.toList = some bytes := by
  simp [ofList?, bytes.length_toList]

theorem ofList?_eq_some_iff {bytes : Bytes} {fixed : FixedBytes width} :
    ofList? bytes = some fixed ↔ bytes = fixed.toList := by
  constructor
  · intro found
    unfold ofList? at found
    split at found
    · cases found; rfl
    · cases found
  · rintro rfl
    exact fixed.ofList?_toList

end FixedBytes

/-! ## Integers as bytes -/

/-- The `width` low bytes of `value`, lowest first. -/
def littleEndian : (width value : Nat) → Bytes
  | 0, _ => []
  | width + 1, value => UInt8.ofNat value :: littleEndian width (value / 256)

/-- The `width` low bytes of `value`, highest first. -/
def bigEndian (width value : Nat) : Bytes :=
  (littleEndian width value).reverse

/-- The number whose bytes, lowest first, are given. -/
def ofLittleEndian : Bytes → Nat
  | [] => 0
  | byte :: rest => byte.toNat + 256 * ofLittleEndian rest

@[simp] theorem length_littleEndian (width value : Nat) :
    (littleEndian width value).length = width := by
  induction width generalizing value with
  | zero => rfl
  | succ width ih => simp [littleEndian, ih]

@[simp] theorem length_bigEndian (width value : Nat) : (bigEndian width value).length = width := by
  simp [bigEndian]

theorem ofLittleEndian_lt (bytes : Bytes) : ofLittleEndian bytes < Nat.pow 256 bytes.length := by
  induction bytes with
  | nil => exact Nat.zero_lt_one
  | cons byte rest ih =>
    have := byte.toNat_lt
    change byte.toNat + 256 * ofLittleEndian rest < Nat.pow 256 rest.length * 256
    omega

theorem ofLittleEndian_littleEndian (width value : Nat) :
    ofLittleEndian (littleEndian width value) = value % Nat.pow 256 width := by
  induction width generalizing value with
  | zero => exact (Nat.mod_one value).symm
  | succ width ih =>
    have low : (UInt8.ofNat value).toNat = value % 256 := UInt8.toNat_ofNat'
    have power : Nat.pow 256 (width + 1) = 256 * Nat.pow 256 width := Nat.mul_comm ..
    rw [littleEndian, ofLittleEndian, ih, low, power, Nat.mod_mul]

theorem littleEndian_ofLittleEndian (bytes : Bytes) :
    littleEndian bytes.length (ofLittleEndian bytes) = bytes := by
  induction bytes with
  | nil => rfl
  | cons byte rest ih =>
    have small := byte.toNat_lt
    have high : (byte.toNat + 256 * ofLittleEndian rest) / 256 = ofLittleEndian rest := by omega
    have low : UInt8.ofNat (byte.toNat + 256 * ofLittleEndian rest) = byte := by
      apply UInt8.toNat_inj.mp
      simp only [UInt8.toNat_ofNat']
      omega
    simp only [List.length_cons, ofLittleEndian, littleEndian, high, low, ih]

/-! ## Hexadecimal text -/

/-- Two lowercase hexadecimal digits. -/
def hexDigits (byte : UInt8) : List Char :=
  [Nat.digitChar (byte.toNat / 16), Nat.digitChar (byte.toNat % 16)]

/-- The value of a hexadecimal digit of either case. -/
def hexValue? (digit : Char) : Option Nat :=
  if '0' ≤ digit ∧ digit ≤ '9' then some (digit.toNat - '0'.toNat)
  else if 'a' ≤ digit ∧ digit ≤ 'f' then some (digit.toNat - 'a'.toNat + 10)
  else if 'A' ≤ digit ∧ digit ≤ 'F' then some (digit.toNat - 'A'.toNat + 10)
  else none

namespace Bytes

/-- Lowercase hexadecimal text, two digits a byte. -/
def toHex (bytes : Bytes) : String :=
  String.ofList (bytes.flatMap hexDigits)

/-- Read pairs of hexadecimal digits. -/
def ofHexDigits? : List Char → Option Bytes
  | [] => some []
  | high :: low :: rest => do
    let high ← hexValue? high
    let low ← hexValue? low
    let rest ← ofHexDigits? rest
    pure (UInt8.ofNat (16 * high + low) :: rest)
  | [_] => none

/-- The bytes written by a hexadecimal text. -/
def ofHex? (text : String) : Option Bytes :=
  ofHexDigits? text.toList

end Bytes

end Authorship
