/-
Module: Authorship.Codec
Purpose: The binary form of values. Integers have a fixed width and go lowest byte first; a list or
  a text follows its 64-bit length; a variant follows its 32-bit number; an option or a boolean is
  one byte; fields and arrays stand bare. A decoder takes a value off the head of a byte string and
  leaves the rest, so bytes after a value are allowed.
Main exports: DecodeError, Decoder, Encode, Decode, TryEncode, decode
-/
import Authorship.Bytes
import Authorship.Text.Utf8

namespace Authorship

/-- Why bytes hold no value of the wanted type. -/
inductive DecodeError where
  /-- The bytes end inside the value. -/
  | unexpectedEnd
  /-- The bytes end inside a text whose length was read. -/
  | shortText
  | invalidBool (found : UInt8)
  | invalidTag (found : UInt8)
  | invalidVariant (found : UInt32) (variants : Nat)
  | invalidText (fault : Utf8.Fault)
  /-- The bytes hold a value that the type does not admit. -/
  | refused (reason : String)
deriving DecidableEq, Repr

def DecodeError.message : DecodeError → String
  | .unexpectedEnd => "io error: unexpected end of file"
  | .shortText => "io error: "
  | .invalidBool found => s!"invalid u8 while decoding bool, expected 0 or 1, found {found}"
  | .invalidTag found => s!"tag for enum is not valid, found {found}"
  | .invalidVariant found variants =>
    s!"invalid value: integer `{found}`, expected variant index 0 <= i < {variants}"
  | .invalidText fault => s!"string is not valid utf8: {fault.message}"
  | .refused reason => reason

/-- Why a value has no binary form. -/
structure EncodeError where
  reason : String
deriving DecidableEq, Repr

/-- Takes a value off the head of a byte string. -/
abbrev Decoder (α : Type) := StateT Bytes (Except DecodeError) α

/-- Types whose values all have a binary form. -/
class Encode (α : Type) where
  encode : α → Bytes

/-- Types whose values can be read from their binary form. -/
class Decode (α : Type) where
  decoder : Decoder α

/-- Types whose values may have a binary form. -/
class TryEncode (α : Type) where
  tryEncode : α → Except EncodeError Bytes

export Encode (encode)
export TryEncode (tryEncode)

instance {α : Type} [Encode α] : TryEncode α where
  tryEncode value := .ok (encode value)

/-- Read a value, whatever comes after it. -/
def decode (α : Type) [Decode α] (bytes : Bytes) : Except DecodeError α :=
  (Decode.decoder.run bytes).map (·.1)

/-- Read a value whose faults do not matter. -/
def decode? (α : Type) [Decode α] (bytes : Bytes) : Option α :=
  (decode α bytes).toOption

namespace Decoder

/-- Exactly `width` bytes. -/
def fixedBytes (width : Nat) : Decoder (FixedBytes width) := fun bytes =>
  match FixedBytes.ofList? (bytes.take width) with
  | some front => .ok (front, bytes.drop width)
  | none => .error .unexpectedEnd

def byte : Decoder UInt8
  | [] => .error .unexpectedEnd
  | first :: rest => .ok (first, rest)

/-- An unsigned integer of `width` bytes, lowest first. -/
def unsigned (width : Nat) : Decoder Nat := do
  return ofLittleEndian (← fixedBytes width).toList

/-- The same decoder `count` times. -/
def replicate {α : Type} (item : Decoder α) : (count : Nat) → Decoder (List α)
  | 0 => pure []
  | count + 1 => do
    let first ← item
    let rest ← replicate item count
    return first :: rest

/-- `count` bytes of text. -/
def text (count : Nat) : Decoder String := fun bytes =>
  match (FixedBytes.ofList? (bytes.take count) : Option (FixedBytes count)) with
  | none => .error .shortText
  | some front =>
    match Utf8.decode front.toList with
    | .ok found => .ok (found, bytes.drop count)
    | .error fault => .error (.invalidText fault)

end Decoder

/-! ## Base types -/

instance : Encode UInt8 := ⟨fun value => [value]⟩
instance : Encode UInt16 := ⟨fun value => littleEndian 2 value.toNat⟩
instance : Encode UInt32 := ⟨fun value => littleEndian 4 value.toNat⟩
instance : Encode UInt64 := ⟨fun value => littleEndian 8 value.toNat⟩
instance : Encode Int32 := ⟨fun value => encode value.toUInt32⟩
instance : Encode Bool := ⟨fun value => [if value then 1 else 0]⟩

instance : Decode UInt8 := ⟨Decoder.byte⟩
instance : Decode UInt16 := ⟨UInt16.ofNat <$> Decoder.unsigned 2⟩
instance : Decode UInt32 := ⟨UInt32.ofNat <$> Decoder.unsigned 4⟩
instance : Decode UInt64 := ⟨UInt64.ofNat <$> Decoder.unsigned 8⟩
instance : Decode Int32 := ⟨UInt32.toInt32 <$> Decode.decoder⟩

instance : Decode Bool where
  decoder := do
    match ← Decoder.byte with
    | 0 => return false
    | 1 => return true
    | found => throw (.invalidBool found)

/-- The length that stands before a list or a text. -/
def encodeLength (length : Nat) : Bytes :=
  encode (UInt64.ofNat length)

instance : Encode String where
  encode value :=
    let bytes := Utf8.encode value
    encodeLength bytes.length ++ bytes

instance : Decode String where
  decoder := do
    Decoder.text (← (Decode.decoder : Decoder UInt64)).toNat

instance {α : Type} [Encode α] : Encode (Option α) where
  encode
    | none => [0]
    | some value => 1 :: encode value

instance {α : Type} [Decode α] : Decode (Option α) where
  decoder := do
    match ← Decoder.byte with
    | 0 => return none
    | 1 => return some (← Decode.decoder)
    | found => throw (.invalidTag found)

instance {α : Type} [Encode α] : Encode (List α) where
  encode values := encodeLength values.length ++ values.flatMap encode

instance {α : Type} [Decode α] : Decode (List α) where
  decoder := do
    Decoder.replicate Decode.decoder (← (Decode.decoder : Decoder UInt64)).toNat

instance {width : Nat} : Encode (FixedBytes width) := ⟨FixedBytes.toList⟩
instance {width : Nat} : Decode (FixedBytes width) := ⟨Decoder.fixedBytes width⟩

end Authorship
