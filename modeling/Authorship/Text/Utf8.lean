/-
Module: Authorship.Text.Utf8
Purpose: UTF-8 as text is stored: a strict reader that says where and how the bytes go wrong, and a
  lossy reader that puts U+FFFD for every longest faulty piece.
Main exports: Utf8.encode, Utf8.decode, Utf8.decodeLossy, Utf8.Fault
-/
import Authorship.Bytes

namespace Authorship.Utf8

/-- Why bytes are not UTF-8. -/
inductive Fault where
  /-- The `size` bytes from `index` on start no scalar. -/
  | invalid (size index : Nat)
  /-- The scalar that starts at `index` is cut off by the end. -/
  | incomplete (index : Nat)
deriving DecidableEq, Repr

def Fault.message : Fault → String
  | .invalid size index => s!"invalid utf-8 sequence of {size} bytes from index {index}"
  | .incomplete index => s!"incomplete utf-8 byte sequence from index {index}"

/-- What stands at the head of a byte string. -/
inductive Head where
  | scalar (char : Char) (rest : Bytes)
  | invalid (size : Nat)
  | incomplete
deriving DecidableEq

/-- For a first byte of a longer sequence: how many bytes follow, and the bounds of the next one.
The bounds exclude overlong forms, surrogates and everything above U+10FFFF. -/
def followers? (byte : Nat) : Option (Nat × Nat × Nat) :=
  if byte < 0xC2 then none
  else if byte < 0xE0 then some (1, 0x80, 0xBF)
  else if byte = 0xE0 then some (2, 0xA0, 0xBF)
  else if byte = 0xED then some (2, 0x80, 0x9F)
  else if byte < 0xF0 then some (2, 0x80, 0xBF)
  else if byte = 0xF0 then some (3, 0x90, 0xBF)
  else if byte < 0xF4 then some (3, 0x80, 0xBF)
  else if byte = 0xF4 then some (3, 0x80, 0x8F)
  else none

/-- Payload bits of a first byte that `followers` bytes follow. -/
def leadBits (byte followers : Nat) : Nat :=
  byte % Nat.pow 2 (6 - followers)

/-- Read `remaining` more bytes of a scalar, the next one between `low` and `high`; `size` bytes of
it and their payload `value` have been read. -/
def follow : (remaining low high size value : Nat) → Bytes → Head
  | 0, _, _, _, value, rest => .scalar (Char.ofNat value) rest
  | _ + 1, _, _, _, _, [] => .incomplete
  | remaining + 1, low, high, size, value, byte :: rest =>
    if low ≤ byte.toNat ∧ byte.toNat ≤ high then
      follow remaining 0x80 0xBF (size + 1) (value * 64 + byte.toNat % 64) rest
    else .invalid size

/-- What a first byte and the bytes after it start with. -/
def head (byte : UInt8) (rest : Bytes) : Head :=
  if byte.toNat < 0x80 then .scalar (Char.ofNat byte.toNat) rest
  else
    match followers? byte.toNat with
    | none => .invalid 1
    | some (count, low, high) => follow count low high 1 (leadBits byte.toNat count) rest

theorem length_rest_of_follow {remaining low high size value : Nat} {bytes rest : Bytes}
    {char : Char} (found : follow remaining low high size value bytes = .scalar char rest) :
    rest.length ≤ bytes.length := by
  induction remaining generalizing low high size value bytes with
  | zero => cases found; exact Nat.le_refl _
  | succ remaining ih =>
    cases bytes with
    | nil => cases found
    | cons byte tail =>
      rw [follow] at found
      split at found
      · exact Nat.le_succ_of_le (ih found)
      · cases found

theorem length_rest_of_head {byte : UInt8} {bytes rest : Bytes} {char : Char}
    (found : head byte bytes = .scalar char rest) : rest.length ≤ bytes.length := by
  rw [head] at found
  split at found
  · cases found; exact Nat.le_refl _
  · split at found
    · cases found
    · exact length_rest_of_follow found

/-- The scalars of `bytes`, which start at `index` of the whole string. -/
def decodeFrom (index : Nat) (bytes : Bytes) : Except Fault (List Char) :=
  match bytes with
  | [] => .ok []
  | byte :: tail =>
    match shape : head byte tail with
    | .scalar char rest => do
      let chars ← decodeFrom (index + (tail.length + 1 - rest.length)) rest
      return char :: chars
    | .invalid size => .error (.invalid size index)
    | .incomplete => .error (.incomplete index)
termination_by bytes.length
decreasing_by
  have := length_rest_of_head shape
  simp only [List.length_cons]
  omega

def decode (bytes : Bytes) : Except Fault String := do
  return String.ofList (← decodeFrom 0 bytes)

/-- The scalars of `bytes` with U+FFFD for every longest faulty piece. -/
def lossyChars (bytes : Bytes) : List Char :=
  match bytes with
  | [] => []
  | byte :: tail =>
    match shape : head byte tail with
    | .scalar char rest => char :: lossyChars rest
    | .invalid size => '\uFFFD' :: lossyChars (tail.drop (size - 1))
    | .incomplete => ['\uFFFD']
termination_by bytes.length
decreasing_by
  · have := length_rest_of_head shape
    simp only [List.length_cons]
    omega
  · simp only [List.length_drop, List.length_cons]
    omega

/-- The text of a byte string, readable whatever the bytes are. -/
def decodeLossy (bytes : Bytes) : String :=
  String.ofList (lossyChars bytes)

def encode (text : String) : Bytes :=
  text.toList.flatMap String.utf8EncodeChar

end Authorship.Utf8
