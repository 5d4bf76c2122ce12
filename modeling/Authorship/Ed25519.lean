/-
Module: Authorship.Ed25519
Purpose: Ed25519 signatures. Verification compares the bytes of the recomputed commitment with the
  bytes in the signature, without clearing the cofactor, so a key of small order is a key like any
  other; the scalar in a signature must be reduced.
Main exports: ed25519
-/
import Authorship.Author
import Authorship.Sha2
import Authorship.Ed25519.Point

namespace Authorship

namespace Ed25519

/-- A hash read as a scalar. -/
def scalarOfHash (message : Bytes) : Nat :=
  ofLittleEndian (sha512 message).toList % groupOrder

/-- The secret scalar: the low half of the seed's hash with its ends set. -/
def secretScalar (seed : Seed) : Nat :=
  let low := ofLittleEndian ((sha512 seed.bytes.toList).toList.take 32)
  low % Nat.pow 2 254 / 8 * 8 + Nat.pow 2 254

/-- The high half of the seed's hash, which makes the nonces. -/
def nonceKey (seed : Seed) : Bytes :=
  (sha512 seed.bytes.toList).toList.drop 32

/-- The public key of a seed. -/
def publicKey (seed : Seed) : AuthorId :=
  ⟨(basePoint.multiply (secretScalar seed)).compress⟩

/-- A commitment and a scalar as a signature. -/
def join (commitment : FixedBytes 32) (scalar : Nat) : Signature :=
  ⟨commitment.toList ++ littleEndian 32 scalar, by simp [commitment.length_toList]⟩

def sign (seed : Seed) (message : Bytes) : Signature :=
  let nonce := scalarOfHash (nonceKey seed ++ message)
  let commitment := (basePoint.multiply nonce).compress
  let challenge :=
    scalarOfHash (commitment.toList ++ (publicKey seed).bytes.toList ++ message)
  join commitment ((nonce + challenge * secretScalar seed) % groupOrder)

def verify (author : AuthorId) (message : Bytes) (signature : Signature) : Bool :=
  let commitment := signature.bytes.toList.take 32
  let scalar := ofLittleEndian (signature.bytes.toList.drop 32)
  match Point.decompress? author.bytes with
  | none => false
  | some key =>
    let challenge := scalarOfHash (commitment ++ author.bytes.toList ++ message)
    let expected := (basePoint.multiply scalar).add (key.negate.multiply challenge)
    scalar < groupOrder && expected.compress.toList == commitment

end Ed25519

def ed25519 : SignatureScheme where
  publicKey := Ed25519.publicKey
  sign := Ed25519.sign
  verify := Ed25519.verify

end Authorship
