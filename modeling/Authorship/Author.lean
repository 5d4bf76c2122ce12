/-
Module: Authorship.Author
Purpose: Who authors blocks: public identities, secret seeds, signatures, and what a signature
  scheme offers. Everything that seals or checks seals takes the scheme as a parameter, and of a
  scheme only `SignatureScheme.Sound` is ever assumed.
Main exports: authorshipTag, AuthorId, Seed, Signature, LengthError, SignatureScheme,
  SignatureScheme.Sound
-/
import Authorship.Codec

namespace Authorship

/-- Four-byte tag of this way of authoring, `nmbs`: of its logs and of its family of keys. -/
def authorshipTag : FixedBytes 4 := ⟨[0x6e, 0x6d, 0x62, 0x73], rfl⟩

structure Seed where
  bytes : FixedBytes 32
deriving DecidableEq

/-- Public identity of a block author. Any 32 bytes; whether they are a key shows when a signature
is checked. -/
structure AuthorId where
  bytes : FixedBytes 32
deriving DecidableEq

structure Signature where
  bytes : FixedBytes 64
deriving DecidableEq

/-- Raw key material of the wrong length. -/
structure LengthError where
  got : Nat
  expected : Nat
deriving DecidableEq, Repr

def LengthError.message (error : LengthError) : String :=
  s!"invalid length {error.got}, expected {error.expected}"

/-- Exactly `width` bytes, or how many there are instead. -/
def FixedBytes.ofList {width : Nat} (bytes : Bytes) : Except LengthError (FixedBytes width) :=
  match FixedBytes.ofList? bytes with
  | some fixed => .ok fixed
  | none => .error ⟨bytes.length, width⟩

namespace AuthorId

def ofBytes (bytes : Bytes) : Except LengthError AuthorId := do
  return ⟨← FixedBytes.ofList bytes⟩

instance : ToString AuthorId := ⟨fun author => "0x" ++ Bytes.toHex author.bytes.toList⟩
instance : Encode AuthorId := ⟨fun author => encode author.bytes⟩
instance : Decode AuthorId := ⟨AuthorId.mk <$> Decode.decoder⟩

/-- The identity as diagnostics show it. -/
def tagged (author : AuthorId) : String :=
  s!"NimbusId({author})"

end AuthorId

namespace Signature

def ofBytes (bytes : Bytes) : Except LengthError Signature := do
  return ⟨← FixedBytes.ofList bytes⟩

instance : Encode Signature := ⟨fun signature => encode signature.bytes⟩
instance : Decode Signature := ⟨Signature.mk <$> Decode.decoder⟩

end Signature

/-- How keys are made, messages signed and signatures checked. -/
structure SignatureScheme where
  publicKey : Seed → AuthorId
  sign : Seed → Bytes → Signature
  verify : AuthorId → Bytes → Signature → Bool

namespace SignatureScheme

/-- A signature is accepted for the message and the key that made it. -/
def Sound (scheme : SignatureScheme) : Prop :=
  ∀ seed message, scheme.verify (scheme.publicKey seed) message (scheme.sign seed message) = true

/-- A key pair as diagnostics show it: the secret stays out. -/
def describePair (scheme : SignatureScheme) (seed : Seed) : String :=
  "NimbusPair \x7b public: " ++ (scheme.publicKey seed).tagged ++ " \x7d"

end SignatureScheme

end Authorship
