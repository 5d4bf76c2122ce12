/-
Module: Authorship.Block.Digest
Purpose: The logs of a block header. A block carries two logs of this engine: a pre-runtime log that
  names the author and is read when the block executes, and last of all a seal with the author's
  signature over everything before it. An older form names the author in a consensus log.
Main exports: EngineId, authorshipEngine, DigestItem, Digest, DigestItem.author?,
  DigestItem.signature?, Digest.author?
-/
import Authorship.Author
import Authorship.Hash

namespace Authorship

/-- Four-byte tag of a consensus engine. -/
abbrev EngineId := FixedBytes 4

/-- The tag of every log of this engine. -/
def authorshipEngine : EngineId := authorshipTag

/-- One log of a header. -/
inductive DigestItem where
  /-- Written by the author before the block executes. -/
  | preRuntime (engine : EngineId) (payload : Bytes)
  /-- A message of the executing block. -/
  | consensus (engine : EngineId) (payload : Bytes)
  /-- The author's signature, which it does not cover itself. -/
  | seal (engine : EngineId) (payload : Bytes)
  | other (payload : Bytes)
deriving DecidableEq

/-- The logs of a header, in order. -/
abbrev Digest := List DigestItem

namespace DigestItem

instance : Encode DigestItem where
  encode
    | .preRuntime engine payload => encode (0 : UInt32) ++ encode engine ++ encode payload
    | .consensus engine payload => encode (1 : UInt32) ++ encode engine ++ encode payload
    | .seal engine payload => encode (2 : UInt32) ++ encode engine ++ encode payload
    | .other payload => encode (3 : UInt32) ++ encode payload

instance : Decode DigestItem where
  decoder := do
    match ← (Decode.decoder : Decoder UInt32) with
    | 0 => return .preRuntime (← Decode.decoder) (← Decode.decoder)
    | 1 => return .consensus (← Decode.decoder) (← Decode.decoder)
    | 2 => return .seal (← Decode.decoder) (← Decode.decoder)
    | 3 => return .other (← Decode.decoder)
    | found => throw (.invalidVariant found 4)

/-- The payload of a pre-runtime log of `engine`. -/
def preRuntimePayload? (engine : EngineId) : DigestItem → Option Bytes
  | .preRuntime tag payload => if tag = engine then some payload else none
  | _ => none

/-- The payload of a consensus log of `engine`. -/
def consensusPayload? (engine : EngineId) : DigestItem → Option Bytes
  | .consensus tag payload => if tag = engine then some payload else none
  | _ => none

/-- The payload of a seal of `engine`. -/
def sealPayload? (engine : EngineId) : DigestItem → Option Bytes
  | .seal tag payload => if tag = engine then some payload else none
  | _ => none

/-- The log that names the author of a block. -/
def ofAuthor (author : AuthorId) : DigestItem :=
  .preRuntime authorshipEngine (encode author)

/-- The author that a log names. -/
def author? (item : DigestItem) : Option AuthorId := do
  decode? AuthorId (← item.preRuntimePayload? authorshipEngine)

/-- The log that seals a block. -/
def ofSignature (signature : Signature) : DigestItem :=
  .seal authorshipEngine (encode signature)

/-- The signature that a seal holds. -/
def signature? (item : DigestItem) : Option Signature := do
  decode? Signature (← item.sealPayload? authorshipEngine)

/-- The older log that names the author of a block. -/
def ofNoticedAuthor (author : AuthorId) : DigestItem :=
  .consensus authorshipEngine (encode author)

/-- The author that a log of the older form names. -/
def noticedAuthor? (item : DigestItem) : Option AuthorId := do
  decode? AuthorId (← item.consensusPayload? authorshipEngine)

end DigestItem

/-- The author named by the first log that names one. -/
def Digest.author? (digest : Digest) : Option AuthorId :=
  digest.findSome? DigestItem.author?

end Authorship
