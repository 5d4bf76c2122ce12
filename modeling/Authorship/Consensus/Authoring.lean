/-
Module: Authorship.Consensus.Authoring
Purpose: The steps that authoring on command and authoring by slot share: find a local key that the
  runtime lets author, name it in the logs of the new block, seal the block with it.
Main exports: firstEligibleKey?, sealHeader, namedAuthor, ExtraDigests, authoringDigest, attachSeal
-/
import Authorship.Consensus.Error
import Authorship.Consensus.Import

namespace Authorship

/-- The first local key that the runtime lets author at a slot on top of a block. Keys that the
runtime cannot check are passed over. -/
def firstEligibleKey? (api : RuntimeApi) (keyring : Keyring) (parent : Header) (slot : UInt32) :
    Option AuthorId :=
  (keyring.keys authorshipKeys).find? fun key =>
    match api parent key slot with
    | .ok eligible => eligible
    | .error _ => false

/-- Sign the hash of a header that has no seal yet. -/
def sealHeader (keyring : Keyring) (header : Header) (author : AuthorId) :
    Except ConsensusError DigestItem :=
  match keyring.signWith authorshipKeys author header.hash.toBytes with
  | .error error => .error (.keyring error)
  | .ok none => .error (.cannotSign author "key not found in keystore")
  | .ok (some signature) => .ok (.ofSignature signature)

/-- The author that the logs of a header name. -/
def namedAuthor (header : Header) : Except ConsensusError AuthorId :=
  match header.author? with
  | some author => .ok author
  | none => .error (.noAuthorNamed header.hash)

/-- Logs that a node adds after the one that names the author, for an author and a parent. -/
abbrev ExtraDigests := AuthorId → Hash → Digest

def authoringDigest (extra : ExtraDigests) (author : AuthorId) (parent : Hash) : Digest :=
  .ofAuthor author :: extra author parent

/-- Add the seal of the named author to a block that is about to be imported. -/
def attachSeal (keyring : Keyring) (request : ImportRequest) :
    Except ConsensusError ImportRequest := do
  let author ← namedAuthor request.header
  return request.addPostDigest (← sealHeader keyring request.header author)

end Authorship
