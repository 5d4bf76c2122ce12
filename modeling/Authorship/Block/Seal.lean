/-
Module: Authorship.Block.Seal
Purpose: Sealing headers and taking seals off. The seal is the last log; it holds the signature, by
  the author whom an earlier log names, of the hash of the header without the seal. Nodes check it
  before they import a block, executors before they run one.
Main exports: SealError, Header.sealedBy, Header.stripSeal
-/
import Authorship.Block.Header

namespace Authorship

/-- What is wrong with the seal of a header. -/
inductive SealError where
  /-- There are no logs. -/
  | missingSeal
  /-- The last log is not a seal of this engine. -/
  | unsealed
  /-- No log before the seal names the author. -/
  | missingAuthor
  | invalidSignature (author : AuthorId)
deriving DecidableEq

def SealError.message : SealError → String
  | .missingSeal => "header has no digest items"
  | .unsealed => "last digest item is not a nimbus seal"
  | .missingAuthor => "no nimbus pre-runtime digest names the author"
  | .invalidSignature author => s!"seal signature does not match author {author}"

/-- The author and the seal of a header, given its last log and the header without it. -/
def checkSeal (scheme : SignatureScheme) (stripped : Header) (last : DigestItem) :
    Except SealError (AuthorId × DigestItem) := do
  let some signature := last.signature? | throw .unsealed
  let some author := stripped.author? | throw .missingAuthor
  if scheme.verify author stripped.hash.toBytes signature then
    return (author, last)
  else
    throw (.invalidSignature author)

namespace Header

/-- The header with a seal made by `seed` on top. -/
def sealedBy (scheme : SignatureScheme) (seed : Seed) (header : Header) : Header :=
  header.push (.ofSignature (scheme.sign seed header.hash.toBytes))

/-- Take the last log off and check that it seals the rest. The log is off whatever the check
says. -/
def stripSeal (scheme : SignatureScheme) (header : Header) :
    Except SealError (AuthorId × DigestItem) × Header :=
  match header.digest.getLast? with
  | none => (.error .missingSeal, header)
  | some last => (checkSeal scheme header.pop last, header.pop)

end Header

end Authorship
