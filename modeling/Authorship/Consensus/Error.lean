/-
Module: Authorship.Consensus.Error
Purpose: Why a node did not author, verify or import a block, and the steps of a node that can fail
  for these reasons.
Main exports: ConsensusError, ConsensusError.message, Action
-/
import Authorship.Attempt
import Authorship.Block.Seal
import Authorship.Inherent
import Authorship.KeyStore
import Authorship.Validation

namespace Authorship

/-- Why a node did not author, verify or import a block. -/
inductive ConsensusError where
  | cannotSign (author : AuthorId) (reason : String)
  | keyring (error : KeyringError)
  | invalidSeal (hash : Hash) (error : SealError)
  /-- No log of the header with this hash names an author. -/
  | noAuthorNamed (hash : Hash)
  | noEligibleKey (slot : UInt32)
  | cannotAuthor (author : AuthorId) (slot : UInt32)
  | unknownParent (hash : Hash)
  | unknownBlock (hash : Hash)
  | api (error : ApiError)
  | inherent (error : InherentError)
  | proposer (reason : String)
  | importFailed (reason : String)
  /-- There was nothing to put into a block, and an empty one was not asked for. -/
  | emptyPool
deriving DecidableEq

def ConsensusError.message : ConsensusError → String
  | .cannotSign author reason => s!"cannot sign with {author}: {reason}"
  | .keyring error => s!"keystore: {error.message}"
  | .invalidSeal hash error => s!"invalid seal on {hash}: {error.message}"
  | .noAuthorNamed hash => s!"header {hash} has no nimbus pre-runtime digest"
  | .noEligibleKey slot => s!"no local key is eligible at slot {slot}"
  | .cannotAuthor author slot => s!"{author} cannot author at slot {slot}"
  | .unknownParent hash => s!"unknown parent {hash}"
  | .unknownBlock hash => s!"unknown block {hash}"
  | .api error => s!"runtime api: {error.message}"
  | .inherent error => s!"inherent data: {error.message}"
  | .proposer reason => s!"proposer: {reason}"
  | .importFailed reason => s!"block import: {reason}"
  | .emptyPool => "transaction pool is empty and empty blocks were not requested"

/-- A step that may change a node's state and may fail; what it changed before it failed stays. -/
abbrev Action (σ α : Type) := Attempt ConsensusError σ α

end Authorship
