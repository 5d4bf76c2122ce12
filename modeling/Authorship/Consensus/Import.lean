/-
Module: Authorship.Consensus.Import
Purpose: A block on its way into a chain. The header is the one that was signed; what consensus
  adds, such as the seal, waits beside it and is appended to form the header that is stored.
Main exports: BlockOrigin, ForkChoice, ImportRequest, ImportRequest.postHeader, ImportOutcome
-/
import Authorship.Block.Header

namespace Authorship

inductive BlockOrigin where
  | genesis
  | initialSync
  | broadcast
  /-- Authored by this node. -/
  | own
  | file
deriving DecidableEq, Repr

/-- When an imported block becomes the best one. -/
inductive ForkChoice where
  /-- When it is deeper than the best block so far. -/
  | longest
  /-- When the importer said so. -/
  | decided (becomesBest : Bool)
deriving DecidableEq, Repr

/-- A block on its way into a chain. -/
structure ImportRequest where
  origin : BlockOrigin
  header : Header
  body : Option (List Extrinsic) := none
  /-- Logs to append to the header. -/
  postDigests : Digest := []
  forkChoice : Option ForkChoice := none
  finalized : Bool := false
deriving DecidableEq

namespace ImportRequest

/-- The header that is stored. -/
def postHeader (request : ImportRequest) : Header :=
  { request.header with digest := request.header.digest ++ request.postDigests }

/-- The hash under which the block is stored. -/
def postHash (request : ImportRequest) : Hash :=
  request.postHeader.hash

/-- Append a log to those that wait. -/
def addPostDigest (request : ImportRequest) (item : DigestItem) : ImportRequest :=
  { request with postDigests := request.postDigests ++ [item] }

end ImportRequest

/-- What became of an import that did not fail. -/
inductive ImportOutcome where
  | imported (isNewBest : Bool)
  | alreadyInChain
deriving DecidableEq, Repr

end Authorship
