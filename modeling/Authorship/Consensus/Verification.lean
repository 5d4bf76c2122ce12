/-
Module: Authorship.Consensus.Verification
Purpose: Blocks of others. A verifier takes the seal off a header, checks it, and moves it to the
  logs that wait; it may also ask the runtime, at the parent, whether the author may author, the
  number of the block being the slot. Blocks that pass go on to the importer, one after the other
  up to the first that fails.
Main exports: Verifier, Verifier.verify, Node.verifyAndImport, Node.verifyAndImportAll
-/
import Authorship.Consensus.Node

namespace Authorship

/-- What blocks of others are checked with. -/
structure Verifier where
  scheme : SignatureScheme
  /-- Ask the runtime whether the author may author. -/
  checksEligibility : Bool := false

/-- Ask the runtime whether the author of a header may author it. -/
def checkEligible (api : RuntimeApi) (parent? : Option Header) (header : Header)
    (author : AuthorId) : Except ConsensusError Unit :=
  match parent? with
  | none => .error (.unknownParent header.parentHash)
  | some parent =>
    match api parent author header.number with
    | .error error => .error (.api error)
    | .ok true => .ok ()
    | .ok false => .error (.cannotAuthor author header.number)

/-- Check the seal of a block and move it to the logs that wait. -/
def Verifier.verify {σ : Type} (verifier : Verifier) (node : Node σ) (request : ImportRequest) :
    Action σ ImportRequest := do
  match request.header.stripSeal verifier.scheme with
  | (.error error, _) => throw (.invalidSeal request.header.hash error)
  | (.ok (author, sealItem), header) =>
    if verifier.checksEligibility then
      let parent? ← node.header? header.parentHash
      .ofExcept (checkEligible (node.api (← get)) parent? header author)
    return { request with header }.addPostDigest sealItem

namespace Node

variable {σ : Type}

def verifyAndImport (node : Node σ) (verifier : Verifier) (origin : BlockOrigin) (block : Block) :
    Action σ ImportOutcome := do
  let request ←
    verifier.verify node { origin, header := block.header, body := some block.extrinsics }
  node.importBlock request

/-- Verify and import blocks in order, up to the first that fails. Gives the outcome of each block
that was tried. -/
def verifyAndImportAll (node : Node σ) (verifier : Verifier) (origin : BlockOrigin) :
    List Block → StateM σ (List (Except ConsensusError ImportOutcome))
  | [] => return []
  | block :: rest => do
    match ← (node.verifyAndImport verifier origin block).run with
    | .error error => return [.error error]
    | .ok outcome => return .ok outcome :: (← node.verifyAndImportAll verifier origin rest)

end Node

end Authorship
