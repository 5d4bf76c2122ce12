/-
Module: Authorship.Proofs.Node.Sealing
Purpose: What authors and verifiers hand to the importer of a node, whatever the node is. Three
  ways lead there: a block of others whose seal was checked, a block authored in a slot, and a block
  authored on command. On each of them the header to be stored carries a seal that checks.
Main exports: Node.Keeps, sealHeader_ok, attachSeal_eq_ok, Node.verifyAndImport_keeps,
  SlotWorker.author_keeps, OnDemand.Engine.author_keeps
-/
import Authorship.Consensus.OnDemand
import Authorship.Consensus.Verification
import Authorship.Proofs.Block.Seal
import Authorship.Proofs.KeyStore
import Authorship.Proofs.Node.Keeps
import Authorship.Slot.Worker

namespace Authorship

variable {σ : Type} {scheme : SignatureScheme} {invariant : σ → Prop}

/-- The steps of the node keep an invariant of its state; of importing this is asked for requests
whose header carries a seal that checks. A proposed block carries the logs it was asked for. -/
structure Node.Keeps (scheme : SignatureScheme) (invariant : σ → Prop) (node : Node σ) : Prop where
  bestHeader : node.bestHeader.Keeps invariant fun _ => True
  header? : ∀ hash, (node.header? hash).Keeps invariant fun _ => True
  inherents : ∀ parent slot, (node.inherents parent slot).Keeps invariant fun _ => True
  proposer : ∀ parent, (node.proposer parent).Keeps invariant fun propose =>
    ∀ data digest milliseconds limit,
      (propose data digest milliseconds limit).Keeps invariant fun block =>
        block.header.digest = digest
  importBlock : ∀ request, request.postHeader.Sealed scheme →
    (node.importBlock request).Keeps invariant fun _ => True

/-! ## Sealing with a keyring -/

variable {keyring : Keyring} {header : Header} {author : AuthorId} {item : DigestItem}

theorem sealHeader_ok (sound : keyring.Sound scheme)
    (made : sealHeader keyring header author = .ok item) :
    ∃ signature, item = .ofSignature signature ∧
      scheme.verify author header.hash.toBytes signature = true := by
  unfold sealHeader at made
  split at made
  · cases made
  · cases made
  · next signature signed =>
      cases made
      exact ⟨signature, rfl, sound _ _ _ _ signed⟩

/-- The seal that a key makes comes off again, for the author whom the header names. -/
theorem stripSeal_push_of_sealHeader (sound : keyring.Sound scheme)
    (names : header.author? = some author) (made : sealHeader keyring header author = .ok item) :
    (header.push item).stripSeal scheme = (.ok (author, item), header) := by
  obtain ⟨signature, rfl, verifies⟩ := sealHeader_ok sound made
  exact Header.stripSeal_push_ofSignature names verifies

/-- A header that names its author and has the author's seal on top carries a seal that checks. -/
theorem sealed_push_of_sealHeader (sound : keyring.Sound scheme)
    (names : header.author? = some author) (made : sealHeader keyring header author = .ok item) :
    (header.push item).Sealed scheme := by
  exact ⟨author, item, by rw [stripSeal_push_of_sealHeader sound names made]⟩

theorem namedAuthor_eq_ok_iff : namedAuthor header = .ok author ↔ header.author? = some author := by
  unfold namedAuthor
  cases header.author? with
  | none => simp
  | some found => simp

/-- The author named by the logs of a new block is the one whom the block is authored for, whatever
logs a node adds. -/
theorem author?_of_authoringDigest {extra : ExtraDigests} {parent : Hash}
    (carries : header.digest = authoringDigest extra author parent) :
    header.author? = some author := by
  rw [Header.author?, carries, authoringDigest, Digest.author?_ofAuthor_cons]

theorem postHeader_addPostDigest {request : ImportRequest} (bare : request.postDigests = [])
    (item : DigestItem) : (request.addPostDigest item).postHeader = request.header.push item := by
  simp [ImportRequest.postHeader, ImportRequest.addPostDigest, bare, Header.push]

theorem attachSeal_eq_ok {keyring : Keyring} {request finished : ImportRequest}
    (made : attachSeal keyring request = .ok finished) :
    ∃ author item, request.header.author? = some author ∧
      sealHeader keyring request.header author = .ok item ∧
      finished = request.addPostDigest item := by
  unfold attachSeal at made
  cases names : namedAuthor request.header with
  | error error =>
      rw [names] at made
      cases made
  | ok author =>
      rw [names] at made
      cases sealing : sealHeader keyring request.header author with
      | error error =>
          simp only [bind, Except.bind, sealing] at made
          cases made
      | ok item =>
          simp only [bind, Except.bind, sealing] at made
          cases made
          exact ⟨author, item, namedAuthor_eq_ok_iff.mp names, sealing, rfl⟩

/-- A request without waiting logs that gets the seal of the author whom its header names. -/
theorem sealed_of_attachSeal {request finished : ImportRequest} (sound : keyring.Sound scheme)
    (bare : request.postDigests = []) (made : attachSeal keyring request = .ok finished) :
    finished.postHeader.Sealed scheme := by
  obtain ⟨author, item, names, sealing, rfl⟩ := attachSeal_eq_ok made
  rw [postHeader_addPostDigest bare]
  exact sealed_push_of_sealHeader sound names sealing

/-! ## Blocks of others -/

namespace Node

variable {node : Node σ}

theorem inherentData_keeps (keeps : node.Keeps scheme invariant) (parent : Hash) (slot : UInt32) :
    (node.inherentData parent slot).Keeps invariant fun _ => True := by
  apply Action.Keeps.bind (keeps.inherents parent slot)
  intro provider _
  apply Action.Keeps.ofExcept
  intro data _
  trivial

/-- A request that is verified and has no logs waiting is to be stored with the header it came
with. -/
theorem verify_keeps (verifier : Verifier) (keeps : node.Keeps verifier.scheme invariant)
    (request : ImportRequest) (bare : request.postDigests = []) :
    (verifier.verify node request).Keeps invariant fun verified =>
      verified.postHeader.Sealed verifier.scheme := by
  unfold Verifier.verify
  split
  · exact Action.Keeps.throw _
  · next author sealItem header accepted =>
      have stillBare : { request with header }.postDigests = [] := bare
      have restored : ({ request with header }.addPostDigest sealItem).postHeader.Sealed
          verifier.scheme := by
        rw [postHeader_addPostDigest stillBare]
        exact Header.sealed_of_stripSeal accepted
      dsimp only
      split
      · apply Action.Keeps.bind (keeps.header? header.parentHash)
        intro parent? _
        apply Action.Keeps.bind Action.Keeps.get
        intro state _
        apply Action.Keeps.bind (Action.Keeps.ofExcept fun _ _ => trivial)
        intro _ _
        exact Action.Keeps.pure restored
      · exact Action.Keeps.pure restored

theorem verifyAndImport_keeps (verifier : Verifier) (keeps : node.Keeps verifier.scheme invariant)
    (origin : BlockOrigin) (block : Block) :
    (node.verifyAndImport verifier origin block).Keeps invariant fun _ => True := by
  apply Action.Keeps.bind (verify_keeps verifier keeps _ rfl)
  intro verified isSealed
  exact keeps.importBlock verified isSealed

/-- Blocks in a row keep what each of them keeps. -/
theorem verifyAndImportAll_preserves {verifier : Verifier} {origin : BlockOrigin}
    (one : ∀ block, (node.verifyAndImport verifier origin block).Keeps invariant fun _ => True)
    (blocks : List Block) :
    Preserves invariant (node.verifyAndImportAll verifier origin blocks) := by
  induction blocks with
  | nil => exact Preserves.pure _
  | cons block rest inductionHypothesis =>
      apply Preserves.bind (Preserves.run (one block))
      intro outcome
      cases outcome with
      | error error => exact Preserves.pure _
      | ok outcome =>
          apply Preserves.bind inductionHypothesis
          intro outcomes
          exact Preserves.pure _

end Node

/-! ## Blocks of this node -/

namespace SlotWorker

variable (worker : SlotWorker σ)

theorem author_keeps (keeps : worker.node.Keeps scheme invariant)
    (sound : worker.keyring.Sound scheme) (info : SlotInfo) :
    (worker.author info).Keeps invariant fun _ => True := by
  apply Action.Keeps.bind Action.Keeps.get
  intro state _
  split
  · next key eligible =>
      apply Action.Keeps.bind (Node.inherentData_keeps keeps _ _)
      intro inherents _
      apply Action.Keeps.bind (keeps.proposer info.head)
      intro propose proposes
      apply Action.Keeps.bind (proposes _ _ _ _)
      intro block carries
      -- Extra logs stand behind the one that names the key, so the key that signs is the key named.
      have named := author?_of_authoringDigest carries
      apply Action.Keeps.bind
        (Action.Keeps.ofExcept fun item made => sealed_push_of_sealHeader sound named made)
      intro sealItem isSealed
      refine Action.Keeps.bind (keeps.importBlock _ isSealed) ?_
      intro outcome _
      exact Action.Keeps.pure trivial
  · exact Action.Keeps.throw _

theorem onSlot_preserves (keeps : worker.node.Keeps scheme invariant)
    (sound : worker.keyring.Sound scheme) (info : SlotInfo) :
    Preserves invariant (worker.onSlot info) := by
  apply Preserves.bind (Preserves.run (worker.author_keeps keeps sound info))
  intro outcome
  exact Preserves.pure _

end SlotWorker

namespace OnDemand

variable (engine : Engine σ)

theorem Engine.parent_keeps (keeps : engine.node.Keeps scheme invariant) (parent? : Option Hash) :
    (engine.parent parent?).Keeps invariant fun _ => True := by
  cases parent? with
  | none => exact keeps.bestHeader
  | some hash =>
      apply Action.Keeps.bind (keeps.header? hash)
      intro found _
      cases found with
      | none => exact Action.Keeps.throw _
      | some header => exact Action.Keeps.pure trivial

theorem Engine.author_keeps (keeps : engine.node.Keeps scheme invariant)
    (sound : engine.keyring.Sound scheme) (createEmpty : Bool) (parent? : Option Hash) :
    (engine.author createEmpty parent?).Keeps invariant fun _ => True := by
  apply Action.Keeps.bind (engine.parent_keeps keeps parent?)
  intro parent _
  apply Action.Keeps.bind (Node.inherentData_keeps keeps _ _)
  intro inherents _
  apply Action.Keeps.bind Action.Keeps.get
  intro state _
  apply Action.Keeps.bind (Action.Keeps.ofExcept fun _ _ => trivial)
  intro digest _
  apply Action.Keeps.bind (keeps.proposer parent)
  intro propose proposes
  apply Action.Keeps.bind (proposes _ _ _ _)
  intro block _
  dsimp only
  split
  · apply Action.Keeps.bind (Action.Keeps.throw _)
    intro _ (impossible : False)
    exact impossible.elim
  · -- The seal is made by the author whom the logs of the proposal name, whoever that is.
    apply Action.Keeps.bind
      (Action.Keeps.ofExcept fun request made => sealed_of_attachSeal sound rfl made)
    intro request isSealed
    apply Action.Keeps.bind (keeps.importBlock request isSealed)
    intro outcome _
    exact Action.Keeps.pure trivial

end OnDemand

end Authorship
