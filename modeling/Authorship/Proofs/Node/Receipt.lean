/-
Module: Authorship.Proofs.Node.Receipt
Purpose: What becomes of one block of others at a node whose state is a tree. It is refused by the
  verifier, or for a body that its header does not commit to, or for want of its parent; or it is
  stored already; or it is stored just as it came. In all cases but the last the tree stays as it
  was.
Main exports: ForkTree.Receipt, ForkTree.Receipt.run_verifyAndImport, ForkTree.exists_receipt,
  ForkTree.verifyAndImport_receipt
-/
import Authorship.Proofs.ForkTree.Longest
import Authorship.Proofs.Node.Vetting

namespace Authorship

namespace ForkTree

/-- What becomes of a block of others, with the tree after it. -/
inductive Receipt (api : RuntimeApi) (verifier : Verifier) (tree : ForkTree) (block : Block) :
    Except ConsensusError ImportOutcome × ForkTree → Prop where
  | refused {error : ConsensusError}
      (vetting : Vetting api (tree.header? block.header.parentHash) verifier block.header
        (.error error)) :
      Receipt api verifier tree block (.error error, tree)
  | rootMismatch {item : DigestItem}
      (vetting : Vetting api (tree.header? block.header.parentHash) verifier block.header
        (.ok item))
      (mismatch : block.header.extrinsicsRoot ≠ extrinsicsRoot block.extrinsics) :
      Receipt api verifier tree block
        (.error (.importFailed "extrinsics root mismatch"), tree)
  | known {item : DigestItem}
      (vetting : Vetting api (tree.header? block.header.parentHash) verifier block.header
        (.ok item))
      (commits : block.header.extrinsicsRoot = extrinsicsRoot block.extrinsics)
      (stored : tree.contains block.hash = true) :
      Receipt api verifier tree block (.ok .alreadyInChain, tree)
  | orphan {item : DigestItem}
      (vetting : Vetting api (tree.header? block.header.parentHash) verifier block.header
        (.ok item))
      (commits : block.header.extrinsicsRoot = extrinsicsRoot block.extrinsics)
      (fresh : tree.contains block.hash = false)
      (orphan : tree.contains block.header.parentHash = false) :
      Receipt api verifier tree block (.error (.unknownParent block.header.parentHash), tree)
  | imported {item : DigestItem} {parent : Entry}
      (vetting : Vetting api (tree.header? block.header.parentHash) verifier block.header
        (.ok item))
      (commits : block.header.extrinsicsRoot = extrinsicsRoot block.extrinsics)
      (attachable : tree.Attachable block parent) :
      Receipt api verifier tree block
        (.ok (.imported (tree.becomesBest (parent.depth + 1) .longest)),
          tree.attach block.hash block parent (tree.becomesBest (parent.depth + 1) .longest))

variable {api : ForkTree → RuntimeApi} {inherents : InherentFactory} {verifier : Verifier}
  {origin : BlockOrigin} {tree : ForkTree} {block : Block}
  {result : Except ConsensusError ImportOutcome × ForkTree}

/-! ## One receipt for each block -/

theorem importBlock_received {item : DigestItem}
    (vetting : Vetting (api tree) (tree.header? block.header.parentHash) verifier block.header
      (.ok item)) :
    tree.importBlock (block.received origin item) =
      if block.header.extrinsicsRoot = extrinsicsRoot block.extrinsics then
        tree.insert block .longest
      else .error (.importFailed "extrinsics root mismatch") := by
  have same := vetting.block_received origin
  rcases tree.importBlock_cases (block.received origin item) with
    ⟨mismatch, refused⟩ | ⟨commits, inserts⟩
  · change (block.received origin item).block.header.extrinsicsRoot ≠
      extrinsicsRoot (block.received origin item).block.extrinsics at mismatch
    rw [same] at mismatch
    rw [refused, if_neg mismatch]
  · change (block.received origin item).block.header.extrinsicsRoot =
      extrinsicsRoot (block.received origin item).block.extrinsics at commits
    rw [same] at commits
    rw [inserts, same, if_pos commits]
    rfl

theorem run_verifyAndImport_of_vetted {item : DigestItem}
    (vetting : Vetting (api tree) (tree.header? block.header.parentHash) verifier block.header
      (.ok item)) :
    ((localNode api inherents).verifyAndImport verifier origin block).run.run tree =
      (Attempt.advance fun tree : ForkTree =>
        if block.header.extrinsicsRoot = extrinsicsRoot block.extrinsics then
          tree.insert block .longest
        else .error (.importFailed "extrinsics root mismatch")).run.run tree := by
  rw [vetting.run_verifyAndImport_ok (localNode api inherents) (fun _ => rfl) origin]
  change (storeRequest _).run.run tree = _
  rw [storeRequest_eq]
  exact Attempt.run_advance_congr (importBlock_received vetting)

theorem Receipt.run_verifyAndImport (receipt : Receipt (api tree) verifier tree block result)
    (inherents : InherentFactory) (origin : BlockOrigin) :
    ((localNode api inherents).verifyAndImport verifier origin block).run.run tree = result := by
  cases receipt with
  | refused vetting =>
      exact vetting.run_verifyAndImport_error (localNode api inherents) (fun _ => rfl) origin
  | rootMismatch vetting mismatch =>
      rw [run_verifyAndImport_of_vetted vetting]
      exact Attempt.run_advance_error (if_neg mismatch)
  | known vetting commits stored =>
      rw [run_verifyAndImport_of_vetted vetting]
      exact Attempt.run_advance_ok ((if_pos commits).trans (insert_of_contains _ stored))
  | orphan vetting commits fresh orphan =>
      rw [run_verifyAndImport_of_vetted vetting]
      exact Attempt.run_advance_error ((if_pos commits).trans (insert_of_orphan _ fresh orphan))
  | imported vetting commits attachable =>
      rw [run_verifyAndImport_of_vetted vetting]
      exact Attempt.run_advance_ok ((if_pos commits).trans (attachable.insert_eq _))

/-- Every block meets with a receipt. -/
theorem exists_receipt (api : RuntimeApi) (verifier : Verifier) (tree : ForkTree) (block : Block) :
    ∃ result, Receipt api verifier tree block result := by
  obtain ⟨vetted, vetting⟩ :=
    exists_vetting api (tree.header? block.header.parentHash) verifier block.header
  cases vetted with
  | error error => exact ⟨_, .refused vetting⟩
  | ok item =>
      by_cases commits : block.header.extrinsicsRoot = extrinsicsRoot block.extrinsics
      case neg => exact ⟨_, .rootMismatch vetting commits⟩
      case pos =>
        rcases tree.insert_cases block .longest with
          ⟨stored, _⟩ | ⟨fresh, orphan, _⟩ | ⟨parent, _, attachable, _, _⟩
        · exact ⟨_, .known vetting commits stored⟩
        · exact ⟨_, .orphan vetting commits fresh orphan⟩
        · exact ⟨_, .imported vetting commits attachable⟩

theorem run_verifyAndImport_eq_iff :
    ((localNode api inherents).verifyAndImport verifier origin block).run.run tree = result ↔
      Receipt (api tree) verifier tree block result := by
  constructor
  · rintro rfl
    obtain ⟨result, receipt⟩ := exists_receipt (api tree) verifier tree block
    rwa [receipt.run_verifyAndImport]
  · exact fun receipt => receipt.run_verifyAndImport inherents origin

/-! ## As it came, or not at all -/

theorem Receipt.effect {outcome : Except ConsensusError ImportOutcome} {next : ForkTree}
    {api : RuntimeApi} (receipt : Receipt api verifier tree block (outcome, next)) :
    (∃ isNewBest, outcome = .ok (.imported isNewBest) ∧ tree.Adds block isNewBest next ∧
        next.size = tree.size + 1) ∨
      (∀ isNewBest, outcome ≠ .ok (.imported isNewBest)) ∧ next = tree := by
  cases receipt with
  | refused => exact .inr ⟨by simp, rfl⟩
  | rootMismatch => exact .inr ⟨by simp, rfl⟩
  | known => exact .inr ⟨by simp, rfl⟩
  | orphan => exact .inr ⟨by simp, rfl⟩
  | imported _ _ attachable =>
      exact .inl ⟨_, rfl, attachable.adds _, size_attach attachable _⟩

theorem Receipt.error_invalidSeal_iff {outcome : Except ConsensusError ImportOutcome}
    {next : ForkTree} {api : RuntimeApi}
    (receipt : Receipt api verifier tree block (outcome, next)) (error : SealError) :
    outcome = .error (.invalidSeal block.hash error) ↔
      (block.header.stripSeal verifier.scheme).1 = .error error := by
  have passes {item : DigestItem}
      (vetting : Vetting api (tree.header? block.header.parentHash) verifier block.header
        (.ok item)) :
      (block.header.stripSeal verifier.scheme).1 ≠ .error error := by
    cases vetting with
    | passed accepted => simp [accepted]
  cases receipt with
  | refused vetting =>
      have reports := vetting.error_invalidSeal_iff block.hash error
      rw [Except.error.injEq] at reports ⊢
      rw [reports]
      exact and_iff_right rfl
  | rootMismatch vetting => simp [passes vetting]
  | known vetting => simp [passes vetting]
  | orphan vetting => simp [passes vetting]
  | imported vetting => simp [passes vetting]

/-- What becomes of a block at a queue over a tree whose clients look headers up in it, whatever the
runtime answers. Each block meets with one receipt, and there is one for every block. The block that
was imported is found just as it came, seal and extrinsics included, and is the only one that was
added; otherwise the tree is the same. The seal is what the queue looks at first. What a verifier
takes off a header is put back when the header is stored. -/
theorem verifyAndImport_receipt (api : ForkTree → RuntimeApi) (inherents : InherentFactory)
    (verifier : Verifier) (origin : BlockOrigin) (tree : ForkTree) (block : Block) :
    (∀ result,
      ((localNode api inherents).verifyAndImport verifier origin block).run.run tree = result ↔
        Receipt (api tree) verifier tree block result) ∧
    (∀ outcome next,
      ((localNode api inherents).verifyAndImport verifier origin block).run.run tree =
          (outcome, next) →
        (∀ isNewBest, outcome = .ok (.imported isNewBest) →
          next.block? block.hash = some block ∧ tree.Adds block isNewBest next ∧
            next.size = tree.size + 1) ∧
        ((∀ isNewBest, outcome ≠ .ok (.imported isNewBest)) → next = tree) ∧
        ∀ error, outcome = .error (.invalidSeal block.hash error) ↔
          (block.header.stripSeal verifier.scheme).1 = .error error) ∧
    ∀ {σ : Type} (node : Node σ) (request verified : ImportRequest) (state after : σ),
      request.postDigests = [] →
      (verifier.verify node request).run.run state = (.ok verified, after) →
        verified.postHeader = request.header := by
  refine ⟨fun _ => run_verifyAndImport_eq_iff, ?_, ?_⟩
  · intro outcome next ran
    have receipt := run_verifyAndImport_eq_iff.mp ran
    refine ⟨?_, ?_, receipt.error_invalidSeal_iff⟩
    · rintro isNewBest rfl
      rcases receipt.effect with ⟨_, same, adds, size⟩ | ⟨impossible, _⟩
      · cases same
        exact ⟨by rw [adds.block?, if_pos rfl], adds, size⟩
      · exact absurd rfl (impossible isNewBest)
    · intro notImported
      rcases receipt.effect with ⟨isNewBest, same, _⟩ | ⟨_, unchanged⟩
      · exact absurd same (notImported isNewBest)
      · exact unchanged
  · intro σ node request verified state after bare ran
    exact Verifier.postHeader_of_verify bare ran

private def senderSeed : Seed := ⟨FixedBytes.replicate 32 5⟩

private def sentHeader : Header where
  parentHash := ({} : Header).hash
  number := 1
  extrinsicsRoot := extrinsicsRoot [[1], [2]]
  digest := [.ofAuthor (ed25519.publicKey senderSeed)]

private def sentBlock : Block where
  header := sentHeader.push (.ofSignature (ed25519.sign senderSeed sentHeader.hash.toBytes))
  extrinsics := [[1], [2]]

/-- The sealed header with one of the extrinsics. -/
private def shortenedBlock : Block := { sentBlock with extrinsics := [[1]] }

private theorem sentBlock_vetting :
    Vetting (fun _ _ _ => .ok true) (some {}) { scheme := ed25519, checksEligibility := true }
      sentBlock.header
      (.ok (.ofSignature (ed25519.sign senderSeed sentHeader.hash.toBytes))) := by
  have verifies : ed25519.verify (ed25519.publicKey senderSeed) sentHeader.hash.toBytes
      (ed25519.sign senderSeed sentHeader.hash.toBytes) = true := by
    decide +kernel
  have names : sentHeader.author? = some (ed25519.publicKey senderSeed) :=
    Digest.author?_ofAuthor_cons _ []
  have accepted := congrArg Prod.fst (Header.stripSeal_push_ofSignature names verifies)
  exact .passed accepted fun _ => ⟨{}, rfl, rfl⟩

/-- Stored as it was sent; with an extrinsic less it is refused. -/
theorem verifyAndImport_receipt_sentBlock :
    (∃ next, ((localNode (fun _ _ _ _ => .ok true) fun _ _ => .ok .nothing).verifyAndImport
        { scheme := ed25519, checksEligibility := true } .broadcast sentBlock).run.run
          (ofGenesis {}) = (.ok (.imported true), next) ∧
      next.block? sentBlock.hash = some sentBlock ∧ next.size = 2) ∧
    ((localNode (fun _ _ _ _ => .ok true) fun _ _ => .ok .nothing).verifyAndImport
        { scheme := ed25519, checksEligibility := true } .broadcast shortenedBlock).run.run
          (ofGenesis {}) =
      (.error (.importFailed "extrinsics root mismatch"), ofGenesis {}) := by
  have parent : (ofGenesis {}).header? ({} : Header).hash = some {} := by
    simp [header?, block?_ofGenesis]
  have fresh : (ofGenesis {}).blocks.get? sentBlock.hash = none := by decide +kernel
  have stored : (ofGenesis {}).blocks.get? sentBlock.header.parentHash =
      some { block := {}, depth := 0 } := by
    simp [get?_ofGenesis, sentBlock, sentHeader, Header.push]
  have deeper : (ofGenesis {}).becomesBest (0 + 1) .longest = true := by decide +kernel
  have commits : sentBlock.header.extrinsicsRoot = extrinsicsRoot sentBlock.extrinsics := rfl
  have passes := sentBlock_vetting
  rw [← parent] at passes
  constructor
  · obtain ⟨receipts, effects, _⟩ := verifyAndImport_receipt (fun _ _ _ _ => .ok true)
      (fun _ _ => .ok .nothing) { scheme := ed25519, checksEligibility := true } .broadcast
      (ofGenesis {}) sentBlock
    have ran := (receipts _).mpr (.imported passes commits ⟨fresh, stored⟩)
    rw [deeper] at ran
    obtain ⟨found, _, size⟩ := (effects _ _ ran).1 _ rfl
    exact ⟨_, ran, found, size⟩
  · obtain ⟨receipts, _⟩ := verifyAndImport_receipt (fun _ _ _ _ => .ok true)
      (fun _ _ => .ok .nothing) { scheme := ed25519, checksEligibility := true } .broadcast
      (ofGenesis {}) shortenedBlock
    refine (receipts _).mpr (.rootMismatch passes ?_)
    decide +kernel

end ForkTree

end Authorship
