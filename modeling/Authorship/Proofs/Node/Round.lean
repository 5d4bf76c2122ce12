/-
Module: Authorship.Proofs.Node.Round
Purpose: What a round of authoring that ends in a block went through: the key that the runtime let
  author, the inherent data, the proposal, the seal and the import, each with the state in which the
  node was found.
Main exports: firstEligibleKey?_eq_some, Node.run_inherentData, ForkTree.run_localNode_proposer,
  OnDemand.createDigest_eq_ok, SlotWorker.Round, SlotWorker.exists_round, OnDemand.Engine.Round,
  OnDemand.Engine.exists_round
-/
import Authorship.Proofs.ForkTree.Growth
import Authorship.Proofs.Node.Sealing

namespace Authorship

variable {σ α β : Type}

/-! ## Outcomes of the parts -/

theorem firstEligibleKey?_eq_some {api : RuntimeApi} {keyring : Keyring} {parent : Header}
    {slot : UInt32} {key : AuthorId}
    (found : firstEligibleKey? api keyring parent slot = some key) :
    api parent key slot = .ok true := by
  have eligible := List.find?_some found
  split at eligible
  · next answer answered => rw [answered, eligible]
  · cases eligible

/-- Inherent data fail with the one who provides them, or as they are made. -/
theorem Node.run_inherentData {node : Node σ} {parent : Hash} {slot : UInt32} {state after : σ}
    {provided : Except ConsensusError InherentProvider}
    (provides : (node.inherents parent slot).run.run state = (provided, after)) :
    (node.inherentData parent slot).run.run state =
      ((do (← provided).create.mapError .inherent), after) := by
  cases provided with
  | error error => exact Attempt.run_bind_error provides
  | ok provider => exact Attempt.run_bind_eq provides

/-- The local node prepares to propose on the tree as it is, and proposes on the tree as it is
then. -/
theorem ForkTree.run_localNode_proposer (api : ForkTree → RuntimeApi) (inherents : InherentFactory)
    (tree : ForkTree) (parent : Header) :
    ((localNode api inherents).proposer parent).run.run tree =
      ((tree.proposer parent).map fun proposer _ digest _ limit => proposer.fill digest limit,
        tree) := by
  have looks := ForkTree.run_prepare tree parent
  cases prepared : tree.proposer parent with
  | error error => exact Attempt.run_bind_error (looks.trans (by rw [prepared]))
  | ok proposer => exact Attempt.run_bind_eq (looks.trans (by rw [prepared]))

/-- The logs of a block on command name the first key that may author at its slot. -/
theorem OnDemand.createDigest_eq_ok {api : RuntimeApi} {keyring : Keyring} {extra : ExtraDigests}
    {parent : Header} {inherents : InherentData} {digest : Digest}
    (made : createDigest api keyring extra parent inherents = .ok digest) :
    ∃ slot? author, inherents.slot = .ok slot? ∧
      firstEligibleKey? api keyring parent (slot?.getD (followingNumber parent.number)) =
        some author ∧
      digest = authoringDigest extra author parent.hash := by
  unfold createDigest at made
  cases read : inherents.slot with
  | error error =>
      rw [read] at made
      cases made
  | ok slot? =>
      have mapped : inherents.slot.mapError ConsensusError.inherent = .ok slot? := by
        rw [read]
        rfl
      simp only [mapped, bind, Except.bind] at made
      split at made
      · cases made
      · next author eligible =>
          cases made
          exact ⟨slot?, author, rfl, eligible, rfl⟩

/-! ## Authoring by slot -/

/-- The steps of the authoring of a slot's block. -/
structure SlotWorker.Round (worker : SlotWorker σ) (info : SlotInfo) (start final : σ)
    (block : Block) where
  key : AuthorId
  inherents : InherentData
  propose : Propose σ
  proposal : Block
  sealItem : DigestItem
  outcome : ImportOutcome
  filled : σ
  prepared : σ
  proposed : σ
  eligible : firstEligibleKey? (worker.node.api start) worker.keyring info.head
    info.slot.toUInt32 = some key
  fills : (worker.node.inherentData info.head.hash info.slot.toUInt32).run.run start =
    (.ok inherents, filled)
  prepares : (worker.node.proposer info.head).run.run filled = (.ok propose, prepared)
  proposes : (propose inherents (authoringDigest worker.extra key info.head.hash)
    worker.proposingTime info.blockSizeLimit).run.run prepared = (.ok proposal, proposed)
  seals : sealHeader worker.keyring proposal.header key = .ok sealItem
  imports : (worker.node.importBlock
    { origin := .own, header := proposal.header, body := some proposal.extrinsics,
      postDigests := [sealItem], forkChoice := some .longest }).run.run proposed =
    (.ok outcome, final)
  block_eq : block = { proposal with header := proposal.header.push sealItem }

theorem SlotWorker.exists_round {worker : SlotWorker σ} {info : SlotInfo} {start final : σ}
    {block : Block} (ran : (worker.author info).run.run start = (.ok block, final)) :
    Nonempty (worker.Round info start final block) := by
  obtain ⟨state, same, found, ran⟩ := Attempt.run_bind_ok ran
  cases found
  split at ran
  · next key eligible =>
      obtain ⟨inherents, filled, fills, ran⟩ := Attempt.run_bind_ok ran
      obtain ⟨propose, prepared, prepares, ran⟩ := Attempt.run_bind_ok ran
      obtain ⟨proposal, proposed, proposes, ran⟩ := Attempt.run_bind_ok ran
      obtain ⟨sealItem, unchanged, sealing, ran⟩ := Attempt.run_bind_ok ran
      obtain ⟨seals, rfl⟩ := Attempt.run_ofExcept_ok sealing
      obtain ⟨outcome, after, imports, ran⟩ := Attempt.run_bind_ok ran
      cases ran
      exact ⟨
        { key, inherents, propose, proposal, sealItem, outcome, filled, prepared, proposed,
          eligible, fills, prepares, proposes, seals, imports, block_eq := rfl }⟩
  · cases ran

namespace OnDemand.Engine

/-- The steps of the authoring of a block on command. -/
structure Round (engine : Engine σ) (createEmpty : Bool) (parent? : Option Hash)
    (start final : σ) (created : CreatedBlock) where
  parent : Header
  inherents : InherentData
  digest : Digest
  propose : Propose σ
  proposal : Block
  request : ImportRequest
  outcome : ImportOutcome
  found : σ
  filled : σ
  prepared : σ
  proposed : σ
  finds : (engine.parent parent?).run.run start = (.ok parent, found)
  fills : (engine.node.inherentData parent.hash (followingNumber parent.number)).run.run found =
    (.ok inherents, filled)
  creates : createDigest (engine.node.api filled) engine.keyring engine.extra parent inherents =
    .ok digest
  prepares : (engine.node.proposer parent).run.run filled = (.ok propose, prepared)
  proposes : (propose inherents digest proposingTime none).run.run prepared =
    (.ok proposal, proposed)
  filledOrAsked : (proposal.extrinsics.isEmpty && !createEmpty) = false
  seals : attachSeal engine.keyring
    { origin := .own, header := proposal.header, body := some proposal.extrinsics,
      forkChoice := some .longest } = .ok request
  imports : (engine.node.importBlock request).run.run proposed = (.ok outcome, final)
  created_eq : created = { hash := request.postHash, number := proposal.header.number, outcome }

theorem exists_round {engine : Engine σ} {createEmpty : Bool} {parent? : Option Hash}
    {start final : σ} {created : CreatedBlock}
    (ran : (engine.author createEmpty parent?).run.run start = (.ok created, final)) :
    Nonempty (engine.Round createEmpty parent? start final created) := by
  obtain ⟨parent, found, finds, ran⟩ := Attempt.run_bind_ok ran
  obtain ⟨inherents, filled, fills, ran⟩ := Attempt.run_bind_ok ran
  obtain ⟨state, same, looked, ran⟩ := Attempt.run_bind_ok ran
  cases looked
  obtain ⟨digest, unchanged, creating, ran⟩ := Attempt.run_bind_ok ran
  obtain ⟨creates, rfl⟩ := Attempt.run_ofExcept_ok creating
  obtain ⟨propose, prepared, prepares, ran⟩ := Attempt.run_bind_ok ran
  obtain ⟨proposal, proposed, proposes, ran⟩ := Attempt.run_bind_ok ran
  dsimp only at ran
  split at ran
  · obtain ⟨_, _, thrown, _⟩ := Attempt.run_bind_ok ran
    cases thrown
  · next filledOrAsked =>
      obtain ⟨request, same, sealing, ran⟩ := Attempt.run_bind_ok ran
      obtain ⟨seals, rfl⟩ := Attempt.run_ofExcept_ok sealing
      obtain ⟨outcome, after, imports, ran⟩ := Attempt.run_bind_ok ran
      cases ran
      exact ⟨
        { parent, inherents, digest, propose, proposal, request, outcome, found, filled, prepared,
          proposed, finds, fills, creates, prepares, proposes,
          filledOrAsked := Bool.eq_false_iff.mpr filledOrAsked, seals, imports,
          created_eq := rfl }⟩

end OnDemand.Engine

end Authorship
