/-
Module: Authorship.Proofs.Node.Judged
Purpose: The author of a block, asked about twice. Authoring on command asks the runtime at the slot
  in the inherent data, or else at the number after the parent's; a queue asks at the number in the
  header. As long as inherent data hold no other slot than the one that they are made for, both ask
  the same.
Main exports: Surroundings.Judges, Surroundings.HandsSlot, Call.made?, Call.Judged,
  Call.letIn_of_made?
-/
import Authorship.Proofs.ForkTree.Heights
import Authorship.Proofs.Inherent
import Authorship.Proofs.Node.Round
import Authorship.Proofs.Node.Traffic

namespace Authorship

variable {scheme : SignatureScheme} {eligible : AuthorId → UInt32 → Bool}

namespace Surroundings

/-! ## Who may author where -/

/-- On top of a block of the tree, those may author who are eligible at the slot. -/
def Judges (surroundings : Surroundings) (eligible : AuthorId → UInt32 → Bool) : Prop :=
  ∀ tree parent author slot, tree.contains parent.hash = true →
    surroundings.api tree parent author slot = .ok (eligible author slot)

/-- Inherent data hold no slot, or the one that they are made for. -/
def HandsSlot (surroundings : Surroundings) : Prop :=
  ∀ tree parent slot provider data slot?,
    surroundings.inherents tree parent slot = .ok provider → provider.create = .ok data →
      data.slot = .ok slot? → slot?.getD slot = slot

/-- The provider of the slot hands it on. -/
theorem slot_of_create_slot {number : UInt32} {data : InherentData}
    (created : (InherentProvider.slot number).create = .ok data) :
    data.slot = .ok (some number) := by
  cases created
  exact InherentData.slot_of_get?_encode (Assoc.get?_insert_self ..)

/-! ## Turns at the tree -/

section Turns

variable {surroundings : Surroundings} {turns after : Turns ForkTree} {parent : Header}

theorem shared_inherentData_ok {slot : UInt32} {hash : Hash} {data : InherentData}
    (ran : (surroundings.node.shared.inherentData hash slot).run.run turns = (.ok data, after)) :
    ∃ found provider, surroundings.inherents found hash slot = .ok provider ∧
      provider.create = .ok data := by
  obtain ⟨provider, middle, provides, ran⟩ := Attempt.run_bind_ok ran
  obtain ⟨found, _, _, _, provides⟩ := Action.run_inTurn_ok provides
  obtain ⟨tree, _, looked, provides⟩ := Attempt.run_bind_ok provides
  cases looked
  obtain ⟨provided, _⟩ := Attempt.run_ofExcept_ok provides
  obtain ⟨creates, _⟩ := Attempt.run_ofExcept_ok ran
  refine ⟨found, provider, provided, ?_⟩
  cases created : provider.create with
  | error error =>
      rw [created] at creates
      cases creates
  | ok written =>
      rw [created] at creates
      cases creates
      rfl

/-- Proposals are prepared in the turn in which the runtime answers, so that the runtime is asked
about a block that the tree stores. -/
theorem shared_prepare_ok {propose : Propose (Turns ForkTree)}
    (prepares : (surroundings.node.shared.proposer parent).run.run turns = (.ok propose, after)) :
    ∃ found, found.contains parent.hash = true ∧
      surroundings.node.shared.api turns = surroundings.api found := by
  obtain ⟨inner, _, prepares, _⟩ := Attempt.run_bind_ok prepares
  obtain ⟨found, _, ahead, _, prepares⟩ := Action.run_inTurn_ok prepares
  obtain ⟨proposer, prepared, _⟩ := proposer_ok prepares
  refine ⟨found, (ForkTree.proposer_ok prepared).1, ?_⟩
  simp only [Node.shared, ahead]
  rfl

/-- A block proposed in turns has the number after the parent's, and the logs asked for. -/
theorem shared_propose_ok {propose : Propose (Turns ForkTree)}
    (prepares : (surroundings.node.shared.proposer parent).run.run turns = (.ok propose, after))
    {data : InherentData} {digest : Digest} {milliseconds : UInt64} {limit : Option UInt64}
    {before final : Turns ForkTree} {block : Block}
    (proposes : (propose data digest milliseconds limit).run.run before = (.ok block, final)) :
    nextNumber? parent.number = some block.header.number ∧ block.header.digest = digest := by
  obtain ⟨inner, _, prepares, returned⟩ := Attempt.run_bind_ok prepares
  cases returned
  obtain ⟨found, _, _, _, prepares⟩ := Action.run_inTurn_ok prepares
  obtain ⟨now, _, _, _, proposes⟩ := Action.run_inTurn_ok proposes
  obtain ⟨proposer, prepared, goes⟩ := proposer_ok prepares
  rw [goes] at proposes
  obtain ⟨proposed, _⟩ := Prod.mk.inj proposes
  obtain ⟨_, _, follows⟩ := ForkTree.proposer_ok prepared
  rw [← follows]
  exact ⟨Proposer.nextNumber?_of_propose_ok proposed, (Proposer.propose_ok proposed).2.1⟩

/-- A block that was imported in a turn is stored when the turn is over. -/
theorem shared_importBlock_ok {request : ImportRequest} {isNewBest : Bool}
    (ran : (surroundings.node.shared.importBlock request).run.run turns =
      (.ok (.imported isNewBest), after)) :
    ∃ found left, after.done = turns.done ++ [(found, left)] ∧
      left.block? request.postHash = some request.block := by
  obtain ⟨found, left, _, done, ran⟩ := Action.run_inTurn_ok ran
  refine ⟨found, left, done, ?_⟩
  change (ForkTree.storeRequest request).run.run found = _ at ran
  rcases found.run_storeRequest_cases request with
    ⟨_, not, unchanged⟩ | ⟨_, _, attachable, _, _, attached⟩
  · rw [unchanged] at ran
    cases ran
    exact absurd rfl (not isNewBest)
  · rw [attached] at ran
    cases ran
    rw [ForkTree.block?_attach attachable]
    exact if_pos rfl

end Turns

/-! ## Blocks on command -/

/-- The engine that takes turns at the tree with others. -/
def sharedEngine (surroundings : Surroundings) (scheme : SignatureScheme)
    (keys : List (KeyType × Seed)) (extra : ExtraDigests) : OnDemand.Engine (Turns ForkTree) :=
  { node := surroundings.node.shared, keyring := (KeyStore.addAll scheme {} keys).keyring scheme,
    extra }

section Round

variable {surroundings : Surroundings} {keys : List (KeyType × Seed)} {extra : ExtraDigests}
  {createEmpty : Bool} {parent? : Option Hash} {before : List ForkTree} {final : Turns ForkTree}
  {created : OnDemand.CreatedBlock}

/-- A block on command passes for an author who is eligible at its number. -/
theorem letIn_of_round (sound : scheme.Sound) (judges : surroundings.Judges eligible)
    (hands : surroundings.HandsSlot)
    (round : (surroundings.sharedEngine scheme keys extra).Round createEmpty parent?
      { ahead := before } final created) (parent : Header) :
    ForkTree.LetIn scheme (fun _ author slot => eligible author slot = true) parent
      round.request.block.header := by
  obtain ⟨slot?, author, read, found, digest⟩ := OnDemand.createDigest_eq_ok round.creates
  obtain ⟨now, known, api⟩ := shared_prepare_ok round.prepares
  obtain ⟨follows, carries⟩ := shared_propose_ok round.prepares round.proposes
  obtain ⟨seen, provider, provided, filled⟩ := shared_inherentData_ok round.fills
  have slot : slot?.getD (OnDemand.followingNumber round.parent.number) =
      round.proposal.header.number := by
    rw [hands seen _ _ provider round.inherents slot? provided filled read,
      OnDemand.followingNumber, follows]
    rfl
  have may : eligible author round.proposal.header.number = true := by
    have answered := firstEligibleKey?_eq_some found
    rw [slot] at answered
    change surroundings.node.shared.api round.filled _ _ _ = _ at answered
    rw [api, judges now _ _ _ known] at answered
    exact Except.ok.inj answered
  have names := author?_of_authoringDigest (carries.trans digest)
  obtain ⟨signer, item, signs, seals, finished⟩ := attachSeal_eq_ok round.seals
  obtain rfl : author = signer := Option.some.inj (names.symm.trans signs)
  have signsSoundly := KeyStore.sound_keyring sound (KeyStore.faithful_addAll scheme keys)
  have strips := stripSeal_push_of_sealHeader signsSoundly names seals
  have stored : round.request.block.header = round.proposal.header.push item := by
    rw [finished, ImportRequest.block, postHeader_addPostDigest rfl]
  rw [stored]
  exact ⟨author, item, by rw [strips], may⟩

end Round

end Surroundings

namespace Call

/-- The block that the call authored on command and had imported, when it found the tree in these
states: the one under the answered hash in the tree as the call left it. -/
def made? (scheme : SignatureScheme) : Call → List ForkTree → Option Block
  | .onDemand surroundings keys extra createEmpty parent?, found =>
    match ((surroundings.sharedEngine scheme keys extra).author createEmpty parent?).run.run
        { ahead := found } with
    | (.ok { hash, number := _, outcome := .imported _ }, after) =>
      after.done.getLast?.bind fun (_, left) => left.block? hash
    | _ => none
  | .receive .., _ | .receiveAll .., _ | .onSlot .., _ => none

/-- The call asks a runtime that goes by who is eligible at a slot, and its inherent data hold no
other slot than the one that they are made for. -/
def Judged (eligible : AuthorId → UInt32 → Bool) : Call → Prop
  | .onDemand surroundings _ _ _ _ => surroundings.Judges eligible ∧ surroundings.HandsSlot
  | .receive .. | .receiveAll .. | .onSlot .. => False

theorem made?_onDemand_eq_some {surroundings : Surroundings} {keys : List (KeyType × Seed)}
    {extra : ExtraDigests} {createEmpty : Bool} {parent? : Option Hash} {found : List ForkTree}
    {block : Block}
    (made : (onDemand surroundings keys extra createEmpty parent?).made? scheme found =
      some block) :
    ∃ created final, ∃ round : (surroundings.sharedEngine scheme keys extra).Round createEmpty
      parent? { ahead := found } final created, round.request.block = block := by
  rw [made?] at made
  split at made
  · next hash number isNewBest after ran =>
      obtain ⟨round⟩ := OnDemand.Engine.exists_round ran
      refine ⟨_, after, round, ?_⟩
      have imports := round.imports
      obtain ⟨sameHash, _, sameOutcome⟩ := OnDemand.CreatedBlock.mk.inj round.created_eq
      rw [← sameOutcome] at imports
      obtain ⟨now, left, done, stored⟩ := Surroundings.shared_importBlock_ok imports
      rw [done, List.getLast?_concat, sameHash] at made
      exact Option.some.inj (stored.symm.trans made)
  · cases made

theorem letIn_of_made? (sound : scheme.Sound) {call : Call} {before : List ForkTree}
    {block : Block} (made : call.made? scheme before = some block) (judged : call.Judged eligible)
    (parent : Header) :
    ForkTree.LetIn scheme (fun _ author slot => eligible author slot = true) parent
      block.header := by
  cases call with
  | onDemand surroundings keys extra createEmpty parent? =>
      obtain ⟨judges, hands⟩ := judged
      obtain ⟨created, final, round, rfl⟩ := made?_onDemand_eq_some made
      exact Surroundings.letIn_of_round sound judges hands round parent
  | receive | receiveAll | onSlot => exact judged.elim

end Call

end Authorship
