/-
Module: Authorship.Proofs.Node.Executable
Purpose: What a node authors, the runtime executes. The node finds the author of a block by asking
  the runtime, names the author in the first log and signs what it proposed; the runtime takes the
  seal off, reads the author back from the logs and asks the same filter at the same slot. Whatever
  the keys, the extra logs, the inherent data and the state of the node are, both agree.
Main exports: Validation.Executes, Node.CarriesLogs, SlotWorker.Round.executes,
  OnDemand.Engine.Round.executes, OnDemand.Engine.Round.seen_eq, Validation.executes_authored
-/
import Authorship.Consensus.Observed
import Authorship.Proofs.Execution
import Authorship.Proofs.Node.Round
import Authorship.Proofs.Node.Traffic

namespace Authorship

variable {σ α : Type} {scheme : SignatureScheme} {rules : Validation.Rules α}

/-! ## Blocks that execute at a slot -/

/-- The block carries a seal that checks, and whatever was executed before, it executes at the slot
and has the account of the author whom the seal checks for noted. -/
def Validation.Executes (scheme : SignatureScheme) (rules : Rules α) (slot : UInt32)
    (block : Block) : Prop :=
  ∃ author item account, (block.header.stripSeal scheme).1 = .ok (author, item) ∧
    rules.lookup author = some account ∧
    ∀ ledger, executeSealed scheme (executiveAt rules slot) block ledger =
      (.ok (), { noted := ledger.noted ++ [account] })

/-- A header that names an author who may author, sealed with the author's key. -/
theorem Validation.executes_of_sealHeader {keyring : Keyring} {header : Header} {author : AuthorId}
    {item : DigestItem} {slot : UInt32} (sound : keyring.Sound scheme)
    (names : header.author? = some author) (may : canAuthor rules author slot = true)
    (made : sealHeader keyring header author = .ok item) (extrinsics : List Extrinsic) :
    Executes scheme rules slot { header := header.push item, extrinsics } := by
  have strips := stripSeal_push_of_sealHeader sound names made
  rcases executiveAt_cases { header, extrinsics } names with
    ⟨account, known, _, executed⟩ | ⟨refused, _⟩
  · refine ⟨author, item, account, by rw [strips], known, ?_⟩
    intro ledger
    rw [executeSealed_of_ok strips, executed]
    rfl
  · rw [may] at refused
    cases refused

/-! ## Proposals with the logs asked for -/

/-- A block that the node proposes carries the logs that it was asked to carry. -/
def Node.CarriesLogs (node : Node σ) : Prop :=
  ∀ parent propose start prepared,
    (node.proposer parent).run.run start = (.ok propose, prepared) →
    ∀ data digest milliseconds limit before block after,
      (propose data digest milliseconds limit).run.run before = (.ok block, after) →
      block.header.digest = digest

theorem Surroundings.carriesLogs (surroundings : Surroundings) :
    surroundings.node.CarriesLogs := by
  intro parent propose start prepared prepares data digest milliseconds limit before block after
    proposes
  obtain ⟨proposer, _, goes⟩ := proposer_ok prepares
  rw [goes] at proposes
  obtain ⟨proposed, _⟩ := Prod.mk.inj proposes
  exact (Proposer.propose_ok proposed).2.1

theorem Node.CarriesLogs.observed {node : Node σ} (carries : node.CarriesLogs) :
    node.observed.CarriesLogs := by
  rintro parent propose ⟨start, _⟩ prepared prepares data digest milliseconds limit ⟨before, _⟩
    block after proposes
  obtain ⟨inner, _, innerPrepares, prepares⟩ := Attempt.run_bind_ok prepares
  cases prepares
  obtain ⟨innerPrepared, _⟩ := Prod.mk.inj innerPrepares
  obtain ⟨innerProposed, _⟩ := Prod.mk.inj proposes
  exact carries parent inner start _ (Prod.ext innerPrepared rfl) data digest milliseconds limit
    before block _ (Prod.ext innerProposed rfl)

/-! ## What is remembered of a step -/

namespace Node

variable {step : Action σ α} {start final : σ × List Request} {value : α}

theorem seen_of_unobserved (ran : (unobserved step).run.run start = (.ok value, final)) :
    final.2 = start.2 :=
  congrArg (fun result => result.2.2) ran.symm

theorem seen_of_recorded {request : Request}
    (ran : (recorded request step).run.run start = (.ok value, final)) :
    final.2 = start.2 ++ [request] :=
  congrArg (fun result => result.2.2) ran.symm

end Node

/-! ## Rounds of authoring -/

/-- The key that the runtime let author is the one that is named and the one that signs. -/
theorem SlotWorker.Round.executes {worker : SlotWorker σ} {info : SlotInfo} {start final : σ}
    {block : Block} (round : worker.Round info start final block)
    (carries : worker.node.CarriesLogs) (sound : worker.keyring.Sound scheme)
    (asks : ∀ state, worker.node.api state = Validation.api rules) :
    Validation.Executes scheme rules info.slot.toUInt32 block := by
  have eligible := firstEligibleKey?_eq_some round.eligible
  rw [asks, Validation.api_eq_ok_true_iff] at eligible
  have names := author?_of_authoringDigest
    (carries _ _ _ _ round.prepares _ _ _ _ _ _ _ round.proposes)
  rw [round.block_eq]
  exact Validation.executes_of_sealHeader sound names eligible round.seals _

theorem SlotWorker.author_of_onSlot {worker : SlotWorker σ} {info : SlotInfo} {start final : σ}
    {block : Block} (ran : (worker.onSlot info).run start = (some block, final)) :
    (worker.author info).run.run start = (.ok block, final) := by
  rw [onSlot, StateT.run_bind] at ran
  cases authored : (worker.author info).run.run start with
  | mk outcome after =>
      rw [authored] at ran
      obtain ⟨same, rfl⟩ := Prod.mk.inj ran
      cases outcome with
      | error error => cases same
      | ok found =>
          cases same
          rfl

namespace OnDemand.Engine

variable {engine : Engine σ} {createEmpty : Bool} {parent? : Option Hash} {start final : σ}
  {created : CreatedBlock}

/-- The slot at which the key was asked for is the one in the inherent data, or else the number that
follows the parent's. -/
theorem Round.executes (round : engine.Round createEmpty parent? start final created)
    (carries : engine.node.CarriesLogs) (sound : engine.keyring.Sound scheme)
    (asks : ∀ state, engine.node.api state = Validation.api rules) :
    ∃ slot?, round.inherents.slot = .ok slot? ∧
      Validation.Executes scheme rules (slot?.getD (followingNumber round.parent.number))
        round.request.block := by
  obtain ⟨slot?, author, read, eligible, named⟩ := createDigest_eq_ok round.creates
  have may := firstEligibleKey?_eq_some eligible
  rw [asks, Validation.api_eq_ok_true_iff] at may
  have names := author?_of_authoringDigest
    ((carries _ _ _ _ round.prepares _ _ _ _ _ _ _ round.proposes).trans named)
  obtain ⟨signer, item, signs, seals, finished⟩ := attachSeal_eq_ok round.seals
  obtain rfl : author = signer := Option.some.inj (names.symm.trans signs)
  have stored : round.request.block =
      { header := round.proposal.header.push item, extrinsics := round.proposal.extrinsics } := by
    rw [finished, ImportRequest.block, postHeader_addPostDigest rfl]
    rfl
  refine ⟨slot?, read, ?_⟩
  rw [stored]
  exact Validation.executes_of_sealHeader sound names may seals _

/-- The engine at a node that remembers what is asked of it. -/
def observed (engine : Engine σ) : Engine (σ × List Node.Request) :=
  { engine with node := engine.node.observed }

theorem parent_observed_seen {start final : σ × List Node.Request} {parent : Header}
    (ran : (engine.observed.parent parent?).run.run start = (.ok parent, final)) :
    final.2 = start.2 := by
  cases parent? with
  | none => exact Node.seen_of_unobserved ran
  | some hash =>
      obtain ⟨found, looked, looks, ran⟩ := Attempt.run_bind_ok ran
      cases found with
      | none => cases ran
      | some header =>
          cases ran
          exact Node.seen_of_unobserved looks

/-- In a round, inherent data for a child of the parent are asked for, then a proposal with these
data, then the import of the block with the hash that is answered. -/
theorem Round.seen_eq {start : σ} {final : σ × List Node.Request}
    (round : engine.observed.Round createEmpty parent? (start, []) final created) :
    ∃ digest, final.2 =
      [.inherents round.parent.hash (followingNumber round.parent.number),
        .propose round.inherents digest proposingTime none,
        .importBlock round.request] := by
  have found := parent_observed_seen round.finds
  obtain ⟨provider, provided, provides, creates⟩ := Attempt.run_bind_ok round.fills
  have filled := Node.seen_of_recorded provides
  obtain ⟨_, rfl⟩ := Attempt.run_ofExcept_ok creates
  obtain ⟨inner, _, innerPrepares, prepares⟩ := Attempt.run_bind_ok round.prepares
  have prepared := Node.seen_of_unobserved innerPrepares
  obtain ⟨asked, rfl⟩ := Prod.mk.inj prepares
  have proposes := round.proposes
  rw [← Except.ok.inj asked] at proposes
  have proposed := Node.seen_of_recorded proposes
  have imported := Node.seen_of_recorded round.imports
  exact ⟨round.digest, by rw [imported, proposed, prepared, filled, found]; rfl⟩

end OnDemand.Engine

/-! ## Nodes that ask the runtime -/

namespace Surroundings

variable (surroundings : Surroundings) (scheme : SignatureScheme) (keys : List (KeyType × Seed))
  (extra : ExtraDigests)

/-- The worker that authors by slot with keys that were added one after the other. -/
def worker (proposingTime : UInt64) : SlotWorker ForkTree :=
  { node := surroundings.node, keyring := (KeyStore.addAll scheme {} keys).keyring scheme, extra,
    proposingTime }

/-- The engine that authors on command with keys that were added one after the other. -/
def engine : OnDemand.Engine ForkTree :=
  { node := surroundings.node, keyring := (KeyStore.addAll scheme {} keys).keyring scheme, extra }

end Surroundings

/-- What a node authors with keys of its own, the runtime executes at the slot that the node
authored for, and the account of the author is noted. By slot this is the low half of the slot's
number; on command it is the slot in the inherent data that the block was proposed with, or else the
number that follows the parent's, and the block is the one that the importer was asked for. -/
theorem Validation.executes_authored (sound : scheme.Sound) (rules : Rules α)
    (surroundings : Surroundings) (keys : List (KeyType × Seed)) (extra : ExtraDigests)
    (tree : ForkTree) :
    (∀ proposingTime info block after,
      (((surroundings.validating rules).worker scheme keys extra proposingTime).onSlot info).run
          tree = (some block, after) →
        Executes scheme rules info.slot.toUInt32 block) ∧
    ∀ createEmpty parent? created after seen,
      (((surroundings.validating rules).engine scheme keys extra).observed.author createEmpty
          parent?).run.run (tree, []) = (.ok created, after, seen) →
        ∃ (parent : Header) (data : InherentData) (digest : Digest) (slot? : Option UInt32)
          (request : ImportRequest),
          seen = [.inherents parent.hash (OnDemand.followingNumber parent.number),
            .propose data digest OnDemand.proposingTime none, .importBlock request] ∧
          data.slot = .ok slot? ∧ request.postHash = created.hash ∧
          Executes scheme rules (slot?.getD (OnDemand.followingNumber parent.number))
            request.block := by
  have signs := KeyStore.sound_keyring sound (KeyStore.faithful_addAll scheme keys)
  have carries := (surroundings.validating rules).carriesLogs
  constructor
  · intro proposingTime info block after ran
    obtain ⟨round⟩ := SlotWorker.exists_round (SlotWorker.author_of_onSlot ran)
    exact round.executes carries signs fun _ => rfl
  · intro createEmpty parent? created after seen ran
    obtain ⟨round⟩ := OnDemand.Engine.exists_round ran
    obtain ⟨digest, asked⟩ := round.seen_eq
    obtain ⟨slot?, read, executes⟩ := round.executes carries.observed signs fun _ => rfl
    have answered := congrArg OnDemand.CreatedBlock.hash round.created_eq
    exact ⟨round.parent, round.inherents, digest, slot?, round.request, asked, read, answered.symm,
      executes⟩

section Authored

open Traffic

/-- Anyone with an account may author at slot five. -/
private def fifthSlot : Validation.Rules AuthorId where
  lookup := some
  filter _ slot := slot = 5

/-- Inherent data always hold slot five. -/
private def fifthSlotInherent : Surroundings :=
  { openSurroundings with inherents := fun _ _ _ => .ok (.slot 5) }

private def ownKeys : List (KeyType × Seed) :=
  [(authorshipKeys, ⟨FixedBytes.replicate 32 1⟩)]

/-- Logs that name somebody else as well. -/
private def misleadingLogs : ExtraDigests :=
  fun _ _ => [.ofAuthor ⟨FixedBytes.replicate 32 9⟩]

private theorem exists_eq_some {β γ : Type} {outcome : Option β × γ}
    (isSome : outcome.1.isSome = true) : ∃ value after, outcome = (some value, after) := by
  obtain ⟨value, found⟩ := Option.isSome_iff_exists.mp isSome
  exact ⟨value, outcome.2, Prod.ext found rfl⟩

private theorem exists_eq_ok {ε β γ : Type} {outcome : Except ε β × γ}
    (ok : outcome.1.toOption.isSome = true) : ∃ value after, outcome = (.ok value, after) := by
  rcases outcome with ⟨_ | value, after⟩
  · cases ok
  · exact ⟨value, after, rfl⟩

/-- Slot five by its low half, and on command by the inherent data. -/
theorem Validation.executes_authored_fifthSlot :
    ed25519.trusting.Sound ∧
      (∃ block after,
        (((fifthSlotInherent.validating fifthSlot).worker ed25519.trusting ownKeys misleadingLogs
            1000).onSlot { slot := 4294967301, head := {}, duration := ⟨6, 0⟩ }).run
          (.ofGenesis {}) = (some block, after) ∧
        Executes ed25519.trusting fifthSlot 5 block) ∧
      ∃ created after seen slot, ∃ request : ImportRequest,
        (((fifthSlotInherent.validating fifthSlot).engine ed25519.trusting ownKeys
            misleadingLogs).observed.author true none).run.run (.ofGenesis {}, []) =
          (.ok created, after, seen) ∧
        request.postHash = created.hash ∧
        Executes ed25519.trusting fifthSlot slot request.block := by
  obtain ⟨bySlot, onCommand⟩ := executes_authored ed25519.sound_trusting fifthSlot
    fifthSlotInherent ownKeys misleadingLogs (.ofGenesis {})
  refine ⟨ed25519.sound_trusting, ?_, ?_⟩
  · have authored :
        ((((fifthSlotInherent.validating fifthSlot).worker ed25519.trusting ownKeys misleadingLogs
          1000).onSlot { slot := 4294967301, head := {}, duration := ⟨6, 0⟩ }).run
            (.ofGenesis {})).1.isSome = true := by
      decide +kernel
    obtain ⟨block, after, ran⟩ := exists_eq_some authored
    have low : (4294967301 : UInt64).toUInt32 = 5 := by decide
    have executes := bySlot _ _ _ _ ran
    dsimp only at executes
    rw [low] at executes
    exact ⟨block, after, ran, executes⟩
  · have authored :
        ((((fifthSlotInherent.validating fifthSlot).engine ed25519.trusting ownKeys
          misleadingLogs).observed.author true none).run.run
            (.ofGenesis {}, [])).1.toOption.isSome = true := by
      decide +kernel
    obtain ⟨created, ⟨after, seen⟩, ran⟩ := exists_eq_ok authored
    obtain ⟨_, _, _, _, request, _, _, stored, executes⟩ := onCommand _ _ _ _ _ ran
    exact ⟨created, after, seen, _, request, ran, stored, executes⟩

end Authored

end Authorship
