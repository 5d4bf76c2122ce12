/-
Module: Authorship.Slot.Worker
Purpose: Authoring by slot. When a slot begins, the worker looks for a local key that the runtime
  lets author in it, then proposes, seals and imports a block. Whatever fails, there is no block in
  this slot.
Main exports: SlotInfo, SlotWorker, SlotWorker.author, SlotWorker.onSlot
-/
import Authorship.Consensus.Node
import Authorship.Slot.Clock

namespace Authorship

/-- A slot that has just begun. -/
structure SlotInfo where
  slot : UInt64
  /-- The best header when the slot began. -/
  head : Header
  duration : Duration
  blockSizeLimit : Option UInt64 := none
deriving DecidableEq

structure SlotWorker (σ : Type) where
  node : Node σ
  keyring : Keyring
  extra : ExtraDigests := fun _ _ => []
  /-- Milliseconds that a proposer has. -/
  proposingTime : UInt64

namespace SlotWorker

variable {σ : Type}

/-- Author, seal and import the block of a slot. The runtime sees the 32 low bits of the slot. -/
def author (worker : SlotWorker σ) (info : SlotInfo) : Action σ Block := do
  let slot := info.slot.toUInt32
  let parent := info.head
  let some key := firstEligibleKey? (worker.node.api (← get)) worker.keyring parent slot
    | throw (.noEligibleKey slot)
  let digest := authoringDigest worker.extra key parent.hash
  let inherents ← worker.node.inherentData parent.hash slot
  let propose ← worker.node.proposer parent
  let block ← propose inherents digest worker.proposingTime info.blockSizeLimit
  let sealItem ← .ofExcept (sealHeader worker.keyring block.header key)
  let _ ← worker.node.importBlock
    { origin := .own, header := block.header, body := some block.extrinsics,
      postDigests := [sealItem], forkChoice := some .longest }
  return { block with header := block.header.push sealItem }

/-- The block authored in a slot, if one was. -/
def onSlot (worker : SlotWorker σ) (info : SlotInfo) : StateM σ (Option Block) := do
  return (← (worker.author info).run).toOption

end SlotWorker

end Authorship
