/-
Module: Authorship.Slot.Loop
Purpose: The loop that calls a worker at the beginning of every slot, on top of the best block.
  Slots are skipped while the node catches up with others, unless authoring is forced, and when
  there is no best block. A skipped slot does not come back.
Main exports: SlotLoop, SlotOutcome, SlotLoop.enter, SlotLoop.run
-/
import Authorship.Slot.Worker

namespace Authorship

/-- What the loop asks and whom it calls. -/
structure SlotLoop (σ : Type) where
  slotDuration : Duration
  blockSizeLimit : Option UInt64 := none
  /-- Author also while the node catches up with others. -/
  forceAuthoring : Bool := false
  /-- Whether the node is catching up with others. -/
  syncing : StateM σ Bool
  bestHeader : Action σ Header
  worker : SlotInfo → StateM σ (Option Block)

/-- What came of a slot. -/
inductive SlotOutcome where
  /-- Nothing: the node was catching up with others. -/
  | skipped
  /-- Nothing: there was no best block to build on. -/
  | headless (error : ConsensusError)
  /-- The worker was called, and may have authored a block. -/
  | worked (info : SlotInfo) (authored : Option Block)
deriving DecidableEq

/-- What the worker was called with, if it was called. -/
def SlotOutcome.info? : SlotOutcome → Option SlotInfo
  | .worked info _ => some info
  | _ => none

namespace SlotLoop

variable {σ : Type}

/-- A slot begins: call the worker if it may author now. -/
def enter (loop : SlotLoop σ) (slot : UInt64) : StateM σ SlotOutcome := do
  let syncing ← loop.syncing
  if syncing && !loop.forceAuthoring then return .skipped
  match ← loop.bestHeader.run with
  | .error error => return .headless error
  | .ok head =>
    let info : SlotInfo :=
      { slot, head, duration := loop.slotDuration, blockSizeLimit := loop.blockSizeLimit }
    return .worked info (← loop.worker info)

/-- Run over readings of the clock. Gives what came of the slots that began, in order. -/
def run (loop : SlotLoop σ) (readings : List Duration) : StateM σ (List SlotOutcome) :=
  (Slots.yielded loop.slotDuration 0 readings).mapM loop.enter

end SlotLoop

end Authorship
