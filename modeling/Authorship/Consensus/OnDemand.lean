/-
Module: Authorship.Consensus.OnDemand
Purpose: Authoring on command. The slot is the number of the new block unless the inherent data hold
  another one. Every command that asks for an answer gets exactly one, in order.
Main exports: OnDemand.createDigest, OnDemand.Engine, OnDemand.Engine.author, OnDemand.Command,
  OnDemand.Engine.serve, OnDemand.instantCommands
-/
import Authorship.Consensus.Node

namespace Authorship.OnDemand

def proposingTime : UInt64 := 10000

/-- The number after a number; the last number follows itself. -/
def followingNumber (number : UInt32) : UInt32 :=
  (nextNumber? number).getD number

/-- The logs of a new block: the slot is the one in the inherent data, or else the number of the
block. -/
def createDigest (api : RuntimeApi) (keyring : Keyring) (extra : ExtraDigests) (parent : Header)
    (inherents : InherentData) : Except ConsensusError Digest := do
  let slot := (← inherents.slot.mapError .inherent).getD (followingNumber parent.number)
  match firstEligibleKey? api keyring parent slot with
  | none => throw (.noEligibleKey slot)
  | some author => return authoringDigest extra author parent.hash

structure CreatedBlock where
  hash : Hash
  number : UInt32
  outcome : ImportOutcome
deriving DecidableEq

/-- Author blocks with the keys of a keyring. -/
structure Engine (σ : Type) where
  node : Node σ
  keyring : Keyring
  extra : ExtraDigests := fun _ _ => []

variable {σ : Type}

/-- The header to build on: the one with the given hash, or the best one. -/
def Engine.parent (engine : Engine σ) : Option Hash → Action σ Header
  | none => engine.node.bestHeader
  | some hash => do
    match ← engine.node.header? hash with
    | some header => return header
    | none => throw (.unknownBlock hash)

/-- Author, seal and import one block. -/
def Engine.author (engine : Engine σ) (createEmpty : Bool) (parent? : Option Hash) :
    Action σ CreatedBlock := do
  let parent ← engine.parent parent?
  let inherents ← engine.node.inherentData parent.hash (followingNumber parent.number)
  let digest ←
    .ofExcept (createDigest (engine.node.api (← get)) engine.keyring engine.extra parent inherents)
  let propose ← engine.node.proposer parent
  let block ← propose inherents digest proposingTime none
  if block.extrinsics.isEmpty && !createEmpty then throw .emptyPool
  let request ← .ofExcept (attachSeal engine.keyring
    { origin := .own, header := block.header, body := some block.extrinsics,
      forkChoice := some .longest })
  let outcome ← engine.node.importBlock request
  return { hash := request.postHash, number := block.header.number, outcome }

structure Command (ρ : Type) where
  /-- Author also when there is nothing to put into the block. -/
  createEmpty : Bool
  /-- Build on this block and not on the best one. -/
  parent? : Option Hash := none
  /-- Who still waits to hear what became of it. -/
  replyTo : Option ρ := none
deriving DecidableEq

/-- Author a block for every command. Gives the answers, each with its addressee, in order. -/
def Engine.serve {ρ : Type} (engine : Engine σ) :
    List (Command ρ) → StateM σ (List (ρ × Except ConsensusError CreatedBlock))
  | [] => return []
  | command :: rest => do
    let outcome ← (engine.author command.createEmpty command.parent?).run
    let answers ← engine.serve rest
    match command.replyTo with
    | some addressee => return (addressee, outcome) :: answers
    | none => return answers

/-- A command for every trigger, such as a new extrinsic. -/
def instantCommands {ρ τ : Type} (triggers : List τ) : List (Command ρ) :=
  triggers.map fun _ => { createEmpty := false }

end Authorship.OnDemand
