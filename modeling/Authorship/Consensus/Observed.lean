/-
Module: Authorship.Consensus.Observed
Purpose: A node that remembers what is asked of it: inherent data, proposals and imports, in the
  order in which they are asked for and whatever comes of them. Nothing else about the node
  changes.
Main exports: Node.Request, Node.observed
-/
import Authorship.Consensus.Node

namespace Authorship.Node

/-- What a block producer or an importer asked of a node. -/
inductive Request where
  /-- Inherent data for a block on top of a parent at a slot. -/
  | inherents (parent : Hash) (slot : UInt32)
  /-- A block with inherent data and logs, within a time in milliseconds and a size. -/
  | propose (data : InherentData) (digest : Digest) (milliseconds : UInt64) (limit : Option UInt64)
  | importBlock (request : ImportRequest)

variable {σ : Type}

/-- A step of a node, as a step of the observed one. -/
def unobserved {α : Type} (step : Action σ α) : Action (σ × List Request) α :=
  ExceptT.mk fun (state, seen) =>
    let (outcome, state) := step.run.run state
    (outcome, state, seen)

/-- A step that asks something of a node. -/
def recorded {α : Type} (request : Request) (step : Action σ α) : Action (σ × List Request) α :=
  ExceptT.mk fun (state, seen) => (unobserved step).run.run (state, seen ++ [request])

/-- The node together with what was asked of it. -/
def observed (node : Node σ) : Node (σ × List Request) where
  api := fun (state, _) => node.api state
  bestHeader := unobserved node.bestHeader
  header? hash := unobserved (node.header? hash)
  inherents parent slot := recorded (.inherents parent slot) (node.inherents parent slot)
  proposer parent := do
    let propose ← unobserved (node.proposer parent)
    return fun data digest milliseconds limit =>
      recorded (.propose data digest milliseconds limit) (propose data digest milliseconds limit)
  importBlock request := recorded (.importBlock request) (node.importBlock request)

end Authorship.Node
