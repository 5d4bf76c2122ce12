/-
Module: Authorship.Consensus.Node
Purpose: What a block producer needs of the node around it: the runtime, the best block, stored
  headers, inherent data, a proposer and an importer. Each of them may look at the node's state and
  change it, and may fail. The local node does all of it on a fork tree.
Main exports: Node, ForkTree.runtimeApi, ForkTree.localNode
-/
import Authorship.Consensus.Authoring
import Authorship.Consensus.ForkTree

namespace Authorship

/-- Fills a block with the given inherent data and logs, within a time in milliseconds and a size.
-/
abbrev Propose (σ : Type) :=
  InherentData → Digest → (milliseconds : UInt64) → (limit : Option UInt64) → Action σ Block

/-- Makes the inherent data of a block on top of a parent at a slot. -/
abbrev InherentFactory := Hash → UInt32 → Except ConsensusError InherentProvider

/-- The node around a block producer. -/
structure Node (σ : Type) where
  api : σ → RuntimeApi
  bestHeader : Action σ Header
  header? : Hash → Action σ (Option Header)
  inherents : Hash → UInt32 → Action σ InherentProvider
  proposer : Header → Action σ (Propose σ)
  importBlock : ImportRequest → Action σ ImportOutcome

/-- The inherent data of a block on top of a parent at a slot. -/
def Node.inherentData {σ : Type} (node : Node σ) (parent : Hash) (slot : UInt32) :
    Action σ InherentData := do
  let provider ← node.inherents parent slot
  .ofExcept (provider.create.mapError .inherent)

namespace ForkTree

/-- A runtime that knows the blocks of the tree and no others. -/
def runtimeApi (api : RuntimeApi) (tree : ForkTree) : RuntimeApi :=
  fun parent author slot =>
    if tree.contains parent.hash then api parent author slot
    else .error (.unknownBlock parent.hash)

/-- The node whose whole state is a fork tree. -/
def localNode (api : ForkTree → RuntimeApi) (inherents : InherentFactory) : Node ForkTree where
  api := api
  bestHeader := do
    let tree ← get
    match tree.bestHeader? with
    | some header => return header
    | none => throw (.unknownBlock tree.best)
  header? hash := do
    return (← get).header? hash
  inherents parent slot := .ofExcept (inherents parent slot)
  proposer parent := do
    let proposer ← prepare parent
    return fun _ digest _ limit => proposer.fill digest limit
  importBlock := storeRequest

end ForkTree

end Authorship
