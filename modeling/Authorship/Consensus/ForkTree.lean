/-
Module: Authorship.Consensus.ForkTree
Purpose: A tree of blocks with a best block and a pool of extrinsics that wait for a block. Blocks
  are found by the hash of their stored header, by their parent and by their depth; children and
  blocks of one depth are listed in the order in which they came. Proposing leaves the pool alone;
  an extrinsic leaves it when a block with it is imported. A tree in use is changed in place, one
  write after the other; the tree that comes of it, or the failure, is also given at once.
Main exports: ForkTree, ForkTree.ofGenesis, ForkTree.insert, ForkTree.importBlock, ForkTree.store,
  ForkTree.storeRequest, ForkTree.proposer, Proposer.propose, ForkTree.prepare, Proposer.fill,
  ForkTree.proposeNow
-/
import Authorship.Assoc
import Authorship.Consensus.Error
import Authorship.Consensus.Import

namespace Authorship

/-- A stored block and its place in the tree. -/
structure ForkTree.Entry where
  block : Block
  /-- Steps from the genesis block. -/
  depth : UInt32
  children : List Hash := []
deriving DecidableEq

/-- A tree of blocks with a best block and a pool. -/
structure ForkTree where
  blocks : Assoc Hash ForkTree.Entry
  /-- The blocks of each depth. -/
  levels : Assoc UInt32 (List Hash)
  best : Hash
  pool : List Extrinsic := []
deriving DecidableEq

namespace ForkTree

/-- The tree of a genesis block alone. -/
def ofGenesis (header : Header) : ForkTree where
  blocks := Assoc.empty.insert header.hash { block := { header }, depth := 0 }
  levels := Assoc.empty.insert 0 [header.hash]
  best := header.hash

/-- The genesis block: the first one of depth zero. -/
def genesis? (tree : ForkTree) : Option Hash := do
  (← tree.levels.get? 0).head?

def block? (tree : ForkTree) (hash : Hash) : Option Block :=
  (tree.blocks.get? hash).map Entry.block

def header? (tree : ForkTree) (hash : Hash) : Option Header :=
  (tree.block? hash).map Block.header

def contains (tree : ForkTree) (hash : Hash) : Bool :=
  tree.blocks.contains hash

def bestHeader? (tree : ForkTree) : Option Header :=
  tree.header? tree.best

/-- How deep a stored block is. -/
def depth? (tree : ForkTree) (hash : Hash) : Option UInt32 :=
  (tree.blocks.get? hash).map Entry.depth

/-- The children of a block, in the order in which they came. -/
def children (tree : ForkTree) (hash : Hash) : List Hash :=
  ((tree.blocks.get? hash).map Entry.children).getD []

/-- The blocks of a depth, in the order in which they came. -/
def atDepth (tree : ForkTree) (depth : UInt32) : List Hash :=
  (tree.levels.get? depth).getD []

def size (tree : ForkTree) : Nat :=
  tree.blocks.size

/-- Put an extrinsic at the end of the pool. -/
def submit (tree : ForkTree) (extrinsic : Extrinsic) : ForkTree :=
  { tree with pool := tree.pool ++ [extrinsic] }

/-- Put extrinsics at the end of the pool, one after the other. -/
def submitAll (tree : ForkTree) (extrinsics : List Extrinsic) : ForkTree :=
  extrinsics.foldl submit tree

/-! ## Importing -/

/-- Drop from the pool one copy, the earliest, of each included extrinsic. -/
def prune (pool included : List Extrinsic) : List Extrinsic :=
  included.foldl List.erase pool

def becomesBest (tree : ForkTree) (depth : UInt32) : ForkChoice → Bool
  | .decided answer => answer
  | .longest => (tree.depth? tree.best).all (· < depth)

/-- The tree with a block as the newest child of a stored parent. -/
def attach (tree : ForkTree) (hash : Hash) (block : Block) (parent : Entry) (isNewBest : Bool) :
    ForkTree :=
  let depth := parent.depth + 1
  { blocks :=
      (tree.blocks.insert block.header.parentHash
        { parent with children := parent.children ++ [hash] }).insert hash { block, depth }
    levels := tree.levels.insert depth (tree.atDepth depth ++ [hash])
    best := if isNewBest then hash else tree.best
    pool := prune tree.pool block.extrinsics }

/-- Store a block whose parent is stored. -/
def insert (tree : ForkTree) (block : Block) (choice : ForkChoice) :
    Except ConsensusError (ImportOutcome × ForkTree) :=
  let hash := block.hash
  if tree.contains hash then .ok (.alreadyInChain, tree)
  else
    match tree.blocks.get? block.header.parentHash with
    | none => .error (.unknownParent block.header.parentHash)
    | some parent =>
      let isNewBest := tree.becomesBest (parent.depth + 1) choice
      .ok (.imported isNewBest, tree.attach hash block parent isNewBest)

/-- Store the block of an import request, if its header commits to its body. -/
def importBlock (tree : ForkTree) (request : ImportRequest) :
    Except ConsensusError (ImportOutcome × ForkTree) :=
  let header := request.postHeader
  let body := request.body.getD []
  if header.extrinsicsRoot = extrinsicsRoot body then
    tree.insert { header, extrinsics := body } (request.forkChoice.getD .longest)
  else .error (.importFailed "extrinsics root mismatch")

def setEntry (tree : ForkTree) (hash : Hash) (entry : Entry) : ForkTree :=
  { tree with blocks := tree.blocks.insert hash entry }

/-- Store a block in the tree at hand. The parent gets its child before anything else is written. -/
def store (block : Block) (choice : ForkChoice) : Action ForkTree ImportOutcome := do
  let hash := block.hash
  if (← get).contains hash then return .alreadyInChain
  let parentHash := block.header.parentHash
  let some parent := (← get).blocks.get? parentHash | throw (.unknownParent parentHash)
  modify (·.setEntry parentHash { parent with children := parent.children ++ [hash] })
  let depth := parent.depth + 1
  let isNewBest := (← get).becomesBest depth choice
  modify fun tree => { tree with pool := prune tree.pool block.extrinsics }
  modify fun tree =>
    { tree with levels := tree.levels.insert depth (tree.atDepth depth ++ [hash]) }
  modify (·.setEntry hash { block, depth })
  if isNewBest then modify ({ · with best := hash })
  return .imported isNewBest

/-- Store the block of an import request in the tree at hand, if its header commits to its body. -/
def storeRequest (request : ImportRequest) : Action ForkTree ImportOutcome := do
  let header := request.postHeader
  let body := request.body.getD []
  let choice := request.forkChoice.getD .longest
  if header.extrinsicsRoot ≠ extrinsicsRoot body then
    throw (.importFailed "extrinsics root mismatch")
  store { header, extrinsics := body } choice

/-! ## Proposing -/

/-- The longest run of extrinsics at the head of a list whose total length, added to `size`, is at
most the limit. Lengths saturate at the largest limit, which is therefore none. -/
def fitting (limit : UInt64) : (size : Nat) → List Extrinsic → List Extrinsic
  | _, [] => []
  | size, extrinsic :: rest =>
    let size := min (size + extrinsic.length) (UInt64.size - 1)
    if size ≤ limit.toNat then extrinsic :: fitting limit size rest else []

/-- The extrinsics that a block of limited size takes from the pool. -/
def ready (tree : ForkTree) (limit : Option UInt64) : List Extrinsic :=
  fitting (limit.getD (UInt64.ofNat (UInt64.size - 1))) 0 tree.pool

end ForkTree

/-- What a block is proposed on top of. -/
structure Proposer where
  parentHash : Hash
  parentNumber : UInt32
  parentStateRoot : Hash
deriving DecidableEq

/-- Prepare to propose on top of a stored block. -/
def ForkTree.proposer (tree : ForkTree) (parent : Header) : Except ConsensusError Proposer :=
  let hash := parent.hash
  if tree.contains hash then
    .ok { parentHash := hash, parentNumber := parent.number, parentStateRoot := parent.stateRoot }
  else .error (.unknownParent hash)

/-- The number after `number`, if there is one. -/
def nextNumber? (number : UInt32) : Option UInt32 :=
  if number.toNat + 1 < UInt32.size then some (number + 1) else none

/-- The state after a block: the hash of the state before it and of its extrinsics. -/
def nextStateRoot (stateRoot extrinsicsRoot : Hash) : Hash :=
  Hash.of (stateRoot.toBytes ++ extrinsicsRoot.toBytes)

/-- Make a block out of what the pool offers now. -/
def Proposer.propose (proposer : Proposer) (tree : ForkTree) (digest : Digest)
    (limit : Option UInt64) : Except ConsensusError Block :=
  match nextNumber? proposer.parentNumber with
  | none => .error (.proposer "block number overflow")
  | some number =>
    let extrinsics := tree.ready limit
    let root := extrinsicsRoot extrinsics
    .ok
      { header :=
          { parentHash := proposer.parentHash
            number
            stateRoot := nextStateRoot proposer.parentStateRoot root
            extrinsicsRoot := root
            digest }
        extrinsics }

/-- Prepare to propose on top of a block of the tree at hand. -/
def ForkTree.prepare (parent : Header) : Action ForkTree Proposer := do
  let hash := parent.hash
  if !(← get).contains hash then throw (.unknownParent hash)
  return { parentHash := hash, parentNumber := parent.number, parentStateRoot := parent.stateRoot }

/-- Make a block out of what the pool of the tree at hand offers. -/
def Proposer.fill (proposer : Proposer) (digest : Digest) (limit : Option UInt64) :
    Action ForkTree Block := do
  let some number := nextNumber? proposer.parentNumber
    | throw (.proposer "block number overflow")
  let extrinsics := (← get).ready limit
  let root := extrinsicsRoot extrinsics
  let stateRoot := nextStateRoot proposer.parentStateRoot root
  return {
    header :=
      { parentHash := proposer.parentHash, number, stateRoot, extrinsicsRoot := root, digest }
    extrinsics }

/-- Prepare to propose, and propose right away. -/
def ForkTree.proposeNow (parent : Header) (digest : Digest) (limit : Option UInt64) :
    Action ForkTree Block := do
  (← prepare parent).fill digest limit

end Authorship
