/-
Module: Authorship.Proofs.ForkTree.Heights
Purpose: The number that a header claims, and how deep the block really is. The tree counts depths
  itself and looks at no number; a block whose author was let in at its number was let in at its
  depth only if the numbers below it say what they should. All of them do just when each follows the
  number of the parent.
Main exports: ForkTree.KeptBy, ForkTree.LetIn, ForkTree.Admitted, ForkTree.AtHeights,
  ForkTree.NumbersFollow, ForkTree.Admitted.atHeights_iff
-/
import Authorship.Block.Seal
import Authorship.Proofs.ForkTree.Branch

namespace Authorship.ForkTree

/-! ## What stays stored -/

/-- The later tree stores whatever the tree stores. -/
def KeptBy (tree later : ForkTree) : Prop :=
  ∀ hash block, tree.block? hash = some block → later.block? hash = some block

namespace KeptBy

variable {tree middle later : ForkTree}

theorem refl (tree : ForkTree) : tree.KeptBy tree :=
  fun _ _ stored => stored

theorem trans (one : tree.KeptBy middle) (two : middle.KeptBy later) : tree.KeptBy later :=
  fun hash block stored => two hash block (one hash block stored)

theorem attach {block : Block} {parent : Entry} (attachable : tree.Attachable block parent)
    (isNewBest : Bool) : tree.KeptBy (tree.attach block.hash block parent isNewBest) :=
  fun _ _ => block?_attach_of_stored attachable isNewBest

theorem header? (kept : tree.KeptBy later) {hash : Hash} {header : Header}
    (stored : tree.header? hash = some header) : later.header? hash = some header := by
  obtain ⟨block, found, rfl⟩ := Option.map_eq_some_iff.mp stored
  exact Option.map_eq_some_iff.mpr ⟨block, kept hash block found, rfl⟩

end KeptBy

/-! ## Blocks of authors who were let in -/

/-- The seal of the header checks for an author who was eligible on top of the parent at the slot
that is the header's number. -/
def LetIn (scheme : SignatureScheme) (eligible : Header → AuthorId → UInt32 → Prop)
    (parent header : Header) : Prop :=
  ∃ author item, (header.stripSeal scheme).1 = .ok (author, item) ∧
    eligible parent author header.number

/-- A tree above whose genesis block there are only blocks that were let in, each one deeper than
its parent. -/
structure Admitted (scheme : SignatureScheme) (eligible : Header → AuthorId → UInt32 → Prop)
    (genesis : Header) (tree : ForkTree) : Prop where
  rooted : tree.Rooted genesis.hash
  block_genesis : tree.block? genesis.hash = some { header := genesis }
  depth_genesis : tree.depth? genesis.hash = some 0
  above : ∀ hash block, tree.block? hash = some block → hash ≠ genesis.hash →
    ∃ parent depth, tree.header? block.header.parentHash = some parent ∧
      tree.depth? block.header.parentHash = some depth ∧ tree.depth? hash = some (depth + 1) ∧
      LetIn scheme eligible parent block.header

/-- The blocks above the genesis block are numbered by their depth, and point to their parent. -/
def AtHeights (tree : ForkTree) (genesis : Hash) : Prop :=
  ∀ hash block, tree.block? hash = some block → hash ≠ genesis →
    tree.depth? hash = some block.header.number ∧
      block.header.parent? = some block.header.parentHash

/-- The number of each block above the genesis block is the one after its parent's. -/
def NumbersFollow (tree : ForkTree) (genesis : Hash) : Prop :=
  ∀ hash block parent, tree.block? hash = some block → hash ≠ genesis →
    tree.header? block.header.parentHash = some parent →
      block.header.number.toNat = parent.number.toNat + 1

namespace Admitted

variable {scheme : SignatureScheme} {eligible : Header → AuthorId → UInt32 → Prop}
  {genesis : Header} {tree : ForkTree}

theorem ofGenesis (genesis : Header) : (ofGenesis genesis).Admitted scheme eligible genesis where
  rooted := .ofGenesis genesis
  block_genesis := by rw [block?_ofGenesis, if_pos rfl]
  depth_genesis := by rw [depth?_ofGenesis, if_pos rfl]
  above hash block stored notGenesis := by
    rw [block?_ofGenesis, if_neg notGenesis.symm] at stored
    cases stored

theorem submit (admitted : tree.Admitted scheme eligible genesis) (extrinsic : Extrinsic) :
    (tree.submit extrinsic).Admitted scheme eligible genesis where
  rooted := admitted.rooted.submit extrinsic
  block_genesis := admitted.block_genesis
  depth_genesis := admitted.depth_genesis
  above := admitted.above

theorem attach {block : Block} {entry : Entry} (admitted : tree.Admitted scheme eligible genesis)
    (attachable : tree.Attachable block entry) (isNewBest : Bool)
    (letIn : LetIn scheme eligible entry.block.header block.header) :
    (tree.attach block.hash block entry isNewBest).Admitted scheme eligible genesis := by
  have kept := KeptBy.attach attachable isNewBest
  have keptDepth {hash : Hash} {depth : UInt32} (found : tree.depth? hash = some depth) :=
    depth?_attach_of_stored attachable isNewBest found
  have parentDepth := depth?_of_get? attachable.stored
  have parentHeader : tree.header? block.header.parentHash = some entry.block.header := by
    rw [ForkTree.header?, block?_of_get? attachable.stored]
    rfl
  constructor
  case rooted => exact admitted.rooted.attach attachable isNewBest
  case block_genesis => exact kept _ _ admitted.block_genesis
  case depth_genesis => exact keptDepth admitted.depth_genesis
  case above =>
    intro hash other stored notGenesis
    rw [block?_attach attachable] at stored
    split at stored
    · next same =>
        cases stored
        cases same
        refine ⟨_, _, kept.header? parentHeader, keptDepth parentDepth, ?_, letIn⟩
        rw [depth?_attach attachable, if_pos rfl]
    · obtain ⟨parent, depth, below, belowDepth, here, vetted⟩ :=
        admitted.above hash other stored notGenesis
      exact ⟨parent, depth, kept.header? below, keptDepth belowDepth, keptDepth here, vetted⟩

/-! ## Numbers and depths -/

/-- What follows a number does not wrap to zero. -/
theorem toNat_eq_succ_iff {number below : UInt32} :
    number.toNat = below.toNat + 1 ↔ number = below + 1 ∧ number ≠ 0 := by
  have bound := number.toNat_lt
  have belowBound := below.toNat_lt
  have wraps : (below + 1).toNat = (below.toNat + 1) % 2 ^ 32 := UInt32.toNat_add below 1
  rw [← UInt32.toNat_inj, ne_eq, ← UInt32.toNat_inj, wraps, UInt32.toNat_zero]
  omega

/-- Numbers that follow each other from zero count depths, along any branch. -/
theorem depth?_eq_number (admitted : tree.Admitted scheme eligible genesis)
    (zero : genesis.number = 0) (follow : tree.NumbersFollow genesis.hash) {hash : Hash}
    {path : List Block} (branch : tree.Branch genesis.hash hash path) {header : Header}
    (stored : tree.header? hash = some header) : tree.depth? hash = some header.number := by
  induction branch generalizing header with
  | root =>
      rw [ForkTree.header?, admitted.block_genesis] at stored
      cases stored
      rw [admitted.depth_genesis, zero]
  | @child hash block path found notGenesis below inductionHypothesis =>
      rw [ForkTree.header?, found] at stored
      cases stored
      obtain ⟨parent, depth, parentStored, parentDepth, here, _⟩ :=
        admitted.above hash block found notGenesis
      obtain rfl : depth = parent.number :=
        Option.some.inj (parentDepth.symm.trans (inductionHypothesis parentStored))
      obtain ⟨next, _⟩ :=
        toNat_eq_succ_iff.mp (follow hash block parent found notGenesis parentStored)
      rw [here, next]

theorem parent?_eq_some_iff {header : Header} :
    header.parent? = some header.parentHash ↔ header.number ≠ 0 := by
  rw [Header.parent?]
  split <;> simp [*]

/-- Above a genesis block of number zero, all blocks are numbered by their depth and point to their
parent just when each number follows that of the parent. -/
theorem atHeights_iff (admitted : tree.Admitted scheme eligible genesis)
    (zero : genesis.number = 0) :
    tree.AtHeights genesis.hash ↔ tree.NumbersFollow genesis.hash := by
  constructor
  · intro atHeights hash block parent stored notGenesis parentStored
    obtain ⟨found, depth, parentFound, parentDepth, here, _⟩ :=
      admitted.above hash block stored notGenesis
    obtain rfl : found = parent := Option.some.inj (parentFound.symm.trans parentStored)
    obtain ⟨numbered, points⟩ := atHeights hash block stored notGenesis
    have parentNumber : depth = found.number := by
      obtain ⟨parentBlock, parentBlockStored, rfl⟩ := Option.map_eq_some_iff.mp parentStored
      by_cases bottom : block.header.parentHash = genesis.hash
      · rw [bottom, admitted.depth_genesis] at parentDepth
        rw [bottom, admitted.block_genesis] at parentBlockStored
        cases parentDepth
        cases parentBlockStored
        exact zero.symm
      · have := (atHeights _ _ parentBlockStored bottom).1
        exact Option.some.inj (parentDepth.symm.trans this)
    have next : block.header.number = found.number + 1 := by
      rw [← parentNumber]
      exact Option.some.inj (numbered.symm.trans here)
    exact toNat_eq_succ_iff.mpr ⟨next, parent?_eq_some_iff.mp points⟩
  · intro follow hash block stored notGenesis
    obtain ⟨path, branch⟩ := admitted.rooted.branch hash (by
      rw [contains_eq_isSome_block?, stored]
      rfl)
    have header : tree.header? hash = some block.header := by
      rw [ForkTree.header?, stored]
      rfl
    obtain ⟨parent, _, parentStored, _⟩ := admitted.above hash block stored notGenesis
    obtain ⟨_, notZero⟩ :=
      toNat_eq_succ_iff.mp (follow hash block parent stored notGenesis parentStored)
    exact ⟨admitted.depth?_eq_number zero follow branch header,
      parent?_eq_some_iff.mpr notZero⟩

end Admitted

end Authorship.ForkTree
