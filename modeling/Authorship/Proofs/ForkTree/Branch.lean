/-
Module: Authorship.Proofs.ForkTree.Branch
Purpose: The branch that ends in a stored block: the blocks met on the way down from it to the
  genesis block, in the order in which they build on each other. A branch is found by following
  parents, is the only one to its end, and stays as it is whatever is imported later.
Main exports: ForkTree.Branch, ForkTree.Branch.unique, ForkTree.Branch.attach, ForkTree.Rooted
-/
import Authorship.Proofs.ForkTree.Growth

namespace Authorship.ForkTree

/-- The blocks above the genesis block up to the one stored under a hash, each the parent of the
next. -/
inductive Branch (tree : ForkTree) (genesis : Hash) : Hash → List Block → Prop where
  | root (stored : tree.contains genesis = true) : Branch tree genesis genesis []
  | child {hash : Hash} {block : Block} {path : List Block}
      (stored : tree.block? hash = some block)
      (notGenesis : hash ≠ genesis)
      (below : Branch tree genesis block.header.parentHash path) :
      Branch tree genesis hash (path ++ [block])

/-- Every block is stored under its own hash. -/
def OwnHashes (tree : ForkTree) : Prop :=
  ∀ hash block, tree.block? hash = some block → block.hash = hash

namespace Branch

variable {tree : ForkTree} {genesis hash : Hash} {path : List Block}

/-- Following parents leaves no choice. -/
theorem unique {other : List Block} (one : tree.Branch genesis hash path)
    (two : tree.Branch genesis hash other) : path = other := by
  induction one generalizing other with
  | root =>
      cases two with
      | root => rfl
      | child _ notGenesis _ => exact absurd rfl notGenesis
  | child stored notGenesis below inductionHypothesis =>
      cases two with
      | root => exact absurd rfl notGenesis
      | child otherStored _ otherBelow =>
          rw [stored] at otherStored
          cases otherStored
          rw [inductionHypothesis otherBelow]

theorem eq_nil (branch : tree.Branch genesis genesis path) : path = [] := by
  cases branch with
  | root => rfl
  | child _ notGenesis _ => exact absurd rfl notGenesis

theorem eq_concat {block : Block} (branch : tree.Branch genesis hash path)
    (stored : tree.block? hash = some block) (notGenesis : hash ≠ genesis) :
    ∃ below, tree.Branch genesis block.header.parentHash below ∧ path = below ++ [block] := by
  cases branch with
  | root => exact absurd rfl notGenesis
  | child found _ below =>
      cases stored.symm.trans found
      exact ⟨_, below, rfl⟩

/-- A branch ends in a stored block. -/
theorem contains (branch : tree.Branch genesis hash path) : tree.contains hash = true := by
  cases branch with
  | root stored => exact stored
  | child stored _ _ => rw [contains_eq_isSome_block?, stored]; rfl

/-- A tree that still finds every block of another one has all its branches. -/
theorem mono {next : ForkTree}
    (kept : ∀ hash block, tree.block? hash = some block → next.block? hash = some block)
    (branch : tree.Branch genesis hash path) : next.Branch genesis hash path := by
  induction branch with
  | root stored =>
      rw [contains_eq_isSome_block?, Option.isSome_iff_exists] at stored
      obtain ⟨block, stored⟩ := stored
      apply Branch.root
      rw [contains_eq_isSome_block?, kept _ _ stored]
      rfl
  | child stored notGenesis _ inductionHypothesis =>
      exact .child (kept _ _ stored) notGenesis inductionHypothesis

theorem submit_iff {extrinsic : Extrinsic} :
    (tree.submit extrinsic).Branch genesis hash path ↔ tree.Branch genesis hash path := by
  constructor
  · intro branch
    apply branch.mono
    intro hash block stored
    exact stored
  · intro branch
    apply branch.mono
    intro hash block stored
    exact stored

variable {block : Block} {parent : Entry}

theorem attach (branch : tree.Branch genesis hash path)
    (attachable : tree.Attachable block parent) (isNewBest : Bool) :
    (tree.attach block.hash block parent isNewBest).Branch genesis hash path := by
  apply branch.mono
  intro other found stored
  exact block?_attach_of_stored attachable isNewBest stored

/-- The branch of an attached block is that of its parent and the block. -/
theorem attach_self (branch : tree.Branch genesis block.header.parentHash path)
    (rooted : tree.contains genesis = true)
    (attachable : tree.Attachable block parent) (isNewBest : Bool) :
    (tree.attach block.hash block parent isNewBest).Branch genesis block.hash
      (path ++ [block]) := by
  refine .child ?_ ?_ (branch.attach attachable isNewBest)
  · rw [block?_attach attachable, if_pos rfl]
  · rintro rfl
    rw [contains_eq_false_iff.mpr attachable.fresh] at rooted
    cases rooted

/-- A block on a branch is stored above the genesis block, and its own branch is no longer. -/
theorem of_mem (branch : tree.Branch genesis hash path) (member : block ∈ path) :
    ∃ here below, tree.block? here = some block ∧ here ≠ genesis ∧
      tree.Branch genesis here below ∧ below.length ≤ path.length := by
  induction branch with
  | root => cases member
  | @child hash last path stored notGenesis below inductionHypothesis =>
      rcases List.mem_append.mp member with earlier | here
      · obtain ⟨here, shorter, found, above, branch, length⟩ := inductionHypothesis earlier
        refine ⟨here, shorter, found, above, branch, ?_⟩
        rw [List.length_append]
        exact Nat.le_add_right_of_le length
      · obtain rfl := List.mem_singleton.mp here
        exact ⟨hash, path ++ [block], stored, notGenesis, .child stored notGenesis below,
          Nat.le_refl _⟩

/-- No block below the last one of a branch has its hash. -/
theorem hash_ne_of_mem (own : tree.OwnHashes) (stored : tree.block? hash = some block)
    (notGenesis : hash ≠ genesis) (below : tree.Branch genesis block.header.parentHash path)
    {other : Block} (member : other ∈ path) : other.hash ≠ hash := by
  rintro rfl
  obtain ⟨here, shorter, found, _, branch, length⟩ := below.of_mem member
  obtain rfl := own here other found
  have whole : tree.Branch genesis other.hash (path ++ [block]) := .child stored notGenesis below
  rw [branch.unique whole, List.length_append, List.length_singleton] at length
  omega

end Branch

/-- Following parents from any stored block leads to the genesis block. -/
structure Rooted (tree : ForkTree) (genesis : Hash) : Prop where
  root : tree.contains genesis = true
  branch : ∀ hash, tree.contains hash = true → ∃ path, tree.Branch genesis hash path

namespace Rooted

theorem ofGenesis (genesis : Header) : (ofGenesis genesis).Rooted genesis.hash := by
  have root : (ForkTree.ofGenesis genesis).contains genesis.hash = true := by
    simp [contains_eq_isSome_block?, block?_ofGenesis]
  constructor
  · exact root
  · intro hash stored
    rw [contains_eq_isSome_block?, block?_ofGenesis] at stored
    split at stored
    · next same => exact ⟨[], same ▸ .root root⟩
    · cases stored

variable {tree : ForkTree} {genesis : Hash}

theorem submit (rooted : tree.Rooted genesis) (extrinsic : Extrinsic) :
    (tree.submit extrinsic).Rooted genesis := by
  constructor
  · exact rooted.root
  · intro hash stored
    obtain ⟨path, branch⟩ := rooted.branch hash stored
    exact ⟨path, Branch.submit_iff.mpr branch⟩

theorem attach {block : Block} {parent : Entry} (rooted : tree.Rooted genesis)
    (attachable : tree.Attachable block parent) (isNewBest : Bool) :
    (tree.attach block.hash block parent isNewBest).Rooted genesis := by
  constructor
  · rw [contains_attach attachable, rooted.root, Bool.or_true]
  · intro hash stored
    rw [contains_attach attachable, Bool.or_eq_true, decide_eq_true_iff] at stored
    rcases stored with rfl | stored
    · obtain ⟨path, branch⟩ := rooted.branch _ attachable.contains_parentHash
      exact ⟨_, branch.attach_self rooted.root attachable isNewBest⟩
    · obtain ⟨path, branch⟩ := rooted.branch hash stored
      exact ⟨path, branch.attach attachable isNewBest⟩

/-- A branch after a block was attached ends in the block, or was a branch before. -/
theorem branch_attach_cases {block : Block} {parent : Entry} (rooted : tree.Rooted genesis)
    (attachable : tree.Attachable block parent) {isNewBest : Bool} {hash : Hash}
    {path : List Block}
    (branch : (tree.attach block.hash block parent isNewBest).Branch genesis hash path) :
    (∃ below, tree.Branch genesis block.header.parentHash below ∧ path = below ++ [block]) ∨
    tree.Branch genesis hash path := by
  have stored := branch.contains
  rw [contains_attach attachable, Bool.or_eq_true, decide_eq_true_iff] at stored
  rcases stored with rfl | stored
  · obtain ⟨below, parentBranch⟩ := rooted.branch _ attachable.contains_parentHash
    exact .inl ⟨below, parentBranch,
      branch.unique (parentBranch.attach_self rooted.root attachable isNewBest)⟩
  · obtain ⟨before, old⟩ := rooted.branch hash stored
    rw [branch.unique (old.attach attachable isNewBest)]
    exact .inr old

end Rooted

end Authorship.ForkTree
