/-
Module: Authorship.Proofs.ForkTree.Shape
Purpose: The invariant that ties the four indexes of a fork tree together. A tree that holds the
  blocks imported so far finds exactly these and the genesis block, each under its own hash; a
  block lies one deeper than its parent; children and blocks of one depth are listed in the order
  of import; the best block is stored. Attaching a block keeps the invariant as long as depths
  have room.
Main exports: ForkTree.members, ForkTree.Holds, ForkTree.Holds.attach, ForkTree.Holds.exists_branch
-/
import Authorship.Proofs.ForkTree.Branch

namespace Authorship.ForkTree

/-- The genesis block, and the blocks imported after it in their order. -/
def members (genesis : Header) (imported : List Block) : List Block :=
  { header := genesis } :: imported

theorem genesis_mem_members (genesis : Header) (imported : List Block) :
    { header := genesis } ∈ members genesis imported :=
  List.mem_cons_self

/-- The tree holds the genesis block and the blocks imported after it, and nothing else. -/
structure Holds (tree : ForkTree) (genesis : Header) (imported : List Block) : Prop where
  /-- What is stored under a hash is the member with this hash. -/
  block?_eq_some_iff : ∀ hash block, tree.block? hash = some block ↔
    block ∈ members genesis imported ∧ block.hash = hash
  /-- No two members have one hash. -/
  nodup : ((members genesis imported).map Block.hash).Nodup
  size : tree.size = 1 + imported.length
  depth_genesis : tree.depth? genesis.hash = some 0
  /-- An imported block has a stored parent and lies one deeper than it. -/
  depth_parent : ∀ block ∈ imported, ∃ parentDepth depth,
    tree.depth? block.header.parentHash = some parentDepth ∧
      tree.depth? block.hash = some depth ∧ depth.toNat = parentDepth.toNat + 1
  depth_le : ∀ hash depth, tree.depth? hash = some depth → depth.toNat ≤ imported.length
  /-- The children of a block are the imported blocks that name it, in order of import. -/
  children : ∀ hash, tree.children hash =
    (imported.filter fun block => block.header.parentHash = hash).map Block.hash
  /-- The blocks of a depth are the members that lie there, in order of import. -/
  atDepth : ∀ depth, tree.atDepth depth =
    ((members genesis imported).filter fun block => tree.depth? block.hash = some depth).map
      Block.hash
  best : tree.contains tree.best = true

namespace Holds

theorem ofGenesis (genesis : Header) : (ofGenesis genesis).Holds genesis [] where
  block?_eq_some_iff hash block := by
    rw [block?_ofGenesis]
    constructor
    · intro stored
      split at stored
      · next same => cases stored; exact ⟨List.mem_singleton_self _, same⟩
      · cases stored
    · rintro ⟨member, rfl⟩
      cases List.mem_singleton.mp member
      exact if_pos rfl
  nodup := List.pairwise_singleton ..
  size := rfl
  depth_genesis := by simp [depth?_ofGenesis]
  depth_parent := by simp
  depth_le hash depth stored := by
    rw [depth?_ofGenesis] at stored
    split at stored
    · cases stored; exact Nat.le_refl 0
    · cases stored
  children hash := by simp [children_ofGenesis]
  atDepth depth := by
    have zero : some (0 : UInt32) = some depth ↔ depth = 0 := by
      rw [Option.some.injEq, eq_comm]
    by_cases deep : depth = 0 <;>
      simp [atDepth_ofGenesis, members, depth?_ofGenesis, Block.hash, zero, deep]
  best := by simp [contains_eq_isSome_block?, block?_ofGenesis]

variable {tree : ForkTree} {genesis : Header} {imported : List Block}

theorem submit (holds : tree.Holds genesis imported) (extrinsic : Extrinsic) :
    (tree.submit extrinsic).Holds genesis imported where
  block?_eq_some_iff := holds.block?_eq_some_iff
  nodup := holds.nodup
  size := holds.size
  depth_genesis := holds.depth_genesis
  depth_parent := holds.depth_parent
  depth_le := holds.depth_le
  children := holds.children
  atDepth := holds.atDepth
  best := holds.best

theorem ownHashes (holds : tree.Holds genesis imported) : tree.OwnHashes := by
  intro hash block stored
  exact ((holds.block?_eq_some_iff hash block).mp stored).2

theorem contains_of_mem (holds : tree.Holds genesis imported) {block : Block}
    (member : block ∈ members genesis imported) : tree.contains block.hash = true := by
  rw [contains_eq_isSome_block?, (holds.block?_eq_some_iff _ block).mpr ⟨member, rfl⟩]
  rfl

theorem contains_eq_false {hash : Hash} (holds : tree.Holds genesis imported)
    (absent : hash ∉ (members genesis imported).map Block.hash) : tree.contains hash = false := by
  rw [contains_eq_isSome_block?, Option.isSome_eq_false_iff, Option.isNone_iff_eq_none]
  apply Option.eq_none_iff_forall_ne_some.mpr
  intro block stored
  obtain ⟨member, same⟩ := (holds.block?_eq_some_iff hash block).mp stored
  exact absent (List.mem_map.mpr ⟨block, member, same⟩)

theorem root (holds : tree.Holds genesis imported) : tree.contains genesis.hash = true := by
  rw [← Block.hash_mk genesis []]
  exact holds.contains_of_mem (genesis_mem_members genesis imported)

section Attach

variable {block : Block} {parent : Entry}

/-- A fresh block has the hash of no member. -/
theorem hash_ne (holds : tree.Holds genesis imported)
    (attachable : tree.Attachable block parent) {other : Block}
    (member : other ∈ members genesis imported) : block.hash ≠ other.hash := by
  intro same
  have known := holds.contains_of_mem member
  rw [← same, contains_eq_false_iff.mpr attachable.fresh] at known
  cases known

theorem depth?_attach_of_mem (holds : tree.Holds genesis imported)
    (attachable : tree.Attachable block parent) (isNewBest : Bool) {other : Block}
    (member : other ∈ members genesis imported) :
    (tree.attach block.hash block parent isNewBest).depth? other.hash =
      tree.depth? other.hash := by
  rw [depth?_attach attachable, if_neg (holds.hash_ne attachable member)]

/-- Depths do not wrap as long as fewer than `2 ^ 32` blocks are imported. -/
theorem toNat_depth_succ (holds : tree.Holds genesis imported)
    (attachable : tree.Attachable block parent) (room : imported.length + 1 < UInt32.size) :
    (parent.depth + 1).toNat = parent.depth.toNat + 1 := by
  have bound := holds.depth_le _ _ (depth?_of_get? attachable.stored)
  have one : (1 : UInt32).toNat = 1 := rfl
  rw [UInt32.toNat_add, one]
  exact Nat.mod_eq_of_lt (by change _ < UInt32.size; omega)

theorem attach (holds : tree.Holds genesis imported)
    (attachable : tree.Attachable block parent) (isNewBest : Bool)
    (room : imported.length + 1 < UInt32.size) :
    (tree.attach block.hash block parent isNewBest).Holds genesis (imported ++ [block]) := by
  have membersEq : members genesis (imported ++ [block]) = members genesis imported ++ [block] :=
    rfl
  have successor := holds.toNat_depth_succ attachable room
  have parentDepth := depth?_of_get? attachable.stored
  have parentKept :
      (tree.attach block.hash block parent isNewBest).depth? block.header.parentHash =
        some parent.depth :=
    depth?_attach_of_stored attachable isNewBest parentDepth
  have newDepth : (tree.attach block.hash block parent isNewBest).depth? block.hash =
      some (parent.depth + 1) := by
    rw [depth?_attach attachable, if_pos rfl]
  constructor
  case block?_eq_some_iff =>
    intro hash other
    rw [block?_attach attachable, membersEq, List.mem_append, List.mem_singleton]
    constructor
    · intro stored
      split at stored
      · next same => cases stored; exact ⟨.inr rfl, same⟩
      · obtain ⟨member, same⟩ := (holds.block?_eq_some_iff hash other).mp stored
        exact ⟨.inl member, same⟩
    · rintro ⟨member | rfl, rfl⟩
      · rw [if_neg (holds.hash_ne attachable member)]
        exact (holds.block?_eq_some_iff _ other).mpr ⟨member, rfl⟩
      · exact if_pos rfl
  case nodup =>
    rw [membersEq, List.map_append, List.nodup_append]
    refine ⟨holds.nodup, List.pairwise_singleton .., ?_⟩
    intro old oldMember new newMember
    obtain ⟨other, member, rfl⟩ := List.mem_map.mp oldMember
    obtain rfl := List.mem_singleton.mp newMember
    exact (holds.hash_ne attachable member).symm
  case size => rw [size_attach attachable, holds.size, List.length_append]; rfl
  case depth_genesis => exact depth?_attach_of_stored attachable isNewBest holds.depth_genesis
  case depth_parent =>
    intro other member
    rcases List.mem_append.mp member with old | new
    · obtain ⟨below, depth, belowEq, depthEq, step⟩ := holds.depth_parent other old
      refine ⟨below, depth, ?_, ?_, step⟩
      · exact depth?_attach_of_stored attachable isNewBest belowEq
      · exact depth?_attach_of_stored attachable isNewBest depthEq
    · obtain rfl := List.mem_singleton.mp new
      exact ⟨_, _, parentKept, newDepth, successor⟩
  case depth_le =>
    intro hash depth stored
    rw [depth?_attach attachable] at stored
    rw [List.length_append, List.length_singleton]
    split at stored
    · cases stored
      have bound := holds.depth_le _ _ parentDepth
      omega
    · exact Nat.le_succ_of_le (holds.depth_le hash depth stored)
  case children =>
    intro hash
    rw [children_attach attachable, holds.children, List.filter_append, List.map_append]
    by_cases above : block.header.parentHash = hash <;> simp [above]
  case atDepth =>
    intro depth
    have kept : (members genesis imported).filter
          (fun other => (tree.attach block.hash block parent isNewBest).depth? other.hash =
            some depth) =
        (members genesis imported).filter fun other => tree.depth? other.hash = some depth := by
      apply List.filter_congr
      intro other member
      rw [holds.depth?_attach_of_mem attachable isNewBest member]
    rw [atDepth_attach, holds.atDepth, membersEq, List.filter_append, List.map_append, kept]
    by_cases here : parent.depth + 1 = depth <;> simp [newDepth, here]
  case best =>
    rw [best_attach, contains_attach attachable]
    cases isNewBest <;> simp [holds.best]

end Attach

/-! ## What the invariant gives -/

section Consequences

variable {hash : Hash} {depth : UInt32}

/-- What is stored is the genesis block, at depth zero, or an imported block, one deeper than its
parent. -/
theorem depth_cases (holds : tree.Holds genesis imported)
    (stored : tree.depth? hash = some depth) :
    (hash = genesis.hash ∧ depth = 0) ∨
    ∃ block ∈ imported, block.hash = hash ∧ tree.block? hash = some block ∧
      ∃ parentDepth, tree.depth? block.header.parentHash = some parentDepth ∧
        depth.toNat = parentDepth.toNat + 1 := by
  have known : (tree.block? hash).isSome = true := by
    rw [← contains_eq_isSome_block?, contains_eq_isSome_depth?, stored]
    rfl
  obtain ⟨block, found⟩ := Option.isSome_iff_exists.mp known
  obtain ⟨member, same⟩ := (holds.block?_eq_some_iff hash block).mp found
  rcases List.mem_cons.mp member with rfl | member
  · left
    rw [Block.hash_mk] at same
    rw [← same, holds.depth_genesis] at stored
    cases stored
    exact ⟨same.symm, rfl⟩
  · right
    obtain ⟨below, _, parentStored, here, step⟩ := holds.depth_parent block member
    rw [same, stored] at here
    cases here
    exact ⟨block, member, same, found, below, parentStored, step⟩

/-- Following parents from a stored block reaches the genesis block after as many steps as the
block is deep. -/
theorem exists_branch (holds : tree.Holds genesis imported)
    (stored : tree.depth? hash = some depth) :
    ∃ path, tree.Branch genesis.hash hash path ∧ path.length = depth.toNat := by
  generalize steps : depth.toNat = count
  induction count generalizing hash depth with
  | zero =>
      rcases holds.depth_cases stored with ⟨rfl, _⟩ | ⟨_, _, _, _, _, _, step⟩
      · exact ⟨[], .root holds.root, rfl⟩
      · omega
  | succ count inductionHypothesis =>
      rcases holds.depth_cases stored with
        ⟨_, rfl⟩ | ⟨block, _, _, found, below, parentStored, step⟩
      · cases steps
      · have notGenesis : hash ≠ genesis.hash := by
          rintro rfl
          rw [holds.depth_genesis] at stored
          cases stored
          cases steps
        obtain ⟨path, branch, length⟩ := inductionHypothesis parentStored (by omega)
        refine ⟨path ++ [block], .child found notGenesis branch, ?_⟩
        rw [List.length_append, length]
        rfl

theorem exists_branch_best (holds : tree.Holds genesis imported) :
    ∃ path, tree.Branch genesis.hash tree.best path ∧ path.length < UInt32.size := by
  have stored := holds.best
  rw [contains_eq_isSome_depth?] at stored
  obtain ⟨depth, stored⟩ := Option.isSome_iff_exists.mp stored
  obtain ⟨path, branch, length⟩ := holds.exists_branch stored
  exact ⟨path, branch, length ▸ depth.toNat_lt⟩

theorem nodup_atDepth (holds : tree.Holds genesis imported) (depth : UInt32) :
    (tree.atDepth depth).Nodup := by
  rw [holds.atDepth]
  exact holds.nodup.sublist (List.filter_sublist.map _)

theorem nodup_children (holds : tree.Holds genesis imported) (hash : Hash) :
    (tree.children hash).Nodup := by
  rw [holds.children]
  have all := holds.nodup
  rw [members, List.map_cons] at all
  exact all.of_cons.sublist (List.filter_sublist.map _)

/-- Nothing but the genesis block lies at depth zero. -/
theorem atDepth_zero (holds : tree.Holds genesis imported) :
    tree.atDepth 0 = [genesis.hash] := by
  have deeper : imported.filter (fun block => tree.depth? block.hash = some 0) = [] := by
    apply List.filter_eq_nil_iff.mpr
    intro block member
    obtain ⟨_, depth, _, here, step⟩ := holds.depth_parent block member
    rw [decide_eq_true_iff, here]
    rintro zero
    cases zero
    cases step
  rw [holds.atDepth, members, List.filter_cons_of_pos, deeper]
  · rfl
  · rw [decide_eq_true_iff, Block.hash_mk, holds.depth_genesis]

theorem genesis?_eq (holds : tree.Holds genesis imported) : tree.genesis? = some genesis.hash := by
  have bottom := holds.atDepth_zero
  rw [ForkTree.atDepth] at bottom
  cases found : tree.levels.get? 0 with
  | none => rw [found] at bottom; cases bottom
  | some level =>
      rw [found] at bottom
      simp only [Option.getD_some] at bottom
      simp [genesis?, found, bottom]

theorem bestHeader?_isSome (holds : tree.Holds genesis imported) :
    tree.bestHeader?.isSome = true := by
  have known := holds.best
  rw [contains_eq_isSome_block?] at known
  rwa [bestHeader?, header?, Option.isSome_map]

end Consequences

end Holds

/-! ## Later trees -/

/-- Extrinsics submitted and blocks attached to the tree make it the later one. -/
inductive GrowsInto (tree : ForkTree) : ForkTree → Prop where
  | same : GrowsInto tree tree
  | submit {later : ForkTree} (grows : GrowsInto tree later) (extrinsic : Extrinsic) :
      GrowsInto tree (later.submit extrinsic)
  | attach {later : ForkTree} {block : Block} {parent : Entry} (grows : GrowsInto tree later)
      (attachable : later.Attachable block parent) (isNewBest : Bool) :
      GrowsInto tree (later.attach block.hash block parent isNewBest)

namespace GrowsInto

variable {tree middle later : ForkTree}

theorem trans (one : tree.GrowsInto middle) (two : middle.GrowsInto later) :
    tree.GrowsInto later := by
  induction two with
  | same => exact one
  | submit _ extrinsic inductionHypothesis => exact inductionHypothesis.submit extrinsic
  | attach _ attachable isNewBest inductionHypothesis =>
      exact inductionHypothesis.attach attachable isNewBest

theorem importBlock (tree : ForkTree) (request : ImportRequest) :
    tree.GrowsInto ((storeRequest request).run.run tree).2 := by
  rcases tree.run_storeRequest_cases request with
    ⟨_, _, ran⟩ | ⟨_, isNewBest, attachable, _, _, ran⟩
  · rw [ran]
    exact .same
  · rw [ran]
    exact .attach .same attachable isNewBest

theorem submitAll (tree : ForkTree) (extrinsics : List Extrinsic) :
    tree.GrowsInto (tree.submitAll extrinsics) := by
  induction extrinsics generalizing tree with
  | nil => exact .same
  | cons extrinsic rest inductionHypothesis =>
      have first : tree.GrowsInto (tree.submit extrinsic) := .submit .same extrinsic
      exact first.trans (inductionHypothesis (tree.submit extrinsic))

theorem ownHashes (grows : tree.GrowsInto later) (own : tree.OwnHashes) : later.OwnHashes := by
  induction grows with
  | same => exact own
  | submit _ _ inductionHypothesis => exact inductionHypothesis
  | attach _ attachable isNewBest inductionHypothesis =>
      intro hash stored found
      rw [block?_attach attachable] at found
      split at found
      · next same =>
          cases found
          exact same
      · exact inductionHypothesis hash stored found

/-- As long as no more than `2 ^ 32` blocks are stored, a tree stays a tree. -/
theorem exists_holds {genesis : Header} {before : List Block} (grows : tree.GrowsInto later)
    (holds : tree.Holds genesis before) (few : later.size ≤ UInt32.size) :
    ∃ imported, later.Holds genesis imported := by
  induction grows with
  | same => exact ⟨before, holds⟩
  | submit _ extrinsic inductionHypothesis =>
      obtain ⟨imported, held⟩ := inductionHypothesis few
      exact ⟨imported, held.submit extrinsic⟩
  | attach _ attachable isNewBest inductionHypothesis =>
      rw [size_attach attachable] at few
      obtain ⟨imported, held⟩ := inductionHypothesis (Nat.le_of_succ_le few)
      have size := held.size
      exact ⟨_, held.attach attachable isNewBest (by omega)⟩

end GrowsInto

end Authorship.ForkTree
