/-
Module: Authorship.Proofs.ForkTree.Longest
Purpose: Trees whose imports preferred the longest chain. A block on the best one becomes the best
  one, as long as depths have room and the hash of its header tells it from the stored ones.
Main exports: ForkTree.Adds, ForkTree.insert_ok_cases, ForkTree.GrowsInto.depth?_succ,
  ForkTree.HasRoom, ForkTree.ToldApart, ForkTree.Preferring, ForkTree.Preferring.fresh_of_room,
  ForkTree.Preferring.insert_onBest
-/
import Authorship.Proofs.Commitment
import Authorship.Proofs.ForkTree.Best

namespace Authorship

/-- The parent's hash comes first in the binary form of a header, so it can be told from it even if
the logs are too long for their lengths to be written. -/
theorem Header.parentHash_eq_of_encode_eq {one two : Header} (same : encode one = encode two) :
    one.parentHash = two.parentHash := by
  have layout (header : Header) : ∃ rest, encode header = encode header.parentHash ++ rest := by
    simp only [encode, List.append_assoc]
    exact ⟨_, rfl⟩
  obtain ⟨oneRest, oneLayout⟩ := layout one
  obtain ⟨twoRest, twoLayout⟩ := layout two
  rw [oneLayout, twoLayout] at same
  exact (LawfulCodec.eq_of_encode_append_eq trivial trivial same).1

namespace ForkTree

variable {tree next : ForkTree} {genesis : Header} {block : Block} {outcome : ImportOutcome}

/-! ## What an import adds -/

/-- The tree grew by a block that it did not hold, which may have become the best one, and whose
extrinsics left the pool. -/
structure Adds (tree : ForkTree) (block : Block) (isNewBest : Bool) (next : ForkTree) : Prop where
  fresh : tree.contains block.hash = false
  block? : ∀ hash, next.block? hash = if block.hash = hash then some block else tree.block? hash
  best : next.best = if isNewBest then block.hash else tree.best
  pool : next.pool = prune tree.pool block.extrinsics

theorem Attachable.adds {parent : Entry} (attachable : tree.Attachable block parent)
    (isNewBest : Bool) :
    tree.Adds block isNewBest (tree.attach block.hash block parent isNewBest) where
  fresh := contains_eq_false_iff.mpr attachable.fresh
  block? := block?_attach attachable isNewBest
  best := rfl
  pool := rfl

/-- An import that does not fail finds its block stored, or attaches it. -/
theorem insert_ok_cases {choice : ForkChoice}
    (inserted : tree.insert block choice = .ok (outcome, next)) :
    (tree.contains block.hash = true ∧ outcome = .alreadyInChain ∧ next = tree) ∨
      ∃ parent, tree.Attachable block parent ∧
        outcome = .imported (tree.becomesBest (parent.depth + 1) choice) ∧
        next = tree.attach block.hash block parent
          (tree.becomesBest (parent.depth + 1) choice) := by
  rcases tree.insert_cases block choice with
    ⟨stored, known⟩ | ⟨_, _, orphan⟩ | ⟨parent, _, attachable, rfl, attached⟩
  · rw [known] at inserted
    cases inserted
    exact .inl ⟨stored, rfl, rfl⟩
  · rw [orphan] at inserted
    cases inserted
  · rw [attached] at inserted
    cases inserted
    exact .inr ⟨parent, attachable, rfl, rfl⟩

theorem insert_of_importBlock_ok {request : ImportRequest} {result : ImportOutcome × ForkTree}
    (imports : tree.importBlock request = .ok result) :
    tree.insert request.block (request.forkChoice.getD .longest) = .ok result := by
  rcases tree.importBlock_cases request with ⟨_, refused⟩ | ⟨_, inserts⟩
  · rw [refused] at imports
    cases imports
  · rw [← inserts, imports]

theorem OwnHashes.of_header? (own : tree.OwnHashes) {hash : Hash} {header : Header}
    (found : tree.header? hash = some header) : header.hash = hash := by
  obtain ⟨block, stored, rfl⟩ := Option.map_eq_some_iff.mp found
  exact own hash block stored

/-! ## What holds at any size -/

namespace GrowsInto

variable {later : ForkTree}

theorem block?_of_stored (grows : tree.GrowsInto later) {hash : Hash}
    (stored : tree.block? hash = some block) : later.block? hash = some block := by
  induction grows with
  | same => exact stored
  | submit _ _ inductionHypothesis => exact inductionHypothesis
  | attach _ attachable isNewBest inductionHypothesis =>
      exact block?_attach_of_stored attachable isNewBest inductionHypothesis

theorem block?_genesis (grows : (ofGenesis genesis).GrowsInto tree) :
    tree.block? genesis.hash = some { header := genesis } :=
  grows.block?_of_stored (by rw [block?_ofGenesis, if_pos rfl])

/-- A block above the genesis block has the depth that follows its parent's, even where depths run
over. -/
theorem depth?_succ (grows : (ofGenesis genesis).GrowsInto tree) {hash : Hash}
    (stored : tree.block? hash = some block) (notGenesis : hash ≠ genesis.hash) :
    ∃ depth, tree.depth? block.header.parentHash = some depth ∧
      tree.depth? hash = some (depth + 1) := by
  induction grows with
  | same =>
      rw [block?_ofGenesis, if_neg notGenesis.symm] at stored
      cases stored
  | submit _ _ inductionHypothesis => exact inductionHypothesis stored
  | @attach later other parent _ attachable isNewBest inductionHypothesis =>
      have kept {hash : Hash} {depth : UInt32} (found : later.depth? hash = some depth) :=
        depth?_attach_of_stored attachable isNewBest found
      rw [block?_attach attachable] at stored
      split at stored
      · next same =>
          cases stored
          refine ⟨parent.depth, kept (depth?_of_get? attachable.stored), ?_⟩
          rw [depth?_attach attachable, if_pos same]
      · obtain ⟨depth, below, here⟩ := inductionHypothesis stored
        exact ⟨depth, kept below, kept here⟩

end GrowsInto

/-- Depths do not run over above the best block. -/
def HasRoom (tree : ForkTree) : Prop :=
  ∀ depth, tree.depth? tree.best = some depth → depth.toNat + 1 < UInt32.size

theorem lt_succ_of_room {depth : UInt32} (room : depth.toNat + 1 < UInt32.size) :
    depth < depth + 1 := by
  have one : (1 : UInt32).toNat = 1 := rfl
  rw [UInt32.lt_iff_toNat_lt, UInt32.toNat_add, one, Nat.mod_eq_of_lt room]
  exact Nat.lt_succ_self _

/-! ## Headers that hashes tell apart -/

/-- The hashes tell a header from the ones that are stored, and they do not run in a circle: the
genesis block names no stored block as its parent. -/
structure ToldApart (tree : ForkTree) (genesis header : Header) : Prop where
  apart : ∀ hash stored, tree.header? hash = some stored →
    ¬ Collision (encode stored) (encode header)
  rooted : tree.contains genesis.parentHash = false

namespace ToldApart

/-- A header is told from the stored ones if none is stored under its hash. -/
theorem of_fresh {header : Header} (own : tree.OwnHashes)
    (fresh : tree.contains header.hash = false)
    (rooted : tree.contains genesis.parentHash = false) : tree.ToldApart genesis header where
  apart hash stored found := by
    intro collision
    have same : stored.hash = header.hash := congrArg Hash.mk collision.2
    obtain ⟨block, held, _⟩ := Option.map_eq_some_iff.mp found
    rw [← same, own.of_header? found, contains_eq_isSome_block?, held] at fresh
    cases fresh
  rooted := rooted

/-- What is stored under the hash of a header that can be told from it has the same parent. -/
theorem parentHash_eq {header stored : Header} {hash : Hash}
    (told : tree.ToldApart genesis header) (found : tree.header? hash = some stored)
    (same : stored.hash = header.hash) : stored.parentHash = header.parentHash := by
  have forms := (eq_or_collision_of_hash same).resolve_right (told.apart hash stored found)
  exact Header.parentHash_eq_of_encode_eq forms

end ToldApart

/-! ## The longest chain -/

/-- The tree grew from the genesis block, and its best block is a deepest one. -/
structure Preferring (tree : ForkTree) (genesis : Header) : Prop where
  grows : (ofGenesis genesis).GrowsInto tree
  deepest : tree.BestDeepest

namespace Preferring

theorem run {operations : List Operation} {history : History}
    (ran : (ofGenesis genesis).run operations = (history, tree))
    (longest : ∀ operation ∈ operations, operation.PrefersLongest) :
    tree.Preferring genesis := by
  have grows := growsInto_run (ofGenesis genesis) operations
  obtain ⟨deepest, _⟩ := best_run_of_prefersLongest (BestDeepest.ofGenesis genesis)
    (FirstDeepest.ofGenesis genesis) longest
  rw [ran] at grows deepest
  exact ⟨grows, deepest⟩

theorem submitAll (preferring : tree.Preferring genesis) (extrinsics : List Extrinsic) :
    (tree.submitAll extrinsics).Preferring genesis where
  grows := preferring.grows.trans (GrowsInto.submitAll tree extrinsics)
  deepest := preferring.deepest.submitAll extrinsics

theorem insert (preferring : tree.Preferring genesis)
    (inserted : tree.insert block .longest = .ok (outcome, next)) : next.Preferring genesis := by
  rcases insert_ok_cases inserted with ⟨_, _, rfl⟩ | ⟨parent, attachable, _, rfl⟩
  · exact preferring
  · constructor
    case grows => exact preferring.grows.attach attachable _
    case deepest => exact preferring.deepest.attach attachable

theorem ownHashes (preferring : tree.Preferring genesis) : tree.OwnHashes :=
  preferring.grows.ownHashes (Holds.ofGenesis genesis).ownHashes

theorem hasRoom (preferring : tree.Preferring genesis) (few : tree.size < UInt32.size) :
    tree.HasRoom := by
  obtain ⟨imported, holds⟩ :=
    preferring.grows.exists_holds (Holds.ofGenesis genesis) (Nat.le_of_lt few)
  intro depth stored
  have bound := holds.depth_le _ _ stored
  have size := holds.size
  omega

/-- A block on the best one would be deeper than all stored ones, so it is not stored yet if what is
stored under its hash would have to lie on the best block as well. -/
theorem fresh_of_room (preferring : tree.Preferring genesis) (room : tree.HasRoom)
    (tells : ∀ stored, tree.block? block.hash = some stored →
      block.hash ≠ genesis.hash ∧ stored.header.parentHash = tree.best) :
    tree.contains block.hash = false := by
  obtain ⟨deepest, bestDepth, bound⟩ := preferring.deepest
  cases known : tree.contains block.hash with
  | false => rfl
  | true =>
      rw [contains_eq_isSome_block?] at known
      obtain ⟨stored, found⟩ := Option.isSome_iff_exists.mp known
      obtain ⟨notGenesis, onBest⟩ := tells stored found
      -- What is stored lies one deeper than the best block, which nothing is deeper than.
      obtain ⟨depth, below, here⟩ := preferring.grows.depth?_succ found notGenesis
      rw [onBest, bestDepth] at below
      cases below
      have deeper := UInt32.lt_iff_toNat_lt.mp (lt_succ_of_room (room _ bestDepth))
      have notDeeper := UInt32.le_iff_toNat_le.mp (bound _ _ here)
      omega

/-- A block on the best one becomes the best one. -/
theorem becomesBest_onBest (preferring : tree.Preferring genesis) (room : tree.HasRoom)
    {parent : Entry} (attachable : tree.Attachable block parent)
    (onBest : block.header.parentHash = tree.best) :
    tree.becomesBest (parent.depth + 1) .longest = true := by
  obtain ⟨deepest, bestDepth, _⟩ := preferring.deepest
  have parentDepth := depth?_of_get? attachable.stored
  rw [onBest, bestDepth] at parentDepth
  cases parentDepth
  rw [becomesBest_longest bestDepth]
  exact decide_eq_true (lt_succ_of_room (room _ bestDepth))

theorem fresh_onBest (preferring : tree.Preferring genesis) (few : tree.size < UInt32.size)
    (onBest : block.header.parentHash = tree.best)
    (told : tree.ToldApart genesis block.header) : tree.contains block.hash = false := by
  apply preferring.fresh_of_room (preferring.hasRoom few)
  intro stored found
  have parent := told.parentHash_eq (header?_of_block? found)
    (preferring.ownHashes _ _ found)
  refine ⟨?_, parent.trans onBest⟩
  intro isGenesis
  rw [isGenesis, preferring.grows.block?_genesis] at found
  cases found
  obtain ⟨_, bestDepth, _⟩ := preferring.deepest
  have rooted := told.rooted
  rw [parent, onBest, contains_eq_isSome_depth?, bestDepth] at rooted
  cases rooted

theorem insert_onBest (preferring : tree.Preferring genesis) (few : tree.size < UInt32.size)
    (onBest : block.header.parentHash = tree.best)
    (told : tree.ToldApart genesis block.header)
    (inserted : tree.insert block .longest = .ok (outcome, next)) :
    outcome = .imported true ∧ next.best = block.hash := by
  have fresh := preferring.fresh_onBest few onBest told
  rcases insert_ok_cases inserted with ⟨known, _⟩ | ⟨parent, attachable, rfl, rfl⟩
  · rw [fresh] at known
    cases known
  · rw [preferring.becomesBest_onBest (preferring.hasRoom few) attachable onBest]
    exact ⟨rfl, rfl⟩

/-- A block on the best one is added and becomes the best one, unless it is the genesis block come
back, if no other header is stored under its hash. -/
theorem adds_onBest (preferring : tree.Preferring genesis) (room : tree.HasRoom)
    (onBest : block.header.parentHash = tree.best) (notGenesis : block.header ≠ genesis)
    (apart : ∀ hash stored, tree.header? hash = some stored → stored.hash = block.hash →
      stored = block.header)
    (inserted : tree.insert block .longest = .ok (outcome, next)) :
    outcome = .imported true ∧ tree.Adds block true next := by
  have fresh : tree.contains block.hash = false := by
    apply preferring.fresh_of_room room
    intro stored found
    have same : stored.header = block.header :=
      apart _ _ (header?_of_block? found) (preferring.ownHashes _ _ found)
    refine ⟨?_, by rw [same, onBest]⟩
    intro isGenesis
    rw [isGenesis, preferring.grows.block?_genesis] at found
    cases found
    exact notGenesis same.symm
  rcases insert_ok_cases inserted with ⟨known, _⟩ | ⟨parent, attachable, rfl, rfl⟩
  · rw [fresh] at known
    cases known
  · rw [preferring.becomesBest_onBest room attachable onBest]
    exact ⟨rfl, attachable.adds true⟩

end Preferring

end ForkTree

end Authorship
