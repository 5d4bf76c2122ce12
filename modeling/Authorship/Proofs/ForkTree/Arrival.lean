/-
Module: Authorship.Proofs.ForkTree.Arrival
Purpose: The order in which blocks arrive. Blocks that come after their parents are all imported,
  and two orders of the same blocks grow trees that differ in the order of their lists at most:
  blocks, depths and the pool are the same, and the best block is a deepest one in both.
Main exports: ForkTree.ParentsFirst, ForkTree.insertions, ForkTree.Grown, ForkTree.Alike,
  ForkTree.alike_run_insertions
-/
import Authorship.Proofs.ForkTree.Best
import Authorship.Proofs.ForkTree.Pool

namespace Authorship.ForkTree

theorem Holds.submitAll {tree : ForkTree} {genesis : Header} {imported : List Block}
    (holds : tree.Holds genesis imported) (extrinsics : List Extrinsic) :
    (tree.submitAll extrinsics).Holds genesis imported := by
  induction extrinsics generalizing tree with
  | nil => exact holds
  | cons extrinsic rest inductionHypothesis => exact inductionHypothesis (holds.submit extrinsic)

/-- Where no two blocks have one hash, a block has the hash of none before it. -/
theorem hash_not_mem_members {genesis : Header} {before rest : List Block} {block : Block}
    (distinct : ((members genesis (before ++ [block] ++ rest)).map Block.hash).Nodup) :
    block.hash ∉ (members genesis before).map Block.hash := by
  have split : members genesis (before ++ [block] ++ rest) =
      members genesis before ++ ([block] ++ rest) := by
    simp [members]
  rw [split, List.map_append, List.nodup_append] at distinct
  intro earlier
  exact distinct.2.2 _ earlier _ (List.mem_map_of_mem (List.mem_append_left _ List.mem_cons_self))
    rfl

/-! ## Blocks in an order in which they can arrive -/

/-- Each block comes after its parent, unless the parent is known beforehand. -/
def ParentsFirst (known : List Hash) : List Block → Prop
  | [] => True
  | block :: rest => block.header.parentHash ∈ known ∧ ParentsFirst (block.hash :: known) rest

instance decidableParentsFirst : (known : List Hash) → (blocks : List Block) →
    Decidable (ParentsFirst known blocks)
  | _, [] => isTrue trivial
  | known, block :: rest =>
    have := decidableParentsFirst (block.hash :: known) rest
    inferInstanceAs (Decidable (_ ∧ _))

/-- Insert blocks one after the other; the deepest is to be the best. -/
def insertions (blocks : List Block) : List Operation :=
  blocks.map fun block => .insert block .longest

/-- Every one of the blocks was inserted, in order, and each was imported. -/
def AllImported (blocks : List Block) (history : History) : Prop :=
  history.map Prod.fst = insertions blocks ∧ ∀ entry ∈ history, entry.2.isImported = true

/-- A tree that grew from another one by blocks alone. -/
structure Grown (start : ForkTree) (genesis : Header) (blocks : List Block) (tree : ForkTree) :
    Prop where
  holds : tree.Holds genesis blocks
  best : tree.BestDeepest
  pool : tree.pool = prune start.pool (blocks.flatMap Block.extrinsics)

section Insertions

variable {start tree : ForkTree} {genesis : Header} {before : List Block} {block : Block}

/-- A block that is not stored and has a stored parent is imported. -/
theorem Grown.insert (grown : Grown start genesis before tree)
    (fresh : tree.contains block.hash = false)
    (hasParent : tree.contains block.header.parentHash = true)
    (room : before.length + 1 < UInt32.size) :
    ∃ isNewBest next,
      tree.perform (.insert block .longest) = (.settled (.ok (.imported isNewBest)), next) ∧
      Grown start genesis (before ++ [block]) next ∧
      ∀ hash, next.contains hash = (decide (block.hash = hash) || tree.contains hash) := by
  rcases tree.insert_cases block .longest with
    ⟨known, _⟩ | ⟨_, orphan, _⟩ | ⟨parent, isNewBest, attachable, becomes, inserted⟩
  · rw [fresh] at known
    cases known
  · rw [hasParent] at orphan
    cases orphan
  · refine ⟨isNewBest, tree.attach block.hash block parent isNewBest, ?_, ⟨?_, ?_, ?_⟩, ?_⟩
    · rw [perform, run_store_ok inserted]
    · exact grown.holds.attach attachable isNewBest room
    · rw [becomes]
      exact grown.best.attach attachable
    · rw [pool_attach, grown.pool, List.flatMap_append, prune_append, List.flatMap_singleton]
    · exact contains_attach attachable isNewBest

/-- Blocks that come after their parents are imported, all of them. -/
theorem Grown.run_insertions {blocks : List Block} {known : List Hash}
    (grown : Grown start genesis before tree)
    (distinct : ((members genesis (before ++ blocks)).map Block.hash).Nodup)
    (ordered : ParentsFirst known blocks)
    (knows : ∀ hash ∈ known, tree.contains hash = true)
    (room : (before ++ blocks).length < UInt32.size) :
    AllImported blocks (tree.run (insertions blocks)).1 ∧
      Grown start genesis (before ++ blocks) (tree.run (insertions blocks)).2 := by
  induction blocks generalizing tree before known with
  | nil =>
      rw [List.append_nil]
      exact ⟨⟨rfl, by simp [insertions, run]⟩, grown⟩
  | cons block rest inductionHypothesis =>
      obtain ⟨parentKnown, restOrdered⟩ := ordered
      rw [List.append_cons] at distinct room ⊢
      have fresh : tree.contains block.hash = false :=
        grown.holds.contains_eq_false (hash_not_mem_members distinct)
      have roomHere : before.length + 1 < UInt32.size := by
        simp only [List.length_append, List.length_singleton] at room
        omega
      obtain ⟨isNewBest, next, performed, grownNext, contains⟩ :=
        grown.insert fresh (knows _ parentKnown) roomHere
      have knowsNext : ∀ hash ∈ block.hash :: known, next.contains hash = true := by
        intro hash member
        rw [contains, Bool.or_eq_true, decide_eq_true_iff]
        rcases List.mem_cons.mp member with rfl | old
        · exact .inl rfl
        · exact .inr (knows hash old)
      obtain ⟨importedRest, grownRest⟩ :=
        inductionHypothesis grownNext distinct restOrdered knowsNext room
      have stepped : tree.run (insertions (block :: rest)) =
          ((.insert block .longest, .settled (.ok (.imported isNewBest))) ::
            (next.run (insertions rest)).1, (next.run (insertions rest)).2) := by
        simp only [insertions, List.map_cons, run, performed]
      rw [stepped]
      refine ⟨⟨?_, ?_⟩, grownRest⟩
      · rw [List.map_cons, importedRest.1]
        rfl
      · intro entry member
        rcases List.mem_cons.mp member with rfl | later
        · rfl
        · exact importedRest.2 entry later

/-- A fresh tree with a pool. -/
theorem grown_run_insertions {blocks : List Block} (pool : List Extrinsic)
    (distinct : ((members genesis blocks).map Block.hash).Nodup)
    (ordered : ParentsFirst [genesis.hash] blocks) (few : blocks.length < 2 ^ 32) :
    AllImported blocks (((ofGenesis genesis).submitAll pool).run (insertions blocks)).1 ∧
      Grown ((ofGenesis genesis).submitAll pool) genesis blocks
        (((ofGenesis genesis).submitAll pool).run (insertions blocks)).2 := by
  have fresh : Grown ((ofGenesis genesis).submitAll pool) genesis []
      ((ofGenesis genesis).submitAll pool) :=
    ⟨(Holds.ofGenesis genesis).submitAll pool, (BestDeepest.ofGenesis genesis).submitAll pool, rfl⟩
  refine fresh.run_insertions distinct ordered ?_ few
  intro hash member
  obtain rfl := List.mem_singleton.mp member
  exact fresh.holds.root

end Insertions

/-! ## Two orders of the same blocks -/

section TwoOrders

variable {left right : ForkTree} {genesis : Header} {one two : List Block}

theorem Holds.block?_eq_of_perm (holdsOne : left.Holds genesis one)
    (holdsTwo : right.Holds genesis two) (same : one.Perm two) (hash : Hash) :
    left.block? hash = right.block? hash := by
  apply Option.ext
  intro block
  rw [holdsOne.block?_eq_some_iff, holdsTwo.block?_eq_some_iff, members, members,
    (same.cons _).mem_iff]

/-- The depth of a block is that of its parent and one more, down to the genesis block, so it is the
same in any tree that holds the same blocks. -/
theorem Holds.depth?_of_perm (holdsOne : left.Holds genesis one)
    (holdsTwo : right.Holds genesis two) (same : one.Perm two) {hash : Hash} {depth : UInt32}
    (stored : left.depth? hash = some depth) : right.depth? hash = some depth := by
  generalize steps : depth.toNat = count
  induction count using Nat.strongRecOn generalizing hash depth with
  | ind count inductionHypothesis =>
      rcases holdsOne.depth_cases stored with
        ⟨rfl, rfl⟩ | ⟨block, member, rfl, _, below, parentStored, step⟩
      · exact holdsTwo.depth_genesis
      · obtain ⟨otherBelow, other, otherParent, here, otherStep⟩ :=
          holdsTwo.depth_parent block (same.mem_iff.mp member)
        have parentSame := inductionHypothesis below.toNat (by omega) parentStored rfl
        rw [otherParent, Option.some.injEq] at parentSame
        rw [here, Option.some.injEq, ← UInt32.toNat_inj, otherStep, step, parentSame]

theorem Holds.depth?_eq_of_perm (holdsOne : left.Holds genesis one)
    (holdsTwo : right.Holds genesis two) (same : one.Perm two) (hash : Hash) :
    left.depth? hash = right.depth? hash := by
  apply Option.ext
  intro depth
  exact ⟨holdsOne.depth?_of_perm holdsTwo same, holdsTwo.depth?_of_perm holdsOne same.symm⟩

theorem Holds.children_perm (holdsOne : left.Holds genesis one)
    (holdsTwo : right.Holds genesis two) (same : one.Perm two) (hash : Hash) :
    (left.children hash).Perm (right.children hash) := by
  rw [holdsOne.children, holdsTwo.children]
  exact (same.filter _).map _

theorem Holds.atDepth_perm (holdsOne : left.Holds genesis one)
    (holdsTwo : right.Holds genesis two) (same : one.Perm two) (depth : UInt32) :
    (left.atDepth depth).Perm (right.atDepth depth) := by
  rw [holdsOne.atDepth, holdsTwo.atDepth]
  simp only [holdsOne.depth?_eq_of_perm holdsTwo same]
  exact ((same.cons _).filter _).map _

/-- The trees store the same blocks at the same depths above a pool that is the same. They differ in
the order of their lists at most, and in which of several deepest blocks is the best one. -/
structure Alike (left right : ForkTree) : Prop where
  block? : ∀ hash, left.block? hash = right.block? hash
  depth? : ∀ hash, left.depth? hash = right.depth? hash
  children : ∀ hash, (left.children hash).Perm (right.children hash)
  atDepth : ∀ depth, (left.atDepth depth).Perm (right.atDepth depth)
  /-- The best blocks are as deep as each other, and none is deeper. -/
  best : ∃ deepest, left.depth? left.best = some deepest ∧
    right.depth? right.best = some deepest ∧
    ∀ hash depth, left.depth? hash = some depth → depth ≤ deepest
  /-- Where only one block is as deep as the best one, it is the best one in both. -/
  best_eq : (∀ hash, left.depth? hash = left.depth? left.best → hash = left.best) →
    right.best = left.best
  pool : left.pool = right.pool

/-- Blocks that are the same apart from their order grow trees that are alike. -/
theorem Grown.alike {start : ForkTree} (grownOne : Grown start genesis one left)
    (grownTwo : Grown start genesis two right) (same : one.Perm two) : left.Alike right := by
  have depths := grownOne.holds.depth?_eq_of_perm grownTwo.holds same
  obtain ⟨leftDeepest, leftBest, leftBound⟩ := grownOne.best
  obtain ⟨rightDeepest, rightBest, rightBound⟩ := grownTwo.best
  have deepest : rightDeepest = leftDeepest := by
    apply UInt32.le_antisymm
    · exact leftBound right.best rightDeepest (by rw [depths, rightBest])
    · exact rightBound left.best leftDeepest (by rw [← depths, leftBest])
  subst deepest
  constructor
  case block? => exact grownOne.holds.block?_eq_of_perm grownTwo.holds same
  case depth? => exact depths
  case children => exact grownOne.holds.children_perm grownTwo.holds same
  case atDepth => exact grownOne.holds.atDepth_perm grownTwo.holds same
  case best => exact ⟨rightDeepest, leftBest, rightBest, leftBound⟩
  case best_eq =>
    intro unique
    exact unique right.best (by rw [depths, rightBest, leftBest])
  case pool =>
    rw [grownOne.pool, grownTwo.pool]
    exact prune_perm _ (same.flatMap_right _)

/-- However blocks arrive, as long as each comes after its parent, all of them are imported and the
tree in the end is the same but for the order of its lists and the choice among several deepest
blocks. -/
theorem alike_run_insertions {pool : List Extrinsic} {oneHistory twoHistory : History}
    (same : one.Perm two) (few : one.length < 2 ^ 32)
    (distinct : ((members genesis one).map Block.hash).Nodup)
    (oneOrdered : ParentsFirst [genesis.hash] one)
    (twoOrdered : ParentsFirst [genesis.hash] two)
    (oneRan : ((ofGenesis genesis).submitAll pool).run (insertions one) = (oneHistory, left))
    (twoRan : ((ofGenesis genesis).submitAll pool).run (insertions two) = (twoHistory, right)) :
    AllImported one oneHistory ∧ AllImported two twoHistory ∧ left.Alike right := by
  have twoFew : two.length < 2 ^ 32 := by rw [← same.length_eq]; exact few
  have twoDistinct : ((members genesis two).map Block.hash).Nodup :=
    ((same.cons _).map _).nodup_iff.mp distinct
  obtain ⟨oneImported, oneGrown⟩ := grown_run_insertions pool distinct oneOrdered few
  obtain ⟨twoImported, twoGrown⟩ := grown_run_insertions pool twoDistinct twoOrdered twoFew
  rw [oneRan] at oneImported oneGrown
  rw [twoRan] at twoImported twoGrown
  exact ⟨oneImported, twoImported, oneGrown.alike twoGrown same⟩

end TwoOrders

private def stem : Block :=
  { header := { parentHash := ({} : Header).hash, number := 1 }, extrinsics := [[7]] }

private def twig : Block :=
  { header := { parentHash := ({} : Header).hash, number := 2 }, extrinsics := [[8], [9]] }

private def leaf : Block :=
  { header := { parentHash := stem.hash, number := 2 }, extrinsics := [[7], [7]] }

/-- A fork whose blocks share an extrinsic that waits more than once. -/
theorem alike_run_insertions_fork :
    ([stem, twig, leaf].length < 2 ^ 32 ∧
      ((members {} [stem, twig, leaf]).map Block.hash).Nodup ∧
      ParentsFirst [({} : Header).hash] [stem, twig, leaf] ∧
      ParentsFirst [({} : Header).hash] [twig, stem, leaf]) ∧
    (((ofGenesis {}).submitAll [[7], [8], [7]]).run (insertions [stem, twig, leaf])).2.Alike
      (((ofGenesis {}).submitAll [[7], [8], [7]]).run (insertions [twig, stem, leaf])).2 := by
  have distinct : ((members {} [stem, twig, leaf]).map Block.hash).Nodup := by decide +kernel
  have one : ParentsFirst [({} : Header).hash] [stem, twig, leaf] := by decide +kernel
  have two : ParentsFirst [({} : Header).hash] [twig, stem, leaf] := by decide +kernel
  refine ⟨⟨by decide, distinct, one, two⟩, ?_⟩
  exact (alike_run_insertions (.swap twig stem [leaf]) (by decide) distinct one two
    (Prod.eta _).symm (Prod.eta _).symm).2.2

end Authorship.ForkTree
