/-
Module: Authorship.Proofs.ForkTree.Pool
Purpose: What blocks take from the pool. A proposal takes a stretch at its head and leaves it there;
  an import takes as many copies of each extrinsic as its block has, the earliest ones, and nothing
  else.
Main exports: ForkTree.prune_perm, ForkTree.count_prune, ForkTree.unserved,
  ForkTree.prune_eq_unserved, ForkTree.LongestWithin, ForkTree.longestWithin_ready,
  ForkTree.count_ready_le, ForkTree.copies
-/
import Mathlib.Data.List.Count
import Authorship.Consensus.ForkTree

namespace Authorship.ForkTree

/-! ## Pruning -/

/-- Dropping extrinsics one after the other leaves the same pool in any order, repeated ones
included. -/
theorem prune_perm (pool : List Extrinsic) {included other : List Extrinsic}
    (same : included.Perm other) : prune pool included = prune pool other := by
  induction same generalizing pool with
  | nil => rfl
  | cons first _ inductionHypothesis => exact inductionHypothesis (pool.erase first)
  | swap first second rest =>
      rw [prune, prune, List.foldl_cons, List.foldl_cons, List.foldl_cons, List.foldl_cons,
        List.erase_comm]
  | trans _ _ one two => exact (one pool).trans (two pool)

theorem prune_append (pool one two : List Extrinsic) :
    prune pool (one ++ two) = prune (prune pool one) two :=
  List.foldl_append

theorem count_prune (pool included : List Extrinsic) (extrinsic : Extrinsic) :
    (prune pool included).count extrinsic =
      pool.count extrinsic - included.count extrinsic := by
  rw [prune, ← List.diff_eq_foldl, List.count_diff]

theorem prune_sublist (pool included : List Extrinsic) : (prune pool included).Sublist pool := by
  rw [prune, ← List.diff_eq_foldl]
  exact List.diff_sublist _ _

/-- The extrinsics of a pool that come after as many copies of themselves as are included. -/
def unserved (pool included : List Extrinsic) : List Extrinsic :=
  (pool.zipIdx.filter fun (extrinsic, index) =>
    included.count extrinsic ≤ (pool.take index).count extrinsic).map Prod.fst

/-- What comes first uses up one of the included copies of it. -/
theorem unserved_cons (first : Extrinsic) (pool included : List Extrinsic) :
    unserved (first :: pool) included =
      if first ∈ included then unserved pool (included.erase first)
      else first :: unserved pool included := by
  have shifted (extrinsic : Extrinsic) (index : Nat) :
      included.count extrinsic ≤ ((first :: pool).take (index + 1)).count extrinsic ↔
        (included.erase first).count extrinsic ≤ (pool.take index).count extrinsic := by
    rw [List.take_succ_cons, List.count_cons, List.count_erase]
    omega
  have later : ((pool.zipIdx 1).filter fun (extrinsic, index) =>
      included.count extrinsic ≤ ((first :: pool).take index).count extrinsic).map Prod.fst =
        unserved pool (included.erase first) := by
    rw [List.zipIdx_succ, List.filter_map, List.map_map, unserved]
    simp only [Function.comp_def, shifted]
  rw [unserved, List.zipIdx_cons, List.filter_cons]
  by_cases member : first ∈ included
  · rw [if_neg (by simpa [List.count_eq_zero] using member), if_pos member]
    exact later
  · rw [List.erase_of_not_mem member] at later
    rw [if_pos (by simpa [List.count_eq_zero] using member), if_neg member, List.map_cons]
    exact congrArg (first :: ·) later

/-- Dropping one included extrinsic after the other drops the earliest copies. -/
theorem prune_eq_unserved (pool included : List Extrinsic) :
    prune pool included = unserved pool included := by
  rw [prune, ← List.diff_eq_foldl]
  induction pool generalizing included with
  | nil => rw [List.nil_diff]; rfl
  | cons first rest inductionHypothesis =>
      rw [List.cons_diff, unserved_cons, inductionHypothesis, inductionHypothesis]

/-- Dropping what stands at the head of the pool drops just this, also if the rest has more copies
of it. -/
theorem prune_append_self (taken rest : List Extrinsic) : prune (taken ++ rest) taken = rest := by
  induction taken with
  | nil => rfl
  | cons first taken inductionHypothesis =>
      rw [prune, List.foldl_cons, List.cons_append, List.erase_cons_head]
      exact inductionHypothesis

/-! ## Proposing -/

/-- The bytes of all extrinsics. -/
def totalLength (extrinsics : List Extrinsic) : Nat :=
  extrinsics.flatten.length

@[simp] theorem totalLength_nil : totalLength [] = 0 := rfl

@[simp] theorem totalLength_cons (first : Extrinsic) (rest : List Extrinsic) :
    totalLength (first :: rest) = first.length + totalLength rest :=
  List.length_append

/-- A limit on the length of a block, if there is one, is kept. -/
def Within (limit : Option UInt64) (extrinsics : List Extrinsic) : Prop :=
  ∀ most, limit = some most → totalLength extrinsics ≤ most.toNat

/-- Of the runs at the head of a pool that keep the limit, the longest one. -/
structure LongestWithin (limit : Option UInt64) (pool taken : List Extrinsic) : Prop where
  isPrefix : taken <+: pool
  within : Within limit taken
  longest : ∀ other, other <+: pool → Within limit other → other <+: taken

theorem LongestWithin.eq_of_none {pool taken : List Extrinsic}
    (longest : LongestWithin none pool taken) : taken = pool :=
  longest.isPrefix.eq_of_length_le
    (longest.longest pool List.prefix_rfl (fun _ impossible => nomatch impossible)).length_le

theorem fitting_isPrefix (limit : UInt64) (size : Nat) (extrinsics : List Extrinsic) :
    fitting limit size extrinsics <+: extrinsics := by
  induction extrinsics generalizing size with
  | nil => exact List.prefix_rfl
  | cons extrinsic rest inductionHypothesis =>
      rw [fitting]
      split
      · exact (List.prefix_cons_inj extrinsic).mpr (inductionHypothesis _)
      · exact List.nil_prefix

section Limited

variable {limit : UInt64} (limited : limit.toNat < UInt64.size - 1)
include limited

/-- Below the largest limit, lengths saturate only above it. -/
theorem fitting_cons (size : Nat) (first : Extrinsic) (rest : List Extrinsic) :
    fitting limit size (first :: rest) =
      if size + first.length ≤ limit.toNat then
        first :: fitting limit (size + first.length) rest
      else [] := by
  rw [fitting]
  by_cases fits : size + first.length ≤ limit.toNat
  · have exact : min (size + first.length) (UInt64.size - 1) = size + first.length := by omega
    rw [exact]
  · rw [if_neg fits, if_neg (by omega)]

theorem totalLength_fitting_le {size : Nat} (least : size ≤ limit.toNat) (pool : List Extrinsic) :
    size + totalLength (fitting limit size pool) ≤ limit.toNat := by
  induction pool generalizing size with
  | nil => exact least
  | cons first rest inductionHypothesis =>
      rw [fitting_cons limited]
      split
      · next fits =>
          rw [totalLength_cons, ← Nat.add_assoc]
          exact inductionHypothesis fits
      · exact least

theorem isPrefix_fitting {size : Nat} {pool other : List Extrinsic} (before : other <+: pool)
    (fits : size + totalLength other ≤ limit.toNat) : other <+: fitting limit size pool := by
  induction pool generalizing size other with
  | nil => exact before
  | cons first rest inductionHypothesis =>
      cases other with
      | nil => exact List.nil_prefix
      | cons head more =>
          obtain ⟨rfl, later⟩ := List.cons_prefix_cons.mp before
          rw [totalLength_cons, ← Nat.add_assoc] at fits
          rw [fitting_cons limited, if_pos (Nat.le_of_add_right_le fits)]
          exact (List.prefix_cons_inj head).mpr (inductionHypothesis later fits)

end Limited

/-- Without a limit a block takes all that the pool offers. -/
theorem ready_none (tree : ForkTree) : tree.ready none = tree.pool := by
  have all : ∀ pool size, fitting (UInt64.ofNat (UInt64.size - 1)) size pool = pool := by
    intro pool
    induction pool with
    | nil => exact fun _ => rfl
    | cons extrinsic rest inductionHypothesis =>
        intro size
        unfold fitting
        have fits : min (size + extrinsic.length) (UInt64.size - 1) ≤
            (UInt64.ofNat (UInt64.size - 1)).toNat := Nat.min_le_right _ _
        rw [if_pos fits, inductionHypothesis]
  exact all tree.pool 0

/-- A proposal takes the longest run at the head of the pool that keeps the limit. The largest limit
is none. -/
theorem longestWithin_ready (tree : ForkTree) {limit : Option UInt64}
    (limited : ∀ most, limit = some most → most.toNat < UInt64.size - 1) :
    LongestWithin limit tree.pool (tree.ready limit) := by
  cases limit with
  | none =>
      rw [ready_none]
      exact ⟨List.prefix_rfl, (fun _ impossible => nomatch impossible), fun _ before _ => before⟩
  | some most =>
      have below := limited most rfl
      refine ⟨fitting_isPrefix _ _ _, ?_, ?_⟩
      · intro other same
        cases same
        have kept := totalLength_fitting_le below (Nat.zero_le _) tree.pool
        rwa [Nat.zero_add] at kept
      · intro other before within
        have kept := within most rfl
        exact isPrefix_fitting below before (by rwa [Nat.zero_add])

/-- A proposal takes no more copies than wait in the pool. -/
theorem count_ready_le (tree : ForkTree) (limit : Option UInt64) (extrinsic : Extrinsic) :
    (tree.ready limit).count extrinsic ≤ tree.pool.count extrinsic :=
  (fitting_isPrefix _ _ _).sublist.count_le extrinsic

/-! ## Blocks -/

/-- The copies of an extrinsic in the blocks of a branch. -/
def copies (extrinsic : Extrinsic) (path : List Block) : Nat :=
  (path.flatMap Block.extrinsics).count extrinsic

@[simp] theorem copies_nil (extrinsic : Extrinsic) : copies extrinsic [] = 0 := rfl

theorem copies_append (extrinsic : Extrinsic) (one two : List Block) :
    copies extrinsic (one ++ two) = copies extrinsic one + copies extrinsic two := by
  rw [copies, List.flatMap_append, List.count_append]
  rfl

@[simp] theorem copies_singleton (extrinsic : Extrinsic) (block : Block) :
    copies extrinsic [block] = block.extrinsics.count extrinsic := by
  rw [copies, List.flatMap_singleton]

@[simp] theorem copies_concat (extrinsic : Extrinsic) (path : List Block) (block : Block) :
    copies extrinsic (path ++ [block]) =
      copies extrinsic path + block.extrinsics.count extrinsic := by
  rw [copies_append, copies_singleton]

end Authorship.ForkTree
