/-
Module: Authorship.Proofs.ForkTree.Conservation
Purpose: No pooled extrinsic is lost. What waits in the pool was submitted, in this order; only an
  imported block takes extrinsics out of it, and no more copies than it includes; an operation that
  imports nothing and submits nothing leaves the whole tree as it was.
Main exports: ForkTree.submissions, ForkTree.pool_run_sublist, ForkTree.count_le_of_run,
  ForkTree.pool_follows_run
-/
import Authorship.Proofs.ForkTree.Pool
import Authorship.Proofs.ForkTree.Run

namespace Authorship.ForkTree

/-- The extrinsic that an operation submits. -/
def Operation.submission? : Operation → Option Extrinsic
  | .submit extrinsic => some extrinsic
  | .insert .. | .importBlock _ | .propose .. => none

/-- All that is submitted, in order. -/
def submissions (operations : List Operation) : List Extrinsic :=
  operations.filterMap Operation.submission?

theorem submissions_cons (operation : Operation) (rest : List Operation) :
    submissions (operation :: rest) = operation.submission?.toList ++ submissions rest := by
  rw [submissions, List.filterMap_cons]
  cases operation.submission? <;> rfl

/-! ## One step -/

section Step

variable {tree next : ForkTree} {operation : Operation} {answer : Answer}

/-- A submission waits at the end of the pool, an import takes out of the pool what its block
includes, and nothing else touches the tree. -/
theorem pool_cases (performed : tree.perform operation = (answer, next)) :
    (∃ extrinsic, operation.submission? = some extrinsic ∧ answer.isImported = false ∧
      next.pool = tree.pool ++ [extrinsic]) ∨
    (∃ block choice, operation.import? = some (block, choice) ∧ operation.submission? = none ∧
      answer.isImported = true ∧ next.pool = prune tree.pool block.extrinsics) ∨
    (operation.submission? = none ∧ answer.isImported = false ∧ next = tree) := by
  cases submits : operation.submission? with
  | some extrinsic =>
      cases operation with
      | submit =>
          cases submits
          cases performed
          exact .inl ⟨extrinsic, rfl, rfl, rfl⟩
      | insert | importBlock | propose => cases submits
  | none =>
      right
      rcases tree.perform_cases operation with
        ⟨_, not, ran⟩ | ⟨extrinsic, rfl, _⟩ | ⟨block, choice, _, isNewBest, asked, _, _, ran⟩
      · rw [performed] at ran
        cases ran
        exact .inr ⟨rfl, not, rfl⟩
      · cases submits
      · rw [performed] at ran
        cases ran
        exact .inl ⟨block, choice, asked, rfl, Answer.isImported_imported isNewBest, rfl⟩

theorem pool_sublist_of_perform (performed : tree.perform operation = (answer, next)) :
    next.pool.Sublist (tree.pool ++ operation.submission?.toList) := by
  rcases pool_cases performed with
    ⟨extrinsic, submits, _, pool⟩ | ⟨block, _, _, _, _, pool⟩ | ⟨_, _, rfl⟩
  · rw [pool, submits]
    exact List.Sublist.refl _
  · rw [pool]
    exact (prune_sublist _ _).trans (List.sublist_append_left _ _)
  · exact List.sublist_append_left _ _

/-- What left the pool is in the block that was imported. -/
theorem count_le_of_perform (performed : tree.perform operation = (answer, next))
    (extrinsic : Extrinsic) :
    (tree.pool ++ operation.submission?.toList).count extrinsic ≤
      next.pool.count extrinsic + copies extrinsic (imported [(operation, answer)]) := by
  rcases pool_cases performed with
    ⟨_, submits, _, pool⟩ | ⟨block, _, asked, silent, done, pool⟩ | ⟨silent, _, rfl⟩
  · rw [pool, submits]
    exact Nat.le_add_right _ _
  · rw [imported_cons_of_isImported asked done, pool, silent, count_prune, Option.toList_none,
      List.append_nil]
    change _ ≤ _ + copies extrinsic [block]
    rw [copies_singleton]
    omega
  · rw [silent, Option.toList_none, List.append_nil]
    exact Nat.le_add_right _ _

end Step

/-! ## A whole run -/

/-- What waits was waiting at the start or was submitted, and keeps its order. -/
theorem pool_run_sublist (tree : ForkTree) (operations : List Operation) :
    (tree.run operations).2.pool.Sublist (tree.pool ++ submissions operations) := by
  induction operations generalizing tree with
  | nil => exact List.sublist_append_left _ _
  | cons operation rest inductionHypothesis =>
      have step := pool_sublist_of_perform (Prod.eta (tree.perform operation)).symm
      rw [submissions_cons, ← List.append_assoc]
      exact (inductionHypothesis _).trans (step.append (List.Sublist.refl _))

/-- What was waiting or was submitted still waits, or is in an imported block. -/
theorem count_le_of_run (tree : ForkTree) (operations : List Operation) (extrinsic : Extrinsic) :
    (tree.pool ++ submissions operations).count extrinsic ≤
      (tree.run operations).2.pool.count extrinsic +
        copies extrinsic (imported (tree.run operations).1) := by
  induction operations generalizing tree with
  | nil => simp [submissions, run]
  | cons operation rest inductionHypothesis =>
      have step := count_le_of_perform (Prod.eta (tree.perform operation)).symm extrinsic
      have later := inductionHypothesis (tree.perform operation).2
      have split := imported_append [(operation, (tree.perform operation).1)]
        ((tree.perform operation).2.run rest).1
      simp only [run, submissions_cons]
      rw [List.singleton_append] at split
      rw [split, copies_append]
      simp only [List.count_append] at step later ⊢
      omega

/-- However a tree without a pool is used, what waits was submitted, in this order, and at most what
imported blocks include is gone. Each import drops the earliest copies of what its block includes,
as many as there are in both, and an operation that imports nothing and submits nothing leaves the
tree as it was. -/
theorem pool_follows_run {start tree next : ForkTree} {operations : List Operation}
    {operation : Operation} {history : History} {answer : Answer} (empty : start.pool = [])
    (ran : start.run operations = (history, tree))
    (performed : tree.perform operation = (answer, next)) :
    next.pool.Sublist (submissions (operations ++ [operation])) ∧
      (∀ extrinsic,
        next.pool.count extrinsic ≤ (submissions (operations ++ [operation])).count extrinsic ∧
        (submissions (operations ++ [operation])).count extrinsic ≤
          next.pool.count extrinsic +
            copies extrinsic (imported (history ++ [(operation, answer)]))) ∧
      (answer.isImported = true → ∃ block choice, operation.import? = some (block, choice) ∧
        next.pool = unserved tree.pool block.extrinsics ∧
        ∀ extrinsic, next.pool.count extrinsic +
          min (tree.pool.count extrinsic) (block.extrinsics.count extrinsic) =
            tree.pool.count extrinsic) ∧
      (answer.isImported = false → operation.submission? = none → next = tree) := by
  have longer := run_concat ran performed
  have sublist := pool_run_sublist start (operations ++ [operation])
  have counts := count_le_of_run start (operations ++ [operation])
  rw [longer, empty, List.nil_append] at sublist
  simp only [longer, empty, List.nil_append] at counts
  refine ⟨sublist, fun extrinsic => ⟨sublist.count_le extrinsic, counts extrinsic⟩, ?_, ?_⟩
  · intro done
    rcases pool_cases performed with
      ⟨_, _, not, _⟩ | ⟨block, choice, asked, _, _, pool⟩ | ⟨_, not, _⟩
    · cases done.symm.trans not
    · refine ⟨block, choice, asked, pool.trans (prune_eq_unserved _ _), ?_⟩
      intro extrinsic
      rw [pool, count_prune]
      omega
    · cases done.symm.trans not
  · intro not silent
    rcases pool_cases performed with ⟨_, submits, _⟩ | ⟨_, _, _, _, done, _⟩ | ⟨_, _, same⟩
    · cases silent.symm.trans submits
    · cases done.symm.trans not
    · exact same

/-- Three extrinsics, two of them the same, and a block whose parent is unknown. -/
private def waiting : List Operation :=
  [.submit [7], .submit [8], .insert { header := { parentHash := .of [] } } .longest, .submit [7]]

/-- One of the extrinsics that wait twice, and one that does not wait. -/
private def serving : Block :=
  { header := { parentHash := ({} : Header).hash, number := 1 }, extrinsics := [[7], [9]] }

theorem pool_follows_run_serving :
    (ofGenesis {}).pool = [] ∧
      ((ofGenesis {}).run waiting).2.pool = [[7], [8], [7]] ∧
      (((ofGenesis {}).run waiting).2.perform (.insert serving .longest)).1.isImported = true ∧
      (((ofGenesis {}).run waiting).2.perform (.insert serving .longest)).2.pool = [[8], [7]] := by
  have waits : ((ofGenesis {}).run waiting).2.pool = [[7], [8], [7]] := by decide +kernel
  have done : (((ofGenesis {}).run waiting).2.perform (.insert serving .longest)).1.isImported =
      true := by
    decide +kernel
  have ran := (Prod.eta ((ofGenesis {}).run waiting)).symm
  obtain ⟨_, _, served, _⟩ := pool_follows_run (pool_ofGenesis {}) ran (Prod.eta _).symm
  obtain ⟨_, _, asked, pool, _⟩ := served done
  refine ⟨rfl, waits, done, ?_⟩
  cases asked
  rw [pool, waits]
  decide

end Authorship.ForkTree
