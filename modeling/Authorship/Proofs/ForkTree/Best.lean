/-
Module: Authorship.Proofs.ForkTree.Best
Purpose: Which block is the best one. It is the last one whose import said so, or else the genesis
  block. As long as the longest chain is preferred, no stored block is deeper than it, it came
  before any other block that is as deep, and its depth never goes down.
Main exports: ForkTree.BestDeepest, ForkTree.FirstDeepest, ForkTree.latestBest,
  ForkTree.Operation.PrefersLongest, ForkTree.best_follows_run
-/
import Authorship.Proofs.ForkTree.Run

namespace Authorship.ForkTree

/-! ## The longest chain -/

theorem becomesBest_longest {tree : ForkTree} {deepest : UInt32}
    (bestDepth : tree.depth? tree.best = some deepest) (depth : UInt32) :
    tree.becomesBest depth .longest = decide (deepest < depth) := by
  rw [becomesBest, bestDepth]
  rfl

/-- No stored block is deeper than the best one. -/
def BestDeepest (tree : ForkTree) : Prop :=
  ∃ deepest, tree.depth? tree.best = some deepest ∧
    ∀ hash depth, tree.depth? hash = some depth → depth ≤ deepest

namespace BestDeepest

theorem ofGenesis (genesis : Header) : (ofGenesis genesis).BestDeepest := by
  refine ⟨0, ?_, ?_⟩
  · rw [best_ofGenesis, depth?_ofGenesis, if_pos rfl]
  · intro hash depth stored
    rw [depth?_ofGenesis] at stored
    split at stored
    · cases stored
      exact UInt32.le_refl _
    · cases stored

variable {tree : ForkTree}

theorem submitAll (best : tree.BestDeepest) (extrinsics : List Extrinsic) :
    (tree.submitAll extrinsics).BestDeepest := by
  induction extrinsics generalizing tree with
  | nil => exact best
  | cons extrinsic rest inductionHypothesis =>
      have submitted : (tree.submit extrinsic).BestDeepest := best
      exact inductionHypothesis submitted

/-- Comparing with the best block is as good as comparing with all blocks. -/
theorem becomesBest_longest_iff (best : tree.BestDeepest) (depth : UInt32) :
    tree.becomesBest depth .longest = true ↔
      ∀ hash below, tree.depth? hash = some below → below < depth := by
  obtain ⟨deepest, bestDepth, bound⟩ := best
  rw [becomesBest_longest bestDepth, decide_eq_true_iff]
  constructor
  · intro deeper hash below stored
    exact UInt32.lt_of_le_of_lt (bound hash below stored) deeper
  · intro deeper
    exact deeper tree.best deepest bestDepth

/-- A block that becomes the best one only when it is deeper than all others. -/
theorem attach {block : Block} {parent : Entry} (best : tree.BestDeepest)
    (attachable : tree.Attachable block parent) :
    (tree.attach block.hash block parent
      (tree.becomesBest (parent.depth + 1) .longest)).BestDeepest := by
  obtain ⟨deepest, bestDepth, bound⟩ := best
  rw [becomesBest_longest bestDepth]
  by_cases deeper : deepest < parent.depth + 1
  · refine ⟨parent.depth + 1, ?_, ?_⟩
    · rw [best_attach, decide_eq_true deeper, if_pos rfl, depth?_attach attachable, if_pos rfl]
    · intro hash depth stored
      rw [depth?_attach attachable] at stored
      split at stored
      · cases stored
        exact UInt32.le_refl _
      · exact UInt32.le_trans (bound hash depth stored) (UInt32.le_of_lt deeper)
  · refine ⟨deepest, ?_, ?_⟩
    · rw [best_attach, decide_eq_false deeper, if_neg Bool.false_ne_true,
        depth?_attach_of_stored attachable _ bestDepth]
    · intro hash depth stored
      rw [depth?_attach attachable] at stored
      split at stored
      · cases stored
        exact UInt32.not_lt.mp deeper
      · exact bound hash depth stored

end BestDeepest

/-- The best one of these blocks is the first that none of them is deeper than. -/
def FirstDeepest (tree : ForkTree) (blocks : List Block) : Prop :=
  ∃ earlier best later deepest, blocks = earlier ++ best :: later ∧ tree.best = best.hash ∧
    tree.depth? best.hash = some deepest ∧
    (∀ block ∈ earlier, ∃ depth, tree.depth? block.hash = some depth ∧ depth < deepest) ∧
    ∀ block ∈ later, ∃ depth, tree.depth? block.hash = some depth ∧ depth ≤ deepest

namespace FirstDeepest

theorem ofGenesis (genesis : Header) : (ofGenesis genesis).FirstDeepest (members genesis []) := by
  refine ⟨[], { header := genesis }, [], 0, rfl, rfl, ?_, ?_, ?_⟩
  · rw [Block.hash_mk, depth?_ofGenesis, if_pos rfl]
  · intro block member
    cases member
  · intro block member
    cases member

variable {tree : ForkTree} {blocks : List Block}

theorem exists_depth_le (first : tree.FirstDeepest blocks) {deepest : UInt32}
    (bestDepth : tree.depth? tree.best = some deepest) {block : Block} (member : block ∈ blocks) :
    ∃ depth, tree.depth? block.hash = some depth ∧ depth ≤ deepest := by
  obtain ⟨earlier, best, later, _, rfl, bestHash, stored, above, notBelow⟩ := first
  rw [bestHash, stored] at bestDepth
  cases bestDepth
  rcases List.mem_append.mp member with early | late
  · obtain ⟨depth, here, less⟩ := above block early
    exact ⟨depth, here, UInt32.le_of_lt less⟩
  · rcases List.mem_cons.mp late with rfl | late
    · exact ⟨_, stored, UInt32.le_refl _⟩
    · exact notBelow block late

/-- A deeper block takes the place of the best one; one that is as deep comes too late. -/
theorem attach {block : Block} {parent : Entry} (first : tree.FirstDeepest blocks)
    (attachable : tree.Attachable block parent) :
    (tree.attach block.hash block parent
      (tree.becomesBest (parent.depth + 1) .longest)).FirstDeepest (blocks ++ [block]) := by
  have all := first
  obtain ⟨earlier, best, later, deepest, rfl, bestHash, stored, above, notBelow⟩ := first
  rw [← bestHash] at stored
  rw [becomesBest_longest stored]
  by_cases deeper : deepest < parent.depth + 1
  · refine ⟨_, block, [], parent.depth + 1, rfl, ?_, ?_, ?_, ?_⟩
    · rw [best_attach, decide_eq_true deeper, if_pos rfl]
    · rw [depth?_attach attachable, if_pos rfl]
    · intro other member
      obtain ⟨depth, here, bound⟩ := all.exists_depth_le stored member
      exact ⟨depth, depth?_attach_of_stored attachable _ here, UInt32.lt_of_le_of_lt bound deeper⟩
    · intro other member
      cases member
  · refine ⟨earlier, best, later ++ [block], deepest, ?_, ?_, ?_, ?_, ?_⟩
    · rw [List.append_assoc, List.cons_append]
    · rw [best_attach, decide_eq_false deeper, if_neg Bool.false_ne_true, bestHash]
    · rw [← bestHash, depth?_attach_of_stored attachable _ stored]
    · intro other member
      obtain ⟨depth, here, bound⟩ := above other member
      exact ⟨depth, depth?_attach_of_stored attachable _ here, bound⟩
    · intro other member
      rcases List.mem_append.mp member with old | new
      · obtain ⟨depth, here, bound⟩ := notBelow other old
        exact ⟨depth, depth?_attach_of_stored attachable _ here, bound⟩
      · obtain rfl := List.mem_singleton.mp new
        exact ⟨parent.depth + 1, by rw [depth?_attach attachable, if_pos rfl],
          UInt32.not_lt.mp deeper⟩

end FirstDeepest

/-- The block to be stored, if any, is to be the best one when it is deeper than the best one. -/
def Operation.PrefersLongest (operation : Operation) : Prop :=
  ∀ block choice, operation.import? = some (block, choice) → choice = .longest

section Longest

variable {tree : ForkTree} {blocks : List Block}

theorem best_run_of_prefersLongest {operations : List Operation} (best : tree.BestDeepest)
    (first : tree.FirstDeepest blocks)
    (longest : ∀ operation ∈ operations, operation.PrefersLongest) :
    (tree.run operations).2.BestDeepest ∧
      (tree.run operations).2.FirstDeepest (blocks ++ imported (tree.run operations).1) := by
  induction operations generalizing tree blocks with
  | nil =>
      rw [run, imported, List.filterMap_nil, List.append_nil]
      exact ⟨best, first⟩
  | cons operation rest inductionHypothesis =>
      have restLongest : ∀ later ∈ rest, later.PrefersLongest :=
        fun later member => longest later (List.mem_cons_of_mem _ member)
      rcases tree.perform_cases operation with
        ⟨answer, not, ran⟩ | ⟨extrinsic, rfl, ran⟩ |
        ⟨block, choice, parent, isNewBest, asked, attachable, rfl, ran⟩
      · simp only [run, ran, imported_cons_of_not_isImported not]
        exact inductionHypothesis best first restLongest
      · simp only [run, ran, imported_cons_of_not_isImported Answer.isImported_queued]
        have submitted : (tree.submit extrinsic).BestDeepest := best
        exact inductionHypothesis submitted first restLongest
      · obtain rfl := longest operation List.mem_cons_self block choice asked
        simp only [run, ran, imported_cons_of_isImported asked (Answer.isImported_imported _)]
        rw [List.append_cons]
        exact inductionHypothesis (best.attach attachable) (first.attach attachable) restLongest

/-- An import makes its block the best one just when it is deeper than every block before. -/
theorem isNewBest_iff {next : ForkTree} {operation : Operation} {answer : Answer} {block : Block}
    {choice : ForkChoice} (best : tree.BestDeepest) (longest : operation.PrefersLongest)
    (asked : operation.import? = some (block, choice))
    (performed : tree.perform operation = (answer, next)) :
    answer = .settled (.ok (.imported true)) ↔
      ∃ depth, next.depth? block.hash = some depth ∧
        ∀ hash below, tree.depth? hash = some below → below < depth := by
  rcases tree.perform_cases operation with
    ⟨_, not, ran⟩ | ⟨_, rfl, _⟩ | ⟨stored, other, parent, isNewBest, asks, attachable, rfl, ran⟩
  · rw [ran] at performed
    cases performed
    constructor
    · rintro rfl
      cases not
    · rintro ⟨depth, stored, deeper⟩
      exact absurd (deeper _ _ stored) (UInt32.lt_irrefl depth)
  · cases asked
  · rw [asked] at asks
    cases asks
    obtain rfl := longest block choice asked
    rw [ran] at performed
    cases performed
    have depth : (tree.attach block.hash block parent
        (tree.becomesBest (parent.depth + 1) .longest)).depth? block.hash =
          some (parent.depth + 1) := by
      rw [depth?_attach attachable, if_pos rfl]
    rw [depth]
    simpa using best.becomesBest_longest_iff (parent.depth + 1)

/-- The best block never gets less deep. -/
theorem BestDeepest.depth_le (best : tree.BestDeepest) (operation : Operation)
    (bestNext : (tree.perform operation).2.BestDeepest) :
    ∃ before after, tree.depth? tree.best = some before ∧
      (tree.perform operation).2.depth? (tree.perform operation).2.best = some after ∧
      before ≤ after := by
  obtain ⟨before, stored, _⟩ := best
  obtain ⟨after, storedNext, bound⟩ := bestNext
  exact ⟨before, after, stored, storedNext,
    bound tree.best before (depth?_perform_of_stored operation stored)⟩

end Longest

/-! ## Any fork choices -/

/-- Whether a block was imported and became the best one. -/
def Answer.isNewBest : Answer → Bool
  | .settled (.ok (.imported isNewBest)) => isNewBest
  | _ => false

theorem Answer.isNewBest_of_not_isImported {answer : Answer} (not : answer.isImported = false) :
    answer.isNewBest = false := by
  unfold isNewBest
  split
  · cases not
  · rfl

/-- The blocks that became the best one when they were imported, in order. -/
def newBests (history : History) : List Block :=
  history.filterMap fun (operation, answer) =>
    if answer.isNewBest then operation.import?.map Prod.fst else none

/-- The block that became the best one last, or the one that was the best at the start. -/
def latestBest (start : Hash) (history : History) : Hash :=
  ((newBests history).getLast?.map Block.hash).getD start

theorem latestBest_cons_of_not_isNewBest {operation : Operation} {answer : Answer}
    (not : answer.isNewBest = false) (start : Hash) (history : History) :
    latestBest start ((operation, answer) :: history) = latestBest start history := by
  simp [latestBest, newBests, not]

theorem latestBest_cons_of_isNewBest {operation : Operation} {answer : Answer} {block : Block}
    {choice : ForkChoice} (asked : operation.import? = some (block, choice))
    (new : answer.isNewBest = true) (start : Hash) (history : History) :
    latestBest start ((operation, answer) :: history) = latestBest block.hash history := by
  have first : newBests ((operation, answer) :: history) = block :: newBests history := by
    simp [newBests, asked, new]
  rw [latestBest, latestBest, first, List.getLast?_cons]
  cases (newBests history).getLast? <;> rfl

theorem best_run (tree : ForkTree) (operations : List Operation) :
    (tree.run operations).2.best = latestBest tree.best (tree.run operations).1 := by
  induction operations generalizing tree with
  | nil => rfl
  | cons operation rest inductionHypothesis =>
      rcases tree.perform_cases operation with
        ⟨answer, not, ran⟩ | ⟨extrinsic, rfl, ran⟩ |
        ⟨block, choice, parent, isNewBest, asked, _, _, ran⟩
      · simp only [run, ran]
        rw [latestBest_cons_of_not_isNewBest (Answer.isNewBest_of_not_isImported not),
          inductionHypothesis]
      · simp only [run, ran]
        rw [latestBest_cons_of_not_isNewBest rfl, inductionHypothesis, best_submit]
      · simp only [run, ran]
        rw [inductionHypothesis, best_attach]
        cases isNewBest with
        | true => rw [latestBest_cons_of_isNewBest asked rfl, if_pos rfl]
        | false => rw [latestBest_cons_of_not_isNewBest rfl, if_neg Bool.false_ne_true]

theorem best_perform_of_not_isImported {tree next : ForkTree} {operation : Operation}
    {answer : Answer} (performed : tree.perform operation = (answer, next))
    (not : answer.isImported = false) : next.best = tree.best := by
  rcases tree.perform_cases operation with
    ⟨_, _, ran⟩ | ⟨_, _, ran⟩ | ⟨_, _, _, _, _, _, _, ran⟩
  · rw [performed] at ran
    cases ran
    rfl
  · rw [performed] at ran
    cases ran
    rfl
  · rw [performed] at ran
    cases ran
    cases not

/-- Whatever a fresh tree was asked for, its best block is the one whose import made it the best
last, and only an import moves it. As long as every import prefers the longest chain, the best block
is the first of the deepest ones, an import makes its block the best one just when it is deeper than
every block stored before, and the best block never gets less deep. -/
theorem best_follows_run {genesis : Header} {operations : List Operation} {operation : Operation}
    {history : History} {answer : Answer} {tree next : ForkTree}
    (ran : (ofGenesis genesis).run operations = (history, tree))
    (performed : tree.perform operation = (answer, next)) :
    next.best = latestBest genesis.hash (history ++ [(operation, answer)]) ∧
      (answer.isImported = false → next.best = tree.best) ∧
      ((∀ asked ∈ operations ++ [operation], asked.PrefersLongest) →
        next.BestDeepest ∧
        next.FirstDeepest (members genesis (imported (history ++ [(operation, answer)]))) ∧
        (∀ block choice, operation.import? = some (block, choice) →
          (answer = .settled (.ok (.imported true)) ↔
            ∃ depth, next.depth? block.hash = some depth ∧
              ∀ hash below, tree.depth? hash = some below → below < depth)) ∧
        ∃ before after, tree.depth? tree.best = some before ∧
          next.depth? next.best = some after ∧ before ≤ after) := by
  have longer := run_concat ran performed
  refine ⟨?_, best_perform_of_not_isImported performed, ?_⟩
  · simpa [longer] using best_run (ofGenesis genesis) (operations ++ [operation])
  · intro longest
    have start := BestDeepest.ofGenesis genesis
    have first := FirstDeepest.ofGenesis genesis
    have now := best_run_of_prefersLongest start first
      fun asked member => longest asked (List.mem_append_left _ member)
    have later := best_run_of_prefersLongest start first longest
    rw [ran] at now
    rw [longer] at later
    refine ⟨later.1, later.2, ?_, ?_⟩
    · intro block choice asked
      exact isNewBest_iff now.1 (longest _ List.mem_concat_self) asked performed
    · have kept := now.1.depth_le operation (by rw [performed]; exact later.1)
      rwa [performed] at kept

private def trunk : Block :=
  { header := { parentHash := ({} : Header).hash, number := 1 } }

private def rival : Block :=
  { header := { parentHash := ({} : Header).hash, number := 2 } }

private def crown : Block :=
  { header := { parentHash := rival.hash, number := 2 } }

/-- Two blocks of one depth. -/
private def rivalOperations : List Operation :=
  [.insert trunk .longest, .insert rival .longest]

/-- A deeper block on the one that came too late. -/
theorem best_follows_run_crown :
    (∀ asked ∈ rivalOperations ++ [.insert crown .longest], asked.PrefersLongest) ∧
      ((ofGenesis {}).run rivalOperations).2.best = trunk.hash ∧
      (((ofGenesis {}).run rivalOperations).2.perform (.insert crown .longest)).2.FirstDeepest
        (members {} [trunk, rival, crown]) := by
  have longest : ∀ asked ∈ rivalOperations ++ [.insert crown .longest],
      asked.PrefersLongest := by
    intro asked member block choice imports
    simp only [rivalOperations, List.cons_append, List.nil_append, List.mem_cons,
      List.not_mem_nil, or_false] at member
    rcases member with rfl | rfl | rfl <;> cases imports <;> rfl
  have all : imported (((ofGenesis {}).run rivalOperations).1 ++ [(.insert crown .longest,
      (((ofGenesis {}).run rivalOperations).2.perform (.insert crown .longest)).1)]) =
        [trunk, rival, crown] := by
    decide +kernel
  refine ⟨longest, by decide +kernel, ?_⟩
  have ran := (Prod.eta ((ofGenesis {}).run rivalOperations)).symm
  obtain ⟨_, _, follows⟩ := best_follows_run ran (Prod.eta _).symm
  obtain ⟨_, first, _⟩ := follows longest
  rwa [all] at first

end Authorship.ForkTree
