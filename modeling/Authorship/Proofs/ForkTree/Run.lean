/-
Module: Authorship.Proofs.ForkTree.Run
Purpose: Fork trees over whole runs. A run asks a tree for any operations in any order and keeps
  what it answered. However blocks, duplicates, orphans and fork choices follow each other, the
  tree holds the genesis block and the blocks that were imported, and stays a tree.
Main exports: ForkTree.Operation, ForkTree.Answer, ForkTree.perform, ForkTree.run,
  ForkTree.imported, ForkTree.perform_cases, ForkTree.run_holds
-/
import Mathlib.Algebra.Group.Nat.Defs
import Authorship.Consensus.Node
import Authorship.Proofs.ForkTree.Shape

namespace Authorship.ForkTree

/-- What a tree can be asked to do. -/
inductive Operation where
  | insert (block : Block) (choice : ForkChoice)
  | importBlock (request : ImportRequest)
  | submit (extrinsic : Extrinsic)
  /-- Prepare to propose on top of a block, and propose. -/
  | propose (parent : Header) (digest : Digest) (limit : Option UInt64)

/-- What a tree answers. -/
inductive Answer where
  | settled (outcome : Except ConsensusError ImportOutcome)
  | queued
  | proposed (outcome : Except ConsensusError Block)

/-- The block that an operation is to store, and the choice that comes with it. -/
def Operation.import? : Operation → Option (Block × ForkChoice)
  | .insert block choice => some (block, choice)
  | .importBlock request => some (request.block, request.forkChoice.getD .longest)
  | .submit _ | .propose .. => none

/-- Whether a block was imported. -/
def Answer.isImported : Answer → Bool
  | .settled (.ok (.imported _)) => true
  | _ => false

/-- The answer to an operation, and the tree that the operation leaves, whether it fails or not. -/
def perform (tree : ForkTree) : Operation → Answer × ForkTree
  | .insert block choice =>
    let (outcome, left) := (store block choice).run.run tree
    (.settled outcome, left)
  | .importBlock request =>
    let (outcome, left) := (storeRequest request).run.run tree
    (.settled outcome, left)
  | .submit extrinsic => (.queued, tree.submit extrinsic)
  | .propose parent digest limit =>
    let (outcome, left) := (proposeNow parent digest limit).run.run tree
    (.proposed outcome, left)

/-- Operations with their answers, in order. -/
abbrev History := List (Operation × Answer)

/-- Perform operations one after the other. -/
def run (tree : ForkTree) : List Operation → History × ForkTree
  | [] => ([], tree)
  | operation :: rest =>
    let (answer, next) := tree.perform operation
    let (history, last) := next.run rest
    ((operation, answer) :: history, last)

/-- The blocks that were imported, in order. -/
def imported (history : History) : List Block :=
  history.filterMap fun (operation, answer) =>
    if answer.isImported then operation.import?.map Prod.fst else none

/-! ## One step -/

theorem Answer.isImported_settled {outcome : Except ConsensusError ImportOutcome}
    (not : ∀ isNewBest, outcome ≠ .ok (.imported isNewBest)) :
    (Answer.settled outcome).isImported = false := by
  cases outcome with
  | error => rfl
  | ok outcome =>
      cases outcome with
      | alreadyInChain => rfl
      | imported isNewBest => exact absurd rfl (not isNewBest)

@[simp] theorem Answer.isImported_imported (isNewBest : Bool) :
    (Answer.settled (.ok (.imported isNewBest))).isImported = true := rfl

@[simp] theorem Answer.isImported_queued : Answer.queued.isImported = false := rfl

/-- To propose only looks at the tree. -/
theorem run_proposeNow (tree : ForkTree) (parent : Header) (digest : Digest)
    (limit : Option UInt64) :
    (proposeNow parent digest limit).run.run tree =
      (do (← tree.proposer parent).propose tree digest limit, tree) := by
  unfold proposeNow
  cases prepared : tree.proposer parent with
  | error error =>
      rw [Attempt.run_bind_error ((run_prepare tree parent).trans (by rw [prepared]))]
      rfl
  | ok proposer =>
      rw [Attempt.run_bind_eq ((run_prepare tree parent).trans (by rw [prepared]))]
      exact run_fill tree proposer digest limit

/-- An operation imports its block, or submits an extrinsic, or leaves the tree as it was. -/
theorem perform_cases (tree : ForkTree) (operation : Operation) :
    (∃ answer, answer.isImported = false ∧ tree.perform operation = (answer, tree)) ∨
    (∃ extrinsic, operation = .submit extrinsic ∧
      tree.perform operation = (.queued, tree.submit extrinsic)) ∨
    ∃ block choice parent isNewBest, operation.import? = some (block, choice) ∧
      tree.Attachable block parent ∧ isNewBest = tree.becomesBest (parent.depth + 1) choice ∧
      tree.perform operation = (.settled (.ok (.imported isNewBest)),
        tree.attach block.hash block parent isNewBest) := by
  cases operation with
  | insert block choice =>
      rcases tree.run_store_cases block choice with
        ⟨outcome, not, ran⟩ | ⟨parent, isNewBest, attachable, best, ran⟩
      · exact .inl ⟨_, Answer.isImported_settled not, by rw [perform, ran]⟩
      · exact .inr (.inr ⟨_, _, parent, isNewBest, rfl, attachable, best, by rw [perform, ran]⟩)
  | importBlock request =>
      rcases tree.run_storeRequest_cases request with
        ⟨outcome, not, ran⟩ | ⟨parent, isNewBest, attachable, _, best, ran⟩
      · exact .inl ⟨_, Answer.isImported_settled not, by rw [perform, ran]⟩
      · exact .inr (.inr ⟨_, _, parent, isNewBest, rfl, attachable, best, by rw [perform, ran]⟩)
  | submit extrinsic => exact .inr (.inl ⟨extrinsic, rfl, rfl⟩)
  | propose parent digest limit => exact .inl ⟨_, rfl, by rw [perform, run_proposeNow]⟩

theorem imported_cons_of_not_isImported {operation : Operation} {answer : Answer}
    (not : answer.isImported = false) (history : History) :
    imported ((operation, answer) :: history) = imported history := by
  simp [imported, not]

theorem imported_cons_of_isImported {operation : Operation} {answer : Answer} {block : Block}
    {choice : ForkChoice} (asked : operation.import? = some (block, choice))
    (done : answer.isImported = true) (history : History) :
    imported ((operation, answer) :: history) = block :: imported history := by
  simp [imported, asked, done]

theorem imported_append (one two : History) :
    imported (one ++ two) = imported one ++ imported two :=
  List.filterMap_append

/-- What is stored stays at its depth. -/
theorem depth?_perform_of_stored {tree : ForkTree} (operation : Operation) {hash : Hash}
    {depth : UInt32} (stored : tree.depth? hash = some depth) :
    (tree.perform operation).2.depth? hash = some depth := by
  rcases tree.perform_cases operation with
    ⟨_, _, ran⟩ | ⟨_, _, ran⟩ | ⟨block, _, _, _, _, attachable, _, ran⟩
  · rw [ran, stored]
  · rw [ran, depth?_submit, stored]
  · rw [ran, depth?_attach_of_stored attachable _ stored]

/-! ## A whole run -/

/-- A run can stop for its last operation. -/
theorem run_concat {start tree next : ForkTree} {operations : List Operation}
    {operation : Operation} {history : History} {answer : Answer}
    (ran : start.run operations = (history, tree))
    (performed : tree.perform operation = (answer, next)) :
    start.run (operations ++ [operation]) = (history ++ [(operation, answer)], next) := by
  induction operations generalizing start history with
  | nil =>
      cases ran
      simp [run, performed]
  | cons first rest inductionHypothesis =>
      simp only [run, Prod.mk.injEq] at ran
      obtain ⟨rfl, rfl⟩ := ran
      simp only [List.cons_append, run, inductionHypothesis (Prod.eta _).symm]

/-- The blocks of the answers that report an import are the imported ones. -/
theorem length_imported_run (tree : ForkTree) (operations : List Operation) :
    (imported (tree.run operations).1).length =
      (tree.run operations).1.countP fun (_, answer) => answer.isImported := by
  induction operations generalizing tree with
  | nil => rfl
  | cons operation rest inductionHypothesis =>
      rcases tree.perform_cases operation with
        ⟨answer, not, ran⟩ | ⟨extrinsic, rfl, ran⟩ | ⟨block, choice, parent, best, asked, _, _, ran⟩
      · simp [run, ran, imported_cons_of_not_isImported not, not, inductionHypothesis]
      · have not : Answer.queued.isImported = false := rfl
        simp [run, ran, imported_cons_of_not_isImported not, not, inductionHypothesis]
      · have done : (Answer.settled (.ok (.imported best))).isImported = true := rfl
        simp [run, ran, imported_cons_of_isImported asked done, done, inductionHypothesis]

/-- A run keeps a tree a tree, as long as depths have room. -/
theorem Holds.run {genesis : Header} (operations : List Operation) {tree : ForkTree}
    {before : List Block} (holds : tree.Holds genesis before)
    (room : (before ++ imported (tree.run operations).1).length < UInt32.size) :
    (tree.run operations).2.Holds genesis (before ++ imported (tree.run operations).1) := by
  induction operations generalizing tree before with
  | nil => simpa [ForkTree.run, imported] using holds
  | cons operation rest inductionHypothesis =>
      rcases tree.perform_cases operation with
        ⟨answer, not, ran⟩ | ⟨extrinsic, rfl, ran⟩ |
        ⟨block, choice, parent, best, asked, attachable, _, ran⟩
      · simp only [ForkTree.run, ran, imported_cons_of_not_isImported not] at room ⊢
        exact inductionHypothesis holds room
      · have not : Answer.queued.isImported = false := rfl
        simp only [ForkTree.run, ran, imported_cons_of_not_isImported not] at room ⊢
        exact inductionHypothesis (holds.submit extrinsic) room
      · have done : (Answer.settled (.ok (.imported best))).isImported = true := rfl
        simp only [ForkTree.run, ran, imported_cons_of_isImported asked done] at room ⊢
        rw [List.append_cons] at room ⊢
        refine inductionHypothesis (holds.attach attachable best ?_) room
        rw [List.length_append, List.length_append] at room
        exact Nat.lt_of_le_of_lt (Nat.le_add_right _ _) room

theorem growsInto_run (tree : ForkTree) (operations : List Operation) :
    tree.GrowsInto (tree.run operations).2 := by
  induction operations generalizing tree with
  | nil => exact .same
  | cons operation rest inductionHypothesis =>
      have step : tree.GrowsInto (tree.perform operation).2 := by
        rcases tree.perform_cases operation with
          ⟨_, _, ran⟩ | ⟨extrinsic, _, ran⟩ | ⟨_, _, _, isNewBest, _, attachable, _, ran⟩
        · rw [ran]
          exact .same
        · rw [ran]
          exact .submit .same extrinsic
        · rw [ran]
          exact .attach .same attachable isNewBest
      exact step.trans (inductionHypothesis _)

/-- However operations follow each other, what a fresh tree grows into is a tree rooted at its
genesis block: it holds this block and the imported ones, finds them under their hashes, at the
depth of their parent and one more, among the children of their parent and among the blocks of
their depth, in order of import and once each. From every stored block, parents lead down to the
genesis block in as many steps as the block is deep. -/
theorem run_holds {genesis : Header} {operations : List Operation} {history : History}
    {tree : ForkTree} (ran : (ofGenesis genesis).run operations = (history, tree))
    (few : (history.countP fun (_, answer) => answer.isImported) < 2 ^ 32) :
    tree.Holds genesis (imported history) ∧
      tree.size = 1 + history.countP (fun (_, answer) => answer.isImported) ∧
      (∀ hash, (tree.children hash).Nodup) ∧
      (∀ depth, (tree.atDepth depth).Nodup) ∧
      tree.atDepth 0 = [genesis.hash] ∧
      (∀ hash depth, tree.depth? hash = some depth →
        ∃ path, tree.Branch genesis.hash hash path ∧ path.length = depth.toNat) ∧
      tree.genesis? = some genesis.hash ∧
      tree.bestHeader?.isSome = true := by
  have count : (imported history).length =
      history.countP fun (_, answer) => answer.isImported := by
    simpa [ran] using length_imported_run (ofGenesis genesis) operations
  have holds : tree.Holds genesis (imported history) := by
    have room : ([] ++ imported ((ofGenesis genesis).run operations).1).length < UInt32.size := by
      rw [ran, List.nil_append, count]
      exact few
    simpa [ran] using (Holds.ofGenesis genesis).run operations room
  refine ⟨holds, ?_, holds.nodup_children, holds.nodup_atDepth, holds.atDepth_zero, ?_,
    holds.genesis?_eq, holds.bestHeader?_isSome⟩
  · rw [holds.size, count]
  · intro hash depth stored
    exact holds.exists_branch stored

/-- Two blocks on the genesis block, the first of them twice, and an extrinsic. -/
private def forkingOperations : List Operation :=
  let parentHash := ({} : Header).hash
  [.insert { header := { parentHash, number := 1 } } .longest,
    .submit [7],
    .insert { header := { parentHash, number := 2 } } (.decided false),
    .insert { header := { parentHash, number := 1 } } .longest]

theorem run_holds_forkingOperations :
    ((((ofGenesis {}).run forkingOperations).1.countP fun (_, answer) => answer.isImported) = 2 ∧
      2 < 2 ^ 32) ∧
      ((ofGenesis {}).run forkingOperations).2.Holds {}
        (imported ((ofGenesis {}).run forkingOperations).1) := by
  have two : (((ofGenesis {}).run forkingOperations).1.countP
      fun (_, answer) => answer.isImported) = 2 := by decide +kernel
  refine ⟨⟨two, by decide⟩, ?_⟩
  exact (run_holds (Prod.eta _).symm (by rw [two]; decide)).1

end Authorship.ForkTree
