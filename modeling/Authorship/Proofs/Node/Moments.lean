/-
Module: Authorship.Proofs.Node.Moments
Purpose: A local node while time passes. Each time that something is asked of it, extrinsics may
  have been submitted before, and the runtime and the inherent data may be other ones. All that is
  asked leaves the tree to what is submitted, except that an accepted block is stored.
Main exports: Moment, Moments.State, Moments.node, Moments.pass, Moments.run_importBlock
-/
import Authorship.Proofs.ForkTree.Best
import Authorship.Proofs.ForkTree.Pool
import Authorship.Proofs.Node.Round

namespace Authorship

namespace ForkTree

/-! ## Submissions -/

theorem submitAll_eq (tree : ForkTree) (extrinsics : List Extrinsic) :
    tree.submitAll extrinsics = { tree with pool := tree.pool ++ extrinsics } := by
  induction extrinsics generalizing tree with
  | nil =>
      rw [List.append_nil]
      rfl
  | cons extrinsic rest inductionHypothesis =>
      change (tree.submit extrinsic).submitAll rest = _
      rw [inductionHypothesis, pool_submit, List.append_assoc]
      rfl

theorem submitAll_append (tree : ForkTree) (one two : List Extrinsic) :
    tree.submitAll (one ++ two) = (tree.submitAll one).submitAll two :=
  List.foldl_append

/-- The header stored under a hash, as a lookup that can fail. -/
def find (tree : ForkTree) (hash : Hash) : Except ConsensusError Header :=
  match tree.header? hash with
  | some header => .ok header
  | none => .error (.unknownBlock hash)

end ForkTree

/-! ## Moments -/

/-- A moment at which something is asked of a node. -/
structure Moment where
  /-- What was submitted since the moment before. -/
  submitted : List Extrinsic := []
  api : ForkTree → RuntimeApi
  inherents : InherentFactory

/-- Moments, one after the other. -/
abbrev Moments := Nat → Moment

namespace Moments

/-- A tree, and the moment that comes next. -/
structure State where
  tree : ForkTree
  time : Nat := 0
deriving DecidableEq

/-- Do something at the local node of the next moment. -/
def atNext {α : Type} (moments : Moments) (action : Node ForkTree → Action ForkTree α) :
    Action State α :=
  ExceptT.mk fun state =>
    let moment := moments state.time
    let (outcome, tree) :=
      (action (ForkTree.localNode moment.api moment.inherents)).run.run
        (state.tree.submitAll moment.submitted)
    (outcome, { tree, time := state.time + 1 })

/-- The local node while moments pass: everything that is asked of it takes one. -/
def node (moments : Moments) : Node State where
  api state := (moments state.time).api state.tree
  bestHeader := moments.atNext (·.bestHeader)
  header? hash := moments.atNext (·.header? hash)
  inherents parent slot := moments.atNext (·.inherents parent slot)
  proposer parent := do
    let propose ← moments.atNext (·.proposer parent)
    return fun data digest milliseconds limit =>
      moments.atNext fun _ => propose data digest milliseconds limit
  importBlock request := moments.atNext (·.importBlock request)

/-- What is submitted in a number of moments. -/
def submitted (moments : Moments) (time count : Nat) : List Extrinsic :=
  (List.range count).flatMap fun offset => (moments (time + offset)).submitted

/-- The state after a number of moments in which nothing was done but submitting. -/
def pass (moments : Moments) (state : State) (count : Nat) : State where
  tree := state.tree.submitAll (moments.submitted state.time count)
  time := state.time + count

variable {moments : Moments} {state : State}

theorem pass_one : moments.pass state 1 =
    { tree := state.tree.submitAll (moments state.time).submitted, time := state.time + 1 } := by
  simp [pass, submitted]

theorem pass_pass (state : State) (one two : Nat) :
    moments.pass (moments.pass state one) two = moments.pass state (one + two) := by
  have both : moments.submitted state.time (one + two) =
      moments.submitted state.time one ++ moments.submitted (state.time + one) two := by
    simp [submitted, List.range_add, List.flatMap_map, Nat.add_assoc]
  simp only [pass, both, ForkTree.submitAll_append, Nat.add_assoc]

section Views

variable (moments : Moments) (state : State) (count : Nat)

theorem pool_pass : (moments.pass state count).tree.pool =
    state.tree.pool ++ moments.submitted state.time count := by
  rw [pass, ForkTree.submitAll_eq]

theorem best_pass : (moments.pass state count).tree.best = state.tree.best := by
  rw [pass, ForkTree.submitAll_eq]

theorem blocks_pass : (moments.pass state count).tree.blocks = state.tree.blocks := by
  rw [pass, ForkTree.submitAll_eq]

theorem size_pass : (moments.pass state count).tree.size = state.tree.size := by
  simp only [ForkTree.size, blocks_pass]

theorem header?_pass (hash : Hash) :
    (moments.pass state count).tree.header? hash = state.tree.header? hash := by
  simp only [ForkTree.header?, ForkTree.block?, blocks_pass]

theorem find_pass (hash : Hash) :
    (moments.pass state count).tree.find hash = state.tree.find hash := by
  simp only [ForkTree.find, header?_pass]

theorem contains_pass (hash : Hash) :
    (moments.pass state count).tree.contains hash = state.tree.contains hash := by
  simp only [ForkTree.contains, blocks_pass]

end Views

/-! ## What the node does at a moment -/

theorem run_atNext {α : Type} (action : Node ForkTree → Action ForkTree α)
    {outcome : Except ConsensusError α} {tree : ForkTree}
    (ran : (action (ForkTree.localNode (moments state.time).api
        (moments state.time).inherents)).run.run (moments.pass state 1).tree = (outcome, tree)) :
    (moments.atNext action).run.run state = (outcome, { tree, time := state.time + 1 }) := by
  rw [pass_one] at ran
  simp only [atNext, ExceptT.run_mk, StateT.run] at ran ⊢
  simp only [ran]

/-- What leaves the tree alone leaves it to what is submitted. -/
theorem run_atNext_of_reads {α : Type} (action : Node ForkTree → Action ForkTree α)
    {outcome : Except ConsensusError α}
    (reads : (action (ForkTree.localNode (moments state.time).api
        (moments state.time).inherents)).run.run (moments.pass state 1).tree =
      (outcome, (moments.pass state 1).tree)) :
    (moments.atNext action).run.run state = (outcome, moments.pass state 1) :=
  run_atNext action reads

theorem run_bestHeader (moments : Moments) (state : State) :
    moments.node.bestHeader.run.run state =
      (state.tree.find state.tree.best, moments.pass state 1) := by
  rw [← find_pass moments state 1, ← best_pass moments state 1]
  refine run_atNext_of_reads (·.bestHeader) ?_
  generalize (moments.pass state 1).tree = tree
  refine (Attempt.run_bind_eq (Attempt.run_get tree)).trans ?_
  rw [ForkTree.find, ForkTree.bestHeader?]
  cases tree.header? tree.best <;> rfl

theorem run_header? (moments : Moments) (state : State) (hash : Hash) :
    (moments.node.header? hash).run.run state =
      (.ok (state.tree.header? hash), moments.pass state 1) := by
  rw [← header?_pass moments state 1]
  exact run_atNext_of_reads (·.header? hash) rfl

/-- The inherent data of a moment. -/
def inherentsAt (moments : Moments) (time : Nat) (parent : Hash) (slot : UInt32) :
    Except ConsensusError InherentData := do
  let provider ← (moments time).inherents parent slot
  provider.create.mapError .inherent

theorem run_inherentData (moments : Moments) (state : State) (parent : Hash) (slot : UInt32) :
    (moments.node.inherentData parent slot).run.run state =
      (moments.inherentsAt state.time parent slot, moments.pass state 1) :=
  Node.run_inherentData (run_atNext_of_reads (·.inherents parent slot) rfl)

/-- Propose in the moment that comes. -/
def proposeWith (moments : Moments) (proposer : Proposer) : Propose State :=
  fun _ digest _ limit => moments.atNext fun _ => proposer.fill digest limit

theorem run_proposer (moments : Moments) (state : State) (parent : Header) :
    (moments.node.proposer parent).run.run state =
      ((state.tree.proposer parent).map moments.proposeWith, moments.pass state 1) := by
  have same : (moments.pass state 1).tree.proposer parent = state.tree.proposer parent := by
    rw [ForkTree.proposer, ForkTree.proposer, contains_pass]
  have prepares : (moments.atNext (·.proposer parent)).run.run state =
      ((state.tree.proposer parent).map fun proposer _ digest _ limit => proposer.fill digest limit,
        moments.pass state 1) := by
    refine run_atNext_of_reads (·.proposer parent) ?_
    rw [← same]
    exact ForkTree.run_localNode_proposer _ _ _ parent
  cases prepared : state.tree.proposer parent with
  | error error =>
      rw [prepared] at prepares
      exact Attempt.run_bind_error prepares
  | ok proposer =>
      rw [prepared] at prepares
      exact Attempt.run_bind_eq prepares

theorem run_proposeWith (moments : Moments) (state : State) (proposer : Proposer)
    (data : InherentData) (digest : Digest) (milliseconds : UInt64) (limit : Option UInt64) :
    (moments.proposeWith proposer data digest milliseconds limit).run.run state =
      (proposer.propose (moments.pass state 1).tree digest limit, moments.pass state 1) :=
  run_atNext_of_reads (fun _ => proposer.fill digest limit)
    (ForkTree.run_fill _ proposer digest limit)

/-- An accepted block is stored beside what is submitted; a refused one changes nothing else. -/
theorem run_importBlock (moments : Moments) (state : State) (request : ImportRequest) :
    (moments.node.importBlock request).run.run state =
      match (moments.pass state 1).tree.importBlock request with
      | .ok (outcome, tree) => (.ok outcome, { tree, time := state.time + 1 })
      | .error error => (.error error, moments.pass state 1) := by
  cases imports : (moments.pass state 1).tree.importBlock request with
  | error error =>
      exact run_atNext_of_reads (·.importBlock request) (ForkTree.run_storeRequest_error imports)
  | ok stored => exact run_atNext (·.importBlock request) (ForkTree.run_storeRequest_ok imports)

end Moments

end Authorship
