/-
Module: Authorship.Proofs.Node.Turns
Purpose: Calls that share the state of a node with others. Such a call gets at the state a number of
  times, once for each thing that it asks of the node, and in between others may change the state.
  What the call does is a function of the states in which it finds the node, turn after turn. A
  step that keeps an invariant keeps it in every turn.
Main exports: Turns, Action.inTurn, Node.shared, Turns.Keeping, Turns.keeps_inTurn, Turns.Tracked,
  Turns.tracked_inTurn, Node.Keeps.shared
-/
import Authorship.Proofs.Node.Sealing

namespace Authorship

/-- The turns of a call at a state that others use too. -/
structure Turns (σ : Type) where
  /-- How the call will find the state, turn after turn. -/
  ahead : List σ
  /-- How the call found the state and how it left it, turn after turn. -/
  done : List (σ × σ) := []

namespace Action

variable {σ α : Type}

/-- Take a step in the next turn. A call that gets no turn any more goes nowhere: it fails at this
step and at every later one. -/
def inTurn (step : Action σ α) : Action (Turns σ) α :=
  ExceptT.mk fun turns =>
    match turns.ahead with
    | [] => (.error (.importFailed "no turn"), turns)
    | found :: ahead =>
      let (outcome, left) := step.run.run found
      (outcome, { ahead, done := turns.done ++ [(found, left)] })

theorem run_inTurn_nil (step : Action σ α) (done : List (σ × σ)) :
    step.inTurn.run.run { ahead := [], done } =
      (.error (.importFailed "no turn"), { ahead := [], done }) := rfl

theorem run_inTurn_cons (step : Action σ α) (found : σ) (ahead : List σ) (done : List (σ × σ)) :
    step.inTurn.run.run { ahead := found :: ahead, done } =
      ((step.run.run found).1,
        { ahead, done := done ++ [(found, (step.run.run found).2)] }) := rfl

/-- A step that gives something has had its turn. -/
theorem run_inTurn_ok {step : Action σ α} {turns after : Turns σ} {value : α}
    (ran : step.inTurn.run.run turns = (.ok value, after)) :
    ∃ found left, turns.ahead = found :: after.ahead ∧
      after.done = turns.done ++ [(found, left)] ∧ step.run.run found = (.ok value, left) := by
  obtain ⟨_ | ⟨found, ahead⟩, done⟩ := turns
  · rw [run_inTurn_nil] at ran
    cases ran
  · rw [run_inTurn_cons] at ran
    obtain ⟨gives, rfl⟩ := Prod.mk.inj ran
    exact ⟨found, _, rfl, rfl, Prod.ext gives rfl⟩

end Action

/-- A node as a call sees it that shares it with others: everything that the call asks of it takes a
turn. The runtime answers from the state of the turn that comes next. -/
def Node.shared {σ : Type} (node : Node σ) : Node (Turns σ) where
  api turns :=
    match turns.ahead with
    | [] => fun parent _ _ => .error (.unknownBlock parent.hash)
    | found :: _ => node.api found
  bestHeader := node.bestHeader.inTurn
  header? hash := (node.header? hash).inTurn
  inherents parent slot := (node.inherents parent slot).inTurn
  proposer parent := do
    let propose ← (node.proposer parent).inTurn
    return fun data digest milliseconds limit =>
      (propose data digest milliseconds limit).inTurn
  importBlock request := (node.importBlock request).inTurn

namespace Turns

variable {σ α : Type} {scheme : SignatureScheme} {invariant : σ → Prop} {given : List σ}

/-- The turns are those at the given states, the invariant holds at those that are to come, and it
held when the call left the others. -/
structure Keeping (invariant : σ → Prop) (given : List σ) (turns : Turns σ) : Prop where
  found : turns.done.map Prod.fst ++ turns.ahead = given
  ahead : ∀ state ∈ turns.ahead, invariant state
  left : ∀ turn ∈ turns.done, invariant turn.2

theorem Keeping.start (all : ∀ state ∈ given, invariant state) :
    Keeping invariant given { ahead := given } where
  found := rfl
  ahead := all
  left := by simp

theorem keeps_inTurn {step : Action σ α} {condition : α → Prop}
    (keeps : step.Keeps invariant condition) :
    step.inTurn.Keeps (Keeping invariant given) condition := by
  rintro ⟨_ | ⟨found, ahead⟩, done⟩ keeping
  · rw [Action.run_inTurn_nil]
    exact ⟨keeping, fun value outcome => by cases outcome⟩
  · obtain ⟨kept, meets⟩ := keeps found (keeping.ahead found List.mem_cons_self)
    rw [Action.run_inTurn_cons]
    refine ⟨⟨?_, ?_, ?_⟩, meets⟩
    · simpa using keeping.found
    · intro state later
      exact keeping.ahead state (List.mem_cons_of_mem found later)
    · intro turn member
      rcases List.mem_append.mp member with old | new
      · exact keeping.left turn old
      · obtain rfl := List.mem_singleton.mp new
        exact kept

/-- The turns are those at the given states, and each left the state that it found as the relation
has it. -/
structure Tracked (relation : σ → σ → Prop) (given : List σ) (turns : Turns σ) : Prop where
  found : turns.done.map Prod.fst ++ turns.ahead = given
  taken : ∀ turn ∈ turns.done, relation turn.1 turn.2

theorem Tracked.start (relation : σ → σ → Prop) (given : List σ) :
    Tracked relation given { ahead := given } where
  found := rfl
  taken := by simp

/-- A turn is at the given state that comes at its place. -/
theorem Tracked.given_eq {relation : σ → σ → Prop} {turns : Turns σ} {index : Nat}
    {turn : σ × σ} (tracked : Tracked relation given turns)
    (taken : turns.done[index]? = some turn) : given[index]? = some turn.1 := by
  have earlier : index < (turns.done.map Prod.fst).length := by
    rw [List.length_map]
    exact (List.getElem?_eq_some_iff.mp taken).1
  rw [← tracked.found, List.getElem?_append_left earlier, List.getElem?_map, taken]
  rfl

/-- A step that goes by the relation at each of the given states does so in its turn. -/
theorem tracked_inTurn {relation : σ → σ → Prop} {step : Action σ α} {condition : α → Prop}
    (goes : ∀ state ∈ given, relation state (step.run.run state).2 ∧
      ∀ value, (step.run.run state).1 = .ok value → condition value) :
    step.inTurn.Keeps (Tracked relation given) condition := by
  rintro ⟨_ | ⟨found, ahead⟩, done⟩ tracked
  · rw [Action.run_inTurn_nil]
    exact ⟨tracked, fun value outcome => by cases outcome⟩
  · have isGiven : found ∈ given := by
      rw [← tracked.found]
      exact List.mem_append_right _ List.mem_cons_self
    obtain ⟨related, meets⟩ := goes found isGiven
    rw [Action.run_inTurn_cons]
    refine ⟨⟨?_, ?_⟩, meets⟩
    · simpa using tracked.found
    · intro turn member
      rcases List.mem_append.mp member with old | new
      · exact tracked.taken turn old
      · obtain rfl := List.mem_singleton.mp new
        exact related

end Turns

/-- Sharing a node with others does not keep its steps from keeping an invariant. -/
theorem Node.Keeps.shared {σ : Type} {scheme : SignatureScheme} {invariant : σ → Prop}
    {node : Node σ} (keeps : node.Keeps scheme invariant) (given : List σ) :
    node.shared.Keeps scheme (Turns.Keeping invariant given) where
  bestHeader := Turns.keeps_inTurn keeps.bestHeader
  header? hash := Turns.keeps_inTurn (keeps.header? hash)
  inherents parent slot := Turns.keeps_inTurn (keeps.inherents parent slot)
  proposer parent := by
    apply Action.Keeps.bind (Turns.keeps_inTurn (keeps.proposer parent))
    intro propose proposes
    apply Action.Keeps.pure
    intro data digest milliseconds limit
    exact Turns.keeps_inTurn (proposes data digest milliseconds limit)
  importBlock request isSealed := Turns.keeps_inTurn (keeps.importBlock request isSealed)

end Authorship
