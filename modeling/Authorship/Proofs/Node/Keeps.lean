/-
Module: Authorship.Proofs.Node.Keeps
Purpose: Steps of a node that keep an invariant of its state whether they fail or not. A step is
  judged together with a condition on what it gives, so that the steps after it can use it, and a
  composed step is judged by its parts.
Main exports: Action.Keeps, Action.Keeps.bind, Preserves, Preserves.bind
-/
import Authorship.Consensus.Node

namespace Authorship

variable {σ α β : Type} {invariant : σ → Prop}

namespace Action

/-- The step keeps the invariant, and what it gives, if it does not fail, meets the condition. -/
def Keeps (invariant : σ → Prop) (step : Action σ α) (condition : α → Prop) : Prop :=
  ∀ state, invariant state →
    invariant (step.run.run state).2 ∧
      ∀ value, (step.run.run state).1 = .ok value → condition value

namespace Keeps

variable {step : Action σ α} {condition : α → Prop}

theorem pure {value : α} (meets : condition value) :
    Keeps invariant (Pure.pure value : Action σ α) condition := by
  intro state holds
  refine ⟨holds, ?_⟩
  intro other given
  cases given
  exact meets

theorem throw (error : ConsensusError) :
    Keeps invariant (MonadExcept.throw error : Action σ α) condition := by
  intro state holds
  refine ⟨holds, ?_⟩
  intro other given
  cases given

theorem ofExcept {outcome : Except ConsensusError α}
    (meets : ∀ value, outcome = .ok value → condition value) :
    Keeps invariant (.ofExcept outcome : Action σ α) condition := by
  intro state holds
  exact ⟨holds, meets⟩

theorem get : Keeps invariant (MonadState.get : Action σ σ) invariant := by
  intro state holds
  refine ⟨holds, ?_⟩
  intro other given
  cases given
  exact holds

theorem bind {first : Action σ β} {next : β → Action σ α} {middle : β → Prop}
    (one : Keeps invariant first middle)
    (two : ∀ value, middle value → Keeps invariant (next value) condition) :
    Keeps invariant (first >>= next) condition := by
  intro state holds
  obtain ⟨kept, meets⟩ := one state holds
  rw [ExceptT.run_bind, StateT.run_bind]
  cases ran : first.run.run state with
  | mk outcome after =>
      rw [ran] at kept meets
      cases outcome with
      | error error => exact ⟨kept, fun value given => by cases given⟩
      | ok value => exact two value (meets value rfl) after kept

theorem mono {weaker : α → Prop} (keeps : Keeps invariant step condition)
    (implies : ∀ value, condition value → weaker value) : Keeps invariant step weaker := by
  intro state holds
  obtain ⟨kept, meets⟩ := keeps state holds
  exact ⟨kept, fun value given => implies value (meets value given)⟩

/-- A step that only looks at the state keeps everything. -/
theorem of_looks {read : σ → Except ConsensusError α}
    (looks : ∀ state, step.run.run state = (read state, state))
    (meets : ∀ state value, read state = .ok value → condition value) :
    Keeps invariant step condition := by
  intro state holds
  rw [looks state]
  exact ⟨holds, meets state⟩

theorem ofExcept_get (read : σ → Except ConsensusError α) :
    Keeps invariant (do .ofExcept (read (← MonadState.get)) : Action σ α) fun _ => True :=
  of_looks (fun _ => rfl) fun _ _ _ => trivial

end Keeps

end Action

/-- The program keeps the invariant. -/
def Preserves (invariant : σ → Prop) (program : StateM σ α) : Prop :=
  ∀ state, invariant state → invariant (program.run state).2

namespace Preserves

theorem pure (value : α) : Preserves invariant (Pure.pure value : StateM σ α) := by
  intro state holds
  exact holds

theorem bind {first : StateM σ β} {next : β → StateM σ α} (one : Preserves invariant first)
    (two : ∀ value, Preserves invariant (next value)) : Preserves invariant (first >>= next) := by
  intro state holds
  exact two _ _ (one state holds)

theorem run {step : Action σ α} {condition : α → Prop}
    (keeps : step.Keeps invariant condition) : Preserves invariant step.run := by
  intro state holds
  exact (keeps state holds).1

end Preserves

end Authorship
