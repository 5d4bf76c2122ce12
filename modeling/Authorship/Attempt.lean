/-
Module: Authorship.Attempt
Purpose: Steps that may change a state and may fail. A failure does not undo what was written before
  it, so a step that is to leave everything as it was when it fails has to fail before it writes.
Main exports: Attempt, Attempt.ofExcept, Attempt.advance, Attempt.onPart, Attempt.run_bind_ok,
  Attempt.run_bind_eq, Attempt.run_bind_error
-/

namespace Authorship

theorem StateM.run_bind_eq {σ α β : Type} {first : StateM σ β} {next : β → StateM σ α} {given : β}
    {state middle : σ} (ran : first.run state = (given, middle)) :
    (first >>= next).run state = (next given).run middle := by
  rw [StateT.run_bind, ran]
  rfl

/-- A step that may change a state and may fail; what it changed before it failed stays. -/
abbrev Attempt (ε σ α : Type) := ExceptT ε (StateM σ) α

namespace Attempt

variable {ε σ α β : Type} {state next final : σ}

/-- An outcome that does not depend on the state. -/
def ofExcept (outcome : Except ε α) : Attempt ε σ α :=
  ExceptT.mk (pure outcome)

/-- An outcome that comes with the next state if it is not a failure. -/
def advance (step : σ → Except ε (α × σ)) : Attempt ε σ α :=
  ExceptT.mk fun state =>
    match step state with
    | .ok (outcome, next) => (.ok outcome, next)
    | .error error => (.error error, state)

/-- A step that works on a part of the state, which then is put back. -/
def onPart {τ : Type} (part : τ → σ) (put : τ → σ → τ) (step : Attempt ε σ α) : Attempt ε τ α :=
  ExceptT.mk fun state =>
    let (outcome, left) := step.run.run (part state)
    (outcome, put state left)

theorem ext {one two : Attempt ε σ α} (same : ∀ state, one.run.run state = two.run.run state) :
    one = two := by
  funext state
  exact same state

/-! ## Single steps -/

theorem run_get (state : σ) :
    (MonadState.get : Attempt ε σ σ).run.run state = (.ok state, state) :=
  rfl

theorem run_modify (change : σ → σ) (state : σ) :
    (modify change : Attempt ε σ PUnit).run.run state = (.ok (), change state) :=
  rfl

theorem run_throw (error : ε) (state : σ) :
    (throw error : Attempt ε σ α).run.run state = (.error error, state) :=
  rfl

theorem run_ofExcept (outcome : Except ε α) (state : σ) :
    (ofExcept outcome : Attempt ε σ α).run.run state = (outcome, state) :=
  rfl

theorem run_ofExcept_ok {outcome : Except ε α} {value : α}
    (ran : (ofExcept outcome : Attempt ε σ α).run.run state = (.ok value, final)) :
    outcome = .ok value ∧ state = final := by
  obtain ⟨same, rfl⟩ := Prod.mk.inj ran
  exact ⟨same, rfl⟩

theorem run_onPart {τ : Type} {part : τ → σ} {put : τ → σ → τ} {step : Attempt ε σ α} {state : τ}
    {outcome : Except ε α} {left : σ} (ran : step.run.run (part state) = (outcome, left)) :
    (onPart part put step).run.run state = (outcome, put state left) := by
  simp only [onPart, ExceptT.run_mk, StateT.run] at ran ⊢
  rw [ran]

theorem run_adapt {ε' : Type} {rename : ε → ε'} {step : Attempt ε σ α} {outcome : Except ε α}
    (ran : step.run.run state = (outcome, final)) :
    (ExceptT.adapt rename step : Attempt ε' σ α).run.run state =
      (outcome.mapError rename, final) := by
  change (Except.mapError rename <$> step.run).run state = _
  rw [StateT.run_map, ran]
  rfl

section Advance

variable {step other : σ → Except ε (α × σ)}

theorem run_advance_congr (same : step state = other state) :
    (advance step).run.run state = (advance other).run.run state := by
  simp only [advance, ExceptT.run_mk, StateT.run, same]

theorem run_advance_ok {outcome : α} (stepped : step state = .ok (outcome, next)) :
    (advance step).run.run state = (.ok outcome, next) := by
  simp only [advance, ExceptT.run_mk, StateT.run, stepped]

theorem run_advance_error {error : ε} (failed : step state = .error error) :
    (advance step).run.run state = (.error error, state) := by
  simp only [advance, ExceptT.run_mk, StateT.run, failed]

end Advance

/-! ## One step after another -/

/-- A step after another one gives something only if the first one did. -/
theorem run_bind_ok {first : Attempt ε σ β} {next : β → Attempt ε σ α} {value : α}
    (ran : (first >>= next).run.run state = (.ok value, final)) :
    ∃ given middle, first.run.run state = (.ok given, middle) ∧
      (next given).run.run middle = (.ok value, final) := by
  rw [ExceptT.run_bind, StateT.run_bind] at ran
  cases began : first.run.run state with
  | mk outcome middle =>
      rw [began] at ran
      cases outcome with
      | error error => cases ran
      | ok given => exact ⟨given, middle, rfl, ran⟩

theorem run_bind_eq {first : Attempt ε σ β} {next : β → Attempt ε σ α} {given : β} {middle : σ}
    (ran : first.run.run state = (.ok given, middle)) :
    (first >>= next).run.run state = (next given).run.run middle := by
  rw [ExceptT.run_bind, StateT.run_bind, ran]
  rfl

/-- A step after one that fails is not taken. -/
theorem run_bind_error {first : Attempt ε σ β} {next : β → Attempt ε σ α} {error : ε}
    (failed : first.run.run state = (.error error, final)) :
    (first >>= next).run.run state = (.error error, final) := by
  rw [ExceptT.run_bind, StateT.run_bind, failed]
  rfl

end Attempt

end Authorship
