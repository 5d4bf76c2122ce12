/-
Module: Authorship.Execution
Purpose: Executing sealed blocks. The seal is taken off and checked first, and only then does an
  inner executive see the block, without its seal. One such executive validates the author at a
  given slot; another one takes the number of each block for its slot.
Main exports: Executive, ExecutionError, executeSealed, Executive.observed, Validation.executiveAt,
  Validation.executive
-/
import Authorship.Block.Seal
import Authorship.Validation

namespace Authorship

/-- Executes a block against a state; the state afterwards comes also with a failure. -/
abbrev Executive (σ ε : Type) := Block → σ → Except ε Unit × σ

/-- Why a sealed block was not executed. -/
inductive ExecutionError (ε : Type) where
  | invalidSeal (error : SealError)
  | inner (error : ε)
deriving DecidableEq

def ExecutionError.message {ε : Type} (innerMessage : ε → String) : ExecutionError ε → String
  | .invalidSeal error => s!"invalid seal: {error.message}"
  | .inner error => s!"inner executive: {innerMessage error}"

/-- Check the seal of a block, then execute the block without it. -/
def executeSealed {σ ε : Type} (scheme : SignatureScheme) (executive : Executive σ ε) :
    Executive σ (ExecutionError ε) :=
  fun block state =>
    match block.header.stripSeal scheme with
    | (.error error, _) => (.error (.invalidSeal error), state)
    | (.ok _, header) =>
      let (outcome, state) := executive { block with header } state
      (outcome.mapError .inner, state)

/-- The executive together with the block that it was last given. -/
def Executive.observed {σ ε : Type} (executive : Executive σ ε) :
    Executive (σ × Option Block) ε :=
  fun block (state, _) =>
    let (outcome, state) := executive block state
    (outcome, state, some block)

namespace Validation

variable {α : Type}

/-- Open a block, validate its author at a slot, close the block, whether its author was accepted or
not. -/
def executiveAt (rules : Rules α) (slot : UInt32) : Executive (Ledger α) DispatchError :=
  fun block => StateT.run do
    let _ ← Ledger.openBlock rules block.header.digest
    let outcome ← (Ledger.dispatch rules slot .unsigned .validateAuthor).run
    Ledger.closeBlock
    return outcome

/-- Open a block, validate its author with the block's number as slot, close the block. -/
def executive (rules : Rules α) : Executive (Ledger α) DispatchError :=
  fun block => executiveAt rules block.header.number block

end Validation

end Authorship
