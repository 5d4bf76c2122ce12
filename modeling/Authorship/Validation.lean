/-
Module: Authorship.Validation
Purpose: The runtime's side of authorship. When a block opens, the author that its logs name is
  noted as claimed; a call that every block carries once checks the claim against the filter; when
  the block closes, everything is forgotten. All this is done in place, one write after the other.
  Nodes ask the same filter beforehand.
Main exports: RuntimeApi, ApiError, Validation.Rules, Validation.State, Validation.openBlock,
  Validation.Ledger, Validation.Ledger.validate, Validation.checkCalls, Validation.api
-/
import Authorship.Attempt
import Authorship.Block.Header
import Authorship.Dispatch
import Authorship.Filter
import Authorship.Inherent

namespace Authorship

/-- Why the runtime did not answer. -/
inductive ApiError where
  | unknownBlock (hash : Hash)
  | application (reason : String)
deriving DecidableEq

def ApiError.message : ApiError → String
  | .unknownBlock hash => s!"unknown block {hash}"
  | .application reason => s!"runtime call failed: {reason}"

/-- Asks the runtime whether an author may author a child of a block at a slot. -/
abbrev RuntimeApi := Header → AuthorId → UInt32 → Except ApiError Bool

namespace Validation

/-- Why a claim was not validated. -/
inductive Error where
  /-- The author of this block has been validated already. -/
  | authorAlreadySet
  /-- The claimed author has no account. -/
  | noAccountId
  /-- The filter does not let the account author. -/
  | cannotBeAuthor
  /-- No log names an author. -/
  | missingAuthorDigest
deriving DecidableEq, Repr

def Error.name : Error → String
  | .authorAlreadySet => "AuthorAlreadySet"
  | .noAccountId => "NoAccountId"
  | .cannotBeAuthor => "CannotBeAuthor"
  | .missingAuthorDigest => "MissingAuthorDigest"

/-- An error as a call reports it. -/
def Error.toDispatch (error : Error) : DispatchError :=
  .inPallet "AuthorInherent" error.name

/-- What validation can be called for. -/
inductive Call where
  /-- Check that the claimed author may author. Unsigned, and in every block. -/
  | validateAuthor
deriving DecidableEq, Repr

/-- What the runtime knows of a call before it is made. -/
def Call.info : Call → DispatchInfo
  | .validateAuthor => { weight := 0, dispatchClass := .mandatory, paysFee := false }

/-- What validation goes by. -/
structure Rules (α : Type) where
  lookup : AuthorId → Option α
  filter : AuthorFilter α
  dbWeight : DbWeight := {}

/-- What is known of the current block's author. -/
structure State (α : Type) where
  /-- The author that the block's logs name. -/
  claimed : Option AuthorId := none
  /-- The claimed author's account. -/
  author : Option α := none
  validated : Bool := false
deriving DecidableEq

variable {α : Type}

/-- Forget the block. -/
def reset : StateM (State α) Unit := do
  modify ({ · with claimed := none })
  modify ({ · with author := none })
  modify ({ · with validated := false })

/-- Forget the block before, and note the author that the logs of the one that opens name. -/
def openBlock (rules : Rules α) (digest : Digest) : StateM (State α) Weight := do
  reset
  if let some claimed := digest.author? then
    modify ({ · with author := rules.lookup claimed })
    modify ({ · with claimed := some claimed })
  return rules.dbWeight.readsWrites 1 1

/-- What is known of the current block's author, and the accounts that were found to have authored
blocks, in order. -/
structure Ledger (α : Type) where
  state : State α := {}
  noted : List α := []
deriving DecidableEq

namespace Ledger

/-- Do something to what is known of the block. -/
def onState {β : Type} (step : StateM (State α) β) : StateM (Ledger α) β :=
  modifyGet fun ledger =>
    let (given, state) := step.run ledger.state
    (given, { ledger with state })

/-- Note the author that a block's logs name. -/
def openBlock (rules : Rules α) (digest : Digest) : StateM (Ledger α) Weight :=
  onState (Validation.openBlock rules digest)

/-- Forget the block. The accounts stay. -/
def closeBlock : StateM (Ledger α) Unit :=
  onState reset

/-- Check the claimed author of the current block at a slot, and note the account that is now known
to have authored the block. -/
def validate (rules : Rules α) (slot : UInt32) (origin : Origin α) :
    Attempt DispatchError (Ledger α) Unit := do
  .ofExcept origin.ensureUnsigned
  let state := (← get).state
  if state.validated then throw Error.authorAlreadySet.toDispatch
  if state.claimed.isNone then throw Error.missingAuthorDigest.toDispatch
  let some author := state.author | throw Error.noAccountId.toDispatch
  if !rules.filter author slot then throw Error.cannotBeAuthor.toDispatch
  modify fun ledger => { ledger with state := { ledger.state with validated := true } }
  modify fun ledger => { ledger with noted := ledger.noted ++ [author] }

def dispatch (rules : Rules α) (slot : UInt32) (origin : Origin α) :
    Call → Attempt DispatchError (Ledger α) Unit
  | .validateAuthor => validate rules slot origin

end Ledger

/-! ## Questions of nodes -/

/-- The account of the author that logs name. -/
def findAuthor (rules : Rules α) (digest : Digest) : Option α :=
  digest.author?.bind rules.lookup

/-- Whether the account of an author may author at a slot. -/
def canAuthor (rules : Rules α) (author : AuthorId) (slot : UInt32) : Bool :=
  match rules.lookup author with
  | some account => rules.filter account slot
  | none => false

/-- The runtime's answer to nodes, which does not depend on the parent. -/
def api (rules : Rules α) : RuntimeApi :=
  fun _ author slot => .ok (canAuthor rules author slot)

/-! ## The call as data of the author -/

/-- The call that the author of a block adds to it. -/
def createCall : Option Call := some .validateAuthor

/-- Whether a call is one that the author adds. -/
def isInherent : Call → Bool
  | .validateAuthor => true

/-- Whether a block without the call is refused. -/
def isRequired : Bool := true

/-- A block validates its author exactly once. -/
def checkCalls (calls : List Call) : Except InherentError Unit :=
  match calls.countP isInherent with
  | 0 => .error (.other "authorship validation inherent missing")
  | 1 => .ok ()
  | _ => .error (.other "authorship validation inherent included more than once")

end Validation

end Authorship
