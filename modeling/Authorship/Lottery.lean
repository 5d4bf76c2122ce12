/-
Module: Authorship.Lottery
Purpose: The filter that draws a number of eligible authors for every slot, by a random beacon,
  from the accounts that might author. The number is kept in storage; the root may change it, and
  an event records every change.
Main exports: Lottery, Lottery.eligibleCount, Lottery.writeCount, Lottery.setEligible,
  Lottery.drawFor, Lottery.filter, Lottery.Genesis
-/
import Authorship.Dispatch
import Authorship.Filter
import Authorship.Lottery.Count
import Authorship.Lottery.Draw
import Authorship.Percent
import Authorship.Storage

namespace Authorship

namespace Lottery

/-- Something that happened to the lottery. -/
inductive Event where
  /-- The number of authors drawn for a slot was changed. -/
  | eligibleUpdated (count : EligibleCount)
deriving DecidableEq, Repr

/-- What the lottery can be called for. -/
inductive Call where
  /-- Change the number of authors drawn for a slot. Meant for governance. -/
  | setEligible (count : EligibleCount)
deriving DecidableEq, Repr

/-- Why a call failed. -/
inductive Error where
  /-- The number could not be written. -/
  | storageWrite
deriving DecidableEq, Repr

def Error.name : Error → String
  | .storageWrite => "StorageWrite"

/-- An error as a call reports it. -/
def Error.toDispatch (error : Error) : DispatchError :=
  .inPallet "AuthorSlotFilter" error.name

/-- The name that the lottery's items are kept under, `AuthorSlotFilter`. -/
def palletName : Bytes := Utf8.encode "AuthorSlotFilter"

/-- Where the number of authors drawn for a slot is kept. -/
def countKey : StorageKey := ⟨palletName, Utf8.encode "EligibleCount"⟩

/-- Where the share of authors that may author used to be kept. -/
def ratioKey : StorageKey := ⟨palletName, Utf8.encode "EligibleRatio"⟩

/-- The share where none is known. -/
def standardRatio : Percent := Percent.of 50

end Lottery

/-- A lottery and what it works with. -/
structure Lottery (α : Type) where
  beacon : Beacon
  /-- The accounts that might author. -/
  potential : List α
  store : GuardedStorage := {}
  dbWeight : DbWeight := {}
  /-- The events since they were last taken. -/
  events : List Lottery.Event := []

namespace Lottery

variable {α : Type}

/-- The value under a key, or a standard one if there is none or it cannot be read. -/
def readOr {β : Type} [Decode β] (lottery : Lottery α) (key : StorageKey) (standard : β) : β :=
  match lottery.store.storage.getValue β key with
  | .ok (some value) => value
  | _ => standard

/-- The number of authors drawn for a slot. -/
def eligibleCount (lottery : Lottery α) : EligibleCount :=
  lottery.readOr countKey .standard

/-- The share of authors that used to be drawn. Only the migration still needs it. -/
def eligibleRatio (lottery : Lottery α) : Percent :=
  lottery.readOr ratioKey standardRatio

def deposit (lottery : Lottery α) (event : Event) : Lottery α :=
  { lottery with events := lottery.events ++ [event] }

/-- Hand over the events recorded so far. -/
def takeEvents (lottery : Lottery α) : List Event × Lottery α :=
  (lottery.events, { lottery with events := [] })

/-- Write the number of authors drawn for a slot. -/
def writeCount (count : EligibleCount) : Attempt StorageError (Lottery α) Unit :=
  .onPart store (fun lottery store => { lottery with store })
    (GuardedStorage.putValue countKey count)

/-- Change the number of authors drawn for a slot. Only the root may. The event is recorded after
the number is written. -/
def setEligible (origin : Origin α) (count : EligibleCount) :
    Attempt DispatchError (Lottery α) Unit := do
  .ofExcept origin.ensureRoot
  ExceptT.adapt (fun _ => Error.storageWrite.toDispatch) (writeCount count)
  modify (·.deposit (.eligibleUpdated count))

def dispatch (origin : Origin α) : Call → Attempt DispatchError (Lottery α) Unit
  | .setEligible count => setEligible origin count

/-- Draw the authors of a slot from the given accounts. -/
def drawFor (lottery : Lottery α) (accounts : List α) (slot : UInt32) : Draw α :=
  draw lottery.beacon slot lottery.eligibleCount.value.toNat accounts

/-- The accounts drawn from those that might author may author. -/
def filter [DecidableEq α] (lottery : Lottery α) : AuthorFilter α :=
  fun account slot => decide (account ∈ (lottery.drawFor lottery.potential slot).eligible)

/-! ## Genesis -/

/-- What the lottery starts with. -/
structure Genesis where
  eligibleCount : EligibleCount := .standard
deriving DecidableEq, Repr

/-- Write what the lottery starts with. -/
def Genesis.build (genesis : Genesis) : Attempt StorageError GuardedStorage Unit :=
  GuardedStorage.putValue countKey genesis.eligibleCount

end Lottery

end Authorship
