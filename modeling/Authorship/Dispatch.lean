/-
Module: Authorship.Dispatch
Purpose: Calls into a runtime: who makes them, how they fail, what they weigh. Weights saturate.
Main exports: Origin, DispatchError, DispatchInfo, DbWeight
-/

namespace Authorship

/-- Who makes a call. -/
inductive Origin (α : Type) where
  | root
  | signed (account : α)
  /-- Nobody in particular: the calls that every block carries. -/
  | unsigned
deriving DecidableEq, Repr

/-- Why a call failed. -/
inductive DispatchError where
  | badOrigin
  | inPallet (pallet error : String)
  | other (reason : String)
deriving DecidableEq, Repr

def DispatchError.message : DispatchError → String
  | .badOrigin => "bad origin"
  | .inPallet pallet error => s!"{pallet}: {error}"
  | .other reason => reason

namespace Origin

variable {α : Type}

/-- Only the root may go on. -/
def ensureRoot : Origin α → Except DispatchError Unit
  | .root => .ok ()
  | _ => .error .badOrigin

/-- Only an unsigned call may go on. -/
def ensureUnsigned : Origin α → Except DispatchError Unit
  | .unsigned => .ok ()
  | _ => .error .badOrigin

/-- Only an account may go on, and this is it. -/
def ensureSigned : Origin α → Except DispatchError α
  | .signed account => .ok account
  | _ => .error .badOrigin

end Origin

/-! ## Weights -/

abbrev Weight := UInt64

namespace Weight

/-- The weight nearest to a number. -/
def saturating (value : Nat) : Weight :=
  UInt64.ofNat (min value (UInt64.size - 1))

/-- Sum, at most the largest weight. -/
def plus (one two : Weight) : Weight :=
  saturating (one.toNat + two.toNat)

def times (one two : Weight) : Weight :=
  saturating (one.toNat * two.toNat)

end Weight

/-- What an access to the database weighs. -/
structure DbWeight where
  read : Weight := 0
  write : Weight := 0
deriving DecidableEq, Repr

namespace DbWeight

def reads (weight : DbWeight) (count : UInt64) : Weight :=
  weight.read.times count

def writes (weight : DbWeight) (count : UInt64) : Weight :=
  weight.write.times count

def readsWrites (weight : DbWeight) (readCount writeCount : UInt64) : Weight :=
  (weight.reads readCount).plus (weight.writes writeCount)

end DbWeight

/-- Which calls a block has room for. -/
inductive DispatchClass where
  | normal
  | operational
  /-- In every block, whatever the block weighs. -/
  | mandatory
deriving DecidableEq, Repr

/-- What the runtime knows of a call before it is made. -/
structure DispatchInfo where
  weight : Weight
  dispatchClass : DispatchClass
  paysFee : Bool
deriving DecidableEq, Repr

end Authorship
