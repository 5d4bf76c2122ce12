/-
Module: Authorship.Lottery.Migration
Purpose: From a share of eligible authors to a number of them. A stored share is turned into the
  number it amounts to for the accounts that might author now, and stays where it is. Checks before
  and after tell whether that happened.
Main exports: Lottery.Migration.target?, Lottery.Migration.run, Lottery.Migration.check
-/
import Authorship.Lottery

namespace Authorship.Lottery.Migration

variable {α : Type}

/-- Why a check around the migration failed. -/
inductive Error where
  | ratioUndecodable
  | countUndecodable
  | unexpectedCount
deriving DecidableEq, Repr

/-- The wording of an error. -/
def Error.message : Error → String
  | .ratioUndecodable => "eligible ratio is not decodable"
  | .countUndecodable => "eligible count is not decodable"
  | .unexpectedCount => "unexpected eligible count"

/-- The stored share, if there is one. -/
def storedRatio (lottery : Lottery α) : Except Error (Option Percent) :=
  (lottery.store.storage.getValue Percent ratioKey).mapError fun _ => .ratioUndecodable

/-- The number that a share amounts to; the standard one instead of zero. -/
def countFor (lottery : Lottery α) (ratio : Percent) : EligibleCount :=
  (EligibleCount.of? (ratio.mulCeil (UInt32.ofNat lottery.potential.length))).getD .standard

/-- The number that the migration will write; nothing if it has nothing to do. -/
def target? (lottery : Lottery α) : Except Error (Option EligibleCount) := do
  return (← storedRatio lottery).map (countFor lottery)

/-- Migrate: the weight used, and the lottery that is left. -/
def run (lottery : Lottery α) : Weight × Lottery α :=
  match storedRatio lottery with
  | .error _ => (lottery.dbWeight.reads 1, lottery)
  | .ok none => (0, lottery)
  | .ok (some ratio) =>
    match (writeCount (countFor lottery ratio)).run.run lottery with
    | (.error _, left) => (lottery.dbWeight.reads 1, left)
    | (.ok (), left) => (lottery.dbWeight.readsWrites 1 1, left)

/-- Check that the stored number can be read and is the expected one, if one is expected. -/
def check (lottery : Lottery α) (expected : Option EligibleCount) : Except Error Unit := do
  let actual ←
    (lottery.store.storage.getValue EligibleCount countKey).mapError fun _ => .countUndecodable
  match expected with
  | none => return ()
  | some _ => if actual = expected then return () else throw .unexpectedCount

end Authorship.Lottery.Migration
