/-
Module: Authorship.Lottery.Count
Purpose: How many authors are drawn for a slot. The binary form is that of a plain number, but zero
  cannot be read back.
Main exports: EligibleCount, EligibleCount.of?
-/
import Authorship.Codec

namespace Authorship

/-- How many authors are drawn for a slot. -/
structure EligibleCount where
  value : UInt32
deriving DecidableEq, Repr

namespace EligibleCount

/-- A count that is not zero. -/
def of? (value : UInt32) : Option EligibleCount :=
  if value = 0 then none else some ⟨value⟩

/-- The count where none is known. -/
def standard : EligibleCount := ⟨50⟩

/-- Why zero is not read. -/
def zeroRefused : String := "expected a non-zero value"

instance : Encode EligibleCount := ⟨fun count => encode count.value⟩

instance : Decode EligibleCount where
  decoder := do
    match of? (← Decode.decoder) with
    | some count => return count
    | none => throw (.refused zeroRefused)

end EligibleCount

end Authorship
