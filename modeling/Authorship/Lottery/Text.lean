/-
Module: Authorship.Lottery.Text
Purpose: The JSON text of a count and of what a lottery starts with. Zero is not read. Unknown
  members are skipped.
Main exports: EligibleCount.ofJson, EligibleCount.toJson, Lottery.Genesis.ofJson,
  Lottery.Genesis.toJson
-/
import Authorship.Json.Record
import Authorship.Lottery

namespace Authorship

namespace EligibleCount

/-- Read a count. -/
def read : Json.Reader EligibleCount := do
  match of? (UInt32.ofNat (← Json.readNatural "u32" (UInt32.size - 1))) with
  | some count => return count
  | none => Json.fail zeroRefused

/-- The count that a text holds. -/
def ofJson (text : String) : Except Json.Fault EligibleCount :=
  Json.readWhole read text

/-- The text of a count. -/
def toJson (count : EligibleCount) : String :=
  toString count.value.toNat

end EligibleCount

namespace Lottery.Genesis

/-- The only field. -/
def countField : Json.Field (Option EligibleCount) where
  name := "eligible_count"
  isSet := Option.isSome
  read := fun _ => do return some (← EligibleCount.read)

/-- How what a lottery starts with is read. -/
def format : Json.RecordFormat (Option EligibleCount) Genesis where
  title := "GenesisConfig"
  fields := [countField]
  skipsUnknown := true
  start := none
  shortArray := fun index =>
    some s!"invalid length {index}, expected struct GenesisConfig with 1 element"
  finish
    | some eligibleCount => .ok { eligibleCount }
    | none => .error "missing field `eligible_count`"

/-- What a lottery starts with, from text. -/
def ofJson (text : String) : Except Json.Fault Genesis :=
  Json.readWhole format.read text

/-- What a lottery starts with, as text. -/
def toJson (genesis : Genesis) : String :=
  Json.brace [("eligible_count", genesis.eligibleCount.toJson)]

end Lottery.Genesis

end Authorship
