/-
Module: Authorship.Inherent
Purpose: Data that a block's author supplies and the runtime checks. Values are kept in binary form
  under eight-byte identifiers, each written at most once. Providers write one after the other, and
  what was written before one fails stays.
Main exports: InherentId, InherentError, InherentData, InherentData.put, InherentProvider,
  InherentProvider.create
-/
import Authorship.Assoc
import Authorship.Attempt
import Authorship.Codec

namespace Authorship

/-- Eight-byte identifier of a value. -/
abbrev InherentId := FixedBytes 8

/-- The identifier of the slot, `nimbslot`. -/
def slotInherent : InherentId := ⟨[0x6e, 0x69, 0x6d, 0x62, 0x73, 0x6c, 0x6f, 0x74], rfl⟩

/-- An identifier as errors name it: its bytes in decimal. -/
def InherentId.name (id : InherentId) : String :=
  "[" ++ ", ".intercalate (id.toList.map fun byte => toString byte.toNat) ++ "]"

/-- Why inherent data could not be made or read. -/
inductive InherentError where
  | alreadyPresent (id : InherentId)
  | encode (id : InherentId)
  | decode (id : InherentId)
  | other (reason : String)
deriving DecidableEq

def InherentError.message : InherentError → String
  | .alreadyPresent id => s!"inherent data for {id.name} already present"
  | .encode id => s!"failed to encode inherent {id.name}"
  | .decode id => s!"failed to decode inherent {id.name}"
  | .other reason => reason

/-- Values in binary form, by identifier. -/
structure InherentData where
  values : Assoc InherentId Bytes := .empty
deriving DecidableEq

namespace InherentData

def empty : InherentData := {}

instance : Inhabited InherentData := ⟨empty⟩

/-- Add a value under an identifier that has none. -/
def put {α : Type} [TryEncode α] (id : InherentId) (value : α) :
    Attempt InherentError InherentData Unit := do
  if (← MonadState.get).values.contains id then throw (.alreadyPresent id)
  match tryEncode value with
  | .ok bytes => modify fun data => { values := data.values.insert id bytes }
  | .error _ => throw (.encode id)

/-- The value under an identifier, if there is one. -/
def get (α : Type) [Decode α] (data : InherentData) (id : InherentId) :
    Except InherentError (Option α) :=
  match data.values.get? id with
  | none => .ok none
  | some bytes =>
    match decode α bytes with
    | .ok value => .ok (some value)
    | .error _ => .error (.decode id)

/-- The slot, if one was supplied. -/
def slot (data : InherentData) : Except InherentError (Option UInt32) :=
  data.get UInt32 slotInherent

def size (data : InherentData) : Nat :=
  data.values.size

end InherentData

/-- Writes values into the data at hand. -/
abbrev InherentProvider := Attempt InherentError InherentData Unit

namespace InherentProvider

def nothing : InherentProvider := pure ()

def single {α : Type} [TryEncode α] (id : InherentId) (value : α) : InherentProvider :=
  InherentData.put id value

def slot (number : UInt32) : InherentProvider :=
  single slotInherent number

/-- Writes what one provider writes and then what another does. -/
def both (one two : InherentProvider) : InherentProvider := do
  one
  two

/-- Write into the data at hand: the outcome, and the data afterwards. -/
def provide (provider : InherentProvider) (data : InherentData) :
    Except InherentError Unit × InherentData :=
  provider.run.run data

/-- Write into fresh data. -/
def create (provider : InherentProvider) : Except InherentError InherentData :=
  match provider.provide .empty with
  | (.ok _, data) => .ok data
  | (.error error, _) => .error error

end InherentProvider

end Authorship
