/-
Module: Authorship.Settings
Purpose: Settings of an authoring node. They are read from a JSON record whose fields may all be
  missing, and then checked: a slot lasts some time, and proposing a block takes no longer.
Main exports: Settings, Settings.Valid, Settings.validate, Settings.ofJson, Settings.ofFile,
  Settings.toJson
-/
import Authorship.Json.Record
import Authorship.Slot.Clock
import Authorship.Text.Utf8

namespace Authorship

structure Settings where
  /-- Milliseconds of a slot. -/
  slotMillis : UInt64 := 6000
  /-- Milliseconds that a proposer has to fill a block. -/
  proposingMillis : UInt64 := 500
  /-- The largest size of the extrinsics in an authored block. -/
  blockSizeLimit : Option UInt64 := none
  /-- Author also while the node catches up with others. -/
  forceAuthoring : Bool := false
deriving DecidableEq, Repr

namespace Settings

/-- Why there are no settings. -/
inductive Error where
  /-- There is no file, or it is not text. -/
  | unreadable
  | json (fault : Json.Fault)
  | zeroSlot
  | proposingTooLong
deriving DecidableEq, Repr

/-- The wording of an error, where the fault is not in the text itself. -/
def Error.message? (error : Error) : Option String :=
  let reason? :=
    match error with
    | .unreadable | .json .malformed => none
    | .json (.mismatch message) => some message
    | .zeroSlot => some "slot duration must be non-zero"
    | .proposingTooLong => some "proposing duration exceeds the slot duration"
  reason?.map fun reason => s!"invalid configuration: {reason}"

/-- Settings that make sense. -/
def Valid (settings : Settings) : Prop :=
  settings.slotMillis ≠ 0 ∧ settings.proposingMillis ≤ settings.slotMillis

/-- Check that settings make sense. -/
def validate (settings : Settings) : Except Error Unit :=
  if settings.slotMillis = 0 then .error .zeroSlot
  else if settings.slotMillis < settings.proposingMillis then .error .proposingTooLong
  else .ok ()

def slotDuration (settings : Settings) : Duration := .ofMillis settings.slotMillis

def proposingDuration (settings : Settings) : Duration := .ofMillis settings.proposingMillis

/-! ## JSON -/

/-- The fields that a text gives. -/
structure Given where
  slotMillis : Option UInt64 := none
  proposingMillis : Option UInt64 := none
  blockSizeLimit : Option (Option UInt64) := none
  forceAuthoring : Option Bool := none
deriving DecidableEq, Repr

/-- The given fields over the standard ones. -/
def Given.complete (given : Given) : Settings :=
  let standard : Settings := {}
  { slotMillis := given.slotMillis.getD standard.slotMillis
    proposingMillis := given.proposingMillis.getD standard.proposingMillis
    blockSizeLimit := given.blockSizeLimit.getD standard.blockSizeLimit
    forceAuthoring := given.forceAuthoring.getD standard.forceAuthoring }

/-- A whole number of 64 bits. -/
def readWord (wanted : String) : Json.Reader UInt64 :=
  UInt64.ofNat <$> Json.readNatural wanted (UInt64.size - 1)

/-- The fields, in order. -/
def fields : List (Json.Field Given) := [
  { name := "slot_duration"
    aliases := ["slot_duration_ms"]
    isSet := (·.slotMillis.isSome)
    read := fun given => do return { given with slotMillis := some (← readWord "u64") } },
  { name := "proposing_duration"
    aliases := ["proposing_duration_ms"]
    isSet := (·.proposingMillis.isSome)
    read := fun given => do return { given with proposingMillis := some (← readWord "u64") } },
  { name := "block_size_limit"
    isSet := (·.blockSizeLimit.isSome)
    read := fun given => do
      return { given with blockSizeLimit := some (← Json.readOptional (readWord "usize")) } },
  { name := "force_authoring"
    isSet := (·.forceAuthoring.isSome)
    read := fun given => do return { given with forceAuthoring := some (← Json.readBool) } }]

/-- How settings are read. -/
def format : Json.RecordFormat Given Settings where
  title := "NimbusConfig"
  fields := fields
  skipsUnknown := false
  start := {}
  finish given := .ok given.complete

/-- Read settings and check them. -/
def ofJson (text : String) : Except Error Settings := do
  let settings ← (Json.readWhole format.read text).mapError .json
  settings.validate
  return settings

/-- Read settings from the contents of a file, if there is one. -/
def ofFile (contents? : Option Bytes) : Except Error Settings :=
  match contents? with
  | none => .error .unreadable
  | some contents =>
    match Utf8.decode contents with
    | .ok text => ofJson text
    | .error _ => .error .unreadable

def limitText : Option UInt64 → String
  | none => "null"
  | some limit => toString limit.toNat

/-- All fields as a JSON record, under their first names. -/
def toJson (settings : Settings) : String :=
  let members := [
    ("slot_duration", toString settings.slotMillis.toNat),
    ("proposing_duration", toString settings.proposingMillis.toNat),
    ("block_size_limit", limitText settings.blockSizeLimit),
    ("force_authoring", if settings.forceAuthoring then "true" else "false")]
  Json.brace members

end Settings

end Authorship
