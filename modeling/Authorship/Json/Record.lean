/-
Module: Authorship.Json.Record
Purpose: Reading JSON into records of known fields. A record is an object whose members come in any
  order, or an array of the fields in theirs. A name is checked as soon as it is read: it must be
  known, unless unknown ones are skipped, and new.
Main exports: Json.mismatch, Json.readNatural, Json.readBool, Json.readOptional, Json.Field,
  Json.RecordFormat, Json.RecordFormat.read
-/
import Authorship.Json.Value
import Authorship.Text.Quoted

namespace Authorship.Json

/-- Fail with a message about the data. -/
def fail {α : Type} (message : String) : Reader α :=
  throw (.mismatch message)

/-- How a message names a number of the wrong type. -/
def Number.describe : Number → String
  | .natural value => s!"integer `{value}`"
  | .negative magnitude => s!"integer `-{magnitude}`"
  | .fraction => "floating point"

/-- Fail because something else was wanted than what is at the head. Arrays and objects are named
before they are read, everything else after. -/
def mismatch {α : Type} (wanted : String) : Reader α := do
  let refuse (found : String) : Reader α := fail s!"invalid type: {found}, expected {wanted}"
  match ← get with
  | 'n' :: _ => do literal ['n', 'u', 'l', 'l']; refuse "null"
  | 't' :: _ => do literal ['t', 'r', 'u', 'e']; refuse "boolean `true`"
  | 'f' :: _ => do literal ['f', 'a', 'l', 's', 'e']; refuse "boolean `false`"
  | '-' :: rest => do set rest; refuse (← readNumber true false).describe
  | '"' :: rest => do set rest; refuse ("string " ++ Text.quoted (← readText true))
  | '[' :: _ => refuse "sequence"
  | '\x7b' :: _ => refuse "map"
  | _ => refuse (← readNumber true true).describe

/-- A whole number up to a bound. -/
def readNatural (wanted : String) (bound : Nat) : Reader Nat := do
  skipBlanks
  let refuse (number : Number) : Reader Nat :=
    fail s!"invalid value: {number.describe}, expected {wanted}"
  let number ←
    match ← get with
    | '-' :: rest => do set rest; readNumber true false
    | char :: _ => if isDigit char then readNumber true true else mismatch wanted
    | [] => throw .malformed
  match number with
  | .natural value => if value ≤ bound then return value else refuse number
  | .negative _ => refuse number
  | .fraction => fail s!"invalid type: {number.describe}, expected {wanted}"

def readBool : Reader Bool := do
  skipBlanks
  match ← get with
  | 't' :: _ => do literal ['t', 'r', 'u', 'e']; return true
  | 'f' :: _ => do literal ['f', 'a', 'l', 's', 'e']; return false
  | _ => mismatch "a boolean"

/-- Null or a value. -/
def readOptional {α : Type} (reader : Reader α) : Reader (Option α) := do
  skipBlanks
  match ← get with
  | 'n' :: _ => do literal ['n', 'u', 'l', 'l']; return none
  | _ => return some (← reader)

/-! ## Records -/

/-- A field of a record that is read into a state `σ`. -/
structure Field (σ : Type) where
  /-- The name that messages use. -/
  name : String
  /-- Other names that the text may use. -/
  aliases : List String := []
  /-- Whether the field has been read. -/
  isSet : σ → Bool
  read : σ → Reader σ

/-- How a record is read. -/
structure RecordFormat (σ α : Type) where
  /-- What messages call the record. -/
  title : String
  fields : List (Field σ)
  /-- Whether members with unknown names are skipped. -/
  skipsUnknown : Bool
  /-- The state before any field was read. -/
  start : σ
  /-- Why an array may not end before the field with this index. -/
  shortArray : Nat → Option String := fun _ => none
  /-- The record, or what is missing. -/
  finish : σ → Except String α

namespace RecordFormat

variable {σ α : Type}

/-- Every name that a field may have, in the order of the fields. -/
def names (format : RecordFormat σ α) : List String :=
  format.fields.flatMap fun field => field.name :: field.aliases

def field? (format : RecordFormat σ α) (name : String) : Option (Field σ) :=
  format.fields.find? fun field => name = field.name || field.aliases.contains name

/-- How a message lists names. -/
def listNames : List String → String
  | [one] => s!"`{one}`"
  | [one, two] => s!"`{one}` or `{two}`"
  | names => "one of " ++ ", ".intercalate (names.map fun name => s!"`{name}`")

/-- A member's name: the field that it belongs to, or nothing if the member is to be skipped. -/
def readName (format : RecordFormat σ α) (state : σ) : Reader (Option (Field σ)) := do
  literal ['"']
  let name ← readText true
  match format.field? name with
  | some field =>
    if field.isSet state then fail s!"duplicate field `{field.name}`" else return some field
  | none =>
    if format.skipsUnknown then return none
    else
      let known := listNames format.names
      fail s!"unknown field `{name}`, expected {known}"

def readMember (format : RecordFormat σ α) (state : σ) : Reader σ := do
  let field? ← format.readName state
  skipBlanks
  literal [':']
  match field? with
  | some field => field.read state
  | none => do
    skipValue
    return state

/-- The members of an object, at least one, up to its end, which is left where it is. The fuel never
runs out if there is one for every character. -/
def membersFrom (format : RecordFormat σ α) : (fuel : Nat) → σ → Reader σ
  | 0, _ => throw .malformed
  | fuel + 1, state => do
    skipBlanks
    let state ← format.readMember state
    skipBlanks
    match ← get with
    | ',' :: rest => do set rest; format.membersFrom fuel state
    | '\x7d' :: _ => return state
    | _ => throw .malformed

/-- The fields of an array, from the one with the given index on, up to its end, which is left where
it is. -/
def itemsFrom (format : RecordFormat σ α) : (index : Nat) → List (Field σ) → σ → Reader σ
  | _, [], state => return state
  | index, field :: fields, state => do
    skipBlanks
    match ← get with
    | ']' :: _ =>
      match format.shortArray index with
      | some message => fail message
      | none => format.itemsFrom (index + 1) fields state
    | ',' :: rest => do
      if index = 0 then throw .malformed
      set rest
      format.itemsFrom (index + 1) fields (← field.read state)
    | [] => throw .malformed
    | _ => do
      if index ≠ 0 then throw .malformed
      format.itemsFrom (index + 1) fields (← field.read state)

/-- The record that a state amounts to. -/
def complete (format : RecordFormat σ α) (state : σ) : Reader α :=
  match format.finish state with
  | .ok record => return record
  | .error message => fail message

def read (format : RecordFormat σ α) : Reader α := do
  skipBlanks
  match ← get with
  | [] => throw .malformed
  | '[' :: rest => do
    set rest
    let record ← format.complete (← format.itemsFrom 0 format.fields format.start)
    skipBlanks
    literal [']']
    return record
  | '\x7b' :: rest => do
    set rest
    skipBlanks
    let state ←
      match ← get with
      | '\x7d' :: _ => pure format.start
      | _ => format.membersFrom rest.length format.start
    let record ← format.complete state
    literal ['\x7d']
    return record
  | _ => mismatch s!"struct {format.title}"

end RecordFormat

end Authorship.Json
