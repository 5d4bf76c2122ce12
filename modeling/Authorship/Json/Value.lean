/-
Module: Authorship.Json.Value
Purpose: JSON values of any shape. A careful reader admits 127 levels of nesting and numbers that a
  double can hold; a careless one only checks the grammar and is used to skip a value. Texts are
  written with the fewest escapes.
Main exports: Json.Value, Json.readValue, Json.skipValue, Json.quote
-/
import Authorship.Json.Number

namespace Authorship.Json

/-- A JSON value. The members of an object are in text order, repeated names included. -/
inductive Value where
  | null
  | bool (value : Bool)
  | number (value : Number)
  | string (value : String)
  | array (items : List Value)
  | object (members : List (String × Value))
deriving Repr

/-- How carefully values are read. -/
structure Care where
  /-- Levels of nesting that are admitted. -/
  depth : Nat
  /-- Refuse numbers that exceed the largest double, and surrogates without their partner. -/
  strict : Bool

/-- The levels of nesting that a careful reader admits. -/
def depthLimit : Nat := 127

mutual

/-- A value and what follows it. The fuel bounds the calls and never runs out if there are two for
every character and two more. -/
def valueFrom (care : Care) : (fuel : Nat) → Reader Value
  | 0 => throw .malformed
  | fuel + 1 => do
    skipBlanks
    match ← get with
    | 'n' :: _ => do literal ['n', 'u', 'l', 'l']; return .null
    | 't' :: _ => do literal ['t', 'r', 'u', 'e']; return .bool true
    | 'f' :: _ => do literal ['f', 'a', 'l', 's', 'e']; return .bool false
    | '-' :: rest => do set rest; return .number (← readNumber care.strict false)
    | '"' :: rest => do set rest; return .string (← readText care.strict)
    | '[' :: rest =>
      match care.depth with
      | 0 => throw .malformed
      | depth + 1 => do
        set rest
        skipBlanks
        match ← get with
        | ']' :: rest => do set rest; return .array []
        | _ => return .array (← itemsFrom { care with depth } fuel)
    | '\x7b' :: rest =>
      match care.depth with
      | 0 => throw .malformed
      | depth + 1 => do
        set rest
        skipBlanks
        match ← get with
        | '\x7d' :: rest => do set rest; return .object []
        | _ => return .object (← membersFrom { care with depth } fuel)
    | _ => return .number (← readNumber care.strict true)

/-- The items of an array, at least one, up to its end. -/
def itemsFrom (care : Care) : (fuel : Nat) → Reader (List Value)
  | 0 => throw .malformed
  | fuel + 1 => do
    let item ← valueFrom care fuel
    skipBlanks
    match ← get with
    | ',' :: rest => do set rest; return item :: (← itemsFrom care fuel)
    | ']' :: rest => do set rest; return [item]
    | _ => throw .malformed

/-- The members of an object, at least one, up to its end. -/
def membersFrom (care : Care) : (fuel : Nat) → Reader (List (String × Value))
  | 0 => throw .malformed
  | fuel + 1 => do
    skipBlanks
    literal ['"']
    let name ← readText care.strict
    skipBlanks
    literal [':']
    let value ← valueFrom care fuel
    skipBlanks
    match ← get with
    | ',' :: rest => do set rest; return (name, value) :: (← membersFrom care fuel)
    | '\x7d' :: rest => do set rest; return [(name, value)]
    | _ => throw .malformed

end

def readValue : Reader Value := do
  valueFrom { depth := depthLimit, strict := true } (2 * (← get).length + 2)

def skipValue : Reader Unit := do
  let length := (← get).length
  let _ ← valueFrom { depth := length, strict := false } (2 * length + 2)

/-! ## Writing -/

/-- A character between quotes. -/
def quotedChar (char : Char) : List Char :=
  match char with
  | '"' => ['\\', '"']
  | '\\' => ['\\', '\\']
  | '\x08' => ['\\', 'b']
  | '\x0C' => ['\\', 'f']
  | '\n' => ['\\', 'n']
  | '\r' => ['\\', 'r']
  | '\t' => ['\\', 't']
  | _ =>
    if char.toNat < 0x20 then
      ['\\', 'u', '0', '0', Nat.digitChar (char.toNat / 16), Nat.digitChar (char.toNat % 16)]
    else [char]

def quote (text : String) : String :=
  String.ofList ('"' :: text.toList.flatMap quotedChar ++ ['"'])

/-- Written values as an array. -/
def bracket (items : List String) : String :=
  "[" ++ ",".intercalate items ++ "]"

/-- A name and a written value as a member. -/
def member (name value : String) : String :=
  quote name ++ ":" ++ value

/-- Names and written values as an object. -/
def brace (members : List (String × String)) : String :=
  "\x7b" ++ ",".intercalate (members.map fun (name, value) => member name value) ++ "\x7d"

end Authorship.Json
