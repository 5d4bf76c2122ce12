/-
Module: Authorship.Docs.ImplementationTable
Purpose: The table of a trait's implementations, by crate, and the script that registers it with the
  viewer. A table lists only crates that implement the trait. A script is read whatever white space
  stands around it and whatever form its JSON has.
Main exports: Docs.ImplementationTable, Docs.ImplementationTable.push,
  Docs.ImplementationTable.render, Docs.ImplementationTable.parse
-/
import Authorship.Docs.Implementation
import Authorship.Json.Value
import Authorship.NameMap
import Authorship.Text.Blank

namespace Authorship.Docs

/-- The implementations of a trait. -/
structure ImplementationTable where
  /-- The implementations of each crate, in the order in which they came. -/
  byCrate : NameMap (List Implementation) := .empty
  listed : ∀ crate ∈ byCrate.entries, crate.2 ≠ [] := by
    exact fun _ impossible => nomatch impossible

namespace ImplementationTable

@[ext] theorem ext {one two : ImplementationTable} (same : one.byCrate = two.byCrate) :
    one = two := by
  cases one; cases two; cases same; rfl

instance : DecidableEq ImplementationTable := fun one two =>
  if same : one.byCrate = two.byCrate then isTrue (ext same)
  else isFalse fun equal => same (congrArg byCrate equal)

def empty : ImplementationTable := {}

instance : Inhabited ImplementationTable := ⟨empty⟩

/-- Add an implementation to those of its crate. -/
def push (table : ImplementationTable) (crate : String) (item : Implementation) :
    ImplementationTable where
  byCrate := table.byCrate.update crate fun items? => items?.getD [] ++ [item]
  listed := by
    intro pair member
    rcases NamedValues.mem_update member with ⟨_, _, grown⟩ | old
    · simp [grown]
    · exact table.listed pair old

/-- Add the implementation by which a type describes itself. -/
def pushType (table : ImplementationTable) (type : TypeDescription) : ImplementationTable :=
  table.push type.owner type.implementation

def items (table : ImplementationTable) (crate : String) : List Implementation :=
  (table.byCrate.get? crate).getD []

/-- The crates, in the order of their names. -/
def crates (table : ImplementationTable) : List String :=
  table.byCrate.names

def isEmpty (table : ImplementationTable) : Bool :=
  table.byCrate.entries.isEmpty

/-! ## Writing the script -/

/-- What stands before the table in a script. -/
def opening : String := "(function() \x7bvar implementors = "

/-- What stands after the table in a script. -/
def closing : String :=
  ";if (window.register_implementors) \x7bwindow.register_implementors(implementors);\x7d "
    ++ "else \x7bwindow.pending_implementors = implementors;\x7d\x7d)()"

def renderItem (item : Implementation) : String :=
  Json.bracket ((item.html :: item.extra.toList).map Json.quote)

def renderCrate (crate : String × List Implementation) : String :=
  Json.member crate.1 (Json.bracket (crate.2.map renderItem))

/-- The script that registers a table. -/
def render (table : ImplementationTable) : String :=
  opening ++ "\x7b\n" ++ ",\n".intercalate (table.byCrate.entries.map renderCrate) ++ "\n\x7d"
    ++ closing

/-! ## Reading the script -/

/-- What is wrong with a crate's implementations. -/
inductive Flaw where
  | notAList
  | itemNotAList
  | noHtml
  | extraNotText
  | tooManySlots
deriving DecidableEq, Repr

def Flaw.message : Flaw → String
  | .notAList => "implementations are not a list"
  | .itemNotAList => "entry is not a list"
  | .noHtml => "entry does not start with a string"
  | .extraNotText => "second slot is not a string"
  | .tooManySlots => "entry has more than two slots"

/-- Why a script holds no table. -/
inductive Error where
  /-- Nothing registers a table here. -/
  | notAScript
  | json (fault : Json.Fault)
  | malformed (crate : String) (flaw : Flaw)
deriving DecidableEq, Repr

/-- The wording of an error, where the fault is not in the JSON text. -/
def Error.message? : Error → Option String
  | .notAScript => some "not an implementors script"
  | .json _ => none
  | .malformed crate flaw => some s!"crate {crate}: {flaw.message}"

/-- The optional second slot of an implementation. -/
def readExtra : List Json.Value → Except Flaw (Option String)
  | [] => .ok none
  | .string extra :: more => if more.isEmpty then .ok (some extra) else .error .tooManySlots
  | _ => .error .extraNotText

def readItem : Json.Value → Except Flaw Implementation
  | .array (.string html :: more) => do return { html, extra := ← readExtra more }
  | .array _ => .error .noHtml
  | _ => .error .itemNotAList

def readItems : Json.Value → Except Flaw (List Implementation)
  | .array items => items.mapM readItem
  | _ => .error .notAList

/-- Add the implementations of a crate. -/
def readCrate (table : ImplementationTable) (crate : String × Json.Value) :
    Except Error ImplementationTable :=
  match readItems crate.2 with
  | .ok items => .ok (items.foldl (fun table item => table.push crate.1 item) table)
  | .error flaw => .error (.malformed crate.1 flaw)

/-- The table that JSON holds. If a crate is named more than once, the last time counts. -/
def ofValue : Json.Value → Except Error ImplementationTable
  | .object members => (NameMap.ofPairs members).entries.foldlM readCrate empty
  | _ => .error .notAScript

/-- The JSON text in a script. -/
def body? (script : String) : Option (List Char) := do
  let rest ← opening.toList.isPrefixOf? (Text.trim script.toList)
  closing.toList.isSuffixOf? rest

/-- The table that a script registers. -/
def parse (script : String) : Except Error ImplementationTable :=
  match body? script with
  | none => .error .notAScript
  | some body => do
    let value ← (Json.readWhole Json.readValue (String.ofList body)).mapError .json
    ofValue value

end ImplementationTable

end Authorship.Docs
