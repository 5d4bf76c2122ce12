/-
Module: Authorship.Json.Reader
Purpose: Reading JSON text from its head. A reader takes a value off and leaves the rest. It stops
  at the first fault in reading order, which is either in the text, and then it is not JSON, or in
  the data, and then it is JSON that does not fit.
Main exports: Json.Fault, Json.Reader, Json.skipBlanks, Json.literal, Json.atEnd, Json.readText
-/
import Authorship.Bytes

namespace Authorship.Json

/-- Why text was not read. -/
inductive Fault where
  /-- The text is not JSON. -/
  | malformed
  /-- The text is JSON so far, and does not fit. -/
  | mismatch (message : String)
deriving DecidableEq, Repr

/-- Takes a value off the head of a text. -/
abbrev Reader (α : Type) := StateT (List Char) (Except Fault) α

def isBlank (char : Char) : Bool :=
  char == ' ' || char == '\n' || char == '\t' || char == '\r'

def skipBlanks : Reader Unit :=
  modify (·.dropWhile isBlank)

/-- Take off exactly these characters. -/
def literal : List Char → Reader Unit
  | [] => pure ()
  | wanted :: more => do
    match ← get with
    | char :: rest =>
      if char = wanted then do set rest; literal more else throw .malformed
    | [] => throw .malformed

/-- Nothing but white space may follow. -/
def atEnd : Reader Unit := do
  skipBlanks
  if (← get).isEmpty then return () else throw .malformed

def readWhole {α : Type} (reader : Reader α) (text : String) : Except Fault α := do
  let whole : Reader α := do
    let value ← reader
    atEnd
    return value
  return (← whole.run text.toList).1

/-! ## Texts in quotes -/

/-- What stands at the head of a text in quotes, after the opening one. -/
inductive TextHead where
  | char (char : Char) (rest : List Char)
  | close (rest : List Char)
  | malformed
deriving DecidableEq

/-- The value of four hexadecimal digits, and what follows them. -/
def hexQuad? : List Char → Option (Nat × List Char)
  | a :: b :: c :: d :: rest => do
    let a ← hexValue? a
    let b ← hexValue? b
    let c ← hexValue? c
    let d ← hexValue? d
    return (((a * 16 + b) * 16 + c) * 16 + d, rest)
  | _ => none

/-- The character that a letter after a backslash stands for. -/
def shortEscape? : Char → Option Char
  | '"' => some '"'
  | '\\' => some '\\'
  | '/' => some '/'
  | 'b' => some '\x08'
  | 'f' => some '\x0C'
  | 'n' => some '\n'
  | 'r' => some '\r'
  | 't' => some '\t'
  | _ => none

/-- The scalar of a leading and a trailing surrogate. -/
def joinSurrogates (leading trailing : Nat) : Char :=
  Char.ofNat ((leading - 0xD800) * 0x400 + (trailing - 0xDC00) + 0x10000)

/-- What an escape by number stands for. A leading surrogate needs a trailing one right after it. -/
def numberEscape (unit : Nat) (rest : List Char) : TextHead :=
  if 0xDC00 ≤ unit ∧ unit ≤ 0xDFFF then .malformed
  else if 0xD800 ≤ unit ∧ unit ≤ 0xDBFF then
    match rest with
    | '\\' :: 'u' :: more =>
      match hexQuad? more with
      | some (trailing, rest) =>
        if 0xDC00 ≤ trailing ∧ trailing ≤ 0xDFFF then .char (joinSurrogates unit trailing) rest
        else .malformed
      | none => .malformed
    | _ => .malformed
  else .char (Char.ofNat unit) rest

/-- What stands after a backslash. If surrogates are not paired, every number is admitted, and what
it stands for means nothing. -/
def escape (paired : Bool) : List Char → TextHead
  | 'u' :: digits =>
    match hexQuad? digits with
    | some (unit, rest) => if paired then numberEscape unit rest else .char '\uFFFD' rest
    | none => .malformed
  | letter :: rest =>
    match shortEscape? letter with
    | some char => .char char rest
    | none => .malformed
  | [] => .malformed

/-- What stands at the head of a text in quotes, after the opening one. -/
def textHead (paired : Bool) : List Char → TextHead
  | [] => .malformed
  | '"' :: rest => .close rest
  | '\\' :: rest => escape paired rest
  | char :: rest => if char.toNat < 0x20 then .malformed else .char char rest

theorem length_rest_of_hexQuad? {text rest : List Char} {value : Nat}
    (found : hexQuad? text = some (value, rest)) : rest.length < text.length := by
  unfold hexQuad? at found
  split at found
  · simp only [Option.pure_def, Option.bind_eq_bind, Option.bind_eq_some_iff, Option.some.injEq,
      Prod.mk.injEq] at found
    obtain ⟨_, _, _, _, _, _, _, _, _, rfl⟩ := found
    simp only [List.length_cons]
    omega
  · cases found

theorem length_rest_of_numberEscape {unit : Nat} {text rest : List Char} {char : Char}
    (found : numberEscape unit text = .char char rest) : rest.length ≤ text.length := by
  unfold numberEscape at found
  split at found
  · cases found
  · split at found
    · split at found
      · split at found
        · next quad =>
          have := length_rest_of_hexQuad? quad
          split at found
          · simp only [TextHead.char.injEq] at found
            obtain ⟨_, rfl⟩ := found
            simp only [List.length_cons]
            omega
          · cases found
        · cases found
      · cases found
    · simp only [TextHead.char.injEq] at found
      exact Nat.le_of_eq (congrArg List.length found.2.symm)

theorem length_rest_of_escape {paired : Bool} {text rest : List Char} {char : Char}
    (found : escape paired text = .char char rest) : rest.length < text.length := by
  unfold escape at found
  split at found
  · split at found
    · next quad =>
      have shorter := length_rest_of_hexQuad? quad
      split at found
      · have := length_rest_of_numberEscape found
        simp only [List.length_cons]
        omega
      · cases found
        simp only [List.length_cons]
        omega
    · cases found
  · split at found
    · cases found
      simp
    · cases found
  · cases found

theorem length_rest_of_textHead {paired : Bool} {text rest : List Char} {char : Char}
    (found : textHead paired text = .char char rest) : rest.length < text.length := by
  unfold textHead at found
  split at found
  · cases found
  · cases found
  · have := length_rest_of_escape found
    simp only [List.length_cons]
    omega
  · split at found
    · cases found
    · cases found
      simp

/-- The characters up to the closing quote, and what follows it. -/
def textFrom (paired : Bool) (text : List Char) : Except Fault (List Char × List Char) :=
  match _shape : textHead paired text with
  | .malformed => .error .malformed
  | .close rest => .ok ([], rest)
  | .char char rest => do
    let (chars, rest) ← textFrom paired rest
    return (char :: chars, rest)
termination_by text.length
decreasing_by
  have := length_rest_of_textHead _shape
  exact this

/-- The text after an opening quote. -/
def readText (paired : Bool) : Reader String := fun text => do
  let (chars, rest) ← textFrom paired text
  return (String.ofList chars, rest)

end Authorship.Json
