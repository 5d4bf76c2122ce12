/-
Module: Authorship.Json.Number
Purpose: Numbers in JSON text. Whole numbers of 64 bits are kept exactly; all others are fractions,
  of which nothing is kept but that they do not exceed the largest double. A fraction is read as a
  significand of 64 bits and a decimal exponent: digits that no longer fit only move the exponent,
  or are dropped after the point.
Main exports: Json.Number, Json.exceedsDouble, Json.readNumber
-/
import Authorship.Json.Reader

namespace Authorship.Json

inductive Number where
  /-- A whole number below 2^64. -/
  | natural (value : Nat)
  /-- A whole number from -2^63 to -1, as its magnitude. -/
  | negative (magnitude : Nat)
  /-- Any other number. -/
  | fraction
deriving DecidableEq, Repr

def digit? (char : Char) : Option Nat :=
  if '0' ≤ char ∧ char ≤ '9' then some (char.toNat - '0'.toNat) else none

def isDigit (char : Char) : Bool := (digit? char).isSome

/-- The double nearest to a whole number, of two nearest the one with the even significand, where
doubles of any size are admitted. -/
def nearestDouble (value : Nat) : Nat :=
  if value < Nat.pow 2 53 then value
  else
    let unit := Nat.pow 2 (value.log2 - 52)
    let quotient := value / unit
    let remainder := value % unit
    if 2 * remainder < unit ∨ (2 * remainder = unit ∧ quotient % 2 = 0) then quotient * unit
    else (quotient + 1) * unit

/-- Whether the product of the doubles nearest to `significand` and to `10 ^ exponent` exceeds the
largest double, `2 ^ 1024 - 2 ^ 971`, by so much that it rounds to infinity. -/
def exceedsDouble (significand : Nat) (exponent : Int) : Bool :=
  if significand = 0 ∨ exponent < 0 then false
  else if 308 < exponent then true
  else
    Nat.pow 2 1024 - Nat.pow 2 970
      ≤ nearestDouble significand * nearestDouble (Nat.pow 10 exponent.toNat)

/-- A fraction, if a double can hold it or the range does not matter. -/
def fraction (ranged : Bool) (significand : Nat) (exponent : Int) : Except Fault Number :=
  if ranged && exceedsDouble significand exponent then .error .malformed else .ok .fraction

/-- Take digits off as long as the significand stays below 2^64; each moves the exponent by `step`.
-/
def moreDigits (step : Int) : (significand : Nat) → (exponent : Int) → List Char →
    Nat × Int × List Char
  | significand, exponent, char :: rest =>
    match digit? char with
    | some digit =>
      if significand * 10 + digit < UInt64.size then
        moreDigits step (significand * 10 + digit) (exponent + step) rest
      else (significand, exponent, char :: rest)
    | none => (significand, exponent, char :: rest)
  | significand, exponent, [] => (significand, exponent, [])

/-- The digits of an exponent. -/
def exponentDigits : (value : Nat) → List Char → Nat × List Char
  | value, char :: rest =>
    match digit? char with
    | some digit => exponentDigits (value * 10 + digit) rest
    | none => (value, char :: rest)
  | value, [] => (value, [])

/-- The exponent after its letter: an optional sign and at least one digit. A positive exponent
above 2^31 is too large for any significand but zero, and so is a significand for it. -/
def readExponent (ranged : Bool) (significand : Nat) (exponent : Int) (text : List Char) :
    Except Fault (Number × List Char) := do
  let (negative, digits) :=
    match text with
    | '+' :: rest => (false, rest)
    | '-' :: rest => (true, rest)
    | _ => (false, text)
  if digits.head?.any isDigit then
    let (value, rest) := exponentDigits 0 digits
    let total := if negative then exponent - value else exponent + value
    return (← fraction ranged significand total, rest)
  else throw .malformed

/-- What may follow the digits of a fraction: an exponent or something else. -/
def afterDigits (ranged : Bool) (significand : Nat) (exponent : Int) (text : List Char) :
    Except Fault (Number × List Char) :=
  match text with
  | 'e' :: rest | 'E' :: rest => readExponent ranged significand exponent rest
  | _ => do return (← fraction ranged significand exponent, text)

/-- The digits after a point, at least one. Those that do not fit are dropped. -/
def readDecimals (ranged : Bool) (significand : Nat) (exponent : Int) (text : List Char) :
    Except Fault (Number × List Char) :=
  if text.head?.any isDigit then
    let (significand, exponent, rest) := moreDigits (-1) significand exponent text
    afterDigits ranged significand exponent (rest.dropWhile isDigit)
  else .error .malformed

/-- A whole number with its sign. Zero with a minus sign, and what does not fit, are fractions. -/
def signed (positive : Bool) (value : Nat) : Number :=
  if positive then .natural value
  else if value = 0 ∨ Nat.pow 2 63 < value then .fraction
  else .negative value

/-- What may follow the whole digits of a number whose digits fit. -/
def afterWhole (ranged positive : Bool) (value : Nat) (text : List Char) :
    Except Fault (Number × List Char) :=
  match text with
  | '.' :: rest => readDecimals ranged value 0 rest
  | 'e' :: rest | 'E' :: rest => readExponent ranged value 0 rest
  | _ => .ok (signed positive value, text)

/-- What may follow the whole digits that fit, where more digits follow: each moves the exponent. -/
def afterLongWhole (ranged : Bool) (significand : Nat) (text : List Char) :
    Except Fault (Number × List Char) :=
  let exponent : Int := (text.takeWhile isDigit).length
  match text.dropWhile isDigit with
  | '.' :: rest => readDecimals ranged significand exponent rest
  | rest => afterDigits ranged significand exponent rest

/-- A number after its sign: zero, or digits of which the first is not zero. -/
def readNumber (ranged positive : Bool) : Reader Number := fun text =>
  match text with
  | [] => .error .malformed
  | '0' :: rest =>
    if rest.head?.any isDigit then .error .malformed else afterWhole ranged positive 0 rest
  | _ =>
    if text.head?.any isDigit then
      let (value, _, rest) := moreDigits 1 0 0 text
      if rest.head?.any isDigit then afterLongWhole ranged value rest
      else afterWhole ranged positive value rest
    else .error .malformed

end Authorship.Json
