/-
Module: Authorship.Lottery.Draw
Purpose: Drawing accounts by a random beacon. Every draw asks the beacon about a subject of its own
  and takes one of the accounts that remain; the low 32 bits of the answer, modulo how many remain,
  are the position of the one taken.
Main exports: Lottery.subject, Lottery.position, Lottery.Draw, Lottery.draw
-/
import Authorship.Randomness

namespace Authorship.Lottery

/-- What a draw is about: `filter`, the low two bytes of the draw's number, lowest first, and the
slot, highest byte first. -/
def subject (number : Nat) (slot : UInt32) : Bytes :=
  [0x66, 0x69, 0x6c, 0x74, 0x65, 0x72] ++ littleEndian 2 number ++ bigEndian 4 slot.toNat

/-- The position that a random value takes among `remaining` accounts. -/
def position (value : Hash) (remaining : Nat) : Nat :=
  (UInt32.ofNat (ofLittleEndian (value.toBytes.take 4)) % UInt32.ofNat remaining).toNat

/-- The outcome of drawing. -/
structure Draw (α : Type) where
  /-- The accounts drawn, in the order in which they were drawn. -/
  eligible : List α
  /-- The accounts not drawn, in their order. -/
  ineligible : List α
  /-- What the beacon was asked, in order. -/
  asked : List Bytes
deriving DecidableEq, Repr

/-- Draw `count` accounts, the first draw having the given number. -/
def drawFrom {α : Type} (beacon : Beacon) (slot : UInt32) :
    (count number : Nat) → List α → Draw α
  | 0, _, accounts => ⟨[], accounts, []⟩
  | count + 1, number, accounts =>
    let question := subject number slot
    let place := position (beacon question).1 accounts.length
    match accounts[place]? with
    | none => ⟨[], accounts, [question]⟩
    | some chosen =>
      let rest := drawFrom beacon slot count (number + 1) (accounts.eraseIdx place)
      ⟨chosen :: rest.eligible, rest.ineligible, question :: rest.asked⟩

/-- Draw `count` accounts, or all of them if there are fewer. -/
def draw {α : Type} (beacon : Beacon) (slot : UInt32) (count : Nat) (accounts : List α) : Draw α :=
  drawFrom beacon slot (min count accounts.length) 0 accounts

end Authorship.Lottery
