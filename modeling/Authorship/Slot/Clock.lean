/-
Module: Authorship.Slot.Clock
Purpose: Slots of wall-clock time. Times are cut to whole milliseconds, and a slot lasts at least
  one of them. Slots are yielded at most once each and in increasing order, whatever the clock
  does.
Main exports: Duration, slotAt, untilNextSlot, Slots.next?, Slots.yielded
-/

namespace Authorship

/-- A span of time, or the time since the epoch. -/
structure Duration where
  seconds : UInt64
  nanoseconds : UInt32
deriving DecidableEq, Repr

namespace Duration

def millis (duration : Duration) : Nat :=
  duration.seconds.toNat * 1000 + duration.nanoseconds.toNat / 1000000

def ofMillis (millis : UInt64) : Duration where
  seconds := millis / 1000
  nanoseconds := (millis % 1000).toUInt32 * 1000000

/-- The length of a slot in milliseconds, at least one. -/
def slotMillis (slotDuration : Duration) : Nat :=
  max slotDuration.millis 1

end Duration

/-- The slot that a time lies in, in its 64 low bits. -/
def slotAt (now slotDuration : Duration) : UInt64 :=
  UInt64.ofNat (now.millis / slotDuration.slotMillis)

/-- The time left until the next slot begins. -/
def untilNextSlot (now slotDuration : Duration) : Duration :=
  let start := (now.millis / slotDuration.slotMillis + 1) * slotDuration.slotMillis
  .ofMillis (UInt64.ofNat (start - now.millis))

namespace Slots

/-- The slot to yield at a reading of the clock: nothing unless it is above the last one yielded. -/
def next? (slotDuration : Duration) (last : UInt64) (reading : Duration) : Option UInt64 :=
  let slot := slotAt reading slotDuration
  if last < slot then some slot else none

/-- The slots yielded at readings of the clock, after a last one. -/
def yielded (slotDuration : Duration) : (last : UInt64) → List Duration → List UInt64
  | _, [] => []
  | last, reading :: rest =>
    match next? slotDuration last reading with
    | some slot => slot :: yielded slotDuration slot rest
    | none => yielded slotDuration last rest

end Slots

end Authorship
