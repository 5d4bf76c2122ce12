/-
Module: Authorship.Proofs.Slot.Clock
Purpose: How slots divide time. A slot is a stretch of whole milliseconds as long as the slot
  duration; the time left until the next one is never nothing, ends just where the next slot begins,
  and passes through no other slot.
Main exports: Duration.nanos, Duration.plus?, Duration.nanos_of_plus?_eq_some, slotNumber,
  slotNumber_eq_iff, nanos_untilNextSlot, slotAt_untilNextSlot
-/
import Authorship.Slot.Clock

namespace Authorship

namespace Duration

/-- All of a span of time, in nanoseconds. -/
def nanos (duration : Duration) : Nat :=
  duration.seconds.toNat * 1000000000 + duration.nanoseconds.toNat

/-- The span of time of so many nanoseconds, if its seconds fit. -/
def ofNanos? (nanos : Nat) : Option Duration :=
  if nanos / 1000000000 < UInt64.size then
    some ⟨.ofNat (nanos / 1000000000), .ofNat (nanos % 1000000000)⟩
  else none

/-- Two spans of time, one after the other, if their seconds fit. -/
def plus? (one two : Duration) : Option Duration :=
  ofNanos? (one.nanos + two.nanos)

theorem isSome_plus?_iff {one two : Duration} :
    (one.plus? two).isSome = true ↔ one.nanos + two.nanos < UInt64.size * 1000000000 := by
  rw [plus?, ofNanos?, ← Nat.div_lt_iff_lt_mul (by decide)]
  split
  · next fits => simpa using fits
  · next exceeds => simpa using exceeds

theorem nanos_of_plus?_eq_some {one two sum : Duration} (added : one.plus? two = some sum) :
    sum.nanos = one.nanos + two.nanos := by
  rw [plus?, ofNanos?] at added
  split at added
  · next fits =>
      cases added
      have seconds := UInt64.toNat_ofNat_of_lt' fits
      have part : (one.nanos + two.nanos) % 1000000000 < UInt32.size :=
        Nat.lt_trans (Nat.mod_lt _ (by decide)) (by decide)
      rw [nanos, seconds, UInt32.toNat_ofNat_of_lt' part, Nat.div_add_mod']
  · cases added

/-- Whole milliseconds are all that is left when nanoseconds are cut off. -/
theorem millis_eq_nanos_div (duration : Duration) :
    duration.millis = duration.nanos / 1000000 := by
  rw [millis, nanos]
  omega

theorem nanos_ofMillis (millis : UInt64) : (ofMillis millis).nanos = millis.toNat * 1000000 := by
  have below : (millis % 1000).toUInt32.toNat = millis.toNat % 1000 := by
    have thousand : (1000 : UInt64).toNat = 1000 := rfl
    rw [UInt64.toNat_toUInt32, UInt64.toNat_mod, thousand]
    omega
  have million : (1000000 : UInt32).toNat = 1000000 := rfl
  have thousand : (1000 : UInt64).toNat = 1000 := rfl
  rw [nanos, ofMillis, UInt64.toNat_div, UInt32.toNat_mul, below, million, thousand]
  omega

theorem slotMillis_pos (slotDuration : Duration) : 0 < slotDuration.slotMillis :=
  Nat.lt_of_lt_of_le Nat.one_pos (Nat.le_max_right _ _)

theorem slotMillis_le (slotDuration : Duration) :
    slotDuration.slotMillis * 1000000 ≤ max slotDuration.nanos 1000000 := by
  rw [slotMillis, millis_eq_nanos_div]
  omega

end Duration

/-! ## The slot of a time -/

section Slot

variable {now later slotDuration : Duration}

/-- The number of the slot that a time lies in, whatever its size. -/
def slotNumber (now slotDuration : Duration) : Nat :=
  now.millis / slotDuration.slotMillis

theorem toNat_slotAt (fits : slotNumber now slotDuration < UInt64.size) :
    (slotAt now slotDuration).toNat = slotNumber now slotDuration :=
  UInt64.toNat_ofNat_of_lt' fits

/-- A slot is a stretch of milliseconds. -/
theorem slotNumber_eq_iff {slot : Nat} :
    slotNumber now slotDuration = slot ↔
      slot * slotDuration.slotMillis ≤ now.millis ∧
        now.millis < (slot + 1) * slotDuration.slotMillis := by
  have positive := slotDuration.slotMillis_pos
  rw [slotNumber, Nat.div_eq_iff positive, Nat.add_mul, Nat.one_mul]
  omega

theorem slotNumber_bounds (now slotDuration : Duration) :
    slotNumber now slotDuration * slotDuration.slotMillis ≤ now.millis ∧
      now.millis < (slotNumber now slotDuration + 1) * slotDuration.slotMillis :=
  slotNumber_eq_iff.mp rfl

theorem slotNumber_mono (after : now.nanos ≤ later.nanos) :
    slotNumber now slotDuration ≤ slotNumber later slotDuration := by
  rw [slotNumber, slotNumber, Duration.millis_eq_nanos_div, Duration.millis_eq_nanos_div]
  exact Nat.div_le_div_right (Nat.div_le_div_right after)

/-! ## The time left -/

/-- What is left until the next slot, in milliseconds. -/
def millisLeft (now slotDuration : Duration) : Nat :=
  (slotNumber now slotDuration + 1) * slotDuration.slotMillis - now.millis

theorem millis_add_millisLeft (now slotDuration : Duration) :
    now.millis + millisLeft now slotDuration =
      (slotNumber now slotDuration + 1) * slotDuration.slotMillis := by
  have inside := slotNumber_bounds now slotDuration
  rw [millisLeft]
  omega

theorem millisLeft_bounds (now slotDuration : Duration) :
    1 ≤ millisLeft now slotDuration ∧ millisLeft now slotDuration ≤ slotDuration.slotMillis := by
  have inside := slotNumber_bounds now slotDuration
  have reaches := millis_add_millisLeft now slotDuration
  rw [Nat.add_mul, Nat.one_mul] at inside reaches
  omega

/-- What is left fits in 64 bits of milliseconds, as the slot duration does. -/
theorem nanos_untilNextSlot (short : slotDuration.millis < UInt64.size) :
    (untilNextSlot now slotDuration).nanos = millisLeft now slotDuration * 1000000 := by
  have least : slotDuration.slotMillis < UInt64.size :=
    Nat.max_lt.mpr ⟨short, by decide⟩
  have fits : millisLeft now slotDuration < UInt64.size :=
    Nat.lt_of_le_of_lt (millisLeft_bounds now slotDuration).2 least
  have left : untilNextSlot now slotDuration = .ofMillis (.ofNat (millisLeft now slotDuration)) :=
    rfl
  rw [left, Duration.nanos_ofMillis, UInt64.toNat_ofNat_of_lt' fits]

/-- Milliseconds that pass add up, whatever part of one has passed already. -/
theorem millis_of_plus?_eq_some {rest : Duration} {millis : Nat}
    (whole : rest.nanos = millis * 1000000) (added : now.plus? rest = some later) :
    later.millis = now.millis + millis := by
  rw [Duration.millis_eq_nanos_div, Duration.millis_eq_nanos_div,
    Duration.nanos_of_plus?_eq_some added, whole]
  omega

/-- The time left until the next slot is at least a millisecond and at most the slot duration, or a
millisecond if that is shorter. Just when it is over, which only the range of times can prevent, the
next slot begins; before that, any number of milliseconds leads to the same slot. Later times lie in
the same slot or in later ones. -/
theorem slotAt_untilNextSlot (short : slotDuration.millis < UInt64.size)
    (room : slotNumber now slotDuration + 1 < UInt64.size) :
    let left := untilNextSlot now slotDuration
    (1000000 ≤ left.nanos ∧ left.nanos ≤ max slotDuration.nanos 1000000) ∧
    ((now.plus? left).isSome = true ↔ now.nanos + left.nanos < UInt64.size * 1000000000) ∧
    (∀ later, now.plus? left = some later →
      (slotAt later slotDuration).toNat = (slotAt now slotDuration).toNat + 1) ∧
    (∀ early later, (Duration.ofMillis early).nanos < left.nanos →
      now.plus? (.ofMillis early) = some later →
      slotAt later slotDuration = slotAt now slotDuration) ∧
    (∀ later, now.nanos ≤ later.nanos → slotNumber later slotDuration < UInt64.size →
      slotAt now slotDuration ≤ slotAt later slotDuration) := by
  intro left
  have whole : left.nanos = millisLeft now slotDuration * 1000000 := nanos_untilNextSlot short
  have reaches := millis_add_millisLeft now slotDuration
  have inside := slotNumber_bounds now slotDuration
  have current : (slotAt now slotDuration).toNat = slotNumber now slotDuration :=
    toNat_slotAt (Nat.lt_of_succ_lt room)
  refine ⟨?_, Duration.isSome_plus?_iff, ?_, ?_, ?_⟩
  · have bounds := millisLeft_bounds now slotDuration
    rw [whole]
    exact ⟨Nat.mul_le_mul_right 1000000 bounds.1,
      Nat.le_trans (Nat.mul_le_mul_right 1000000 bounds.2) slotDuration.slotMillis_le⟩
  · intro later ends
    have boundary : later.millis = (slotNumber now slotDuration + 1) * slotDuration.slotMillis :=
      (millis_of_plus?_eq_some whole ends).trans reaches
    have next : slotNumber later slotDuration = slotNumber now slotDuration + 1 := by
      rw [slotNumber, boundary, Nat.mul_div_cancel _ slotDuration.slotMillis_pos]
    rw [toNat_slotAt (next ▸ room), next, current]
  · intro early later within passes
    rw [whole, Duration.nanos_ofMillis] at within
    have passed := millis_of_plus?_eq_some (Duration.nanos_ofMillis early) passes
    have same : slotNumber later slotDuration = slotNumber now slotDuration :=
      slotNumber_eq_iff.mpr (by omega)
    exact congrArg UInt64.ofNat same
  · intro later after fits
    rw [UInt64.le_iff_toNat_le, current, toNat_slotAt fits]
    exact slotNumber_mono after

/-- Seven and a half seconds and a little, where slots last six seconds. -/
theorem slotAt_untilNextSlot_midSlot :
    (⟨6, 0⟩ : Duration).millis < UInt64.size ∧ slotNumber ⟨7, 500000999⟩ ⟨6, 0⟩ + 1 < UInt64.size ∧
      untilNextSlot ⟨7, 500000999⟩ ⟨6, 0⟩ = ⟨4, 500000000⟩ ∧
      (⟨7, 500000999⟩ : Duration).plus? ⟨4, 500000000⟩ = some ⟨12, 999⟩ ∧
      (slotAt ⟨12, 999⟩ ⟨6, 0⟩).toNat = (slotAt ⟨7, 500000999⟩ ⟨6, 0⟩).toNat + 1 := by
  have short : (⟨6, 0⟩ : Duration).millis < UInt64.size := by decide
  have room : slotNumber ⟨7, 500000999⟩ ⟨6, 0⟩ + 1 < UInt64.size := by decide
  have left : untilNextSlot ⟨7, 500000999⟩ ⟨6, 0⟩ = ⟨4, 500000000⟩ := by decide
  have ends : (⟨7, 500000999⟩ : Duration).plus? ⟨4, 500000000⟩ = some ⟨12, 999⟩ := by decide
  obtain ⟨_, _, next, _⟩ := slotAt_untilNextSlot short room
  exact ⟨short, room, left, ends, next _ (left ▸ ends)⟩

end Slot

end Authorship
