/-
Module: Authorship.Proofs.Lottery.Odds
Purpose: How likely each account is to be drawn. A draw reads the first four bytes of the beacon's
  answer and no others, so what is drawn does not depend on the other 28. Of the 2 ^ 32 values that
  the four bytes can have, as many point at each of the accounts that remain as at any other, or one
  more or less.
Main exports: Lottery.randomValue, Lottery.drawFrom_congr, Lottery.pointers, Lottery.card_pointers,
  Lottery.no_account_favoured
-/
import Mathlib.Algebra.Order.Floor.Div
import Mathlib.Data.FinEnum
import Mathlib.Data.Int.CardIntervalMod
import Authorship.Proofs.Lottery.Draw

namespace Authorship

namespace Lottery

/-! ## Random values -/

/-- The random value whose first four bytes are a number, lowest first, before 28 others. -/
def randomValue (low : UInt32) (others : FixedBytes 28) : Hash where
  bytes := {
    toList := littleEndian 4 low.toNat ++ others.toList
    length_toList := by simp [others.length_toList] }

theorem take_randomValue (low : UInt32) (others : FixedBytes 28) :
    (randomValue low others).toBytes.take 4 = littleEndian 4 low.toNat :=
  List.take_left' (length_littleEndian 4 low.toNat)

/-- Every value is made of a number and 28 bytes. -/
theorem exists_eq_randomValue (value : Hash) : ∃ low others, value = randomValue low others := by
  have width : value.toBytes.length = 32 := value.bytes.length_toList
  have four : (value.toBytes.take 4).length = 4 := by simp [width]
  have small : ofLittleEndian (value.toBytes.take 4) < UInt32.size := by
    have bound := ofLittleEndian_lt (value.toBytes.take 4)
    rwa [four] at bound
  have first : littleEndian 4 (UInt32.ofNat (ofLittleEndian (value.toBytes.take 4))).toNat =
      value.toBytes.take 4 := by
    rw [UInt32.toNat_ofNat_of_lt' small]
    have read := littleEndian_ofLittleEndian (value.toBytes.take 4)
    rwa [four] at read
  refine ⟨UInt32.ofNat (ofLittleEndian (value.toBytes.take 4)),
    ⟨value.toBytes.drop 4, by simp [width]⟩, ?_⟩
  apply congrArg Hash.mk
  apply FixedBytes.ext
  exact (List.take_append_drop 4 value.toBytes).symm.trans (congrArg (· ++ _) first.symm)

theorem position_randomValue (low : UInt32) (others : FixedBytes 28) {remaining : Nat}
    (few : remaining < UInt32.size) :
    position (randomValue low others) remaining = low.toNat % remaining :=
  position_eq_mod (take_randomValue low others) low.toNat_lt few

/-! ## Only the first four bytes matter -/

theorem position_congr {value other : Hash} (same : value.toBytes.take 4 = other.toBytes.take 4)
    (remaining : Nat) : position value remaining = position other remaining := by
  rw [position, position, same]

/-- Beacons whose answers agree in their first four bytes have the same accounts drawn. -/
theorem drawFrom_congr {α : Type} {beacon other : Beacon} {slot : UInt32}
    (same : ∀ number, (beacon (subject number slot)).1.toBytes.take 4 =
      (other (subject number slot)).1.toBytes.take 4)
    (count number : Nat) (accounts : List α) :
    drawFrom beacon slot count number accounts = drawFrom other slot count number accounts := by
  induction count generalizing number accounts with
  | zero => rfl
  | succ count inductionHypothesis =>
      simp only [drawFrom, position_congr (same number), inductionHypothesis]

/-! ## Counting what points at a place -/

/-- The numbers that point at a place among so many accounts when the beacon answers with them. -/
def pointers (others : FixedBytes 28) (remaining place : Nat) : Finset UInt32 :=
  Finset.univ.filter fun low => position (randomValue low others) remaining = place

theorem mem_pointers_iff {others : FixedBytes 28} {remaining place : Nat} {low : UInt32} :
    low ∈ pointers others remaining place ↔
      position (randomValue low others) remaining = place := by
  simp [pointers]

/-- The numbers that point at a place are those that leave it when divided by how many remain. -/
theorem mem_pointers_iff_modEq {others : FixedBytes 28} {remaining place : Nat} {low : UInt32}
    (few : remaining < 2 ^ 32) (inside : place < remaining) :
    low ∈ pointers others remaining place ↔ low.toNat ≡ place [MOD remaining] := by
  rw [mem_pointers_iff, position_randomValue low others few, Nat.ModEq, Nat.mod_eq_of_lt inside]

/-- The first places have one number more pointing at them than the others, unless the numbers can
be shared out evenly. -/
theorem card_pointers (others : FixedBytes 28) {remaining place : Nat}
    (few : remaining < 2 ^ 32) (inside : place < remaining) :
    (pointers others remaining place).card =
      2 ^ 32 / remaining + if place < 2 ^ 32 % remaining then 1 else 0 := by
  have asNumbers : (pointers others remaining place).image UInt32.toNat =
      (Finset.range (2 ^ 32)).filter (· ≡ place [MOD remaining]) := by
    ext number
    rw [Finset.mem_image, Finset.mem_filter, Finset.mem_range]
    constructor
    · rintro ⟨low, points, rfl⟩
      exact ⟨low.toNat_lt, (mem_pointers_iff_modEq few inside).mp points⟩
    · rintro ⟨small, leaves⟩
      have read : (UInt32.ofNat number).toNat = number := UInt32.toNat_ofNat_of_lt' small
      rw [← read] at leaves
      exact ⟨UInt32.ofNat number, (mem_pointers_iff_modEq few inside).mpr leaves, read⟩
  calc (pointers others remaining place).card
      = ((pointers others remaining place).image UInt32.toNat).card :=
        (Finset.card_image_of_injective _ fun _ _ => UInt32.toNat_inj.mp).symm
    _ = (2 ^ 32).count (· ≡ place [MOD remaining]) := by
        rw [asNumbers, Nat.count_eq_card_filter_range]
    _ = 2 ^ 32 / remaining + if place < 2 ^ 32 % remaining then 1 else 0 := by
        rw [Nat.count_modEq_card _ (Nat.zero_lt_of_lt inside), Nat.mod_eq_of_lt inside]

/-- What cannot be shared out evenly is one share more when rounded up. -/
theorem ceilDiv_of_mod_pos {total parts : Nat} (positive : 0 < parts) (rest : 0 < total % parts) :
    total ⌈/⌉ parts = total / parts + 1 := by
  have whole := Nat.div_add_mod' total parts
  have short := Nat.mod_lt total positive
  rw [Nat.ceilDiv_eq_add_pred_div]
  apply Nat.div_eq_of_lt_le
  · rw [Nat.add_mul]
    omega
  · rw [Nat.add_mul, Nat.add_mul]
    omega

theorem card_pointers_floor_or_ceil (others : FixedBytes 28) {remaining place : Nat}
    (few : remaining < 2 ^ 32) (inside : place < remaining) :
    (pointers others remaining place).card = 2 ^ 32 / remaining ∨
      (pointers others remaining place).card = 2 ^ 32 ⌈/⌉ remaining := by
  rw [card_pointers others few inside]
  by_cases early : place < 2 ^ 32 % remaining
  · right
    rw [if_pos early, ceilDiv_of_mod_pos (Nat.zero_lt_of_lt inside) (Nat.zero_lt_of_lt early)]
  · left
    rw [if_neg early, Nat.add_zero]

/-! ## Nobody is favoured -/

/-- At every draw from accounts that remain, the first four bytes of the answer point at exactly one
place, and the account there is taken. Of the 2 ^ 32 numbers that four bytes hold, as many point at
each place as there are numbers for each account, rounded down or up; so any two places differ by
one number at most. The other 28 bytes change nothing, neither where a number points nor who is
drawn in a slot. -/
theorem no_account_favoured {α : Type} {accounts : List α} (someone : accounts ≠ [])
    (few : accounts.length < 2 ^ 32) :
    (∀ (beacon : Beacon) (slot : UInt32) (count number : Nat),
      ∃ (low : UInt32) (others : FixedBytes 28) (place : Nat) (inside : place < accounts.length),
        (beacon (subject number slot)).1 = randomValue low others ∧
        (∀ other, low ∈ pointers others accounts.length other ↔ other = place) ∧
        drawFrom beacon slot (count + 1) number accounts =
          .cons (subject number slot) accounts[place]
            (drawFrom beacon slot count (number + 1) (accounts.eraseIdx place))) ∧
    (∀ others, ∀ place < accounts.length,
      (pointers others accounts.length place).card = 2 ^ 32 / accounts.length ∨
        (pointers others accounts.length place).card = 2 ^ 32 ⌈/⌉ accounts.length) ∧
    (∀ others, ∀ place < accounts.length, ∀ other < accounts.length,
      (pointers others accounts.length place).card ≤
        (pointers others accounts.length other).card + 1) ∧
    (∀ others otherBytes place,
      pointers others accounts.length place = pointers otherBytes accounts.length place) ∧
    (∀ (lottery : Lottery α) (other : Beacon) (slot : UInt32),
      (∀ number, (lottery.beacon (subject number slot)).1.toBytes.take 4 =
        (other (subject number slot)).1.toBytes.take 4) →
      { lottery with beacon := other }.drawFor accounts slot = lottery.drawFor accounts slot) := by
  refine ⟨?picked, ?counts, ?differ, ?anyBytes, ?anyBeacon⟩
  case picked =>
    intro beacon slot count number
    obtain ⟨low, others, answer⟩ := exists_eq_randomValue (beacon (subject number slot)).1
    have inside := place_lt beacon slot number (List.length_pos_iff.mpr someone) few
    refine ⟨low, others, place beacon slot number accounts, inside, answer, ?_,
      drawFrom_eq_cons count inside⟩
    intro other
    rw [mem_pointers_iff, ← answer]
    exact eq_comm
  case counts =>
    intro others place inside
    exact card_pointers_floor_or_ceil others few inside
  case differ =>
    intro others place inside other otherInside
    rw [card_pointers others few inside, card_pointers others few otherInside]
    split <;> omega
  case anyBytes =>
    intro others otherBytes place
    ext low
    rw [mem_pointers_iff, mem_pointers_iff, position_randomValue _ _ few,
      position_randomValue _ _ few]
  case anyBeacon =>
    intro lottery other slot same
    exact (drawFrom_congr same _ 0 accounts).symm

/-- A lottery that draws two authors, with a beacon that always answers eight and then one byte 28
times. -/
private def answeringEight (byte : UInt8) : Lottery Nat where
  beacon := Beacon.fixed (randomValue 8 (.replicate 28 byte))
  potential := [30, 10, 20]
  store := { storage := Storage.empty.put countKey (littleEndian 4 2) }

theorem no_account_favoured_answeringEight :
    [30, 10, 20] ≠ [] ∧ [30, 10, 20].length < 2 ^ 32 ∧
      (∀ others, ∀ place < 3, (pointers others 3 place).card = 1431655765 ∨
        (pointers others 3 place).card = 1431655766) ∧
      ((answeringEight 0).drawFor [30, 10, 20] 5).eligible = [20, 30] ∧
      ((answeringEight 255).drawFor [30, 10, 20] 5).eligible = [20, 30] := by
  have someone : [30, 10, 20] ≠ [] := by decide
  have few : [30, 10, 20].length < 2 ^ 32 := by decide
  obtain ⟨_, counts, _, _, anyBeacon⟩ := no_account_favoured someone few
  have zeros : ((answeringEight 0).drawFor [30, 10, 20] 5).eligible = [20, 30] := by
    decide +kernel
  have ones : (answeringEight 255).drawFor [30, 10, 20] 5 =
      (answeringEight 0).drawFor [30, 10, 20] 5 :=
    anyBeacon (answeringEight 0) (answeringEight 255).beacon 5 fun _ =>
      (take_randomValue 8 _).trans (take_randomValue 8 _).symm
  exact ⟨someone, few, counts, zeros, ones ▸ zeros⟩

end Lottery

end Authorship
