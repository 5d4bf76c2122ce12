/-
Module: Authorship.Proofs.Percent
Purpose: Shares in hundredths and what they amount to. A share that is made is at most a hundred
  hundredths, and any byte is read as one. What a share of a number amounts to is exact, and at most
  the number, just for the shares of at most a hundred.
Main exports: Percent.toNat_of, Percent.decode_eq_ok_iff, Percent.toNat_mulCeil,
  Percent.toNat_mulCeil_of_le, Percent.mulCeil_le, Percent.exact_iff
-/
import Mathlib.Algebra.Order.Floor.Div
import Mathlib.GroupTheory.GroupAction.Ring
import Authorship.Proofs.CanonicalForm

namespace Authorship

namespace Percent

/-! ## Where shares come from -/

theorem toNat_of (hundredths : UInt8) :
    (of hundredths).hundredths.toNat = min hundredths.toNat 100 := by
  rw [of]
  split
  · next above =>
      have above : 100 < hundredths.toNat := UInt8.lt_iff_toNat_lt.mp above
      exact (Nat.min_eq_right (Nat.le_of_lt above)).symm
  · next within =>
      have within : ¬100 < hundredths.toNat := fun above => within (UInt8.lt_iff_toNat_lt.mpr above)
      exact (Nat.min_eq_left (Nat.le_of_not_lt within)).symm

/-- The first byte is read as a share, whatever it says. -/
theorem decode_eq_ok_iff {bytes : Bytes} {percent : Percent} :
    decode Percent bytes = .ok percent ↔ ∃ rest, bytes = percent.hundredths :: rest := by
  rw [LawfulCodec.decode_eq_ok_iff]
  exact and_iff_right trivial

/-! ## What they amount to -/

variable {percent : Percent}

theorem toNat_mulCeil (percent : Percent) (number : UInt32) :
    (percent.mulCeil number).toNat =
      ((percent.hundredths.toNat * number.toNat) ⌈/⌉ 100) % 2 ^ 32 := by
  rw [mulCeil, UInt32.toNat_ofNat', Nat.ceilDiv_eq_add_pred_div, Nat.mul_comm]
  rfl

theorem ceilDiv_hundred_le {hundredths : Nat} (number : Nat) (share : hundredths ≤ 100) :
    (hundredths * number) ⌈/⌉ 100 ≤ number := by
  rw [ceilDiv_le_iff_le_mul (by decide)]
  exact Nat.mul_le_mul_right number share

/-- At most a hundred hundredths of a number fit where the number fits. -/
theorem toNat_mulCeil_of_le (number : UInt32) (share : percent.hundredths.toNat ≤ 100) :
    (percent.mulCeil number).toNat = (percent.hundredths.toNat * number.toNat) ⌈/⌉ 100 := by
  rw [toNat_mulCeil]
  apply Nat.mod_eq_of_lt
  exact Nat.lt_of_le_of_lt (ceilDiv_hundred_le _ share) number.toNat_lt

theorem mulCeil_le (number : UInt32) (share : percent.hundredths.toNat ≤ 100) :
    percent.mulCeil number ≤ number := by
  rw [UInt32.le_iff_toNat_le, toNat_mulCeil_of_le number share]
  exact ceilDiv_hundred_le _ share

theorem toNat_mulCeil_hundred (percent : Percent) :
    (percent.mulCeil 100).toNat = percent.hundredths.toNat := by
  have byte := percent.hundredths.toNat_lt
  have hundred : (100 : UInt32).toNat = 100 := rfl
  rw [toNat_mulCeil, hundred, Nat.ceilDiv_eq_add_pred_div]
  omega

/-- A share amounts to what it says of every number, and to no more than the number, just if it is
at most a hundred hundredths. -/
theorem exact_iff (percent : Percent) :
    percent.hundredths.toNat ≤ 100 ↔
      ∀ number : UInt32,
        (percent.mulCeil number).toNat = (percent.hundredths.toNat * number.toNat) ⌈/⌉ 100 ∧
          percent.mulCeil number ≤ number := by
  constructor
  · intro share number
    exact ⟨toNat_mulCeil_of_le number share, mulCeil_le number share⟩
  · intro amounts
    have bound := UInt32.le_iff_toNat_le.mp (amounts 100).2
    rwa [toNat_mulCeil_hundred] at bound

end Percent

end Authorship
