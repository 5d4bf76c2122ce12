/-
Module: Authorship.Proofs.Lottery.Split
Purpose: Drawing as taking accounts out, one after the other. Each draw finds accounts to choose
  from and an answer of the beacon that points at one of them, so drawing never fails, and it splits
  the accounts: none is lost or made, and those not drawn keep their order. Since no draw depends on
  how many are made in all, drawing more accounts goes on where drawing fewer stops.
Main exports: Lottery.Taken, Lottery.taken_drawFrom, Lottery.Taken.drawFrom_eq, Lottery.Taken.split,
  Lottery.drawFor_splits, Lottery.eligible_grows_with_count
-/
import Authorship.Proofs.Lottery.Draw

namespace Authorship

namespace Lottery

/-! ## Taking accounts out -/

section Taking

variable {α : Type}

/-- Accounts that are taken out by draws, the first of which has the given number, and those that
are left. At every draw the number of accounts that remain is one that can be divided by, also in 32
bits, and the beacon points at one of them: this one is taken. -/
inductive Taken (beacon : Beacon) (slot : UInt32) :
    (number : Nat) → (accounts taken left : List α) → Prop where
  | done {number : Nat} {accounts : List α} : Taken beacon slot number accounts [] accounts
  | next {number : Nat} {accounts taken left : List α}
      (divisible : UInt32.ofNat accounts.length ≠ 0)
      (inside : place beacon slot number accounts < accounts.length)
      (later : Taken beacon slot (number + 1)
        (accounts.eraseIdx (place beacon slot number accounts)) taken left) :
      Taken beacon slot number accounts
        (accounts[place beacon slot number accounts] :: taken) left

variable {beacon : Beacon} {slot : UInt32} {number : Nat} {accounts taken left : List α}

theorem ofNat_length_ne_zero (someone : 0 < accounts.length)
    (few : accounts.length < UInt32.size) : UInt32.ofNat accounts.length ≠ 0 := by
  intro zero
  have counted : (UInt32.ofNat accounts.length).toNat = accounts.length :=
    UInt32.toNat_ofNat_of_lt few
  rw [zero] at counted
  exact absurd counted (Nat.ne_of_lt someone)

/-- No draw fails as long as accounts remain, and there are fewer of them than 32 bits count. -/
theorem taken_drawFrom {count : Nat} (enough : count ≤ accounts.length)
    (few : accounts.length < UInt32.size) :
    Taken beacon slot number accounts (drawFrom beacon slot count number accounts).eligible
      (drawFrom beacon slot count number accounts).ineligible := by
  induction count generalizing number accounts with
  | zero => exact .done
  | succ count inductionHypothesis =>
      have someone : 0 < accounts.length := Nat.lt_of_lt_of_le (Nat.succ_pos count) enough
      have inside := place_lt beacon slot number someone few
      have fewer := List.length_eraseIdx_of_lt inside
      obtain ⟨eligible, ineligible⟩ := drawFrom_succ count inside
      rw [eligible, ineligible]
      apply Taken.next (ofNat_length_ne_zero someone few) inside
      apply inductionHypothesis
      · omega
      · omega

namespace Taken

theorem sublist (draws : Taken beacon slot number accounts taken left) :
    left.Sublist accounts := by
  induction draws with
  | done => exact List.Sublist.refl _
  | next _ _ _ inductionHypothesis =>
      exact inductionHypothesis.trans (List.eraseIdx_sublist _ _)

/-- What is taken and what is left is what drawing so many accounts gives. -/
theorem drawFrom_eq (draws : Taken beacon slot number accounts taken left) :
    (drawFrom beacon slot taken.length number accounts).eligible = taken ∧
      (drawFrom beacon slot taken.length number accounts).ineligible = left := by
  induction draws with
  | done => exact ⟨rfl, rfl⟩
  | next _ inside _ inductionHypothesis =>
      obtain ⟨eligible, ineligible⟩ := drawFrom_succ _ inside
      rw [List.length_cons, eligible, ineligible]
      exact ⟨congrArg _ inductionHypothesis.1, inductionHypothesis.2⟩

/-- Draws can be interrupted after any of them and taken up again. -/
theorem split (draws : Taken beacon slot number accounts taken left) {count : Nat}
    (within : count ≤ taken.length) :
    ∃ middle, Taken beacon slot number accounts (taken.take count) middle ∧
      Taken beacon slot (number + count) middle (taken.drop count) left := by
  induction draws generalizing count with
  | @done number accounts =>
      cases count with
      | zero => exact ⟨accounts, .done, .done⟩
      | succ count => exact absurd within (Nat.not_succ_le_zero count)
  | @next number accounts taken left divisible inside later inductionHypothesis =>
      cases count with
      | zero => exact ⟨accounts, .done, .next divisible inside later⟩
      | succ count =>
          obtain ⟨middle, earlier, rest⟩ := inductionHypothesis (Nat.le_of_succ_le_succ within)
          rw [Nat.add_right_comm, Nat.add_assoc] at rest
          exact ⟨middle, .next divisible inside earlier, rest⟩

end Taken

/-- Drawing fewer accounts gives the first of those that drawing more gives, and leaves all that
drawing more leaves. -/
theorem draw_of_le {fewer more : Nat} (le : fewer ≤ more) (few : accounts.length < UInt32.size) :
    (draw beacon slot fewer accounts).eligible =
        (draw beacon slot more accounts).eligible.take (min fewer accounts.length) ∧
      (draw beacon slot more accounts).ineligible.Sublist
        (draw beacon slot fewer accounts).ineligible := by
  have length : (draw beacon slot more accounts).eligible.length = min more accounts.length :=
    length_eligible_draw more few
  have all : Taken beacon slot 0 accounts (draw beacon slot more accounts).eligible
      (draw beacon slot more accounts).ineligible :=
    taken_drawFrom (Nat.min_le_right _ _) few
  have within : min fewer accounts.length ≤ (draw beacon slot more accounts).eligible.length := by
    omega
  obtain ⟨middle, earlier, later⟩ := all.split within
  obtain ⟨eligible, ineligible⟩ := earlier.drawFrom_eq
  rw [List.length_take_of_le within] at eligible ineligible
  constructor
  · exact eligible
  · rw [← ineligible] at later
    exact later.sublist

end Taking

/-! ## The split of a slot -/

variable {α : Type}

/-- Whatever the storage holds and the beacon says: every draw of a slot finds accounts to choose
from and takes one of them; as many are drawn as are to be drawn, or all if there are fewer; and
those drawn and those not drawn are the accounts, each as often as it was among them, of which those
not drawn keep their order. -/
theorem drawFor_splits (lottery : Lottery α) (slot : UInt32) {accounts : List α}
    (few : accounts.length < 2 ^ 32) :
    Taken lottery.beacon slot 0 accounts (lottery.drawFor accounts slot).eligible
        (lottery.drawFor accounts slot).ineligible ∧
      (lottery.drawFor accounts slot).eligible.length =
        min lottery.eligibleCount.value.toNat accounts.length ∧
      ((lottery.drawFor accounts slot).eligible ++
        (lottery.drawFor accounts slot).ineligible).Perm accounts ∧
      (lottery.drawFor accounts slot).ineligible.Sublist accounts := by
  have draws : Taken lottery.beacon slot 0 accounts (lottery.drawFor accounts slot).eligible
      (lottery.drawFor accounts slot).ineligible :=
    taken_drawFrom (Nat.min_le_right _ _) few
  refine ⟨draws, ?_, ?_, draws.sublist⟩
  · exact length_eligible_draw _ few
  · exact drawFrom_perm _ _ accounts

/-- Six accounts, some of them alike, and the binary form of a number to draw. -/
private def someAlike (countBytes : Bytes) : Lottery Nat where
  beacon := Beacon.hashing Hash.zero 0
  potential := [4, 9, 4, 7, 9, 2]
  store := { storage := Storage.empty.put countKey countBytes }

theorem drawFor_splits_someAlike :
    [4, 9, 4, 7, 9, 2].length < 2 ^ 32 ∧
      ((someAlike [4, 0, 0, 0]).drawFor [4, 9, 4, 7, 9, 2] 8).eligible = [4, 7, 4, 9] ∧
      ((someAlike [4, 0, 0, 0]).drawFor [4, 9, 4, 7, 9, 2] 8).ineligible = [9, 2] ∧
      [4, 7, 4, 9, 9, 2].Perm [4, 9, 4, 7, 9, 2] ∧
      [9, 2].Sublist [4, 9, 4, 7, 9, 2] := by
  have few : [4, 9, 4, 7, 9, 2].length < 2 ^ 32 := by decide
  obtain ⟨_, _, perm, sublist⟩ := (someAlike [4, 0, 0, 0]).drawFor_splits 8 few
  have eligible : ((someAlike [4, 0, 0, 0]).drawFor [4, 9, 4, 7, 9, 2] 8).eligible =
      [4, 7, 4, 9] := by decide +kernel
  have ineligible : ((someAlike [4, 0, 0, 0]).drawFor [4, 9, 4, 7, 9, 2] 8).ineligible =
      [9, 2] := by decide +kernel
  rw [eligible, ineligible] at perm
  rw [ineligible] at sublist
  exact ⟨few, eligible, ineligible, perm, sublist⟩

/-! ## More to draw -/

/-- Where more authors are to be drawn from the same accounts by the same beacon, those drawn are
those who were drawn before, in the same order, and others after them; those not drawn are some of
those who were not drawn before, in the same order; and whoever might author still may. -/
theorem eligible_grows_with_count [DecidableEq α] {fewer more : Lottery α} (slot : UInt32)
    (sameBeacon : fewer.beacon = more.beacon) (samePotential : fewer.potential = more.potential)
    (few : more.potential.length < 2 ^ 32)
    (le : fewer.eligibleCount.value ≤ more.eligibleCount.value) :
    (fewer.drawFor fewer.potential slot).eligible <+:
        (more.drawFor more.potential slot).eligible ∧
      (fewer.drawFor fewer.potential slot).eligible.length =
        min fewer.eligibleCount.value.toNat fewer.potential.length ∧
      (more.drawFor more.potential slot).ineligible.Sublist
        (fewer.drawFor fewer.potential slot).ineligible ∧
      ∀ account, fewer.filter account slot = true → more.filter account slot = true := by
  have drawn : (fewer.drawFor fewer.potential slot).eligible =
        (more.drawFor more.potential slot).eligible.take
          (min fewer.eligibleCount.value.toNat more.potential.length) ∧
      (more.drawFor more.potential slot).ineligible.Sublist
        (fewer.drawFor fewer.potential slot).ineligible := by
    rw [drawFor, drawFor, sameBeacon, samePotential]
    exact draw_of_le (UInt32.le_iff_toNat_le.mp le) few
  have first : (fewer.drawFor fewer.potential slot).eligible <+:
      (more.drawFor more.potential slot).eligible := by
    rw [drawn.1]
    exact List.take_prefix _ _
  refine ⟨first, ?_, drawn.2, ?_⟩
  · rw [← samePotential] at few
    exact length_eligible_draw _ few
  · intro account allowed
    rw [filter_eq_true_iff] at allowed ⊢
    exact first.subset allowed

theorem eligible_grows_with_count_someAlike :
    (someAlike [4, 0, 0, 0]).potential.length < 2 ^ 32 ∧
      (someAlike [2, 0, 0, 0]).eligibleCount.value ≤ (someAlike [4, 0, 0, 0]).eligibleCount.value ∧
      ((someAlike [2, 0, 0, 0]).drawFor [4, 9, 4, 7, 9, 2] 8).eligible = [4, 7] ∧
      [4, 7] <+: ((someAlike [4, 0, 0, 0]).drawFor [4, 9, 4, 7, 9, 2] 8).eligible ∧
      (someAlike [4, 0, 0, 0]).filter 7 8 = true := by
  have le : (someAlike [2, 0, 0, 0]).eligibleCount.value ≤
      (someAlike [4, 0, 0, 0]).eligibleCount.value := by decide +kernel
  have sameBeacon : (someAlike [2, 0, 0, 0]).beacon = (someAlike [4, 0, 0, 0]).beacon := rfl
  have few : (someAlike [4, 0, 0, 0]).potential.length < 2 ^ 32 := by decide
  obtain ⟨first, _, _, allowed⟩ := eligible_grows_with_count 8 sameBeacon rfl few le
  have eligible : ((someAlike [2, 0, 0, 0]).drawFor [4, 9, 4, 7, 9, 2] 8).eligible = [4, 7] := by
    decide +kernel
  refine ⟨few, le, eligible, ?_, allowed 7 (by decide +kernel)⟩
  rw [← eligible]
  exact first

end Lottery

end Authorship
