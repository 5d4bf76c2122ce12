/-
Module: Authorship.Proofs.Lottery.Migration
Purpose: The migration against the checks around it. The check before it says what the migration
  will write, and the check after it finds just that. Whatever is stored, the migration touches
  nothing but the number of authors to draw, and a second run finds nothing left to do. A stored
  share of at most a hundred hundredths never amounts to more authors than there are, or than the
  standard number; but any byte can be stored as a share.
Main exports: Lottery.withCount, Lottery.eligibleCount_withCount, Lottery.Migration.toNat_countFor,
  Lottery.Migration.run_cases, Lottery.Migration.run_run, Lottery.Migration.checks_agree,
  Lottery.Migration.countFor_le_iff, Lottery.Migration.bounded_iff_share
-/
import Authorship.Lottery.Migration
import Authorship.Proofs.Percent
import Authorship.Proofs.Storage

namespace Authorship

/-! ## Weights -/

namespace Weight

theorem toNat_saturating (value : Nat) : (saturating value).toNat = min value (2 ^ 64 - 1) := by
  have small : min value (UInt64.size - 1) < UInt64.size :=
    Nat.lt_of_le_of_lt (Nat.min_le_right _ _) (by decide)
  exact UInt64.toNat_ofNat_of_lt small

theorem times_one (weight : Weight) : weight.times 1 = weight := by
  have bound := weight.toNat_lt
  have one : (1 : UInt64).toNat = 1 := rfl
  apply UInt64.toNat_inj.mp
  rw [times, toNat_saturating, one, Nat.mul_one]
  omega

end Weight

namespace DbWeight

variable (weight : DbWeight)

theorem reads_one : weight.reads 1 = weight.read := Weight.times_one _

theorem toNat_readsWrites_one :
    (weight.readsWrites 1 1).toNat = min (2 ^ 64 - 1) (weight.read.toNat + weight.write.toNat) := by
  rw [readsWrites, reads_one, writes, Weight.times_one, Weight.plus, Weight.toNat_saturating,
    Nat.min_comm]

end DbWeight

namespace Lottery

variable {α : Type} {lottery : Lottery α} {count : EligibleCount}

/-! ## Writing the number to draw -/

theorem ratioKey_ne_countKey : ratioKey ≠ countKey := by decide +kernel

/-- The lottery after another number of authors to draw was written. -/
def withCount (lottery : Lottery α) (count : EligibleCount) : Lottery α :=
  { lottery with store := lottery.store.put countKey (encode count) }

/-- To write the number changes nothing if writes are refused. -/
theorem run_writeCount_cases (lottery : Lottery α) (count : EligibleCount) :
    (∃ refused, lottery.store.refusal = some refused ∧
      (writeCount count).run.run lottery = (.error refused, lottery)) ∨
    (lottery.store.refusal = none ∧
      (writeCount count).run.run lottery = (.ok (), lottery.withCount count)) := by
  rcases lottery.store.run_putValue_cases countKey count with
    ⟨refused, refuses, failed⟩ | ⟨works, written⟩
  · exact .inl ⟨refused, refuses, Attempt.run_onPart failed⟩
  · exact .inr ⟨works, Attempt.run_onPart written⟩

theorem get?_withCount_of_ne {key : StorageKey} (other : key ≠ countKey) :
    (lottery.withCount count).store.storage.get? key = lottery.store.storage.get? key := by
  rw [withCount, GuardedStorage.put, Storage.get?_put, if_neg other.symm]

theorem getValue_withCount (notZero : count.value ≠ 0) :
    (lottery.withCount count).store.storage.getValue EligibleCount countKey = .ok (some count) :=
  Storage.getValue_put_encode notZero

/-- The number to draw is the one that was written. -/
theorem eligibleCount_withCount (notZero : count.value ≠ 0) :
    (lottery.withCount count).eligibleCount = count := by
  rw [eligibleCount, readOr, getValue_withCount notZero]

theorem withCount_withCount (lottery : Lottery α) (first second : EligibleCount) :
    (lottery.withCount first).withCount second = lottery.withCount second := by
  simp only [withCount, GuardedStorage.put, Storage.put_put]

/-- Nothing differs but what is kept under the key of the number to draw. -/
structure SameButCount (before after : Lottery α) : Prop where
  surroundings : after = { before with store := after.store }
  refusal : after.store.refusal = before.store.refusal
  storage : ∀ key, key ≠ countKey →
    after.store.storage.get? key = before.store.storage.get? key

theorem sameButCount_withCount (lottery : Lottery α) (count : EligibleCount) :
    SameButCount lottery (lottery.withCount count) where
  surroundings := rfl
  refusal := rfl
  storage _ other := get?_withCount_of_ne other

namespace Migration

/-! ## What a share amounts to -/

theorem countFor_ne_zero (lottery : Lottery α) (ratio : Percent) :
    (countFor lottery ratio).value ≠ 0 := by
  rw [countFor]
  cases found : EligibleCount.of? (ratio.mulCeil (UInt32.ofNat lottery.potential.length)) with
  | none => decide
  | some count => exact (EligibleCount.of?_eq_some_iff.mp found).2

theorem toNat_countFor_eq_ite (lottery : Lottery α) (ratio : Percent) :
    (countFor lottery ratio).value.toNat =
      if (ratio.mulCeil (UInt32.ofNat lottery.potential.length)).toNat = 0 then 50
      else (ratio.mulCeil (UInt32.ofNat lottery.potential.length)).toNat := by
  rw [countFor, EligibleCount.of?]
  by_cases zero : ratio.mulCeil (UInt32.ofNat lottery.potential.length) = 0
  · rw [if_pos zero, zero]
    rfl
  · have positive : (ratio.mulCeil (UInt32.ofNat lottery.potential.length)).toNat ≠ 0 :=
      fun none => zero (UInt32.toNat_inj.mp none)
    rw [if_neg zero, if_neg positive]
    rfl

theorem toNat_countFor {ratio : Percent} (few : lottery.potential.length < 2 ^ 32)
    (share : ratio.hundredths.toNat ≤ 100) :
    (countFor lottery ratio).value.toNat =
      if (ratio.hundredths.toNat * lottery.potential.length) ⌈/⌉ 100 = 0 then 50
      else (ratio.hundredths.toNat * lottery.potential.length) ⌈/⌉ 100 := by
  have amount := Percent.toNat_mulCeil_of_le (UInt32.ofNat lottery.potential.length) share
  rw [UInt32.toNat_ofNat_of_lt' few] at amount
  rw [toNat_countFor_eq_ite, amount]

/-- The standard number stands in for none; otherwise, at most a hundred hundredths of the accounts
are at most all of them. -/
theorem toNat_countFor_le (lottery : Lottery α) {ratio : Percent}
    (share : ratio.hundredths.toNat ≤ 100) :
    (countFor lottery ratio).value.toNat ≤ max lottery.potential.length 50 := by
  have amount := Percent.mulCeil_le (UInt32.ofNat lottery.potential.length) share
  have wraps : (UInt32.ofNat lottery.potential.length).toNat ≤ lottery.potential.length := by
    rw [UInt32.toNat_ofNat']
    exact Nat.mod_le _ _
  rw [toNat_countFor_eq_ite]
  split
  · exact Nat.le_max_right _ _
  · exact le_max_of_le_left (Nat.le_trans (UInt32.le_iff_toNat_le.mp amount) wraps)

/-- Of a hundred accounts, a share is as many as it has hundredths. -/
theorem toNat_countFor_hundred {ratio : Percent} (hundred : lottery.potential.length = 100)
    (positive : ratio.hundredths.toNat ≠ 0) :
    (countFor lottery ratio).value.toNat = ratio.hundredths.toNat := by
  have amount : (ratio.mulCeil (UInt32.ofNat lottery.potential.length)).toNat =
      ratio.hundredths.toNat := by
    rw [hundred]
    exact ratio.toNat_mulCeil_hundred
  rw [toNat_countFor_eq_ite, amount, if_neg positive]

/-! ## One run -/

theorem storedRatio_of_getValue {stored? : Option Percent}
    (read : lottery.store.storage.getValue Percent ratioKey = .ok stored?) :
    storedRatio lottery = .ok stored? := by
  rw [storedRatio, read]
  rfl

theorem getValue_of_storedRatio {ratio : Percent}
    (stored : storedRatio lottery = .ok (some ratio)) :
    lottery.store.storage.getValue Percent ratioKey = .ok (some ratio) := by
  rw [storedRatio] at stored
  cases read : lottery.store.storage.getValue Percent ratioKey with
  | error error =>
      rw [read] at stored
      cases stored
  | ok found =>
      rw [read] at stored
      cases stored
      rfl

theorem storedRatio_of_decode_eq_error {bytes : Bytes} {error : DecodeError}
    (stored : lottery.store.storage.get? ratioKey = some bytes)
    (faulty : decode Percent bytes = .error error) :
    storedRatio lottery = .error .ratioUndecodable := by
  rw [storedRatio, Storage.getValue_of_decode_eq_error stored faulty]
  rfl

/-- A run writes what the stored share amounts to, unless writes are refused, and does nothing if
there is no share. -/
theorem run_cases (lottery : Lottery α) :
    (∃ error, storedRatio lottery = .error error ∧
      run lottery = (lottery.dbWeight.read, lottery)) ∨
    (storedRatio lottery = .ok none ∧ run lottery = (0, lottery)) ∨
    ∃ ratio, storedRatio lottery = .ok (some ratio) ∧
      ((∃ refused, lottery.store.refusal = some refused ∧
        run lottery = (lottery.dbWeight.read, lottery)) ∨
      (lottery.store.refusal = none ∧
        run lottery =
          (lottery.dbWeight.readsWrites 1 1, lottery.withCount (countFor lottery ratio)))) := by
  unfold run
  cases storedRatio lottery with
  | error error => exact .inl ⟨error, rfl, by rw [DbWeight.reads_one]⟩
  | ok stored? =>
      right
      cases stored? with
      | none => exact .inl ⟨rfl, rfl⟩
      | some ratio =>
          right
          refine ⟨ratio, rfl, ?_⟩
          rcases lottery.run_writeCount_cases (countFor lottery ratio) with
            ⟨refused, refuses, failed⟩ | ⟨works, written⟩
          · left
            refine ⟨refused, refuses, ?_⟩
            simp only [failed, DbWeight.reads_one]
          · right
            refine ⟨works, ?_⟩
            simp only [written]

/-- The share stays where it is, so that a second run comes to the same number. -/
theorem storedRatio_withCount (lottery : Lottery α) (count : EligibleCount) :
    storedRatio (lottery.withCount count) = storedRatio lottery := by
  simp only [storedRatio, Storage.getValue, get?_withCount_of_ne ratioKey_ne_countKey]

theorem run_run (lottery : Lottery α) : (run (run lottery).2).2 = (run lottery).2 := by
  rcases run_cases lottery with
    ⟨_, _, ran⟩ | ⟨_, ran⟩ | ⟨ratio, stored, ⟨_, _, ran⟩ | ⟨works, ran⟩⟩
  · rw [ran, ran]
  · rw [ran, ran]
  · rw [ran, ran]
  · have again := storedRatio_withCount lottery (countFor lottery ratio)
    rw [stored] at again
    rw [ran]
    rcases run_cases (lottery.withCount (countFor lottery ratio)) with
      ⟨_, other, _⟩ | ⟨other, _⟩ | ⟨same, found, ⟨_, _, ranAgain⟩ | ⟨_, ranAgain⟩⟩
    · cases again.symm.trans other
    · cases again.symm.trans other
    · rw [ranAgain]
    · cases again.symm.trans found
      rw [ranAgain]
      exact withCount_withCount lottery _ _

/-! ## The checks around it -/

theorem target?_of_storedRatio {stored? : Option Percent}
    (stored : storedRatio lottery = .ok stored?) :
    target? lottery = .ok (stored?.map (countFor lottery)) := by
  rw [target?, stored]
  rfl

theorem check_some_of_getValue
    (read : lottery.store.storage.getValue EligibleCount countKey = .ok (some count)) :
    check lottery (some count) = .ok () := by
  have found : (lottery.store.storage.getValue EligibleCount countKey).mapError
      (fun _ => Error.countUndecodable) = .ok (some count) := by
    rw [read]
    rfl
  rw [check, found]
  exact if_pos rfl

/-- Where no number is expected, any that can be read will do, and so will none. -/
theorem check_none_eq_ok_iff :
    check lottery none = .ok () ↔
      ∃ found, lottery.store.storage.getValue EligibleCount countKey = .ok found := by
  unfold check
  cases lottery.store.storage.getValue EligibleCount countKey with
  | error error => simp [Except.mapError, bind, Except.bind]
  | ok found => simp [Except.mapError, bind, Except.bind, pure, Except.pure]

/-- Whatever is stored, the migration and the checks around it agree. A share of at most a hundred
hundredths amounts to that share of the potential authors, rounded up, or to fifty if that is none:
the check before says so, the migration writes it and changes nothing else, and the check after
finds it; but where writes are refused nothing changes. Without a share the migration has nothing
to do, and the check after is content with what can be read. A share that cannot be read fails the
check before, and the migration leaves it alone. A second run changes nothing. -/
theorem checks_agree (lottery : Lottery α) (few : lottery.potential.length < 2 ^ 32) :
    (∀ bytes ratio, lottery.store.storage.get? ratioKey = some bytes →
      decode Percent bytes = .ok ratio → ratio.hundredths.toNat ≤ 100 →
        ∃ count : EligibleCount,
          (count.value.toNat =
            if (ratio.hundredths.toNat * lottery.potential.length) ⌈/⌉ 100 = 0 then 50
            else (ratio.hundredths.toNat * lottery.potential.length) ⌈/⌉ 100) ∧
          target? lottery = .ok (some count) ∧
          (lottery.store.refusal = none →
            (run lottery).1.toNat =
              min (2 ^ 64 - 1) (lottery.dbWeight.read.toNat + lottery.dbWeight.write.toNat) ∧
            SameButCount lottery (run lottery).2 ∧
            (run lottery).2.eligibleCount = count ∧
            check (run lottery).2 (some count) = .ok ()) ∧
          ∀ error, lottery.store.refusal = some error →
            run lottery = (lottery.dbWeight.read, lottery)) ∧
    (lottery.store.storage.get? ratioKey = none →
      target? lottery = .ok none ∧ run lottery = (0, lottery) ∧
      (check (run lottery).2 none = .ok () ↔
        lottery.store.storage.get? countKey = none ∨
          ∃ bytes count, lottery.store.storage.get? countKey = some bytes ∧
            decode EligibleCount bytes = .ok count)) ∧
    (∀ bytes error, lottery.store.storage.get? ratioKey = some bytes →
      decode Percent bytes = .error error →
        target? lottery = .error .ratioUndecodable ∧
        run lottery = (lottery.dbWeight.read, lottery)) ∧
    (run (run lottery).2).2 = (run lottery).2 := by
  refine ⟨?share, ?noShare, ?faulty, run_run lottery⟩
  case share =>
    intro bytes ratio stored decoded share
    have found : storedRatio lottery = .ok (some ratio) :=
      storedRatio_of_getValue (Storage.getValue_eq_ok_some_iff.mpr ⟨bytes, stored, decoded⟩)
    have notZero := countFor_ne_zero lottery ratio
    refine ⟨countFor lottery ratio, toNat_countFor few share, target?_of_storedRatio found, ?_⟩
    rcases run_cases lottery with
      ⟨_, other, _⟩ | ⟨other, _⟩ | ⟨same, found', ⟨refused, refuses, ran⟩ | ⟨works, ran⟩⟩
    · cases found.symm.trans other
    · cases found.symm.trans other
    · refine ⟨?_, fun _ _ => ran⟩
      intro works
      cases refuses.symm.trans works
    · cases found.symm.trans found'
      constructor
      · intro _
        rw [ran]
        exact ⟨lottery.dbWeight.toNat_readsWrites_one, sameButCount_withCount lottery _,
          eligibleCount_withCount notZero, check_some_of_getValue (getValue_withCount notZero)⟩
      · intro error refuses
        cases works.symm.trans refuses
  case noShare =>
    intro absent
    have found : storedRatio lottery = .ok none :=
      storedRatio_of_getValue (Storage.getValue_of_get?_eq_none absent)
    have ran : run lottery = (0, lottery) := by
      rw [run, found]
    refine ⟨target?_of_storedRatio found, ran, ?_⟩
    rw [ran, check_none_eq_ok_iff, Storage.exists_getValue_eq_ok_iff]
  case faulty =>
    intro bytes error stored faulty
    have found := storedRatio_of_decode_eq_error stored faulty
    constructor
    · rw [target?, found]
      rfl
    · rw [run, found]
      simp only [DbWeight.reads_one]

/-- Seven accounts, a third of which may author, and a number that cannot be read. -/
private def thirdOfSeven : Lottery Nat where
  beacon := Beacon.fixed Hash.zero
  potential := [1, 2, 3, 4, 5, 6, 7]
  store := { storage := (Storage.empty.put ratioKey [33, 0]).put countKey [1, 2] }
  dbWeight := { read := 25, write := 18446744073709551600 }

theorem checks_agree_thirdOfSeven :
    thirdOfSeven.potential.length < 2 ^ 32 ∧
      target? thirdOfSeven = .ok (some ⟨3⟩) ∧
      (run thirdOfSeven).1 = 18446744073709551615 ∧
      (run thirdOfSeven).2.eligibleCount = ⟨3⟩ ∧
      check (run thirdOfSeven).2 (some ⟨3⟩) = .ok () := by
  have few : thirdOfSeven.potential.length < 2 ^ 32 := by decide
  have stored : thirdOfSeven.store.storage.get? ratioKey = some [33, 0] := by decide +kernel
  obtain ⟨shared, _⟩ := checks_agree thirdOfSeven few
  obtain ⟨count, amount, target, works, _⟩ :=
    shared [33, 0] ⟨33⟩ stored (by decide +kernel) (by decide)
  have three : count = ⟨3⟩ := by
    cases count
    exact congrArg EligibleCount.mk (UInt32.toNat_inj.mp amount)
  subst three
  obtain ⟨weight, _, migrated, checked⟩ := works rfl
  exact ⟨few, target, UInt64.toNat_inj.mp weight, migrated, checked⟩

/-! ## Shares above a hundred -/

/-- A lottery among a hundred accounts. -/
private def amongHundred [Inhabited α] : Lottery α where
  beacon := Beacon.fixed Hash.zero
  potential := List.replicate 100 default

/-- What is stored as a share never amounts to more authors than there are, or than the standard
number, just if it is at most a hundred hundredths. -/
theorem countFor_le_iff [Inhabited α] (ratio : Percent) :
    ratio.hundredths.toNat ≤ 100 ↔
      ∀ lottery : Lottery α,
        (countFor lottery ratio).value.toNat ≤ max lottery.potential.length 50 := by
  constructor
  · intro share lottery
    exact toNat_countFor_le lottery share
  · intro bounded
    by_contra above
    have length : (amongHundred : Lottery α).potential.length = 100 := List.length_replicate
    have positive : ratio.hundredths.toNat ≠ 0 := by omega
    have bound := bounded amongHundred
    rw [toNat_countFor_hundred length positive, length] at bound
    omega

/-- A run leaves everything as it was, or a share is stored and the run writes what that amounts
to. -/
theorem run_writes (lottery : Lottery α) :
    (run lottery).2 = lottery ∨
      ∃ (ratio : Percent) (rest : Bytes),
        lottery.store.storage.get? ratioKey = some (ratio.hundredths :: rest) ∧
        (run lottery).2 = lottery.withCount (countFor lottery ratio) := by
  rcases run_cases lottery with
    ⟨_, _, ran⟩ | ⟨_, ran⟩ | ⟨ratio, stored, ⟨_, _, ran⟩ | ⟨_, ran⟩⟩
  · exact .inl (congrArg Prod.snd ran)
  · exact .inl (congrArg Prod.snd ran)
  · exact .inl (congrArg Prod.snd ran)
  · right
    obtain ⟨bytes, found, decoded⟩ :=
      Storage.getValue_eq_ok_some_iff.mp (getValue_of_storedRatio stored)
    obtain ⟨rest, rfl⟩ := Percent.decode_eq_ok_iff.mp decoded
    exact ⟨ratio, rest, found, congrArg Prod.snd ran⟩

/-- A share that is made is at most a hundred hundredths, but any byte that is stored is read as a
share. What a share of a number amounts to is rounded up and cut to 32 bits; nothing is cut off, and
no share of a number is more than the number, just for the shares of at most a hundred hundredths.
What the migration writes is what the stored share amounts to; and this is never more than there are
potential authors, or than fifty, just for these shares again. -/
theorem bounded_iff_share [Inhabited α] :
    (∀ hundredths : UInt8, (Percent.of hundredths).hundredths.toNat = min hundredths.toNat 100) ∧
    (∀ (bytes : Bytes) (ratio : Percent),
      decode Percent bytes = .ok ratio ↔ ∃ rest, bytes = ratio.hundredths :: rest) ∧
    (∀ (ratio : Percent) (number : UInt32),
      (ratio.mulCeil number).toNat =
        ((ratio.hundredths.toNat * number.toNat) ⌈/⌉ 100) % 2 ^ 32) ∧
    (∀ ratio : Percent,
      ratio.hundredths.toNat ≤ 100 ↔
        ∀ number : UInt32,
          (ratio.mulCeil number).toNat = (ratio.hundredths.toNat * number.toNat) ⌈/⌉ 100 ∧
            ratio.mulCeil number ≤ number) ∧
    (∀ lottery : Lottery α,
      (run lottery).2 = lottery ∨
        ∃ (ratio : Percent) (rest : Bytes),
          lottery.store.storage.get? ratioKey = some (ratio.hundredths :: rest) ∧
          (run lottery).2 = lottery.withCount (countFor lottery ratio)) ∧
    (∀ ratio : Percent,
      ratio.hundredths.toNat ≤ 100 ↔
        ∀ lottery : Lottery α,
          (countFor lottery ratio).value.toNat ≤ max lottery.potential.length 50) :=
  ⟨Percent.toNat_of, fun _ _ => Percent.decode_eq_ok_iff, Percent.toNat_mulCeil, Percent.exact_iff,
    run_writes, countFor_le_iff⟩

/-- Fifty accounts, two hundred hundredths of which may author. -/
private def fiftyTwice : Lottery Nat where
  beacon := Beacon.fixed Hash.zero
  potential := List.range 50
  store := { storage := (Storage.empty.put countKey (littleEndian 4 50)).put ratioKey [200] }

theorem fiftyTwice_migrated :
    decode Percent [200] = .ok ⟨200⟩ ∧
      (Percent.mk 200).hundredths.toNat = 200 ∧
      ((Percent.mk 200).mulCeil 50).toNat = 100 ∧
      ((Percent.mk 200).mulCeil 4294967295).toNat = 4294967294 ∧
      (200 * 4294967295) ⌈/⌉ 100 = 8589934590 ∧
      fiftyTwice.eligibleCount.value.toNat = 50 ∧
      max fiftyTwice.potential.length 50 = 50 ∧
      (run fiftyTwice).2.eligibleCount.value.toNat = 100 := by
  decide +kernel

end Migration

end Lottery

end Authorship
