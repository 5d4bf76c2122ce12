/-
Module: Authorship.Proofs.Lottery.Subject
Purpose: What the beacon is asked. The slot and the low two bytes of the draw's number can be told
  from a subject, so no two slots share one, and neither do two draws of a slot as long as two bytes
  count them. Drawing asks once for every account drawn, in the order of the numbers. A hashing
  beacon hashes other bytes for every seed and subject.
Main exports: littleEndian_eq_iff, Lottery.subject_eq_iff, Lottery.asked_drawFrom,
  Lottery.nodup_subjects_iff, Lottery.hashed_eq_iff, Lottery.subjects_separate
-/
import Mathlib.Data.List.Nodup
import Authorship.Proofs.Commitment
import Authorship.Proofs.Lottery.Draw

namespace Authorship

theorem littleEndian_eq_iff {width one other : Nat} :
    littleEndian width one = littleEndian width other ↔
      one % Nat.pow 256 width = other % Nat.pow 256 width := by
  constructor
  · intro same
    rw [← ofLittleEndian_littleEndian, same, ofLittleEndian_littleEndian]
  · intro same
    rw [← littleEndian_mod, same, littleEndian_mod]

namespace Lottery

/-! ## Subjects -/

/-- The slots are the last four bytes, and the numbers the two before them. -/
theorem subject_eq_iff {number other : Nat} {slot later : UInt32} :
    subject number slot = subject other later ↔
      slot = later ∧ number % 65536 = other % 65536 := by
  constructor
  · intro same
    obtain ⟨front, slots⟩ := List.append_inj' same (by simp)
    obtain ⟨_, numbers⟩ := List.append_inj' front (by simp)
    have wide := littleEndian_eq_iff.mp (List.reverse_inj.mp slots)
    rw [Nat.mod_eq_of_lt slot.toNat_lt, Nat.mod_eq_of_lt later.toNat_lt] at wide
    exact ⟨UInt32.toNat_inj.mp wide, littleEndian_eq_iff.mp numbers⟩
  · rintro ⟨rfl, low⟩
    have numbers : littleEndian 2 number = littleEndian 2 other := littleEndian_eq_iff.mpr low
    rw [subject, subject, numbers]

/-- The draws of a slot are about different subjects exactly as long as two bytes count them. -/
theorem nodup_subjects_iff {count : Nat} {slot : UInt32} :
    ((List.range count).map (subject · slot)).Nodup ↔ count ≤ 65536 := by
  rw [List.nodup_map_iff_inj_on List.nodup_range]
  simp only [List.mem_range]
  constructor
  · intro apart
    by_contra more
    have again : subject 0 slot = subject 65536 slot := subject_eq_iff.mpr ⟨rfl, rfl⟩
    exact absurd (apart 0 (by omega) 65536 (by omega) again) (by decide)
  · intro counted number inside other otherInside same
    have low := (subject_eq_iff.mp same).2
    omega

/-! ## What is asked -/

section Asking

variable {α : Type} {beacon : Beacon} {slot : UInt32}

/-- The beacon points at one of the accounts that remain, however many there are. -/
theorem place_lt_length (beacon : Beacon) (slot : UInt32) (number : Nat) {accounts : List α}
    (someone : 0 < accounts.length) : place beacon slot number accounts < accounts.length := by
  rcases Nat.lt_or_ge accounts.length UInt32.size with few | many
  · exact place_lt beacon slot number someone few
  · -- 32 bits do not count the accounts, but a position is a 32-bit number all the same.
    exact Nat.lt_of_lt_of_le (UInt32.toNat_lt _) many

/-- From the draw of a number on, one question is asked for every account drawn, and the questions
bear the numbers of the draws. -/
theorem asked_drawFrom {count : Nat} (number : Nat) {accounts : List α}
    (enough : count ≤ accounts.length) :
    (drawFrom beacon slot count number accounts).asked =
      (List.range' number (drawFrom beacon slot count number accounts).eligible.length).map
        (subject · slot) := by
  induction count generalizing number accounts with
  | zero => rfl
  | succ count inductionHypothesis =>
      have someone : 0 < accounts.length := Nat.lt_of_lt_of_le (Nat.succ_pos count) enough
      have inside := place_lt_length beacon slot number someone
      have fewer := List.length_eraseIdx_of_lt inside
      have remaining : count ≤ (accounts.eraseIdx (place beacon slot number accounts)).length := by
        omega
      rw [drawFrom_eq_cons count inside, Draw.cons, inductionHypothesis (number + 1) remaining,
        List.length_cons, List.range'_succ, List.map_cons]

theorem asked_drawFor (lottery : Lottery α) (accounts : List α) (slot : UInt32) :
    (lottery.drawFor accounts slot).asked =
      (List.range (lottery.drawFor accounts slot).eligible.length).map (subject · slot) := by
  rw [List.range_eq_range']
  exact asked_drawFrom 0 (Nat.min_le_right _ _)

theorem exists_of_mem_asked {lottery : Lottery α} {accounts : List α} {question : Bytes}
    (member : question ∈ (lottery.drawFor accounts slot).asked) :
    ∃ number, question = subject number slot := by
  rw [asked_drawFor] at member
  obtain ⟨number, _, same⟩ := List.mem_map.mp member
  exact ⟨number, same.symm⟩

end Asking

/-! ## What is hashed -/

/-- A hashing beacon hashes the same bytes only for the same seed and the same subject. -/
theorem hashed_eq_iff {seed otherSeed : Hash} {asked other : Bytes} :
    seed.toBytes ++ asked = otherSeed.toBytes ++ other ↔ seed = otherSeed ∧ asked = other := by
  have widths : seed.toBytes.length = otherSeed.toBytes.length :=
    seed.bytes.length_toList.trans otherSeed.bytes.length_toList.symm
  constructor
  · intro same
    obtain ⟨seeds, subjects⟩ := List.append_inj same widths
    exact ⟨Hash.toBytes_inj.mp seeds, subjects⟩
  · rintro ⟨rfl, rfl⟩
    rfl

theorem hashing_eq_or_collision {seed otherSeed : Hash} {since otherSince : UInt32}
    {asked other : Bytes}
    (same : (Beacon.hashing seed since asked).1 = (Beacon.hashing otherSeed otherSince other).1) :
    (seed = otherSeed ∧ asked = other) ∨
      Collision (seed.toBytes ++ asked) (otherSeed.toBytes ++ other) :=
  (eq_or_collision_of_hash same).imp_left hashed_eq_iff.mp

/-! ## Subjects are separate -/

/-- Two subjects are the same only for one slot and for numbers that agree in their low two bytes.
So slots share no subject, whoever draws from whichever accounts. The draw of a slot asks once for
every account drawn, in the order of the numbers, and repeats no question exactly as long as no more
than 65536 are drawn. Hashing beacons hash the same bytes, and agree in their answers unless SHA-256
collides, only for one seed, one slot and such numbers. -/
theorem subjects_separate {α β : Type} (lottery : Lottery α) (other : Lottery β)
    (accounts : List α) (others : List β) (slot later : UInt32) :
    (∀ number otherNumber, subject number slot = subject otherNumber later ↔
      slot = later ∧ number % 65536 = otherNumber % 65536) ∧
    (slot ≠ later →
      List.Disjoint (lottery.drawFor accounts slot).asked (other.drawFor others later).asked) ∧
    (lottery.drawFor accounts slot).asked =
      (List.range (lottery.drawFor accounts slot).eligible.length).map (subject · slot) ∧
    (accounts.length < 2 ^ 32 → (lottery.drawFor accounts slot).eligible.length =
      min lottery.eligibleCount.value.toNat accounts.length) ∧
    ((lottery.drawFor accounts slot).asked.Nodup ↔
      (lottery.drawFor accounts slot).eligible.length ≤ 65536) ∧
    (∀ (seed otherSeed : Hash) (number otherNumber : Nat),
      seed.toBytes ++ subject number slot = otherSeed.toBytes ++ subject otherNumber later ↔
        seed = otherSeed ∧ slot = later ∧ number % 65536 = otherNumber % 65536) ∧
    (∀ (seed otherSeed : Hash) (since otherSince : UInt32) (number otherNumber : Nat),
      (Beacon.hashing seed since (subject number slot)).1 =
          (Beacon.hashing otherSeed otherSince (subject otherNumber later)).1 →
        (seed = otherSeed ∧ slot = later ∧ number % 65536 = otherNumber % 65536) ∨
          Collision (seed.toBytes ++ subject number slot)
            (otherSeed.toBytes ++ subject otherNumber later)) := by
  have asked := asked_drawFor lottery accounts slot
  refine ⟨fun _ _ => subject_eq_iff, ?disjoint, asked, length_eligible_draw _, ?once, ?hashed,
    ?answers⟩
  case disjoint =>
    intro differ question here there
    obtain ⟨number, same⟩ := exists_of_mem_asked here
    obtain ⟨otherNumber, again⟩ := exists_of_mem_asked there
    exact differ (subject_eq_iff.mp (same.symm.trans again)).1
  case once =>
    rw [asked, nodup_subjects_iff]
  case hashed =>
    intro seed otherSeed number otherNumber
    rw [hashed_eq_iff, subject_eq_iff]
  case answers =>
    intro seed otherSeed since otherSince number otherNumber same
    refine (hashing_eq_or_collision same).imp_left ?_
    exact fun equal => ⟨equal.1, subject_eq_iff.mp equal.2⟩

/-- A lottery that draws three authors. -/
private def askingThree : Lottery Nat where
  beacon := Beacon.hashing Hash.zero 0
  potential := [5, 8, 1, 6]
  store := { storage := Storage.empty.put countKey (littleEndian 4 3) }

theorem subjects_separate_askingThree :
    [5, 8, 1, 6].length < 2 ^ 32 ∧
      (askingThree.drawFor [5, 8, 1, 6] 258).asked =
        [[0x66, 0x69, 0x6c, 0x74, 0x65, 0x72, 0, 0, 0, 0, 1, 2],
          [0x66, 0x69, 0x6c, 0x74, 0x65, 0x72, 1, 0, 0, 0, 1, 2],
          [0x66, 0x69, 0x6c, 0x74, 0x65, 0x72, 2, 0, 0, 0, 1, 2]] ∧
      (askingThree.drawFor [5, 8, 1, 6] 258).asked.Nodup ∧
      (258 : UInt32) ≠ 513 ∧
      List.Disjoint (askingThree.drawFor [5, 8, 1, 6] 258).asked
        (askingThree.drawFor [8, 1] 513).asked ∧
      (Beacon.hashing Hash.zero 7 (subject 3 258)).1 =
        (Beacon.hashing Hash.zero 9 (subject 65539 258)).1 ∧
      3 % 65536 = 65539 % 65536 := by
  have three : askingThree.eligibleCount.value = 3 := by decide +kernel
  have differ : (258 : UInt32) ≠ 513 := by decide
  have again : subject 3 258 = subject 65539 258 := by decide
  have answers : (Beacon.hashing Hash.zero 7 (subject 3 258)).1 =
      (Beacon.hashing Hash.zero 9 (subject 65539 258)).1 := by
    rw [again]
    rfl
  obtain ⟨_, disjoint, asked, drawn, once, _⟩ :=
    subjects_separate askingThree askingThree [5, 8, 1, 6] [8, 1] 258 513
  obtain ⟨_, _, _, _, _, _, agree⟩ :=
    subjects_separate askingThree askingThree [5, 8, 1, 6] [8, 1] 258 258
  have few : [5, 8, 1, 6].length < 2 ^ 32 := by decide
  have length := drawn few
  rw [three] at length
  have numbers : 3 % 65536 = 65539 % 65536 := by
    refine (agree Hash.zero Hash.zero 7 9 3 65539 answers).elim (·.2.2) ?_
    rintro ⟨different, _⟩
    exact absurd (congrArg (Hash.zero.toBytes ++ ·) again) different
  rw [length] at asked once
  exact ⟨few, asked.trans (by decide), once.mpr (by decide), differ, disjoint differ, answers,
    numbers⟩

end Lottery

end Authorship
