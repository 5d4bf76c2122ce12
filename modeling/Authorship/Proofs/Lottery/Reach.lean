/-
Module: Authorship.Proofs.Lottery.Reach
Purpose: Which selections a beacon can bring about. The number of a draw can be read off what the
  beacon is asked, so a beacon can answer each of the first 65536 draws as it likes; an answer can
  point at any account; and so any accounts can be drawn, in any order.
Main exports: Lottery.numberAsked_subject, Lottery.position_pointingAt, Lottery.following,
  Lottery.places, Lottery.PointsAt.taken, Lottery.every_selection_possible
-/
import Authorship.Proofs.Lottery.Split

namespace Authorship

namespace Lottery

/-! ## What is asked -/

/-- The number of the draw that a subject is about. -/
def numberAsked (asked : Bytes) : Nat :=
  ofLittleEndian ((asked.drop 6).take 2)

/-- The low two bytes of a draw's number can be read off its subject. -/
theorem numberAsked_subject (number : Nat) (slot : UInt32) :
    numberAsked (subject number slot) = number % 65536 := by
  have layout : ((subject number slot).drop 6).take 2 = littleEndian 2 number := rfl
  rw [numberAsked, layout, ofLittleEndian_littleEndian]

/-! ## What is answered -/

/-- A random value that points at a place: its low 32 bits are the place. -/
def pointingAt (place : Nat) : Hash where
  bytes := {
    toList := littleEndian 4 place ++ List.replicate 28 0
    length_toList := by simp }

theorem position_pointingAt {place remaining : Nat} (inside : place < remaining)
    (few : remaining < UInt32.size) : position (pointingAt place) remaining = place := by
  have low : (pointingAt place).toBytes.take 4 = littleEndian 4 place :=
    List.take_left' (length_littleEndian 4 place)
  rw [position_eq_mod low (Nat.lt_trans inside few) few, Nat.mod_eq_of_lt inside]

/-- From the draw of a number on, the beacon points at the given places, one after the other. -/
def PointsAt (beacon : Beacon) (slot : UInt32) (number : Nat) (targets : List Nat) : Prop :=
  ∀ index target, targets[index]? = some target →
    (beacon (subject (number + index) slot)).1 = pointingAt target

namespace PointsAt

variable {beacon : Beacon} {slot : UInt32} {number target : Nat} {targets : List Nat}

theorem head (points : PointsAt beacon slot number (target :: targets)) :
    (beacon (subject number slot)).1 = pointingAt target :=
  points 0 target rfl

theorem tail (points : PointsAt beacon slot number (target :: targets)) :
    PointsAt beacon slot (number + 1) targets := by
  intro index later found
  rw [Nat.add_right_comm]
  exact points (index + 1) later found

end PointsAt

/-- The beacon that points at the given places by the numbers of the draws. -/
def following (targets : List Nat) : Beacon :=
  fun asked => (pointingAt (targets.getD (numberAsked asked) 0), 0)

/-- It does so as long as the low two bytes tell the numbers apart. -/
theorem pointsAt_following {targets : List Nat} (slot : UInt32)
    (numbered : targets.length ≤ 65536) : PointsAt (following targets) slot 0 targets := by
  intro index target found
  have within : index < 65536 :=
    Nat.lt_of_lt_of_le (List.getElem?_eq_some_iff.mp found).1 numbered
  rw [Nat.zero_add, following, numberAsked_subject, Nat.mod_eq_of_lt within,
    List.getD_eq_getElem?_getD, found]
  rfl

/-! ## Any accounts, in any order -/

section Selecting

variable {α : Type} [DecidableEq α]

/-- The places at which the wanted accounts are found, each among the accounts that remain when
those before it have been taken out. -/
def places : (wanted accounts : List α) → List Nat
  | [], _ => []
  | account :: wanted, accounts =>
      accounts.idxOf account :: places wanted (accounts.erase account)

theorem length_places (wanted accounts : List α) :
    (places wanted accounts).length = wanted.length := by
  induction wanted generalizing accounts with
  | nil => rfl
  | cons account wanted inductionHypothesis => exact congrArg (· + 1) (inductionHypothesis _)

/-- Different accounts are still there when one of them has been taken out. -/
theorem subset_erase {account : α} {wanted accounts : List α} (distinct : accounts.Nodup)
    (once : (account :: wanted).Nodup) (listed : account :: wanted ⊆ accounts) :
    wanted ⊆ accounts.erase account := by
  intro other later
  rw [distinct.mem_erase_iff]
  refine ⟨?_, listed (List.mem_cons_of_mem _ later)⟩
  intro same
  rw [same] at later
  exact (List.nodup_cons.mp once).1 later

/-- A beacon that points at the places of the wanted accounts brings about that they are drawn. -/
theorem PointsAt.taken {beacon : Beacon} {slot : UInt32} {number : Nat}
    {wanted accounts : List α}
    (points : PointsAt beacon slot number (places wanted accounts))
    (few : accounts.length < UInt32.size) (distinct : accounts.Nodup) (once : wanted.Nodup)
    (listed : wanted ⊆ accounts) :
    ∃ left, Taken beacon slot number accounts wanted left := by
  induction wanted generalizing number accounts with
  | nil => exact ⟨accounts, .done⟩
  | cons account wanted inductionHypothesis =>
      have member : account ∈ accounts := listed List.mem_cons_self
      have found : accounts.idxOf account < accounts.length := List.idxOf_lt_length_iff.mpr member
      have here : place beacon slot number accounts = accounts.idxOf account := by
        rw [place, points.head]
        exact position_pointingAt found few
      have inside : place beacon slot number accounts < accounts.length := here ▸ found
      have chosen : accounts[place beacon slot number accounts] = account := by
        simp only [here, List.getElem_idxOf]
      have remaining : accounts.eraseIdx (place beacon slot number accounts) =
          accounts.erase account := by
        rw [here, List.eraseIdx_idxOf_eq_erase]
      have fewer : (accounts.erase account).length < UInt32.size :=
        Nat.lt_of_le_of_lt List.erase_sublist.length_le few
      obtain ⟨left, later⟩ := inductionHypothesis points.tail fewer (distinct.erase account)
        (List.nodup_cons.mp once).2 (subset_erase distinct once listed)
      rw [← remaining] at later
      refine ⟨left, ?_⟩
      rw [← chosen]
      exact .next (ofNat_length_ne_zero (List.length_pos_of_mem member) few) inside later

/-- As long as the numbers of the draws differ in their low two bytes, any different ones of the
accounts can be drawn, in any order: some beacon brings it about, and it does so at every slot. -/
theorem every_selection_possible (lottery : Lottery α) {accounts wanted : List α}
    (few : accounts.length < 2 ^ 32) (distinct : accounts.Nodup) (once : wanted.Nodup)
    (listed : wanted ⊆ accounts)
    (length : wanted.length = min lottery.eligibleCount.value.toNat accounts.length)
    (numbered : min lottery.eligibleCount.value.toNat accounts.length ≤ 65536) :
    ∃ beacon : Beacon, ∀ slot : UInt32,
      ({ lottery with beacon }.drawFor accounts slot).eligible = wanted := by
  refine ⟨following (places wanted accounts), ?_⟩
  intro slot
  have points : PointsAt (following (places wanted accounts)) slot 0 (places wanted accounts) := by
    apply pointsAt_following
    rw [length_places, length]
    exact numbered
  obtain ⟨left, draws⟩ := points.taken few distinct once listed
  have drawn := draws.drawFrom_eq.1
  rw [length] at drawn
  exact drawn

end Selecting

/-- A lottery that draws three authors. -/
private def drawingThree : Lottery Nat where
  beacon := Beacon.hashing Hash.zero 0
  potential := [5, 8, 1, 6]
  store := { storage := Storage.empty.put countKey (littleEndian 4 3) }

theorem every_selection_possible_drawingThree :
    drawingThree.eligibleCount.value = 3 ∧ [5, 8, 1, 6].Nodup ∧ [6, 5, 1].Nodup ∧
      [6, 5, 1] ⊆ [5, 8, 1, 6] ∧
      ∃ beacon : Beacon, ∀ slot : UInt32,
        ({ drawingThree with beacon }.drawFor [5, 8, 1, 6] slot).eligible = [6, 5, 1] := by
  have three : drawingThree.eligibleCount.value = 3 := by decide +kernel
  have distinct : [5, 8, 1, 6].Nodup := by decide
  have once : [6, 5, 1].Nodup := by decide
  have listed : [6, 5, 1] ⊆ [5, 8, 1, 6] := by decide
  have length : [6, 5, 1].length =
      min drawingThree.eligibleCount.value.toNat [5, 8, 1, 6].length := by
    rw [three]
    rfl
  have numbered : min drawingThree.eligibleCount.value.toNat [5, 8, 1, 6].length ≤ 65536 := by
    rw [three]
    decide
  exact ⟨three, distinct, once, listed,
    every_selection_possible drawingThree (by decide) distinct once listed length numbered⟩

end Lottery

end Authorship
