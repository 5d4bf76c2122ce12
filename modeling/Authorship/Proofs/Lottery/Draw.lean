/-
Module: Authorship.Proofs.Lottery.Draw
Purpose: Whom the lottery lets author. A draw moves accounts from those that remain to those drawn,
  one for each question to the beacon, and neither makes nor loses any. The number to draw is never
  zero, whatever is kept under its key, since zero is not read and what is not read does not count.
  So no slot goes without an author.
Main exports: Lottery.position_lt, Lottery.position_eq_mod, Lottery.drawFrom_eq_cons,
  Lottery.drawFrom_perm, Lottery.length_eligible_drawFrom, Lottery.eligibleCount_ne_zero,
  Lottery.filter_eq_true_iff, Lottery.filter_never_stalls
-/
import Mathlib.Data.Finset.Card
import Authorship.Lottery
import Authorship.Proofs.CanonicalForm
import Authorship.Proofs.Storage

namespace Authorship

namespace Lottery

/-! ## Drawing -/

section Drawing

variable {α : Type} {beacon : Beacon} {slot : UInt32}

/-- The beacon points at one of the accounts that remain. -/
theorem position_lt (value : Hash) {remaining : Nat} (notNone : 0 < remaining)
    (few : remaining < UInt32.size) : position value remaining < remaining := by
  have counted : (UInt32.ofNat remaining).toNat = remaining := UInt32.toNat_ofNat_of_lt few
  rw [position, UInt32.toNat_mod, counted]
  exact Nat.mod_lt _ notNone

/-- The position is what the number in the first four bytes leaves when it is divided by how many
remain. -/
theorem position_eq_mod {value : Hash} {number remaining : Nat}
    (first : value.toBytes.take 4 = littleEndian 4 number) (small : number < UInt32.size)
    (few : remaining < UInt32.size) : position value remaining = number % remaining := by
  have read : ofLittleEndian (littleEndian 4 number) = number := by
    rw [ofLittleEndian_littleEndian, Nat.mod_eq_of_lt small]
  rw [position, first, read, UInt32.toNat_mod, UInt32.toNat_ofNat_of_lt' small,
    UInt32.toNat_ofNat_of_lt' few]

/-- Where the beacon points at the draw of a number, if these accounts remain. -/
def place (beacon : Beacon) (slot : UInt32) (number : Nat) (accounts : List α) : Nat :=
  position (beacon (subject number slot)).1 accounts.length

theorem place_lt (beacon : Beacon) (slot : UInt32) (number : Nat) {accounts : List α}
    (someone : 0 < accounts.length) (few : accounts.length < UInt32.size) :
    place beacon slot number accounts < accounts.length :=
  position_lt _ someone few

/-- A draw followed by others: what the beacon was asked at it, and the account taken. -/
def Draw.cons (question : Bytes) (chosen : α) (later : Draw α) : Draw α where
  eligible := chosen :: later.eligible
  ineligible := later.ineligible
  asked := question :: later.asked

/-- The beacon is asked once, the account that it points at is drawn, and the next draw finds the
others. -/
theorem drawFrom_eq_cons {number : Nat} {accounts : List α} (count : Nat)
    (inside : place beacon slot number accounts < accounts.length) :
    drawFrom beacon slot (count + 1) number accounts =
      .cons (subject number slot) accounts[place beacon slot number accounts]
        (drawFrom beacon slot count (number + 1)
          (accounts.eraseIdx (place beacon slot number accounts))) := by
  have found : accounts[position (beacon (subject number slot)).1 accounts.length]? =
      some accounts[place beacon slot number accounts] := List.getElem?_eq_getElem inside
  rw [drawFrom, found]
  rfl

theorem drawFrom_succ {number : Nat} {accounts : List α} (count : Nat)
    (inside : place beacon slot number accounts < accounts.length) :
    (drawFrom beacon slot (count + 1) number accounts).eligible =
        accounts[place beacon slot number accounts] ::
          (drawFrom beacon slot count (number + 1)
            (accounts.eraseIdx (place beacon slot number accounts))).eligible ∧
      (drawFrom beacon slot (count + 1) number accounts).ineligible =
        (drawFrom beacon slot count (number + 1)
          (accounts.eraseIdx (place beacon slot number accounts))).ineligible := by
  rw [drawFrom_eq_cons count inside]
  exact ⟨rfl, rfl⟩

/-- Those drawn and those not drawn are the accounts, each as often as it was among them. -/
theorem drawFrom_perm (count number : Nat) (accounts : List α) :
    ((drawFrom beacon slot count number accounts).eligible ++
      (drawFrom beacon slot count number accounts).ineligible).Perm accounts := by
  induction count generalizing number accounts with
  | zero => exact List.Perm.refl _
  | succ count inductionHypothesis =>
      rw [drawFrom]
      cases found : accounts[position (beacon (subject number slot)).1 accounts.length]? with
      | none => exact List.Perm.refl _
      | some chosen =>
          obtain ⟨inside, rfl⟩ := List.getElem?_eq_some_iff.mp found
          refine List.Perm.trans ?_ (List.getElem_cons_eraseIdx_perm inside)
          exact (inductionHypothesis _ _).cons _

/-- As many accounts are drawn as are asked for, as long as there are so many. -/
theorem length_eligible_drawFrom {count : Nat} (number : Nat) {accounts : List α}
    (enough : count ≤ accounts.length) (few : accounts.length < UInt32.size) :
    (drawFrom beacon slot count number accounts).eligible.length = count := by
  induction count generalizing number accounts with
  | zero => rfl
  | succ count inductionHypothesis =>
      have someone : 0 < accounts.length := Nat.lt_of_lt_of_le (Nat.succ_pos count) enough
      have inside := place_lt beacon slot number someone few
      have fewer := List.length_eraseIdx_of_lt inside
      rw [(drawFrom_succ count inside).1, List.length_cons, inductionHypothesis]
      · omega
      · omega

theorem length_eligible_draw (count : Nat) {accounts : List α}
    (few : accounts.length < UInt32.size) :
    (draw beacon slot count accounts).eligible.length = min count accounts.length :=
  length_eligible_drawFrom 0 (Nat.min_le_right _ _) few

theorem mem_of_mem_eligible_draw {count : Nat} {accounts : List α} {account : α}
    (drawn : account ∈ (draw beacon slot count accounts).eligible) : account ∈ accounts :=
  (drawFrom_perm _ _ accounts).subset (List.mem_append_left _ drawn)

/-- Whoever is listed once is drawn at most once. -/
theorem nodup_eligible_draw {count : Nat} {accounts : List α} (distinct : accounts.Nodup) :
    (draw beacon slot count accounts).eligible.Nodup :=
  (((drawFrom_perm _ _ accounts).nodup_iff).mpr distinct).of_append_left

/-- Nobody is left out if as many are drawn as there are. -/
theorem mem_eligible_draw_of_length_le {count : Nat} {accounts : List α} {account : α}
    (few : accounts.length < UInt32.size) (enough : accounts.length ≤ count)
    (listed : account ∈ accounts) : account ∈ (draw beacon slot count accounts).eligible := by
  have perm : ((draw beacon slot count accounts).eligible ++
      (draw beacon slot count accounts).ineligible).Perm accounts := drawFrom_perm _ _ accounts
  have total := perm.length_eq
  have drawn : (draw beacon slot count accounts).eligible.length = min count accounts.length :=
    length_eligible_draw count few
  have noneLeft : (draw beacon slot count accounts).ineligible = [] := by
    apply List.eq_nil_of_length_eq_zero
    rw [List.length_append] at total
    omega
  rw [noneLeft, List.append_nil] at perm
  exact perm.mem_iff.mpr listed

end Drawing

/-! ## Who may author -/

variable {α : Type} (lottery : Lottery α) (slot : UInt32)

/-- Whatever the storage holds, somebody is to be drawn. -/
theorem eligibleCount_ne_zero : lottery.eligibleCount.value ≠ 0 := by
  rw [eligibleCount, readOr]
  split
  · next count read =>
      obtain ⟨bytes, _, decoded⟩ := Storage.getValue_eq_ok_some_iff.mp read
      exact (LawfulCodec.decode_eq_ok_iff.mp decoded).1
  · decide

variable [DecidableEq α]

theorem filter_eq_true_iff {account : α} :
    lottery.filter account slot = true ↔
      account ∈ (lottery.drawFor lottery.potential slot).eligible :=
  decide_eq_true_iff

/-- Whatever the storage holds and the beacon says: the number of authors to draw is not zero; only
potential authors may author, and if there are any, one of them may; those who may are at most as
many as are to be drawn and as there are, and exactly so many if nobody is listed twice; and if as
many are to be drawn as there are, everybody may. -/
theorem filter_never_stalls (few : lottery.potential.length < 2 ^ 32) :
    lottery.eligibleCount.value ≠ 0 ∧
    (∀ account, lottery.filter account slot = true → account ∈ lottery.potential) ∧
    (lottery.potential ≠ [] → ∃ account, lottery.filter account slot = true) ∧
    (∃ allowed : Finset α,
      (∀ account, account ∈ allowed ↔ lottery.filter account slot = true) ∧
      allowed.card ≤ min lottery.eligibleCount.value.toNat lottery.potential.length ∧
      (lottery.potential.Nodup →
        allowed.card = min lottery.eligibleCount.value.toNat lottery.potential.length)) ∧
    (lottery.potential.length ≤ lottery.eligibleCount.value.toNat →
      ∀ account ∈ lottery.potential, lottery.filter account slot = true) := by
  have drawn : (lottery.drawFor lottery.potential slot).eligible.length =
      min lottery.eligibleCount.value.toNat lottery.potential.length :=
    length_eligible_draw _ few
  have notZero := lottery.eligibleCount_ne_zero
  refine ⟨notZero, ?_, ?_, ?_, ?_⟩
  · intro account allowed
    exact mem_of_mem_eligible_draw ((lottery.filter_eq_true_iff slot).mp allowed)
  · intro someone
    have positive : 0 < lottery.eligibleCount.value.toNat := by
      rw [Nat.pos_iff_ne_zero]
      exact fun zero => notZero (UInt32.toNat_inj.mp zero)
    have listed := List.length_pos_iff.mpr someone
    have notEmpty : 0 < (lottery.drawFor lottery.potential slot).eligible.length := by omega
    obtain ⟨account, member⟩ := List.exists_mem_of_length_pos notEmpty
    exact ⟨account, (lottery.filter_eq_true_iff slot).mpr member⟩
  · refine ⟨(lottery.drawFor lottery.potential slot).eligible.toFinset, ?_, ?_, ?_⟩
    · intro account
      rw [List.mem_toFinset, filter_eq_true_iff]
    · rw [← drawn]
      exact List.toFinset_card_le _
    · intro distinct
      rw [← drawn]
      exact List.toFinset_card_of_nodup (nodup_eligible_draw distinct)
  · intro enough account listed
    rw [filter_eq_true_iff]
    exact mem_eligible_draw_of_length_le few enough listed

/-- Three accounts, one of them listed twice, and a stored number of zero. -/
private def zeroCounted : Lottery Nat where
  beacon := Beacon.hashing Hash.zero 0
  potential := [4, 9, 4, 7]
  store := { storage := Storage.empty.put countKey (littleEndian 4 0) }

theorem filter_never_stalls_zeroCounted :
    zeroCounted.potential.length < 2 ^ 32 ∧ zeroCounted.potential ≠ [] ∧
      zeroCounted.eligibleCount.value = 50 ∧
      (∃ account, zeroCounted.filter account 12 = true) ∧
      ∀ account ∈ zeroCounted.potential, zeroCounted.filter account 12 = true := by
  have few : zeroCounted.potential.length < 2 ^ 32 := by decide
  have standard : zeroCounted.eligibleCount.value = 50 := by decide +kernel
  obtain ⟨_, _, someone, _, everyone⟩ := zeroCounted.filter_never_stalls 12 few
  refine ⟨few, by decide, standard, someone (by decide), everyone ?_⟩
  rw [standard]
  decide

end Lottery

end Authorship
