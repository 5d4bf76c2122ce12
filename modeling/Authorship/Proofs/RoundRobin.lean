/-
Module: Authorship.Proofs.RoundRobin
Purpose: Taking turns is fair. In as many consecutive slots as there are authorities, the turns are
  the list of authorities from some place on and round to it again, so each authority has as many of
  them as it is listed; and at every slot exactly one account may author, if any is listed.
Main exports: RoundRobin.turns, RoundRobin.turns_eq_rotate, RoundRobin.exists_slotAuthor,
  RoundRobin.takes_fair_turns
-/
import Mathlib.Data.List.Count
import Mathlib.Data.List.Rotate
import Mathlib.Data.Option.Basic
import Mathlib.Logic.ExistsUnique
import Authorship.Filter

namespace Authorship.RoundRobin

variable {α : Type} {authorities : List α} {slot : UInt32}

/-- Whose turn it is at so many slots, from the given one on. -/
def turns (authorities : List α) (slot : UInt32) (count : Nat) : List (Option α) :=
  (List.range count).map fun ahead => slotAuthor? authorities (slot + UInt32.ofNat ahead)

/-- Slots do not start again at zero while they fit into 32 bits. -/
theorem toNat_slot_add {ahead : Nat} (fits : slot.toNat + ahead < UInt32.size) :
    (slot + UInt32.ofNat ahead).toNat = slot.toNat + ahead := by
  have small : ahead < UInt32.size := by omega
  rw [UInt32.toNat_add, UInt32.toNat_ofNat_of_lt' small]
  exact Nat.mod_eq_of_lt fits

/-- So many slots further it is the turn of the authority as many places further in the list, which
is gone round. -/
theorem slotAuthor?_add {ahead : Nat} (inside : ahead < authorities.length)
    (fits : slot.toNat + ahead < UInt32.size) :
    slotAuthor? authorities (slot + UInt32.ofNat ahead) =
      (authorities.rotate (slot.toNat % authorities.length))[ahead]? := by
  rw [slotAuthor?, toNat_slot_add fits, List.getElem?_rotate inside, Nat.add_mod_mod,
    Nat.add_comm ahead]

theorem turns_eq_rotate (fits : slot.toNat + authorities.length ≤ UInt32.size) :
    turns authorities slot authorities.length =
      (authorities.rotate (slot.toNat % authorities.length)).map some := by
  apply List.ext_getElem
  · simp [turns]
  · intro ahead inside _
    have listed : ahead < authorities.length := by simpa [turns] using inside
    simp only [turns, List.getElem_map, List.getElem_range]
    rw [slotAuthor?_add listed (by omega), List.getElem?_eq_getElem]

/-- Among authorities it is always somebody's turn. -/
theorem exists_slotAuthor (listed : authorities ≠ []) (slot : UInt32) :
    ∃ author ∈ authorities, slotAuthor? authorities slot = some author := by
  have inside : slot.toNat % authorities.length < authorities.length :=
    Nat.mod_lt _ (List.length_pos_iff.mpr listed)
  exact ⟨authorities[slot.toNat % authorities.length], List.getElem_mem inside,
    List.getElem?_eq_getElem inside⟩

section

variable [DecidableEq α]

theorem filter_eq_true_iff {account : α} :
    filter authorities account slot = true ↔ slotAuthor? authorities slot = some account :=
  decide_eq_true_iff

theorem count_turns (fits : slot.toNat + authorities.length ≤ UInt32.size) (account : α) :
    (turns authorities slot authorities.length).count (some account) =
      authorities.count account := by
  have rotated := List.rotate_perm authorities (slot.toNat % authorities.length)
  calc (turns authorities slot authorities.length).count (some account)
      = ((authorities.rotate (slot.toNat % authorities.length)).map some).count (some account) := by
        rw [turns_eq_rotate fits]
    _ = (authorities.rotate (slot.toNat % authorities.length)).count account :=
        List.count_map_of_injective _ some (Option.some_injective α) account
    _ = authorities.count account := rotated.count_eq account

/-- In as many slots as there are authorities, none of which starts again at zero, the turns are the
list of authorities rotated to the first slot's, so each authority has as many as it is listed. At
every slot the account whose turn it is may author and no other one; so exactly one may if there are
authorities, and it is one of them, and nobody may if there are none. -/
theorem takes_fair_turns (authorities : List α) :
    (∀ slot : UInt32, slot.toNat + authorities.length ≤ UInt32.size →
      turns authorities slot authorities.length =
          (authorities.rotate (slot.toNat % authorities.length)).map some ∧
        ∀ account, (turns authorities slot authorities.length).count (some account) =
          authorities.count account) ∧
    (∀ slot account, filter authorities account slot = true ↔
      slotAuthor? authorities slot = some account) ∧
    (authorities ≠ [] → ∀ slot,
      (∃! account, filter authorities account slot = true) ∧
        ∀ account, filter authorities account slot = true → account ∈ authorities) ∧
    (authorities = [] → ∀ slot account, filter authorities account slot = false) := by
  refine ⟨?rotated, fun _ _ => filter_eq_true_iff, ?one, ?none⟩
  case rotated =>
    intro slot fits
    exact ⟨turns_eq_rotate fits, count_turns fits⟩
  case one =>
    intro listed slot
    obtain ⟨author, member, turn⟩ := exists_slotAuthor listed slot
    have only : ∀ account, filter authorities account slot = true → account = author := by
      intro account may
      exact Option.some.inj ((filter_eq_true_iff.mp may).symm.trans turn)
    refine ⟨⟨author, filter_eq_true_iff.mpr turn, only⟩, ?_⟩
    intro account may
    rw [only account may]
    exact member
  case none =>
    rintro rfl slot account
    rfl

/-- Five turns among five places of three accounts, up to the last slot of all. -/
theorem takes_fair_turns_lastSlots :
    let authorities : List Nat := [10, 20, 30, 20, 10]
    (4294967291 : UInt32).toNat + authorities.length ≤ UInt32.size ∧
      turns authorities 4294967291 authorities.length =
        [some 20, some 30, some 20, some 10, some 10] ∧
      (turns authorities 4294967291 authorities.length).count (some 20) = 2 ∧
      filter authorities 20 4294967291 = true ∧
      (∃! account, filter authorities account 4294967295 = true) ∧
      filter ([] : List Nat) 20 5 = false := by
  intro authorities
  have fits : (4294967291 : UInt32).toNat + authorities.length ≤ UInt32.size := by decide
  obtain ⟨rotated, counts⟩ := (takes_fair_turns authorities).1 4294967291 fits
  obtain ⟨_, turn, one, _⟩ := takes_fair_turns authorities
  obtain ⟨_, _, _, nobody⟩ := takes_fair_turns ([] : List Nat)
  exact ⟨fits, rotated.trans (by decide), counts 20, (turn _ _).mpr (by decide),
    (one (by decide) _).1, nobody rfl 5 20⟩

end

end Authorship.RoundRobin
