/-
Module: Authorship.Proofs.Json.Number
Purpose: Whole numbers that were written are read back. The digits of a number of 64 bits are read
  as this number, up to the first character that cannot go on with it.
Main exports: Json.EndsNumber, Json.moreDigits_append, Json.readNumber_toDigits
-/
import Authorship.Json.Number

namespace Authorship.Json

variable {rest : List Char}

/-! ## Digits -/

theorem digit?_of_isDigit {char : Char} (digit : char.isDigit = true) :
    digit? char = some (char.toNat - '0'.toNat) := by
  unfold Char.isDigit at digit
  simp only [Bool.and_eq_true, decide_eq_true_eq] at digit
  rw [digit?, if_pos ⟨digit.1, digit.2⟩]

theorem isDigit_of_isDigit {char : Char} (digit : char.isDigit = true) : isDigit char = true := by
  rw [isDigit, digit?_of_isDigit digit]
  rfl

/-- The text does not go on with a digit, a fraction or an exponent. -/
def EndsNumber (rest : List Char) : Prop :=
  ∀ first more, rest = first :: more →
    isDigit first = false ∧ first ≠ '.' ∧ first ≠ 'e' ∧ first ≠ 'E'

theorem EndsNumber.head?_any (ends : EndsNumber rest) : rest.head?.any isDigit = false := by
  cases rest with
  | nil => rfl
  | cons first more => exact (ends first more rfl).1

theorem EndsNumber.moreDigits (ends : EndsNumber rest) (step : Int) (significand : Nat)
    (exponent : Int) :
    Json.moreDigits step significand exponent rest = (significand, exponent, rest) := by
  cases rest with
  | nil => rfl
  | cons first more =>
      have noDigit := (ends first more rfl).1
      rw [isDigit, Option.isSome_eq_false_iff, Option.isNone_iff_eq_none] at noDigit
      rw [Json.moreDigits, noDigit]

/-- What was read before the digits is at most what is read with them. -/
theorem le_ofDigitChars (digits : List Char) (value : Nat) :
    value ≤ Nat.ofDigitChars 10 digits value := by
  rw [Nat.ofDigitChars_eq_ofDigitChars_zero]
  exact Nat.le_add_right_of_le (Nat.le_mul_of_pos_left _ (Nat.pow_pos (by decide)))

/-- Digits are taken off as long as the number of 64 bits goes on. -/
theorem moreDigits_append (ends : EndsNumber rest) (step : Int) {digits : List Char}
    (valid : ∀ char ∈ digits, char.isDigit = true) {significand : Nat} (exponent : Int)
    (small : Nat.ofDigitChars 10 digits significand < UInt64.size) :
    ∃ last, moreDigits step significand exponent (digits ++ rest) =
      (Nat.ofDigitChars 10 digits significand, last, rest) := by
  induction digits generalizing significand exponent with
  | nil => exact ⟨exponent, ends.moreDigits step significand exponent⟩
  | cons first digits inductionHypothesis =>
      obtain ⟨digit, valid⟩ := List.forall_mem_cons.mp valid
      rw [Nat.ofDigitChars_cons, Nat.mul_comm] at small ⊢
      have fits := Nat.lt_of_le_of_lt (le_ofDigitChars digits _) small
      obtain ⟨last, read⟩ := inductionHypothesis valid (exponent + step) small
      refine ⟨last, ?_⟩
      rw [List.cons_append, moreDigits, digit?_of_isDigit digit]
      dsimp only
      rw [if_pos fits, read]

/-! ## Whole numbers -/

theorem isDigit_of_mem_toDigits {value : Nat} {char : Char}
    (member : char ∈ Nat.toDigits 10 value) : char.isDigit = true :=
  Nat.isDigit_of_mem_toDigits (by decide) (by decide) member

/-- A written number starts with a digit. -/
theorem exists_toDigits_eq_cons (value : Nat) :
    ∃ first more, Nat.toDigits 10 value = first :: more ∧ first.isDigit = true := by
  obtain ⟨first, more, form⟩ := List.exists_cons_of_ne_nil (@Nat.toDigits_ne_nil value 10)
  exact ⟨first, more, form, isDigit_of_mem_toDigits (form ▸ List.mem_cons_self)⟩

theorem head_toDigits_ne_zero {value : Nat} (positive : 0 < value) :
    ∃ first more, Nat.toDigits 10 value = first :: more ∧ first ≠ '0' := by
  induction value using Nat.strongRecOn with
  | ind value inductionHypothesis =>
      by_cases small : value < 10
      · refine ⟨value.digitChar, [], Nat.toDigits_of_lt_base small, ?_⟩
        rw [Ne, Nat.digitChar_eq_zero]
        omega
      · obtain ⟨first, more, form, notZero⟩ :=
          inductionHypothesis (value / 10) (by omega) (by omega)
        refine ⟨first, more ++ [(value % 10).digitChar], ?_, notZero⟩
        rw [Nat.toDigits_of_base_le (by decide) (Nat.le_of_not_lt small), form, List.cons_append]

theorem afterWhole_of_endsNumber (ends : EndsNumber rest) (ranged : Bool) (value : Nat) :
    afterWhole ranged true value rest = .ok (.natural value, rest) := by
  unfold afterWhole
  split
  · exact absurd rfl (ends _ _ rfl).2.1
  · exact absurd rfl (ends _ _ rfl).2.2.1
  · exact absurd rfl (ends _ _ rfl).2.2.2
  · rfl

/-- A written number of 64 bits is read back, if what follows ends it. -/
theorem readNumber_toDigits (ends : EndsNumber rest) (ranged : Bool) {value : Nat}
    (small : value < UInt64.size) :
    readNumber ranged true (Nat.toDigits 10 value ++ rest) = .ok (.natural value, rest) := by
  rcases Nat.eq_zero_or_pos value with rfl | positive
  · rw [Nat.toDigits_zero, List.singleton_append, readNumber, if_neg (by simp [ends.head?_any])]
    exact afterWhole_of_endsNumber ends ranged 0
  · have sum : Nat.ofDigitChars 10 (Nat.toDigits 10 value) 0 = value :=
      Nat.ofDigitChars_ten_toDigits
    obtain ⟨last, read⟩ :=
      moreDigits_append ends 1 (fun _ => isDigit_of_mem_toDigits) 0 (sum ▸ small)
    obtain ⟨first, more, form, notZero⟩ := head_toDigits_ne_zero positive
    have digit : isDigit first = true :=
      isDigit_of_isDigit (isDigit_of_mem_toDigits (form ▸ List.mem_cons_self))
    rw [sum] at read
    rw [form, List.cons_append] at read ⊢
    unfold readNumber
    split
    · next other => cases other
    · next other =>
      cases other
      exact absurd rfl notZero
    · rw [List.head?_cons, Option.any_some, if_pos digit, read]
      dsimp only
      rw [ends.head?_any]
      exact afterWhole_of_endsNumber ends ranged value

end Authorship.Json
