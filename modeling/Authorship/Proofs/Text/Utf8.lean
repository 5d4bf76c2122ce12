/-
Module: Authorship.Proofs.Text.Utf8
Purpose: Text is read back from its UTF-8 form, and from nothing else. A scalar is spelled with one
  to four bytes; the strict reader takes off the head just what is spelled there, and that is what
  is written.
Main exports: Utf8.Spelling, Utf8.spelling_iff, Utf8.head_eq_scalar_iff,
  Utf8.decodeFrom_eq_ok_iff, Utf8.decode_eq_ok_iff
-/
import Mathlib.Tactic.SplitIfs
import Authorship.Text.Utf8

namespace Authorship.Utf8

variable {bytes tail rest : Bytes} {byte : UInt8} {char : Char} {value : Nat}

/-! ## How scalars are spelled -/

/-- A byte that is not the first one of a scalar. -/
def Follows (byte : UInt8) : Prop := 0x80 ≤ byte.toNat ∧ byte.toNat ≤ 0xBF

/-- The bytes that a scalar with the given number is spelled with. What could be spelled shorter,
surrogates and what lies above the last scalar are left out by the bounds of the second byte. -/
inductive Spelling (value : Nat) : Bytes → Prop where
  | one {first : UInt8} (lead : first.toNat < 0x80) (sum : value = first.toNat) :
      Spelling value [first]
  | two {first second : UInt8} (lead : 0xC2 ≤ first.toNat ∧ first.toNat < 0xE0)
      (next : Follows second) (sum : value = first.toNat % 32 * 64 + second.toNat % 64) :
      Spelling value [first, second]
  | three {first second third : UInt8} (lead : 0xE0 ≤ first.toNat ∧ first.toNat < 0xF0)
      (next : Follows second) (long : first.toNat = 0xE0 → 0xA0 ≤ second.toNat)
      (noSurrogate : first.toNat = 0xED → second.toNat ≤ 0x9F) (last : Follows third)
      (sum : value = (first.toNat % 16 * 64 + second.toNat % 64) * 64 + third.toNat % 64) :
      Spelling value [first, second, third]
  | four {first second third fourth : UInt8} (lead : 0xF0 ≤ first.toNat ∧ first.toNat ≤ 0xF4)
      (next : Follows second) (long : first.toNat = 0xF0 → 0x90 ≤ second.toNat)
      (bounded : first.toNat = 0xF4 → second.toNat ≤ 0x8F) (between : Follows third)
      (last : Follows fourth)
      (sum : value = ((first.toNat % 8 * 64 + second.toNat % 64) * 64 + third.toNat % 64) * 64 +
        fourth.toNat % 64) :
      Spelling value [first, second, third, fourth]

theorem Spelling.isValidChar (spelling : Spelling value bytes) : value.isValidChar := by
  unfold Nat.isValidChar
  cases spelling with
  | one lead sum => omega
  | two lead next sum => omega
  | three lead next long noSurrogate last sum =>
      unfold Follows at next last
      omega
  | four lead next long bounded between last sum =>
      unfold Follows at next between last
      omega

theorem toNat_ofNat_of_isValidChar (valid : value.isValidChar) :
    (Char.ofNat value).val.toNat = value := by
  rw [Char.ofNat, dif_pos valid]
  rfl

theorem ofNat_eq (byte : UInt8) {number : Nat} (same : byte.toNat = number) :
    UInt8.ofNat number = byte := by
  rw [← same, UInt8.ofNat_toNat]

/-- A scalar is written as it is spelled. -/
theorem Spelling.utf8EncodeChar (spelling : Spelling value bytes) :
    String.utf8EncodeChar (Char.ofNat value) = bytes := by
  unfold String.utf8EncodeChar
  rw [toNat_ofNat_of_isValidChar spelling.isValidChar]
  cases spelling with
  | @one first lead sum => rw [if_pos (by omega), ofNat_eq first sum.symm]
  | @two first second lead next sum =>
      unfold Follows at next
      rw [if_neg (by omega), if_pos (by omega), ofNat_eq first (by omega),
        ofNat_eq second (by omega)]
  | @three first second third lead next long _ last sum =>
      unfold Follows at next last
      rw [if_neg (by omega), if_neg (by omega), if_pos (by omega), ofNat_eq first (by omega),
        ofNat_eq second (by omega), ofNat_eq third (by omega)]
  | @four first second third fourth lead next long _ between last sum =>
      unfold Follows at next between last
      rw [if_neg (by omega), if_neg (by omega), if_neg (by omega), ofNat_eq first (by omega),
        ofNat_eq second (by omega), ofNat_eq third (by omega), ofNat_eq fourth (by omega)]

/-- The bytes that a scalar is written with spell it. -/
theorem spelling_utf8EncodeChar (char : Char) :
    Spelling char.val.toNat (String.utf8EncodeChar char) := by
  have valid : char.val.toNat.isValidChar := char.valid
  unfold Nat.isValidChar at valid
  unfold String.utf8EncodeChar
  generalize char.val.toNat = value at valid
  dsimp only
  split_ifs with one two three
  · have first := UInt8.toNat_ofNat_of_lt' (show value < 256 by omega)
    exact .one (by omega) first.symm
  · have first := UInt8.toNat_ofNat_of_lt' (show value / 64 % 32 + 192 < 256 by omega)
    have second := UInt8.toNat_ofNat_of_lt' (show value % 64 + 128 < 256 by omega)
    refine .two ?_ ⟨?_, ?_⟩ ?_
    all_goals omega
  · have first := UInt8.toNat_ofNat_of_lt' (show value / 4096 % 16 + 224 < 256 by omega)
    have second := UInt8.toNat_ofNat_of_lt' (show value / 64 % 64 + 128 < 256 by omega)
    have third := UInt8.toNat_ofNat_of_lt' (show value % 64 + 128 < 256 by omega)
    refine .three ?_ ⟨?_, ?_⟩ ?_ ?_ ⟨?_, ?_⟩ ?_
    all_goals omega
  · have first := UInt8.toNat_ofNat_of_lt' (show value / 262144 % 8 + 240 < 256 by omega)
    have second := UInt8.toNat_ofNat_of_lt' (show value / 4096 % 64 + 128 < 256 by omega)
    have third := UInt8.toNat_ofNat_of_lt' (show value / 64 % 64 + 128 < 256 by omega)
    have fourth := UInt8.toNat_ofNat_of_lt' (show value % 64 + 128 < 256 by omega)
    refine .four ?_ ⟨?_, ?_⟩ ?_ ?_ ⟨?_, ?_⟩ ⟨?_, ?_⟩ ?_
    all_goals omega

/-- A scalar is written with just the bytes that spell it. -/
theorem spelling_iff : Spelling char.val.toNat bytes ↔ String.utf8EncodeChar char = bytes := by
  constructor
  · intro spelling
    rw [← spelling.utf8EncodeChar]
    exact congrArg _ (Char.ofNat_toNat char).symm
  · rintro rfl
    exact spelling_utf8EncodeChar char

/-! ## What stands at the head -/

/-- How many bytes follow a first byte, and between which bounds the next one is. -/
theorem followers?_eq_some_iff {first count low high : Nat} :
    followers? first = some (count, low, high) ↔
      (count = 1 ∧ (0xC2 ≤ first ∧ first < 0xE0) ∧ low = 0x80 ∧ high = 0xBF) ∨
      (count = 2 ∧ (0xE0 ≤ first ∧ first < 0xF0) ∧ (first = 0xE0 → low = 0xA0) ∧
        (first ≠ 0xE0 → low = 0x80) ∧ (first = 0xED → high = 0x9F) ∧
        (first ≠ 0xED → high = 0xBF)) ∨
      (count = 3 ∧ (0xF0 ≤ first ∧ first ≤ 0xF4) ∧ (first = 0xF0 → low = 0x90) ∧
        (first ≠ 0xF0 → low = 0x80) ∧ (first = 0xF4 → high = 0x8F) ∧
        (first ≠ 0xF4 → high = 0xBF)) := by
  unfold followers?
  split_ifs
  all_goals simp
  all_goals omega

theorem follow_succ_eq_scalar_iff {remaining low high size : Nat} :
    follow (remaining + 1) low high size value bytes = .scalar char rest ↔
      ∃ next tail, bytes = next :: tail ∧ low ≤ next.toNat ∧ next.toNat ≤ high ∧
        follow remaining 0x80 0xBF (size + 1) (value * 64 + next.toNat % 64) tail =
          .scalar char rest := by
  cases bytes with
  | nil => simp [follow]
  | cons next tail =>
      rw [follow]
      constructor
      · intro found
        split at found
        · next between => exact ⟨next, tail, rfl, between.1, between.2, found⟩
        · cases found
      · rintro ⟨_, _, same, above, below, found⟩
        cases same
        rw [if_pos ⟨above, below⟩, found]

theorem follow_zero_eq_scalar_iff {low high size : Nat} :
    follow 0 low high size value bytes = .scalar char rest ↔
      Char.ofNat value = char ∧ bytes = rest := by
  rw [follow, Head.scalar.injEq]

theorem head_eq_scalar_iff_of_le (large : 0x80 ≤ byte.toNat) :
    head byte tail = .scalar char rest ↔ ∃ count low high,
      followers? byte.toNat = some (count, low, high) ∧
        follow count low high 1 (leadBits byte.toNat count) tail = .scalar char rest := by
  rw [head, if_neg (Nat.not_lt_of_le large)]
  constructor
  · intro found
    split at found
    · cases found
    · next shape => exact ⟨_, _, _, shape, found⟩
  · rintro ⟨count, low, high, shape, found⟩
    rw [shape]
    exact found

/-- What is taken off the head was spelled there. -/
theorem exists_spelling_of_head (found : head byte tail = .scalar char rest) :
    ∃ value spelled, Spelling value spelled ∧ Char.ofNat value = char ∧
      byte :: tail = spelled ++ rest := by
  by_cases ascii : byte.toNat < 0x80
  · rw [head, if_pos ascii] at found
    cases found
    exact ⟨_, _, .one ascii rfl, rfl, rfl⟩
  · obtain ⟨count, low, high, shape, follows⟩ :=
      (head_eq_scalar_iff_of_le (Nat.le_of_not_lt ascii)).mp found
    rw [followers?_eq_some_iff] at shape
    rcases shape with ⟨rfl, lead, bounds⟩ | ⟨rfl, lead, bounds⟩ | ⟨rfl, lead, bounds⟩
    all_goals simp only [follow_succ_eq_scalar_iff, follow_zero_eq_scalar_iff] at follows
    · obtain ⟨second, _, rfl, above, below, rfl, rfl⟩ := follows
      exact ⟨_, _, .two lead ⟨by omega, by omega⟩ rfl, rfl, rfl⟩
    · obtain ⟨second, _, rfl, above, below, third, _, rfl, last, lastBelow, rfl, rfl⟩ := follows
      exact ⟨_, _, .three lead ⟨by omega, by omega⟩ (by omega) (by omega) ⟨last, lastBelow⟩ rfl,
        rfl, rfl⟩
    · obtain ⟨second, _, rfl, above, below, third, _, rfl, between, betweenBelow, fourth, _, rfl,
        last, lastBelow, rfl, rfl⟩ := follows
      exact ⟨_, _, .four lead ⟨by omega, by omega⟩ (by omega) (by omega) ⟨between, betweenBelow⟩
        ⟨last, lastBelow⟩ rfl, rfl, rfl⟩

/-- What is spelled at the head is taken off. -/
theorem head_of_spelling {followers : Bytes} (spelling : Spelling value (byte :: followers))
    (rest : Bytes) : head byte (followers ++ rest) = .scalar (Char.ofNat value) rest := by
  cases spelling with
  | one lead sum =>
      subst sum
      rw [head, if_pos lead]
      rfl
  | two lead next sum =>
      refine (head_eq_scalar_iff_of_le (by omega)).mpr ⟨1, 0x80, 0xBF, ?_, ?_⟩
      · rw [followers?_eq_some_iff]
        omega
      · simp only [follow_succ_eq_scalar_iff, follow_zero_eq_scalar_iff]
        exact ⟨_, _, rfl, next.1, next.2, by rw [sum]; rfl, rfl⟩
  | three lead next long noSurrogate last sum =>
      refine (head_eq_scalar_iff_of_le (by omega)).mpr ⟨2,
        if byte.toNat = 0xE0 then 0xA0 else 0x80, if byte.toNat = 0xED then 0x9F else 0xBF, ?_, ?_⟩
      · rw [followers?_eq_some_iff]
        grind
      · simp only [follow_succ_eq_scalar_iff, follow_zero_eq_scalar_iff]
        unfold Follows at next
        refine ⟨_, _, rfl, by split <;> omega, by split <;> omega, _, _, rfl, last.1, last.2, ?_⟩
        exact ⟨by rw [sum]; rfl, rfl⟩
  | four lead next long bounded between last sum =>
      refine (head_eq_scalar_iff_of_le (by omega)).mpr ⟨3,
        if byte.toNat = 0xF0 then 0x90 else 0x80, if byte.toNat = 0xF4 then 0x8F else 0xBF, ?_, ?_⟩
      · rw [followers?_eq_some_iff]
        grind
      · simp only [follow_succ_eq_scalar_iff, follow_zero_eq_scalar_iff]
        unfold Follows at next
        refine ⟨_, _, rfl, by split <;> omega, by split <;> omega, _, _, rfl, between.1, between.2,
          _, _, rfl, last.1, last.2, ?_⟩
        exact ⟨by rw [sum]; rfl, rfl⟩

/-- A scalar is taken off just when the bytes begin with what it is written with. -/
theorem head_eq_scalar_iff :
    head byte tail = .scalar char rest ↔ byte :: tail = String.utf8EncodeChar char ++ rest := by
  constructor
  · intro found
    obtain ⟨value, spelled, spelling, rfl, begins⟩ := exists_spelling_of_head found
    rw [spelling.utf8EncodeChar, begins]
  · intro begins
    obtain ⟨first, followers, form⟩ :=
      List.exists_cons_of_ne_nil (@String.utf8EncodeChar_ne_nil char)
    rw [form, List.cons_append, List.cons.injEq] at begins
    obtain ⟨rfl, rfl⟩ := begins
    have read := head_of_spelling (spelling_iff.mpr form) rest
    exact read.trans (congrArg (Head.scalar · rest) (Char.ofNat_toNat char))

/-! ## Whole texts -/

theorem decodeFrom_cons_eq_ok_iff {index : Nat} {chars : List Char} :
    decodeFrom index (byte :: tail) = .ok chars ↔ ∃ char rest more,
      head byte tail = .scalar char rest ∧
        decodeFrom (index + (tail.length + 1 - rest.length)) rest = .ok more ∧
          chars = char :: more := by
  rw [decodeFrom]
  split
  · next char rest shape =>
    constructor
    · intro read
      cases later : decodeFrom (index + (tail.length + 1 - rest.length)) rest with
      | error fault =>
          rw [later] at read
          cases read
      | ok more =>
          rw [later] at read
          cases read
          exact ⟨char, rest, more, shape, later, rfl⟩
    · rintro ⟨_, _, more, other, later, rfl⟩
      cases shape.symm.trans other
      rw [later]
      rfl
  · next shape => simp [shape]
  · next shape => simp [shape]

/-- Scalars are read just from what they are written with. -/
theorem decodeFrom_eq_ok_iff {index : Nat} {chars : List Char} :
    decodeFrom index bytes = .ok chars ↔ bytes = chars.flatMap String.utf8EncodeChar := by
  induction chars generalizing index bytes with
  | nil =>
      cases bytes with
      | nil => simp [decodeFrom]
      | cons byte tail => simp [decodeFrom_cons_eq_ok_iff]
  | cons char chars inductionHypothesis =>
      rw [List.flatMap_cons]
      cases bytes with
      | nil =>
          have written := @String.utf8EncodeChar_ne_nil char
          simp [decodeFrom, written]
      | cons byte tail =>
          simp only [decodeFrom_cons_eq_ok_iff, head_eq_scalar_iff]
          constructor
          · rintro ⟨_, _, _, begins, later, same⟩
            cases same
            rw [begins, inductionHypothesis.mp later]
          · intro begins
            exact ⟨char, _, chars, begins, inductionHypothesis.mpr rfl, rfl⟩

/-- A text is read just from its own form. -/
theorem decode_eq_ok_iff {text : String} : decode bytes = .ok text ↔ bytes = encode text := by
  rw [encode, ← @decodeFrom_eq_ok_iff _ 0, decode]
  cases decodeFrom 0 bytes with
  | error fault =>
      constructor
      · intro impossible
        cases impossible
      · intro impossible
        cases impossible
  | ok chars =>
      change Except.ok (String.ofList chars) = .ok text ↔ _
      rw [Except.ok.injEq, Except.ok.injEq, ← String.ofList_inj, String.ofList_toList]

end Authorship.Utf8
