/-
Module: Authorship.Text.Blank
Purpose: White space around a text: the characters with the property White_Space.
Main exports: Text.isBlank, Text.trim
-/

namespace Authorship.Text

/-- Whether a character has the property White_Space. -/
def isBlank (char : Char) : Bool :=
  let number := char.toNat
  (0x09 ≤ number && number ≤ 0x0D) || number == 0x20 || number == 0x85 || number == 0xA0
    || number == 0x1680 || (0x2000 ≤ number && number ≤ 0x200A) || number == 0x2028
    || number == 0x2029 || number == 0x202F || number == 0x205F || number == 0x3000

/-- The text without white space at its head. -/
def trimHead (text : List Char) : List Char :=
  text.dropWhile isBlank

/-- The text without white space at either end. -/
def trim (text : List Char) : List Char :=
  (trimHead (trimHead text).reverse).reverse

theorem trimHead_append {before text : List Char} (blank : ∀ char ∈ before, isBlank char)
    {first : Char} (starts : text.head? = some first) (printed : isBlank first = false) :
    trimHead (before ++ text) = text := by
  obtain ⟨rest, rfl⟩ := List.head?_eq_some_iff.mp starts
  rw [trimHead, List.dropWhile_append_of_pos blank, List.dropWhile_cons_of_neg (by simp [printed])]

/-- White space around a text that has none at its own ends is all that is trimmed. -/
theorem trim_append_append {before text after : List Char}
    (blankBefore : ∀ char ∈ before, isBlank char) (blankAfter : ∀ char ∈ after, isBlank char)
    {first last : Char} (starts : text.head? = some first) (ends : text.getLast? = some last)
    (printedFirst : isBlank first = false) (printedLast : isBlank last = false) :
    trim (before ++ text ++ after) = text := by
  have startsBefore : (text ++ after).head? = some first := by
    rw [List.head?_append, starts, Option.some_or]
  have blankReversed : ∀ char ∈ after.reverse, isBlank char := fun char member =>
    blankAfter char (List.mem_reverse.mp member)
  have endsReversed : text.reverse.head? = some last := by
    rw [List.head?_reverse, ends]
  rw [trim, List.append_assoc, trimHead_append blankBefore startsBefore printedFirst,
    List.reverse_append, trimHead_append blankReversed endsReversed printedLast,
    List.reverse_reverse]

end Authorship.Text
