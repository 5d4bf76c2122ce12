/-
Module: Authorship.Filter
Purpose: Who may author at a slot. A filter answers for an account and a slot; filters can be asked
  together; and authors can take turns.
Main exports: AuthorFilter, AuthorFilter.all, RoundRobin.slotAuthor?, RoundRobin.filter
-/

namespace Authorship

/-- Whether an account may author at a slot. -/
abbrev AuthorFilter (α : Type) := α → UInt32 → Bool

namespace AuthorFilter

variable {α : Type}

/-- Anyone may author. -/
def anyone : AuthorFilter α := fun _ _ => true

/-- The listed accounts may author. -/
def among [DecidableEq α] (accounts : List α) : AuthorFilter α :=
  fun account _ => decide (account ∈ accounts)

/-- All filters must agree. -/
def all (filters : List (AuthorFilter α)) : AuthorFilter α :=
  fun account slot => filters.all fun filter => filter account slot

end AuthorFilter

/-! ## Taking turns -/

namespace RoundRobin

variable {α : Type}

/-- The account whose turn it is: authorities take one slot each, in the order in which they are
listed. -/
def slotAuthor? (authorities : List α) (slot : UInt32) : Option α :=
  authorities[slot.toNat % authorities.length]?

/-- The account whose turn it is may author. -/
def filter [DecidableEq α] (authorities : List α) : AuthorFilter α :=
  fun account slot => slotAuthor? authorities slot = some account

end RoundRobin

end Authorship
