/-
Module: Authorship.Docs.Catalogue
Purpose: The runtime's types that describe themselves to the documentation site.
Main exports: Docs.runtimeTypes
-/
import Authorship.Docs.Implementation

namespace Authorship.Docs

def roundRobinCall : TypeDescription where
  path := "pallet_aura_style_filter::pallet"
  name := "Call"
  shape := .enumeration []

def validationError : TypeDescription where
  path := "pallet_author_inherent::pallet"
  name := "Error"
  shape :=
    .enumeration ["AuthorAlreadySet", "NoAccountId", "CannotBeAuthor", "MissingAuthorDigest"]

def validationCall : TypeDescription where
  path := "pallet_author_inherent::pallet"
  name := "Call"
  shape := .enumeration ["kick_off_authorship_validation"]

def eligibleCount : TypeDescription where
  path := "pallet_author_slot_filter::num"
  name := "NonZeroU32"
  shape := .struct ["0"]

def lotteryEvent : TypeDescription where
  path := "pallet_author_slot_filter::pallet"
  name := "Event"
  shape := .enumeration ["EligibleUpdated"]

def lotteryCall : TypeDescription where
  path := "pallet_author_slot_filter::pallet"
  name := "Call"
  shape := .enumeration ["set_eligible"]

/-- All types of the runtime that describe themselves. -/
def runtimeTypes : List TypeDescription :=
  [roundRobinCall, validationError, validationCall, eligibleCount, lotteryEvent, lotteryCall]

end Authorship.Docs
