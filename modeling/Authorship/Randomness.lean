/-
Module: Authorship.Randomness
Purpose: Random values on the chain. A beacon gives a value for a subject and the block since which
  the value has been known.
Main exports: Beacon, Beacon.hashing, Beacon.fixed
-/
import Authorship.Hash

namespace Authorship

/-- The random value for a subject, and since which block it has been known. -/
abbrev Beacon := Bytes → Hash × UInt32

namespace Beacon

/-- Values made by hashing a seed together with the subject. -/
def hashing (seed : Hash) (knownSince : UInt32) : Beacon :=
  fun subject => (Hash.of (seed.toBytes ++ subject), knownSince)

/-- The same value for every subject. -/
def fixed (value : Hash) : Beacon :=
  fun _ => (value, 0)

end Beacon

end Authorship
