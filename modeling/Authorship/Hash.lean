/-
Module: Authorship.Hash
Purpose: The 256-bit hash that names blocks and commits to their contents.
Main exports: Hash, Hash.zero, Hash.of, Hash.short
-/
import Authorship.Codec
import Authorship.Sha2

namespace Authorship

structure Hash where
  bytes : FixedBytes 32
deriving DecidableEq

namespace Hash

/-- The hash of nothing in particular: all bits clear. -/
def zero : Hash := ⟨FixedBytes.replicate 32 0⟩

instance : Inhabited Hash := ⟨zero⟩

/-- The SHA-256 digest of `data`. -/
def of (data : Bytes) : Hash := ⟨sha256 data⟩

def toBytes (hash : Hash) : Bytes := hash.bytes.toList

def digits (hash : Hash) : String := Bytes.toHex hash.toBytes

instance : ToString Hash := ⟨fun hash => "0x" ++ hash.digits⟩
instance : Encode Hash := ⟨fun hash => encode hash.bytes⟩
instance : Decode Hash := ⟨Hash.mk <$> Decode.decoder⟩

/-- The form that logs show: the first and the last four digits. -/
def short (hash : Hash) : String :=
  "0x" ++ Bytes.toHex (hash.toBytes.take 2) ++ "…" ++ Bytes.toHex (hash.toBytes.drop 30)

end Hash

end Authorship
