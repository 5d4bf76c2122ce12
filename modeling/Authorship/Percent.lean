/-
Module: Authorship.Percent
Purpose: Shares in hundredths, and the share of a number, rounded up.
Main exports: Percent, Percent.of, Percent.mulCeil
-/
import Authorship.Codec

namespace Authorship

/-- A share in hundredths. Shares made here are at most a hundred; one that is read back from bytes
is whatever the byte says. -/
structure Percent where
  hundredths : UInt8
deriving DecidableEq, Repr

namespace Percent

/-- A share of at most a hundred hundredths. -/
def of (hundredths : UInt8) : Percent :=
  if hundredths > 100 then ⟨100⟩ else ⟨hundredths⟩

instance : Encode Percent := ⟨fun percent => encode percent.hundredths⟩
instance : Decode Percent := ⟨Percent.mk <$> Decode.decoder⟩

/-- The share of a number, rounded up, in its 32 low bits. -/
def mulCeil (percent : Percent) (number : UInt32) : UInt32 :=
  UInt32.ofNat ((number.toNat * percent.hundredths.toNat + 99) / 100)

end Percent

end Authorship
