/-
Module: Authorship.Block.Header
Purpose: Headers and blocks. A header is identified by the hash of its binary form, which covers its
  logs, so sealing a header changes its hash.
Main exports: Header, Header.hash, Header.parent?, Header.author?, Extrinsic, Block, extrinsicsRoot
-/
import Authorship.Block.Digest

namespace Authorship

/-- An opaque transaction. -/
abbrev Extrinsic := Bytes

structure Header where
  parentHash : Hash := Hash.zero
  number : UInt32 := 0
  stateRoot : Hash := Hash.zero
  extrinsicsRoot : Hash := Hash.zero
  digest : Digest := []
deriving DecidableEq

namespace Header

instance : Encode Header where
  encode header :=
    encode header.parentHash ++ encode header.number ++ encode header.stateRoot
      ++ encode header.extrinsicsRoot ++ encode header.digest

instance : Decode Header where
  decoder := do
    let parentHash ← Decode.decoder
    let number ← Decode.decoder
    let stateRoot ← Decode.decoder
    let extrinsicsRoot ← Decode.decoder
    let digest ← Decode.decoder
    return { parentHash, number, stateRoot, extrinsicsRoot, digest }

/-- The hash of the binary form. -/
def hash (header : Header) : Hash :=
  Hash.of (encode header)

/-- The parent that a header points to; a header of number zero has none. -/
def parent? (header : Header) : Option Hash :=
  if header.number = 0 then none else some header.parentHash

def author? (header : Header) : Option AuthorId :=
  header.digest.author?

def push (header : Header) (item : DigestItem) : Header :=
  { header with digest := header.digest ++ [item] }

/-- Drop the last log, if there is one. -/
def pop (header : Header) : Header :=
  { header with digest := header.digest.dropLast }

end Header

/-- A header together with its extrinsics. -/
structure Block where
  header : Header := {}
  extrinsics : List Extrinsic := []
deriving DecidableEq

namespace Block

instance : Encode Block where
  encode block := encode block.header ++ encode block.extrinsics

instance : Decode Block where
  decoder := do
    let header ← Decode.decoder
    let extrinsics ← Decode.decoder
    return { header, extrinsics }

/-- The hash of the header. -/
def hash (block : Block) : Hash :=
  block.header.hash

end Block

/-- The hash that commits to a list of extrinsics. -/
def extrinsicsRoot (extrinsics : List Extrinsic) : Hash :=
  Hash.of (encode extrinsics)

end Authorship
