/-
Module: Authorship.Proofs.CanonicalForm
Purpose: The binary forms of everything that is kept or hashed: words, byte strings, hashes,
  identities, signatures, shares, counts, logs, headers and blocks. How each form is laid out, byte
  by byte; and that a value is read from a byte string just when this begins with the value's form,
  so no malformed or truncated input is read as anything, and no value has two forms.
Main exports: ReadsExactly, BinaryLayout, binaryLayout, binaryForms_canonical
-/
import Mathlib.Algebra.Group.Nat.Defs
import Authorship.Lottery.Count
import Authorship.Percent
import Authorship.Proofs.Block.BinaryForm

namespace Authorship

/-! ## Shares and counts -/

instance : LawfulCodec Percent where
  Fits _ := True
  run_eq_ok_iff := by
    intro bytes rest percent
    change (Percent.mk <$> (Decode.decoder : Decoder UInt8)).run bytes = _ ↔ _
    simp only [Decoder.run_map_eq_ok_iff, LawfulCodec.run_eq_ok_iff]
    constructor
    · rintro ⟨hundredths, begins, rfl⟩
      exact begins
    · intro begins
      exact ⟨percent.hundredths, begins, rfl⟩

theorem EligibleCount.of?_eq_some_iff {value : UInt32} {count : EligibleCount} :
    of? value = some count ↔ value = count.value ∧ count.value ≠ 0 := by
  unfold of?
  constructor
  · intro found
    split at found
    · cases found
    · next notZero =>
        cases found
        exact ⟨rfl, notZero⟩
  · rintro ⟨rfl, notZero⟩
    exact if_neg notZero

/-- Zero has the form of a count, but is not read. -/
instance : LawfulCodec EligibleCount where
  Fits count := count.value ≠ 0
  run_eq_ok_iff := by
    intro bytes rest count
    change (do
      match EligibleCount.of? (← (Decode.decoder : Decoder UInt32)) with
      | some count => return count
      | none => throw (.refused EligibleCount.zeroRefused) : Decoder EligibleCount).run bytes =
        _ ↔ _
    rw [Decoder.run_bind_eq_ok_iff]
    constructor
    · rintro ⟨number, middle, read, ran⟩
      obtain ⟨_, rfl⟩ := LawfulCodec.run_eq_ok_iff.mp read
      split at ran
      · next found =>
          obtain ⟨rfl, rfl⟩ := Decoder.run_pure_eq_ok_iff.mp ran
          obtain ⟨rfl, notZero⟩ := EligibleCount.of?_eq_some_iff.mp found
          exact ⟨notZero, rfl⟩
      · cases ran
    · rintro ⟨notZero, rfl⟩
      refine ⟨count.value, rest, LawfulCodec.run_eq_ok_iff.mpr ⟨trivial, rfl⟩, ?_⟩
      rw [EligibleCount.of?_eq_some_iff.mpr ⟨rfl, notZero⟩]
      exact Decoder.run_pure_eq_ok_iff.mpr ⟨rfl, rfl⟩

/-! ## How the forms are laid out -/

/-- The number that stands before a log of its kind. -/
def DigestItem.variant : DigestItem → Nat
  | .preRuntime .. => 0
  | .consensus .. => 1
  | .seal .. => 2
  | .other _ => 3

/-- The tag of a log's engine, if it has one. -/
def DigestItem.tagBytes : DigestItem → Bytes
  | .preRuntime engine _ | .consensus engine _ | .seal engine _ => engine.toList
  | .other _ => []

/-- Numbers have a fixed width and go lowest byte first. A list or a byte string follows the 64-bit
number of its items, and a log the 32-bit number of its kind. Nothing stands between the parts. -/
structure BinaryLayout : Prop where
  word : ∀ number : UInt32, encode number = littleEndian 4 number.toNat
  bytes : ∀ payload : Bytes, encode payload = littleEndian 8 payload.length ++ payload
  hash : ∀ hash : Hash, encode hash = hash.toBytes
  author : ∀ author : AuthorId, encode author = author.bytes.toList
  signature : ∀ signature : Signature, encode signature = signature.bytes.toList
  percent : ∀ percent : Percent, encode percent = [percent.hundredths]
  count : ∀ count : EligibleCount, encode count = littleEndian 4 count.value.toNat
  item : ∀ item : DigestItem, encode item =
    littleEndian 4 item.variant ++ item.tagBytes ++ littleEndian 8 item.payload.length ++
      item.payload
  digest : ∀ digest : Digest, encode digest =
    littleEndian 8 digest.length ++ digest.flatMap encode
  header : ∀ header : Header, encode header =
    header.parentHash.toBytes ++ littleEndian 4 header.number.toNat ++
      header.stateRoot.toBytes ++ header.extrinsicsRoot.toBytes ++ encode header.digest
  block : ∀ block : Block, encode block =
    encode block.header ++ littleEndian 8 block.extrinsics.length ++
      block.extrinsics.flatMap encode

/-- Only the low bytes of a number matter for its form. -/
theorem littleEndian_mod (width value : Nat) :
    littleEndian width (value % Nat.pow 256 width) = littleEndian width value := by
  have again := littleEndian_ofLittleEndian (littleEndian width value)
  rwa [ofLittleEndian_littleEndian, length_littleEndian] at again

theorem encodeLength_eq (length : Nat) : encodeLength length = littleEndian 8 length := by
  have wraps : (UInt64.ofNat length).toNat = length % Nat.pow 256 8 := UInt64.toNat_ofNat'
  change littleEndian 8 (UInt64.ofNat length).toNat = littleEndian 8 length
  rw [wraps, littleEndian_mod]

theorem encode_list_eq {α : Type} [Encode α] (values : List α) :
    encode values = littleEndian 8 values.length ++ values.flatMap encode := by
  change encodeLength values.length ++ values.flatMap encode = _
  rw [encodeLength_eq]

theorem encode_bytes_eq (bytes : Bytes) : encode bytes = littleEndian 8 bytes.length ++ bytes := by
  have bare : bytes.flatMap encode = bytes := List.flatMap_singleton' bytes
  rw [encode_list_eq, bare]

theorem encode_digestItem_eq (item : DigestItem) :
    encode item =
      littleEndian 4 item.variant ++ item.tagBytes ++ littleEndian 8 item.payload.length ++
        item.payload := by
  have tagged (number : UInt32) (engine : EngineId) (payload : Bytes) :
      encode number ++ encode engine ++ encode payload =
        littleEndian 4 number.toNat ++ engine.toList ++ littleEndian 8 payload.length ++
          payload := by
    rw [encode_bytes_eq, ← List.append_assoc]
    rfl
  cases item with
  | preRuntime engine payload => exact tagged 0 engine payload
  | consensus engine payload => exact tagged 1 engine payload
  | «seal» engine payload => exact tagged 2 engine payload
  | other payload =>
      change encode (3 : UInt32) ++ encode payload = _
      rw [encode_bytes_eq, ← List.append_assoc]
      rfl

theorem binaryLayout : BinaryLayout where
  word _ := rfl
  bytes := encode_bytes_eq
  hash _ := rfl
  author _ := rfl
  signature _ := rfl
  percent _ := rfl
  count _ := rfl
  item := encode_digestItem_eq
  digest := encode_list_eq
  header _ := rfl
  block block := by
    change encode block.header ++ encode block.extrinsics = _
    rw [encode_list_eq, List.append_assoc]

/-! ## What is read, and from what -/

/-- The admitted values are read from the byte strings that begin with their binary form, whatever
follows it, and nothing is read from any other byte string. -/
def ReadsExactly (α : Type) [Encode α] [Decode α] (Admitted : α → Prop) : Prop :=
  ∀ bytes value,
    decode α bytes = .ok value ↔ Admitted value ∧ ∃ rest, bytes = encode value ++ rest

theorem LawfulCodec.readsExactly {α : Type} [Encode α] [Decode α] [LawfulCodec α]
    {Admitted : α → Prop} (admitted_iff : ∀ value, Fits value ↔ Admitted value) :
    ReadsExactly α Admitted := by
  intro bytes value
  rw [← admitted_iff]
  exact decode_eq_ok_iff

theorem fits_bytes_iff {bytes : Bytes} : Fits bytes ↔ bytes.length < 2 ^ 64 :=
  and_iff_left fun _ _ => trivial

theorem fits_digest_iff {digest : Digest} :
    Fits digest ↔ digest.length < 2 ^ 64 ∧ ∀ item ∈ digest, item.payload.length < 2 ^ 64 :=
  and_congr_right fun _ => forall₂_congr fun _ _ => fits_bytes_iff

theorem fits_extrinsics_iff {extrinsics : List Extrinsic} :
    Fits extrinsics ↔
      extrinsics.length < 2 ^ 64 ∧ ∀ extrinsic ∈ extrinsics, extrinsic.length < 2 ^ 64 :=
  and_congr_right fun _ => forall₂_congr fun _ _ => fits_bytes_iff

/-- Whatever is kept in binary form is read back from it, and from nothing that does not begin with
it: every word, hash, identity, signature and share, every count but zero, and every byte string,
log, header and block whose lengths fit into 64 bits. -/
theorem binaryForms_canonical :
    BinaryLayout ∧
    ReadsExactly UInt32 (fun _ => True) ∧
    ReadsExactly Hash (fun _ => True) ∧
    ReadsExactly AuthorId (fun _ => True) ∧
    ReadsExactly Signature (fun _ => True) ∧
    ReadsExactly Percent (fun _ => True) ∧
    ReadsExactly EligibleCount (fun count => count.value ≠ 0) ∧
    ReadsExactly Bytes (fun bytes => bytes.length < 2 ^ 64) ∧
    ReadsExactly DigestItem (fun item => item.payload.length < 2 ^ 64) ∧
    ReadsExactly Digest (fun digest =>
      digest.length < 2 ^ 64 ∧ ∀ item ∈ digest, item.payload.length < 2 ^ 64) ∧
    ReadsExactly Header (fun header =>
      header.digest.length < 2 ^ 64 ∧ ∀ item ∈ header.digest, item.payload.length < 2 ^ 64) ∧
    ReadsExactly Block (fun block =>
      (block.header.digest.length < 2 ^ 64 ∧
        ∀ item ∈ block.header.digest, item.payload.length < 2 ^ 64) ∧
      block.extrinsics.length < 2 ^ 64 ∧
        ∀ extrinsic ∈ block.extrinsics, extrinsic.length < 2 ^ 64) := by
  refine ⟨binaryLayout, ?word, ?hash, ?author, ?signature, ?percent, ?count, ?bytes, ?item,
    ?digest, ?header, ?block⟩
  case word | hash | author | signature | percent =>
    exact LawfulCodec.readsExactly fun _ => Iff.rfl
  case count => exact LawfulCodec.readsExactly fun _ => Iff.rfl
  case bytes => exact LawfulCodec.readsExactly fun _ => fits_bytes_iff
  case item => exact LawfulCodec.readsExactly fun _ => fits_bytes_iff
  case digest => exact LawfulCodec.readsExactly fun _ => fits_digest_iff
  case header => exact LawfulCodec.readsExactly fun _ => fits_digest_iff
  case block =>
    exact LawfulCodec.readsExactly fun _ => and_congr fits_digest_iff fits_extrinsics_iff

end Authorship
