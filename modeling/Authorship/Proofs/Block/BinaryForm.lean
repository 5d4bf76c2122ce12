/-
Module: Authorship.Proofs.Block.BinaryForm
Purpose: Hashes, identities, signatures, logs, headers and blocks are read back from their binary
  form, and from nothing else. The number of a variant and the lengths of lists and payloads say
  where each part ends, so bytes cannot move from one part to another.
Main exports: the instances of LawfulCodec for these types
-/
import Authorship.Block.Header
import Authorship.Proofs.Codec

namespace Authorship

/-- A type whose values are nothing but bytes of a fixed width. -/
@[reducible] def LawfulCodec.ofWraps {α : Type} [Encode α] [Decode α] {width : Nat}
    (wrap : FixedBytes width → α) (onto : ∀ value, ∃ fixed, wrap fixed = value)
    (decodes : (Decode.decoder : Decoder α) = wrap <$> Decode.decoder)
    (encodes : ∀ fixed, encode (wrap fixed) = fixed.toList)
    (injective : ∀ one two, wrap one = wrap two → one = two) : LawfulCodec α where
  Fits _ := True
  run_eq_ok_iff := by
    intro bytes rest value
    obtain ⟨fixed, rfl⟩ := onto value
    rw [decodes, Decoder.run_map_eq_ok_iff, encodes, true_and]
    constructor
    · rintro ⟨found, ran, same⟩
      obtain rfl := injective found fixed same
      exact Decoder.run_fixedBytes_eq_ok_iff.mp ran
    · intro begins
      exact ⟨fixed, Decoder.run_fixedBytes_eq_ok_iff.mpr begins, rfl⟩

instance : LawfulCodec Hash :=
  .ofWraps Hash.mk (fun hash => ⟨hash.bytes, rfl⟩) rfl (fun _ => rfl) fun _ _ => Hash.mk.inj

instance : LawfulCodec AuthorId :=
  .ofWraps AuthorId.mk (fun author => ⟨author.bytes, rfl⟩) rfl (fun _ => rfl)
    fun _ _ => AuthorId.mk.inj

instance : LawfulCodec Signature :=
  .ofWraps Signature.mk (fun signature => ⟨signature.bytes, rfl⟩) rfl (fun _ => rfl)
    fun _ _ => Signature.mk.inj

/-! ## Logs -/

def DigestItem.payload : DigestItem → Bytes
  | .preRuntime _ payload | .consensus _ payload | .seal _ payload | .other payload => payload

section Tagged

variable {bytes rest : Bytes} {item : DigestItem}

/-- The part of a log that follows its number, for a log of an engine. -/
theorem DigestItem.run_ofEngine_eq_ok_iff (form : EngineId → Bytes → DigestItem) :
    (do return form (← Decode.decoder) (← Decode.decoder) : Decoder DigestItem).run bytes =
        .ok (item, rest) ↔
      ∃ engine payload, item = form engine payload ∧ Fits payload ∧
        bytes = encode engine ++ encode payload ++ rest := by
  simp only [Decoder.run_bind_eq_ok_iff, Decoder.run_pure_eq_ok_iff, LawfulCodec.run_eq_ok_iff]
  constructor
  · rintro ⟨engine, _, ⟨_, rfl⟩, payload, _, ⟨fits, rfl⟩, rfl, rfl⟩
    exact ⟨engine, payload, rfl, fits, (List.append_assoc ..).symm⟩
  · rintro ⟨engine, payload, rfl, fits, rfl⟩
    exact ⟨engine, _, ⟨trivial, List.append_assoc ..⟩, payload, rest, ⟨fits, rfl⟩, rfl, rfl⟩

end Tagged

instance : LawfulCodec DigestItem where
  Fits item := Fits item.payload
  run_eq_ok_iff := by
    intro bytes rest item
    change (do
      match ← (Decode.decoder : Decoder UInt32) with
      | 0 => return .preRuntime (← Decode.decoder) (← Decode.decoder)
      | 1 => return .consensus (← Decode.decoder) (← Decode.decoder)
      | 2 => return .seal (← Decode.decoder) (← Decode.decoder)
      | 3 => return .other (← Decode.decoder)
      | found => throw (.invalidVariant found 4) : Decoder DigestItem).run bytes = _ ↔ _
    rw [Decoder.run_bind_eq_ok_iff]
    constructor
    · rintro ⟨number, _, read, ran⟩
      obtain ⟨_, rfl⟩ := LawfulCodec.run_eq_ok_iff.mp read
      split at ran
      · obtain ⟨engine, payload, rfl, fits, rfl⟩ :=
          (DigestItem.run_ofEngine_eq_ok_iff .preRuntime).mp ran
        exact ⟨fits, by simp [encode]⟩
      · obtain ⟨engine, payload, rfl, fits, rfl⟩ :=
          (DigestItem.run_ofEngine_eq_ok_iff .consensus).mp ran
        exact ⟨fits, by simp [encode]⟩
      · obtain ⟨engine, payload, rfl, fits, rfl⟩ :=
          (DigestItem.run_ofEngine_eq_ok_iff .seal).mp ran
        exact ⟨fits, by simp [encode]⟩
      · simp only [Decoder.run_bind_eq_ok_iff, Decoder.run_pure_eq_ok_iff,
          LawfulCodec.run_eq_ok_iff] at ran
        obtain ⟨payload, _, ⟨fits, rfl⟩, rfl, rfl⟩ := ran
        exact ⟨fits, by simp [encode]⟩
      · cases ran
    · rintro ⟨fits, rfl⟩
      cases item with
      | preRuntime engine payload =>
          exact ⟨0, _, LawfulCodec.run_eq_ok_iff.mpr ⟨trivial, by simp [encode]⟩,
            (DigestItem.run_ofEngine_eq_ok_iff .preRuntime).mpr ⟨engine, payload, rfl, fits, rfl⟩⟩
      | consensus engine payload =>
          exact ⟨1, _, LawfulCodec.run_eq_ok_iff.mpr ⟨trivial, by simp [encode]⟩,
            (DigestItem.run_ofEngine_eq_ok_iff .consensus).mpr ⟨engine, payload, rfl, fits, rfl⟩⟩
      | «seal» engine payload =>
          exact ⟨2, _, LawfulCodec.run_eq_ok_iff.mpr ⟨trivial, by simp [encode]⟩,
            (DigestItem.run_ofEngine_eq_ok_iff .seal).mpr ⟨engine, payload, rfl, fits, rfl⟩⟩
      | other payload =>
          refine ⟨3, encode payload ++ rest,
            LawfulCodec.run_eq_ok_iff.mpr ⟨trivial, by simp [encode]⟩, ?_⟩
          simp only [Decoder.run_bind_eq_ok_iff, Decoder.run_pure_eq_ok_iff,
            LawfulCodec.run_eq_ok_iff]
          exact ⟨payload, rest, ⟨fits, rfl⟩, rfl, rfl⟩

/-! ## Headers and blocks -/

instance : LawfulCodec Header where
  Fits header := Fits header.digest
  run_eq_ok_iff := by
    intro bytes rest header
    change (do
      let parentHash ← Decode.decoder
      let number ← Decode.decoder
      let stateRoot ← Decode.decoder
      let extrinsicsRoot ← Decode.decoder
      let digest ← Decode.decoder
      return { parentHash, number, stateRoot, extrinsicsRoot, digest } : Decoder Header).run bytes =
        _ ↔ _
    simp only [Decoder.run_bind_eq_ok_iff, Decoder.run_pure_eq_ok_iff, LawfulCodec.run_eq_ok_iff]
    constructor
    · rintro ⟨parentHash, _, ⟨_, rfl⟩, number, _, ⟨_, rfl⟩, stateRoot, _, ⟨_, rfl⟩,
        extrinsicsRoot, _, ⟨_, rfl⟩, digest, _, ⟨fits, rfl⟩, rfl, rfl⟩
      exact ⟨fits, by simp [encode]⟩
    · rintro ⟨fits, rfl⟩
      refine ⟨header.parentHash, _, ⟨trivial, ?_⟩, header.number, _, ⟨trivial, rfl⟩,
        header.stateRoot, _, ⟨trivial, rfl⟩, header.extrinsicsRoot, _, ⟨trivial, rfl⟩,
        header.digest, rest, ⟨fits, rfl⟩, rfl, rfl⟩
      simp [encode]

instance : LawfulCodec Block where
  Fits block := Fits block.header ∧ Fits block.extrinsics
  run_eq_ok_iff := by
    intro bytes rest block
    change (do
      let header ← Decode.decoder
      let extrinsics ← Decode.decoder
      return { header, extrinsics } : Decoder Block).run bytes = _ ↔ _
    simp only [Decoder.run_bind_eq_ok_iff, Decoder.run_pure_eq_ok_iff, LawfulCodec.run_eq_ok_iff]
    constructor
    · rintro ⟨header, _, ⟨headerFits, rfl⟩, extrinsics, _, ⟨fits, rfl⟩, rfl, rfl⟩
      exact ⟨⟨headerFits, fits⟩, (List.append_assoc ..).symm⟩
    · rintro ⟨⟨headerFits, fits⟩, rfl⟩
      exact ⟨block.header, _, ⟨headerFits, List.append_assoc ..⟩, block.extrinsics, rest,
        ⟨fits, rfl⟩, rfl, rfl⟩

end Authorship
