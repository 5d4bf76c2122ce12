/-
Module: Authorship.Proofs.Block.Seal
Purpose: Which headers carry a seal that checks. Such a header is another one with a seal on top,
  whose payload begins with a signature, by the author whom the logs below name first, of the hash
  of the header below. What follows the signature in the payload is covered by nothing.
Main exports: Header.Sealed, Header.stripSeal_eq_ok_iff, Header.stripSeal_push_ofSignature,
  Header.sealed_of_stripSeal, Header.seals_of_stripSeal
-/
import Authorship.Block.Seal
import Authorship.Ed25519
import Authorship.Proofs.Block.Payload

namespace Authorship

variable {scheme : SignatureScheme} {header stripped : Header} {author : AuthorId}
  {item : DigestItem} {signature : Signature}

namespace Header

/-- The header carries a seal that checks. -/
def Sealed (scheme : SignatureScheme) (header : Header) : Prop :=
  ∃ author item, (header.stripSeal scheme).1 = .ok (author, item)

/-! ## Appending a log and taking it off -/

@[simp] theorem pop_push (header : Header) (item : DigestItem) :
    (header.push item).pop = header := by
  simp [push, pop]

@[simp] theorem getLast?_digest_push (header : Header) (item : DigestItem) :
    (header.push item).digest.getLast? = some item := by
  simp [push]

theorem exists_push_of_getLast? (last : header.digest.getLast? = some item) :
    ∃ below : Header, header = below.push item := by
  obtain ⟨logs, split⟩ := List.getLast?_eq_some_iff.mp last
  exact ⟨{ header with digest := logs }, by simp only [push, ← split]⟩

/-! ## Seals that check -/

theorem stripSeal_push (scheme : SignatureScheme) (header : Header) (item : DigestItem) :
    (header.push item).stripSeal scheme = (checkSeal scheme header item, header) := by
  simp only [stripSeal, getLast?_digest_push, pop_push]

/-- The last log is off whatever comes of the check. -/
theorem stripSeal_snd (scheme : SignatureScheme) (header : Header) :
    (header.stripSeal scheme).2 = header.pop := by
  unfold stripSeal
  split
  · next bare =>
      have none : header.digest = [] := List.getLast?_eq_none_iff.mp bare
      rw [pop, none, List.dropLast_nil, ← none]
  · rfl

/-- The checks behind a seal: the last log holds a signature, the logs below name an author, and the
author made the signature of the hash of the header below. -/
theorem checkSeal_eq_ok_iff {found : DigestItem} :
    checkSeal scheme stripped item = .ok (author, found) ↔
      found = item ∧ stripped.author? = some author ∧
        ∃ signature, item.signature? = some signature ∧
          scheme.verify author stripped.hash.toBytes signature = true := by
  unfold checkSeal
  cases holds : item.signature? with
  | none => simp [throw, throwThe, MonadExceptOf.throw]
  | some signature =>
      cases names : stripped.author? with
      | none => simp [throw, throwThe, MonadExceptOf.throw]
      | some named =>
          by_cases verifies : scheme.verify named stripped.hash.toBytes signature = true
          · simp only [verifies, if_true, pure, Except.pure]
            constructor
            · intro checked
              cases checked
              exact ⟨rfl, rfl, signature, rfl, verifies⟩
            · rintro ⟨rfl, same, _⟩
              cases same
              rfl
          · simp only [verifies]
            constructor
            · intro checked
              cases checked
            · rintro ⟨_, same, other, here, verified⟩
              cases same
              cases here
              exact absurd verified verifies

theorem stripSeal_eq_ok_iff :
    header.stripSeal scheme = (.ok (author, item), stripped) ↔
      header = stripped.push item ∧ stripped.author? = some author ∧
        ∃ signature, item.signature? = some signature ∧
          scheme.verify author stripped.hash.toBytes signature = true := by
  constructor
  · intro accepted
    cases last : header.digest.getLast? with
    | none => simp [stripSeal, last] at accepted
    | some found =>
        obtain ⟨below, rfl⟩ := exists_push_of_getLast? last
        rw [stripSeal_push, Prod.mk.injEq] at accepted
        obtain ⟨checked, rfl⟩ := accepted
        obtain ⟨rfl, names, verifies⟩ := checkSeal_eq_ok_iff.mp checked
        exact ⟨rfl, names, verifies⟩
  · rintro ⟨rfl, names, verifies⟩
    rw [stripSeal_push, checkSeal_eq_ok_iff.mpr ⟨rfl, names, verifies⟩]

theorem stripSeal_push_ofSignature (names : header.author? = some author)
    (verifies : scheme.verify author header.hash.toBytes signature = true) :
    (header.push (.ofSignature signature)).stripSeal scheme =
      (.ok (author, .ofSignature signature), header) :=
  stripSeal_eq_ok_iff.mpr
    ⟨rfl, names, signature, DigestItem.signature?_ofSignature signature, verifies⟩

/-- What was taken off a header with a seal that checks makes such a header when it is put back. -/
theorem sealed_of_stripSeal (accepted : header.stripSeal scheme = (.ok (author, item), stripped)) :
    (stripped.push item).Sealed scheme := by
  obtain ⟨rfl, _, _⟩ := stripSeal_eq_ok_iff.mp accepted
  exact ⟨author, item, by rw [accepted]⟩

/-- What a seal that checks may look like. Its payload begins with the signature that it decodes to,
and it is the log made of that signature just when nothing follows. Whatever follows, the header is
accepted for the same author: the accepted headers with the same logs below and the same signature
are exactly those with a seal that begins with it, and one of them at most has a payload as long as
a signature. -/
theorem seals_of_stripSeal
    (accepted : header.stripSeal scheme = (.ok (author, item), stripped)) :
    ∃ signature payload,
      item = .seal authorshipEngine payload ∧
      item.signature? = some signature ∧
      (item = .ofSignature signature ↔ payload.length = 64) ∧
      (∀ other, (∃ again, other.stripSeal scheme = (.ok (author, again), stripped) ∧
          again.signature? = some signature) ↔
        ∃ rest, other = stripped.push (.seal authorshipEngine (encode signature ++ rest))) ∧
      (∀ other anyone otherPayload,
        other.stripSeal scheme = (.ok (anyone, .seal authorshipEngine otherPayload), stripped) →
        (DigestItem.seal authorshipEngine otherPayload).signature? = some signature →
        payload.length = 64 → otherPayload.length = 64 → other = header) := by
  obtain ⟨rfl, names, signature, holds, verifies⟩ := stripSeal_eq_ok_iff.mp accepted
  obtain ⟨rest, rfl⟩ := DigestItem.signature?_eq_some_iff.mp holds
  have canonical (tail : Bytes) : (encode signature ++ tail).length = 64 ↔ tail = [] := by
    have width : (encode signature).length = 64 := signature.bytes.length_toList
    rw [List.length_append, width, ← List.length_eq_zero_iff]
    omega
  refine ⟨signature, _, rfl, holds, ?_, ?_, ?_⟩
  · rw [canonical, DigestItem.ofSignature, DigestItem.seal.injEq]
    simp
  · intro other
    constructor
    · rintro ⟨again, acceptedAgain, begins⟩
      obtain ⟨rfl, _, _⟩ := stripSeal_eq_ok_iff.mp acceptedAgain
      obtain ⟨otherRest, rfl⟩ := DigestItem.signature?_eq_some_iff.mp begins
      exact ⟨otherRest, rfl⟩
    · rintro ⟨otherRest, rfl⟩
      have begins : (DigestItem.seal authorshipEngine (encode signature ++ otherRest)).signature? =
          some signature := DigestItem.signature?_eq_some_iff.mpr ⟨otherRest, rfl⟩
      exact ⟨_, stripSeal_eq_ok_iff.mpr ⟨rfl, names, signature, begins, verifies⟩, begins⟩
  · intro other anyone otherPayload acceptedOther otherHolds fits otherFits
    obtain ⟨rfl, _, _⟩ := stripSeal_eq_ok_iff.mp acceptedOther
    obtain ⟨otherRest, same⟩ := DigestItem.signature?_eq_some_iff.mp otherHolds
    obtain rfl := (DigestItem.seal.inj same).2
    rw [(canonical rest).mp fits, (canonical otherRest).mp otherFits]

/-! ## A seal with a byte too many -/

private def firstSeed : Seed := ⟨FixedBytes.replicate 32 1⟩

/-- Names its author and is not sealed. -/
private def unsealedHeader : Header :=
  { number := 1, digest := [.ofAuthor (ed25519.publicKey firstSeed)] }

private def firstSignature : Signature := ed25519.sign firstSeed unsealedHeader.hash.toBytes

private theorem verify_firstSignature :
    ed25519.verify (ed25519.publicKey firstSeed) unsealedHeader.hash.toBytes firstSignature =
      true := by
  decide +kernel

/-- The seal of the author, with a byte after the signature. -/
private def longSeal : DigestItem := .seal authorshipEngine (encode firstSignature ++ [0])

private theorem stripSeal_push_longSeal :
    (unsealedHeader.push longSeal).stripSeal ed25519 =
      (.ok (ed25519.publicKey firstSeed, longSeal), unsealedHeader) :=
  stripSeal_eq_ok_iff.mpr ⟨rfl, Digest.author?_ofAuthor_cons _ [], firstSignature,
    DigestItem.signature?_eq_some_iff.mpr ⟨[0], rfl⟩, verify_firstSignature⟩

theorem seals_of_stripSeal_longSeal :
    (unsealedHeader.push longSeal).stripSeal ed25519 =
        (.ok (ed25519.publicKey firstSeed, longSeal), unsealedHeader) ∧
      ∃ signature payload, longSeal = .seal authorshipEngine payload ∧
        longSeal.signature? = some signature ∧
        (longSeal = .ofSignature signature ↔ payload.length = 64) := by
  obtain ⟨signature, payload, form, holds, canonical, _, _⟩ :=
    seals_of_stripSeal stripSeal_push_longSeal
  exact ⟨stripSeal_push_longSeal, signature, payload, form, holds, canonical⟩

/-- One signature of an author seals one header twice: two headers are accepted with different
hashes. -/
theorem longSeal_accepted_beside_ofSignature :
    (unsealedHeader.push longSeal).stripSeal ed25519 =
        (.ok (ed25519.publicKey firstSeed, longSeal), unsealedHeader) ∧
      (unsealedHeader.push (.ofSignature firstSignature)).stripSeal ed25519 =
        (.ok (ed25519.publicKey firstSeed, .ofSignature firstSignature), unsealedHeader) ∧
      longSeal.signature? = some firstSignature ∧
      longSeal ≠ .ofSignature firstSignature ∧
      (unsealedHeader.push longSeal).hash ≠
        (unsealedHeader.push (.ofSignature firstSignature)).hash := by
  refine ⟨stripSeal_push_longSeal, ?_, DigestItem.signature?_eq_some_iff.mpr ⟨[0], rfl⟩, ?_, ?_⟩
  · exact stripSeal_push_ofSignature (Digest.author?_ofAuthor_cons _ []) verify_firstSignature
  · simp [longSeal, DigestItem.ofSignature]
  · decide +kernel

end Header

end Authorship
