/-
Module: Authorship.Proofs.Acceptance
Purpose: Which headers are accepted, said of their bytes, and whom all readers take for the author
  of such a header. The last log has to be a seal of this engine with room for a signature, the
  first log below it with room for an author names the author, and the signature has to be the
  author's, of the hash of the header below. Whatever else stands in the logs, nodes and the runtime
  read this author off the header, with the seal and without it.
Main exports: SealVerdict, SealVerdict.stripSeal_eq, exists_sealVerdict, Header.stripSeal_eq_iff,
  Header.readers_agree, Header.accepted_iff_sealed
-/
import Authorship.Proofs.Block.Seal
import Authorship.Proofs.Node.Sealing
import Authorship.Proofs.Validation

namespace Authorship

variable {scheme : SignatureScheme} {header stripped : Header} {logs : Digest} {last : DigestItem}
  {signature : Signature} {author : AuthorId}

/-! ## What comes of taking the seal off -/

/-- What comes of taking the last log off a header, by the first thing that is wrong with it. -/
inductive SealVerdict (scheme : SignatureScheme) (header : Header) :
    Except SealError (AuthorId × DigestItem) × Header → Prop where
  | missingSeal (bare : header.digest = []) :
      SealVerdict scheme header (.error .missingSeal, header)
  | unsealed {logs : Digest} {last : DigestItem} (split : header.digest = logs ++ [last])
      (noSeal : ∀ payload, last = .seal authorshipEngine payload → payload.length < 64) :
      SealVerdict scheme header (.error .unsealed, { header with digest := logs })
  | missingAuthor {logs : Digest} {payload : Bytes}
      (split : header.digest = logs ++ [.seal authorshipEngine payload])
      (room : 64 ≤ payload.length)
      (anonymous : ∀ named, .preRuntime authorshipEngine named ∈ logs → named.length < 32) :
      SealVerdict scheme header (.error .missingAuthor, { header with digest := logs })
  | invalidSignature {logs : Digest} {payload : Bytes} {signature : Signature} {author : AuthorId}
      (split : header.digest = logs ++ [.seal authorshipEngine payload])
      (room : 64 ≤ payload.length) (begins : payload.take 64 = signature.bytes.toList)
      (first : logs.NamesFirst author)
      (refused : scheme.verify author { header with digest := logs }.hash.toBytes signature =
        false) :
      SealVerdict scheme header (.error (.invalidSignature author), { header with digest := logs })
  | accepted {logs : Digest} {payload : Bytes} {signature : Signature} {author : AuthorId}
      (split : header.digest = logs ++ [.seal authorshipEngine payload])
      (room : 64 ≤ payload.length) (begins : payload.take 64 = signature.bytes.toList)
      (first : logs.NamesFirst author)
      (verified : scheme.verify author { header with digest := logs }.hash.toBytes signature =
        true) :
      SealVerdict scheme header
        (.ok (author, .seal authorshipEngine payload), { header with digest := logs })

/-- The check of a seal that holds a signature, below which an author is named, is up to the
scheme. -/
theorem checkSeal_of_signature? (holds : last.signature? = some signature)
    (names : header.author? = some author) :
    checkSeal scheme header last =
      if scheme.verify author header.hash.toBytes signature then .ok (author, last)
      else .error (.invalidSignature author) := by
  unfold checkSeal
  simp only [holds, names]
  rfl

namespace Header

theorem stripSeal_of_split (split : header.digest = logs ++ [last]) :
    header.stripSeal scheme =
      (checkSeal scheme { header with digest := logs } last, { header with digest := logs }) := by
  have restored : header = Header.push { header with digest := logs } last := by
    rw [Header.push, ← split]
  rw [restored, stripSeal_push]
  rfl

theorem author?_of_namesFirst (header : Header) (first : logs.NamesFirst author) :
    Header.author? { header with digest := logs } = some author :=
  Digest.author?_eq_some_iff_namesFirst.mpr first

end Header

theorem SealVerdict.stripSeal_eq {result : Except SealError (AuthorId × DigestItem) × Header}
    (verdict : SealVerdict scheme header result) : header.stripSeal scheme = result := by
  cases verdict with
  | missingSeal bare => simp [Header.stripSeal, bare]
  | unsealed split noSeal =>
      rw [Header.stripSeal_of_split split, checkSeal, DigestItem.signature?_eq_none_iff.mpr noSeal]
      rfl
  | @missingAuthor logs payload split room anonymous =>
      have holds : (DigestItem.seal authorshipEngine payload).signature? =
          some ⟨.ofTake room⟩ := DigestItem.signature?_seal room rfl
      have nobody : Header.author? { header with digest := logs } = none :=
        Digest.author?_eq_none_iff.mpr anonymous
      rw [Header.stripSeal_of_split split, checkSeal, holds]
      simp only [nobody]
      rfl
  | invalidSignature split room begins first refused =>
      rw [Header.stripSeal_of_split split, checkSeal_of_signature?
        (DigestItem.signature?_seal room begins) (header.author?_of_namesFirst first), refused]
      rfl
  | accepted split room begins first verified =>
      rw [Header.stripSeal_of_split split, checkSeal_of_signature?
        (DigestItem.signature?_seal room begins) (header.author?_of_namesFirst first), verified]
      rfl

/-- Every header meets with a verdict. -/
theorem exists_sealVerdict (scheme : SignatureScheme) (header : Header) :
    ∃ result, SealVerdict scheme header result := by
  cases taken : header.digest.getLast? with
  | none => exact ⟨_, .missingSeal (List.getLast?_eq_none_iff.mp taken)⟩
  | some last =>
      obtain ⟨logs, split⟩ := List.getLast?_eq_some_iff.mp taken
      cases holds : last.signature? with
      | none => exact ⟨_, .unsealed split (DigestItem.signature?_eq_none_iff.mp holds)⟩
      | some signature =>
          obtain ⟨rest, rfl⟩ := DigestItem.signature?_eq_some_iff.mp holds
          obtain ⟨room, begins⟩ := FixedBytes.exists_append_iff.mp ⟨rest, rfl⟩
          cases names : Digest.author? logs with
          | none => exact ⟨_, .missingAuthor split room (Digest.author?_eq_none_iff.mp names)⟩
          | some author =>
              have first := Digest.author?_eq_some_iff_namesFirst.mp names
              cases verifies :
                  scheme.verify author { header with digest := logs }.hash.toBytes signature with
              | false => exact ⟨_, .invalidSignature split room begins first verifies⟩
              | true => exact ⟨_, .accepted split room begins first verifies⟩

namespace Header

theorem stripSeal_eq_iff {result : Except SealError (AuthorId × DigestItem) × Header} :
    header.stripSeal scheme = result ↔ SealVerdict scheme header result := by
  constructor
  · rintro rfl
    obtain ⟨result, verdict⟩ := exists_sealVerdict scheme header
    rwa [verdict.stripSeal_eq]
  · exact SealVerdict.stripSeal_eq

theorem pop_eq_self_iff : header.pop = header ↔ header.digest = [] := by
  constructor
  · intro same
    have shorter : header.digest.dropLast = header.digest := congrArg Header.digest same
    have length := congrArg List.length shorter
    rw [List.length_dropLast] at length
    exact List.length_eq_zero_iff.mp (by omega)
  · intro bare
    rw [pop, bare, List.dropLast_nil, ← bare]

/-! ## Readers -/

/-- Nodes and the runtime read the author of an accepted header off it, with the seal and
without. -/
theorem readers_agree {item : DigestItem}
    (accepted : header.stripSeal scheme = (.ok (author, item), stripped)) :
    ∀ reader ∈ [header, stripped], namedAuthor reader = .ok author ∧
      ∀ {α : Type} (rules : Validation.Rules α) (state : Validation.State α),
        ((Validation.openBlock rules reader.digest).run state).2 =
          { claimed := some author, author := rules.lookup author } := by
  obtain ⟨restored, names, signature, holds, _⟩ := stripSeal_eq_ok_iff.mp accepted
  obtain ⟨rest, rfl⟩ := DigestItem.signature?_eq_some_iff.mp holds
  have namesSealed : header.author? = some author := by
    rw [restored, Header.author?, push, Digest.author?_concat_seal]
    exact names
  have opens {reader : Header} (named : reader.author? = some author) {α : Type}
      (rules : Validation.Rules α) (state : Validation.State α) :
      ((Validation.openBlock rules reader.digest).run state).2 =
        { claimed := some author, author := rules.lookup author } := by
    have digest : reader.digest.author? = some author := named
    rw [Validation.run_openBlock, Validation.findAuthor, digest, Option.bind_some]
  intro reader member
  simp only [List.mem_cons, List.not_mem_nil, or_false] at member
  rcases member with rfl | rfl
  · exact ⟨namedAuthor_eq_ok_iff.mpr namesSealed, opens namesSealed⟩
  · exact ⟨namedAuthor_eq_ok_iff.mpr names, opens names⟩

/-- A header is accepted just when its last log is a seal of this engine with room for a signature,
the first log below with room for an author names the author, and the author made the signature of
the hash of the header below; then the header below is left, and it and the whole header name this
author to every reader. Otherwise the first of these that fails is reported. The last log is off in
any case, so that only a header without logs stays as it was. -/
theorem accepted_iff_sealed (scheme : SignatureScheme) (header : Header) :
    (∀ author item, (header.stripSeal scheme).1 = .ok (author, item) ↔
      ∃ logs payload signature,
        header.digest = logs ++ [item] ∧ item = .seal authorshipEngine payload ∧
        64 ≤ payload.length ∧ payload.take 64 = signature.bytes.toList ∧
        Digest.NamesFirst logs author ∧
        scheme.verify author { header with digest := logs }.hash.toBytes signature = true) ∧
    (∀ result, header.stripSeal scheme = result ↔ SealVerdict scheme header result) ∧
    (header.stripSeal scheme).2 = { header with digest := header.digest.dropLast } ∧
    ((header.stripSeal scheme).2 = header ↔ header.digest = []) ∧
    ∀ author item stripped, header.stripSeal scheme = (.ok (author, item), stripped) →
      ∀ reader ∈ [header, stripped], namedAuthor reader = .ok author ∧
        ∀ {α : Type} (rules : Validation.Rules α) (state : Validation.State α),
          ((Validation.openBlock rules reader.digest).run state).2 =
            { claimed := some author, author := rules.lookup author } := by
  refine ⟨?_, fun _ => stripSeal_eq_iff, stripSeal_snd scheme header, ?_, ?_⟩
  · intro author item
    constructor
    · intro accepted
      cases stripping : header.stripSeal scheme with
      | mk outcome left =>
          rw [stripping] at accepted
          subst accepted
          cases stripSeal_eq_iff.mp stripping with
          | accepted split room begins first verified =>
              exact ⟨_, _, _, split, rfl, room, begins, first, verified⟩
    · rintro ⟨logs, payload, signature, split, rfl, room, begins, first, verified⟩
      rw [SealVerdict.stripSeal_eq (.accepted split room begins first verified)]
  · rw [stripSeal_snd]
    exact pop_eq_self_iff
  · intro author item stripped accepted
    exact readers_agree accepted

private def claimant : AuthorId := ed25519.publicKey ⟨FixedBytes.replicate 32 3⟩

private def rival : AuthorId := ed25519.publicKey ⟨FixedBytes.replicate 32 4⟩

/-- A log of nobody, one of another engine and one that has no room for an author. -/
private def silentLogs : Digest :=
  [.other [1], .preRuntime ⟨[0x61, 0x75, 0x72, 0x61], rfl⟩ (encode rival),
    .preRuntime authorshipEngine [1, 2, 3]]

/-- The first log that names an author names the claimant and goes on; later ones name a rival, and
look like a seal. -/
private def crowdedLogs : Digest :=
  silentLogs ++ .preRuntime authorshipEngine (encode claimant ++ [0xff]) ::
    [.ofAuthor rival, .seal authorshipEngine [5]]

private def crowded : Header := { number := 7, digest := crowdedLogs }

private def crowdedSignature : Signature :=
  ed25519.sign ⟨FixedBytes.replicate 32 3⟩ crowded.hash.toBytes

private def crowdedSeal : DigestItem :=
  .seal authorshipEngine (encode crowdedSignature ++ [9])

/-- The first author named in full is the one whom the seal has to be made by. -/
theorem accepted_iff_sealed_crowded :
    ((crowded.push crowdedSeal).stripSeal ed25519).1 = .ok (claimant, crowdedSeal) ∧
      namedAuthor (crowded.push crowdedSeal) = .ok claimant ∧
      namedAuthor crowded = .ok claimant := by
  have verifies : ed25519.verify claimant crowded.hash.toBytes crowdedSignature = true := by
    decide +kernel
  have short (earlier : Bytes) (member : .preRuntime authorshipEngine earlier ∈ silentLogs) :
      earlier.length < 32 := by
    have only : earlier = [1, 2, 3] := by
      simpa [silentLogs, authorshipEngine, authorshipTag] using member
    rw [only]
    decide
  have first : Digest.NamesFirst crowdedLogs claimant :=
    ⟨silentLogs, _, _, rfl, by decide +kernel, by decide +kernel, short⟩
  obtain ⟨accepts, _, left, _, readers⟩ :=
    accepted_iff_sealed ed25519 (crowded.push crowdedSeal)
  have accepted := (accepts claimant crowdedSeal).mpr
    ⟨crowdedLogs, _, crowdedSignature, rfl, rfl, by decide +kernel, by decide +kernel, first,
      verifies⟩
  have agree := readers claimant crowdedSeal crowded (Prod.ext accepted (by rw [left]; rfl))
  exact ⟨accepted, (agree _ List.mem_cons_self).1, (agree _ (by simp)).1⟩

end Header

end Authorship
