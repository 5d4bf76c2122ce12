/-
Module: Authorship.Proofs.Block.Payload
Purpose: What the payloads of logs decode to. Author identities and signatures are byte strings of
  a fixed width, and reading one takes as many bytes as it has and asks nothing of what follows: a
  payload decodes to a value just when it begins with the bytes of that value, and to none just when
  it is too short.
Main exports: decode?_authorId_eq_some_iff, decode?_signature_eq_some_iff,
  DigestItem.author?_eq_some_iff, DigestItem.signature?_eq_some_iff, Digest.author?_eq_some_iff,
  Digest.author?_ofAuthor_cons, Digest.NamesFirst, Digest.author?_eq_some_iff_namesFirst,
  Digest.author?_eq_none_iff
-/
import Authorship.Proofs.Block.BinaryForm

namespace Authorship

theorem decode?_authorId_eq_some_iff {bytes : Bytes} {author : AuthorId} :
    decode? AuthorId bytes = some author ↔ ∃ rest, bytes = encode author ++ rest :=
  LawfulCodec.decode?_eq_some_iff.trans (and_iff_right trivial)

theorem decode?_signature_eq_some_iff {bytes : Bytes} {signature : Signature} :
    decode? Signature bytes = some signature ↔ ∃ rest, bytes = encode signature ++ rest :=
  LawfulCodec.decode?_eq_some_iff.trans (and_iff_right trivial)

/-! ## Lengths -/

namespace FixedBytes

variable {width : Nat} {bytes : Bytes}

/-- A string begins with so many bytes just when it is long enough and these come first. -/
theorem exists_append_iff {fixed : FixedBytes width} :
    (∃ rest, bytes = fixed.toList ++ rest) ↔
      width ≤ bytes.length ∧ bytes.take width = fixed.toList := by
  constructor
  · rintro ⟨rest, rfl⟩
    rw [List.length_append, fixed.length_toList, List.take_left' fixed.length_toList]
    exact ⟨Nat.le_add_right _ _, rfl⟩
  · rintro ⟨_, begins⟩
    exact ⟨bytes.drop width, by rw [← begins, List.take_append_drop]⟩

/-- The first bytes of a string that is long enough. -/
def ofTake (room : width ≤ bytes.length) : FixedBytes width :=
  ⟨bytes.take width, List.length_take_of_le room⟩

end FixedBytes

section Room

variable {payload : Bytes}

theorem decode?_authorId_eq_some_iff_take {author : AuthorId} :
    decode? AuthorId payload = some author ↔
      32 ≤ payload.length ∧ payload.take 32 = author.bytes.toList :=
  decode?_authorId_eq_some_iff.trans FixedBytes.exists_append_iff

theorem decode?_signature_eq_some_iff_take {signature : Signature} :
    decode? Signature payload = some signature ↔
      64 ≤ payload.length ∧ payload.take 64 = signature.bytes.toList :=
  decode?_signature_eq_some_iff.trans FixedBytes.exists_append_iff

theorem decode?_authorId_eq_none_iff : decode? AuthorId payload = none ↔ payload.length < 32 := by
  rw [Option.eq_none_iff_forall_ne_some, ← Nat.not_le]
  constructor
  · intro nobody room
    exact nobody ⟨.ofTake room⟩ (decode?_authorId_eq_some_iff_take.mpr ⟨room, rfl⟩)
  · intro short author named
    exact short (decode?_authorId_eq_some_iff_take.mp named).1

theorem decode?_signature_eq_none_iff :
    decode? Signature payload = none ↔ payload.length < 64 := by
  rw [Option.eq_none_iff_forall_ne_some, ← Nat.not_le]
  constructor
  · intro nothing room
    exact nothing ⟨.ofTake room⟩ (decode?_signature_eq_some_iff_take.mpr ⟨room, rfl⟩)
  · intro short signature held
    exact short (decode?_signature_eq_some_iff_take.mp held).1

end Room

/-! ## Logs -/

namespace DigestItem

/-- A log names an author just when it is a pre-runtime log of this engine whose payload begins with
the author's bytes. -/
theorem author?_eq_some_iff {item : DigestItem} {author : AuthorId} :
    item.author? = some author ↔
      ∃ rest, item = .preRuntime authorshipEngine (encode author ++ rest) := by
  cases item with
  | preRuntime engine payload =>
      by_cases ours : engine = authorshipEngine
      · subst ours
        simp [author?, preRuntimePayload?, decode?_authorId_eq_some_iff]
      · simp [author?, preRuntimePayload?, ours]
  | consensus => simp [author?, preRuntimePayload?]
  | «seal» => simp [author?, preRuntimePayload?]
  | other => simp [author?, preRuntimePayload?]

/-- A log holds a signature just when it is a seal of this engine whose payload begins with the
signature's bytes. -/
theorem signature?_eq_some_iff {item : DigestItem} {signature : Signature} :
    item.signature? = some signature ↔
      ∃ rest, item = .seal authorshipEngine (encode signature ++ rest) := by
  cases item with
  | «seal» engine payload =>
      by_cases ours : engine = authorshipEngine
      · subst ours
        simp [signature?, sealPayload?, decode?_signature_eq_some_iff]
      · simp [signature?, sealPayload?, ours]
  | preRuntime => simp [signature?, sealPayload?]
  | consensus => simp [signature?, sealPayload?]
  | other => simp [signature?, sealPayload?]

theorem author?_eq_none_iff {item : DigestItem} :
    item.author? = none ↔
      ∀ payload, item = .preRuntime authorshipEngine payload → payload.length < 32 := by
  cases item with
  | preRuntime engine payload =>
      by_cases ours : engine = authorshipEngine
      · subst ours
        simp [author?, preRuntimePayload?, decode?_authorId_eq_none_iff]
      · simp [author?, preRuntimePayload?, ours]
  | consensus => simp [author?, preRuntimePayload?]
  | «seal» => simp [author?, preRuntimePayload?]
  | other => simp [author?, preRuntimePayload?]

theorem signature?_eq_none_iff {item : DigestItem} :
    item.signature? = none ↔
      ∀ payload, item = .seal authorshipEngine payload → payload.length < 64 := by
  cases item with
  | «seal» engine payload =>
      by_cases ours : engine = authorshipEngine
      · subst ours
        simp [signature?, sealPayload?, decode?_signature_eq_none_iff]
      · simp [signature?, sealPayload?, ours]
  | preRuntime => simp [signature?, sealPayload?]
  | consensus => simp [signature?, sealPayload?]
  | other => simp [signature?, sealPayload?]

theorem signature?_seal {payload : Bytes} {signature : Signature} (room : 64 ≤ payload.length)
    (begins : payload.take 64 = signature.bytes.toList) :
    (DigestItem.seal authorshipEngine payload).signature? = some signature := by
  simp [signature?, sealPayload?, decode?_signature_eq_some_iff_take.mpr ⟨room, begins⟩]

@[simp] theorem author?_ofAuthor (author : AuthorId) : (ofAuthor author).author? = some author :=
  author?_eq_some_iff.mpr ⟨[], by rw [List.append_nil, ofAuthor]⟩

@[simp] theorem signature?_ofSignature (signature : Signature) :
    (ofSignature signature).signature? = some signature :=
  signature?_eq_some_iff.mpr ⟨[], by rw [List.append_nil, ofSignature]⟩

end DigestItem

/-- Logs name an author just when one of them does and none before it names anybody. -/
theorem Digest.author?_eq_some_iff {digest : Digest} {author : AuthorId} :
    digest.author? = some author ↔
      ∃ before rest after,
        digest = before ++ .preRuntime authorshipEngine (encode author ++ rest) :: after ∧
        ∀ item ∈ before, item.author? = none := by
  rw [Digest.author?, List.findSome?_eq_some_iff]
  constructor
  · intro ⟨before, item, after, split, names, silent⟩
    obtain ⟨rest, rfl⟩ := DigestItem.author?_eq_some_iff.mp names
    exact ⟨before, rest, after, split, silent⟩
  · intro ⟨before, rest, after, split, silent⟩
    exact ⟨before, _, after, split, DigestItem.author?_eq_some_iff.mpr ⟨rest, rfl⟩, silent⟩

/-- The log that names the author settles it, whatever logs come after. -/
@[simp] theorem Digest.author?_ofAuthor_cons (author : AuthorId) (rest : Digest) :
    Digest.author? (.ofAuthor author :: rest) = some author := by
  simp [Digest.author?]

namespace Digest

variable {digest : Digest}

/-- The first pre-runtime log of this engine that has room for an author begins with this one. -/
def NamesFirst (digest : Digest) (author : AuthorId) : Prop :=
  ∃ before payload after,
    digest = before ++ .preRuntime authorshipEngine payload :: after ∧
      32 ≤ payload.length ∧ payload.take 32 = author.bytes.toList ∧
      ∀ earlier, .preRuntime authorshipEngine earlier ∈ before → earlier.length < 32

theorem forall_author?_eq_none_iff :
    (∀ item ∈ digest, item.author? = none) ↔
      ∀ payload, .preRuntime authorshipEngine payload ∈ digest → payload.length < 32 := by
  simp only [DigestItem.author?_eq_none_iff]
  constructor
  · intro silent payload member
    exact silent _ member payload rfl
  · rintro short item member payload rfl
    exact short payload member

/-- Logs name nobody just when none of those that could has room for an author. -/
theorem author?_eq_none_iff :
    digest.author? = none ↔
      ∀ payload, .preRuntime authorshipEngine payload ∈ digest → payload.length < 32 := by
  rw [author?, List.findSome?_eq_none_iff]
  exact forall_author?_eq_none_iff

theorem author?_eq_some_iff_namesFirst {author : AuthorId} :
    digest.author? = some author ↔ digest.NamesFirst author := by
  have begins (payload : Bytes) : (∃ rest, payload = encode author ++ rest) ↔
      32 ≤ payload.length ∧ payload.take 32 = author.bytes.toList :=
    FixedBytes.exists_append_iff
  rw [author?_eq_some_iff]
  constructor
  · rintro ⟨before, rest, after, split, silent⟩
    obtain ⟨room, named⟩ := (begins _).mp ⟨rest, rfl⟩
    exact ⟨before, _, after, split, room, named, forall_author?_eq_none_iff.mp silent⟩
  · rintro ⟨before, payload, after, split, room, named, short⟩
    obtain ⟨rest, rfl⟩ := (begins payload).mpr ⟨room, named⟩
    exact ⟨before, rest, after, split, forall_author?_eq_none_iff.mpr short⟩

/-- A seal on top says nothing about the author. -/
theorem author?_concat_seal (logs : Digest) (engine : EngineId) (payload : Bytes) :
    Digest.author? (logs ++ [.seal engine payload]) = logs.author? := by
  simp [author?, List.findSome?_append, DigestItem.author?, DigestItem.preRuntimePayload?]

end Digest

end Authorship
