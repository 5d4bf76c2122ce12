/-
Module: Authorship.Proofs.Commitment
Purpose: Hashes commit to what they are made of. Two headers with one hash, or two lists of
  extrinsics with one root, are the same, or their binary forms are two byte strings with one
  SHA-256 digest. So a signature covers one header, and a stored header one body, as long as nobody
  shows such byte strings.
Main exports: Collision, eq_or_collision_of_hash_encode, ForkTree.importBlock_ne_rootMismatch_iff,
  hashes_commit
-/
import Authorship.Proofs.Block.BinaryForm
import Authorship.Proofs.ForkTree.Growth

namespace Authorship

/-- Two different byte strings with one SHA-256 digest. -/
def Collision (one two : Bytes) : Prop :=
  one ≠ two ∧ sha256 one = sha256 two

theorem eq_or_collision_of_hash {one two : Bytes} (same : Hash.of one = Hash.of two) :
    one = two ∨ Collision one two := by
  by_cases equal : one = two
  · exact .inl equal
  · exact .inr ⟨equal, congrArg Hash.bytes same⟩

/-- The hash of the binary form commits to the value. -/
theorem eq_or_collision_of_hash_encode {α : Type} [Encode α] [Decode α] [LawfulCodec α]
    {one two : α} (oneFits : Fits one) (twoFits : Fits two)
    (same : Hash.of (encode one) = Hash.of (encode two)) :
    one = two ∨ Collision (encode one) (encode two) := by
  rcases eq_or_collision_of_hash same with equal | collision
  · exact .inl ((LawfulCodec.encode_inj oneFits twoFits).mp equal)
  · exact .inr collision

theorem Hash.toBytes_inj {one two : Hash} : one.toBytes = two.toBytes ↔ one = two := by
  constructor
  · intro same
    cases one
    cases two
    exact congrArg Hash.mk (FixedBytes.ext same)
  · exact congrArg Hash.toBytes

/-- A request is not refused for its body just when its header commits to the body. -/
theorem ForkTree.importBlock_ne_rootMismatch_iff {tree : ForkTree} {request : ImportRequest} :
    tree.importBlock request ≠ .error (.importFailed "extrinsics root mismatch") ↔
      request.postHeader.extrinsicsRoot = extrinsicsRoot (request.body.getD []) := by
  rcases tree.importBlock_cases request with ⟨mismatch, refused⟩ | ⟨commits, accepted⟩
  · exact iff_of_false (fun passes => passes refused) mismatch
  · refine iff_of_true ?_ commits
    rw [accepted]
    rcases tree.insert_cases request.block (request.forkChoice.getD .longest) with
      ⟨_, known⟩ | ⟨_, _, orphan⟩ | ⟨_, _, _, _, attached⟩
    · simp [known]
    · simp [orphan]
    · simp [attached]

/-- Headers with one hash, and lists of extrinsics with one root, are equal, or their binary forms
collide. As long as they do not, a header that differs in anything has another hash and is signed
by another message, and the bodies that pass for one header are the same. -/
theorem hashes_commit :
    (∀ one two : Header, Fits one → Fits two → one.hash = two.hash →
      one = two ∨ Collision (encode one) (encode two)) ∧
    (∀ one two : List Extrinsic, Fits one → Fits two → extrinsicsRoot one = extrinsicsRoot two →
      one = two ∨ Collision (encode one) (encode two)) ∧
    (∀ one two : Header, Fits one → Fits two → ¬ Collision (encode one) (encode two) → one ≠ two →
      one.hash ≠ two.hash ∧ one.hash.toBytes ≠ two.hash.toBytes) ∧
    (∀ (tree other : ForkTree) (one two : ImportRequest),
      Fits (one.body.getD []) → Fits (two.body.getD []) →
      ¬ Collision (encode (one.body.getD [])) (encode (two.body.getD [])) →
      one.postHeader = two.postHeader →
      tree.importBlock one ≠ .error (.importFailed "extrinsics root mismatch") →
      other.importBlock two ≠ .error (.importFailed "extrinsics root mismatch") →
      one.body.getD [] = two.body.getD []) := by
  refine ⟨?_, ?_, ?_, ?_⟩
  · intro one two oneFits twoFits same
    exact eq_or_collision_of_hash_encode oneFits twoFits same
  · intro one two oneFits twoFits same
    exact eq_or_collision_of_hash_encode oneFits twoFits same
  · intro one two oneFits twoFits apart different
    have hashes : one.hash ≠ two.hash := by
      intro same
      exact (eq_or_collision_of_hash_encode oneFits twoFits same).elim different apart
    exact ⟨hashes, fun same => hashes (Hash.toBytes_inj.mp same)⟩
  · intro tree other one two oneFits twoFits apart sameHeader onePasses twoPasses
    have oneCommits := ForkTree.importBlock_ne_rootMismatch_iff.mp onePasses
    have twoCommits := ForkTree.importBlock_ne_rootMismatch_iff.mp twoPasses
    have roots : extrinsicsRoot (one.body.getD []) = extrinsicsRoot (two.body.getD []) := by
      rw [← oneCommits, sameHeader, twoCommits]
    exact (eq_or_collision_of_hash_encode oneFits twoFits roots).resolve_right apart

/-- Five bytes in two logs. -/
private def evenLogs : Header where
  digest := [.other [1, 2], .other [3, 4, 5]]

/-- The same bytes, one of them moved across the border. -/
private def unevenLogs : Header where
  digest := [.other [1, 2, 3], .other [4, 5]]

/-- A block without a body, or with an empty one. -/
private def emptyBody (body : Option (List Extrinsic)) : ImportRequest where
  origin := .file
  header := { extrinsicsRoot := extrinsicsRoot [] }
  body

theorem hashes_commit_movedByte :
    (Fits evenLogs ∧ Fits unevenLogs ∧ ¬ Collision (encode evenLogs) (encode unevenLogs) ∧
      evenLogs ≠ unevenLogs ∧ evenLogs.hash ≠ unevenLogs.hash) ∧
    (Fits ((emptyBody none).body.getD []) ∧ Fits ((emptyBody (some [])).body.getD []) ∧
      (emptyBody none).postHeader = (emptyBody (some [])).postHeader ∧
      (emptyBody none).body.getD [] = (emptyBody (some [])).body.getD []) := by
  have evenFits : Fits evenLogs := by
    simp [Fits, evenLogs, DigestItem.payload, UInt64.size]
  have unevenFits : Fits unevenLogs := by
    simp [Fits, unevenLogs, DigestItem.payload, UInt64.size]
  have apart : ¬ Collision (encode evenLogs) (encode unevenLogs) := by
    rintro ⟨_, same⟩
    revert same
    decide +kernel
  have different : evenLogs ≠ unevenLogs := by decide
  have empty : Fits ([] : List Extrinsic) := by simp [Fits]
  have passes (body : Option (List Extrinsic)) (isEmpty : body.getD [] = []) :
      (ForkTree.ofGenesis {}).importBlock (emptyBody body) ≠
        .error (.importFailed "extrinsics root mismatch") := by
    rw [ForkTree.importBlock_ne_rootMismatch_iff]
    exact congrArg extrinsicsRoot isEmpty.symm
  obtain ⟨_, _, headers, bodies⟩ := hashes_commit
  refine ⟨⟨evenFits, unevenFits, apart, different, ?_⟩, empty, empty, rfl, ?_⟩
  · exact (headers _ _ evenFits unevenFits apart different).1
  · exact bodies (.ofGenesis {}) (.ofGenesis {}) _ _ empty empty
      (fun collision => collision.1 rfl) rfl (passes none rfl) (passes (some []) rfl)

end Authorship
