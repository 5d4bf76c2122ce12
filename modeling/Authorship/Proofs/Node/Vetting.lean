/-
Module: Authorship.Proofs.Node.Vetting
Purpose: What a verifier says of a header, by the first thing that is wrong with it: the seal, then,
  if the runtime is asked, the parent, the runtime's answer and the author. A header that passes
  leaves the verifier in two parts, of which it is made again when it is stored.
Main exports: Vetting, Vetting.run_verify, exists_vetting, Verifier.postHeader_of_verify
-/
import Authorship.Consensus.Verification
import Authorship.Proofs.Block.Seal
import Authorship.Proofs.ForkTree.Growth
import Authorship.Proofs.Node.Keeps

namespace Authorship

/-- What a verifier says of a header: the seal that it took off, or the first thing that is wrong.
The runtime is asked at the parent, as far as that is found, about the number of the header. -/
inductive Vetting (api : RuntimeApi) (parent? : Option Header) (verifier : Verifier)
    (header : Header) : Except ConsensusError DigestItem → Prop where
  | invalidSeal {error : SealError}
      (rejected : (header.stripSeal verifier.scheme).1 = .error error) :
      Vetting api parent? verifier header (.error (.invalidSeal header.hash error))
  | unknownParent {author : AuthorId} {item : DigestItem}
      (accepted : (header.stripSeal verifier.scheme).1 = .ok (author, item))
      (asks : verifier.checksEligibility = true) (orphan : parent? = none) :
      Vetting api parent? verifier header (.error (.unknownParent header.parentHash))
  | apiError {author : AuthorId} {item : DigestItem} {parent : Header} {error : ApiError}
      (accepted : (header.stripSeal verifier.scheme).1 = .ok (author, item))
      (asks : verifier.checksEligibility = true) (found : parent? = some parent)
      (failed : api parent author header.number = .error error) :
      Vetting api parent? verifier header (.error (.api error))
  | cannotAuthor {author : AuthorId} {item : DigestItem} {parent : Header}
      (accepted : (header.stripSeal verifier.scheme).1 = .ok (author, item))
      (asks : verifier.checksEligibility = true) (found : parent? = some parent)
      (answered : api parent author header.number = .ok false) :
      Vetting api parent? verifier header (.error (.cannotAuthor author header.number))
  | passed {author : AuthorId} {item : DigestItem}
      (accepted : (header.stripSeal verifier.scheme).1 = .ok (author, item))
      (may : verifier.checksEligibility = true →
        ∃ parent, parent? = some parent ∧ api parent author header.number = .ok true) :
      Vetting api parent? verifier header (.ok item)

/-- The request with the last log of its header among the logs that wait. -/
def ImportRequest.withSealAside (request : ImportRequest) (item : DigestItem) : ImportRequest :=
  { request with header := request.header.pop }.addPostDigest item

/-- The request for the import of a block that passed. -/
def Block.received (block : Block) (origin : BlockOrigin) (item : DigestItem) : ImportRequest :=
  ImportRequest.withSealAside
    { origin, header := block.header, body := some block.extrinsics } item

variable {σ : Type} {api : RuntimeApi} {parent? : Option Header} {verifier : Verifier}
  {header : Header} {vetted : Except ConsensusError DigestItem} {author : AuthorId}
  {item : DigestItem}

/-! ## What the verifier does -/

section Run

variable {node : Node σ} {request : ImportRequest} {state : σ}

theorem Header.stripSeal_eq_of_fst {scheme : SignatureScheme}
    {checked : Except SealError (AuthorId × DigestItem)}
    (outcome : (header.stripSeal scheme).1 = checked) :
    header.stripSeal scheme = (checked, header.pop) :=
  Prod.ext outcome (header.stripSeal_snd scheme)

theorem Verifier.run_verify_of_asks (asks : verifier.checksEligibility = true)
    (accepted : (request.header.stripSeal verifier.scheme).1 = .ok (author, item))
    (reads : (node.header? request.header.parentHash).run.run state = (.ok parent?, state)) :
    (verifier.verify node request).run.run state =
      ((checkEligible (node.api state) parent? request.header author).map fun _ =>
        request.withSealAside item, state) := by
  unfold Verifier.verify
  -- What the verifier looks at below the seal is what the header says with it.
  have reads : (node.header? request.header.pop.parentHash).run.run state =
      (.ok parent?, state) := reads
  have same : checkEligible (node.api state) parent? request.header.pop author =
      checkEligible (node.api state) parent? request.header author := rfl
  simp only [Header.stripSeal_eq_of_fst accepted]
  rw [if_pos asks, Attempt.run_bind_eq reads, Attempt.run_bind_eq (Attempt.run_get state), same]
  have checked :=
    Attempt.run_ofExcept (checkEligible (node.api state) parent? request.header author) state
  cases outcome : checkEligible (node.api state) parent? request.header author with
  | error error =>
      rw [outcome] at checked
      exact Attempt.run_bind_error checked
  | ok answer =>
      rw [outcome] at checked
      exact Attempt.run_bind_eq checked

theorem Vetting.run_verify (request : ImportRequest)
    (vetting : Vetting (node.api state) parent? verifier request.header vetted)
    (reads : verifier.checksEligibility = true →
      (node.header? request.header.parentHash).run.run state = (.ok parent?, state)) :
    (verifier.verify node request).run.run state =
      (vetted.map request.withSealAside, state) := by
  cases vetting with
  | invalidSeal rejected =>
      unfold Verifier.verify
      simp only [Header.stripSeal_eq_of_fst rejected]
      rfl
  | unknownParent accepted asks orphan =>
      rw [Verifier.run_verify_of_asks asks accepted (reads asks), orphan]
      rfl
  | apiError accepted asks found failed =>
      rw [Verifier.run_verify_of_asks asks accepted (reads asks), found, checkEligible, failed]
      rfl
  | cannotAuthor accepted asks found answered =>
      rw [Verifier.run_verify_of_asks asks accepted (reads asks), found, checkEligible, answered]
      rfl
  | passed accepted may =>
      cases asks : verifier.checksEligibility with
      | true =>
          obtain ⟨parent, found, answered⟩ := may asks
          rw [Verifier.run_verify_of_asks asks accepted (reads asks), found, checkEligible,
            answered]
          rfl
      | false =>
          unfold Verifier.verify
          simp only [Header.stripSeal_eq_of_fst accepted, asks]
          rfl

/-- A block that does not pass changes nothing. -/
theorem Vetting.run_verifyAndImport_error (node : Node σ) {block : Block}
    {error : ConsensusError}
    (vetting : Vetting (node.api state) parent? verifier block.header (.error error))
    (reads : verifier.checksEligibility = true →
      (node.header? block.header.parentHash).run.run state = (.ok parent?, state))
    (origin : BlockOrigin) :
    (node.verifyAndImport verifier origin block).run.run state = (.error error, state) := by
  have verified := Vetting.run_verify
    { origin, header := block.header, body := some block.extrinsics } vetting reads
  exact Attempt.run_bind_error verified

/-- A block that passes goes to the importer with its seal aside. -/
theorem Vetting.run_verifyAndImport_ok (node : Node σ) {block : Block}
    (vetting : Vetting (node.api state) parent? verifier block.header (.ok item))
    (reads : verifier.checksEligibility = true →
      (node.header? block.header.parentHash).run.run state = (.ok parent?, state))
    (origin : BlockOrigin) :
    (node.verifyAndImport verifier origin block).run.run state =
      (node.importBlock (block.received origin item)).run.run state := by
  have verified := Vetting.run_verify
    { origin, header := block.header, body := some block.extrinsics } vetting reads
  exact Attempt.run_bind_eq verified

/-- A request without waiting logs that a verifier accepts is to be stored with the header it came
with, whatever the node looks up. -/
theorem Verifier.postHeader_of_verify {verified : ImportRequest} {after : σ}
    (bare : request.postDigests = [])
    (ran : (verifier.verify node request).run.run state = (.ok verified, after)) :
    verified.postHeader = request.header := by
  cases stripping : request.header.stripSeal verifier.scheme with
  | mk checked stripped =>
      unfold Verifier.verify at ran
      cases checked with
      | error error =>
          simp only [stripping] at ran
          cases ran
      | ok sealed =>
          obtain ⟨restored, _⟩ := Header.stripSeal_eq_ok_iff.mp stripping
          have same : ({ request with header := stripped }.addPostDigest sealed.2).postHeader =
              request.header := by
            rw [restored]
            simp [ImportRequest.postHeader, ImportRequest.addPostDigest, bare, Header.push]
          simp only [stripping] at ran
          split at ran
          · obtain ⟨_, _, _, ran⟩ := Attempt.run_bind_ok ran
            obtain ⟨_, _, _, ran⟩ := Attempt.run_bind_ok ran
            obtain ⟨_, _, _, ran⟩ := Attempt.run_bind_ok ran
            cases ran
            exact same
          · cases ran
            exact same

end Run

/-! ## Every header is vetted in one way -/

theorem exists_vetting (api : RuntimeApi) (parent? : Option Header) (verifier : Verifier)
    (header : Header) : ∃ vetted, Vetting api parent? verifier header vetted := by
  cases accepted : (header.stripSeal verifier.scheme).1 with
  | error error => exact ⟨_, .invalidSeal accepted⟩
  | ok sealed =>
      cases asks : verifier.checksEligibility with
      | false =>
          refine ⟨_, .passed accepted ?_⟩
          intro asked
          cases asks.symm.trans asked
      | true =>
          cases found : parent? with
          | none => exact ⟨_, .unknownParent accepted asks rfl⟩
          | some parent =>
              cases answered : api parent sealed.1 header.number with
              | error error => exact ⟨_, .apiError accepted asks rfl answered⟩
              | ok may =>
                  cases may with
                  | false => exact ⟨_, .cannotAuthor accepted asks rfl answered⟩
                  | true => exact ⟨_, .passed accepted fun _ => ⟨parent, rfl, answered⟩⟩

/-- A seal that does not check is the first thing that is wrong. -/
theorem Vetting.error_invalidSeal_iff
    (vetting : Vetting api parent? verifier header vetted) (hash : Hash) (error : SealError) :
    vetted = .error (.invalidSeal hash error) ↔
      hash = header.hash ∧ (header.stripSeal verifier.scheme).1 = .error error := by
  cases vetting with
  | invalidSeal rejected =>
      rw [rejected]
      constructor
      · intro same
        cases same
        exact ⟨rfl, rfl⟩
      · rintro ⟨rfl, same⟩
        cases same
        rfl
  | unknownParent accepted => simp [accepted]
  | apiError accepted => simp [accepted]
  | cannotAuthor accepted => simp [accepted]
  | passed accepted => simp [accepted]

/-- The parts of a header that passes make it. -/
theorem Vetting.push_pop (vetting : Vetting api parent? verifier header (.ok item)) :
    header.pop.push item = header := by
  cases vetting with
  | passed accepted _ =>
      obtain ⟨restored, _⟩ := Header.stripSeal_eq_ok_iff.mp (Header.stripSeal_eq_of_fst accepted)
      exact restored.symm

/-- A block that passes is stored as it came. -/
theorem Vetting.block_received {block : Block}
    (vetting : Vetting api parent? verifier block.header (.ok item)) (origin : BlockOrigin) :
    (block.received origin item).block = block := by
  have restored : (block.received origin item).postHeader = block.header := by
    rw [← vetting.push_pop]
    simp [Block.received, ImportRequest.withSealAside, ImportRequest.postHeader,
      ImportRequest.addPostDigest, Header.push]
  rw [ImportRequest.block, restored]
  rfl

end Authorship
