/-
Module: Authorship.Proofs.ForkTree.Inclusion
Purpose: How often extrinsics are included. Preparing a proposer, proposing and importing are steps
  of their own, with any other steps between them, so that stale proposals may carry extrinsics
  that other imports took out of the pool already. Even so, no branch includes an extrinsic more
  often than it was submitted, the copies that still wait in the pool counted in.
Main exports: ForkTree.Session, ForkTree.Session.Step, ForkTree.Session.Accounted,
  ForkTree.Session.copies_add_pending_le
-/
import Authorship.Proofs.ForkTree.Branch
import Authorship.Proofs.ForkTree.Pool

namespace Authorship.ForkTree

/-! ## Interleaved steps -/

/-- A tree with the proposers prepared on it so far and the blocks proposed by them. Nothing leaves
these lists: a proposal may be imported at any later time, often or never. -/
structure Session where
  tree : ForkTree
  proposers : List Proposer := []
  proposals : List Block := []

namespace Session

/-- One step of one of the users of a tree. -/
inductive Step where
  | submit (extrinsic : Extrinsic)
  /-- Prepare a proposer on top of a block. -/
  | prepare (parent : Header)
  /-- Let a proposer propose. -/
  | propose (proposer : Nat) (digest : Digest) (limit : Option UInt64)
  /-- Import a proposal, with logs appended to its header. -/
  | importProposal (proposal : Nat) (origin : BlockOrigin) (postDigests : Digest)
    (forkChoice : Option ForkChoice) (finalized : Bool)

/-- The extrinsic that a step submits. -/
def Step.submitted? : Step → Option Extrinsic
  | .submit extrinsic => some extrinsic
  | _ => none

/-- The request that imports a proposed block. -/
def importRequest (block : Block) (origin : BlockOrigin) (postDigests : Digest)
    (forkChoice : Option ForkChoice) (finalized : Bool) : ImportRequest :=
  { origin, header := block.header, body := some block.extrinsics, postDigests, forkChoice,
    finalized }

/-- The session after a step, with the tree that the step leaves, whether it fails or not. -/
def perform (session : Session) : Step → Session
  | .submit extrinsic => { session with tree := session.tree.submit extrinsic }
  | .prepare parent =>
    let (outcome, tree) := (prepare parent).run.run session.tree
    match outcome with
    | .ok proposer => { session with tree, proposers := session.proposers ++ [proposer] }
    | .error _ => { session with tree }
  | .propose index digest limit =>
    match session.proposers[index]? with
    | none => session
    | some proposer =>
      let (outcome, tree) := (proposer.fill digest limit).run.run session.tree
      match outcome with
      | .ok block => { session with tree, proposals := session.proposals ++ [block] }
      | .error _ => { session with tree }
  | .importProposal index origin postDigests forkChoice finalized =>
    match session.proposals[index]? with
    | none => session
    | some block =>
      let request := importRequest block origin postDigests forkChoice finalized
      { session with
        tree := ((storeRequest request).run.run session.tree).2 }

/-- The session of a fresh tree. -/
def start (genesis : Header) : Session :=
  { tree := ofGenesis genesis }

/-- The session after steps, one after the other. -/
def performAll (session : Session) (steps : List Step) : Session :=
  steps.foldl perform session

/-- Every copy of an extrinsic is accounted for by a submission. What a proposal may add to the
branch that it was prepared for is fixed when it is made: from then on the branch stays as it is,
and the proposal with it. -/
structure Accounted (session : Session) (genesis : Hash) (submitted : List Extrinsic) : Prop where
  rooted : session.tree.Rooted genesis
  prepared : ∀ proposer ∈ session.proposers,
    session.tree.contains proposer.parentHash = true
  stored : ∀ hash path, session.tree.Branch genesis hash path → ∀ extrinsic,
    copies extrinsic path + session.tree.pool.count extrinsic ≤ submitted.count extrinsic
  proposed : ∀ block ∈ session.proposals, ∃ path,
    session.tree.Branch genesis block.header.parentHash path ∧ ∀ extrinsic,
      copies extrinsic path + block.extrinsics.count extrinsic ≤ submitted.count extrinsic

namespace Accounted

theorem start (genesis : Header) : (start genesis).Accounted genesis.hash [] where
  rooted := .ofGenesis genesis
  prepared := by simp [Session.start]
  stored hash path branch extrinsic := by
    cases branch with
    | root => simp [Session.start]
    | child stored notGenesis _ =>
        rw [Session.start, block?_ofGenesis, if_neg notGenesis.symm] at stored
        cases stored
  proposed := by simp [Session.start]

variable {session : Session} {genesis : Hash} {submitted : List Extrinsic}

theorem submit (accounted : session.Accounted genesis submitted) (extrinsic : Extrinsic) :
    (session.perform (.submit extrinsic)).Accounted genesis (submitted ++ [extrinsic]) where
  rooted := accounted.rooted.submit extrinsic
  prepared := accounted.prepared
  stored hash path branch other := by
    have before := accounted.stored hash path (Branch.submit_iff.mp branch) other
    simp only [perform, pool_submit, List.count_append]
    omega
  proposed block member := by
    obtain ⟨path, branch, before⟩ := accounted.proposed block member
    refine ⟨path, Branch.submit_iff.mpr branch, ?_⟩
    intro other
    rw [List.count_append]
    apply Nat.le_add_right_of_le
    exact before other

theorem prepare (accounted : session.Accounted genesis submitted) (parent : Header) :
    (session.perform (.prepare parent)).Accounted genesis submitted := by
  simp only [perform, run_prepare]
  cases prepared : session.tree.proposer parent with
  | error error => exact accounted
  | ok proposer =>
      refine ⟨accounted.rooted, ?_, accounted.stored, accounted.proposed⟩
      intro other member
      rcases List.mem_append.mp member with old | new
      · exact accounted.prepared other old
      · obtain rfl := List.mem_singleton.mp new
        obtain ⟨known, onParent, _⟩ := ForkTree.proposer_ok prepared
        rw [onParent]
        exact known

theorem propose (accounted : session.Accounted genesis submitted) (index : Nat)
    (digest : Digest) (limit : Option UInt64) :
    (session.perform (.propose index digest limit)).Accounted genesis submitted := by
  simp only [perform, run_fill]
  cases found : session.proposers[index]? with
  | none => exact accounted
  | some proposer =>
      cases proposed : proposer.propose session.tree digest limit with
      | error error => simpa [proposed] using accounted
      | ok block =>
          simp only [proposed]
          refine ⟨accounted.rooted, accounted.prepared, accounted.stored, ?_⟩
          intro other member
          rcases List.mem_append.mp member with old | new
          · exact accounted.proposed other old
          · obtain rfl := List.mem_singleton.mp new
            obtain ⟨onParent, _, taken⟩ := Proposer.propose_ok proposed
            have known := accounted.prepared proposer (List.mem_of_getElem? found)
            obtain ⟨path, branch⟩ := accounted.rooted.branch _ known
            refine ⟨path, onParent ▸ branch, fun extrinsic => ?_⟩
            have pooled := count_ready_le session.tree limit extrinsic
            have before := accounted.stored _ path branch extrinsic
            rw [taken]
            omega

/-- Where the pool still holds what an imported block includes, the copies move from the pool to the
branch; where it does not, the proposal was accounted for when it was made. -/
theorem importRequest (accounted : session.Accounted genesis submitted) {proposal : Block}
    (made : proposal ∈ session.proposals) {request : ImportRequest}
    (sameParent : request.block.header.parentHash = proposal.header.parentHash)
    (sameBody : request.block.extrinsics = proposal.extrinsics) :
    Accounted { session with
      tree := ((storeRequest request).run.run session.tree).2 }
      genesis submitted := by
  obtain ⟨below, parentBranch, fits⟩ := accounted.proposed proposal made
  rcases session.tree.run_storeRequest_cases request with
    ⟨outcome, _, ran⟩ | ⟨parent, isNewBest, attachable, _, _, ran⟩
  · rw [ran]
    exact accounted
  · rw [ran]
    refine ⟨accounted.rooted.attach attachable isNewBest, ?_, ?_, ?_⟩
    · intro proposer member
      rw [contains_attach attachable, accounted.prepared proposer member, Bool.or_true]
    · intro hash path branch extrinsic
      rw [pool_attach, count_prune, sameBody]
      rcases accounted.rooted.branch_attach_cases attachable branch with
        ⟨parentPath, onParent, rfl⟩ | old
      · rw [sameParent] at onParent
        have pending := accounted.stored _ _ onParent extrinsic
        have reserved := fits extrinsic
        rw [← onParent.unique parentBranch] at reserved
        rw [copies_concat, sameBody]
        omega
      · have pending := accounted.stored hash path old extrinsic
        omega
    · intro other member
      obtain ⟨path, branch, reserved⟩ := accounted.proposed other member
      exact ⟨path, branch.attach attachable isNewBest, reserved⟩

theorem importProposal (accounted : session.Accounted genesis submitted) (index : Nat)
    (origin : BlockOrigin) (postDigests : Digest) (forkChoice : Option ForkChoice)
    (finalized : Bool) :
    (session.perform (.importProposal index origin postDigests forkChoice finalized)).Accounted
      genesis submitted := by
  simp only [perform]
  cases found : session.proposals[index]? with
  | none => exact accounted
  | some block => exact accounted.importRequest (List.mem_of_getElem? found) rfl rfl

theorem perform (accounted : session.Accounted genesis submitted) (step : Step) :
    (session.perform step).Accounted genesis (submitted ++ step.submitted?.toList) := by
  cases step with
  | submit extrinsic => exact accounted.submit extrinsic
  | prepare parent => simpa [Step.submitted?] using accounted.prepare parent
  | propose index digest limit =>
      simpa [Step.submitted?] using accounted.propose index digest limit
  | importProposal index origin postDigests forkChoice finalized =>
      simpa [Step.submitted?] using
        accounted.importProposal index origin postDigests forkChoice finalized

theorem performAll (accounted : session.Accounted genesis submitted) (steps : List Step) :
    (session.performAll steps).Accounted genesis
      (submitted ++ steps.filterMap Step.submitted?) := by
  induction steps generalizing session submitted with
  | nil => simpa [Session.performAll] using accounted
  | cons step rest inductionHypothesis =>
      have after := inductionHypothesis (accounted.perform step)
      rw [List.append_assoc] at after
      have submissions : (step :: rest).filterMap Step.submitted? =
          step.submitted?.toList ++ rest.filterMap Step.submitted? := by
        cases submits : step.submitted? <;> simp [submits]
      rw [submissions]
      exact after

end Accounted

/-- Whatever the order of the steps, exactly one branch leads to each stored block, and it includes
every extrinsic at most as often as it was submitted, the copies that still wait counted in. -/
theorem copies_add_pending_le (genesis : Header) (steps : List Step) (hash : Hash)
    (stored : ((start genesis).performAll steps).tree.contains hash = true) :
    ∃ path, ((start genesis).performAll steps).tree.Branch genesis.hash hash path ∧
      (∀ other, ((start genesis).performAll steps).tree.Branch genesis.hash hash other →
        other = path) ∧
      ∀ extrinsic,
        copies extrinsic path +
            ((start genesis).performAll steps).tree.pool.count extrinsic ≤
          (steps.filterMap Step.submitted?).count extrinsic := by
  have accounted := (Accounted.start genesis).performAll steps
  rw [List.nil_append] at accounted
  obtain ⟨path, branch⟩ := accounted.rooted.branch hash stored
  refine ⟨path, branch, fun other otherBranch => otherBranch.unique branch, ?_⟩
  intro extrinsic
  exact accounted.stored hash path branch extrinsic

/-- One pooled extrinsic, proposed once; the proposal is imported twice with different logs. -/
private def forkedProposal : List Step :=
  [.submit [7], .prepare {}, .propose 0 [] none,
    .importProposal 0 .own [] none false,
    .importProposal 0 .own [.other []] (some (.decided true)) false]

theorem copies_add_pending_le_forkedProposal :
    ((start {}).performAll forkedProposal).tree.contains
        ((start {}).performAll forkedProposal).tree.best = true ∧
      ∃ path, ((start {}).performAll forkedProposal).tree.Branch ({} : Header).hash
          ((start {}).performAll forkedProposal).tree.best path ∧
        copies [7] path + ((start {}).performAll forkedProposal).tree.pool.count [7] ≤ 1 := by
  have stored : ((start {}).performAll forkedProposal).tree.contains
      ((start {}).performAll forkedProposal).tree.best = true := by decide +kernel
  obtain ⟨path, branch, _, bound⟩ := copies_add_pending_le {} forkedProposal _ stored
  exact ⟨stored, path, branch, bound [7]⟩

end Session

end Authorship.ForkTree
