/-
Module: Authorship.Proofs.ForkTree.History
Purpose: The state root of a block as a commitment to all extrinsics below it. In a tree that grows
  by its own proposals alone, a block has the number after its parent's, and its state root is the
  hash of the parent's state root and of the root of its own extrinsics. A proposer is prepared long
  before its block is imported, and by a header that is only known by its hash; so this, and what
  follows from it for two blocks of one state root, holds as long as the runs hash no two different
  byte strings to the same digest.
Main exports: CollisionFree, ForkTree.Linked, ForkTree.Linked.bodies_eq, ForkTree.Session.hashed,
  ForkTree.Session.Recorded, ForkTree.Session.stateRoot_commits
-/
import Authorship.Proofs.Commitment
import Authorship.Proofs.ForkTree.Heights
import Authorship.Proofs.ForkTree.Inclusion

namespace Authorship

/-- No two different ones of the byte strings have one SHA-256 digest. -/
def CollisionFree (strings : List Bytes) : Prop :=
  ∀ one ∈ strings, ∀ two ∈ strings, ¬ Collision one two

instance (one two : Bytes) : Decidable (Collision one two) :=
  inferInstanceAs (Decidable (one ≠ two ∧ sha256 one = sha256 two))

instance (strings : List Bytes) : Decidable (CollisionFree strings) :=
  inferInstanceAs (Decidable (∀ one ∈ strings, ∀ two ∈ strings, ¬ Collision one two))

theorem CollisionFree.eq_of_hash {strings : List Bytes} {one two : Bytes}
    (free : CollisionFree strings) (oneHashed : one ∈ strings) (twoHashed : two ∈ strings)
    (same : Hash.of one = Hash.of two) : one = two :=
  (eq_or_collision_of_hash same).resolve_right (free one oneHashed two twoHashed)

theorem Hash.toBytes_append_inj {one two oneRest twoRest : Hash}
    (same : one.toBytes ++ oneRest.toBytes = two.toBytes ++ twoRest.toBytes) :
    one = two ∧ oneRest = twoRest := by
  have asForms : encode one ++ encode oneRest = encode two ++ encode twoRest := same
  obtain ⟨first, second⟩ := LawfulCodec.eq_of_encode_append_eq trivial trivial asForms
  exact ⟨first, Hash.toBytes_inj.mp second⟩

/-- The number and the state root have fixed places in the binary form of a header, so they can be
told from it even if the logs are too long for their lengths to be written. -/
theorem Header.eq_of_encode_eq {one two : Header} (same : encode one = encode two) :
    one.number = two.number ∧ one.stateRoot = two.stateRoot := by
  have layout (header : Header) : encode header =
      encode header.parentHash ++ (encode header.number ++ (encode header.stateRoot ++
        (encode header.extrinsicsRoot ++ encode header.digest))) := by
    simp [encode]
  rw [layout, layout] at same
  obtain ⟨_, same⟩ := LawfulCodec.eq_of_encode_append_eq trivial trivial same
  obtain ⟨number, same⟩ := LawfulCodec.eq_of_encode_append_eq trivial trivial same
  obtain ⟨stateRoot, _⟩ := LawfulCodec.eq_of_encode_append_eq trivial trivial same
  exact ⟨number, stateRoot⟩

namespace ForkTree

/-! ## Blocks that go on from their parents -/

/-- The block goes on from its parent: its number is the next one, its state root is made of the
parent's and of the root of its own extrinsics, and what was hashed for the two is among the byte
strings. -/
structure Continues (strings : List Bytes) (parent : Header) (block : Block) : Prop where
  number : block.header.number.toNat = parent.number.toNat + 1
  stateRoot : block.header.stateRoot =
    nextStateRoot parent.stateRoot block.header.extrinsicsRoot
  commits : block.header.extrinsicsRoot = extrinsicsRoot block.extrinsics
  stateHashed : parent.stateRoot.toBytes ++ block.header.extrinsicsRoot.toBytes ∈ strings
  bodyHashed : encode block.extrinsics ∈ strings

/-- The parent of the block is stored, and the block goes on from it. -/
def ContinuesParent (tree : ForkTree) (strings : List Bytes) (block : Block) : Prop :=
  ∃ parent, tree.header? block.header.parentHash = some parent ∧ Continues strings parent block

theorem ContinuesParent.mono {tree later : ForkTree} {strings : List Bytes} {block : Block}
    (goesOn : tree.ContinuesParent strings block) (kept : tree.KeptBy later) :
    later.ContinuesParent strings block := by
  obtain ⟨parent, stored, continues⟩ := goesOn
  exact ⟨parent, kept.header? stored, continues⟩

/-- What consensus adds to the logs of a block changes none of this. -/
theorem ContinuesParent.withLogs {tree : ForkTree} {strings : List Bytes} {block : Block}
    (goesOn : tree.ContinuesParent strings block) (digest : Digest) :
    tree.ContinuesParent strings { block with header := { block.header with digest } } := by
  obtain ⟨parent, stored, continues⟩ := goesOn
  exact ⟨parent, stored, continues.number, continues.stateRoot, continues.commits,
    continues.stateHashed, continues.bodyHashed⟩

/-- A tree of blocks that go on from their parents and are numbered by their height above the
genesis block. The binary forms of their headers are among the byte strings. -/
structure Linked (tree : ForkTree) (genesis : Header) (strings : List Bytes) : Prop where
  root : tree.header? genesis.hash = some genesis
  stored : ∀ hash header, tree.header? hash = some header →
    header.hash = hash ∧ encode header ∈ strings
  height : ∀ hash header depth, tree.header? hash = some header → tree.depth? hash = some depth →
    header.number.toNat = genesis.number.toNat + depth.toNat
  above : ∀ hash block, tree.block? hash = some block → hash ≠ genesis.hash →
    tree.ContinuesParent strings block

namespace Linked

variable {tree : ForkTree} {genesis : Header} {strings : List Bytes}

theorem ofGenesis (hashed : encode genesis ∈ strings) :
    (ofGenesis genesis).Linked genesis strings := by
  have only (hash : Hash) (header : Header)
      (stored : (ForkTree.ofGenesis genesis).header? hash = some header) :
      genesis.hash = hash ∧ header = genesis := by
    rw [header?, block?_ofGenesis] at stored
    split at stored
    · next same =>
        cases stored
        exact ⟨same, rfl⟩
    · cases stored
  constructor
  case root =>
    rw [header?, block?_ofGenesis, if_pos rfl, Option.map_some]
  case stored =>
    intro hash header stored
    obtain ⟨same, rfl⟩ := only hash header stored
    exact ⟨same, hashed⟩
  case height =>
    intro hash header depth stored deep
    obtain ⟨rfl, rfl⟩ := only hash header stored
    rw [depth?_ofGenesis, if_pos rfl] at deep
    cases deep
    rfl
  case above =>
    intro hash block stored notGenesis
    obtain ⟨same, _⟩ := only hash block.header (header?_of_block? stored)
    exact absurd same.symm notGenesis

theorem submit (linked : tree.Linked genesis strings) (extrinsic : Extrinsic) :
    (tree.submit extrinsic).Linked genesis strings where
  root := linked.root
  stored := linked.stored
  height := linked.height
  above := linked.above

/-- Numbers do not wrap, so depths do not wrap either, however many blocks are stored. -/
theorem attach {block : Block} {entry : Entry} (linked : tree.Linked genesis strings)
    (attachable : tree.Attachable block entry) (isNewBest : Bool)
    (goesOn : tree.ContinuesParent strings block) (hashed : encode block.header ∈ strings) :
    (tree.attach block.hash block entry isNewBest).Linked genesis strings := by
  have kept := KeptBy.attach attachable isNewBest
  have parentStored : tree.header? block.header.parentHash = some entry.block.header :=
    header?_of_block? (block?_of_get? attachable.stored)
  have newOrOld (hash : Hash) (other : Block)
      (stored : (tree.attach block.hash block entry isNewBest).block? hash = some other) :
      (block.hash = hash ∧ other = block) ∨
        (block.hash ≠ hash ∧ tree.block? hash = some other) := by
    rw [block?_attach attachable] at stored
    split at stored
    · next same =>
        cases stored
        exact .inl ⟨same, rfl⟩
    · next different => exact .inr ⟨different, stored⟩
  constructor
  case root => exact kept.header? linked.root
  case stored =>
    intro hash header stored
    obtain ⟨other, found, rfl⟩ := Option.map_eq_some_iff.mp stored
    rcases newOrOld hash other found with ⟨same, rfl⟩ | ⟨_, old⟩
    · exact ⟨same, hashed⟩
    · exact linked.stored hash other.header (header?_of_block? old)
  case height =>
    intro hash header depth stored deep
    obtain ⟨other, found, rfl⟩ := Option.map_eq_some_iff.mp stored
    rw [depth?_attach attachable] at deep
    rcases newOrOld hash other found with ⟨same, rfl⟩ | ⟨different, old⟩
    · rw [if_pos same] at deep
      cases deep
      obtain ⟨parent, found, continues⟩ := goesOn
      obtain rfl : entry.block.header = parent := Option.some.inj (parentStored.symm.trans found)
      have below := linked.height _ _ _ parentStored (depth?_of_get? attachable.stored)
      have next := continues.number
      have bound := other.header.number.toNat_lt
      have one : (1 : UInt32).toNat = 1 := rfl
      rw [UInt32.toNat_add, one]
      omega
    · rw [if_neg different] at deep
      exact linked.height hash other.header depth (header?_of_block? old) deep
  case above =>
    intro hash other stored notGenesis
    rcases newOrOld hash other stored with ⟨_, rfl⟩ | ⟨_, old⟩
    · exact goesOn.mono kept
    · exact (linked.above hash other old notGenesis).mono kept

/-! ## What a state root says -/

/-- The number of a block counts the blocks of its branch. -/
theorem number_eq (linked : tree.Linked genesis strings) {hash : Hash} {path : List Block}
    (branch : tree.Branch genesis.hash hash path) {header : Header}
    (stored : tree.header? hash = some header) :
    header.number.toNat = genesis.number.toNat + path.length := by
  induction branch generalizing header with
  | root =>
      rw [linked.root] at stored
      cases stored
      rfl
  | child found notGenesis _ inductionHypothesis =>
      rw [header?_of_block? found] at stored
      cases stored
      obtain ⟨parent, parentStored, continues⟩ := linked.above _ _ found notGenesis
      have below := inductionHypothesis parentStored
      have next := continues.number
      rw [List.length_append, List.length_singleton]
      omega

theorem length_eq_depth (linked : tree.Linked genesis strings) {hash : Hash} {path : List Block}
    (branch : tree.Branch genesis.hash hash path) {header : Header} {depth : UInt32}
    (stored : tree.header? hash = some header) (deep : tree.depth? hash = some depth) :
    path.length = depth.toNat := by
  have number := linked.number_eq branch stored
  have height := linked.height hash header depth stored deep
  omega

/-- Every block above the genesis block has a body whose lengths fit into 64 bits. -/
def BodiesFit (tree : ForkTree) (genesis : Hash) : Prop :=
  ∀ hash block, tree.block? hash = some block → hash ≠ genesis → Fits block.extrinsics

/-- Equal states come from equal states and equal extrinsics, down to the genesis block. -/
theorem bodies_eq {other : ForkTree} (linked : tree.Linked genesis strings)
    (otherLinked : other.Linked genesis strings) (free : CollisionFree strings)
    (fit : BodiesFit tree genesis.hash) (otherFit : BodiesFit other genesis.hash)
    {hash otherHash : Hash} {path otherPath : List Block}
    (branch : tree.Branch genesis.hash hash path)
    (otherBranch : other.Branch genesis.hash otherHash otherPath)
    (level : path.length = otherPath.length) {header otherHeader : Header}
    (stored : tree.header? hash = some header)
    (otherStored : other.header? otherHash = some otherHeader)
    (sameState : header.stateRoot = otherHeader.stateRoot) :
    path.map Block.extrinsics = otherPath.map Block.extrinsics := by
  induction branch generalizing otherHash otherPath header otherHeader with
  | root =>
      obtain rfl := List.eq_nil_of_length_eq_zero level.symm
      rfl
  | @child hash block path found notGenesis below inductionHypothesis =>
      cases otherBranch with
      | root => simp at level
      | @child _ otherBlock otherPath otherFound otherNotGenesis otherBelow =>
          rw [header?_of_block? found] at stored
          rw [header?_of_block? otherFound] at otherStored
          cases stored
          cases otherStored
          obtain ⟨parent, parentStored, continues⟩ := linked.above _ _ found notGenesis
          obtain ⟨otherParent, otherParentStored, otherContinues⟩ :=
            otherLinked.above _ _ otherFound otherNotGenesis
          have sameStrings := free.eq_of_hash continues.stateHashed otherContinues.stateHashed (by
            rw [continues.stateRoot, otherContinues.stateRoot] at sameState
            exact sameState)
          obtain ⟨sameBelow, sameRoot⟩ := Hash.toBytes_append_inj sameStrings
          have sameForms := free.eq_of_hash continues.bodyHashed otherContinues.bodyHashed (by
            rw [continues.commits, otherContinues.commits] at sameRoot
            exact sameRoot)
          have sameBody := (LawfulCodec.encode_inj (fit _ _ found notGenesis)
            (otherFit _ _ otherFound otherNotGenesis)).mp sameForms
          have sameLevel : path.length = otherPath.length := by simpa using level
          rw [List.map_append, List.map_append,
            inductionHypothesis otherBelow sameLevel parentStored otherParentStored sameBelow,
            List.map_singleton, List.map_singleton, sameBody]

end Linked

namespace Session

/-! ## What a run hashes -/

/-- The byte strings that are hashed in a step: the header that a proposer is prepared by, the body
and the state of a proposal, the body and the header of an imported block. -/
def hashedBy (session : Session) : Step → List Bytes
  | .submit _ => []
  | .prepare parent => [encode parent]
  | .propose index digest limit =>
    match session.proposers[index]? with
    | none => []
    | some proposer =>
      match proposer.propose session.tree digest limit with
      | .ok block =>
        [encode block.extrinsics,
          proposer.parentStateRoot.toBytes ++ block.header.extrinsicsRoot.toBytes]
      | .error _ => []
  | .importProposal index origin postDigests forkChoice finalized =>
    match session.proposals[index]? with
    | none => []
    | some block =>
      let request := importRequest block origin postDigests forkChoice finalized
      [encode request.block.extrinsics, encode request.block.header]

/-- The byte strings that are hashed in steps, one after the other. -/
def hashedByAll (session : Session) : List Step → List Bytes
  | [] => []
  | step :: rest => session.hashedBy step ++ (session.perform step).hashedByAll rest

/-- The byte strings that are hashed when a fresh tree goes through steps. -/
def hashed (genesis : Header) (steps : List Step) : List Bytes :=
  encode genesis :: (start genesis).hashedByAll steps

/-- What is stored, prepared and proposed goes on from stored blocks. A proposer knows its parent's
number and state root, whatever header it was prepared by. -/
structure Recorded (session : Session) (genesis : Header) (strings : List Bytes) : Prop where
  linked : session.tree.Linked genesis strings
  prepared : ∀ proposer ∈ session.proposers, ∃ parent,
    session.tree.header? proposer.parentHash = some parent ∧
      proposer.parentNumber = parent.number ∧ proposer.parentStateRoot = parent.stateRoot
  proposed : ∀ block ∈ session.proposals, session.tree.ContinuesParent strings block

namespace Recorded

theorem start {genesis : Header} {strings : List Bytes} (hashed : encode genesis ∈ strings) :
    (start genesis).Recorded genesis strings where
  linked := .ofGenesis hashed
  prepared := by simp [Session.start]
  proposed := by simp [Session.start]

variable {session : Session} {genesis : Header} {strings : List Bytes}

/-- The header that a proposer is prepared by has the hash of a stored one. Both were hashed, so
they agree in all that the proposer takes. -/
theorem prepare (recorded : session.Recorded genesis strings) (free : CollisionFree strings)
    (parent : Header) (hashes : ∀ string ∈ session.hashedBy (.prepare parent), string ∈ strings) :
    (session.perform (.prepare parent)).Recorded genesis strings := by
  simp only [perform, run_prepare]
  cases made : session.tree.proposer parent with
  | error error => exact recorded
  | ok proposer =>
      refine ⟨recorded.linked, ?_, recorded.proposed⟩
      intro other member
      rcases List.mem_append.mp member with old | new
      · exact recorded.prepared other old
      · obtain rfl := List.mem_singleton.mp new
        obtain ⟨known, onParent, number⟩ := ForkTree.proposer_ok made
        rw [contains_eq_isSome_block?] at known
        obtain ⟨block, found⟩ := Option.isSome_iff_exists.mp known
        have stored := header?_of_block? found
        obtain ⟨sameHash, hashed⟩ := recorded.linked.stored _ _ stored
        have given : encode parent ∈ strings := hashes _ List.mem_cons_self
        have sameForm := free.eq_of_hash hashed given sameHash
        obtain ⟨sameNumber, sameState⟩ := Header.eq_of_encode_eq sameForm
        refine ⟨block.header, ?_, ?_, ?_⟩
        · rw [onParent, stored]
        · rw [number, sameNumber]
        · rw [parentStateRoot_of_proposer_ok made, sameState]

theorem propose (recorded : session.Recorded genesis strings) (index : Nat) (digest : Digest)
    (limit : Option UInt64)
    (hashes : ∀ string ∈ session.hashedBy (.propose index digest limit), string ∈ strings) :
    (session.perform (.propose index digest limit)).Recorded genesis strings := by
  simp only [perform, run_fill]
  simp only [hashedBy] at hashes
  cases found : session.proposers[index]? with
  | none => exact recorded
  | some proposer =>
      rw [found] at hashes
      cases made : proposer.propose session.tree digest limit with
      | error error => simpa [made] using recorded
      | ok block =>
          simp only [made, List.forall_mem_cons] at hashes ⊢
          obtain ⟨bodyHashed, stateHashed, _⟩ := hashes
          refine ⟨recorded.linked, recorded.prepared, ?_⟩
          intro other member
          rcases List.mem_append.mp member with old | new
          · exact recorded.proposed other old
          · obtain rfl := List.mem_singleton.mp new
            obtain ⟨parent, stored, number, state⟩ :=
              recorded.prepared proposer (List.mem_of_getElem? found)
            obtain ⟨onParent, _, _⟩ := Proposer.propose_ok made
            obtain ⟨commits, stateRoot⟩ := Proposer.roots_of_propose_ok made
            have next := toNat_of_nextNumber?_eq_some (Proposer.nextNumber?_of_propose_ok made)
            rw [number] at next
            rw [state] at stateRoot stateHashed
            exact ⟨parent, by rw [onParent, stored], next, stateRoot, commits, stateHashed,
              bodyHashed⟩

theorem importProposal (recorded : session.Recorded genesis strings) (index : Nat)
    (origin : BlockOrigin) (postDigests : Digest) (forkChoice : Option ForkChoice)
    (finalized : Bool)
    (hashes : ∀ string ∈ session.hashedBy
      (.importProposal index origin postDigests forkChoice finalized), string ∈ strings) :
    (session.perform (.importProposal index origin postDigests forkChoice finalized)).Recorded
      genesis strings := by
  simp only [perform]
  simp only [hashedBy] at hashes
  cases found : session.proposals[index]? with
  | none => exact recorded
  | some proposal =>
      rw [found] at hashes
      simp only [List.forall_mem_cons] at hashes ⊢
      obtain ⟨_, hashed, _⟩ := hashes
      rcases session.tree.run_storeRequest_cases
          (importRequest proposal origin postDigests forkChoice finalized) with
        ⟨_, _, ran⟩ | ⟨parent, isNewBest, attachable, _, _, ran⟩
      · rw [ran]
        exact recorded
      · have goesOn := (recorded.proposed proposal (List.mem_of_getElem? found)).withLogs
          (proposal.header.digest ++ postDigests)
        have kept := KeptBy.attach attachable isNewBest
        rw [ran]
        refine ⟨recorded.linked.attach attachable isNewBest goesOn hashed, ?_, ?_⟩
        · intro proposer member
          obtain ⟨parent, stored, same⟩ := recorded.prepared proposer member
          exact ⟨parent, kept.header? stored, same⟩
        · intro other member
          exact (recorded.proposed other member).mono kept

theorem perform (recorded : session.Recorded genesis strings) (free : CollisionFree strings)
    (step : Step) (hashes : ∀ string ∈ session.hashedBy step, string ∈ strings) :
    (session.perform step).Recorded genesis strings := by
  cases step with
  | submit extrinsic =>
      exact ⟨recorded.linked.submit extrinsic, recorded.prepared, recorded.proposed⟩
  | prepare parent => exact recorded.prepare free parent hashes
  | propose index digest limit => exact recorded.propose index digest limit hashes
  | importProposal index origin postDigests forkChoice finalized =>
      exact recorded.importProposal index origin postDigests forkChoice finalized hashes

theorem performAll (recorded : session.Recorded genesis strings) (free : CollisionFree strings)
    (steps : List Step) (hashes : ∀ string ∈ session.hashedByAll steps, string ∈ strings) :
    (session.performAll steps).Recorded genesis strings := by
  induction steps generalizing session with
  | nil => exact recorded
  | cons step rest inductionHypothesis =>
      apply inductionHypothesis
      · apply recorded.perform free step
        intro string member
        exact hashes string (List.mem_append_left _ member)
      · intro string member
        exact hashes string (List.mem_append_right _ member)

end Recorded

/-- All that the steps submit. -/
def submitted (steps : List Step) : List Extrinsic :=
  steps.filterMap Step.submitted?

/-- The tree that a fresh one becomes in steps. -/
def grown (genesis : Header) (steps : List Step) : ForkTree :=
  ((start genesis).performAll steps).tree

theorem linked_grown (genesis : Header) (steps : List Step) {strings : List Bytes}
    (free : CollisionFree strings) (hashes : ∀ string ∈ hashed genesis steps, string ∈ strings) :
    (grown genesis steps).Linked genesis strings := by
  have first : encode genesis ∈ strings := hashes _ List.mem_cons_self
  have later : ∀ string ∈ (start genesis).hashedByAll steps, string ∈ strings := by
    intro string member
    exact hashes string (List.mem_cons_of_mem _ member)
  exact ((Recorded.start first).performAll free steps later).linked

theorem fits_of_count_le {included offered : List Extrinsic} (fits : Fits offered)
    (fewer : ∀ extrinsic, included.count extrinsic ≤ offered.count extrinsic) :
    Fits included := by
  have subperm : included.Subperm offered :=
    List.subperm_ext_iff.mpr fun extrinsic _ => fewer extrinsic
  obtain ⟨short, each⟩ := fits
  refine ⟨Nat.lt_of_le_of_lt subperm.length_le short, ?_⟩
  intro extrinsic member
  exact each extrinsic (subperm.subset member)

/-- Blocks hold no more than was submitted. -/
theorem bodiesFit_grown (genesis : Header) (steps : List Step) (fits : Fits (submitted steps)) :
    Linked.BodiesFit (grown genesis steps) genesis.hash := by
  intro hash block stored notGenesis
  have known : (grown genesis steps).contains hash = true := by
    rw [contains_eq_isSome_block?, stored]
    rfl
  have accounted := (Accounted.start genesis).performAll steps
  rw [List.nil_append] at accounted
  obtain ⟨_, branch⟩ := accounted.rooted.branch hash known
  obtain ⟨below, _, rfl⟩ := branch.eq_concat stored notGenesis
  apply fits_of_count_le fits
  intro extrinsic
  have included := accounted.stored hash _ branch extrinsic
  rw [copies_concat] at included
  change _ ≤ (steps.filterMap Step.submitted?).count extrinsic
  omega

theorem exists_branch_grown (genesis : Header) (steps : List Step) {hash : Hash}
    {header : Header} (stored : (grown genesis steps).header? hash = some header) :
    ∃ path, (grown genesis steps).Branch genesis.hash hash path := by
  have accounted := (Accounted.start genesis).performAll steps
  apply accounted.rooted.branch
  obtain ⟨block, found, _⟩ := Option.map_eq_some_iff.mp stored
  change (grown genesis steps).contains hash = true
  rw [contains_eq_isSome_block?, found]
  rfl

/-- However trees of one genesis block grow by their own proposals, with logs and fork choices of
any kind, as long as no two different byte strings that they hash have one digest: every block above
the genesis block is numbered by its height, and its state root is the hash of its parent's state
root and of its own extrinsics root; and blocks of one depth and one state root, in one tree or in
two, stand on branches with the same extrinsics, block by block. -/
theorem stateRoot_commits (genesis : Header) (steps others : List Step)
    (fits : Fits (submitted steps)) (othersFit : Fits (submitted others))
    (free : CollisionFree (hashed genesis steps ++ hashed genesis others)) :
    (∀ hash block, (grown genesis steps).block? hash = some block → hash ≠ genesis.hash →
      ∃ depth parent,
        (grown genesis steps).depth? hash = some depth ∧
        block.header.number.toNat = genesis.number.toNat + depth.toNat ∧
        (grown genesis steps).header? block.header.parentHash = some parent ∧
        block.header.stateRoot =
          Hash.of (parent.stateRoot.toBytes ++ block.header.extrinsicsRoot.toBytes)) ∧
    ∀ hash otherHash header otherHeader depth,
      (grown genesis steps).header? hash = some header →
      (grown genesis steps).depth? hash = some depth →
      (grown genesis others).header? otherHash = some otherHeader →
      (grown genesis others).depth? otherHash = some depth →
      header.stateRoot = otherHeader.stateRoot →
      ∃ path otherPath,
        (grown genesis steps).Branch genesis.hash hash path ∧
        (grown genesis others).Branch genesis.hash otherHash otherPath ∧
        path.map Block.extrinsics = otherPath.map Block.extrinsics := by
  have linked := linked_grown genesis steps free fun _ => List.mem_append_left _
  have otherLinked := linked_grown genesis others free fun _ => List.mem_append_right _
  constructor
  · intro hash block stored notGenesis
    obtain ⟨parent, parentStored, continues⟩ := linked.above hash block stored notGenesis
    have deep : ((grown genesis steps).depth? hash).isSome = true := by
      rw [← contains_eq_isSome_depth?, contains_eq_isSome_block?, stored]
      rfl
    obtain ⟨depth, deep⟩ := Option.isSome_iff_exists.mp deep
    have height := linked.height hash block.header depth (header?_of_block? stored) deep
    exact ⟨depth, parent, deep, height, parentStored, continues.stateRoot⟩
  · intro hash otherHash header otherHeader depth stored deep otherStored otherDeep sameState
    obtain ⟨path, branch⟩ := exists_branch_grown genesis steps stored
    obtain ⟨otherPath, otherBranch⟩ := exists_branch_grown genesis others otherStored
    have level : path.length = otherPath.length := by
      rw [linked.length_eq_depth branch stored deep,
        otherLinked.length_eq_depth otherBranch otherStored otherDeep]
    refine ⟨path, otherPath, branch, otherBranch, ?_⟩
    exact linked.bodies_eq otherLinked free (bodiesFit_grown genesis steps fits)
      (bodiesFit_grown genesis others othersFit) branch otherBranch level stored otherStored
      sameState

/-- One pooled extrinsic, proposed once; the proposal is imported with one log and with another. -/
private def sealedTwice : List Step :=
  [.submit [7], .prepare {}, .propose 0 [] none,
    .importProposal 0 .own [.other [1]] none false,
    .importProposal 0 .own [.other [2]] none false]

/-- The header of the proposal, imported with a log. -/
private def loggedHeader (log : DigestItem) : Header where
  parentHash := ({} : Header).hash
  number := 1
  stateRoot := nextStateRoot Hash.zero (extrinsicsRoot [[7]])
  extrinsicsRoot := extrinsicsRoot [[7]]
  digest := [log]

theorem stateRoot_commits_sealedTwice :
    (Fits (submitted sealedTwice) ∧
      CollisionFree (hashed {} sealedTwice ++ hashed {} sealedTwice)) ∧
    (loggedHeader (.other [1])).stateRoot = (loggedHeader (.other [2])).stateRoot ∧
    ∃ path otherPath,
      (grown {} sealedTwice).Branch ({} : Header).hash (loggedHeader (.other [1])).hash path ∧
      (grown {} sealedTwice).Branch ({} : Header).hash (loggedHeader (.other [2])).hash
        otherPath ∧
      path.map Block.extrinsics = otherPath.map Block.extrinsics := by
  have fits : Fits (submitted sealedTwice) := by
    change Fits [[7]]
    simp [Fits, UInt64.size]
  have evaluated : CollisionFree (hashed {} sealedTwice) ∧
      ∀ log ∈ [DigestItem.other [1], .other [2]],
        (grown {} sealedTwice).header? (loggedHeader log).hash = some (loggedHeader log) ∧
          (grown {} sealedTwice).depth? (loggedHeader log).hash = some 1 := by
    decide +kernel
  obtain ⟨freeOnce, stored⟩ := evaluated
  have free : CollisionFree (hashed {} sealedTwice ++ hashed {} sealedTwice) := by
    simpa [CollisionFree, or_self] using freeOnce
  obtain ⟨oneStored, oneDeep⟩ := stored (.other [1]) (by decide)
  obtain ⟨twoStored, twoDeep⟩ := stored (.other [2]) (by decide)
  obtain ⟨_, commits⟩ := stateRoot_commits {} sealedTwice sealedTwice fits fits free
  exact ⟨⟨fits, free⟩, rfl, commits _ _ _ _ 1 oneStored oneDeep twoStored twoDeep rfl⟩

end Session

end ForkTree

end Authorship
