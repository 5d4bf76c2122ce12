/-
Module: Authorship.Proofs.Node.Replay
Purpose: A chain replayed on a fresh tree. Whatever a tree went through, the blocks on the branch of
  its best block are accepted one after the other by a queue over a fresh tree of the same genesis
  block, each becomes the best one, and nothing else is stored. A queue that asks whether authors
  may author accepts them too when they were authored on command by those who may.
Main exports: Surroundings.Passes, ForkTree.Replays, ForkTree.Holds.replays,
  Traffic.replays_performAll
-/
import Authorship.Proofs.ForkTree.Best
import Authorship.Proofs.Node.Batch
import Authorship.Proofs.Node.Judged

namespace Authorship

namespace ForkTree

variable {tree : ForkTree} {genesis : Header} {imported : List Block}

/-- A block on top of the best one becomes the best one. -/
theorem Holds.importBlock_on_best (holds : tree.Holds genesis imported) {request : ImportRequest}
    (onBest : request.block.header.parentHash = tree.best)
    (fresh : tree.contains request.block.hash = false)
    (commits : request.block.header.extrinsicsRoot = extrinsicsRoot request.block.extrinsics)
    (longest : request.forkChoice = none) (room : imported.length + 1 < UInt32.size) :
    ∃ next, tree.importBlock request = .ok (.imported true, next) ∧
      next.Holds genesis (imported ++ [request.block]) ∧ next.best = request.block.hash := by
  rcases tree.importBlock_cases request with ⟨mismatch, _⟩ | ⟨_, inserts⟩
  · exact absurd commits mismatch
  · rw [inserts, longest]
    rcases tree.insert_cases request.block .longest with
      ⟨known, _⟩ | ⟨_, orphan, _⟩ | ⟨parent, isNewBest, attachable, becomes, attached⟩
    · cases fresh.symm.trans known
    · rw [onBest] at orphan
      cases orphan.symm.trans holds.best
    · have bestDepth : tree.depth? tree.best = some parent.depth := by
        rw [← onBest, depth?_of_get? attachable.stored]
      have deeper : parent.depth < parent.depth + 1 := by
        rw [UInt32.lt_iff_toNat_lt, holds.toNat_depth_succ attachable room]
        exact Nat.lt_succ_self _
      rw [becomesBest_longest bestDepth, decide_eq_true deeper] at becomes
      subst becomes
      exact ⟨_, attached, holds.attach attachable true room, by rw [best_attach, if_pos rfl]⟩

end ForkTree

/-! ## Verified blocks -/

namespace Surroundings

variable {surroundings : Surroundings} {verifier : Verifier} {tree : ForkTree} {block : Block}

/-- The seal of the block checks, and if the runtime is asked, it lets the author author. -/
def Passes (surroundings : Surroundings) (verifier : Verifier) (tree : ForkTree) (block : Block) :
    Prop :=
  ∃ author item, (block.header.stripSeal verifier.scheme).1 = .ok (author, item) ∧
    (verifier.checksEligibility = true → ∃ parent,
      surroundings.header? tree block.header.parentHash = .ok (some parent) ∧
        surroundings.api tree parent author block.header.number = .ok true)

theorem Passes.exists_vetting (passes : surroundings.Passes verifier tree block) :
    ∃ parent? item,
      Vetting (surroundings.node.api tree) parent? verifier block.header (.ok item) ∧
        (verifier.checksEligibility = true →
          (surroundings.node.header? block.header.parentHash).run.run tree =
            (.ok parent?, tree)) := by
  obtain ⟨author, item, accepted, may⟩ := passes
  cases asks : verifier.checksEligibility with
  | false =>
      have notAsked : verifier.checksEligibility ≠ true := by simp [asks]
      exact ⟨none, item, .passed accepted fun asked => absurd asked notAsked, nofun⟩
  | true =>
      obtain ⟨parent, found, answered⟩ := may asks
      exact ⟨some parent, item, .passed accepted fun _ => ⟨parent, rfl, answered⟩,
        fun _ => Prod.ext found rfl⟩

/-- A block that passes goes to the importer as it is. -/
theorem Passes.run_verifyAndImport (passes : surroundings.Passes verifier tree block)
    (origin : BlockOrigin) :
    ∃ request : ImportRequest, request.block = block ∧ request.forkChoice = none ∧
      (surroundings.node.verifyAndImport verifier origin block).run.run tree =
        (ForkTree.storeRequest request).run.run tree := by
  obtain ⟨parent?, item, vetting, reads⟩ := passes.exists_vetting
  exact ⟨block.received origin item, vetting.block_received origin, rfl,
    vetting.run_verifyAndImport_ok surroundings.node reads origin⟩

/-- A block whose author may author by the predicate passes wherever its parent is stored. -/
theorem passes_of_letIn {eligible : AuthorId → UInt32 → Bool} {genesis parent : Header}
    {imported : List Block} (judges : surroundings.Judges eligible)
    (reads : ∀ tree hash, surroundings.header? tree hash = .ok (tree.header? hash))
    (letIn : ForkTree.LetIn verifier.scheme (fun _ author slot => eligible author slot = true)
      parent block.header)
    (holds : tree.Holds genesis imported)
    (hasParent : tree.contains block.header.parentHash = true) :
    surroundings.Passes verifier tree block := by
  obtain ⟨author, item, strips, may⟩ := letIn
  refine ⟨author, item, strips, fun _ => ?_⟩
  rw [ForkTree.contains_eq_isSome_block?] at hasParent
  obtain ⟨found, stored⟩ := Option.isSome_iff_exists.mp hasParent
  have known : tree.contains found.header.hash = true := by
    have own := holds.ownHashes _ _ stored
    rw [ForkTree.contains_eq_isSome_block?]
    change (tree.block? found.hash).isSome = true
    rw [own, stored]
    rfl
  refine ⟨found.header, ?_, ?_⟩
  · rw [reads, ForkTree.header?, stored]
    rfl
  · rw [judges tree found.header author _ known, may]

end Surroundings

/-! ## A whole branch -/

namespace ForkTree

/-- A queue over a fresh tree imports the blocks in order, and each becomes the best one. They are
all that the tree stores above its genesis block, and its best block is that of the other tree. -/
def Replays (tree : ForkTree) (genesis : Header) (path : List Block)
    (surroundings : Surroundings) (verifier : Verifier) : Prop :=
  ∀ origin, ∃ replica,
    (surroundings.node.verifyAndImportAll verifier origin path).run (ofGenesis genesis) =
        (path.map fun _ => .ok (.imported true), replica) ∧
      replica.Holds genesis path ∧ replica.best = tree.best ∧
      replica.block? replica.best = tree.block? tree.best

theorem Branch.run_verifyAndImportAll {tree : ForkTree} {genesis : Header} {hash : Hash}
    {path : List Block} {surroundings : Surroundings} {verifier : Verifier}
    (branch : tree.Branch genesis.hash hash path) (own : tree.OwnHashes)
    (few : path.length < UInt32.size)
    (commits : ∀ block ∈ path, block.header.extrinsicsRoot = extrinsicsRoot block.extrinsics)
    (passes : ∀ block ∈ path, ∀ replica imported, replica.Holds genesis imported →
      replica.contains block.header.parentHash = true →
        surroundings.Passes verifier replica block)
    (origin : BlockOrigin) :
    ∃ replica,
      (surroundings.node.verifyAndImportAll verifier origin path).run (ofGenesis genesis) =
          (path.map fun _ => .ok (.imported true), replica) ∧
        replica.Holds genesis path ∧ replica.best = hash := by
  induction branch with
  | root => exact ⟨ofGenesis genesis, rfl, .ofGenesis genesis, rfl⟩
  | @child hash block path stored notGenesis below inductionHypothesis =>
      rw [List.length_append, List.length_singleton] at few
      obtain ⟨replica, ran, holds, best⟩ := inductionHypothesis (Nat.lt_of_succ_lt few)
        (fun other member => commits other (List.mem_append_left _ member))
        (fun other member => passes other (List.mem_append_left _ member))
      obtain rfl := own hash block stored
      have here : block ∈ path ++ [block] := List.mem_concat_self
      have hasParent : replica.contains block.header.parentHash = true := by
        rw [← best]
        exact holds.best
      have fresh : replica.contains block.hash = false := by
        apply holds.contains_eq_false
        intro taken
        obtain ⟨other, member, same⟩ := List.mem_map.mp taken
        rcases List.mem_cons.mp member with rfl | earlier
        · exact notGenesis same.symm
        · exact below.hash_ne_of_mem own stored notGenesis earlier same
      obtain ⟨request, rfl, longest, verified⟩ :=
        (passes block here replica path holds hasParent).run_verifyAndImport origin
      obtain ⟨next, imported, holdsNext, bestNext⟩ :=
        holds.importBlock_on_best best.symm fresh (commits _ here) longest few
      refine ⟨next, ?_, holdsNext, bestNext⟩
      rw [List.map_append]
      refine Node.run_verifyAndImportAll_concat ran ?_
        (verified.trans (run_storeRequest_ok imported))
      intro error member
      obtain ⟨_, _, impossible⟩ := List.mem_map.mp member
      cases impossible

/-- Trees that hold a branch, the one beside other blocks, store the same at its end. -/
theorem Branch.block?_eq {tree replica : ForkTree} {genesis : Header} {hash : Hash}
    {path imported : List Block} (branch : tree.Branch genesis.hash hash path)
    (holds : tree.Holds genesis imported) (held : replica.Holds genesis path) :
    replica.block? hash = tree.block? hash := by
  cases branch with
  | root =>
      have bottom : ({ header := genesis } : Block).hash = genesis.hash := rfl
      rw [(held.block?_eq_some_iff _ _).mpr ⟨genesis_mem_members genesis [], bottom⟩,
        (holds.block?_eq_some_iff _ _).mpr ⟨genesis_mem_members genesis imported, bottom⟩]
  | child stored _ _ =>
      rw [stored, held.block?_eq_some_iff]
      exact ⟨List.mem_cons_of_mem _ List.mem_concat_self, holds.ownHashes _ _ stored⟩

/-- The branch of the best block can be replayed if all its blocks pass. -/
theorem Holds.replays {tree : ForkTree} {genesis : Header} {path imported : List Block}
    {surroundings : Surroundings} {verifier : Verifier} (holds : tree.Holds genesis imported)
    (branch : tree.Branch genesis.hash tree.best path) (few : path.length < UInt32.size)
    (commits : ∀ block ∈ path, block.header.extrinsicsRoot = extrinsicsRoot block.extrinsics)
    (passes : ∀ block ∈ path, ∀ replica imported, replica.Holds genesis imported →
      replica.contains block.header.parentHash = true →
        surroundings.Passes verifier replica block) :
    tree.Replays genesis path surroundings verifier := by
  intro origin
  obtain ⟨replica, ran, held, best⟩ :=
    branch.run_verifyAndImportAll holds.ownHashes few commits passes origin
  exact ⟨replica, ran, held, best, by rw [best, branch.block?_eq holds held]⟩

end ForkTree

namespace Traffic

/-- Whatever calls were at work on a fresh tree and however their turns were mixed, the branch of
its best block can be replayed on a fresh tree, as long as the genesis block and fewer than
`2 ^ 32` others are stored. Where all blocks of the branch were made on command, with inherent data
that hold no other slot than the one that they are made for, it can also be replayed by a queue that
asks whether authors may author, if one predicate of author and slot answers on both sides. -/
theorem replays_performAll {scheme : SignatureScheme} (sound : scheme.Sound) {genesis : Header}
    {events : List Event} {traffic : Traffic}
    (grew : performAll scheme { tree := .ofGenesis genesis } events = traffic)
    (few : traffic.tree.size ≤ 2 ^ 32) :
    ∃ path, traffic.tree.Branch genesis.hash traffic.tree.best path ∧
      (∀ surroundings, traffic.tree.Replays genesis path surroundings { scheme }) ∧
      ∀ eligible : AuthorId → UInt32 → Bool,
        (∀ block ∈ path, ∃ (call : Call) (found : List ForkTree),
          call.Judged eligible ∧ call.made? scheme found = some block) →
        ∀ surroundings : Surroundings, surroundings.Judges eligible →
          (∀ tree hash, surroundings.header? tree hash = .ok (tree.header? hash)) →
          traffic.tree.Replays genesis path surroundings
            { scheme, checksEligibility := true } := by
  have fresh : Complete scheme genesis.hash { tree := .ofGenesis genesis } :=
    ⟨.ofGenesis scheme genesis, by simp⟩
  have complete := (fresh.performAll sound events).tree
  have grows := growsInto_performAll sound { tree := .ofGenesis genesis } events
  rw [grew] at complete grows
  obtain ⟨imported, holds⟩ := grows.exists_holds (.ofGenesis genesis) few
  obtain ⟨path, branch, short⟩ := holds.exists_branch_best
  have above (block : Block) (member : block ∈ path) :
      block.header.Sealed scheme ∧
        block.header.extrinsicsRoot = extrinsicsRoot block.extrinsics := by
    obtain ⟨hash, _, stored, notGenesis, _⟩ := branch.of_mem member
    exact complete hash block stored notGenesis
  refine ⟨path, branch, ?_, ?_⟩
  · intro surroundings
    apply holds.replays branch short fun block member => (above block member).2
    intro block member replica _ _ _
    obtain ⟨author, item, strips⟩ := (above block member).1
    exact ⟨author, item, strips, fun asks => by cases asks⟩
  · intro eligible made surroundings judges reads
    apply holds.replays branch short fun block member => (above block member).2
    intro block member replica held holdsReplica hasParent
    obtain ⟨call, found, judged, authored⟩ := made block member
    have letIn := Call.letIn_of_made? sound authored judged genesis
    exact Surroundings.passes_of_letIn judges reads letIn holdsReplica hasParent

/-- On top of blocks of the tree, everyone may author at slot one. -/
private def firstSlot : Surroundings :=
  { openSurroundings with api := (·.runtimeApi fun _ _ slot => .ok (slot == 1)) }

private def commanded : Call :=
  .onDemand firstSlot [(authorshipKeys, ⟨FixedBytes.replicate 32 1⟩)] (fun _ _ => []) true none

/-- An extrinsic comes in while a block is authored on command. -/
private def commandedEvents : List Event :=
  [.start commanded, .turn 0, .turn 0, .submit [7], .turn 0, .turn 0, .turn 0]

private theorem commanded_judged : commanded.Judged fun _ slot => slot == 1 := by
  constructor
  · intro tree parent author slot known
    exact if_pos known
  · intro tree parent slot provider data slot? provided created read
    cases provided
    rw [Surroundings.slot_of_create_slot created] at read
    cases read
    rfl

/-- The extrinsic is in the block, and the block passes on a node with the same runtime. -/
theorem replays_performAll_commandedEvents :
    ed25519.trusting.Sound ∧
      (performAll ed25519.trusting { tree := .ofGenesis {} } commandedEvents).tree.size ≤ 2 ^ 32 ∧
      ∃ block, block.extrinsics = [[7]] ∧
        (performAll ed25519.trusting { tree := .ofGenesis {} } commandedEvents).tree.Replays {}
          [block] firstSlot { scheme := ed25519.trusting, checksEligibility := true } := by
  have facts :
      (performAll ed25519.trusting { tree := .ofGenesis {} } commandedEvents).tree.size = 2 ∧
      (performAll ed25519.trusting { tree := .ofGenesis {} } commandedEvents).tree.best ≠
        ({} : Header).hash ∧
      ((performAll ed25519.trusting { tree := .ofGenesis {} } commandedEvents).tree.block?
        (performAll ed25519.trusting { tree := .ofGenesis {} } commandedEvents).tree.best).map
          (fun block => (block.extrinsics, block.header.parentHash)) =
            some ([[7]], ({} : Header).hash) ∧
      (performAll ed25519.trusting { tree := .ofGenesis {} } commandedEvents).calls.map
          (fun entry => commanded.made? ed25519.trusting entry.2) =
        [(performAll ed25519.trusting { tree := .ofGenesis {} } commandedEvents).tree.block?
          (performAll ed25519.trusting { tree := .ofGenesis {} } commandedEvents).tree.best] := by
    decide +kernel
  generalize grew : performAll ed25519.trusting { tree := .ofGenesis {} } commandedEvents = traffic
    at facts
  obtain ⟨two, notGenesis, stored, made⟩ := facts
  obtain ⟨block, found, same⟩ := Option.map_eq_some_iff.mp stored
  obtain ⟨includes, onGenesis⟩ := Prod.mk.inj same
  obtain ⟨⟨_, states⟩, _, made⟩ := List.map_eq_singleton_iff.mp made
  have few : traffic.tree.size ≤ 2 ^ 32 := by
    rw [two]
    decide
  obtain ⟨path, branch, _, eligibly⟩ := replays_performAll ed25519.sound_trusting grew few
  obtain ⟨below, parentBranch, rfl⟩ := branch.eq_concat found notGenesis
  rw [onGenesis] at parentBranch
  obtain rfl := parentBranch.eq_nil
  refine ⟨ed25519.sound_trusting, few, block, includes, ?_⟩
  refine eligibly _ ?_ firstSlot commanded_judged.1 fun _ _ => rfl
  intro other member
  obtain rfl := List.mem_singleton.mp member
  exact ⟨commanded, states, commanded_judged, made.trans found⟩

end Traffic

end Authorship
