/-
Module: Authorship.Proofs.Node.Traffic
Purpose: A fork tree in use by many calls at once: calls that import blocks of others, call by call
  or in a row, calls that author the block of a slot or a block on command, and submissions. Their
  turns at the tree come in any order, and clients, inherent data and extra logs are whatever they
  are. All that such a tree ever stores above its genesis block is sealed and complete.
Main exports: ForkTree.Complete, Surroundings, Call, Traffic, Traffic.perform, Traffic.performAll,
  Traffic.perform_turn_cases, Traffic.growsInto_performAll, Traffic.complete_performAll
-/
import Authorship.Proofs.ForkTree.Shape
import Authorship.Proofs.Node.Turns

namespace Authorship

namespace ForkTree

/-- Every stored block, the genesis block apart, has a header that carries a seal that checks and
commits to the extrinsics of the block. -/
def Complete (scheme : SignatureScheme) (genesis : Hash) (tree : ForkTree) : Prop :=
  ∀ hash block, tree.block? hash = some block → hash ≠ genesis →
    block.header.Sealed scheme ∧ block.header.extrinsicsRoot = extrinsicsRoot block.extrinsics

namespace Complete

variable {scheme : SignatureScheme} {genesis : Hash} {tree : ForkTree}

theorem ofGenesis (scheme : SignatureScheme) (header : Header) :
    (ofGenesis header).Complete scheme header.hash := by
  intro hash block stored notGenesis
  rw [block?_ofGenesis, if_neg notGenesis.symm] at stored
  cases stored

theorem submit (complete : tree.Complete scheme genesis) (extrinsic : Extrinsic) :
    (tree.submit extrinsic).Complete scheme genesis := by
  intro hash block stored notGenesis
  rw [block?_submit] at stored
  exact complete hash block stored notGenesis

theorem importBlock (complete : tree.Complete scheme genesis) {request : ImportRequest}
    (isSealed : request.postHeader.Sealed scheme) :
    ((ForkTree.storeRequest request).run.run tree).2.Complete scheme genesis := by
  rcases tree.run_storeRequest_cases request with
    ⟨outcome, _, ran⟩ | ⟨parent, isNewBest, attachable, commits, _, ran⟩
  · rw [ran]
    exact complete
  · rw [ran]
    intro hash block stored notGenesis
    rw [block?_attach attachable] at stored
    split at stored
    · cases stored
      exact ⟨isSealed, commits⟩
    · exact complete hash block stored notGenesis

end Complete

end ForkTree

/-! ## Calls -/

/-- What a call has beside the tree: a runtime, a source of headers and a maker of inherent data. At
each state of the tree they may answer what they like. -/
structure Surroundings where
  api : ForkTree → RuntimeApi
  bestHeader : ForkTree → Except ConsensusError Header
  header? : ForkTree → Hash → Except ConsensusError (Option Header)
  inherents : ForkTree → InherentFactory

namespace Surroundings

/-- The node that proposes and imports with the tree and has all else from the surroundings. -/
def node (surroundings : Surroundings) : Node ForkTree :=
  { ForkTree.localNode surroundings.api fun _ _ => .ok .nothing with
    bestHeader := do .ofExcept (surroundings.bestHeader (← get))
    header? := fun hash => do .ofExcept (surroundings.header? (← get) hash)
    inherents := fun parent slot => do .ofExcept (surroundings.inherents (← get) parent slot) }

/-- The surroundings with the runtime that goes by the rules. -/
def validating {α : Type} (surroundings : Surroundings) (rules : Validation.Rules α) :
    Surroundings :=
  { surroundings with api := fun _ => Validation.api rules }

/-- What proposes is a proposer of the tree, at whatever state it finds the tree. -/
theorem proposer_ok {surroundings : Surroundings} {parent : Header} {propose : Propose ForkTree}
    {start prepared : ForkTree}
    (prepares : (surroundings.node.proposer parent).run.run start = (.ok propose, prepared)) :
    ∃ proposer, start.proposer parent = .ok proposer ∧
      ∀ data digest milliseconds limit tree,
        (propose data digest milliseconds limit).run.run tree =
          (proposer.propose tree digest limit, tree) := by
  obtain ⟨proposer, _, found, prepares⟩ := Attempt.run_bind_ok prepares
  rw [ForkTree.run_prepare] at found
  obtain ⟨known, rfl⟩ := Prod.mk.inj found
  cases prepares
  exact ⟨proposer, known, fun _ digest _ limit tree =>
    ForkTree.run_fill tree proposer digest limit⟩

section Imports

variable (surroundings : Surroundings) {scheme : SignatureScheme}

/-- Neither preparing to propose nor proposing changes the tree. -/
theorem proposer_keeps {invariant : ForkTree → Prop} (parent : Header) :
    (surroundings.node.proposer parent).Keeps invariant fun propose =>
      ∀ data digest milliseconds limit (other : ForkTree → Prop),
        (propose data digest milliseconds limit).Keeps other fun block =>
          block.header.digest = digest := by
  have prepares : (ForkTree.prepare parent).Keeps invariant fun _ => True :=
    Action.Keeps.of_looks (ForkTree.run_prepare · parent) fun _ _ _ => trivial
  apply Action.Keeps.bind prepares
  intro proposer _
  apply Action.Keeps.pure
  intro data digest milliseconds limit other
  apply Action.Keeps.of_looks (ForkTree.run_fill · proposer digest limit)
  intro tree block proposed
  obtain ⟨_, carries, _⟩ := Proposer.propose_ok proposed
  exact carries

/-- Only importing can break an invariant. -/
theorem keeps_of_imports {invariant : ForkTree → Prop}
    (imports : ∀ tree request, request.postHeader.Sealed scheme → invariant tree →
      invariant ((ForkTree.storeRequest request).run.run tree).2) :
    surroundings.node.Keeps scheme invariant where
  bestHeader := Action.Keeps.ofExcept_get surroundings.bestHeader
  header? hash := Action.Keeps.ofExcept_get (surroundings.header? · hash)
  inherents parent slot := Action.Keeps.ofExcept_get (surroundings.inherents · parent slot)
  proposer parent := (surroundings.proposer_keeps parent).mono fun _ proposes data digest
    milliseconds limit => proposes data digest milliseconds limit invariant
  importBlock request isSealed := by
    intro tree holds
    exact ⟨imports tree request isSealed holds, fun _ _ => trivial⟩

/-- Only importing can take a tree to another one, turn after turn. -/
theorem tracks_of_imports {relation : ForkTree → ForkTree → Prop}
    (refl : ∀ tree, relation tree tree)
    (imports : ∀ tree request, request.postHeader.Sealed scheme →
      relation tree ((ForkTree.storeRequest request).run.run tree).2)
    (given : List ForkTree) :
    surroundings.node.shared.Keeps scheme (Turns.Tracked relation given) where
  bestHeader := Turns.tracked_inTurn fun tree _ => ⟨refl tree, fun _ _ => trivial⟩
  header? hash := Turns.tracked_inTurn fun tree _ => ⟨refl tree, fun _ _ => trivial⟩
  inherents parent slot := Turns.tracked_inTurn fun tree _ => ⟨refl tree, fun _ _ => trivial⟩
  proposer parent := by
    apply Action.Keeps.bind
      (Turns.tracked_inTurn fun tree _ => surroundings.proposer_keeps parent tree (refl tree))
    intro propose proposes
    apply Action.Keeps.pure
    intro data digest milliseconds limit
    exact Turns.tracked_inTurn fun tree _ =>
      proposes data digest milliseconds limit (relation tree) tree (refl tree)
  importBlock request isSealed := Turns.tracked_inTurn fun tree _ =>
    ⟨imports tree request isSealed, fun _ _ => trivial⟩

end Imports

theorem keeps (surroundings : Surroundings) (scheme : SignatureScheme) (genesis : Hash) :
    surroundings.node.Keeps scheme (·.Complete scheme genesis) :=
  surroundings.keeps_of_imports fun _ _ isSealed complete => complete.importBlock isSealed

end Surroundings

/-- A call that may be at work on the tree while others are. -/
inductive Call where
  /-- Verify and import a block of others. -/
  | receive (surroundings : Surroundings) (checksEligibility : Bool) (origin : BlockOrigin)
      (block : Block)
  /-- Verify and import blocks of others, up to the first that fails. -/
  | receiveAll (surroundings : Surroundings) (checksEligibility : Bool) (origin : BlockOrigin)
      (blocks : List Block)
  /-- Author the block of a slot with keys that were added one after the other. -/
  | onSlot (surroundings : Surroundings) (keys : List (KeyType × Seed)) (extra : ExtraDigests)
      (proposingTime : UInt64) (info : SlotInfo)
  /-- Author a block on command with keys that were added one after the other. -/
  | onDemand (surroundings : Surroundings) (keys : List (KeyType × Seed)) (extra : ExtraDigests)
      (createEmpty : Bool) (parent? : Option Hash)

namespace Call

/-- What the call does, turn after turn. -/
def program (scheme : SignatureScheme) : Call → StateM (Turns ForkTree) Unit
  | .receive surroundings checksEligibility origin block => do
    let _ ←
      (surroundings.node.shared.verifyAndImport { scheme, checksEligibility } origin block).run
  | .receiveAll surroundings checksEligibility origin blocks => do
    let _ ← surroundings.node.shared.verifyAndImportAll { scheme, checksEligibility } origin blocks
  | .onSlot surroundings keys extra proposingTime info => do
    let keyring := (KeyStore.addAll scheme {} keys).keyring scheme
    let _ ← SlotWorker.onSlot
      { node := surroundings.node.shared, keyring, extra, proposingTime } info
  | .onDemand surroundings keys extra createEmpty parent? => do
    let keyring := (KeyStore.addAll scheme {} keys).keyring scheme
    let _ ← (OnDemand.Engine.author
      { node := surroundings.node.shared, keyring, extra } createEmpty parent?).run

/-- The turns that the call takes when it finds the tree in the given states. -/
def turns (scheme : SignatureScheme) (call : Call) (found : List ForkTree) :
    List (ForkTree × ForkTree) :=
  ((call.program scheme).run { ahead := found }).2.done

/-- How the call leaves the tree in its next turn, if it takes one: it has found the tree in some
states so far and finds it in another one now. What it does depends on these states alone, so the
turns before the next one are those that it took already. -/
def leaves? (scheme : SignatureScheme) (call : Call) (before : List ForkTree) (now : ForkTree) :
    Option ForkTree :=
  ((call.turns scheme (before ++ [now]))[before.length]?).map Prod.snd

variable {scheme : SignatureScheme} {genesis : Hash}

/-- A call keeps what every node that it could share keeps. -/
theorem program_preserves (sound : scheme.Sound) {invariant : Turns ForkTree → Prop}
    (keeps : ∀ surroundings : Surroundings, surroundings.node.shared.Keeps scheme invariant)
    (call : Call) : Preserves invariant (call.program scheme) := by
  cases call with
  | receive surroundings checksEligibility origin block =>
      have received := Preserves.run
        (Node.verifyAndImport_keeps { scheme, checksEligibility } (keeps surroundings) origin block)
      exact Preserves.bind received fun _ => Preserves.pure _
  | receiveAll surroundings checksEligibility origin blocks =>
      have received := Node.verifyAndImportAll_preserves
        (Node.verifyAndImport_keeps { scheme, checksEligibility } (keeps surroundings) origin)
        blocks
      exact Preserves.bind received fun _ => Preserves.pure _
  | onSlot surroundings keys extra proposingTime info =>
      have signs := KeyStore.sound_keyring sound (KeyStore.faithful_addAll scheme keys)
      have authored := SlotWorker.onSlot_preserves
        { node := surroundings.node.shared, keyring := _, extra, proposingTime }
        (keeps surroundings) signs info
      exact Preserves.bind authored fun _ => Preserves.pure _
  | onDemand surroundings keys extra createEmpty parent? =>
      have signs := KeyStore.sound_keyring sound (KeyStore.faithful_addAll scheme keys)
      have authored := Preserves.run (OnDemand.Engine.author_keeps
        { node := surroundings.node.shared, keyring := _, extra } (keeps surroundings) signs
        createEmpty parent?)
      exact Preserves.bind authored fun _ => Preserves.pure _

/-- A call that finds only complete trees leaves a complete one. -/
theorem complete_of_leaves? (sound : scheme.Sound) {call : Call} {before : List ForkTree}
    {now left : ForkTree} (leaves : call.leaves? scheme before now = some left)
    (complete : ∀ tree ∈ before ++ [now], tree.Complete scheme genesis) :
    left.Complete scheme genesis := by
  have keeps (surroundings : Surroundings) :=
    (surroundings.keeps scheme genesis).shared (before ++ [now])
  have keeping := program_preserves sound keeps call _ (Turns.Keeping.start complete)
  rw [leaves?, Option.map_eq_some_iff] at leaves
  obtain ⟨turn, taken, rfl⟩ := leaves
  exact keeping.left turn (List.mem_of_getElem? taken)

/-- A call all of whose turns go by a relation does so in its next turn. -/
theorem relation_of_leaves? {relation : ForkTree → ForkTree → Prop} {call : Call}
    {before : List ForkTree} {now left : ForkTree}
    (tracks : Preserves (Turns.Tracked relation (before ++ [now])) (call.program scheme))
    (leaves : call.leaves? scheme before now = some left) : relation now left := by
  have tracked := tracks _ (Turns.Tracked.start relation (before ++ [now]))
  rw [leaves?, Option.map_eq_some_iff] at leaves
  obtain ⟨turn, taken, rfl⟩ := leaves
  have foundNow := tracked.given_eq taken
  rw [List.getElem?_concat_length] at foundNow
  cases foundNow
  exact tracked.taken turn (List.mem_of_getElem? taken)

/-- A turn of a call makes the tree grow. -/
theorem growsInto_of_leaves? (sound : scheme.Sound) {call : Call} {before : List ForkTree}
    {now left : ForkTree} (leaves : call.leaves? scheme before now = some left) :
    now.GrowsInto left := by
  have keeps (surroundings : Surroundings) := surroundings.tracks_of_imports (fun _ => .same)
    (fun tree request (_ : request.postHeader.Sealed scheme) =>
      ForkTree.GrowsInto.importBlock tree request) (before ++ [now])
  exact relation_of_leaves? (program_preserves sound keeps call) leaves

end Call

/-! ## Many calls at once -/

/-- A tree and the calls at work on it, each with the states in which it found the tree so far. -/
structure Traffic where
  tree : ForkTree
  calls : List (Call × List ForkTree) := []

namespace Traffic

/-- What may happen next: a submission, the start of a call, a turn of a call that was started. -/
inductive Event where
  | submit (extrinsic : Extrinsic)
  | start (call : Call)
  | turn (index : Nat)

/-- A tree and the calls on it after an event. A call that was not started, or has taken its last
turn, does nothing. -/
def perform (scheme : SignatureScheme) (traffic : Traffic) : Event → Traffic
  | .submit extrinsic => { traffic with tree := traffic.tree.submit extrinsic }
  | .start call => { traffic with calls := traffic.calls ++ [(call, [])] }
  | .turn index =>
    match traffic.calls[index]? with
    | none => traffic
    | some (call, before) =>
      match call.leaves? scheme before traffic.tree with
      | none => traffic
      | some tree =>
        { tree, calls := traffic.calls.set index (call, before ++ [traffic.tree]) }

/-- Let events happen one after the other. -/
def performAll (scheme : SignatureScheme) (traffic : Traffic) (events : List Event) : Traffic :=
  events.foldl (perform scheme) traffic

variable {scheme : SignatureScheme} {genesis : Hash} {traffic : Traffic}

/-- A turn does nothing, or the tree is left as a call that was started leaves it; of this call it
is then known how it found the tree this time, and of the others what was known before. -/
theorem perform_turn_cases (scheme : SignatureScheme) (traffic : Traffic) (index : Nat) :
    traffic.perform scheme (.turn index) = traffic ∨
    ∃ call before tree calls, (call, before) ∈ traffic.calls ∧
      call.leaves? scheme before traffic.tree = some tree ∧
      traffic.perform scheme (.turn index) = { tree, calls } ∧
      ∀ entry ∈ calls, entry ∈ traffic.calls ∨ entry = (call, before ++ [traffic.tree]) := by
  simp only [perform]
  cases started : traffic.calls[index]? with
  | none => exact .inl rfl
  | some entry =>
      obtain ⟨call, before⟩ := entry
      cases leaves : call.leaves? scheme before traffic.tree with
      | none => exact .inl (by simp only [leaves])
      | some left =>
          exact .inr ⟨call, before, left, traffic.calls.set index (call, before ++ [traffic.tree]),
            List.mem_of_getElem? started, leaves, by simp only [leaves],
            fun _ => List.mem_or_eq_of_mem_set⟩

/-- Whatever happens, the tree grows. -/
theorem growsInto_performAll (sound : scheme.Sound) (traffic : Traffic) (events : List Event) :
    traffic.tree.GrowsInto (traffic.performAll scheme events).tree := by
  induction events generalizing traffic with
  | nil => exact .same
  | cons event rest inductionHypothesis =>
      have step : traffic.tree.GrowsInto (traffic.perform scheme event).tree := by
        cases event with
        | submit extrinsic => exact .submit .same extrinsic
        | start call => exact .same
        | turn index =>
            rcases traffic.perform_turn_cases scheme index with
              same | ⟨_, _, left, calls, _, leaves, turned, _⟩
            · rw [same]
              exact .same
            · rw [turned]
              exact Call.growsInto_of_leaves? sound leaves
      exact step.trans (inductionHypothesis _)

/-- The tree is complete, and so were all the states in which a call found it. -/
structure Complete (scheme : SignatureScheme) (genesis : Hash) (traffic : Traffic) : Prop where
  tree : traffic.tree.Complete scheme genesis
  found : ∀ call before, (call, before) ∈ traffic.calls →
    ∀ tree ∈ before, tree.Complete scheme genesis

namespace Complete

theorem start (complete : traffic.Complete scheme genesis) (call : Call) :
    (traffic.perform scheme (.start call)).Complete scheme genesis where
  tree := complete.tree
  found other before member := by
    rcases List.mem_append.mp member with old | new
    · exact complete.found other before old
    · cases List.mem_singleton.mp new
      simp

theorem turn (sound : scheme.Sound) (complete : traffic.Complete scheme genesis) (index : Nat) :
    (traffic.perform scheme (.turn index)).Complete scheme genesis := by
  rcases traffic.perform_turn_cases scheme index with
    same | ⟨call, before, left, calls, started, leaves, turned, known⟩
  · rw [same]
    exact complete
  · have foundSoFar : ∀ tree ∈ before ++ [traffic.tree], tree.Complete scheme genesis := by
      intro tree member
      rcases List.mem_append.mp member with old | new
      · exact complete.found call before started tree old
      · obtain rfl := List.mem_singleton.mp new
        exact complete.tree
    rw [turned]
    refine ⟨Call.complete_of_leaves? sound leaves foundSoFar, ?_⟩
    intro other otherBefore member
    rcases known _ member with old | new
    · exact complete.found other otherBefore old
    · cases new
      exact foundSoFar

theorem perform (sound : scheme.Sound) (complete : traffic.Complete scheme genesis)
    (event : Event) : (traffic.perform scheme event).Complete scheme genesis := by
  cases event with
  | submit extrinsic => exact ⟨complete.tree.submit extrinsic, complete.found⟩
  | start call => exact complete.start call
  | turn index => exact complete.turn sound index

theorem performAll (sound : scheme.Sound) (complete : traffic.Complete scheme genesis)
    (events : List Event) : (traffic.performAll scheme events).Complete scheme genesis := by
  induction events generalizing traffic with
  | nil => exact complete
  | cons event rest inductionHypothesis => exact inductionHypothesis (complete.perform sound event)

end Complete

/-- Whatever calls are at work on a fresh tree and however their turns are mixed, every block that
the tree stores above its genesis block has a header that carries a seal that checks and commits to
the extrinsics of the block. -/
theorem complete_performAll (sound : scheme.Sound) (genesis : Header) (events : List Event) :
    (performAll scheme { tree := .ofGenesis genesis } events).tree.Complete scheme
      genesis.hash := by
  have fresh : Complete scheme genesis.hash { tree := .ofGenesis genesis } :=
    ⟨.ofGenesis scheme genesis, by simp⟩
  exact (fresh.performAll sound events).tree

/-- Everyone may author, and headers come from the tree. -/
def openSurroundings : Surroundings where
  api _ _ _ _ := .ok true
  bestHeader tree :=
    match tree.bestHeader? with
    | some header => .ok header
    | none => .error (.unknownBlock tree.best)
  header? tree hash := .ok (tree.header? hash)
  inherents _ _ slot := .ok (.slot slot)

/-- A slot in which extrinsics come in while its block is being authored. -/
private def interruptedSlot : List Event :=
  [.start (.onSlot openSurroundings [(authorshipKeys, ⟨FixedBytes.replicate 32 1⟩)] (fun _ _ => [])
      1000 { slot := 1, head := {}, duration := ⟨6, 0⟩ }),
    .turn 0, .submit [7], .turn 0, .turn 0, .submit [8], .turn 0]

theorem complete_performAll_interruptedSlot :
    ed25519.trusting.Sound ∧
      ∃ block, (performAll ed25519.trusting { tree := .ofGenesis {} } interruptedSlot).tree.block?
          (performAll ed25519.trusting { tree := .ofGenesis {} } interruptedSlot).tree.best =
            some block ∧
        block.header.Sealed ed25519.trusting ∧
        block.header.extrinsicsRoot = extrinsicsRoot block.extrinsics := by
  have stored :
      (performAll ed25519.trusting { tree := .ofGenesis {} } interruptedSlot).tree.best ≠
        ({} : Header).hash ∧
      ((performAll ed25519.trusting { tree := .ofGenesis {} } interruptedSlot).tree.block?
        (performAll ed25519.trusting { tree := .ofGenesis {} } interruptedSlot).tree.best).isSome =
          true := by
    decide +kernel
  obtain ⟨authored, hasBlock⟩ := stored
  obtain ⟨block, found⟩ := Option.isSome_iff_exists.mp hasBlock
  exact ⟨ed25519.sound_trusting, block, found,
    complete_performAll ed25519.sound_trusting {} interruptedSlot _ block found authored⟩

end Traffic

end Authorship
