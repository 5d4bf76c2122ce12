/-
Module: Authorship.Proofs.Node.Eligibility
Purpose: Trees filled by queues that ask the runtime whether the author of a block may author. The
  parent is looked up in one turn and the block is imported in a later one, with turns of others in
  between; a stored block stays stored, so the parent that was asked about is the parent in the end.
  The slot asked for is the number in the header, which nobody compares with the parent's.
Main exports: ForkTree.Vets, ForkTree.Vets.admitted, Surroundings.Asks, Call.AsksEligibility,
  Call.vets_of_leaves?, Traffic.Admitted, Traffic.heights_performAll
-/
import Authorship.Proofs.ForkTree.Heights
import Authorship.Proofs.Node.Traffic

namespace Authorship

variable {scheme : SignatureScheme} {eligible : Header → AuthorId → UInt32 → Prop}
  {given : List ForkTree}

/-- What a turn of a queue that asks for eligibility makes of the tree it finds: nothing, or it
attaches a block that was let in on top of a parent found in one of the given trees. -/
inductive ForkTree.Vets (scheme : SignatureScheme) (eligible : Header → AuthorId → UInt32 → Prop)
    (given : List ForkTree) (now : ForkTree) : ForkTree → Prop where
  | unchanged : Vets scheme eligible given now now
  | attached {block : Block} {entry : Entry} {past : ForkTree} {parent : Header}
      (isNewBest : Bool)
      (attachable : now.Attachable block entry)
      (found : past ∈ given)
      (parentFound : past.header? block.header.parentHash = some parent)
      (letIn : LetIn scheme eligible parent block.header) :
      Vets scheme eligible given now (now.attach block.hash block entry isNewBest)

/-- What was let in on top of a parent found in an earlier tree was let in on top of the parent that
is stored now, since what is stored stays stored. -/
theorem ForkTree.Vets.admitted {genesis : Header} {now left : ForkTree}
    (vets : Vets scheme eligible given now left) (admitted : now.Admitted scheme eligible genesis)
    (kept : ∀ past ∈ given, past.KeptBy now) :
    left.Admitted scheme eligible genesis ∧ now.KeptBy left := by
  cases vets with
  | unchanged => exact ⟨admitted, .refl _⟩
  | attached isNewBest attachable found parentFound letIn =>
      refine ⟨admitted.attach attachable isNewBest ?_, .attach attachable isNewBest⟩
      have stored := (kept _ found).header? parentFound
      rw [header?, block?_of_get? attachable.stored] at stored
      cases stored
      exact letIn

/-! ## Queues -/

namespace Surroundings

/-- Headers come from the tree, and the runtime answers yes only for those who are eligible. -/
structure Asks (surroundings : Surroundings)
    (eligible : Header → AuthorId → UInt32 → Prop) : Prop where
  header? : ∀ tree hash, surroundings.header? tree hash = .ok (tree.header? hash)
  api : ∀ tree parent author slot,
    surroundings.api tree parent author slot = .ok true → eligible parent author slot

namespace Asks

variable {surroundings : Surroundings}

/-- A runtime that goes by the rules answers yes for those who may author by them. -/
theorem validating {α : Type} (reads : ∀ tree hash, surroundings.header? tree hash =
      .ok (tree.header? hash)) (rules : Validation.Rules α) :
    (surroundings.validating rules).Asks fun _ author slot =>
      Validation.canAuthor rules author slot = true where
  header? := reads
  api _ _ _ _ answered := Except.ok.inj answered

theorem header?_keeps (asks : surroundings.Asks eligible) (hash : Hash) :
    (surroundings.node.shared.header? hash).Keeps
      (Turns.Tracked (ForkTree.Vets scheme eligible given) given) fun header? =>
        ∃ past ∈ given, header? = past.header? hash := by
  apply Turns.tracked_inTurn
  intro tree isGiven
  refine ⟨.unchanged, ?_⟩
  intro header? found
  exact ⟨tree, isGiven, Except.ok.inj (found.symm.trans (asks.header? tree hash))⟩

/-- An author who passes at a parent is eligible there. -/
theorem checkEligible_ok (asks : surroundings.Asks eligible) {turns : Turns ForkTree}
    {parent? : Option Header} {header : Header} {author : AuthorId}
    (passes : checkEligible (surroundings.node.shared.api turns) parent? header author = .ok ()) :
    ∃ parent, parent? = some parent ∧ eligible parent author header.number := by
  cases parent? with
  | none => cases passes
  | some parent =>
      refine ⟨parent, rfl, ?_⟩
      obtain ⟨_ | ⟨now, ahead⟩, done⟩ := turns
      · cases passes
      · apply asks.api now
        simp only [checkEligible] at passes
        split at passes
        · cases passes
        · assumption
        · cases passes

/-- A block that passes was let in on top of a parent that was stored when it was looked up. -/
theorem verify_keeps (asks : surroundings.Asks eligible) (request : ImportRequest)
    (bare : request.postDigests = []) :
    (Verifier.verify { scheme, checksEligibility := true } surroundings.node.shared request).Keeps
      (Turns.Tracked (ForkTree.Vets scheme eligible given) given) fun verified =>
        ∃ past ∈ given, ∃ parent,
          past.header? verified.postHeader.parentHash = some parent ∧
            ForkTree.LetIn scheme eligible parent verified.postHeader := by
  unfold Verifier.verify
  split
  · exact Action.Keeps.throw _
  · next author sealItem header strips =>
      have stillBare : { request with header }.postDigests = [] := bare
      apply Action.Keeps.bind (asks.header?_keeps header.parentHash)
      rintro parent? ⟨past, isGiven, rfl⟩
      apply Action.Keeps.bind Action.Keeps.get
      intro turns _
      apply Action.Keeps.bind (Action.Keeps.ofExcept fun _ => asks.checkEligible_ok)
      rintro _ ⟨parent, found, may⟩
      apply Action.Keeps.pure
      rw [postHeader_addPostDigest stillBare]
      obtain ⟨restored, _, _⟩ := Header.stripSeal_eq_ok_iff.mp strips
      exact ⟨past, isGiven, parent, found, author, sealItem, by rw [← restored, strips], may⟩

theorem importBlock_keeps {request : ImportRequest} {past : ForkTree} {parent : Header}
    (isGiven : past ∈ given)
    (found : past.header? request.postHeader.parentHash = some parent)
    (letIn : ForkTree.LetIn scheme eligible parent request.postHeader) :
    (surroundings.node.shared.importBlock request).Keeps
      (Turns.Tracked (ForkTree.Vets scheme eligible given) given) fun _ => True := by
  apply Turns.tracked_inTurn
  intro tree _
  refine ⟨?_, fun _ _ => trivial⟩
  change ForkTree.Vets scheme eligible given tree
    ((ForkTree.storeRequest request).run.run tree).2
  rcases tree.run_storeRequest_cases request with
    ⟨_, _, ran⟩ | ⟨entry, isNewBest, attachable, _, _, ran⟩
  · rw [ran]
    exact .unchanged
  · rw [ran]
    exact .attached isNewBest attachable isGiven found letIn

theorem verifyAndImport_keeps (asks : surroundings.Asks eligible) (origin : BlockOrigin)
    (block : Block) :
    (surroundings.node.shared.verifyAndImport { scheme, checksEligibility := true } origin
      block).Keeps (Turns.Tracked (ForkTree.Vets scheme eligible given) given) fun _ => True := by
  apply Action.Keeps.bind (asks.verify_keeps _ rfl)
  rintro verified ⟨past, isGiven, parent, found, letIn⟩
  exact importBlock_keeps isGiven found letIn

end Asks

end Surroundings

/-! ## Calls -/

namespace Call

/-- The call imports blocks of others, looks their parents up in the tree and asks the runtime. -/
def AsksEligibility (eligible : Header → AuthorId → UInt32 → Prop) : Call → Prop
  | .receive surroundings checksEligibility _ _ =>
    checksEligibility = true ∧ surroundings.Asks eligible
  | .receiveAll surroundings checksEligibility _ _ =>
    checksEligibility = true ∧ surroundings.Asks eligible
  | .onSlot .. | .onDemand .. => False

theorem program_tracks {call : Call} (asks : call.AsksEligibility eligible) :
    Preserves (Turns.Tracked (ForkTree.Vets scheme eligible given) given)
      (call.program scheme) := by
  cases call with
  | receive surroundings checksEligibility origin block =>
      obtain ⟨rfl, asks⟩ := asks
      exact Preserves.bind (Preserves.run (asks.verifyAndImport_keeps origin block))
        fun _ => Preserves.pure _
  | receiveAll surroundings checksEligibility origin blocks =>
      obtain ⟨rfl, asks⟩ := asks
      exact Preserves.bind
        (Node.verifyAndImportAll_preserves (asks.verifyAndImport_keeps origin) blocks)
        fun _ => Preserves.pure _
  | onSlot surroundings keys extra proposingTime info => exact asks.elim
  | onDemand surroundings keys extra createEmpty parent? => exact asks.elim

theorem vets_of_leaves? {call : Call} (asks : call.AsksEligibility eligible)
    {before : List ForkTree} {now left : ForkTree}
    (leaves : call.leaves? scheme before now = some left) :
    ForkTree.Vets scheme eligible (before ++ [now]) now left :=
  relation_of_leaves? (program_tracks asks) leaves

end Call

/-! ## Many calls at once -/

namespace Traffic

/-- Every block of the tree was let in, the calls ask for eligibility, and what the tree stored when
they found it is still stored. -/
structure Admitted (scheme : SignatureScheme) (eligible : Header → AuthorId → UInt32 → Prop)
    (genesis : Header) (traffic : Traffic) : Prop where
  tree : traffic.tree.Admitted scheme eligible genesis
  asks : ∀ call before, (call, before) ∈ traffic.calls → call.AsksEligibility eligible
  kept : ∀ call before, (call, before) ∈ traffic.calls →
    ∀ past ∈ before, past.KeptBy traffic.tree

variable {genesis : Header} {traffic : Traffic}

namespace Admitted

theorem start (admitted : traffic.Admitted scheme eligible genesis) {call : Call}
    (asks : call.AsksEligibility eligible) :
    (traffic.perform scheme (.start call)).Admitted scheme eligible genesis where
  tree := admitted.tree
  asks other before member := by
    rcases List.mem_append.mp member with old | new
    · exact admitted.asks other before old
    · cases List.mem_singleton.mp new
      exact asks
  kept other before member := by
    rcases List.mem_append.mp member with old | new
    · exact admitted.kept other before old
    · cases List.mem_singleton.mp new
      simp

theorem turn (admitted : traffic.Admitted scheme eligible genesis) (index : Nat) :
    (traffic.perform scheme (.turn index)).Admitted scheme eligible genesis := by
  rcases traffic.perform_turn_cases scheme index with
    same | ⟨call, before, left, calls, started, leaves, turned, known⟩
  · rw [same]
    exact admitted
  · have asks := admitted.asks call before started
    have keptNow : ∀ past ∈ before ++ [traffic.tree], past.KeptBy traffic.tree := by
      intro past found
      rcases List.mem_append.mp found with old | new
      · exact admitted.kept call before started past old
      · obtain rfl := List.mem_singleton.mp new
        exact .refl _
    obtain ⟨grown, kept⟩ := (Call.vets_of_leaves? asks leaves).admitted admitted.tree keptNow
    rw [turned]
    refine ⟨grown, ?_, ?_⟩
    · intro other otherBefore member
      rcases known _ member with old | new
      · exact admitted.asks other otherBefore old
      · cases new
        exact asks
    · intro other otherBefore member past found
      rcases known _ member with old | new
      · exact (admitted.kept other otherBefore old past found).trans kept
      · cases new
        exact (keptNow past found).trans kept

theorem performAll (admitted : traffic.Admitted scheme eligible genesis) {events : List Event}
    (asks : ∀ call, .start call ∈ events → call.AsksEligibility eligible) :
    (traffic.performAll scheme events).Admitted scheme eligible genesis := by
  induction events generalizing traffic with
  | nil => exact admitted
  | cons event rest inductionHypothesis =>
      have next : (traffic.perform scheme event).Admitted scheme eligible genesis := by
        cases event with
        | submit extrinsic => exact ⟨admitted.tree.submit extrinsic, admitted.asks, admitted.kept⟩
        | start call => exact admitted.start (asks call List.mem_cons_self)
        | turn index => exact admitted.turn index
      exact inductionHypothesis next fun call later => asks call (List.mem_cons_of_mem _ later)

end Admitted

/-- Whatever queues that ask for eligibility make of a fresh tree over a genesis block of number
zero, and however their turns are mixed, every block above the genesis block lies one deeper than a
stored parent, and the runtime let its author in at this parent, at the slot that is the number of
the block. The number is the depth, and the header points to the parent, for all blocks just when
each number follows that of the parent; no queue sees to this. -/
theorem heights_performAll {events : List Event} {tree : ForkTree} {genesis : Header}
    (zero : genesis.number = 0)
    (asks : ∀ call, .start call ∈ events → call.AsksEligibility eligible)
    (grew : (performAll scheme { tree := .ofGenesis genesis } events).tree = tree) :
    (∀ hash block, tree.block? hash = some block → hash ≠ genesis.hash →
      ∃ parent depth, tree.header? block.header.parentHash = some parent ∧
        tree.depth? block.header.parentHash = some depth ∧ tree.depth? hash = some (depth + 1) ∧
        ForkTree.LetIn scheme eligible parent block.header) ∧
      (tree.AtHeights genesis.hash ↔ tree.NumbersFollow genesis.hash) := by
  have fresh : Admitted scheme eligible genesis { tree := .ofGenesis genesis } :=
    ⟨.ofGenesis genesis, by simp, by simp⟩
  have admitted := (fresh.performAll asks).tree
  rw [grew] at admitted
  exact ⟨admitted.above, admitted.atHeights_iff zero⟩

/-! ## A number that does not follow -/

private def turnSeed (value : UInt8) : Seed := ⟨FixedBytes.replicate 32 value⟩

/-- Three authors take turns: the first at slot zero, the second at slot one. -/
private def takingTurns : Validation.Rules AuthorId where
  lookup := some
  filter := RoundRobin.filter
    [ed25519.publicKey (turnSeed 1), ed25519.publicKey (turnSeed 2), ed25519.publicKey (turnSeed 3)]

/-- On top of the genesis block, with the number of the genesis block. -/
private def secondZero : Header where
  parentHash := ({} : Header).hash
  number := 0
  extrinsicsRoot := extrinsicsRoot []
  digest := [.ofAuthor (ed25519.publicKey (turnSeed 1))]

/-- The block of the first author, who is out of turn at depth one. -/
private def outOfTurn : Block where
  header := secondZero.push
    (.ofSignature (ed25519.sign (turnSeed 1) secondZero.hash.toBytes))

private def outOfTurnEvents : List Event :=
  [.start (.receive (openSurroundings.validating takingTurns) true .broadcast outOfTurn), .turn 0,
    .turn 0]

private theorem outOfTurnEvents_ask (call : Call) (started : .start call ∈ outOfTurnEvents) :
    call.AsksEligibility fun _ author slot =>
      Validation.canAuthor takingTurns author slot = true := by
  simp only [outOfTurnEvents, List.mem_cons, Event.start.injEq, reduceCtorEq, List.not_mem_nil,
    or_false] at started
  subst started
  exact ⟨rfl, .validating (fun _ _ => rfl) takingTurns⟩

private theorem outOfTurnEvents_store :
    (performAll ed25519 { tree := .ofGenesis {} } outOfTurnEvents).tree.block? outOfTurn.hash =
        some outOfTurn ∧
      (performAll ed25519 { tree := .ofGenesis {} } outOfTurnEvents).tree.depth? outOfTurn.hash =
        some 1 ∧
      outOfTurn.hash ≠ ({} : Header).hash := by
  decide +kernel

/-- The author of a block of number zero was eligible at slot zero, one deep as the block is. -/
theorem heights_performAll_outOfTurn :
    ({} : Header).number = 0 ∧
      (∀ call, .start call ∈ outOfTurnEvents → call.AsksEligibility fun _ author slot =>
        Validation.canAuthor takingTurns author slot = true) ∧
      ∃ tree, (performAll ed25519 { tree := .ofGenesis {} } outOfTurnEvents).tree = tree ∧
        tree.block? outOfTurn.hash = some outOfTurn ∧
        (∃ author item, (outOfTurn.header.stripSeal ed25519).1 = .ok (author, item) ∧
          Validation.canAuthor takingTurns author outOfTurn.header.number = true) ∧
        (tree.AtHeights ({} : Header).hash ↔ tree.NumbersFollow ({} : Header).hash) := by
  obtain ⟨stored, _, notGenesis⟩ := outOfTurnEvents_store
  have zero : ({} : Header).number = 0 := rfl
  obtain ⟨above, heights⟩ := heights_performAll zero outOfTurnEvents_ask rfl
  obtain ⟨_, _, _, _, _, letIn⟩ := above _ _ stored notGenesis
  exact ⟨zero, outOfTurnEvents_ask, _, rfl, stored, letIn, heights⟩

/-- A queue that asks for eligibility stores, one deep, a block of number zero that says it has no
parent. Its author is in turn at slot zero, and not at slot one. -/
theorem outOfTurn_stored :
    ({} : Header).number = 0 ∧
      (∀ call, .start call ∈ outOfTurnEvents → call.AsksEligibility fun _ author slot =>
        Validation.canAuthor takingTurns author slot = true) ∧
      (performAll ed25519 { tree := .ofGenesis {} } outOfTurnEvents).tree.block? outOfTurn.hash =
        some outOfTurn ∧
      (performAll ed25519 { tree := .ofGenesis {} } outOfTurnEvents).tree.depth? outOfTurn.hash =
        some 1 ∧
      outOfTurn.hash ≠ ({} : Header).hash ∧
      outOfTurn.header.number = 0 ∧ outOfTurn.header.parent? = none ∧
      outOfTurn.header.author? = some (ed25519.publicKey (turnSeed 1)) ∧
      Validation.canAuthor takingTurns (ed25519.publicKey (turnSeed 1)) 1 = false := by
  obtain ⟨stored, deep, notGenesis⟩ := outOfTurnEvents_store
  refine ⟨rfl, outOfTurnEvents_ask, stored, deep, notGenesis, rfl, rfl,
    Digest.author?_ofAuthor_cons _ _, ?_⟩
  decide +kernel

end Traffic

end Authorship
