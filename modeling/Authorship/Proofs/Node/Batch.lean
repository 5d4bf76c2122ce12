/-
Module: Authorship.Proofs.Node.Batch
Purpose: Blocks of others, one after the other up to the first that fails. The outcomes are those of
  the blocks one by one, and a list in two pieces is tried piece by piece as long as nothing fails.
  At a node whose state is a tree, what was accepted once is found stored ever after, as long as the
  runtime goes by author and slot.
Main exports: Node.Batch, Node.exists_batch, Node.verifyAndImportAll_append,
  ForkTree.AnswersBy, ForkTree.verifyAndImportAll_batch
-/
import Authorship.Proofs.ForkTree.Heights
import Authorship.Proofs.Node.Receipt

namespace Authorship

namespace Node

variable {σ : Type} {node : Node σ} {verifier : Verifier} {origin : BlockOrigin}

/-! ## One block after the other -/

section Cons

variable {block : Block} {start next : σ}

theorem run_verifyAndImportAll_cons_ok {outcome : ImportOutcome} (rest : List Block)
    (began : (node.verifyAndImport verifier origin block).run.run start = (.ok outcome, next)) :
    (node.verifyAndImportAll verifier origin (block :: rest)).run start =
      (.ok outcome :: ((node.verifyAndImportAll verifier origin rest).run next).1,
        ((node.verifyAndImportAll verifier origin rest).run next).2) := by
  rw [verifyAndImportAll, StateT.run_bind, began]
  rfl

theorem run_verifyAndImportAll_cons_error {error : ConsensusError} (rest : List Block)
    (began : (node.verifyAndImport verifier origin block).run.run start = (.error error, next)) :
    (node.verifyAndImportAll verifier origin (block :: rest)).run start =
      ([.error error], next) := by
  rw [verifyAndImportAll, StateT.run_bind, began]
  rfl

end Cons

/-- Blocks tried in order from a state, with the outcomes of those that were tried and the state
after them. -/
inductive Batch (node : Node σ) (verifier : Verifier) (origin : BlockOrigin) :
    List Block → σ → List (Except ConsensusError ImportOutcome) → σ → Prop where
  | done (state : σ) : Batch node verifier origin [] state [] state
  | stopped {block : Block} {start next : σ} {error : ConsensusError} (rest : List Block)
      (failed : (node.verifyAndImport verifier origin block).run.run start = (.error error, next)) :
      Batch node verifier origin (block :: rest) start [.error error] next
  | went {block : Block} {rest : List Block} {start next final : σ} {outcome : ImportOutcome}
      {outcomes : List (Except ConsensusError ImportOutcome)}
      (began : (node.verifyAndImport verifier origin block).run.run start = (.ok outcome, next))
      (later : Batch node verifier origin rest next outcomes final) :
      Batch node verifier origin (block :: rest) start (.ok outcome :: outcomes) final

variable {blocks others : List Block} {start middle final : σ}
  {outcomes further : List (Except ConsensusError ImportOutcome)}

theorem Batch.run_eq (batch : node.Batch verifier origin blocks start outcomes final) :
    (node.verifyAndImportAll verifier origin blocks).run start = (outcomes, final) := by
  induction batch with
  | done state => rfl
  | stopped rest failed => exact run_verifyAndImportAll_cons_error rest failed
  | went began later inductionHypothesis =>
      rw [run_verifyAndImportAll_cons_ok _ began, inductionHypothesis]

theorem exists_batch (node : Node σ) (verifier : Verifier) (origin : BlockOrigin)
    (blocks : List Block) (start : σ) :
    ∃ outcomes final, node.Batch verifier origin blocks start outcomes final := by
  induction blocks generalizing start with
  | nil => exact ⟨[], start, .done start⟩
  | cons block rest inductionHypothesis =>
      cases tried : (node.verifyAndImport verifier origin block).run.run start with
      | mk result next =>
          cases result with
          | error error => exact ⟨_, next, .stopped rest tried⟩
          | ok outcome =>
              obtain ⟨outcomes, final, later⟩ := inductionHypothesis next
              exact ⟨_, final, .went tried later⟩

theorem batch_of_run_eq
    (ran : (node.verifyAndImportAll verifier origin blocks).run start = (outcomes, final)) :
    node.Batch verifier origin blocks start outcomes final := by
  obtain ⟨_, _, batch⟩ := exists_batch node verifier origin blocks start
  rw [batch.run_eq] at ran
  cases ran
  exact batch

namespace Batch

/-- The blocks that were tried, each by itself. -/
theorem run_mapM (batch : node.Batch verifier origin blocks start outcomes final) :
    ((blocks.take outcomes.length).mapM fun block =>
      (node.verifyAndImport verifier origin block).run).run start = (outcomes, final) := by
  induction batch with
  | done state => rfl
  | stopped rest failed =>
      rw [List.length_singleton, List.take_succ_cons, List.take_zero, List.mapM_cons,
        StateM.run_bind_eq failed]
      rfl
  | went began later inductionHypothesis =>
      rw [List.length_cons, List.take_succ_cons, List.mapM_cons, StateM.run_bind_eq began,
        StateM.run_bind_eq inductionHypothesis]
      rfl

theorem length_le (batch : node.Batch verifier origin blocks start outcomes final) :
    outcomes.length ≤ blocks.length := by
  induction batch with
  | done => exact Nat.le_refl 0
  | stopped => exact Nat.succ_le_succ (Nat.zero_le _)
  | went _ _ inductionHypothesis => exact Nat.succ_le_succ inductionHypothesis

/-- Nothing is tried after a failure. -/
theorem isOk_of_mem_dropLast (batch : node.Batch verifier origin blocks start outcomes final)
    {outcome : Except ConsensusError ImportOutcome} (member : outcome ∈ outcomes.dropLast) :
    outcome.isOk = true := by
  induction batch with
  | done => cases member
  | stopped => cases member
  | @went _ _ _ _ _ _ outcomes _ _ inductionHypothesis =>
      cases outcomes with
      | nil => cases member
      | cons second more =>
          rw [List.dropLast_cons_cons] at member
          rcases List.mem_cons.mp member with rfl | later
          · rfl
          · exact inductionHypothesis later

/-- Only a failure leaves blocks untried. -/
theorem exists_error (batch : node.Batch verifier origin blocks start outcomes final)
    (short : outcomes.length < blocks.length) :
    ∃ error, outcomes.getLast? = some (.error error) := by
  induction batch with
  | done => cases short
  | stopped => exact ⟨_, rfl⟩
  | went _ _ inductionHypothesis =>
      obtain ⟨error, last⟩ := inductionHypothesis (Nat.lt_of_succ_lt_succ short)
      exact ⟨error, by simp [List.getLast?_cons, last]⟩

theorem append_of_ok (one : node.Batch verifier origin blocks start outcomes middle)
    (fine : outcomes.all Except.isOk = true)
    (two : node.Batch verifier origin others middle further final) :
    node.Batch verifier origin (blocks ++ others) start (outcomes ++ further) final := by
  induction one with
  | done => exact two
  | stopped => cases fine
  | went began _ inductionHypothesis => exact .went began (inductionHypothesis fine two)

theorem append_of_error (one : node.Batch verifier origin blocks start outcomes final)
    (failed : outcomes.all Except.isOk = false) (others : List Block) :
    node.Batch verifier origin (blocks ++ others) start outcomes final := by
  induction one with
  | done => cases failed
  | stopped rest stops => exact .stopped (rest ++ others) stops
  | went began _ inductionHypothesis => exact .went began (inductionHypothesis failed)

end Batch

/-- A list in two pieces is tried piece by piece, the second one if nothing of the first failed. -/
theorem verifyAndImportAll_append (node : Node σ) (verifier : Verifier) (origin : BlockOrigin)
    (blocks others : List Block) :
    node.verifyAndImportAll verifier origin (blocks ++ others) = (do
      let outcomes ← node.verifyAndImportAll verifier origin blocks
      if outcomes.all Except.isOk then
        return outcomes ++ (← node.verifyAndImportAll verifier origin others)
      else return outcomes) := by
  apply StateT.ext
  intro start
  obtain ⟨outcomes, middle, one⟩ := exists_batch node verifier origin blocks start
  rw [StateM.run_bind_eq one.run_eq]
  cases fine : outcomes.all Except.isOk with
  | false =>
      rw [(one.append_of_error fine others).run_eq]
      rfl
  | true =>
      obtain ⟨further, final, two⟩ := exists_batch node verifier origin others middle
      rw [(one.append_of_ok fine two).run_eq, if_pos rfl, StateM.run_bind_eq two.run_eq]
      rfl

/-- After blocks none of which failed, the next one is tried. -/
theorem run_verifyAndImportAll_concat {block : Block} {outcome : ImportOutcome}
    (ran : (node.verifyAndImportAll verifier origin blocks).run start = (outcomes, middle))
    (fine : ∀ error, .error error ∉ outcomes)
    (last : (node.verifyAndImport verifier origin block).run.run middle = (.ok outcome, final)) :
    (node.verifyAndImportAll verifier origin (blocks ++ [block])).run start =
      (outcomes ++ [.ok outcome], final) := by
  have allFine : outcomes.all Except.isOk = true := by
    apply List.all_eq_true.mpr
    intro result member
    cases result with
    | error error => exact absurd member (fine error)
    | ok => rfl
  have lastBatch : node.Batch verifier origin [block] middle [.ok outcome] final :=
    .went last (.done final)
  exact ((batch_of_run_eq ran).append_of_ok allFine lastBatch).run_eq

/-- The blocks that were tried and did not fail. -/
def accepted (blocks : List Block) (outcomes : List (Except ConsensusError ImportOutcome)) :
    List Block :=
  ((blocks.zip outcomes).filter fun tried => tried.2.isOk).map Prod.fst

theorem accepted_cons_ok (block : Block) (outcome : ImportOutcome) :
    accepted (block :: blocks) (.ok outcome :: outcomes) = block :: accepted blocks outcomes := rfl

theorem accepted_stopped (block : Block) (error : ConsensusError) :
    accepted (block :: blocks) [.error error] = [] := by
  rw [accepted, List.zip_cons_cons, List.zip_nil_right]
  rfl

end Node

namespace ForkTree

/-! ## Accepted once and again -/

/-- On top of the blocks of a tree the runtime goes by author and slot alone. -/
def AnswersBy (answer : AuthorId → UInt32 → Except ApiError Bool) (api : ForkTree → RuntimeApi) :
    Prop :=
  ∀ tree parent author slot, tree.header? parent.hash = some parent →
    api tree parent author slot = answer author slot

variable {answer : AuthorId → UInt32 → Except ApiError Bool} {api apiAgain : ForkTree → RuntimeApi}
  {inherents : InherentFactory} {verifier : Verifier} {origin : BlockOrigin}
  {tree next final later : ForkTree} {block : Block} {blocks : List Block}
  {outcomes : List (Except ConsensusError ImportOutcome)}

/-- A header that passes goes on to pass in every tree that stores as much. -/
theorem vetting_again {hash : Hash} {header : Header} {item : DigestItem} (own : tree.OwnHashes)
    (answers : AnswersBy answer api) (answersAgain : AnswersBy answer apiAgain)
    (kept : tree.KeptBy later)
    (vetting : Vetting (api tree) (tree.header? hash) verifier header (.ok item)) :
    Vetting (apiAgain later) (later.header? hash) verifier header (.ok item) := by
  cases vetting with
  | passed accepted may =>
      refine .passed accepted ?_
      intro asks
      obtain ⟨parent, found, answered⟩ := may asks
      obtain rfl := own.of_header? found
      have foundAgain := kept.header? found
      refine ⟨parent, foundAgain, ?_⟩
      rw [answers tree parent _ _ found] at answered
      rw [answersAgain later parent _ _ foundAgain, answered]

theorem Receipt.growsInto {result : Except ConsensusError ImportOutcome × ForkTree}
    {api : RuntimeApi} (receipt : Receipt api verifier tree block result) :
    tree.GrowsInto result.2 := by
  cases receipt with
  | imported _ _ attachable => exact .attach .same attachable _
  | refused => exact .same
  | rootMismatch => exact .same
  | known => exact .same
  | orphan => exact .same

theorem Receipt.keptBy {result : Except ConsensusError ImportOutcome × ForkTree}
    {api : RuntimeApi} (receipt : Receipt api verifier tree block result) :
    tree.KeptBy result.2 :=
  fun _ _ stored => receipt.growsInto.block?_of_stored stored

/-- What was accepted is found stored in every tree that stores as much. -/
theorem Receipt.again {outcome : ImportOutcome} (own : tree.OwnHashes)
    (answers : AnswersBy answer api) (answersAgain : AnswersBy answer apiAgain)
    (receipt : Receipt (api tree) verifier tree block (.ok outcome, next))
    (kept : next.KeptBy later) :
    Receipt (apiAgain later) verifier later block (.ok .alreadyInChain, later) := by
  have keptAll : tree.KeptBy later := receipt.keptBy.trans kept
  have storedLater {found : Block} (stored : next.block? block.hash = some found) :
      later.contains block.hash = true := by
    rw [contains_eq_isSome_block?, kept _ _ stored]
    rfl
  cases receipt with
  | known vetting commits stored =>
      rw [contains_eq_isSome_block?] at stored
      obtain ⟨found, stored⟩ := Option.isSome_iff_exists.mp stored
      have passes := vetting_again own answers answersAgain keptAll vetting
      exact .known passes commits (storedLater stored)
  | @imported _ parent vetting commits attachable =>
      have stored :=
        block?_attach attachable (tree.becomesBest (parent.depth + 1) .longest) block.hash
      rw [if_pos rfl] at stored
      have passes := vetting_again own answers answersAgain keptAll vetting
      exact .known passes commits (storedLater stored)

/-- All that a batch accepted is found stored afterwards. -/
theorem batch_again
    (batch : (localNode api inherents).Batch verifier origin blocks tree outcomes final)
    (own : tree.OwnHashes) (answers : AnswersBy answer api)
    (answersAgain : AnswersBy answer apiAgain) :
    tree.KeptBy final ∧
      ∀ later, final.KeptBy later → ∀ block ∈ Node.accepted blocks outcomes,
        Receipt (apiAgain later) verifier later block (.ok .alreadyInChain, later) := by
  induction batch with
  | done state =>
      refine ⟨.refl state, ?_⟩
      intro later _ block member
      cases member
  | stopped rest failed =>
      have receipt := run_verifyAndImport_eq_iff.mp failed
      refine ⟨receipt.keptBy, ?_⟩
      intro later _ block member
      rw [Node.accepted_stopped] at member
      cases member
  | went began _ inductionHypothesis =>
      have receipt := run_verifyAndImport_eq_iff.mp began
      -- The tree has only grown, so what comes next finds headers under their own hashes too.
      obtain ⟨kept, rest⟩ := inductionHypothesis (receipt.growsInto.ownHashes own)
      refine ⟨receipt.keptBy.trans kept, ?_⟩
      intro later keptLater block member
      rw [Node.accepted_cons_ok] at member
      rcases List.mem_cons.mp member with rfl | member
      · exact receipt.again own answers answersAgain (kept.trans keptLater)
      · exact rest later keptLater block member

/-- Blocks each of which is found stored leave the tree as it is. -/
theorem batch_of_known
    (known : ∀ block ∈ blocks,
      Receipt (api tree) verifier tree block (.ok .alreadyInChain, tree)) :
    (localNode api inherents).Batch verifier origin blocks tree
      (blocks.map fun _ => .ok .alreadyInChain) tree := by
  induction blocks with
  | nil => exact .done tree
  | cons block rest inductionHypothesis =>
      have began := (known block List.mem_cons_self).run_verifyAndImport inherents origin
      exact .went began (inductionHypothesis fun other member =>
        known other (List.mem_cons_of_mem block member))

/-- What a queue over a tree makes of a list of blocks, if the runtime goes by author and slot. The
outcomes are those of the blocks one by one, in a row without failures that a failure may end, and
only then are blocks left untried; the tree is the one after these imports. A list in two pieces
goes piece by piece, the second one just when nothing of the first failed. A queue of the same kind
that gets what was accepted once more, in this tree or one that stores as much, finds all of it
stored and changes nothing. -/
theorem verifyAndImportAll_batch (inherents : InherentFactory) (verifier : Verifier)
    (origin : BlockOrigin) {genesis : Header} (grows : (ofGenesis genesis).GrowsInto tree)
    (answers : AnswersBy answer api) (blocks : List Block) :
    (∀ outcomes final,
      ((localNode api inherents).verifyAndImportAll verifier origin blocks).run tree =
          (outcomes, final) →
        ((blocks.take outcomes.length).mapM fun block =>
            ((localNode api inherents).verifyAndImport verifier origin block).run).run tree =
          (outcomes, final) ∧
        outcomes.length ≤ blocks.length ∧
        (∀ outcome ∈ outcomes.dropLast, outcome.isOk = true) ∧
        (outcomes.length < blocks.length → ∃ error, outcomes.getLast? = some (.error error)) ∧
        ∀ (apiAgain : ForkTree → RuntimeApi) inherentsAgain originAgain later,
          AnswersBy answer apiAgain → final.KeptBy later →
            ((localNode apiAgain inherentsAgain).verifyAndImportAll verifier originAgain
                (Node.accepted blocks outcomes)).run later =
              ((Node.accepted blocks outcomes).map fun _ => .ok .alreadyInChain, later)) ∧
    ∀ others,
      (localNode api inherents).verifyAndImportAll verifier origin (blocks ++ others) = (do
        let outcomes ← (localNode api inherents).verifyAndImportAll verifier origin blocks
        if outcomes.all Except.isOk then
          return outcomes ++
            (← (localNode api inherents).verifyAndImportAll verifier origin others)
        else return outcomes) := by
  have own := grows.ownHashes (Holds.ofGenesis genesis).ownHashes
  constructor
  · intro outcomes final ran
    have batch := Node.batch_of_run_eq ran
    refine ⟨batch.run_mapM, batch.length_le, fun _ => batch.isOk_of_mem_dropLast,
      batch.exists_error, ?_⟩
    intro apiAgain inherentsAgain originAgain later answersAgain kept
    obtain ⟨_, known⟩ := batch_again batch own answers answersAgain
    exact (batch_of_known (known later kept)).run_eq
  · exact Node.verifyAndImportAll_append _ verifier origin blocks

/-- Those who may author may do so at slot one. -/
private def oneSlotApi : ForkTree → RuntimeApi :=
  (·.runtimeApi fun _ _ slot => .ok (slot == 1))

private theorem oneSlotApi_answersBy : AnswersBy (fun _ slot => .ok (slot == 1)) oneSlotApi := by
  intro tree parent author slot found
  obtain ⟨block, stored, _⟩ := Option.map_eq_some_iff.mp found
  have known : tree.contains parent.hash = true := by
    rw [contains_eq_isSome_block?, stored]
    rfl
  exact if_pos known

private def courierSeed : Seed := ⟨FixedBytes.replicate 32 6⟩

private def courierHeader : Header where
  parentHash := ({} : Header).hash
  number := 1
  extrinsicsRoot := extrinsicsRoot [[1]]
  digest := [.ofAuthor (ed25519.publicKey courierSeed)]

private def wholeBlock : Block where
  header := courierHeader.push
    (.ofSignature (ed25519.sign courierSeed courierHeader.hash.toBytes))
  extrinsics := [[1]]

/-- The extrinsics are not those of the header. -/
private def tornBlock : Block := { wholeBlock with extrinsics := [] }

private def checkingVerifier : Verifier := { scheme := ed25519, checksEligibility := true }

/-- A block that comes twice, and a third time after one that fails. -/
private def stumblingBlocks : List Block := [wholeBlock, wholeBlock, tornBlock, wholeBlock]

theorem verifyAndImportAll_batch_stumblingBlocks :
    (ofGenesis {}).GrowsInto (ofGenesis {}) ∧
      AnswersBy (fun _ slot => .ok (slot == 1)) oneSlotApi ∧
      ∃ outcomes final,
        ((localNode oneSlotApi fun _ _ => .ok .nothing).verifyAndImportAll checkingVerifier
          .broadcast stumblingBlocks).run (ofGenesis {}) = (outcomes, final) ∧
        outcomes.map Except.isOk = [true, true, false] ∧
        ((localNode oneSlotApi fun _ _ => .ok .nothing).verifyAndImportAll checkingVerifier
          .file [wholeBlock, wholeBlock]).run final =
            ([.ok .alreadyInChain, .ok .alreadyInChain], final) := by
  have tried : (((localNode oneSlotApi fun _ _ => .ok .nothing).verifyAndImportAll
      checkingVerifier .broadcast stumblingBlocks).run (ofGenesis {})).1.map Except.isOk =
        [true, true, false] := by
    decide +kernel
  have unchanged : (ofGenesis {}).GrowsInto (ofGenesis {}) := .same
  obtain ⟨laws, _⟩ := verifyAndImportAll_batch (fun _ _ => .ok .nothing) checkingVerifier
    .broadcast unchanged oneSlotApi_answersBy stumblingBlocks
  cases ran : ((localNode oneSlotApi fun _ _ => .ok .nothing).verifyAndImportAll
      checkingVerifier .broadcast stumblingBlocks).run (ofGenesis {}) with
  | mk outcomes final =>
      rw [ran] at tried
      have twice : Node.accepted stumblingBlocks outcomes = [wholeBlock, wholeBlock] := by
        simp only [List.map_eq_cons_iff, List.map_eq_nil_iff] at tried
        obtain ⟨first, _, rfl, one, second, _, rfl, two, third, _, rfl, three, rfl⟩ := tried
        simp [Node.accepted, stumblingBlocks, one, two, three]
      obtain ⟨_, _, _, _, again⟩ := laws outcomes final ran
      have known := again oneSlotApi (fun _ _ => .ok .nothing) .file final oneSlotApi_answersBy
        (.refl final)
      rw [twice] at known
      exact ⟨unchanged, oneSlotApi_answersBy, outcomes, final, rfl, tried, known⟩

end ForkTree

end Authorship
