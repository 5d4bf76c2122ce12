/-
Module: Authorship.Proofs.Node.Proposal
Purpose: A node's own proposal from the pool into the tree. A proposal takes what stands at the head
  of the pool and leaves it there; its import, if no other block came first, takes just this away,
  copies of the same extrinsics further back left in place.
Main exports: Block.withLogs, ForkTree.run_of_none_imported, ForkTree.perform_of_attachable,
  ForkTree.proposal_leaves_rest
-/
import Authorship.Proofs.ForkTree.Conservation
import Authorship.Proofs.Node.Moments
import Authorship.Proofs.Node.SlotBlock

namespace Authorship

/-- A block with logs appended to its header. -/
def Block.withLogs (block : Block) (logs : Digest) : Block :=
  { block with header := { block.header with digest := block.header.digest ++ logs } }

namespace ForkTree

/-! ## Runs that import nothing -/

theorem contains_submitAll (tree : ForkTree) (extrinsics : List Extrinsic) (hash : Hash) :
    (tree.submitAll extrinsics).contains hash = tree.contains hash := by
  rw [submitAll_eq]
  rfl

/-- An operation that imports no block does nothing but submit. -/
theorem perform_of_not_isImported {tree : ForkTree} {operation : Operation}
    (not : (tree.perform operation).1.isImported = false) :
    (tree.perform operation).2 = tree.submitAll operation.submission?.toList := by
  rcases pool_cases (Prod.eta (tree.perform operation)).symm with
    ⟨extrinsic, submits, _⟩ | ⟨_, _, _, _, done, _⟩ | ⟨silent, _, same⟩
  · cases operation with
    | submit => rfl
    | insert | importBlock | propose => cases submits
  · cases done.symm.trans not
  · rw [silent, same]
    rfl

theorem run_of_none_imported {tree : ForkTree} {operations : List Operation}
    (none : ∀ entry ∈ (tree.run operations).1, entry.2.isImported = false) :
    (tree.run operations).2 = tree.submitAll (submissions operations) := by
  induction operations generalizing tree with
  | nil => rfl
  | cons operation rest inductionHypothesis =>
      simp only [run, List.forall_mem_cons] at none ⊢
      rw [inductionHypothesis none.2, perform_of_not_isImported none.1, submissions_cons,
        submitAll_append]

/-! ## Importing what was proposed -/

/-- A block that fits onto the tree and whose header commits to its body is stored, in whatever way
it is imported. -/
theorem perform_of_attachable {tree : ForkTree} {operation : Operation} {block : Block}
    {choice : ForkChoice} {parent : Entry} (asked : operation.import? = some (block, choice))
    (commits : block.header.extrinsicsRoot = extrinsicsRoot block.extrinsics)
    (attachable : tree.Attachable block parent) :
    tree.perform operation =
      (.settled (.ok (.imported (tree.becomesBest (parent.depth + 1) choice))),
        tree.attach block.hash block parent (tree.becomesBest (parent.depth + 1) choice)) := by
  cases operation with
  | insert =>
      cases asked
      rw [perform, run_store_ok (attachable.insert_eq choice)]
  | importBlock request =>
      cases asked
      rcases tree.importBlock_cases request with ⟨refuses, _⟩ | ⟨_, accepted⟩
      · exact absurd commits refuses
      · rw [perform, run_storeRequest_ok (accepted.trans (attachable.insert_eq _))]
  | submit | propose => cases asked

/-- A block that holds the head of the pool takes just this out of it, whatever was submitted since
it was made. -/
theorem pool_of_perform_of_head {tree : ForkTree} {operation : Operation} {block : Block}
    {choice : ForkChoice} {rest : List Extrinsic} (asked : operation.import? = some (block, choice))
    (commits : block.header.extrinsicsRoot = extrinsicsRoot block.extrinsics)
    (fresh : tree.contains block.hash = false)
    (hasParent : tree.contains block.header.parentHash = true)
    (head : tree.pool = block.extrinsics ++ rest) :
    ∃ isNewBest next,
      tree.perform operation = (.settled (.ok (.imported isNewBest)), next) ∧ next.pool = rest := by
  obtain ⟨parent, stored⟩ := Option.isSome_iff_exists.mp hasParent
  have attachable : tree.Attachable block parent := ⟨contains_eq_false_iff.mp fresh, stored⟩
  refine ⟨_, _, perform_of_attachable asked commits attachable, ?_⟩
  rw [pool_attach, head, prune_append_self]

/-- A proposer that was prepared on the tree proposes at any later time, unless its parent has the
last number there is. The block has the longest run at the head of the pool that keeps the limit, or
all of the pool if there is none, and commits to it; the tree stays as it is. If this block, with
any logs added to its header, is not stored already, then importing it succeeds, and if nothing else
was imported since it was made, the pool is then what stood behind the extrinsics of the block,
followed by what was submitted since. -/
theorem proposal_leaves_rest {api : ForkTree → RuntimeApi} {inherents : InherentFactory}
    {earlier : ForkTree} {parent : Header} {propose : Propose ForkTree} {limit : Option UInt64}
    (prepared : ((localNode api inherents).proposer parent).run.run earlier =
      (.ok propose, earlier))
    (limited : ∀ most, limit = some most → most.toNat < 2 ^ 64 - 1)
    (before : List Operation) (data : InherentData) (digest : Digest) (milliseconds : UInt64) :
    let tree := (earlier.run before).2
    (parent.number.toNat + 1 = 2 ^ 32 →
      (propose data digest milliseconds limit).run.run tree =
        (.error (.proposer "block number overflow"), tree)) ∧
    (parent.number.toNat + 1 < 2 ^ 32 →
      ∃ block rest,
        (propose data digest milliseconds limit).run.run tree = (.ok block, tree) ∧
        LongestWithin limit tree.pool block.extrinsics ∧
        (limit = none → block.extrinsics = tree.pool) ∧
        block.header.extrinsicsRoot = extrinsicsRoot block.extrinsics ∧
        tree.pool = block.extrinsics ++ rest ∧
        ∀ between logs operation choice,
          (∀ entry ∈ (tree.run between).1, entry.2.isImported = false) →
          operation.import? = some (block.withLogs logs, choice) →
          tree.contains (block.withLogs logs).hash = false →
          ∃ isNewBest next,
            (tree.run between).2.perform operation =
              (.settled (.ok (.imported isNewBest)), next) ∧
            next.pool = rest ++ submissions between) := by
  intro tree
  rw [run_localNode_proposer] at prepared
  cases stored : earlier.contains parent.hash with
  | false =>
      rw [proposer_of_not_contains stored] at prepared
      cases prepared
  | true =>
      rw [proposer_of_contains stored] at prepared
      cases prepared
      have fills := run_fill tree (proposerOn parent) digest limit
      refine ⟨fun last => fills.trans (by rw [propose_of_last last]), fun room => ?_⟩
      have longest : LongestWithin limit tree.pool (tree.ready limit) :=
        longestWithin_ready tree limited
      obtain ⟨rest, split⟩ := longest.isPrefix
      have known : tree.contains parent.hash = true := by
        obtain ⟨block, found⟩ := Option.isSome_iff_exists.mp
          ((contains_eq_isSome_block? _ _).symm.trans stored)
        rw [contains_eq_isSome_block?, (growsInto_run earlier before).block?_of_stored found]
        rfl
      refine ⟨tree.blockOn parent digest limit, rest,
        fills.trans (by rw [propose_of_room room]), longest, ?_, rfl, split.symm, ?_⟩
      · rintro rfl
        exact longest.eq_of_none
      · intro between logs operation choice none asked fresh
        have submitted := run_of_none_imported none
        rw [submitted]
        refine pool_of_perform_of_head asked rfl ?_ ?_ ?_
        · rw [contains_submitAll, fresh]
        · exact (contains_submitAll _ _ _).trans known
        · rw [submitAll_eq, ← split, List.append_assoc]
          rfl

/-- Two extrinsics that fit together, and a second copy of the first. -/
private def pooled : List Operation :=
  [.submit [7], .submit [8, 8], .submit [7]]

/-- The proposal from this pool, with room for three bytes. -/
private def threeBytes : Block :=
  ((ofGenesis {}).run pooled).2.blockOn {} [] (some 3)

/-- One more extrinsic, then the proposal with a log added. -/
theorem proposal_leaves_rest_threeBytes :
    ((localNode (fun _ _ _ _ => .ok true) fun _ _ => .ok .nothing).proposer {}).run.run
        (ofGenesis {}) = (.ok (Surroundings.proposeOn {}), ofGenesis {}) ∧
      threeBytes.extrinsics = [[7], [8, 8]] ∧
      ∃ isNewBest next,
        (((ofGenesis {}).run pooled).2.run [.submit [9]]).2.perform
            (.insert (threeBytes.withLogs [.other []]) .longest) =
          (.settled (.ok (.imported isNewBest)), next) ∧
        next.pool = [[7], [9]] := by
  have stored : (ofGenesis {}).contains ({} : Header).hash = true := by decide +kernel
  have prepared : ((localNode (fun _ _ _ _ => .ok true) fun _ _ => .ok .nothing).proposer
      {}).run.run (ofGenesis {}) = (.ok (Surroundings.proposeOn {}), ofGenesis {}) := by
    rw [run_localNode_proposer, proposer_of_contains stored]
    rfl
  have taken : threeBytes.extrinsics = [[7], [8, 8]] := by decide
  have fresh : ((ofGenesis {}).run pooled).2.contains (threeBytes.withLogs [.other []]).hash =
      false := by
    decide +kernel
  have limited : ∀ most, some (3 : UInt64) = some most → most.toNat < 2 ^ 64 - 1 := by
    intro most same
    cases same
    decide
  obtain ⟨block, rest, ran, _, _, _, split, imports⟩ :=
    (proposal_leaves_rest prepared limited pooled {} [] 0).2 (by decide)
  have same : block = threeBytes := by
    have made := Prod.ext_iff.mp ran
    exact (Except.ok.inj made.1).symm
  subst same
  have behind : rest = [[7]] := by
    rw [taken] at split
    exact (List.append_cancel_left split).symm
  obtain ⟨isNewBest, next, performed, pool⟩ :=
    imports [.submit [9]] [.other []] (.insert _ _) .longest (by decide) rfl fresh
  exact ⟨prepared, taken, isNewBest, next, performed, pool.trans (by rw [behind]; rfl)⟩

end ForkTree

end Authorship
