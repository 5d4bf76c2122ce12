/-
Module: Authorship.Proofs.ForkTree.Growth
Purpose: What an import does to a fork tree, said once for every view of the tree: which block is
  found under a hash, how deep it is, its children, the blocks of a depth, the best block and the
  pool. An import that is not refused either changes nothing, because the block is stored already,
  or attaches a fresh block to a stored parent. Done in place, one write after the other, it comes
  to the same, and a failure leaves no trace.
Main exports: ImportRequest.block, ForkTree.Attachable, ForkTree.insert_cases, ForkTree.store_eq,
  ForkTree.storeRequest_eq, ForkTree.run_store_cases, ForkTree.run_storeRequest_cases,
  Proposer.propose_ok, and the views of ForkTree.attach
-/
import Authorship.Consensus.ForkTree
import Authorship.Consensus.Node

namespace Authorship

theorem Block.hash_mk (header : Header) (extrinsics : List Extrinsic) :
    (Block.mk header extrinsics).hash = header.hash := rfl

/-- The block that an import request stores. -/
def ImportRequest.block (request : ImportRequest) : Block :=
  { header := request.postHeader, extrinsics := request.body.getD [] }

namespace ForkTree

/-- A block that is not stored yet, and the entry of its parent, which is. -/
structure Attachable (tree : ForkTree) (block : Block) (parent : Entry) : Prop where
  fresh : tree.blocks.get? block.hash = none
  stored : tree.blocks.get? block.header.parentHash = some parent

/-! ## Views of a tree -/

theorem contains_eq_isSome_block? (tree : ForkTree) (hash : Hash) :
    tree.contains hash = (tree.block? hash).isSome := by
  simp [contains, block?, Assoc.contains]

theorem contains_eq_isSome_depth? (tree : ForkTree) (hash : Hash) :
    tree.contains hash = (tree.depth? hash).isSome := by
  simp [contains, depth?, Assoc.contains]

theorem contains_eq_false_iff {tree : ForkTree} {hash : Hash} :
    tree.contains hash = false ↔ tree.blocks.get? hash = none := by
  simp [contains, Assoc.contains]

theorem block?_of_get? {tree : ForkTree} {hash : Hash} {entry : Entry}
    (found : tree.blocks.get? hash = some entry) : tree.block? hash = some entry.block := by
  simp [block?, found]

theorem header?_of_block? {tree : ForkTree} {hash : Hash} {block : Block}
    (stored : tree.block? hash = some block) : tree.header? hash = some block.header := by
  rw [header?, stored, Option.map_some]

theorem depth?_of_get? {tree : ForkTree} {hash : Hash} {entry : Entry}
    (found : tree.blocks.get? hash = some entry) : tree.depth? hash = some entry.depth := by
  simp [depth?, found]

theorem children_of_get? {tree : ForkTree} {hash : Hash} {entry : Entry}
    (found : tree.blocks.get? hash = some entry) : tree.children hash = entry.children := by
  simp [children, found]

/-! ## Views of the tree of a genesis block -/

theorem get?_ofGenesis (genesis : Header) (hash : Hash) :
    (ofGenesis genesis).blocks.get? hash =
      if genesis.hash = hash then some { block := { header := genesis }, depth := 0 }
      else none := by
  simp [ofGenesis, Assoc.get?_insert]

theorem block?_ofGenesis (genesis : Header) (hash : Hash) :
    (ofGenesis genesis).block? hash =
      if genesis.hash = hash then some { header := genesis } else none := by
  rw [block?, get?_ofGenesis]
  split <;> rfl

theorem depth?_ofGenesis (genesis : Header) (hash : Hash) :
    (ofGenesis genesis).depth? hash = if genesis.hash = hash then some 0 else none := by
  rw [depth?, get?_ofGenesis]
  split <;> rfl

theorem children_ofGenesis (genesis : Header) (hash : Hash) :
    (ofGenesis genesis).children hash = [] := by
  rw [children, get?_ofGenesis]
  split <;> rfl

theorem atDepth_ofGenesis (genesis : Header) (depth : UInt32) :
    (ofGenesis genesis).atDepth depth = if depth = 0 then [genesis.hash] else [] := by
  simp only [atDepth, ofGenesis, Assoc.get?_insert, Assoc.get?_empty]
  by_cases zero : depth = 0
  · simp [zero]
  · simp [zero, Ne.symm zero]

@[simp] theorem best_ofGenesis (genesis : Header) : (ofGenesis genesis).best = genesis.hash := rfl

@[simp] theorem pool_ofGenesis (genesis : Header) : (ofGenesis genesis).pool = [] := rfl

@[simp] theorem size_ofGenesis (genesis : Header) : (ofGenesis genesis).size = 1 := rfl

/-! ## Submitting touches the pool alone -/

section Submit

variable (tree : ForkTree) (extrinsic : Extrinsic)

@[simp] theorem pool_submit : (tree.submit extrinsic).pool = tree.pool ++ [extrinsic] := rfl

@[simp] theorem best_submit : (tree.submit extrinsic).best = tree.best := rfl

@[simp] theorem size_submit : (tree.submit extrinsic).size = tree.size := rfl

@[simp] theorem block?_submit (hash : Hash) :
    (tree.submit extrinsic).block? hash = tree.block? hash := rfl

@[simp] theorem depth?_submit (hash : Hash) :
    (tree.submit extrinsic).depth? hash = tree.depth? hash := rfl

@[simp] theorem contains_submit (hash : Hash) :
    (tree.submit extrinsic).contains hash = tree.contains hash := rfl

@[simp] theorem children_submit (hash : Hash) :
    (tree.submit extrinsic).children hash = tree.children hash := rfl

@[simp] theorem atDepth_submit (depth : UInt32) :
    (tree.submit extrinsic).atDepth depth = tree.atDepth depth := rfl

end Submit

/-! ## Attaching a block -/

section Attach

variable {tree : ForkTree} {block : Block} {parent : Entry}

theorem Attachable.hash_ne_parentHash (attachable : tree.Attachable block parent) :
    block.hash ≠ block.header.parentHash := by
  intro same
  have stored := attachable.stored
  rw [← same, attachable.fresh] at stored
  cases stored

theorem Attachable.contains_parentHash (attachable : tree.Attachable block parent) :
    tree.contains block.header.parentHash = true := by
  simp [contains, Assoc.contains, attachable.stored]

theorem get?_attach (isNewBest : Bool) (hash : Hash) :
    (tree.attach block.hash block parent isNewBest).blocks.get? hash =
      if block.hash = hash then some { block, depth := parent.depth + 1 }
      else if block.header.parentHash = hash then
        some { parent with children := parent.children ++ [block.hash] }
      else tree.blocks.get? hash := by
  simp only [attach, Assoc.get?_insert]

theorem block?_attach (attachable : tree.Attachable block parent) (isNewBest : Bool)
    (hash : Hash) :
    (tree.attach block.hash block parent isNewBest).block? hash =
      if block.hash = hash then some block else tree.block? hash := by
  rw [block?, get?_attach]
  split
  · rfl
  · split
    · next same => rw [← same, block?_of_get? attachable.stored]; rfl
    · rfl

theorem block?_attach_of_stored (attachable : tree.Attachable block parent) (isNewBest : Bool)
    {hash : Hash} {other : Block} (stored : tree.block? hash = some other) :
    (tree.attach block.hash block parent isNewBest).block? hash = some other := by
  rw [block?_attach attachable, if_neg, stored]
  rintro rfl
  rw [block?, attachable.fresh] at stored
  cases stored

theorem depth?_attach (attachable : tree.Attachable block parent) (isNewBest : Bool)
    (hash : Hash) :
    (tree.attach block.hash block parent isNewBest).depth? hash =
      if block.hash = hash then some (parent.depth + 1) else tree.depth? hash := by
  rw [depth?, get?_attach]
  split
  · rfl
  · split
    · next same => rw [← same, depth?_of_get? attachable.stored]; rfl
    · rfl

theorem depth?_attach_of_stored (attachable : tree.Attachable block parent) (isNewBest : Bool)
    {hash : Hash} {depth : UInt32} (stored : tree.depth? hash = some depth) :
    (tree.attach block.hash block parent isNewBest).depth? hash = some depth := by
  rw [depth?_attach attachable, if_neg, stored]
  rintro rfl
  rw [depth?, attachable.fresh] at stored
  cases stored

theorem contains_attach (attachable : tree.Attachable block parent) (isNewBest : Bool)
    (hash : Hash) :
    (tree.attach block.hash block parent isNewBest).contains hash =
      (decide (block.hash = hash) || tree.contains hash) := by
  rw [contains_eq_isSome_block?, contains_eq_isSome_block?, block?_attach attachable]
  split <;> simp [*]

theorem children_attach (attachable : tree.Attachable block parent) (isNewBest : Bool)
    (hash : Hash) :
    (tree.attach block.hash block parent isNewBest).children hash =
      tree.children hash ++ if block.header.parentHash = hash then [block.hash] else [] := by
  have different := attachable.hash_ne_parentHash
  rw [children, get?_attach]
  by_cases new : block.hash = hash
  · subst new
    simp [children, attachable.fresh, different.symm]
  · by_cases above : block.header.parentHash = hash
    · subst above
      simp [different, children_of_get? attachable.stored]
    · simp [new, above, children]

theorem atDepth_attach (isNewBest : Bool) (depth : UInt32) :
    (tree.attach block.hash block parent isNewBest).atDepth depth =
      tree.atDepth depth ++ if parent.depth + 1 = depth then [block.hash] else [] := by
  rw [atDepth, attach, Assoc.get?_insert]
  split
  · next same => simp [same]
  · simp [atDepth]

theorem size_attach (attachable : tree.Attachable block parent) (isNewBest : Bool) :
    (tree.attach block.hash block parent isNewBest).size = tree.size + 1 := by
  have stored : block.header.parentHash ∈ tree.blocks.keys :=
    Assoc.mem_keys_iff.mpr ⟨parent, attachable.stored⟩
  have fresh : block.hash ∉ tree.blocks.keys := Assoc.get?_eq_none_iff.mp attachable.fresh
  simp [size, Assoc.size_eq_length_keys, attach, Assoc.keys_insert, stored, fresh]

@[simp] theorem best_attach (hash : Hash) (isNewBest : Bool) :
    (tree.attach hash block parent isNewBest).best = if isNewBest then hash else tree.best := rfl

@[simp] theorem pool_attach (hash : Hash) (isNewBest : Bool) :
    (tree.attach hash block parent isNewBest).pool = prune tree.pool block.extrinsics := rfl

end Attach

/-! ## What an import can do -/

section Insert

variable {tree : ForkTree} {block : Block} (choice : ForkChoice)

theorem insert_of_contains (known : tree.contains block.hash = true) :
    tree.insert block choice = .ok (.alreadyInChain, tree) := by
  simp [insert, known]

theorem insert_of_orphan (fresh : tree.contains block.hash = false)
    (orphan : tree.contains block.header.parentHash = false) :
    tree.insert block choice = .error (.unknownParent block.header.parentHash) := by
  simp [insert, fresh, contains_eq_false_iff.mp orphan]

theorem Attachable.insert_eq {parent : Entry} (attachable : tree.Attachable block parent) :
    tree.insert block choice =
      .ok (.imported (tree.becomesBest (parent.depth + 1) choice),
        tree.attach block.hash block parent (tree.becomesBest (parent.depth + 1) choice)) := by
  simp [insert, contains_eq_false_iff.mpr attachable.fresh, attachable.stored]

end Insert

/-- An import finds the block stored, or misses its parent, or attaches it. -/
theorem insert_cases (tree : ForkTree) (block : Block) (choice : ForkChoice) :
    (tree.contains block.hash = true ∧
      tree.insert block choice = .ok (.alreadyInChain, tree)) ∨
    (tree.contains block.hash = false ∧ tree.contains block.header.parentHash = false ∧
      tree.insert block choice = .error (.unknownParent block.header.parentHash)) ∨
    ∃ parent isNewBest, tree.Attachable block parent ∧
      isNewBest = tree.becomesBest (parent.depth + 1) choice ∧
      tree.insert block choice =
        .ok (.imported isNewBest, tree.attach block.hash block parent isNewBest) := by
  cases known : tree.contains block.hash with
  | true => exact .inl ⟨rfl, insert_of_contains choice known⟩
  | false =>
      right
      cases found : tree.blocks.get? block.header.parentHash with
      | none =>
          have orphan := contains_eq_false_iff.mpr found
          exact .inl ⟨rfl, orphan, insert_of_orphan choice known orphan⟩
      | some parent =>
          have attachable : tree.Attachable block parent :=
            ⟨contains_eq_false_iff.mp known, found⟩
          exact .inr ⟨parent, _, attachable, rfl, attachable.insert_eq choice⟩

/-- An import request whose header does not commit to its body is refused; any other one is as good
as inserting its block. -/
theorem importBlock_cases (tree : ForkTree) (request : ImportRequest) :
    (request.postHeader.extrinsicsRoot ≠ extrinsicsRoot (request.body.getD []) ∧
      tree.importBlock request = .error (.importFailed "extrinsics root mismatch")) ∨
    (request.postHeader.extrinsicsRoot = extrinsicsRoot (request.body.getD []) ∧
      tree.importBlock request =
        tree.insert request.block (request.forkChoice.getD .longest)) := by
  by_cases commits :
      request.postHeader.extrinsicsRoot = extrinsicsRoot (request.body.getD [])
  · exact .inr ⟨commits, by simp [importBlock, commits, ImportRequest.block]⟩
  · exact .inl ⟨commits, by simp [importBlock, commits]⟩

/-! ## Storing in place -/

section Store

variable {tree next : ForkTree} {block : Block} {parent : Entry} {outcome : ImportOutcome}

/-- A child more or less does not decide which block is best. -/
theorem becomesBest_setEntry {hash : Hash} (stored : tree.blocks.get? hash = some parent)
    (children : List Hash) (depth : UInt32) (choice : ForkChoice) :
    (tree.setEntry hash { parent with children }).becomesBest depth choice =
      tree.becomesBest depth choice := by
  have kept : (tree.setEntry hash { parent with children }).depth? tree.best =
      tree.depth? tree.best := by
    rw [depth?, setEntry, Assoc.get?_insert]
    split
    · next same => rw [← same, depth?_of_get? stored, Option.map_some]
    · rfl
  cases choice with
  | longest => exact congrArg (Option.all (· < depth)) kept
  | decided answer => rfl

theorem run_store_of_contains (choice : ForkChoice) (known : tree.contains block.hash = true) :
    (store block choice).run.run tree = (.ok .alreadyInChain, tree) := by
  unfold store
  rw [Attempt.run_bind_eq (Attempt.run_get tree), if_pos known]
  rfl

theorem run_store_of_orphan (choice : ForkChoice) (fresh : tree.contains block.hash = false)
    (orphan : tree.blocks.get? block.header.parentHash = none) :
    (store block choice).run.run tree =
      (.error (.unknownParent block.header.parentHash), tree) := by
  unfold store
  rw [Attempt.run_bind_eq (Attempt.run_get tree), if_neg (by simp [fresh]),
    Attempt.run_bind_eq (Attempt.run_get tree), orphan]
  rfl

/-- All writes together attach the block, whatever stood in the tree between them. -/
theorem Attachable.run_store (attachable : tree.Attachable block parent) (choice : ForkChoice) :
    (store block choice).run.run tree =
      (.ok (.imported (tree.becomesBest (parent.depth + 1) choice)),
        tree.attach block.hash block parent (tree.becomesBest (parent.depth + 1) choice)) := by
  have fresh := contains_eq_false_iff.mpr attachable.fresh
  unfold store
  rw [Attempt.run_bind_eq (Attempt.run_get tree), if_neg (by simp [fresh]),
    Attempt.run_bind_eq (Attempt.run_get tree), attachable.stored]
  rw [Attempt.run_bind_eq (Attempt.run_modify _ _), Attempt.run_bind_eq (Attempt.run_get _),
    becomesBest_setEntry attachable.stored]
  cases tree.becomesBest (parent.depth + 1) choice <;> rfl

/-- To store a block one write after the other comes to the tree that insertion gives: what can fail
fails before the first write. -/
theorem store_eq (block : Block) (choice : ForkChoice) :
    store block choice = .advance (·.insert block choice) := by
  apply Attempt.ext
  intro tree
  cases known : tree.contains block.hash with
  | true =>
      rw [run_store_of_contains choice known,
        Attempt.run_advance_ok (insert_of_contains choice known)]
  | false =>
      cases found : tree.blocks.get? block.header.parentHash with
      | none =>
          rw [run_store_of_orphan choice known found,
            Attempt.run_advance_error (insert_of_orphan choice known
              (contains_eq_false_iff.mpr found))]
      | some parent =>
          have attachable : tree.Attachable block parent :=
            ⟨contains_eq_false_iff.mp known, found⟩
          rw [attachable.run_store, Attempt.run_advance_ok (attachable.insert_eq choice)]

theorem storeRequest_eq (request : ImportRequest) :
    storeRequest request = .advance (·.importBlock request) := by
  apply Attempt.ext
  intro tree
  unfold storeRequest
  rcases tree.importBlock_cases request with ⟨differs, refused⟩ | ⟨commits, accepted⟩
  · rw [if_pos differs, Attempt.run_advance_error refused]
    rfl
  · rw [if_neg (not_not_intro commits), store_eq]
    exact Attempt.run_advance_congr accepted.symm

theorem run_store_ok {choice : ForkChoice}
    (inserted : tree.insert block choice = .ok (outcome, next)) :
    (store block choice).run.run tree = (.ok outcome, next) := by
  rw [store_eq, Attempt.run_advance_ok inserted]

theorem run_storeRequest_ok {request : ImportRequest}
    (imported : tree.importBlock request = .ok (outcome, next)) :
    (storeRequest request).run.run tree = (.ok outcome, next) := by
  rw [storeRequest_eq, Attempt.run_advance_ok imported]

theorem run_storeRequest_error {request : ImportRequest} {error : ConsensusError}
    (refused : tree.importBlock request = .error error) :
    (storeRequest request).run.run tree = (.error error, tree) := by
  rw [storeRequest_eq, Attempt.run_advance_error refused]

end Store

/-- To store a block leaves the tree as it was, or attaches the block. -/
theorem run_store_cases (tree : ForkTree) (block : Block) (choice : ForkChoice) :
    (∃ outcome, (∀ isNewBest, outcome ≠ .ok (.imported isNewBest)) ∧
      (store block choice).run.run tree = (outcome, tree)) ∨
    ∃ parent isNewBest, tree.Attachable block parent ∧
      isNewBest = tree.becomesBest (parent.depth + 1) choice ∧
      (store block choice).run.run tree =
        (.ok (.imported isNewBest), tree.attach block.hash block parent isNewBest) := by
  rw [store_eq]
  rcases tree.insert_cases block choice with
    ⟨_, found⟩ | ⟨_, _, orphan⟩ | ⟨parent, isNewBest, attachable, best, attached⟩
  · exact .inl ⟨_, by simp, Attempt.run_advance_ok found⟩
  · exact .inl ⟨_, by simp, Attempt.run_advance_error orphan⟩
  · exact .inr ⟨parent, isNewBest, attachable, best, Attempt.run_advance_ok attached⟩

/-- An import request leaves the tree as it was, or attaches its block, whose header then commits to
its body. -/
theorem run_storeRequest_cases (tree : ForkTree) (request : ImportRequest) :
    (∃ outcome, (∀ isNewBest, outcome ≠ .ok (.imported isNewBest)) ∧
      (storeRequest request).run.run tree = (outcome, tree)) ∨
    ∃ parent isNewBest, tree.Attachable request.block parent ∧
      request.block.header.extrinsicsRoot = extrinsicsRoot request.block.extrinsics ∧
      isNewBest =
        tree.becomesBest (parent.depth + 1) (request.forkChoice.getD .longest) ∧
      (storeRequest request).run.run tree =
        (.ok (.imported isNewBest),
          tree.attach request.block.hash request.block parent isNewBest) := by
  rcases tree.importBlock_cases request with ⟨_, refused⟩ | ⟨commits, accepted⟩
  · exact .inl ⟨_, by simp, run_storeRequest_error refused⟩
  · have asInsert : (storeRequest request).run.run tree =
        (store request.block (request.forkChoice.getD .longest)).run.run tree := by
      rw [storeRequest_eq, store_eq]
      exact Attempt.run_advance_congr accepted
    rw [asInsert]
    rcases tree.run_store_cases request.block (request.forkChoice.getD .longest) with
      unchanged | ⟨parent, isNewBest, attachable, best, ran⟩
    · exact .inl unchanged
    · exact .inr ⟨parent, isNewBest, attachable, commits, best, ran⟩

/-! ## Proposing -/

/-- Preparing to propose looks at the tree and leaves it alone. -/
@[simp] theorem run_prepare (tree : ForkTree) (parent : Header) :
    (prepare parent).run.run tree = (tree.proposer parent, tree) := by
  unfold prepare
  rw [Attempt.run_bind_eq (Attempt.run_get tree), proposer]
  cases tree.contains parent.hash with
  | true => rfl
  | false => rfl

/-- Proposing takes what the pool offers and leaves it there. -/
@[simp] theorem run_fill (tree : ForkTree) (proposer : Proposer) (digest : Digest)
    (limit : Option UInt64) :
    (proposer.fill digest limit).run.run tree = (proposer.propose tree digest limit, tree) := by
  unfold Proposer.fill Proposer.propose
  cases nextNumber? proposer.parentNumber with
  | none => rfl
  | some number => rfl

/-- Preparing to propose works on top of stored blocks, and goes by the header that is given. -/
theorem proposer_ok {tree : ForkTree} {parent : Header} {proposer : Proposer}
    (prepared : tree.proposer parent = .ok proposer) :
    tree.contains parent.hash = true ∧ proposer.parentHash = parent.hash ∧
      proposer.parentNumber = parent.number := by
  rw [ForkTree.proposer] at prepared
  split at prepared
  · next known =>
      cases prepared
      exact ⟨known, rfl, rfl⟩
  · cases prepared

theorem parentStateRoot_of_proposer_ok {tree : ForkTree} {parent : Header} {proposer : Proposer}
    (prepared : tree.proposer parent = .ok proposer) :
    proposer.parentStateRoot = parent.stateRoot := by
  rw [ForkTree.proposer] at prepared
  split at prepared
  · cases prepared
    rfl
  · cases prepared

end ForkTree

/-- What a proposal is made of. -/
theorem Proposer.propose_ok {proposer : Proposer} {tree : ForkTree} {digest : Digest}
    {limit : Option UInt64} {block : Block}
    (proposed : proposer.propose tree digest limit = .ok block) :
    block.header.parentHash = proposer.parentHash ∧ block.header.digest = digest ∧
      block.extrinsics = tree.ready limit := by
  unfold propose at proposed
  split at proposed
  · cases proposed
  · cases proposed
    exact ⟨rfl, rfl, rfl⟩

/-- The number of a proposal follows the parent's. -/
theorem Proposer.nextNumber?_of_propose_ok {proposer : Proposer} {tree : ForkTree}
    {digest : Digest} {limit : Option UInt64} {block : Block}
    (proposed : proposer.propose tree digest limit = .ok block) :
    nextNumber? proposer.parentNumber = some block.header.number := by
  unfold propose at proposed
  split at proposed
  · cases proposed
  · next follows =>
      cases proposed
      exact follows

/-- The roots of a proposal commit to its extrinsics, and to the state below it. -/
theorem Proposer.roots_of_propose_ok {proposer : Proposer} {tree : ForkTree} {digest : Digest}
    {limit : Option UInt64} {block : Block}
    (proposed : proposer.propose tree digest limit = .ok block) :
    block.header.extrinsicsRoot = extrinsicsRoot block.extrinsics ∧
      block.header.stateRoot =
        nextStateRoot proposer.parentStateRoot block.header.extrinsicsRoot := by
  unfold propose at proposed
  split at proposed
  · cases proposed
  · cases proposed
    exact ⟨rfl, rfl⟩

theorem toNat_of_nextNumber?_eq_some {number next : UInt32}
    (follows : nextNumber? number = some next) : next.toNat = number.toNat + 1 := by
  unfold nextNumber? at follows
  split at follows
  · next room =>
      cases follows
      have one : (1 : UInt32).toNat = 1 := rfl
      rw [UInt32.toNat_add, one]
      exact Nat.mod_eq_of_lt room
  · cases follows

end Authorship
