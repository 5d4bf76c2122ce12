/-
Module: Authorship.Proofs.Node.SlotBlock
Purpose: The block of a slot at a worker that proposes on a tree and imports into it. There is one
  unless no key of the worker may author, inherent data cannot be made, the head is not stored or
  has the last number there is; signing and importing cannot fail. The block that is answered is
  the one that the tree was given, made for the first key that may author.
Main exports: FirstToAuthor, ForkTree.blockOn, Surroundings.Hindered, Surroundings.SlotResult,
  Surroundings.onSlot_slotResult, Surroundings.onSlot_authors
-/
import Authorship.Proofs.ForkTree.Longest
import Authorship.Proofs.Node.Executable

namespace Authorship

/-! ## The key that authors -/

/-- Of the keys, this is the first one that the runtime lets author at the slot. -/
def FirstToAuthor (api : RuntimeApi) (head : Header) (slot : UInt32) (keys : List AuthorId)
    (key : AuthorId) : Prop :=
  ∃ before after, keys = before ++ key :: after ∧ api head key slot = .ok true ∧
    ∀ earlier ∈ before, api head earlier slot ≠ .ok true

section Keys

variable {api : RuntimeApi} {keyring : Keyring} {head : Header} {slot : UInt32} {key : AuthorId}

theorem firstEligibleKey?_eq_none_iff :
    firstEligibleKey? api keyring head slot = none ↔
      ∀ key ∈ keyring.keys authorshipKeys, api head key slot ≠ .ok true := by
  rw [firstEligibleKey?, List.find?_eq_none]
  refine forall₂_congr fun key _ => not_congr ?_
  cases api head key slot with
  | error error => simp
  | ok may => simp

theorem firstToAuthor_of_firstEligibleKey?
    (found : firstEligibleKey? api keyring head slot = some key) :
    FirstToAuthor api head slot (keyring.keys authorshipKeys) key := by
  have may := firstEligibleKey?_eq_some found
  rw [firstEligibleKey?, List.find?_eq_some_iff_append] at found
  obtain ⟨_, before, after, split, barred⟩ := found
  refine ⟨before, after, split, may, ?_⟩
  intro earlier member answered
  have notEligible := barred earlier member
  rw [answered] at notEligible
  cases notEligible

theorem FirstToAuthor.mem {keys : List AuthorId} (first : FirstToAuthor api head slot keys key) :
    key ∈ keys := by
  obtain ⟨before, after, rfl, _⟩ := first
  exact List.mem_append_right before List.mem_cons_self

/-- A key that a store lists is one that it signs with. -/
theorem KeyStore.Faithful.sealHeader_of_mem {scheme : SignatureScheme} {store : KeyStore}
    (faithful : store.Faithful scheme) (listed : key ∈ store.keys authorshipKeys) :
    ∃ seed, scheme.publicKey seed = key ∧ ∀ header,
      sealHeader (store.keyring scheme) header key =
        .ok (.ofSignature (scheme.sign seed header.hash.toBytes)) := by
  obtain ⟨seed, held⟩ := Option.isSome_iff_exists.mp (faithful.mem_keys_iff_holds.mp listed)
  refine ⟨seed, (faithful _).own _ _ held, ?_⟩
  intro header
  simp [sealHeader, keyring, signWith?, held]

end Keys

/-! ## The block that is proposed -/

namespace ForkTree

/-- The block that a tree proposes on top of a head. -/
def blockOn (tree : ForkTree) (head : Header) (digest : Digest) (limit : Option UInt64) :
    Block where
  header :=
    { parentHash := head.hash
      number := head.number + 1
      stateRoot := nextStateRoot head.stateRoot (extrinsicsRoot (tree.ready limit))
      extrinsicsRoot := extrinsicsRoot (tree.ready limit)
      digest }
  extrinsics := tree.ready limit

/-- The proposer on top of a head that is stored. -/
def proposerOn (head : Header) : Proposer where
  parentHash := head.hash
  parentNumber := head.number
  parentStateRoot := head.stateRoot

variable {tree : ForkTree} {head : Header}

theorem proposer_of_contains (stored : tree.contains head.hash = true) :
    tree.proposer head = .ok (proposerOn head) := by
  simp [proposer, stored, proposerOn]

theorem proposer_of_not_contains (absent : tree.contains head.hash = false) :
    tree.proposer head = .error (.unknownParent head.hash) := by
  simp [proposer, absent]

theorem propose_of_room (room : head.number.toNat + 1 < UInt32.size) (digest : Digest)
    (limit : Option UInt64) :
    (proposerOn head).propose tree digest limit = .ok (tree.blockOn head digest limit) := by
  simp [Proposer.propose, proposerOn, nextNumber?, room, blockOn]

theorem propose_of_last (last : head.number.toNat + 1 = UInt32.size) (digest : Digest)
    (limit : Option UInt64) :
    (proposerOn head).propose tree digest limit =
      .error (.proposer "block number overflow") := by
  simp [Proposer.propose, proposerOn, nextNumber?, last]

/-- A block whose header commits to its body, with its seal apart, is imported as a whole. -/
theorem importBlock_own {proposal : Block}
    (commits : proposal.header.extrinsicsRoot = extrinsicsRoot proposal.extrinsics)
    (item : DigestItem) :
    tree.importBlock
      { origin := .own, header := proposal.header, body := some proposal.extrinsics,
        postDigests := [item], forkChoice := some .longest } =
      tree.insert { proposal with header := proposal.header.push item } .longest := by
  simp [importBlock, ImportRequest.postHeader, commits, Header.push]

theorem insert_of_contains_parentHash {block : Block}
    (hasParent : tree.contains block.header.parentHash = true) (choice : ForkChoice) :
    ∃ outcome next, tree.insert block choice = .ok (outcome, next) := by
  rcases tree.insert_cases block choice with
    ⟨_, known⟩ | ⟨_, orphan, _⟩ | ⟨parent, isNewBest, _, _, attached⟩
  · exact ⟨_, _, known⟩
  · rw [orphan] at hasParent
    cases hasParent
  · exact ⟨_, _, attached⟩

end ForkTree

/-! ## A worker at work -/

namespace SlotWorker

variable {σ : Type} {worker : SlotWorker σ} {info : SlotInfo} {start final : σ} {key : AuthorId}

/-- What the worker does once it found its key. -/
def authorFor (worker : SlotWorker σ) (info : SlotInfo) (key : AuthorId) : Action σ Block := do
  let inherents ← worker.node.inherentData info.head.hash info.slot.toUInt32
  let propose ← worker.node.proposer info.head
  let block ← propose inherents (authoringDigest worker.extra key info.head.hash)
    worker.proposingTime info.blockSizeLimit
  let sealItem ← .ofExcept (sealHeader worker.keyring block.header key)
  let _ ← worker.node.importBlock
    { origin := .own, header := block.header, body := some block.extrinsics,
      postDigests := [sealItem], forkChoice := some .longest }
  return { block with header := block.header.push sealItem }

theorem run_author_of_none (worker : SlotWorker σ)
    (nobody : firstEligibleKey? (worker.node.api start) worker.keyring info.head
      info.slot.toUInt32 = none) :
    (worker.author info).run.run start = (.error (.noEligibleKey info.slot.toUInt32), start) := by
  rw [author, Attempt.run_bind_eq (Attempt.run_get start)]
  simp only [nobody]
  rfl

theorem run_author_of_some (worker : SlotWorker σ)
    (found : firstEligibleKey? (worker.node.api start) worker.keyring info.head
      info.slot.toUInt32 = some key) :
    (worker.author info).run.run start = (worker.authorFor info key).run.run start := by
  rw [author, Attempt.run_bind_eq (Attempt.run_get start)]
  simp only [found]
  rfl

theorem run_onSlot_of_error {error : ConsensusError}
    (failed : (worker.author info).run.run start = (.error error, final)) :
    (worker.onSlot info).run start = (none, final) := by
  rw [onSlot, StateM.run_bind_eq failed]
  rfl

theorem run_onSlot_of_ok {block : Block}
    (authored : (worker.author info).run.run start = (.ok block, final)) :
    (worker.onSlot info).run start = (some block, final) := by
  rw [onSlot, StateM.run_bind_eq authored]
  rfl

end SlotWorker

namespace Surroundings

variable {surroundings : Surroundings} {tree : ForkTree} {head : Header}

/-- The inherent data of a block on top of a parent at a slot, as the tree is. -/
def dataFor (surroundings : Surroundings) (tree : ForkTree) (parent : Hash) (slot : UInt32) :
    Except ConsensusError InherentData := do
  let provider ← surroundings.inherents tree parent slot
  provider.create.mapError .inherent

theorem run_inherentData (surroundings : Surroundings) (tree : ForkTree) (parent : Hash)
    (slot : UInt32) :
    (surroundings.node.inherentData parent slot).run.run tree =
      (surroundings.dataFor tree parent slot, tree) :=
  Node.run_inherentData rfl

theorem run_proposer (surroundings : Surroundings) (tree : ForkTree) (head : Header) :
    (surroundings.node.proposer head).run.run tree =
      ((tree.proposer head).map fun proposer _ digest _ limit => proposer.fill digest limit,
        tree) :=
  ForkTree.run_localNode_proposer surroundings.api (fun _ _ => .ok .nothing) tree head

/-- What keeps a worker with these keys from authoring in a slot. -/
inductive Hindered (surroundings : Surroundings) (keys : List AuthorId) (tree : ForkTree)
    (info : SlotInfo) : Prop where
  | noKey (barred : ∀ key ∈ keys,
      surroundings.api tree info.head key info.slot.toUInt32 ≠ .ok true)
  | noInherents {error : ConsensusError}
      (failed : surroundings.dataFor tree info.head.hash info.slot.toUInt32 = .error error)
  | unknownHead (absent : tree.contains info.head.hash = false)
  | lastNumber (last : info.head.number.toNat + 1 = UInt32.size)

end Surroundings

/-- The block of a slot before it is sealed. -/
def ForkTree.slotProposal (tree : ForkTree) (key : AuthorId) (extra : ExtraDigests)
    (info : SlotInfo) : Block :=
  tree.blockOn info.head (authoringDigest extra key info.head.hash) info.blockSizeLimit

/-- The block of a slot, made with a seed. -/
def ForkTree.slotBlock (tree : ForkTree) (scheme : SignatureScheme) (seed : Seed)
    (extra : ExtraDigests) (info : SlotInfo) : Block :=
  let proposal := tree.slotProposal (scheme.publicKey seed) extra info
  { proposal with header := proposal.header.sealedBy scheme seed }

namespace Surroundings

/-- What comes of a slot, with the tree after it. -/
inductive SlotResult (surroundings : Surroundings) (scheme : SignatureScheme)
    (keys : List AuthorId) (extra : ExtraDigests) (tree : ForkTree) (info : SlotInfo) :
    Option Block × ForkTree → Prop where
  | hindered (hindrance : surroundings.Hindered keys tree info) :
      SlotResult surroundings scheme keys extra tree info (none, tree)
  | authored {seed : Seed} {data : InherentData} {outcome : ImportOutcome} {next : ForkTree}
      (first : FirstToAuthor (surroundings.api tree) info.head info.slot.toUInt32 keys
        (scheme.publicKey seed))
      (filled : surroundings.dataFor tree info.head.hash info.slot.toUInt32 = .ok data)
      (stored : tree.contains info.head.hash = true)
      (room : info.head.number.toNat + 1 < UInt32.size)
      (inserted : tree.insert (tree.slotBlock scheme seed extra info) .longest =
        .ok (outcome, next)) :
      SlotResult surroundings scheme keys extra tree info
        (some (tree.slotBlock scheme seed extra info), next)

variable {surroundings : Surroundings} {scheme : SignatureScheme} {keys : List (KeyType × Seed)}
  {extra : ExtraDigests} {proposingTime : UInt64} {tree : ForkTree} {info : SlotInfo}

/-- The proposer of a node, prepared on top of a head, at work on the tree as it is then. -/
def proposeOn (head : Header) : Propose ForkTree :=
  fun _ digest _ limit => (ForkTree.proposerOn head).fill digest limit

theorem run_proposeOn (head : Header) (data : InherentData) (digest : Digest)
    (milliseconds : UInt64) (limit : Option UInt64) (tree : ForkTree) :
    (proposeOn head data digest milliseconds limit).run.run tree =
      ((ForkTree.proposerOn head).propose tree digest limit, tree) :=
  ForkTree.run_fill tree _ digest limit

section AuthorFor

variable {seed : Seed} {data : InherentData}

theorem run_proposer_of_contains (stored : tree.contains info.head.hash = true) :
    (surroundings.node.proposer info.head).run.run tree = (.ok (proposeOn info.head), tree) := by
  rw [run_proposer, ForkTree.proposer_of_contains stored]
  rfl

theorem run_importBlock_own (surroundings : Surroundings) {proposal : Block} {item : DigestItem}
    {outcome : ImportOutcome} {next : ForkTree}
    (commits : proposal.header.extrinsicsRoot = extrinsicsRoot proposal.extrinsics)
    (inserted : tree.insert { proposal with header := proposal.header.push item } .longest =
      .ok (outcome, next)) :
    (surroundings.node.importBlock
      { origin := .own, header := proposal.header, body := some proposal.extrinsics,
        postDigests := [item], forkChoice := some .longest }).run.run tree =
      (.ok outcome, next) := by
  have imported := (ForkTree.importBlock_own commits item).trans inserted
  exact ForkTree.run_storeRequest_ok imported

/-- Once a key is found that signs, only inherent data, the head and its number can fail. -/
theorem run_authorFor
    (signs : ∀ header, sealHeader ((KeyStore.addAll scheme {} keys).keyring scheme) header
      (scheme.publicKey seed) = .ok (.ofSignature (scheme.sign seed header.hash.toBytes)))
    (filled : surroundings.dataFor tree info.head.hash info.slot.toUInt32 = .ok data)
    (stored : tree.contains info.head.hash = true)
    (room : info.head.number.toNat + 1 < UInt32.size) :
    ∃ outcome next,
      tree.insert (tree.slotBlock scheme seed extra info) .longest = .ok (outcome, next) ∧
      ((surroundings.worker scheme keys extra proposingTime).authorFor info
          (scheme.publicKey seed)).run.run tree =
        (.ok (tree.slotBlock scheme seed extra info), next) := by
  have fills : (surroundings.node.inherentData info.head.hash info.slot.toUInt32).run.run tree =
      (.ok data, tree) := by
    rw [run_inherentData, filled]
  have proposes : (proposeOn info.head data
      (authoringDigest extra (scheme.publicKey seed) info.head.hash) proposingTime
      info.blockSizeLimit).run.run tree =
        (.ok (tree.slotProposal (scheme.publicKey seed) extra info), tree) := by
    rw [run_proposeOn, ForkTree.propose_of_room room]
    rfl
  have sealing : (Attempt.ofExcept (sealHeader ((KeyStore.addAll scheme {} keys).keyring scheme)
      (tree.slotProposal (scheme.publicKey seed) extra info).header (scheme.publicKey seed)) :
        Action ForkTree DigestItem).run.run tree = (.ok _, tree) :=
    Prod.ext (signs _) rfl
  -- The head that was stored for the proposer is the parent that the import looks for.
  have hasParent : tree.contains (tree.slotBlock scheme seed extra info).header.parentHash =
      true := stored
  obtain ⟨outcome, next, inserted⟩ := ForkTree.insert_of_contains_parentHash hasParent .longest
  have commits : (tree.slotProposal (scheme.publicKey seed) extra info).header.extrinsicsRoot =
      extrinsicsRoot (tree.slotProposal (scheme.publicKey seed) extra info).extrinsics := rfl
  have imports := run_importBlock_own surroundings commits inserted
  refine ⟨outcome, next, inserted, ?_⟩
  exact (Attempt.run_bind_eq fills).trans <|
    (Attempt.run_bind_eq (run_proposer_of_contains stored)).trans <|
    (Attempt.run_bind_eq proposes).trans <|
    (Attempt.run_bind_eq sealing).trans (Attempt.run_bind_eq imports)

/-- With a key that signs, the worker is hindered or authors. -/
theorem authorFor_cases (surroundings : Surroundings) (extra : ExtraDigests)
    (proposingTime : UInt64) (tree : ForkTree) (info : SlotInfo)
    (signs : ∀ header, sealHeader ((KeyStore.addAll scheme {} keys).keyring scheme) header
      (scheme.publicKey seed) = .ok (.ofSignature (scheme.sign seed header.hash.toBytes)))
    (others : List AuthorId) :
    (surroundings.Hindered others tree info ∧ ∃ error,
      ((surroundings.worker scheme keys extra proposingTime).authorFor info
        (scheme.publicKey seed)).run.run tree = (.error error, tree)) ∨
    ∃ data outcome next,
      surroundings.dataFor tree info.head.hash info.slot.toUInt32 = .ok data ∧
      tree.contains info.head.hash = true ∧ info.head.number.toNat + 1 < UInt32.size ∧
      tree.insert (tree.slotBlock scheme seed extra info) .longest = .ok (outcome, next) ∧
      ((surroundings.worker scheme keys extra proposingTime).authorFor info
          (scheme.publicKey seed)).run.run tree =
        (.ok (tree.slotBlock scheme seed extra info), next) := by
  have fills := run_inherentData surroundings tree info.head.hash info.slot.toUInt32
  cases filled : surroundings.dataFor tree info.head.hash info.slot.toUInt32 with
  | error error =>
      rw [filled] at fills
      exact .inl ⟨.noInherents filled, error, Attempt.run_bind_error fills⟩
  | ok data =>
      rw [filled] at fills
      cases stored : tree.contains info.head.hash with
      | false =>
          have prepares : (surroundings.node.proposer info.head).run.run tree =
              (.error (.unknownParent info.head.hash), tree) := by
            rw [run_proposer, ForkTree.proposer_of_not_contains stored]
            rfl
          exact .inl ⟨.unknownHead stored, _,
            (Attempt.run_bind_eq fills).trans (Attempt.run_bind_error prepares)⟩
      | true =>
          by_cases room : info.head.number.toNat + 1 < UInt32.size
          case pos =>
            obtain ⟨outcome, next, inserted, authored⟩ := run_authorFor signs filled stored room
            exact .inr ⟨data, outcome, next, rfl, rfl, room, inserted, authored⟩
          case neg =>
            have last : info.head.number.toNat + 1 = UInt32.size := by
              have bound := info.head.number.toNat_lt_size
              omega
            have proposes : (proposeOn info.head data
                (authoringDigest extra (scheme.publicKey seed) info.head.hash) proposingTime
                info.blockSizeLimit).run.run tree =
                  (.error (.proposer "block number overflow"), tree) := by
              rw [run_proposeOn, ForkTree.propose_of_last last]
            exact .inl ⟨.lastNumber last, _,
              (Attempt.run_bind_eq fills).trans <|
              (Attempt.run_bind_eq (run_proposer_of_contains stored)).trans
                (Attempt.run_bind_error proposes)⟩

end AuthorFor

/-- In every slot a worker is hindered, or authors with the first key that may. -/
theorem onSlot_slotResult (surroundings : Surroundings) (scheme : SignatureScheme)
    (keys : List (KeyType × Seed)) (extra : ExtraDigests) (proposingTime : UInt64)
    (tree : ForkTree) (info : SlotInfo) :
    SlotResult surroundings scheme ((KeyStore.addAll scheme {} keys).keys authorshipKeys) extra
      tree info
      (((surroundings.worker scheme keys extra proposingTime).onSlot info).run tree) := by
  cases found : firstEligibleKey? (surroundings.api tree)
      ((KeyStore.addAll scheme {} keys).keyring scheme) info.head info.slot.toUInt32 with
  | none =>
      have failed := SlotWorker.run_author_of_none
        (surroundings.worker scheme keys extra proposingTime) found
      rw [SlotWorker.run_onSlot_of_error failed]
      exact .hindered (.noKey (firstEligibleKey?_eq_none_iff.mp found))
  | some key =>
      have first := firstToAuthor_of_firstEligibleKey? found
      obtain ⟨seed, rfl, signs⟩ :=
        (KeyStore.faithful_addAll scheme keys).sealHeader_of_mem first.mem
      have begun := SlotWorker.run_author_of_some
        (surroundings.worker scheme keys extra proposingTime) found
      rcases authorFor_cases surroundings extra proposingTime tree info signs
          ((KeyStore.addAll scheme {} keys).keys authorshipKeys) with
        ⟨hindrance, _, failed⟩ | ⟨_, _, _, filled, stored, room, inserted, authored⟩
      · rw [SlotWorker.run_onSlot_of_error (begun.trans failed)]
        exact .hindered hindrance
      · rw [SlotWorker.run_onSlot_of_ok (begun.trans authored)]
        exact .authored first filled stored room inserted

/-! ## Exactly when it can -/

namespace SlotResult

variable {others : List AuthorId} {block : Block} {next : ForkTree}

theorem eq_none_iff {authored? : Option Block}
    (result : SlotResult surroundings scheme others extra tree info (authored?, next)) :
    authored? = none ↔ surroundings.Hindered others tree info := by
  cases result with
  | hindered hindrance => exact iff_of_true rfl hindrance
  | authored first filled stored room _ =>
      refine iff_of_false nofun ?_
      intro hindrance
      cases hindrance with
      | noKey barred =>
          obtain ⟨_, _, _, may, _⟩ := id first
          exact barred _ first.mem may
      | noInherents failed => cases filled.symm.trans failed
      | unknownHead absent => cases stored.symm.trans absent
      | lastNumber last => omega

end SlotResult

end Surroundings

namespace ForkTree

variable {tree : ForkTree} {scheme : SignatureScheme} {seed : Seed} {extra : ExtraDigests}
  {info : SlotInfo}

/-- A block on the head of the slot with what the tree has ready, that names the key of the seed and
is sealed with it. -/
structure IsSlotBlock (tree : ForkTree) (scheme : SignatureScheme) (seed : Seed)
    (extra : ExtraDigests) (info : SlotInfo) (block : Block) : Prop where
  parentHash : block.header.parentHash = info.head.hash
  number : block.header.number.toNat = info.head.number.toNat + 1
  stateRoot : block.header.stateRoot =
    nextStateRoot info.head.stateRoot block.header.extrinsicsRoot
  extrinsicsRoot : block.header.extrinsicsRoot = Authorship.extrinsicsRoot block.extrinsics
  extrinsics : block.extrinsics = tree.ready info.blockSizeLimit
  /-- The log that names the author, the extra ones, and the seal over all of them. -/
  digest : block.header.digest =
    .ofAuthor (scheme.publicKey seed) :: extra (scheme.publicKey seed) info.head.hash ++
      [.ofSignature (scheme.sign seed block.header.pop.hash.toBytes)]
  checks : scheme.Sound → block.header.stripSeal scheme =
    (.ok (scheme.publicKey seed, .ofSignature (scheme.sign seed block.header.pop.hash.toBytes)),
      block.header.pop)

theorem isSlotBlock_slotBlock (tree : ForkTree) (scheme : SignatureScheme) (seed : Seed)
    (extra : ExtraDigests) (room : info.head.number.toNat + 1 < UInt32.size) :
    tree.IsSlotBlock scheme seed extra info (tree.slotBlock scheme seed extra info) := by
  have below : (tree.slotBlock scheme seed extra info).header.pop =
      (tree.slotProposal (scheme.publicKey seed) extra info).header := by
    simp [slotBlock, Header.sealedBy]
  constructor
  case parentHash => rfl
  case number =>
    have one : (1 : UInt32).toNat = 1 := rfl
    change (info.head.number + 1).toNat = _
    rw [UInt32.toNat_add, one, Nat.mod_eq_of_lt room]
  case stateRoot => rfl
  case extrinsicsRoot => rfl
  case extrinsics => rfl
  case digest =>
    rw [below]
    rfl
  case checks =>
    intro sound
    rw [below]
    exact Header.stripSeal_push_ofSignature (author?_of_authoringDigest rfl) (sound seed _)

end ForkTree

/-- What a worker makes of a slot, whatever its keys, the runtime, the inherent data and the extra
logs are. There is no block just when it is hindered, and then the tree stays as it is. The block
that it answers is made for the first of its keys that the runtime lets author, and it was added to
the tree just as it is answered, unless its hash was taken before. On the best block of a tree whose
imports all preferred the longest chain the block is added and becomes the best one, as long as
depths have room, no other header is stored under its hash, and it is not the genesis block come
back. -/
theorem Surroundings.onSlot_authors (surroundings : Surroundings) (scheme : SignatureScheme)
    (keys : List (KeyType × Seed)) (extra : ExtraDigests) (proposingTime : UInt64)
    (tree : ForkTree) (info : SlotInfo) :
    ∀ authored? next,
      ((surroundings.worker scheme keys extra proposingTime).onSlot info).run tree =
          (authored?, next) →
        (authored? = none ↔ surroundings.Hindered
          ((KeyStore.addAll scheme {} keys).keys authorshipKeys) tree info) ∧
        (authored? = none → next = tree) ∧
        ∀ block, authored? = some block →
          (∃ seed, FirstToAuthor (surroundings.api tree) info.head info.slot.toUInt32
              ((KeyStore.addAll scheme {} keys).keys authorshipKeys) (scheme.publicKey seed) ∧
            tree.IsSlotBlock scheme seed extra info block) ∧
          (tree.contains block.hash = true ∧ next = tree ∨
            ∃ isNewBest, tree.Adds block isNewBest next ∧
              next.block? block.hash = some block) ∧
          ∀ genesis operations history,
            (ForkTree.ofGenesis genesis).run operations = (history, tree) →
            (∀ operation ∈ operations, operation.PrefersLongest) →
            tree.bestHeader? = some info.head → tree.HasRoom → block.header ≠ genesis →
            (∀ hash stored, tree.header? hash = some stored → stored.hash = block.hash →
              stored = block.header) →
              tree.Adds block true next := by
  intro authored? next ran
  have result := onSlot_slotResult surroundings scheme keys extra proposingTime tree info
  rw [ran] at result
  refine ⟨result.eq_none_iff, ?_, ?_⟩
  · rintro rfl
    cases result with
    | hindered => rfl
  · rintro block rfl
    cases result with
    | @authored seed _ outcome _ first filled stored room inserted =>
        have slotBlock := tree.isSlotBlock_slotBlock scheme seed extra room
        refine ⟨⟨seed, first, slotBlock⟩, ?_, ?_⟩
        · rcases ForkTree.insert_ok_cases inserted with
            ⟨known, _, unchanged⟩ | ⟨parent, attachable, _, rfl⟩
          · exact .inl ⟨known, unchanged⟩
          · have adds := attachable.adds (tree.becomesBest (parent.depth + 1) .longest)
            exact .inr ⟨_, adds, by rw [adds.block?, if_pos rfl]⟩
        · intro genesis operations history grew longest isBest hasRoom notGenesis apart
          have preferring := ForkTree.Preferring.run grew longest
          have onBest : (tree.slotBlock scheme seed extra info).header.parentHash = tree.best :=
            slotBlock.parentHash.trans (preferring.ownHashes.of_header? isBest)
          exact (preferring.adds_onBest hasRoom onBest notGenesis apart inserted).2

section Picky

open Traffic

private def workerSeed (value : UInt8) : Seed := ⟨FixedBytes.replicate 32 value⟩

/-- The runtime cannot say about the first key, bars the second and lets the third author at slot
five. -/
private def pickySurroundings : Surroundings :=
  { openSurroundings with
    api := fun _ _ author slot =>
      if author = ed25519.publicKey (workerSeed 1) then .error (.application "no session")
      else .ok (author = ed25519.publicKey (workerSeed 3) && slot == 5) }

private def threeKeys : List (KeyType × Seed) :=
  [(authorshipKeys, workerSeed 1), (authorshipKeys, workerSeed 2), (authorshipKeys, workerSeed 3)]

/-- Slot five by its low half. -/
private def lateSlot : SlotInfo := { slot := 4294967301, head := {}, duration := ⟨6, 0⟩ }

private def waitingTree : ForkTree := (ForkTree.ofGenesis {}).submit [9]

/-- The third key authors what waits, and the block becomes the best one. -/
theorem Surroundings.onSlot_authors_lateSlot :
    ∃ block next,
      ((pickySurroundings.worker ed25519 threeKeys (fun _ _ => [.other [7]]) 1000).onSlot
          lateSlot).run waitingTree = (some block, next) ∧
        block.header.author? = some (ed25519.publicKey (workerSeed 3)) ∧
        block.extrinsics = [[9]] ∧ next.best = block.hash ∧
        next.block? block.hash = some block := by
  have authored : ((((pickySurroundings.worker ed25519 threeKeys (fun _ _ => [.other [7]])
      1000).onSlot lateSlot).run waitingTree).1.map fun block =>
        (block.header.author?, decide (({} : Header).hash = block.hash))) =
          some (some (ed25519.publicKey (workerSeed 3)), false) := by
    decide +kernel
  cases ran : ((pickySurroundings.worker ed25519 threeKeys (fun _ _ => [.other [7]]) 1000).onSlot
      lateSlot).run waitingTree with
  | mk authored? next =>
      rw [ran] at authored
      obtain ⟨block, rfl, facts⟩ := Option.map_eq_some_iff.mp authored
      obtain ⟨names, other⟩ := Prod.mk.inj facts
      have notSame : ({} : Header).hash ≠ block.hash := of_decide_eq_false other
      obtain ⟨_, _, made⟩ := Surroundings.onSlot_authors pickySurroundings ed25519 threeKeys
        (fun _ _ => [.other [7]]) 1000 waitingTree lateSlot _ _ ran
      obtain ⟨⟨seed, _, slotBlock⟩, _, best⟩ := made block rfl
      have notGenesis : block.header ≠ {} := by
        intro same
        have number := slotBlock.number
        rw [same] at number
        cases number
      have room : waitingTree.HasRoom := by
        intro depth stored
        have zero : waitingTree.depth? waitingTree.best = some 0 := by
          simp [waitingTree, ForkTree.depth?_ofGenesis]
        rw [zero] at stored
        cases stored
        decide
      have apart : ∀ hash stored, waitingTree.header? hash = some stored →
          stored.hash = block.hash → stored = block.header := by
        intro hash stored found same
        obtain ⟨held, isHeld, rfl⟩ := Option.map_eq_some_iff.mp found
        rw [waitingTree, ForkTree.block?_submit, ForkTree.block?_ofGenesis] at isHeld
        split at isHeld
        · cases isHeld
          exact absurd same notSame
        · cases isHeld
      have adds := best {} [.submit [9]] [(.submit [9], .queued)] rfl
        (by simp [ForkTree.Operation.PrefersLongest, ForkTree.Operation.import?])
        (by simp [waitingTree, lateSlot, ForkTree.bestHeader?, ForkTree.header?,
          ForkTree.block?_ofGenesis]) room notGenesis apart
      refine ⟨block, next, rfl, names, slotBlock.extrinsics, adds.best, ?_⟩
      rw [adds.block?, if_pos rfl]

end Picky

end Authorship
