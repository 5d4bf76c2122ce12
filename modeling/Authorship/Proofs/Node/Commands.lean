/-
Module: Authorship.Proofs.Node.Commands
Purpose: Authoring on command over whole sequences of commands, at a local node to which extrinsics
  are submitted all the while. A round either fails and leaves the tree to what is submitted, or it
  seals a block on the parent that was asked for, and the tree holds it from then on.
Main exports: OnDemand.Engine.exists_of_run_serve_append, OnDemand.Engine.addressees_serve,
  Moments.NothingToDo, Moments.Made, Moments.Outcome, Moments.outcome_author,
  Moments.commands_served
-/
import Mathlib.Control.Monad.Basic
import Authorship.Proofs.ForkTree.Longest
import Authorship.Proofs.Node.Moments

namespace Authorship

open OnDemand

section Map

variable {ε α β : Type} {f : α → β} {outcome : Except ε α}

theorem exists_of_map_eq_ok {value : β} (mapped : outcome.map f = .ok value) :
    ∃ before, outcome = .ok before ∧ value = f before := by
  cases outcome with
  | error error => cases mapped
  | ok before =>
      cases mapped
      exact ⟨before, rfl, rfl⟩

theorem eq_error_of_map_eq_error {error : ε} (mapped : outcome.map f = .error error) :
    outcome = .error error := by
  cases outcome with
  | error _ =>
      cases mapped
      rfl
  | ok _ => cases mapped

end Map

/-! ## Serving one command after the other -/

namespace OnDemand.Engine

variable {σ ρ : Type} (engine : Engine σ)

/-- What a command is answered, if it wants an answer. -/
def reply (command : Command ρ) (outcome : Except ConsensusError CreatedBlock) :
    List (ρ × Except ConsensusError CreatedBlock) :=
  (command.replyTo.map (·, outcome)).toList

theorem run_serve_cons {command : Command ρ} {rest : List (Command ρ)} {state next final : σ}
    {outcome : Except ConsensusError CreatedBlock}
    {answers : List (ρ × Except ConsensusError CreatedBlock)}
    (authored : (engine.author command.createEmpty command.parent?).run.run state =
      (outcome, next))
    (served : (engine.serve rest).run next = (answers, final)) :
    (engine.serve (command :: rest)).run state = (reply command outcome ++ answers, final) := by
  rw [serve, StateT.run_bind, authored]
  change ((engine.serve rest >>= _).run next) = _
  rw [StateT.run_bind, served]
  cases asked : command.replyTo with
  | none =>
      rw [reply, asked]
      rfl
  | some addressee =>
      rw [reply, asked]
      rfl

theorem exists_of_run_serve_cons {command : Command ρ} {rest : List (Command ρ)} {state final : σ}
    {answers : List (ρ × Except ConsensusError CreatedBlock)}
    (served : (engine.serve (command :: rest)).run state = (answers, final)) :
    ∃ outcome next later,
      (engine.author command.createEmpty command.parent?).run.run state = (outcome, next) ∧
        (engine.serve rest).run next = (later, final) ∧
        answers = reply command outcome ++ later := by
  cases authored : (engine.author command.createEmpty command.parent?).run.run state with
  | mk outcome next =>
      cases servedRest : (engine.serve rest).run next with
      | mk later last =>
          rw [engine.run_serve_cons authored servedRest] at served
          cases served
          exact ⟨outcome, next, later, rfl, servedRest, rfl⟩

/-- What commands are answered is what the first of them are, and then what the others are from the
state in which the first leave the node. -/
theorem exists_of_run_serve_append {one two : List (Command ρ)} {state final : σ}
    {answers : List (ρ × Except ConsensusError CreatedBlock)}
    (served : (engine.serve (one ++ two)).run state = (answers, final)) :
    ∃ earlier middle later,
      (engine.serve one).run state = (earlier, middle) ∧
        (engine.serve two).run middle = (later, final) ∧
        answers = earlier ++ later := by
  induction one generalizing state answers with
  | nil => exact ⟨[], state, answers, rfl, served, rfl⟩
  | cons command rest inductionHypothesis =>
      obtain ⟨outcome, next, others, authored, servedOthers, rfl⟩ :=
        engine.exists_of_run_serve_cons served
      obtain ⟨earlier, middle, later, servedRest, servedTwo, rfl⟩ :=
        inductionHypothesis servedOthers
      have servedOne := engine.run_serve_cons authored servedRest
      exact ⟨_, middle, later, servedOne, servedTwo, (List.append_assoc ..).symm⟩

/-- Who asked for an answer gets one, and no one else does. -/
theorem addressees_serve {commands : List (Command ρ)} {state final : σ}
    {answers : List (ρ × Except ConsensusError CreatedBlock)}
    (served : (engine.serve commands).run state = (answers, final)) :
    answers.map Prod.fst = commands.filterMap Command.replyTo := by
  induction commands generalizing state answers with
  | nil =>
      cases served
      rfl
  | cons command rest inductionHypothesis =>
      obtain ⟨outcome, next, later, _, servedRest, rfl⟩ := engine.exists_of_run_serve_cons served
      rw [List.map_append, inductionHypothesis servedRest, reply]
      cases asked : command.replyTo with
      | none => simp [asked]
      | some addressee => simp [asked]

end OnDemand.Engine

/-! ## Who reports that there is nothing to author -/

namespace ForkTree

variable {tree : ForkTree}

theorem find_eq_ok_iff {hash : Hash} {header : Header} :
    tree.find hash = .ok header ↔ tree.header? hash = some header := by
  unfold find
  cases tree.header? hash <;> simp

theorem find_ne_emptyPool (hash : Hash) : tree.find hash ≠ .error .emptyPool := by
  unfold find
  cases tree.header? hash <;> simp

theorem proposer_ne_emptyPool (parent : Header) : tree.proposer parent ≠ .error .emptyPool := by
  dsimp only [proposer]
  split <;> simp

theorem importBlock_ne_emptyPool (request : ImportRequest) :
    tree.importBlock request ≠ .error .emptyPool := by
  rcases tree.importBlock_cases request with ⟨_, refused⟩ | ⟨_, inserts⟩
  · simp [refused]
  · rw [inserts]
    rcases tree.insert_cases request.block (request.forkChoice.getD .longest) with
      ⟨_, known⟩ | ⟨_, _, orphan⟩ | ⟨_, _, _, _, attached⟩
    · simp [known]
    · simp [orphan]
    · simp [attached]

end ForkTree

theorem Proposer.propose_ne_emptyPool (proposer : Proposer) (tree : ForkTree) (digest : Digest)
    (limit : Option UInt64) : proposer.propose tree digest limit ≠ .error .emptyPool := by
  unfold propose
  split <;> simp

theorem OnDemand.createDigest_ne_emptyPool (api : RuntimeApi) (keyring : Keyring)
    (extra : ExtraDigests) (parent : Header) (inherents : InherentData) :
    createDigest api keyring extra parent inherents ≠ .error .emptyPool := by
  unfold createDigest
  cases inherents.slot with
  | error error => simp [Except.mapError, bind, Except.bind]
  | ok slot? =>
      simp only [Except.mapError, bind, Except.bind]
      split <;> simp [throw, throwThe, MonadExceptOf.throw, pure, Except.pure]

theorem sealHeader_ne_emptyPool (keyring : Keyring) (header : Header) (author : AuthorId) :
    sealHeader keyring header author ≠ .error .emptyPool := by
  unfold sealHeader
  split <;> simp

theorem attachSeal_ne_emptyPool (keyring : Keyring) (request : ImportRequest) :
    attachSeal keyring request ≠ .error .emptyPool := by
  unfold attachSeal namedAuthor
  cases request.header.author? with
  | none => simp [bind, Except.bind]
  | some author =>
      have seals := sealHeader_ne_emptyPool keyring request.header author
      cases sealing : sealHeader keyring request.header author with
      | error error =>
          rw [sealing] at seals
          simpa [sealing, bind, Except.bind] using seals
      | ok item => simp [sealing, bind, Except.bind, pure, Except.pure]

namespace Moments

/-- Data that are missing for want of extrinsics are so as their maker says. -/
theorem inherents_of_inherentsAt {moments : Moments} {time : Nat} {parent : Hash} {slot : UInt32}
    (missing : moments.inherentsAt time parent slot = .error .emptyPool) :
    (moments time).inherents parent slot = .error .emptyPool := by
  unfold inherentsAt at missing
  cases provided : (moments time).inherents parent slot with
  | error error =>
      rw [provided] at missing
      simpa [bind, Except.bind] using missing
  | ok provider =>
      rw [provided] at missing
      simp only [bind, Except.bind] at missing
      cases created : provider.create with
      | error error =>
          rw [created] at missing
          cases missing
      | ok data =>
          rw [created] at missing
          cases missing

/-! ## One round -/

/-- The engine that authors on command at the node. -/
def engine (moments : Moments) (keyring : Keyring) (extra : ExtraDigests) : Engine State where
  node := moments.node
  keyring := keyring
  extra := extra

variable {moments : Moments} {keyring : Keyring} {extra : ExtraDigests} {state : State}
  {createEmpty : Bool} {parent? : Option Hash}

theorem run_parent (moments : Moments) (keyring : Keyring) (extra : ExtraDigests) (state : State)
    (parent? : Option Hash) :
    ((moments.engine keyring extra).parent parent?).run.run state =
      (state.tree.find (parent?.getD state.tree.best), moments.pass state 1) := by
  cases parent? with
  | none => exact run_bestHeader moments state
  | some hash =>
      have looked := run_header? moments state hash
      refine (Attempt.run_bind_eq looked).trans ?_
      rw [Option.getD_some, ForkTree.find]
      cases state.tree.header? hash <;> rfl

/-- There was nothing to put into a block, and none was asked for without; or whoever makes the
inherent data said so when those for a block on the parent were asked for. -/
def NothingToDo (moments : Moments) (state : State) (createEmpty : Bool) (parent? : Option Hash) :
    Prop :=
  (createEmpty = false ∧ (moments.pass state 4).tree.pool = []) ∨
    ∃ parent, state.tree.header? (parent?.getD state.tree.best) = some parent ∧
      (moments (state.time + 1)).inherents parent.hash (followingNumber parent.number) =
        .error .emptyPool

/-- The block that a round made goes on from the parent that was asked for, holds what the pool
offered, is sealed by the author whom it names, and is the one that is reported. -/
structure Made (moments : Moments) (keyring : Keyring) (state : State) (parent? : Option Hash)
    (created : CreatedBlock) (parent : Header) (block : Block) : Prop where
  found : state.tree.header? (parent?.getD state.tree.best) = some parent
  parentHash : block.header.parentHash = parent.hash
  number : block.header.number = created.number
  follows : created.number.toNat = parent.number.toNat + 1
  hash : block.hash = created.hash
  signed : ∃ header author item, header.author? = some author ∧
    sealHeader keyring header author = .ok item ∧ block.header = header.push item
  extrinsics : block.extrinsics = (moments.pass state 4).tree.pool

/-- What comes of a round: an error, after some moments in which nothing was done but submitting, or
a block that the tree took. -/
inductive Outcome (moments : Moments) (keyring : Keyring) (state : State) (createEmpty : Bool)
    (parent? : Option Hash) : Except ConsensusError CreatedBlock × State → Prop where
  | failed {error : ConsensusError} (count : Nat)
      (empty : error = .emptyPool → moments.NothingToDo state createEmpty parent?) :
      Outcome moments keyring state createEmpty parent? (.error error, moments.pass state count)
  | made {created : CreatedBlock} {tree : ForkTree} {parent : Header} {block : Block}
      (made : moments.Made keyring state parent? created parent block)
      (inserted : (moments.pass state 5).tree.insert block .longest =
        .ok (created.outcome, tree)) :
      Outcome moments keyring state createEmpty parent?
        (.ok created, { tree, time := state.time + 5 })

/-- A step that does nothing but let moments pass ends the round if it fails. -/
theorem Outcome.bind {β : Type} {first : Action State β} {next : β → Action State CreatedBlock}
    {result : Except ConsensusError β} {now : State} {count : Nat}
    (ran : first.run.run now = (result, moments.pass state count))
    (empty : result = .error .emptyPool → moments.NothingToDo state createEmpty parent?)
    (goes : ∀ value, result = .ok value →
      moments.Outcome keyring state createEmpty parent?
        ((next value).run.run (moments.pass state count))) :
    moments.Outcome keyring state createEmpty parent? ((first >>= next).run.run now) := by
  cases result with
  | error error =>
      rw [Attempt.run_bind_error ran]
      apply Outcome.failed
      intro isEmpty
      exact empty (congrArg _ isEmpty)
  | ok value =>
      rw [Attempt.run_bind_eq ran]
      exact goes value rfl

section Steps

variable {parent : Header} {proposer : Proposer} {digest : Digest} {proposal : Block}
  {request : ImportRequest}

/-- What was found, prepared, proposed and sealed in a round is the block that it makes. -/
theorem Made.of_steps (found : state.tree.find (parent?.getD state.tree.best) = .ok parent)
    (prepared : (moments.pass state 2).tree.proposer parent = .ok proposer)
    (proposed : proposer.propose (moments.pass state 4).tree digest none = .ok proposal)
    (attached : attachSeal keyring
      { origin := .own, header := proposal.header, body := some proposal.extrinsics,
        forkChoice := some .longest } = .ok request) (outcome : ImportOutcome) :
    moments.Made keyring state parent?
      { hash := request.postHash, number := proposal.header.number, outcome } parent
      request.block := by
  obtain ⟨author, item, names, signs, rfl⟩ := attachSeal_eq_ok attached
  obtain ⟨_, onParent, onNumber⟩ := ForkTree.proposer_ok prepared
  obtain ⟨parentHash, _, extrinsics⟩ := Proposer.propose_ok proposed
  have follows := Proposer.nextNumber?_of_propose_ok proposed
  rw [onNumber] at follows
  rw [ForkTree.ready_none] at extrinsics
  constructor
  case found => exact ForkTree.find_eq_ok_iff.mp found
  case parentHash => exact parentHash.trans onParent
  case number => rfl
  case follows => exact toNat_of_nextNumber?_eq_some follows
  case hash => rfl
  case signed => exact ⟨proposal.header, author, item, names, signs, postHeader_addPostDigest rfl _⟩
  case extrinsics => exact extrinsics

/-- The last step of a round is the import. -/
theorem outcome_import (found : state.tree.find (parent?.getD state.tree.best) = .ok parent)
    (prepared : (moments.pass state 2).tree.proposer parent = .ok proposer)
    (proposed : proposer.propose (moments.pass state 4).tree digest none = .ok proposal)
    (attached : attachSeal keyring
      { origin := .own, header := proposal.header, body := some proposal.extrinsics,
        forkChoice := some .longest } = .ok request) :
    moments.Outcome keyring state createEmpty parent?
      ((do
        let outcome ← moments.node.importBlock request
        return { hash := request.postHash, number := proposal.header.number, outcome } :
          Action State CreatedBlock).run.run (moments.pass state 4)) := by
  have imports := run_importBlock moments (moments.pass state 4) request
  rw [pass_pass] at imports
  cases stored : (moments.pass state 5).tree.importBlock request with
  | error error =>
      rw [stored] at imports
      rw [Attempt.run_bind_error imports]
      apply Outcome.failed
      intro isEmpty
      rw [isEmpty] at stored
      exact absurd stored (ForkTree.importBlock_ne_emptyPool request)
  | ok result =>
      obtain ⟨outcome, tree⟩ := result
      rw [stored] at imports
      rw [Attempt.run_bind_eq imports]
      have prefersLongest : request.forkChoice = some .longest := by
        obtain ⟨_, _, _, _, rfl⟩ := attachSeal_eq_ok attached
        rfl
      have inserted := ForkTree.insert_of_importBlock_ok stored
      rw [prefersLongest, Option.getD_some] at inserted
      exact .made (Made.of_steps found prepared proposed attached outcome) inserted

end Steps

/-- A round does nothing to the tree before its last step, which is the import. -/
theorem outcome_author (moments : Moments) (keyring : Keyring) (extra : ExtraDigests)
    (state : State) (createEmpty : Bool) (parent? : Option Hash) :
    moments.Outcome keyring state createEmpty parent?
      (((moments.engine keyring extra).author createEmpty parent?).run.run state) := by
  apply Outcome.bind (run_parent moments keyring extra state parent?)
  case empty => exact fun missing => absurd missing (ForkTree.find_ne_emptyPool _)
  intro parent found
  have fills := run_inherentData moments (moments.pass state 1) parent.hash
    (followingNumber parent.number)
  rw [pass_pass] at fills
  apply Outcome.bind fills
  case empty =>
    intro missing
    exact .inr ⟨parent, ForkTree.find_eq_ok_iff.mp found, inherents_of_inherentsAt missing⟩
  intro inherents _
  apply Outcome.bind (Attempt.run_get (moments.pass state 2))
  case empty => exact fun missing => by cases missing
  intro _ same
  cases same
  apply Outcome.bind (Attempt.run_ofExcept _ (moments.pass state 2))
  case empty => exact fun missing => absurd missing (createDigest_ne_emptyPool _ _ _ _ _)
  intro digest _
  have prepares := run_proposer moments (moments.pass state 2) parent
  rw [pass_pass] at prepares
  apply Outcome.bind prepares
  case empty =>
    intro missing
    exact absurd (eq_error_of_map_eq_error missing) (ForkTree.proposer_ne_emptyPool parent)
  intro propose mapped
  obtain ⟨proposer, prepared, rfl⟩ := exists_of_map_eq_ok mapped
  have proposes := run_proposeWith moments (moments.pass state 3) proposer inherents digest
    proposingTime none
  rw [pass_pass] at proposes
  apply Outcome.bind proposes
  case empty => exact fun missing => absurd missing (proposer.propose_ne_emptyPool _ _ _)
  intro proposal proposed
  dsimp only
  split
  · next nothing =>
      apply Outcome.bind (Attempt.run_throw .emptyPool (moments.pass state 4))
      case empty =>
        intro _
        rw [Bool.and_eq_true, List.isEmpty_iff, Bool.not_eq_true'] at nothing
        obtain ⟨empty, notAsked⟩ := nothing
        obtain ⟨_, _, extrinsics⟩ := Proposer.propose_ok proposed
        rw [empty, ForkTree.ready_none] at extrinsics
        exact .inl ⟨notAsked, extrinsics.symm⟩
      intro _ impossible
      cases impossible
  · apply Outcome.bind (Attempt.run_ofExcept _ (moments.pass state 4))
    case empty => exact fun missing => absurd missing (attachSeal_ne_emptyPool _ _)
    intro request attached
    exact outcome_import found prepared proposed attached

/-! ## All rounds -/

section Preferring

variable {genesis : Header}

theorem preferring_pass (preferring : state.tree.Preferring genesis) (count : Nat) :
    (moments.pass state count).tree.Preferring genesis :=
  preferring.submitAll _

theorem toldApart_pass {header : Header} (told : state.tree.ToldApart genesis header)
    (count : Nat) : (moments.pass state count).tree.ToldApart genesis header where
  apart hash stored found := by
    rw [header?_pass] at found
    exact told.apart hash stored found
  rooted := by
    rw [contains_pass]
    exact told.rooted

theorem Made.onParent {created : CreatedBlock} {parent : Header} {block : Block}
    (made : moments.Made keyring state parent? created parent block)
    (preferring : state.tree.Preferring genesis) :
    block.header.parentHash = parent?.getD state.tree.best := by
  rw [made.parentHash]
  exact preferring.ownHashes.of_header? made.found

theorem Outcome.preferring {outcome : Except ConsensusError CreatedBlock} {next : State}
    (came : moments.Outcome keyring state createEmpty parent? (outcome, next))
    (preferring : state.tree.Preferring genesis) : next.tree.Preferring genesis := by
  cases came with
  | failed count _ => exact preferring_pass preferring count
  | made _ inserted => exact (preferring_pass preferring 5).insert inserted

theorem preferring_serve {ρ : Type} {commands : List (Command ρ)} {final : State}
    {answers : List (ρ × Except ConsensusError CreatedBlock)}
    (preferring : state.tree.Preferring genesis)
    (served : ((moments.engine keyring extra).serve commands).run state = (answers, final)) :
    final.tree.Preferring genesis := by
  induction commands generalizing state answers with
  | nil =>
      cases served
      exact preferring
  | cons command rest inductionHypothesis =>
      obtain ⟨outcome, next, later, authored, servedRest, _⟩ :=
        Engine.exists_of_run_serve_cons _ served
      have came := outcome_author moments keyring extra state command.createEmpty command.parent?
      rw [authored] at came
      exact inductionHypothesis (came.preferring preferring) servedRest

end Preferring

/-- While commands are served and extrinsics are submitted, every command that wants an answer gets
one, in order. If it is an error, nothing happened to the tree but submissions; that there is
nothing to author is only said when the pool was empty and the command did not ask for an empty
block, or when whoever makes the inherent data said it first. If it is a block, that block was
sealed on the parent that was asked for or on the best block of the moment, and either the tree
holds it since or it did before. A block on the best block becomes the best one, as long as depths
have room and no two headers collide. -/
theorem commands_served {ρ : Type} {genesis : Header} {operations : List ForkTree.Operation}
    {history : ForkTree.History} {tree : ForkTree} {before after : List (Command ρ)}
    {command : Command ρ} {answers : List (ρ × Except ConsensusError CreatedBlock)} {final : State}
    (longest : ∀ operation ∈ operations, operation.PrefersLongest)
    (ran : (ForkTree.ofGenesis genesis).run operations = (history, tree))
    (served : ((moments.engine keyring extra).serve (before ++ command :: after)).run { tree } =
      (answers, final)) :
    answers.map Prod.fst = (before ++ command :: after).filterMap Command.replyTo ∧
      ∃ earlier state outcome next later,
        ((moments.engine keyring extra).serve before).run { tree } = (earlier, state) ∧
        ((moments.engine keyring extra).author command.createEmpty command.parent?).run.run state =
          (outcome, next) ∧
        ((moments.engine keyring extra).serve after).run next = (later, final) ∧
        answers = earlier ++ Engine.reply command outcome ++ later ∧
        (∀ error, outcome = .error error →
          (∃ count, next = moments.pass state count) ∧
          (error = .emptyPool →
            moments.NothingToDo state command.createEmpty command.parent?)) ∧
        ∀ created, outcome = .ok created →
          ∃ parent block,
            moments.Made keyring state command.parent? created parent block ∧
            block.header.parentHash = command.parent?.getD state.tree.best ∧
            ((created.outcome = .alreadyInChain ∧ state.tree.contains created.hash = true ∧
                next = moments.pass state 5) ∨
              ∃ isNewBest, created.outcome = .imported isNewBest ∧
                (moments.pass state 5).tree.Adds block isNewBest next.tree) ∧
            (command.parent? = none → state.tree.size < 2 ^ 32 →
              state.tree.ToldApart genesis block.header →
              created.outcome = .imported true ∧ next.tree.best = created.hash) := by
  refine ⟨Engine.addressees_serve _ served, ?_⟩
  obtain ⟨earlier, state, others, servedBefore, servedOthers, rfl⟩ :=
    Engine.exists_of_run_serve_append _ served
  obtain ⟨outcome, next, later, authored, servedAfter, rfl⟩ :=
    Engine.exists_of_run_serve_cons _ servedOthers
  have preferring := preferring_serve (ForkTree.Preferring.run ran longest) servedBefore
  have came := outcome_author moments keyring extra state command.createEmpty command.parent?
  rw [authored] at came
  refine ⟨earlier, state, outcome, next, later, servedBefore, authored, servedAfter,
    (List.append_assoc ..).symm, ?_, ?_⟩
  · rintro error rfl
    cases came with
    | failed count empty =>
        exact ⟨⟨count, rfl⟩, empty⟩
  · rintro created rfl
    cases came with
    | @made created tree parent block made inserted =>
        have onParent := made.onParent preferring
        refine ⟨parent, block, made, onParent, ?_, ?_⟩
        · rcases ForkTree.insert_ok_cases inserted with
            ⟨known, already, same⟩ | ⟨_, attachable, imports, attached⟩
          · rw [contains_pass, made.hash] at known
            rw [same]
            exact .inl ⟨already, known, rfl⟩
          · rw [attached]
            exact .inr ⟨_, imports, attachable.adds _⟩
        · intro onBest few told
          rw [onBest, Option.getD_none, ← best_pass moments state 5] at onParent
          rw [← made.hash]
          rw [← size_pass moments state 5] at few
          exact (preferring_pass preferring 5).insert_onBest few onParent (toldApart_pass told 5)
            inserted

/-- Everyone may author, and an extrinsic comes in just before the second block is proposed. -/
private def lateExtrinsic : Moments := fun time =>
  { submitted := if time = 7 then [[7]] else []
    api := (·.runtimeApi fun _ _ _ => .ok true)
    inherents := fun _ slot => .ok (.slot slot) }

private def oneKey : Keyring :=
  (KeyStore.ofSeeds ed25519 [⟨FixedBytes.replicate 32 1⟩]).keyring ed25519

private def asksFor (addressee : Nat) : Command Nat :=
  { createEmpty := false, replyTo := some addressee }

private def oneKeyEngine : Engine State :=
  lateExtrinsic.engine oneKey fun _ _ => []

private def oneImport : List ForkTree.Operation :=
  [.insert { header := { parentHash := ({} : Header).hash, number := 1 } } .longest]

private def grownOnce : ForkTree :=
  ((ForkTree.ofGenesis {}).run oneImport).2

private theorem oneKeyEngine_first :
    (oneKeyEngine.serve [asksFor 1]).run { tree := grownOnce } =
      ([(1, .error .emptyPool)], { tree := grownOnce, time := 4 }) := by
  change @Eq (List (Nat × Except ConsensusError CreatedBlock) × State) _ _
  decide +kernel

private theorem oneKeyEngine_second :
    ((oneKeyEngine.author false none).run.run { tree := grownOnce, time := 4 }).1.toOption.any
      (fun created => grownOnce.contains created.hash = false) = true := by
  decide +kernel

/-- The first of two commands finds nothing to author, the second one the late extrinsic. -/
theorem commands_served_lateExtrinsic :
    (∀ operation ∈ oneImport, operation.PrefersLongest) ∧
      ∃ (created : CreatedBlock) (final : State) (block : Block),
        (oneKeyEngine.serve [asksFor 1, asksFor 2]).run { tree := grownOnce } =
          ([(1, .error .emptyPool), (2, .ok created)], final) ∧
        block.hash = created.hash ∧ block.extrinsics = [[7]] ∧
        created.outcome = .imported true ∧ final.tree.best = created.hash := by
  have longest : ∀ operation ∈ oneImport, operation.PrefersLongest := by
    intro operation member block choice asked
    obtain rfl := List.mem_singleton.mp member
    cases asked
    rfl
  refine ⟨longest, ?_⟩
  have ran : (ForkTree.ofGenesis {}).run oneImport =
      (((ForkTree.ofGenesis {}).run oneImport).1, grownOnce) := (Prod.eta _).symm
  have few : grownOnce.size < 2 ^ 32 := by decide +kernel
  have rooted : grownOnce.contains ({} : Header).parentHash = false := by decide +kernel
  have noPool : grownOnce.pool = [] := by decide +kernel
  cases served : (oneKeyEngine.serve ([asksFor 1] ++ asksFor 2 :: [])).run
      { tree := grownOnce } with
  | mk answers final =>
      obtain ⟨_, earlier, state, outcome, next, later, servedFirst, authored, servedRest, answered,
        _, made⟩ := commands_served longest ran served
      cases oneKeyEngine_first.symm.trans servedFirst
      cases servedRest
      have second := oneKeyEngine_second
      change (oneKeyEngine.author false none).run.run _ = _ at authored
      rw [authored] at second
      cases outcome with
      | error error => cases second
      | ok created =>
          obtain ⟨parent, block, isMade, _, _, becomesBest⟩ := made created rfl
          have fresh : grownOnce.contains block.hash = false := by
            rw [isMade.hash]
            simpa [Except.toOption] using second
          have told : grownOnce.ToldApart {} block.header :=
            .of_fresh (ForkTree.Preferring.run ran longest).ownHashes fresh rooted
          dsimp only at becomesBest
          obtain ⟨isNew, isBest⟩ := becomesBest rfl few told
          have extrinsics : block.extrinsics = [[7]] := by
            rw [isMade.extrinsics, pool_pass, noPool]
            rfl
          refine ⟨created, final, block, ?_, isMade.hash, extrinsics, isNew, isBest⟩
          exact served.trans (congrArg (·, final) answered)

/-- Everyone may author, but no inherent data are to be had. -/
private def withoutData : Moments := fun _ =>
  { api := (·.runtimeApi fun _ _ _ => .ok true)
    inherents := fun _ _ => .error .emptyPool }

private def asksForAny : Command Nat :=
  { createEmpty := true, replyTo := some 1 }

private def stocked : ForkTree :=
  (ForkTree.ofGenesis {}).submit [7]

/-- The pool does not decide alone: a command is told that there is nothing to author although it
would take an empty block and an extrinsic is pending all the while. -/
theorem commands_served_withoutData :
    ((withoutData.engine oneKey fun _ _ => []).serve [asksForAny]).run { tree := stocked } =
        ([(1, .error .emptyPool)], withoutData.pass { tree := stocked } 2) ∧
      asksForAny.createEmpty = true ∧
      ∀ count, (withoutData.pass { tree := stocked } count).tree.pool = [[7]] := by
  refine ⟨?_, rfl, ?_⟩
  · change @Eq (List (Nat × Except ConsensusError CreatedBlock) × State) _ _
    decide +kernel
  · intro count
    rw [pool_pass]
    simp [submitted, withoutData, stocked, ForkTree.pool_submit, ForkTree.ofGenesis]

end Moments

end Authorship
