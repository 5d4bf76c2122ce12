/-
Module: Authorship.Proofs.Node.Still
Purpose: The local node is the one at which moments pass without submissions and without any other
  change: what authoring on command does to one, it does to the other.
Main exports: Moments.still, Moments.Follows, Moments.Follows.bind, Moments.follows_author,
  Moments.still_serves
-/
import Authorship.Proofs.Node.Commands

namespace Authorship.Moments

open OnDemand

/-- Moments at which nothing is submitted and all else stays as it is. -/
def still (api : ForkTree → RuntimeApi) (inherents : InherentFactory) : Moments :=
  fun _ => { api, inherents }

/-! ## Actions that do the same -/

/-- The same error or related values, and the same tree. -/
inductive Matches {α β : Type} (related : α → β → Prop) :
    Except ConsensusError α × ForkTree → Except ConsensusError β × State → Prop where
  | ok {value : α} {other : β} {tree : ForkTree} {time : Nat} (values : related value other) :
      Matches related (.ok value, tree) (.ok other, { tree, time })
  | error {error : ConsensusError} {tree : ForkTree} {time : Nat} :
      Matches related (.error error, tree) (.error error, { tree, time })

/-- Whenever it is done, the second action does to the tree what the first one does. -/
def Follows {α β : Type} (related : α → β → Prop) (one : Action ForkTree α)
    (two : Action State β) : Prop :=
  ∀ tree time, Matches related (one.run.run tree) (two.run.run { tree, time })

namespace Follows

variable {α β γ δ : Type} {related : α → β → Prop} {further : γ → δ → Prop}
  {one : Action ForkTree α} {two : Action State β}

theorem bind {oneNext : α → Action ForkTree γ} {twoNext : β → Action State δ}
    (first : Follows related one two)
    (next : ∀ value other, related value other →
      Follows further (oneNext value) (twoNext other)) :
    Follows further (one >>= oneNext) (two >>= twoNext) := by
  intro tree time
  have matched := first tree time
  cases ranOne : one.run.run tree with
  | mk outcome middle =>
      cases ranTwo : two.run.run { tree, time } with
      | mk otherOutcome state =>
          rw [ranOne, ranTwo] at matched
          cases matched with
          | ok values =>
              rw [Attempt.run_bind_eq ranOne, Attempt.run_bind_eq ranTwo]
              exact next _ _ values _ _
          | error =>
              rw [Attempt.run_bind_error ranOne, Attempt.run_bind_error ranTwo]
              exact .error

theorem ok {value : α} {other : β} (values : related value other) :
    Follows related (pure value) (pure other) :=
  fun _ _ => Matches.ok values

theorem error (error : ConsensusError) :
    Follows related (throw error : Action ForkTree α) (throw error : Action State β) :=
  fun _ _ => Matches.error

theorem error_bind (error : ConsensusError) {oneNext : α → Action ForkTree γ}
    {twoNext : β → Action State δ} :
    Follows further (throw error >>= oneNext) (throw error >>= twoNext) :=
  fun _ _ => Matches.error

theorem ofExcept (outcome : Except ConsensusError α) :
    Follows Eq (Attempt.ofExcept outcome) (Attempt.ofExcept outcome) := by
  intro tree time
  cases outcome with
  | error error => exact .error
  | ok value => exact .ok rfl

theorem looks : Follows (fun tree state => state.tree = tree) get get :=
  fun _ _ => Matches.ok rfl

end Follows

/-! ## The local node -/

section Still

variable {api : ForkTree → RuntimeApi} {inherents : InherentFactory}

theorem follows_atNext {α : Type} (action : Node ForkTree → Action ForkTree α) :
    Follows Eq (action (ForkTree.localNode api inherents))
      ((still api inherents).atNext action) := by
  intro tree time
  cases ran : (action (ForkTree.localNode api inherents)).run.run tree with
  | mk outcome next =>
      have same : ((still api inherents).atNext action).run.run { tree, time } =
          (outcome, { tree := next, time := time + 1 }) := by
        apply run_atNext
        rw [pass_one]
        exact ran
      rw [same]
      cases outcome with
      | error error => exact .error
      | ok value => exact .ok rfl

/-- Proposing is done later than it is prepared, and does the same then. -/
theorem follows_proposer (parent : Header) :
    Follows (fun propose other => ∀ data digest milliseconds limit,
        Follows Eq (propose data digest milliseconds limit) (other data digest milliseconds limit))
      ((ForkTree.localNode api inherents).proposer parent)
      ((still api inherents).node.proposer parent) := by
  rw [← bind_pure ((ForkTree.localNode api inherents).proposer parent)]
  apply Follows.bind (follows_atNext (·.proposer parent))
  rintro propose _ rfl
  apply Follows.ok
  intro data digest milliseconds limit
  exact follows_atNext fun _ => propose data digest milliseconds limit

variable (keyring : Keyring) (extra : ExtraDigests)

/-- The engine that authors on command at the local node. -/
def localEngine (api : ForkTree → RuntimeApi) (inherents : InherentFactory) (keyring : Keyring)
    (extra : ExtraDigests) : Engine ForkTree where
  node := ForkTree.localNode api inherents
  keyring := keyring
  extra := extra

theorem follows_parent (parent? : Option Hash) :
    Follows Eq ((localEngine api inherents keyring extra).parent parent?)
      (((still api inherents).engine keyring extra).parent parent?) := by
  cases parent? with
  | none => exact follows_atNext (·.bestHeader)
  | some hash =>
      apply Follows.bind (follows_atNext (·.header? hash))
      rintro found _ rfl
      cases found with
      | none => exact .error _
      | some header => exact .ok rfl

theorem follows_author (createEmpty : Bool) (parent? : Option Hash) :
    Follows Eq ((localEngine api inherents keyring extra).author createEmpty parent?)
      (((still api inherents).engine keyring extra).author createEmpty parent?) := by
  apply Follows.bind (follows_parent keyring extra parent?)
  rintro parent _ rfl
  have fills : Follows Eq
      ((ForkTree.localNode api inherents).inherentData parent.hash
        (followingNumber parent.number))
      ((still api inherents).node.inherentData parent.hash (followingNumber parent.number)) := by
    apply Follows.bind (follows_atNext (·.inherents parent.hash (followingNumber parent.number)))
    rintro provider _ rfl
    exact .ofExcept _
  apply Follows.bind fills
  rintro data _ rfl
  apply Follows.bind Follows.looks
  rintro tree state rfl
  apply Follows.bind (Follows.ofExcept _)
  rintro digest _ rfl
  apply Follows.bind (follows_proposer parent)
  intro propose other proposes
  apply Follows.bind (proposes data digest proposingTime none)
  rintro proposal _ rfl
  dsimp only
  split
  · exact .error_bind _
  · apply Follows.bind (Follows.ofExcept _)
    rintro request _ rfl
    apply Follows.bind (follows_atNext (·.importBlock request))
    rintro outcome _ rfl
    exact .ok rfl

/-- While nothing is submitted, commands are answered as at the local node, and leave the same
tree. -/
theorem still_serves {ρ : Type} {commands : List (Command ρ)} {tree next : ForkTree}
    {answers : List (ρ × Except ConsensusError CreatedBlock)}
    (served : ((localEngine api inherents keyring extra).serve commands).run tree =
      (answers, next)) (time : Nat) :
    ∃ later, (((still api inherents).engine keyring extra).serve commands).run { tree, time } =
      (answers, { tree := next, time := later }) := by
  induction commands generalizing tree time answers with
  | nil =>
      cases served
      exact ⟨time, rfl⟩
  | cons command rest inductionHypothesis =>
      obtain ⟨outcome, middle, others, authored, servedRest, rfl⟩ :=
        Engine.exists_of_run_serve_cons _ served
      have matched : Matches Eq _ ((((still api inherents).engine keyring extra).author
          command.createEmpty command.parent?).run.run { tree, time }) :=
        follows_author keyring extra command.createEmpty command.parent? tree time
      rw [authored] at matched
      generalize authoredToo : ((((still api inherents).engine keyring extra).author
          command.createEmpty command.parent?).run.run { tree, time }) = result at matched
      have same : ∃ now, result = (outcome, { tree := middle, time := now }) := by
        cases matched with
        | ok values =>
            rw [values]
            exact ⟨_, rfl⟩
        | error => exact ⟨_, rfl⟩
      obtain ⟨now, rfl⟩ := same
      obtain ⟨later, servedToo⟩ := inductionHypothesis servedRest now
      exact ⟨later, Engine.run_serve_cons _ authoredToo servedToo⟩

end Still

end Authorship.Moments
