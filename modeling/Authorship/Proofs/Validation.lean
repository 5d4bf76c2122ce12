/-
Module: Authorship.Proofs.Validation
Purpose: Validation over whole runs. Blocks are opened and closed, and calls come, in any order and
  from anybody, while the beacon shows a slot of its own at each call. What the runtime knows of the
  author follows from the last reset and from what has been accepted since: the accepted calls are
  the ones that are noted, at most one for each opened block, and a refused call leaves everything
  as it was.
Main exports: Validation.run_openBlock, Validation.Verdict, Validation.Ledger.run_validate_cases,
  Validation.Step, Validation.Answer, Validation.Ledger.perform, Validation.Ledger.run,
  Validation.sinceReset, Validation.openDigest, Validation.Remembers, Validation.Due,
  Validation.calls_follow_history
-/
import Mathlib.Data.List.DropRight
import Authorship.Proofs.Block.Payload
import Authorship.Validation

namespace Authorship.Validation

variable {α : Type} {rules : Rules α} {slot : UInt32}

theorem findAuthor_eq_some_iff {digest : Digest} {account : α} :
    findAuthor rules digest = some account ↔
      ∃ author, digest.author? = some author ∧ rules.lookup author = some account :=
  Option.bind_eq_some_iff

/-! ## Opening and closing -/

/-- Whatever was known of the block before is forgotten. -/
theorem run_reset (state : State α) : (reset : StateM (State α) Unit).run state = ((), {}) := rfl

/-- Whatever was known of the block before, what is known now is what the logs say. -/
theorem run_openBlock (rules : Rules α) (digest : Digest) (state : State α) :
    (openBlock rules digest).run state =
      (rules.dbWeight.readsWrites 1 1,
        { claimed := digest.author?, author := findAuthor rules digest }) := by
  rw [openBlock, StateT.run_bind, run_reset, findAuthor]
  cases digest.author? <;> rfl

theorem Ledger.run_openBlock (rules : Rules α) (digest : Digest) (ledger : Ledger α) :
    (Ledger.openBlock rules digest).run ledger =
      (rules.dbWeight.readsWrites 1 1,
        { ledger with
          state := { claimed := digest.author?, author := findAuthor rules digest } }) := by
  change (((Validation.openBlock rules digest).run ledger.state).1,
    { ledger with state := ((Validation.openBlock rules digest).run ledger.state).2 }) = _
  rw [Validation.run_openBlock]

theorem Ledger.run_closeBlock (ledger : Ledger α) :
    (Ledger.closeBlock : StateM (Ledger α) Unit).run ledger = ((), { ledger with state := {} }) :=
  rfl

/-! ## One call -/

/-- What comes of a call, by what stands in its way first: the account that is to be noted, or the
failure. -/
inductive Verdict (rules : Rules α) (slot : UInt32) (state : State α) :
    Origin α → Except DispatchError α → Prop where
  | badOrigin {origin : Origin α} (sent : origin ≠ .unsigned) :
      Verdict rules slot state origin (.error .badOrigin)
  | authorAlreadySet (again : state.validated = true) :
      Verdict rules slot state .unsigned (.error Error.authorAlreadySet.toDispatch)
  | missingAuthorDigest (first : state.validated = false) (unclaimed : state.claimed = none) :
      Verdict rules slot state .unsigned (.error Error.missingAuthorDigest.toDispatch)
  | noAccountId {author : AuthorId} (first : state.validated = false)
      (claimed : state.claimed = some author) (unknown : state.author = none) :
      Verdict rules slot state .unsigned (.error Error.noAccountId.toDispatch)
  | cannotBeAuthor {author : AuthorId} {account : α} (first : state.validated = false)
      (claimed : state.claimed = some author) (known : state.author = some account)
      (barred : rules.filter account slot = false) :
      Verdict rules slot state .unsigned (.error Error.cannotBeAuthor.toDispatch)
  | accepted {author : AuthorId} {account : α} (first : state.validated = false)
      (claimed : state.claimed = some author) (known : state.author = some account)
      (admitted : rules.filter account slot = true) :
      Verdict rules slot state .unsigned (.ok account)

namespace Ledger

/-- A first call whose claimed author has an account is up to the filter. -/
theorem run_validate_of_known (rules : Rules α) (slot : UInt32) (author : AuthorId) (account : α)
    (noted : List α) :
    (validate rules slot .unsigned).run.run
        { state := { claimed := some author, author := some account }, noted } =
      if rules.filter account slot then
        (.ok (), { state := { claimed := some author, author := some account, validated := true },
                   noted := noted ++ [account] })
      else
        (.error Error.cannotBeAuthor.toDispatch,
          { state := { claimed := some author, author := some account }, noted }) := by
  have judged : (validate rules slot .unsigned).run.run
        { state := { claimed := some author, author := some account }, noted } =
      (if !rules.filter account slot then throw Error.cannotBeAuthor.toDispatch else do
        modify fun ledger => { ledger with state := { ledger.state with validated := true } }
        modify fun ledger => { ledger with noted := ledger.noted ++ [account] } :
          Attempt DispatchError (Ledger α) Unit).run.run
        { state := { claimed := some author, author := some account }, noted } := rfl
  rw [judged]
  cases rules.filter account slot <;> rfl

/-- A call that fails leaves the ledger as it was: all checks come before the first write. One that
is accepted marks the block and notes the account. -/
theorem run_validate_cases (rules : Rules α) (slot : UInt32) (origin : Origin α)
    (ledger : Ledger α) :
    (∃ error, Verdict rules slot ledger.state origin (.error error) ∧
      (validate rules slot origin).run.run ledger = (.error error, ledger)) ∨
    ∃ account, Verdict rules slot ledger.state origin (.ok account) ∧
      (validate rules slot origin).run.run ledger =
        (.ok (), { state := { ledger.state with validated := true },
                   noted := ledger.noted ++ [account] }) := by
  cases origin with
  | root => exact .inl ⟨_, .badOrigin (by simp), rfl⟩
  | signed account => exact .inl ⟨_, .badOrigin (by simp), rfl⟩
  | unsigned =>
      obtain ⟨⟨claimed, author, validated⟩, noted⟩ := ledger
      cases validated with
      | true => exact .inl ⟨_, .authorAlreadySet rfl, rfl⟩
      | false =>
          cases claimed with
          | none => exact .inl ⟨_, .missingAuthorDigest rfl rfl, rfl⟩
          | some id =>
              cases author with
              | none => exact .inl ⟨_, .noAccountId rfl rfl rfl, rfl⟩
              | some account =>
                  rw [run_validate_of_known]
                  cases filtered : rules.filter account slot with
                  | true => exact .inr ⟨account, .accepted rfl rfl rfl filtered, rfl⟩
                  | false => exact .inl ⟨_, .cannotBeAuthor rfl rfl rfl filtered, rfl⟩

end Ledger

/-! ## Runs -/

/-- What can happen to a ledger. The slot is the one that the beacon shows at the call. -/
inductive Step (α : Type) where
  | openBlock (digest : Digest)
  | closeBlock
  | validate (slot : UInt32) (origin : Origin α)
  | dispatch (slot : UInt32) (origin : Origin α) (call : Call)

/-- What a ledger answers. -/
inductive Answer where
  | opened (weight : Weight)
  | closed
  | judged (outcome : Except DispatchError Unit)
deriving DecidableEq

/-- Whether a block opens or closes. -/
def Step.isReset : Step α → Bool
  | .openBlock _ | .closeBlock => true
  | .validate .. | .dispatch .. => false

/-- The logs of the block that opens. -/
def Step.opens? : Step α → Option Digest
  | .openBlock digest => some digest
  | .closeBlock | .validate .. | .dispatch .. => none

/-- When validation is called for, and by whom. -/
def Step.asked? : Step α → Option (UInt32 × Origin α)
  | .validate slot origin | .dispatch slot origin .validateAuthor => some (slot, origin)
  | .openBlock _ | .closeBlock => none

/-- Whether a call was accepted. -/
def Answer.isAccepted : Answer → Bool
  | .judged (.ok ()) => true
  | _ => false

/-- Steps with their answers, in order. -/
abbrev History (α : Type) := List (Step α × Answer)

namespace Ledger

/-- The answer to a step, and the ledger that the step leaves, whether it fails or not. -/
def perform (rules : Rules α) (ledger : Ledger α) : Step α → Answer × Ledger α
  | .openBlock digest =>
    let (weight, left) := (openBlock rules digest).run ledger
    (.opened weight, left)
  | .closeBlock =>
    let ((), left) := closeBlock.run ledger
    (.closed, left)
  | .validate slot origin =>
    let (outcome, left) := (validate rules slot origin).run.run ledger
    (.judged outcome, left)
  | .dispatch slot origin call =>
    let (outcome, left) := (dispatch rules slot origin call).run.run ledger
    (.judged outcome, left)

/-- Perform steps one after the other. -/
def run (rules : Rules α) (ledger : Ledger α) : List (Step α) → History α × Ledger α
  | [] => ([], ledger)
  | step :: rest =>
    let (answer, next) := ledger.perform rules step
    let (history, last) := next.run rules rest
    ((step, answer) :: history, last)

/-- A step opens a block, or closes it, or is a call. -/
theorem perform_cases (rules : Rules α) (ledger : Ledger α) (step : Step α) :
    (∃ digest weight, step = .openBlock digest ∧
      ledger.perform rules step = (.opened weight,
        { ledger with
          state := { claimed := digest.author?, author := findAuthor rules digest } })) ∨
    (step = .closeBlock ∧ ledger.perform rules step = (.closed, { ledger with state := {} })) ∨
    ∃ slot origin, step.asked? = some (slot, origin) ∧ step.isReset = false ∧
      ((∃ error, Verdict rules slot ledger.state origin (.error error) ∧
        ledger.perform rules step = (.judged (.error error), ledger)) ∨
      ∃ account, Verdict rules slot ledger.state origin (.ok account) ∧
        ledger.perform rules step =
          (.judged (.ok ()), { state := { ledger.state with validated := true },
                               noted := ledger.noted ++ [account] })) := by
  have judged (slot : UInt32) (origin : Origin α)
      (performs : ledger.perform rules step =
        (.judged ((validate rules slot origin).run.run ledger).1,
          ((validate rules slot origin).run.run ledger).2)) :
      (∃ error, Verdict rules slot ledger.state origin (.error error) ∧
        ledger.perform rules step = (.judged (.error error), ledger)) ∨
      ∃ account, Verdict rules slot ledger.state origin (.ok account) ∧
        ledger.perform rules step =
          (.judged (.ok ()), { state := { ledger.state with validated := true },
                               noted := ledger.noted ++ [account] }) := by
    rcases run_validate_cases rules slot origin ledger with
      ⟨error, verdict, ran⟩ | ⟨account, verdict, ran⟩
    · exact .inl ⟨error, verdict, by rw [performs, ran]⟩
    · exact .inr ⟨account, verdict, by rw [performs, ran]⟩
  cases step with
  | openBlock digest =>
      exact .inl ⟨digest, _, rfl, by rw [perform, run_openBlock]⟩
  | closeBlock => exact .inr (.inl ⟨rfl, by rw [perform, run_closeBlock]⟩)
  | validate slot origin => exact .inr (.inr ⟨slot, origin, rfl, rfl, judged slot origin rfl⟩)
  | dispatch slot origin call =>
      cases call with
      | validateAuthor =>
          exact .inr (.inr ⟨slot, origin, rfl, rfl, judged slot origin rfl⟩)

theorem noted_of_perform_not_isAccepted {ledger next : Ledger α} {step : Step α} {answer : Answer}
    (performed : ledger.perform rules step = (answer, next)) (not : answer.isAccepted = false) :
    next.noted = ledger.noted := by
  rcases ledger.perform_cases rules step with
    ⟨_, _, _, opened⟩ | ⟨_, closed⟩ | ⟨_, _, _, _, ⟨_, _, refused⟩ | ⟨_, _, accepted⟩⟩
  · cases opened.symm.trans performed
    rfl
  · cases closed.symm.trans performed
    rfl
  · cases refused.symm.trans performed
    rfl
  · cases accepted.symm.trans performed
    cases not

theorem eq_of_perform_error {ledger next : Ledger α} {step : Step α} {error : DispatchError}
    (performed : ledger.perform rules step = (.judged (.error error), next)) : next = ledger := by
  rcases ledger.perform_cases rules step with
    ⟨_, _, _, opened⟩ | ⟨_, closed⟩ | ⟨_, _, _, _, ⟨_, _, refused⟩ | ⟨_, _, accepted⟩⟩
  · cases opened.symm.trans performed
  · cases closed.symm.trans performed
  · cases refused.symm.trans performed
    rfl
  · cases accepted.symm.trans performed

end Ledger

/-! ## What a history says -/

/-- What has happened since a block was opened or closed last. -/
def sinceReset (history : History α) : History α :=
  history.rtakeWhile fun (step, _) => !step.isReset

/-- The logs of the block that is open. -/
def openDigest (history : History α) : Option Digest :=
  (history.reverse.find? fun (step, _) => step.isReset).bind fun (step, _) => step.opens?

section Reading

variable {history : History α} {step : Step α} {answer : Answer}

theorem sinceReset_concat_of_isReset (reset : step.isReset = true) :
    sinceReset (history ++ [(step, answer)]) = [] :=
  List.rtakeWhile_concat_neg _ _ _ (by simp [reset])

theorem sinceReset_concat_of_not_isReset (call : step.isReset = false) :
    sinceReset (history ++ [(step, answer)]) = sinceReset history ++ [(step, answer)] :=
  List.rtakeWhile_concat_pos _ _ _ (by simp [call])

theorem openDigest_concat_of_isReset (reset : step.isReset = true) :
    openDigest (history ++ [(step, answer)]) = step.opens? := by
  simp [openDigest, reset]

theorem openDigest_concat_of_not_isReset (call : step.isReset = false) :
    openDigest (history ++ [(step, answer)]) = openDigest history := by
  simp [openDigest, call]

/-- A block is open just when it was opened and nothing has been opened or closed since. -/
theorem openDigest_eq_some_iff {digest : Digest} :
    openDigest history = some digest ↔
      ∃ earlier opened since, history = earlier ++ (.openBlock digest, opened) :: since ∧
        ∀ entry ∈ since, entry.1.isReset = false := by
  constructor
  · intro isOpen
    obtain ⟨⟨last, opened⟩, found, opens⟩ := Option.bind_eq_some_iff.mp isOpen
    obtain ⟨-, since, earlier, split, calls⟩ := List.find?_eq_some_iff_append.mp found
    cases last with
    | openBlock logs =>
        cases opens
        refine ⟨earlier.reverse, opened, since.reverse, ?_, ?_⟩
        · rw [← List.reverse_reverse history, split]
          simp
        · simpa using calls
    | closeBlock => cases opens
    | validate => cases opens
    | dispatch => cases opens
  · intro ⟨earlier, opened, since, split, calls⟩
    have found : history.reverse.find? (fun (step, _) => step.isReset) =
        some (.openBlock digest, opened) := by
      refine List.find?_eq_some_iff_append.mpr ⟨rfl, since.reverse, earlier.reverse, ?_, ?_⟩
      · simp [split]
      · simpa using calls
    rw [openDigest, found]
    rfl

end Reading

/-! ## What a ledger remembers of it -/

/-- What is known of the author is what the history says. -/
structure Remembers (rules : Rules α) (history : History α) (ledger : Ledger α) : Prop where
  claimed : ledger.state.claimed = (openDigest history).bind Digest.author?
  author : ledger.state.author = (openDigest history).bind (findAuthor rules)
  validated : (sinceReset history).countP (·.2.isAccepted) = ledger.state.validated.toNat
  noted : ledger.noted.length = history.countP (·.2.isAccepted)

namespace Remembers

variable {history : History α} {ledger : Ledger α}

theorem start (rules : Rules α) : Remembers rules [] {} where
  claimed := rfl
  author := rfl
  validated := rfl
  noted := rfl

/-- Whoever opens or closes a block starts over. -/
theorem reset {step : Step α} {answer : Answer} {state : State α}
    (remembers : Remembers rules history ledger) (reset : step.isReset = true)
    (answered : answer.isAccepted = false)
    (claimed : state.claimed = step.opens?.bind Digest.author?)
    (author : state.author = step.opens?.bind (findAuthor rules))
    (fresh : state.validated = false) :
    Remembers rules (history ++ [(step, answer)]) { ledger with state } where
  claimed := by rw [openDigest_concat_of_isReset reset, claimed]
  author := by rw [openDigest_concat_of_isReset reset, author]
  validated := by
    rw [sinceReset_concat_of_isReset reset, fresh]
    rfl
  noted := by simp [answered, remembers.noted]

theorem refused {step : Step α} {answer : Answer} (remembers : Remembers rules history ledger)
    (call : step.isReset = false) (answered : answer.isAccepted = false) :
    Remembers rules (history ++ [(step, answer)]) ledger where
  claimed := by rw [openDigest_concat_of_not_isReset call, remembers.claimed]
  author := by rw [openDigest_concat_of_not_isReset call, remembers.author]
  validated := by simp [sinceReset_concat_of_not_isReset call, answered, remembers.validated]
  noted := by simp [answered, remembers.noted]

theorem accepted {step : Step α} {answer : Answer} (remembers : Remembers rules history ledger)
    (call : step.isReset = false) (answered : answer.isAccepted = true)
    (first : ledger.state.validated = false) (account : α) :
    Remembers rules (history ++ [(step, answer)])
      { state := { ledger.state with validated := true },
        noted := ledger.noted ++ [account] } where
  claimed := by rw [openDigest_concat_of_not_isReset call, remembers.claimed]
  author := by rw [openDigest_concat_of_not_isReset call, remembers.author]
  validated := by
    simp [sinceReset_concat_of_not_isReset call, answered, remembers.validated, first]
  noted := by simp [answered, remembers.noted]

theorem perform (remembers : Remembers rules history ledger) (step : Step α) :
    Remembers rules (history ++ [(step, (ledger.perform rules step).1)])
      (ledger.perform rules step).2 := by
  rcases ledger.perform_cases rules step with
    ⟨digest, weight, rfl, performed⟩ | ⟨rfl, performed⟩ |
    ⟨slot, origin, asked, call, ⟨error, verdict, performed⟩ |
      ⟨account, verdict, performed⟩⟩
  · rw [performed]
    exact remembers.reset rfl rfl rfl rfl rfl
  · rw [performed]
    exact remembers.reset rfl rfl rfl rfl rfl
  · rw [performed]
    exact remembers.refused call rfl
  · rw [performed]
    cases verdict with
    | accepted first => exact remembers.accepted call rfl first account

theorem run (steps : List (Step α)) {history : History α} {ledger : Ledger α}
    (remembers : Remembers rules history ledger) :
    Remembers rules (history ++ (ledger.run rules steps).1) (ledger.run rules steps).2 := by
  induction steps generalizing history ledger with
  | nil => simpa [Ledger.run] using remembers
  | cons step rest inductionHypothesis =>
      have later := inductionHypothesis (remembers.perform step)
      rw [List.append_assoc, List.singleton_append] at later
      exact later

theorem validated_eq_false_iff (remembers : Remembers rules history ledger) :
    ledger.state.validated = false ↔
      ∀ entry ∈ sinceReset history, entry.2.isAccepted = false := by
  have counted := remembers.validated
  have none : (sinceReset history).countP (·.2.isAccepted) = 0 ↔
      ∀ entry ∈ sinceReset history, entry.2.isAccepted = false := by
    simp [List.countP_eq_zero]
  rw [← none, counted]
  cases ledger.state.validated <;> decide

/-- The account that is known is that of the claimed author. -/
theorem author_eq (remembers : Remembers rules history ledger) :
    ledger.state.author = ledger.state.claimed.bind rules.lookup := by
  rw [remembers.author, remembers.claimed, Option.bind_assoc]
  rfl

end Remembers

/-! ## Which calls are accepted -/

/-- A call that is to be accepted at a slot, and the account that it is to note: nobody in
particular calls, for the first time since a block was opened, its logs name an author, the first of
them has this account, and the filter admits the account. -/
structure Due (rules : Rules α) (history : History α) (step : Step α) (slot : UInt32)
    (account : α) : Prop where
  asked : step.asked? = some (slot, .unsigned)
  first : ∀ entry ∈ sinceReset history, entry.2.isAccepted = false
  named : ∃ earlier digest opened since author,
    history = earlier ++ (.openBlock digest, opened) :: since ∧
    (∀ entry ∈ since, entry.1.isReset = false) ∧
    (∃ before rest after,
      digest = before ++ .preRuntime authorshipEngine (encode author ++ rest) :: after ∧
      ∀ item ∈ before, item.author? = none) ∧
    rules.lookup author = some account
  admitted : rules.filter account slot = true

section Judging

variable {history : History α} {ledger : Ledger α} {step : Step α} {account : α}

theorem openDigest_bind_findAuthor_eq_some_iff :
    (openDigest history).bind (findAuthor rules) = some account ↔
      ∃ earlier digest opened since author,
        history = earlier ++ (.openBlock digest, opened) :: since ∧
        (∀ entry ∈ since, entry.1.isReset = false) ∧
        (∃ before rest after,
          digest = before ++ .preRuntime authorshipEngine (encode author ++ rest) :: after ∧
          ∀ item ∈ before, item.author? = none) ∧
        rules.lookup author = some account := by
  rw [Option.bind_eq_some_iff]
  constructor
  · intro ⟨digest, isOpen, found⟩
    obtain ⟨earlier, opened, since, split, calls⟩ := openDigest_eq_some_iff.mp isOpen
    obtain ⟨author, names, known⟩ := findAuthor_eq_some_iff.mp found
    exact ⟨earlier, digest, opened, since, author, split, calls,
      Digest.author?_eq_some_iff.mp names, known⟩
  · intro ⟨earlier, digest, opened, since, author, split, calls, names, known⟩
    exact ⟨digest, openDigest_eq_some_iff.mpr ⟨earlier, opened, since, split, calls⟩,
      findAuthor_eq_some_iff.mpr ⟨author, Digest.author?_eq_some_iff.mpr names, known⟩⟩

/-- Only a call that is due is accepted. -/
theorem Remembers.due_of_isAccepted (remembers : Remembers rules history ledger)
    (accepted : (ledger.perform rules step).1.isAccepted = true) :
    ∃ slot account, Due rules history step slot account ∧
      (ledger.perform rules step).2.noted = ledger.noted ++ [account] := by
  rcases ledger.perform_cases rules step with
    ⟨digest, weight, rfl, performed⟩ | ⟨rfl, performed⟩ |
    ⟨slot, origin, asked, call, ⟨error, verdict, performed⟩ |
      ⟨account, verdict, performed⟩⟩
  · cases accepted
  · cases accepted
  · rw [performed] at accepted
    cases accepted
  · rw [performed]
    cases verdict with
    | accepted first claimed known admitted =>
        refine ⟨slot, account, ⟨asked, remembers.validated_eq_false_iff.mp first, ?_, admitted⟩,
          rfl⟩
        rw [← openDigest_bind_findAuthor_eq_some_iff, ← remembers.author, known]

/-- A call that is due is accepted, whatever was refused before it. -/
theorem Remembers.isAccepted_of_due (remembers : Remembers rules history ledger)
    (due : Due rules history step slot account) :
    (ledger.perform rules step).1.isAccepted = true := by
  have first : ledger.state.validated = false := remembers.validated_eq_false_iff.mpr due.first
  have known : ledger.state.author = some account := by
    rw [remembers.author]
    exact openDigest_bind_findAuthor_eq_some_iff.mpr due.named
  rcases ledger.perform_cases rules step with
    ⟨digest, weight, rfl, performed⟩ | ⟨rfl, performed⟩ |
    ⟨shown, origin, asked, call, ⟨error, verdict, performed⟩ |
      ⟨account, verdict, performed⟩⟩
  · cases due.asked
  · cases due.asked
  · obtain ⟨rfl, rfl⟩ : slot = shown ∧ .unsigned = origin := by simpa [due.asked] using asked
    cases verdict with
    | badOrigin sent => exact absurd rfl sent
    | authorAlreadySet again => simp [first] at again
    | missingAuthorDigest _ unclaimed => simp [remembers.author_eq, unclaimed] at known
    | noAccountId _ _ unknown => simp [known] at unknown
    | cannotBeAuthor _ _ found barred =>
        cases known.symm.trans found
        simp [due.admitted] at barred
  · rw [performed]
    rfl

/-- Once a call was accepted, further ones are not, until a block is opened or closed. -/
theorem Remembers.judged_of_accepted_before (remembers : Remembers rules history ledger)
    {entry : Step α × Answer} (member : entry ∈ sinceReset history)
    (accepted : entry.2.isAccepted = true) (asked : step.asked? = some (slot, .unsigned)) :
    ledger.perform rules step = (.judged (.error Error.authorAlreadySet.toDispatch), ledger) := by
  have again : ledger.state.validated ≠ false := by
    intro first
    simp [remembers.validated_eq_false_iff.mp first entry member] at accepted
  rcases ledger.perform_cases rules step with
    ⟨digest, weight, rfl, performed⟩ | ⟨rfl, performed⟩ |
    ⟨shown, origin, askedAt, call, ⟨error, verdict, performed⟩ |
      ⟨account, verdict, performed⟩⟩
  · cases asked
  · cases asked
  · obtain ⟨rfl, rfl⟩ : slot = shown ∧ .unsigned = origin := by simpa [asked] using askedAt
    rw [performed]
    cases verdict with
    | badOrigin sent => exact absurd rfl sent
    | authorAlreadySet => rfl
    | missingAuthorDigest first => exact absurd first again
    | noAccountId first => exact absurd first again
    | cannotBeAuthor first => exact absurd first again
  · cases verdict with
    | accepted first => exact absurd first again

end Judging

/-- In whatever order blocks are opened and closed and calls come: the account of the author is that
of the author whom the logs of the open block name, and nobody's if none is open. Each accepted call
notes one account, and nothing else notes any. Just the calls that are due are accepted, and they
note the account that is due. Since a block was opened or closed last at most one call was accepted,
and after one was, unsigned calls are told that the author is set. A call that fails leaves
everything as it was, so that it can be made again. -/
theorem calls_follow_history {rules : Rules α} {steps : List (Step α)} {history : History α}
    {ledger next : Ledger α} {step : Step α} {answer : Answer}
    (ran : ({} : Ledger α).run rules steps = (history, ledger))
    (performed : ledger.perform rules step = (answer, next)) :
    ledger.state.author = (openDigest history).bind (findAuthor rules) ∧
      ledger.noted.length = history.countP (·.2.isAccepted) ∧
      (answer.isAccepted = false → next.noted = ledger.noted) ∧
      (answer.isAccepted = true → ∃ slot account, Due rules history step slot account ∧
        next.noted = ledger.noted ++ [account]) ∧
      (∀ slot account, Due rules history step slot account → answer.isAccepted = true) ∧
      (sinceReset history).countP (·.2.isAccepted) ≤ 1 ∧
      (∀ entry ∈ sinceReset history, entry.2.isAccepted = true →
        ∀ slot, step.asked? = some (slot, .unsigned) →
          answer = .judged (.error Error.authorAlreadySet.toDispatch)) ∧
      ∀ error, answer = .judged (.error error) → next = ledger := by
  have remembers : Remembers rules history ledger := by
    simpa [ran] using (Remembers.start rules).run steps
  have answered : (ledger.perform rules step).1 = answer := by rw [performed]
  have after : (ledger.perform rules step).2 = next := by rw [performed]
  refine ⟨remembers.author, remembers.noted, ?_, ?_, ?_, ?_, ?_, ?_⟩
  · intro refused
    exact Ledger.noted_of_perform_not_isAccepted performed refused
  · intro accepted
    rw [← after]
    exact remembers.due_of_isAccepted (answered ▸ accepted)
  · intro slot account due
    rw [← answered]
    exact remembers.isAccepted_of_due due
  · rw [remembers.validated]
    exact Bool.toNat_le _
  · intro entry member accepted slot asked
    rw [← answered, remembers.judged_of_accepted_before member accepted asked]
  · intro error failed
    exact Ledger.eq_of_perform_error (failed ▸ performed)

/-- The author whose blocks are looked at. -/
private def knownId : AuthorId := ⟨FixedBytes.replicate 32 1⟩

/-- One author has an account, which may author at even slots. -/
private def evenSlots : Rules Nat where
  lookup author := if author = knownId then some 7 else none
  filter _ slot := slot % 2 == 0

/-- A call before any block, and in a block of this author a call of the root and one at an odd
slot. -/
private def refusedSteps : List (Step Nat) :=
  [.validate 2 .unsigned, .openBlock [.other [5], .ofAuthor knownId],
    .dispatch 2 .root .validateAuthor, .validate 3 .unsigned]

/-- What comes of them. -/
private def refused : History Nat × Ledger Nat := ({} : Ledger Nat).run evenSlots refusedSteps

/-- One more call, at an even slot. -/
private def retry : Step Nat := .dispatch 4 .unsigned .validateAuthor

theorem calls_follow_history_retried :
    (refused.2.perform evenSlots retry).1.isAccepted = true ∧
      (refused.2.perform evenSlots retry).2.noted = [7] ∧
      (openDigest refused.1).bind (findAuthor evenSlots) = some 7 ∧
      ∃ slot account, Due evenSlots refused.1 retry slot account ∧
        (refused.2.perform evenSlots retry).2.noted = refused.2.noted ++ [account] := by
  have accepted : (refused.2.perform evenSlots retry).1.isAccepted = true := by decide +kernel
  have known : refused.2.state.author = some 7 := by decide +kernel
  have ran : ({} : Ledger Nat).run evenSlots refusedSteps = (refused.1, refused.2) := rfl
  obtain ⟨author, _, _, due, _⟩ :=
    calls_follow_history ran (Prod.eta (refused.2.perform evenSlots retry)).symm
  exact ⟨accepted, by decide +kernel, author ▸ known, due accepted⟩

end Authorship.Validation
