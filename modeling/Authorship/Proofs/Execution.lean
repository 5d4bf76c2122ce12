/-
Module: Authorship.Proofs.Execution
Purpose: Which sealed blocks execute. A block executes when its seal checks and the runtime lets its
  author author at the slot; of any other block nothing is noted, and one whose seal does not check
  is not even shown to the inner executive. Whatever comes of a block, the next one finds nothing
  of it but the accounts that were noted.
Main exports: Validation.canAuthor_eq_true_iff, Validation.executiveAt_cases, Validation.executor,
  Validation.executor_cases, Executive.executeAll, Validation.executeAll_executor
-/
import Authorship.Execution
import Authorship.Proofs.Block.Seal
import Authorship.Proofs.Validation

namespace Authorship

/-! ## Validating one author -/

namespace Validation

variable {α : Type} {rules : Rules α} {author : AuthorId} {slot : UInt32}

theorem canAuthor_eq_true_iff :
    canAuthor rules author slot = true ↔
      ∃ account, rules.lookup author = some account ∧ rules.filter account slot = true := by
  unfold canAuthor
  cases rules.lookup author with
  | none => simp
  | some account => simp

/-- The runtime answers nodes without looking at the parent. -/
theorem api_eq_ok_true_iff {parent : Header} :
    api rules parent author slot = .ok true ↔ canAuthor rules author slot = true := by
  rw [api, Except.ok.injEq]

/-- The block is opened, its author is judged on what was noted then, and the block is closed
whatever came of it. -/
theorem executiveAt_eq {block : Block} {ledger opened left : Ledger α} {weight : Weight}
    {outcome : Except DispatchError Unit}
    (opens : (Ledger.openBlock rules block.header.digest).run ledger = (weight, opened))
    (judges : (Ledger.validate rules slot .unsigned).run.run opened = (outcome, left)) :
    executiveAt rules slot block ledger = (outcome, { noted := left.noted }) := by
  rw [executiveAt, StateM.run_bind_eq opens]
  exact StateM.run_bind_eq judges

/-- Whatever the ledger, a block that names an author is opened with nothing but the name. -/
theorem executiveAt_of_names {block : Block} (names : block.header.author? = some author)
    (ledger : Ledger α) :
    executiveAt rules slot block ledger =
      match rules.lookup author with
      | none => (.error Error.noAccountId.toDispatch, { noted := ledger.noted })
      | some account =>
        if rules.filter account slot then (.ok (), { noted := ledger.noted ++ [account] })
        else (.error Error.cannotBeAuthor.toDispatch, { noted := ledger.noted }) := by
  have opens := Ledger.run_openBlock rules block.header.digest ledger
  rw [Header.author?] at names
  rw [findAuthor, names, Option.bind_some] at opens
  cases known : rules.lookup author with
  | none =>
      rw [known] at opens
      have judged : (Ledger.validate rules slot .unsigned).run.run
            { state := { claimed := some author }, noted := ledger.noted } =
          (.error Error.noAccountId.toDispatch,
            { state := { claimed := some author }, noted := ledger.noted }) := rfl
      rw [executiveAt_eq opens judged]
  | some account =>
      rw [known] at opens
      have judged := Ledger.run_validate_of_known rules slot author account ledger.noted
      rw [executiveAt_eq opens judged]
      dsimp only
      cases rules.filter account slot <;> rfl

/-- A block that names an author executes just when the author may author, and then the account of
the author is noted. In any case the block is forgotten. -/
theorem executiveAt_cases (block : Block) (names : block.header.author? = some author) :
    (∃ account, rules.lookup author = some account ∧ rules.filter account slot = true ∧
      ∀ ledger : Ledger α,
        executiveAt rules slot block ledger = (.ok (), { noted := ledger.noted ++ [account] })) ∨
    (canAuthor rules author slot = false ∧ ∃ error, ∀ ledger : Ledger α,
      executiveAt rules slot block ledger = (.error error, { noted := ledger.noted })) := by
  simp only [executiveAt_of_names names, canAuthor]
  cases rules.lookup author with
  | none => exact .inr ⟨rfl, _, fun _ => rfl⟩
  | some account =>
      dsimp only
      cases eligible : rules.filter account slot with
      | true => exact .inl ⟨account, rfl, eligible, fun _ => if_pos rfl⟩
      | false => exact .inr ⟨rfl, _, fun _ => if_neg Bool.false_ne_true⟩

end Validation

/-! ## Taking the seal off first -/

section Sealed

variable {σ ε : Type} {scheme : SignatureScheme} {executive : Executive σ ε} {block : Block}

theorem executeSealed_of_error {error : SealError}
    (fails : (block.header.stripSeal scheme).1 = .error error) (state : σ) :
    executeSealed scheme executive block state = (.error (.invalidSeal error), state) := by
  unfold executeSealed
  split
  · next other _ strips =>
      rw [strips] at fails
      cases fails
      rfl
  · next strips =>
      rw [strips] at fails
      cases fails

/-- Below a seal that checks, a block executes as it would alone. -/
theorem executeSealed_of_ok {accepted : AuthorId × DigestItem} {stripped : Header}
    (strips : block.header.stripSeal scheme = (.ok accepted, stripped)) (state : σ) :
    executeSealed scheme executive block state =
      ((executive { block with header := stripped } state).1.mapError .inner,
        (executive { block with header := stripped } state).2) := by
  rw [executeSealed, strips]

end Sealed

namespace Validation

variable {α : Type}

/-- The executor of sealed blocks, together with the block that the executive below it was last
shown. -/
abbrev executor (scheme : SignatureScheme) (rules : Rules α) :
    Executive (Ledger α × Option Block) (ExecutionError DispatchError) :=
  executeSealed scheme (executive rules).observed

section Executor

variable (scheme : SignatureScheme) (rules : Rules α) (block : Block)

/-- A block fails at its seal, or executes for its author, or is refused for its author. The
executive is shown the block without its seal in the last two cases, and not at all in the first. -/
theorem executor_cases :
    (∃ error, (block.header.stripSeal scheme).1 = .error error ∧
      ∀ state, executor scheme rules block state = (.error (.invalidSeal error), state)) ∨
    (∃ author item account, (block.header.stripSeal scheme).1 = .ok (author, item) ∧
      rules.lookup author = some account ∧ rules.filter account block.header.number = true ∧
      ∀ ledger seen, executor scheme rules block (ledger, seen) =
        (.ok (), { noted := ledger.noted ++ [account] },
          some { block with header := block.header.pop })) ∨
    ∃ author item error, (block.header.stripSeal scheme).1 = .ok (author, item) ∧
      canAuthor rules author block.header.number = false ∧
      ∀ ledger seen, executor scheme rules block (ledger, seen) =
        (.error (.inner error), { noted := ledger.noted },
          some { block with header := block.header.pop }) := by
  rcases strips : block.header.stripSeal scheme with ⟨error | ⟨author, item⟩, stripped⟩
  · exact .inl ⟨error, rfl, executeSealed_of_error (by rw [strips])⟩
  · right
    obtain ⟨pushed, names, _⟩ := Header.stripSeal_eq_ok_iff.mp strips
    have popped : block.header.pop = stripped := by rw [pushed, Header.pop_push]
    have number : stripped.number = block.header.number := by rw [pushed, Header.push]
    simp only [executeSealed_of_ok strips, Executive.observed, popped, ← number]
    rcases executiveAt_cases { block with header := stripped } names with
      ⟨account, known, eligible, executed⟩ | ⟨refused, error, failed⟩
    · refine .inl ⟨author, item, account, rfl, known, eligible, ?_⟩
      intro ledger seen
      rw [executive, executed]
      rfl
    · refine .inr ⟨author, item, error, rfl, refused, ?_⟩
      intro ledger seen
      rw [executive, failed]
      rfl

theorem executor_eq_ok_iff (state : Ledger α × Option Block) :
    (executor scheme rules block state).1 = .ok () ↔
      ∃ author item, (block.header.stripSeal scheme).1 = .ok (author, item) ∧
        ∀ parent, api rules parent author block.header.number = .ok true := by
  obtain ⟨ledger, seen⟩ := state
  have someHeader : Nonempty Header := ⟨{}⟩
  simp only [api_eq_ok_true_iff, forall_const]
  rcases executor_cases scheme rules block with
    ⟨error, strips, executed⟩ | ⟨author, item, account, strips, known, eligible, executed⟩ |
    ⟨author, item, error, strips, refused, executed⟩
  · simp [executed, strips]
  · have may : canAuthor rules author block.header.number = true :=
      canAuthor_eq_true_iff.mpr ⟨account, known, eligible⟩
    simp [executed, strips, may]
  · simp [executed, strips, refused]

theorem executor_eq_invalidSeal_iff (state : Ledger α × Option Block) (error : SealError) :
    (executor scheme rules block state).1 = .error (.invalidSeal error) ↔
      (block.header.stripSeal scheme).1 = .error error := by
  obtain ⟨ledger, seen⟩ := state
  rcases executor_cases scheme rules block with
    ⟨other, strips, executed⟩ | ⟨author, item, account, strips, _, _, executed⟩ |
    ⟨author, item, other, strips, _, executed⟩
  · simp [executed, strips]
  · simp [executed, strips]
  · simp [executed, strips]

/-- What a block does to the ledger is the same in the middle of a run as alone. -/
theorem executor_eq_alone (noted : List α) (seen : Option Block) :
    (executor scheme rules block ({ noted }, seen)).1 =
        (executor scheme rules block ({}, none)).1 ∧
      (executor scheme rules block ({ noted }, seen)).2.1 =
        { noted := noted ++ (executor scheme rules block ({}, none)).2.1.noted } := by
  rcases executor_cases scheme rules block with
    ⟨error, _, executed⟩ | ⟨author, item, account, _, _, _, executed⟩ |
    ⟨author, item, error, _, _, executed⟩
  · simp [executed]
  · simp [executed]
  · simp [executed]

end Executor

end Validation

/-! ## Many blocks -/

/-- Execute blocks one after the other, whatever comes of each. -/
def Executive.executeAll {σ ε : Type} (executive : Executive σ ε) :
    List Block → σ → List (Except ε Unit) × σ
  | [], state => ([], state)
  | block :: rest, state =>
    let (outcome, next) := executive block state
    let (outcomes, last) := executive.executeAll rest next
    (outcome :: outcomes, last)

namespace Validation

variable {α : Type}

theorem executeAll_executor_eq_alone (scheme : SignatureScheme) (rules : Rules α)
    (blocks : List Block) (noted : List α) (seen : Option Block) :
    ((executor scheme rules).executeAll blocks ({ noted }, seen)).1 =
        blocks.map (fun block => (executor scheme rules block ({}, none)).1) ∧
      ((executor scheme rules).executeAll blocks ({ noted }, seen)).2.1 =
        { noted := noted ++
            blocks.flatMap fun block => (executor scheme rules block ({}, none)).2.1.noted } := by
  induction blocks generalizing noted seen with
  | nil => simp [Executive.executeAll]
  | cons block rest inductionHypothesis =>
      obtain ⟨outcome, after⟩ := executor_eq_alone scheme rules block noted seen
      rcases executed : executor scheme rules block ({ noted }, seen) with ⟨here, next, shown⟩
      rw [executed] at outcome after
      dsimp only at outcome after
      subst outcome after
      obtain ⟨later, last⟩ := inductionHypothesis
        (noted ++ (executor scheme rules block ({}, none)).2.1.noted) shown
      simp only [Executive.executeAll, executed, later, last, List.map_cons, List.flatMap_cons,
        List.append_assoc, and_self]

/-- However many blocks are executed, what comes of each is what would come of it alone: it executes
just when its seal checks and the runtime lets the author whom the seal checks for author at the
number of the block; it fails at the seal just when the check does, and then nothing is noted and
the executive is not shown the block; in any other case the executive is shown the block without its
last log. Nothing but noted accounts is left in the end. -/
theorem executeAll_executor (scheme : SignatureScheme) (rules : Rules α) (blocks : List Block) :
    ((executor scheme rules).executeAll blocks ({}, none)).1 =
        blocks.map (fun block => (executor scheme rules block ({}, none)).1) ∧
      ((executor scheme rules).executeAll blocks ({}, none)).2.1 =
        { noted :=
            blocks.flatMap fun block => (executor scheme rules block ({}, none)).2.1.noted } ∧
      ∀ block ∈ blocks, ∀ state,
        ((executor scheme rules block state).1 = .ok () ↔
          ∃ author item, (block.header.stripSeal scheme).1 = .ok (author, item) ∧
            ∀ parent, api rules parent author block.header.number = .ok true) ∧
        (∀ error, (executor scheme rules block state).1 = .error (.invalidSeal error) ↔
          (block.header.stripSeal scheme).1 = .error error) ∧
        (∀ error, (block.header.stripSeal scheme).1 = .error error →
          (executor scheme rules block state).2 = state) ∧
        ∀ accepted, (block.header.stripSeal scheme).1 = .ok accepted →
          (executor scheme rules block state).2.2 =
            some { block with header := block.header.pop } := by
  obtain ⟨outcomes, last⟩ := executeAll_executor_eq_alone scheme rules blocks [] none
  refine ⟨outcomes, last, fun block _ state => ⟨executor_eq_ok_iff scheme rules block state,
    executor_eq_invalidSeal_iff scheme rules block state, ?_, ?_⟩⟩
  · intro error fails
    exact congrArg Prod.snd (executeSealed_of_error fails state)
  · intro accepted checks
    obtain ⟨ledger, seen⟩ := state
    rcases executor_cases scheme rules block with
      ⟨error, strips, _⟩ | ⟨_, _, _, _, _, _, executed⟩ | ⟨_, _, _, _, _, executed⟩
    · rw [strips] at checks
      cases checks
    · rw [executed]
    · rw [executed]

end Validation

end Authorship
