/-
Module: Authorship.Proofs.Lottery.Run
Purpose: A lottery over whole runs. Calls come from anybody, the lottery is built from a genesis or
  migrated, its events are taken, the accounts that might author change, and writes are refused for
  a while, in any order. The number to draw is the one that was written last; the events are the
  changes that calls were granted; and nothing else in storage is ever touched.
Main exports: Lottery.Step, Lottery.Answer, Lottery.Effect, Lottery.Entry, Lottery.perform,
  Lottery.run, Lottery.effect_perform, Lottery.Follows, Lottery.count_follows_writes
-/
import Authorship.Proofs.Lottery.Migration

namespace Authorship.Lottery

variable {α : Type}

/-! ## Steps -/

/-- What can happen to a lottery. -/
inductive Step (α : Type) where
  | setEligible (origin : Origin α) (count : EligibleCount)
  | dispatch (origin : Origin α) (call : Call)
  | build (genesis : Genesis)
  | migrate
  | takeEvents
  /-- From now on writes fail with this error, or work. -/
  | setRefusal (refusal : Option StorageError)
  /-- From now on these accounts might author. -/
  | setPotential (potential : List α)

/-- What a lottery answers. -/
inductive Answer where
  /-- To a call. -/
  | judged (outcome : Except DispatchError Unit)
  /-- To a genesis. -/
  | built (outcome : Except StorageError Unit)
  | migrated (weight : Weight)
  | taken (events : List Event)
  | noted
deriving DecidableEq

/-- Who calls for which number, if the step is a call. -/
def Step.asked? : Step α → Option (Origin α × EligibleCount)
  | .setEligible origin count | .dispatch origin (.setEligible count) => some (origin, count)
  | .build _ | .migrate | .takeEvents | .setRefusal _ | .setPotential _ => none

/-- The number that a step names. -/
def Step.named? : Step α → Option EligibleCount
  | .setEligible _ count | .dispatch _ (.setEligible count) => some count
  | .build genesis => some genesis.eligibleCount
  | .migrate | .takeEvents | .setRefusal _ | .setPotential _ => none

/-- The answer to a step, and the lottery that the step leaves, whether it fails or not. -/
def perform (lottery : Lottery α) : Step α → Answer × Lottery α
  | .setEligible origin count =>
    let (outcome, left) := (setEligible origin count).run.run lottery
    (.judged outcome, left)
  | .dispatch origin call =>
    let (outcome, left) := (dispatch origin call).run.run lottery
    (.judged outcome, left)
  | .build genesis =>
    let (outcome, store) := genesis.build.run.run lottery.store
    (.built outcome, { lottery with store })
  | .migrate =>
    let (weight, next) := Migration.run lottery
    (.migrated weight, next)
  | .takeEvents =>
    let (events, next) := lottery.takeEvents
    (.taken events, next)
  | .setRefusal refusal => (.noted, { lottery with store := { lottery.store with refusal } })
  | .setPotential potential => (.noted, { lottery with potential })

/-- A step, the lottery that it found, the answer, and the lottery that it left. -/
structure Entry (α : Type) where
  found : Lottery α
  step : Step α
  answer : Answer
  left : Lottery α

/-- Perform steps one after the other. -/
def run (lottery : Lottery α) : List (Step α) → List (Entry α) × Lottery α
  | [] => ([], lottery)
  | step :: rest =>
    let (answer, next) := lottery.perform step
    let (history, last) := next.run rest
    ({ found := lottery, step, answer, left := next } :: history, last)

/-! ## What one step does -/

/-- The number that a migration would write just now. -/
def due? (lottery : Lottery α) : Option EligibleCount :=
  match lottery.store.refusal, Migration.target? lottery with
  | none, .ok target? => target?
  | _, _ => none

/-- All that a step can do. -/
inductive Effect (lottery : Lottery α) : Step α → Answer → Lottery α → Prop where
  | badOrigin {step : Step α} {origin : Origin α} {count : EligibleCount}
      (asked : step.asked? = some (origin, count)) (sent : origin ≠ .root) :
      Effect lottery step (.judged (.error .badOrigin)) lottery
  | storageWrite {step : Step α} {count : EligibleCount} {refused : StorageError}
      (asked : step.asked? = some (.root, count)) (refuses : lottery.store.refusal = some refused) :
      Effect lottery step (.judged (.error Error.storageWrite.toDispatch)) lottery
  | changed {step : Step α} {count : EligibleCount}
      (asked : step.asked? = some (.root, count)) (works : lottery.store.refusal = none) :
      Effect lottery step (.judged (.ok ()))
        ((lottery.withCount count).deposit (.eligibleUpdated count))
  | notBuilt {genesis : Genesis} {refused : StorageError}
      (refuses : lottery.store.refusal = some refused) :
      Effect lottery (.build genesis) (.built (.error refused)) lottery
  | built {genesis : Genesis} (works : lottery.store.refusal = none) :
      Effect lottery (.build genesis) (.built (.ok ())) (lottery.withCount genesis.eligibleCount)
  | notMigrated {weight : Weight} (nothing : lottery.due? = none) :
      Effect lottery .migrate (.migrated weight) lottery
  | migrated {weight : Weight} {count : EligibleCount} (due : lottery.due? = some count)
      (notZero : count.value ≠ 0) :
      Effect lottery .migrate (.migrated weight) (lottery.withCount count)
  | taken : Effect lottery .takeEvents (.taken lottery.events) { lottery with events := [] }
  | refusalSet {refusal : Option StorageError} :
      Effect lottery (.setRefusal refusal) .noted
        { lottery with store := { lottery.store with refusal } }
  | potentialSet {potential : List α} :
      Effect lottery (.setPotential potential) .noted { lottery with potential }

section Performing

variable {lottery : Lottery α}

theorem effect_setEligible {step : Step α} {origin : Origin α} {count : EligibleCount}
    (asked : step.asked? = some (origin, count)) :
    Effect lottery step (.judged ((setEligible origin count).run.run lottery).1)
      ((setEligible origin count).run.run lottery).2 := by
  cases origin with
  | signed account => exact .badOrigin asked (by simp)
  | unsigned => exact .badOrigin asked (by simp)
  | root =>
      have isRoot := Attempt.run_ofExcept (Origin.root : Origin α).ensureRoot lottery
      rw [setEligible, Attempt.run_bind_eq isRoot]
      rcases lottery.run_writeCount_cases count with
        ⟨refused, refuses, failed⟩ | ⟨works, written⟩
      · rw [Attempt.run_bind_error (Attempt.run_adapt failed)]
        exact .storageWrite asked refuses
      · rw [Attempt.run_bind_eq (Attempt.run_adapt written)]
        exact .changed asked works

theorem effect_build (lottery : Lottery α) (genesis : Genesis) :
    Effect lottery (.build genesis) (lottery.perform (.build genesis)).1
      (lottery.perform (.build genesis)).2 := by
  unfold perform Genesis.build
  rcases lottery.store.run_putValue_cases countKey genesis.eligibleCount with
    ⟨refused, refuses, failed⟩ | ⟨works, written⟩
  · simp only [failed]
    exact .notBuilt refuses
  · simp only [written]
    exact .built works

theorem due?_of_storedRatio_of_works {stored? : Option Percent}
    (works : lottery.store.refusal = none)
    (stored : Migration.storedRatio lottery = .ok stored?) :
    lottery.due? = stored?.map (Migration.countFor lottery) := by
  rw [due?, works, Migration.target?_of_storedRatio stored]

theorem due?_of_refuses {refused : StorageError} (refuses : lottery.store.refusal = some refused) :
    lottery.due? = none := by
  rw [due?, refuses]

theorem effect_migrate (lottery : Lottery α) :
    Effect lottery .migrate (lottery.perform .migrate).1 (lottery.perform .migrate).2 := by
  unfold perform
  rcases Migration.run_cases lottery with
    ⟨error, faulty, ran⟩ | ⟨absent, ran⟩ | ⟨ratio, stored, ⟨refused, refuses, ran⟩ | ⟨works, ran⟩⟩
  · rw [ran]
    apply Effect.notMigrated
    have failed : Migration.target? lottery = .error error := by
      rw [Migration.target?, faulty]
      rfl
    rw [due?, failed]
    cases lottery.store.refusal <;> rfl
  · rw [ran]
    apply Effect.notMigrated
    cases refuses : lottery.store.refusal with
    | some refused => exact due?_of_refuses refuses
    | none => exact due?_of_storedRatio_of_works refuses absent
  · rw [ran]
    apply Effect.notMigrated
    exact due?_of_refuses refuses
  · rw [ran]
    apply Effect.migrated
    · exact due?_of_storedRatio_of_works works stored
    · exact Migration.countFor_ne_zero lottery ratio

theorem effect_perform (lottery : Lottery α) (step : Step α) :
    Effect lottery step (lottery.perform step).1 (lottery.perform step).2 := by
  cases step with
  | setEligible origin count => exact effect_setEligible rfl
  | dispatch origin call =>
      cases call with
      | setEligible count => exact effect_setEligible rfl
  | build genesis => exact effect_build lottery genesis
  | migrate => exact effect_migrate lottery
  | takeEvents => exact .taken
  | setRefusal refusal => exact .refusalSet
  | setPotential potential => exact .potentialSet

end Performing

/-! ## What a history says -/

/-- The number that a call was granted. -/
def Entry.granted? (entry : Entry α) : Option EligibleCount :=
  if entry.answer = .judged (.ok ()) then entry.step.asked?.map (·.2) else none

/-- The number that a step wrote. -/
def Entry.written? (entry : Entry α) : Option EligibleCount :=
  match entry.step with
  | .build genesis => if entry.answer = .built (.ok ()) then some genesis.eligibleCount else none
  | .migrate => entry.found.due?
  | _ => entry.granted?

/-- The events that were handed over. -/
def Answer.events : Answer → List Event
  | .taken events => events
  | .judged _ | .built _ | .migrated _ | .noted => []

/-- The number that was written last. -/
def lastWritten? (history : List (Entry α)) : Option EligibleCount :=
  (history.filterMap Entry.written?).getLast?

/-- The events that were handed over, in order. -/
def takenEvents (history : List (Entry α)) : List Event :=
  history.flatMap (·.answer.events)

/-- An event for each call that was granted, in order. -/
def grantedEvents (history : List (Entry α)) : List Event :=
  (history.filterMap Entry.granted?).map .eligibleUpdated

section Reading

variable {entry : Entry α} {history : List (Entry α)}

theorem granted?_of_asked {origin : Origin α} {count : EligibleCount}
    (asked : entry.step.asked? = some (origin, count)) (granted : entry.answer = .judged (.ok ())) :
    entry.granted? = some count := by
  rw [Entry.granted?, if_pos granted, asked]
  rfl

theorem granted?_of_error {error : DispatchError} (failed : entry.answer = .judged (.error error)) :
    entry.granted? = none := by
  rw [Entry.granted?, if_neg (by simp [failed])]

theorem written?_of_asked {origin : Origin α} {count : EligibleCount}
    (asked : entry.step.asked? = some (origin, count)) : entry.written? = entry.granted? := by
  unfold Entry.written?
  split
  · next isBuild =>
      rw [isBuild] at asked
      cases asked
  · next isMigrate =>
      rw [isMigrate] at asked
      cases asked
  · rfl

theorem named?_of_asked {step : Step α} {origin : Origin α} {count : EligibleCount}
    (asked : step.asked? = some (origin, count)) : step.named? = some count := by
  cases step with
  | setEligible =>
      cases asked
      rfl
  | dispatch origin call =>
      cases call
      cases asked
      rfl
  | build | migrate | takeEvents | setRefusal | setPotential => cases asked

theorem lastWritten?_concat :
    lastWritten? (history ++ [entry]) = entry.written?.or (lastWritten? history) := by
  unfold lastWritten?
  cases written : entry.written? <;> simp [written]

theorem takenEvents_concat :
    takenEvents (history ++ [entry]) = takenEvents history ++ entry.answer.events := by
  simp [takenEvents]

theorem grantedEvents_concat :
    grantedEvents (history ++ [entry]) =
      grantedEvents history ++ entry.granted?.toList.map .eligibleUpdated := by
  unfold grantedEvents
  cases granted : entry.granted? <;> simp [granted]

end Reading

/-! ## What one step leaves -/

/-- What a step did is what its answer says, and what it wrote is what storage has got. -/
structure Entry.Lawful (entry : Entry α) : Prop where
  performed : entry.found.perform entry.step = (entry.answer, entry.left)
  badOrigin : ∀ origin count, entry.step.asked? = some (origin, count) → origin ≠ .root →
    entry.answer = .judged (.error .badOrigin)
  storageWrite : ∀ count refused, entry.step.asked? = some (.root, count) →
    entry.found.store.refusal = some refused →
    entry.answer = .judged (.error (.inPallet "AuthorSlotFilter" "StorageWrite"))
  granted : ∀ count, entry.step.asked? = some (.root, count) →
    entry.found.store.refusal = none → entry.answer = .judged (.ok ())
  failed : ∀ error, entry.answer = .judged (.error error) → entry.left = entry.found
  written : entry.left.store.storage =
    match entry.written? with
    | none => entry.found.store.storage
    | some count => entry.found.store.storage.put countKey (encode count)
  others : ∀ key, key ≠ countKey →
    entry.left.store.storage.get? key = entry.found.store.storage.get? key

namespace Effect

variable {found left : Lottery α} {step : Step α} {answer : Answer}

/-- The number that is read afterwards. -/
theorem eligibleCount_eq (effect : Effect found step answer left)
    (notZero : ∀ count, step.named? = some count → count.value ≠ 0) :
    left.eligibleCount =
      (Entry.written? { found, step, answer, left }).getD found.eligibleCount := by
  cases effect with
  | badOrigin asked | storageWrite asked =>
      rw [written?_of_asked asked, granted?_of_error rfl]
      rfl
  | changed asked =>
      rw [written?_of_asked asked, granted?_of_asked asked rfl]
      exact eligibleCount_withCount (notZero _ (named?_of_asked asked))
  | notBuilt => rfl
  | built => exact eligibleCount_withCount (notZero _ rfl)
  | notMigrated nothing =>
      simp only [Entry.written?, nothing]
      rfl
  | migrated due positive =>
      simp only [Entry.written?, due]
      exact eligibleCount_withCount positive
  | taken => rfl
  | refusalSet => rfl
  | potentialSet => rfl

/-- The events that are handed over and those that are kept. -/
theorem events_eq (effect : Effect found step answer left) :
    answer.events ++ left.events =
      found.events ++
        (Entry.granted? { found, step, answer, left }).toList.map .eligibleUpdated := by
  cases effect with
  | badOrigin | storageWrite =>
      rw [granted?_of_error rfl]
      exact (List.append_nil _).symm
  | changed asked =>
      rw [granted?_of_asked asked rfl]
      rfl
  | notBuilt | built | notMigrated | migrated | taken | refusalSet | potentialSet =>
      simp [Entry.granted?, Answer.events, withCount]

/-- What storage has got. -/
theorem storage_eq (effect : Effect found step answer left) :
    left.store.storage =
      match Entry.written? { found, step, answer, left } with
      | none => found.store.storage
      | some count => found.store.storage.put countKey (encode count) := by
  cases effect with
  | badOrigin asked | storageWrite asked =>
      rw [written?_of_asked asked, granted?_of_error rfl]
  | changed asked =>
      rw [written?_of_asked asked, granted?_of_asked asked rfl]
      rfl
  | notBuilt => rfl
  | built => rfl
  | notMigrated nothing => simp only [Entry.written?, nothing]
  | migrated due =>
      simp only [Entry.written?, due]
      rfl
  | taken => rfl
  | refusalSet => rfl
  | potentialSet => rfl

/-- Whatever is written is written under the key of the number to draw. -/
theorem get?_eq (effect : Effect found step answer left) {key : StorageKey}
    (other : key ≠ countKey) :
    left.store.storage.get? key = found.store.storage.get? key := by
  rw [effect.storage_eq]
  split
  · rfl
  · rw [Storage.get?_put, if_neg other.symm]

theorem lawful (effect : Effect found step answer left)
    (performed : found.perform step = (answer, left)) :
    Entry.Lawful { found, step, answer, left } where
  performed := performed
  badOrigin origin count asked sent := by
    cases effect with
    | badOrigin => rfl
    | storageWrite isRoot | changed isRoot =>
        cases isRoot.symm.trans asked
        exact absurd rfl sent
    | notBuilt | built | notMigrated | migrated | taken | refusalSet | potentialSet => cases asked
  storageWrite count refused asked refuses := by
    cases effect with
    | badOrigin other sent =>
        cases other.symm.trans asked
        exact absurd rfl sent
    | storageWrite => rfl
    | changed _ works => cases works.symm.trans refuses
    | notBuilt | built | notMigrated | migrated | taken | refusalSet | potentialSet => cases asked
  granted count asked works := by
    cases effect with
    | badOrigin other sent =>
        cases other.symm.trans asked
        exact absurd rfl sent
    | storageWrite _ refuses => cases works.symm.trans refuses
    | changed => rfl
    | notBuilt | built | notMigrated | migrated | taken | refusalSet | potentialSet => cases asked
  failed error failed := by
    cases effect with
    | badOrigin | storageWrite => rfl
    | changed | notBuilt | built | notMigrated | migrated | taken | refusalSet | potentialSet =>
        cases failed
  written := effect.storage_eq
  others _ other := effect.get?_eq other

end Effect

/-! ## Runs -/

/-- The number to draw, the events and the rest of storage are what the history says. -/
structure Follows (start : Lottery α) (history : List (Entry α)) (lottery : Lottery α) : Prop where
  count : lottery.eligibleCount = (lastWritten? history).getD start.eligibleCount
  events : takenEvents history ++ lottery.events = start.events ++ grantedEvents history
  others : ∀ key, key ≠ countKey →
    lottery.store.storage.get? key = start.store.storage.get? key

namespace Follows

variable {start lottery : Lottery α} {history : List (Entry α)}

theorem refl (start : Lottery α) : Follows start [] start where
  count := rfl
  events := (List.append_nil _).symm
  others _ _ := rfl

theorem effect (follows : Follows start history lottery) {step : Step α} {answer : Answer}
    {next : Lottery α} (effect : Effect lottery step answer next)
    (notZero : ∀ count, step.named? = some count → count.value ≠ 0) :
    Follows start (history ++ [{ found := lottery, step, answer, left := next }]) next where
  count := by
    rw [effect.eligibleCount_eq notZero, lastWritten?_concat, follows.count]
    cases Entry.written? { found := lottery, step, answer, left := next } <;> rfl
  events := by
    calc takenEvents (history ++ [{ found := lottery, step, answer, left := next }]) ++ next.events
        = takenEvents history ++ (answer.events ++ next.events) := by
          rw [takenEvents_concat, List.append_assoc]
      _ = (takenEvents history ++ lottery.events) ++ _ := by
          rw [effect.events_eq, List.append_assoc]
      _ = _ := by
          rw [follows.events, grantedEvents_concat, List.append_assoc]
  others key other := (effect.get?_eq other).trans (follows.others key other)

/-- The history of a run goes on from any history that was followed before. -/
theorem run {steps : List (Step α)}
    (notZero : ∀ step ∈ steps, ∀ count, step.named? = some count → count.value ≠ 0)
    (follows : Follows start history lottery) :
    Follows start (history ++ (lottery.run steps).1) (lottery.run steps).2 := by
  induction steps generalizing history lottery with
  | nil => simpa [Lottery.run] using follows
  | cons step rest inductionHypothesis =>
      have next := follows.effect (effect_perform lottery step) (notZero step (by simp))
      have later := inductionHypothesis (fun other member => notZero other (by simp [member])) next
      rw [List.append_assoc, List.singleton_append] at later
      exact later

end Follows

theorem map_step_run (lottery : Lottery α) (steps : List (Step α)) :
    (lottery.run steps).1.map (·.step) = steps := by
  induction steps generalizing lottery with
  | nil => rfl
  | cons step rest inductionHypothesis => exact congrArg (step :: ·) (inductionHypothesis _)

theorem lawful_of_mem_run {lottery : Lottery α} {steps : List (Step α)} {entry : Entry α}
    (member : entry ∈ (lottery.run steps).1) : entry.Lawful := by
  induction steps generalizing lottery with
  | nil => cases member
  | cons step rest inductionHypothesis =>
      cases member with
      | head => exact (effect_perform lottery step).lawful rfl
      | tail _ later => exact inductionHypothesis later

/-- Whatever happens to a lottery, in whatever order, and whatever was stored at first: the number
to draw is the one that was written last, or what it was at first; the events handed over and those
still kept are those kept at first, and one for each call that was granted, in order. A call is
granted just when the root makes it while writes work; it is told first that its origin is bad, and
then that its number could not be written; and a call that fails leaves everything as it was. No
step writes anything in storage but the number that it is said to write, under one key. -/
theorem count_follows_writes {start lottery : Lottery α} {steps : List (Step α)}
    {history : List (Entry α)}
    (notZero : ∀ step ∈ steps, ∀ count, step.named? = some count → count.value ≠ 0)
    (ran : start.run steps = (history, lottery)) :
    lottery.eligibleCount = (lastWritten? history).getD start.eligibleCount ∧
      takenEvents history ++ lottery.events = start.events ++ grantedEvents history ∧
      (∀ key, key ≠ countKey →
        lottery.store.storage.get? key = start.store.storage.get? key) ∧
      history.map (·.step) = steps ∧
      ∀ entry ∈ history, entry.Lawful := by
  have follows : Follows start history lottery := by
    simpa [ran] using (Follows.refl start).run notZero
  refine ⟨follows.count, follows.events, follows.others, ?_, ?_⟩
  · rw [← map_step_run start steps, ran]
  · intro entry member
    apply lawful_of_mem_run
    rw [ran]
    exact member

/-- A share of seven accounts, and a number that cannot be read. -/
private def unreadable : Lottery Nat where
  beacon := Beacon.fixed Hash.zero
  potential := [1, 2, 3, 4, 5, 6, 7]
  store := { storage := (Storage.empty.put ratioKey [33, 0]).put countKey [1, 2] }

/-- Calls of an account and of the root, with writes refused and not, between migrations. -/
private def unsettledSteps : List (Step Nat) :=
  [.setEligible (.signed 3) ⟨8⟩, .setRefusal (some (.encode "EligibleCount" "full")),
    .dispatch .root (.setEligible ⟨9⟩), .migrate, .setRefusal none, .setEligible .root ⟨9⟩,
    .takeEvents, .build { eligibleCount := ⟨4⟩ }, .dispatch .root (.setEligible ⟨12⟩), .migrate]

theorem count_follows_writes_unsettled :
    unreadable.eligibleCount = .standard ∧
      (unreadable.run unsettledSteps).2.eligibleCount = ⟨3⟩ ∧
      takenEvents (unreadable.run unsettledSteps).1 = [.eligibleUpdated ⟨9⟩] ∧
      (unreadable.run unsettledSteps).2.events = [.eligibleUpdated ⟨12⟩] := by
  have notZero : ∀ step ∈ unsettledSteps, ∀ count, step.named? = some count → count.value ≠ 0 := by
    simp [unsettledSteps, Step.named?]
  obtain ⟨count, events, _⟩ :=
    count_follows_writes notZero (Prod.eta (unreadable.run unsettledSteps)).symm
  have written : lastWritten? (unreadable.run unsettledSteps).1 = some ⟨3⟩ := by decide +kernel
  have taken : takenEvents (unreadable.run unsettledSteps).1 = [.eligibleUpdated ⟨9⟩] := by
    decide +kernel
  have granted : grantedEvents (unreadable.run unsettledSteps).1 =
      [.eligibleUpdated ⟨9⟩, .eligibleUpdated ⟨12⟩] := by decide +kernel
  rw [taken, granted] at events
  refine ⟨by decide +kernel, ?_, taken, List.cons_inj_right _ |>.mp events⟩
  rw [count, written]
  rfl

end Authorship.Lottery
