/-
Module: Authorship.Proofs.Slot.Loop
Purpose: The slot loop under any clock, any answers on whether the node catches up with others, and
  any best blocks. The slots that begin go up, so that none begins twice; and the worker is called
  just at those of them at which it may author and there is a block to author on.
Main exports: Slots.yielded_append, Slots.yielded_concat, Slots.pairwise_yielded, SlotLoop.Contact,
  SlotLoop.observed, SlotLoop.Visit, SlotLoop.Visits, SlotLoop.visits_mapM, SlotLoop.admitted,
  SlotLoop.offers, SlotLoop.worker_called_once_per_slot
-/
import Authorship.Proofs.Node.Keeps
import Authorship.Slot.Loop

namespace Authorship

/-! ## Slots that begin -/

namespace Slots

variable {slotDuration : Duration} {last slot : UInt64} {readings : List Duration}

/-- The last slot yielded; the one before the readings if none was. -/
def lastYielded (slotDuration : Duration) (last : UInt64) (readings : List Duration) : UInt64 :=
  (yielded slotDuration last readings).getLast?.getD last

theorem next?_eq_some_iff {reading : Duration} :
    next? slotDuration last reading = some slot ↔
      last < slot ∧ slot = slotAt reading slotDuration := by
  have judged : next? slotDuration last reading =
      if last < slotAt reading slotDuration then some (slotAt reading slotDuration) else none := rfl
  rw [judged, Option.ite_none_right_eq_some, Option.some_inj]
  constructor
  · intro ⟨above, reached⟩
    exact ⟨reached ▸ above, reached.symm⟩
  · intro ⟨above, reached⟩
    exact ⟨reached ▸ above, reached.symm⟩

theorem yielded_cons_of_next?_eq_some {reading : Duration}
    (isNext : next? slotDuration last reading = some slot) :
    yielded slotDuration last (reading :: readings) =
      slot :: yielded slotDuration slot readings := by
  rw [yielded, isNext]

theorem yielded_cons_of_next?_eq_none {reading : Duration}
    (isLate : next? slotDuration last reading = none) :
    yielded slotDuration last (reading :: readings) = yielded slotDuration last readings := by
  rw [yielded, isLate]

theorem lt_of_mem_yielded (member : slot ∈ yielded slotDuration last readings) : last < slot := by
  induction readings generalizing last with
  | nil => cases member
  | cons reading rest inductionHypothesis =>
      cases isNext : next? slotDuration last reading with
      | none =>
          rw [yielded_cons_of_next?_eq_none isNext] at member
          exact inductionHypothesis member
      | some first =>
          have above : last < first := (next?_eq_some_iff.mp isNext).1
          rw [yielded_cons_of_next?_eq_some isNext] at member
          cases member with
          | head => exact above
          | tail _ later => exact UInt64.lt_trans above (inductionHypothesis later)

/-- Slots go up, whatever the clock does. -/
theorem pairwise_yielded (slotDuration : Duration) (last : UInt64) (readings : List Duration) :
    (yielded slotDuration last readings).Pairwise (· < ·) := by
  induction readings generalizing last with
  | nil => exact .nil
  | cons reading rest inductionHypothesis =>
      cases isNext : next? slotDuration last reading with
      | none =>
          rw [yielded_cons_of_next?_eq_none isNext]
          exact inductionHypothesis last
      | some first =>
          rw [yielded_cons_of_next?_eq_some isNext]
          exact .cons (fun _ later => lt_of_mem_yielded later) (inductionHypothesis first)

/-- All that later readings know of earlier ones is the last slot. -/
theorem yielded_append (slotDuration : Duration) (last : UInt64) (earlier later : List Duration) :
    yielded slotDuration last (earlier ++ later) =
      yielded slotDuration last earlier ++
        yielded slotDuration (lastYielded slotDuration last earlier) later := by
  induction earlier generalizing last with
  | nil => rfl
  | cons reading rest inductionHypothesis =>
      rw [List.cons_append]
      cases isNext : next? slotDuration last reading with
      | none =>
          rw [lastYielded, yielded_cons_of_next?_eq_none isNext,
            yielded_cons_of_next?_eq_none isNext]
          exact inductionHypothesis last
      | some first =>
          rw [lastYielded, yielded_cons_of_next?_eq_some isNext,
            yielded_cons_of_next?_eq_some isNext, inductionHypothesis, List.getLast?_cons,
            Option.getD_some, List.cons_append]
          rfl

/-- One more reading yields its slot if that is above the last one, and nothing otherwise. -/
theorem yielded_concat (slotDuration : Duration) (last : UInt64) (readings : List Duration)
    (reading : Duration) :
    yielded slotDuration last (readings ++ [reading]) =
      yielded slotDuration last readings ++
        if lastYielded slotDuration last readings < slotAt reading slotDuration then
          [slotAt reading slotDuration]
        else [] := by
  rw [yielded_append]
  congr 1
  unfold yielded next?
  by_cases above : lastYielded slotDuration last readings < slotAt reading slotDuration
  · simp only [if_pos above]
    rfl
  · simp only [if_neg above]
    rfl

end Slots

namespace SlotLoop

variable {σ : Type} {loop : SlotLoop σ}

/-! ## What the loop asks, and whom it calls -/

/-- Something that the loop asked, with the answer, or a call of the worker. -/
inductive Contact where
  | syncing (answer : Bool)
  | bestHeader (outcome : Except ConsensusError Header)
  | worker (info : SlotInfo)

/-- The answer on whether the node catches up with others. -/
def Contact.answer? : Contact → Option Bool
  | .syncing answer => some answer
  | .bestHeader _ | .worker _ => none

/-- The best block, or why there is none. -/
def Contact.head? : Contact → Option (Except ConsensusError Header)
  | .bestHeader outcome => some outcome
  | .syncing _ | .worker _ => none

/-- What the worker was called with. -/
def Contact.info? : Contact → Option SlotInfo
  | .worker info => some info
  | .syncing _ | .bestHeader _ => none

/-- The loop together with its contacts, in order. -/
def observed (loop : SlotLoop σ) : SlotLoop (σ × List Contact) where
  slotDuration := loop.slotDuration
  blockSizeLimit := loop.blockSizeLimit
  forceAuthoring := loop.forceAuthoring
  syncing := fun (state, seen) =>
    let (answer, state) := loop.syncing.run state
    (answer, state, seen ++ [.syncing answer])
  bestHeader := ExceptT.mk fun (state, seen) =>
    let (outcome, state) := loop.bestHeader.run.run state
    (outcome, state, seen ++ [.bestHeader outcome])
  worker info := fun (state, seen) =>
    let (authored, state) := (loop.worker info).run state
    (authored, state, seen ++ [.worker info])

/-- What the worker is called with at a slot. -/
def offer (loop : SlotLoop σ) (slot : UInt64) (head : Header) : SlotInfo where
  slot := slot
  head := head
  duration := loop.slotDuration
  blockSizeLimit := loop.blockSizeLimit

/-- The worker may author unless the node catches up with others, and then too if that is forced. -/
def admits (loop : SlotLoop σ) (syncing : Bool) : Bool :=
  !syncing || loop.forceAuthoring

/-- The contacts at a slot, and what came of it. -/
inductive Visit (loop : SlotLoop σ) (slot : UInt64) : List Contact → SlotOutcome → Prop where
  | skipped {syncing : Bool} (barred : loop.admits syncing = false) :
      Visit loop slot [.syncing syncing] .skipped
  | headless {syncing : Bool} {error : ConsensusError} (admitted : loop.admits syncing = true) :
      Visit loop slot [.syncing syncing, .bestHeader (.error error)] (.headless error)
  | worked {syncing : Bool} {head : Header} {authored : Option Block}
      (admitted : loop.admits syncing = true) :
      Visit loop slot
        [.syncing syncing, .bestHeader (.ok head), .worker (loop.offer slot head)]
        (.worked (loop.offer slot head) authored)

/-- The contacts at slots one after the other, and what came of them. -/
inductive Visits (loop : SlotLoop σ) : List UInt64 → List Contact → List SlotOutcome → Prop where
  | nil : Visits loop [] [] []
  | cons {slot : UInt64} {slots : List UInt64} {contacts later : List Contact}
      {outcome : SlotOutcome} {outcomes : List SlotOutcome}
      (visit : Visit loop slot contacts outcome) (visits : Visits loop slots later outcomes) :
      Visits loop (slot :: slots) (contacts ++ later) (outcome :: outcomes)

theorem skips_eq_not_admits (loop : SlotLoop σ) (syncing : Bool) :
    (syncing && !loop.forceAuthoring) = !loop.admits syncing := by
  simp [admits]

section Entering

variable {slot : UInt64} {state asked found next : σ} {syncing : Bool}

theorem enter_skipped (answered : loop.syncing.run state = (syncing, asked))
    (barred : loop.admits syncing = false) :
    (loop.enter slot).run state = (.skipped, asked) := by
  rw [enter, StateM.run_bind_eq answered, skips_eq_not_admits, barred]
  rfl

theorem enter_headless {error : ConsensusError}
    (answered : loop.syncing.run state = (syncing, asked)) (admitted : loop.admits syncing = true)
    (headless : loop.bestHeader.run.run asked = (.error error, found)) :
    (loop.enter slot).run state = (.headless error, found) := by
  rw [enter, StateM.run_bind_eq answered, skips_eq_not_admits, admitted]
  exact StateM.run_bind_eq headless

theorem enter_worked {head : Header} {authored : Option Block}
    (answered : loop.syncing.run state = (syncing, asked)) (admitted : loop.admits syncing = true)
    (headed : loop.bestHeader.run.run asked = (.ok head, found))
    (worked : (loop.worker (loop.offer slot head)).run found = (authored, next)) :
    (loop.enter slot).run state = (.worked (loop.offer slot head) authored, next) := by
  rw [enter, StateM.run_bind_eq answered, skips_eq_not_admits, admitted]
  exact (StateM.run_bind_eq headed).trans (StateM.run_bind_eq worked)

end Entering

section Observing

variable {slot : UInt64} {state asked found next : σ} {seen : List Contact}

theorem observed_syncing {syncing : Bool} (answered : loop.syncing.run state = (syncing, asked)) :
    loop.observed.syncing.run (state, seen) = (syncing, asked, seen ++ [.syncing syncing]) := by
  have recorded : loop.observed.syncing.run (state, seen) =
      ((loop.syncing.run state).1, (loop.syncing.run state).2,
        seen ++ [.syncing (loop.syncing.run state).1]) := rfl
  rw [recorded, answered]

theorem observed_bestHeader {outcome : Except ConsensusError Header}
    (headed : loop.bestHeader.run.run state = (outcome, found)) :
    loop.observed.bestHeader.run.run (state, seen) =
      (outcome, found, seen ++ [.bestHeader outcome]) := by
  have recorded : loop.observed.bestHeader.run.run (state, seen) =
      ((loop.bestHeader.run.run state).1, (loop.bestHeader.run.run state).2,
        seen ++ [.bestHeader (loop.bestHeader.run.run state).1]) := rfl
  rw [recorded, headed]

theorem observed_worker {info : SlotInfo} {authored : Option Block}
    (worked : (loop.worker info).run state = (authored, next)) :
    (loop.observed.worker info).run (state, seen) =
      (authored, next, seen ++ [.worker info]) := by
  have recorded : (loop.observed.worker info).run (state, seen) =
      (((loop.worker info).run state).1, ((loop.worker info).run state).2,
        seen ++ [.worker info]) := rfl
  rw [recorded, worked]

/-- A slot makes one visit, and observing it changes nothing. -/
theorem visit_enter (loop : SlotLoop σ) (slot : UInt64) (state : σ) (seen : List Contact) :
    ∃ contacts outcome next,
      (loop.enter slot).run state = (outcome, next) ∧
      (loop.observed.enter slot).run (state, seen) = (outcome, next, seen ++ contacts) ∧
      loop.Visit slot contacts outcome := by
  cases answered : loop.syncing.run state with
  | mk syncing asked =>
      cases admitted : loop.admits syncing with
      | false =>
          exact ⟨_, _, _, enter_skipped answered admitted,
            enter_skipped (observed_syncing answered) admitted, .skipped admitted⟩
      | true =>
          cases headed : loop.bestHeader.run.run asked with
          | mk outcome found =>
              cases outcome with
              | error error =>
                  refine ⟨_, _, _, enter_headless answered admitted headed, ?_,
                    .headless admitted⟩
                  rw [enter_headless (observed_syncing answered) admitted
                    (observed_bestHeader headed), List.append_assoc]
                  rfl
              | ok head =>
                  cases worked : (loop.worker (loop.offer slot head)).run found with
                  | mk authored next =>
                      refine ⟨_, _, _, enter_worked answered admitted headed worked, ?_,
                        .worked admitted⟩
                      rw [enter_worked (observed_syncing answered) admitted
                        (observed_bestHeader headed) (observed_worker worked), List.append_assoc,
                        List.append_assoc]
                      rfl

/-- Slots one after the other make one visit each, and observing them changes nothing. -/
theorem visits_mapM (loop : SlotLoop σ) (slots : List UInt64) (state : σ) (seen : List Contact) :
    ∃ contacts outcomes final,
      (slots.mapM loop.enter).run state = (outcomes, final) ∧
      (slots.mapM loop.observed.enter).run (state, seen) = (outcomes, final, seen ++ contacts) ∧
      loop.Visits slots contacts outcomes := by
  induction slots generalizing state seen with
  | nil =>
      refine ⟨[], [], state, rfl, ?_, .nil⟩
      rw [List.append_nil]
      rfl
  | cons slot rest inductionHypothesis =>
      obtain ⟨contacts, outcome, next, entered, enteredSeen, visit⟩ :=
        visit_enter loop slot state seen
      obtain ⟨later, outcomes, final, ran, ranSeen, visits⟩ :=
        inductionHypothesis next (seen ++ contacts)
      refine ⟨contacts ++ later, outcome :: outcomes, final, ?_, ?_, .cons visit visits⟩
      · rw [List.mapM_cons, StateM.run_bind_eq entered, StateM.run_bind_eq ran]
        rfl
      · rw [List.mapM_cons, StateM.run_bind_eq enteredSeen, StateM.run_bind_eq ranSeen,
          ← List.append_assoc]
        rfl

end Observing

/-! ## What the contacts say -/

/-- The answers on whether the node catches up with others. -/
def answers (contacts : List Contact) : List Bool :=
  contacts.filterMap Contact.answer?

/-- The best blocks, and why there was none. -/
def heads (contacts : List Contact) : List (Except ConsensusError Header) :=
  contacts.filterMap Contact.head?

/-- What the worker was called with. -/
def calls (contacts : List Contact) : List SlotInfo :=
  contacts.filterMap Contact.info?

/-- The slots at which the worker may author, by the answers given at them. -/
def admitted (loop : SlotLoop σ) (slots : List UInt64) (answers : List Bool) : List UInt64 :=
  ((slots.zip answers).filter fun (_, syncing) => loop.admits syncing).map (·.1)

/-- What the worker is to be called with, by the best blocks at the slots. -/
def offers (loop : SlotLoop σ) (slots : List UInt64)
    (heads : List (Except ConsensusError Header)) : List SlotInfo :=
  (slots.zip heads).filterMap fun (slot, head) => head.toOption.map (loop.offer slot)

section Reading

variable {slot : UInt64} {slots : List UInt64} {syncing : Bool} {rest : List Bool}

theorem admitted_cons_of_barred (barred : loop.admits syncing = false) :
    loop.admitted (slot :: slots) (syncing :: rest) = loop.admitted slots rest := by
  simp [admitted, barred]

theorem admitted_cons_of_admits (admits : loop.admits syncing = true) :
    loop.admitted (slot :: slots) (syncing :: rest) = slot :: loop.admitted slots rest := by
  simp [admitted, admits]

theorem offers_cons (head : Except ConsensusError Header)
    (later : List (Except ConsensusError Header)) :
    loop.offers (slot :: slots) (head :: later) =
      (head.toOption.map (loop.offer slot)).toList ++ loop.offers slots later := by
  unfold offers
  rw [List.zip_cons_cons, List.filterMap_cons]
  cases head <;> rfl

end Reading

/-- The contacts are those of a loop that asks once at each slot whether the node catches up, asks
for the best block where it may author, and calls the worker where there is one. -/
structure Recorded (loop : SlotLoop σ) (slots : List UInt64) (contacts : List Contact)
    (outcomes : List SlotOutcome) : Prop where
  answered : (answers contacts).length = slots.length
  headed : (heads contacts).length = (loop.admitted slots (answers contacts)).length
  called : calls contacts = loop.offers (loop.admitted slots (answers contacts)) (heads contacts)
  inOrder : ((calls contacts).map (·.slot)).Sublist slots
  worked : outcomes.filterMap SlotOutcome.info? = calls contacts

namespace Recorded

variable {slot : UInt64} {slots : List UInt64} {contacts later : List Contact}
  {outcome : SlotOutcome} {outcomes : List SlotOutcome}

theorem nil : loop.Recorded [] [] [] where
  answered := rfl
  headed := rfl
  called := rfl
  inOrder := .slnil
  worked := rfl

theorem skip {syncing : Bool} (barred : loop.admits syncing = false)
    (recorded : loop.Recorded slots later outcomes) :
    loop.Recorded (slot :: slots) (.syncing syncing :: later) (.skipped :: outcomes) where
  answered := congrArg (· + 1) recorded.answered
  headed := by
    change _ = (loop.admitted _ (syncing :: answers later)).length
    rw [admitted_cons_of_barred barred]
    exact recorded.headed
  called := by
    change _ = loop.offers (loop.admitted _ (syncing :: answers later)) _
    rw [admitted_cons_of_barred barred]
    exact recorded.called
  inOrder := recorded.inOrder.cons slot
  worked := recorded.worked

theorem miss {syncing : Bool} {error : ConsensusError} (admits : loop.admits syncing = true)
    (recorded : loop.Recorded slots later outcomes) :
    loop.Recorded (slot :: slots) (.syncing syncing :: .bestHeader (.error error) :: later)
      (.headless error :: outcomes) where
  answered := congrArg (· + 1) recorded.answered
  headed := by
    change _ = (loop.admitted _ (syncing :: answers later)).length
    rw [admitted_cons_of_admits admits]
    exact congrArg (· + 1) recorded.headed
  called := by
    change _ =
      loop.offers (loop.admitted _ (syncing :: answers later)) (.error error :: heads later)
    rw [admitted_cons_of_admits admits, offers_cons]
    exact recorded.called
  inOrder := recorded.inOrder.cons slot
  worked := recorded.worked

theorem call {syncing : Bool} {head : Header} {authored : Option Block}
    (admits : loop.admits syncing = true) (recorded : loop.Recorded slots later outcomes) :
    loop.Recorded (slot :: slots)
      (.syncing syncing :: .bestHeader (.ok head) :: .worker (loop.offer slot head) :: later)
      (.worked (loop.offer slot head) authored :: outcomes) where
  answered := congrArg (· + 1) recorded.answered
  headed := by
    change _ = (loop.admitted _ (syncing :: answers later)).length
    rw [admitted_cons_of_admits admits]
    exact congrArg (· + 1) recorded.headed
  called := by
    change _ = loop.offers (loop.admitted _ (syncing :: answers later)) (.ok head :: heads later)
    rw [admitted_cons_of_admits admits, offers_cons]
    exact congrArg (loop.offer slot head :: ·) recorded.called
  inOrder := recorded.inOrder.cons_cons slot
  worked := congrArg (loop.offer slot head :: ·) recorded.worked

end Recorded

theorem Visits.recorded {slots : List UInt64} {contacts : List Contact}
    {outcomes : List SlotOutcome} (visits : loop.Visits slots contacts outcomes) :
    loop.Recorded slots contacts outcomes := by
  induction visits with
  | nil => exact .nil
  | cons visit _ recorded =>
      cases visit with
      | skipped barred => exact recorded.skip barred
      | headless admitted => exact recorded.miss admitted
      | worked admitted => exact recorded.call admitted

/-! ## Runs -/

/-- The contacts of a run over readings of the clock. -/
def contacts (loop : SlotLoop σ) (readings : List Duration) (start : σ) : List Contact :=
  ((loop.observed.run readings).run (start, [])).2.2

/-- Observing a run changes nothing, and the contacts are those that the loop is to have. -/
theorem recorded_run (loop : SlotLoop σ) (readings : List Duration) (start : σ) :
    ∃ outcomes final,
      (loop.run readings).run start = (outcomes, final) ∧
      (loop.observed.run readings).run (start, []) =
        (outcomes, final, loop.contacts readings start) ∧
      loop.Recorded (Slots.yielded loop.slotDuration 0 readings) (loop.contacts readings start)
        outcomes := by
  obtain ⟨seen, outcomes, final, ran, ranSeen, visits⟩ :=
    visits_mapM loop (Slots.yielded loop.slotDuration 0 readings) start []
  have same : loop.contacts readings start = seen := congrArg (·.2.2) ranSeen
  rw [same]
  exact ⟨outcomes, final, ran, ranSeen, visits.recorded⟩

/-- Further readings only add contacts, at slots that begin later. -/
theorem contacts_append (loop : SlotLoop σ) (readings later : List Duration) (start : σ) :
    ∃ rest outcomes, loop.contacts (readings ++ later) start =
        loop.contacts readings start ++ rest ∧
      loop.Recorded (Slots.yielded loop.slotDuration
        (Slots.lastYielded loop.slotDuration 0 readings) later) rest outcomes := by
  obtain ⟨seen, outcomes, middle, ran, ranSeen, _⟩ :=
    visits_mapM loop (Slots.yielded loop.slotDuration 0 readings) start []
  obtain ⟨rest, laterOutcomes, final, _, laterSeen, visits⟩ :=
    visits_mapM loop (Slots.yielded loop.slotDuration
      (Slots.lastYielded loop.slotDuration 0 readings) later) middle seen
  refine ⟨rest, laterOutcomes, ?_, visits.recorded⟩
  have same : loop.contacts readings start = seen := congrArg (·.2.2) ranSeen
  have extended : (loop.observed.run (readings ++ later)).run (start, []) =
      (outcomes ++ laterOutcomes, final, seen ++ rest) := by
    have duration : loop.observed.slotDuration = loop.slotDuration := rfl
    rw [run, duration, Slots.yielded_append, List.mapM_append, StateM.run_bind_eq ranSeen,
      List.nil_append, StateM.run_bind_eq laterSeen]
    rfl
  rw [same, contacts, extended]

/-- Whatever the clock shows, and whatever the loop is told: the slots that begin go up from one,
each is that of the reading at which it began, and a reading begins none just when its slot is not
above the last one. The loop asks once at each of them whether the node catches up with others;
where it does not, or authoring is forced, it asks for the best block; and where there is one it
calls the worker with this slot, this block and the size limit that is configured, in order, and
nowhere else. So no slot is offered twice, and once a slot has begun, whatever came of it, only
later ones are offered. Observing all this changes nothing. -/
theorem worker_called_once_per_slot (loop : SlotLoop σ) (readings later : List Duration)
    (start : σ) :
    let slots := Slots.yielded loop.slotDuration 0 readings
    let contacts := loop.contacts readings start
    slots.Pairwise (· < ·) ∧
    (∀ slot ∈ slots, 1 ≤ slot) ∧
    (∀ reading, Slots.yielded loop.slotDuration 0 (readings ++ [reading]) =
      slots ++
        if slots.getLast?.getD 0 < slotAt reading loop.slotDuration then
          [slotAt reading loop.slotDuration]
        else []) ∧
    (answers contacts).length = slots.length ∧
    (heads contacts).length = (loop.admitted slots (answers contacts)).length ∧
    calls contacts = loop.offers (loop.admitted slots (answers contacts)) (heads contacts) ∧
    ((calls contacts).map (·.slot)).Sublist slots ∧
    ((calls contacts).map (·.slot)).Pairwise (· < ·) ∧
    (∃ rest, calls (loop.contacts (readings ++ later) start) = calls contacts ++ rest ∧
      ∀ info ∈ rest, ∀ slot ∈ slots, slot < info.slot) ∧
    ∃ outcomes final,
      (loop.run readings).run start = (outcomes, final) ∧
      (loop.observed.run readings).run (start, []) = (outcomes, final, contacts) ∧
      outcomes.filterMap SlotOutcome.info? = calls contacts := by
  intro slots contacts
  have rising : slots.Pairwise (· < ·) := Slots.pairwise_yielded _ _ _
  obtain ⟨outcomes, final, ran, ranSeen, recorded⟩ := recorded_run loop readings start
  refine ⟨rising, ?_, ?_, recorded.answered, recorded.headed, recorded.called, recorded.inOrder,
    rising.sublist recorded.inOrder, ?_, outcomes, final, ran, ranSeen, recorded.worked⟩
  · intro slot member
    exact Slots.lt_of_mem_yielded member
  · intro reading
    exact Slots.yielded_concat loop.slotDuration 0 readings reading
  · obtain ⟨rest, laterOutcomes, extended, laterRecorded⟩ :=
      contacts_append loop readings later start
    refine ⟨calls rest, ?_, ?_⟩
    · rw [extended]
      exact List.filterMap_append
    · intro info called slot member
      have offered : info.slot ∈ Slots.yielded loop.slotDuration _ later :=
        laterRecorded.inOrder.subset (List.mem_map_of_mem called)
      have both := Slots.pairwise_yielded loop.slotDuration 0 (readings ++ later)
      rw [Slots.yielded_append] at both
      exact (List.pairwise_append.mp both).2.2 slot member info.slot offered

end SlotLoop

end Authorship
