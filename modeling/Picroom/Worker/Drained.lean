import Picroom.Transition.Trace
import Picroom.Worker.DeadLetter
import Picroom.Worker.Deliveries

/-!
# The queue drains

Each step of a slot on a job takes the job further: to the end of its attempt, to its next
attempt, or to its end (`Spent`).  Attempts are limited, so nobody works on a job for ever; and
slots that keep asking for jobs, and go on with those they have, finish every job.
-/

namespace Picroom.WorkerPool

open Transition Relational JobQueue

variable {Stamp : Type} {config : Config Stamp} {state next : State Stamp} {id : Uuid}

/-- How far the slot is with its attempt; there are four steps to the end of it. -/
def Slot.progress : Slot Stamp → Nat
  | .down | .idle _ => 0
  | .handling _ => 1
  | .completing _ _ | .burying _ _ => 2
  | .failing _ _ => 3

/-- The steps that went into a job, counted by where it is. -/
inductive Spent (state : State Stamp) (id : Uuid) : Nat → Prop
  | absent (missing : state.jobs.find? id.toText = none) : Spent state id 0
  | resting (row : JobsRow Stamp) (found : state.jobs.find? id.toText = some row)
      (settled : row.status ≠ .running)
      (attempts : 0 ≤ row.attempts ∧ row.attempts ≤ maxAttempts) :
      Spent state id (4 * row.attempts.toNat)
  | working (slot : Nat) (delivery : Delivery Stamp)
      (found : state.jobs.find? id.toText = some delivery.row)
      (running : delivery.row.status = .running)
      (attempts : 1 ≤ delivery.row.attempts ∧ delivery.row.attempts ≤ maxAttempts)
      (holds : Holds state slot delivery) (sameJob : delivery.job.id = id) :
      Spent state id (4 * (delivery.row.attempts.toNat - 1) + (state.slots slot).progress)

/-- A slot takes the job, goes on with it or lets go of it. -/
def Moves (state next : State Stamp) (id : Uuid) : Prop :=
  ∃ slot, next.slots slot ≠ state.slots slot ∧
    ((state.slots slot).handles id ∨ (next.slots slot).handles id)

/-- The step does not undo work on the job, and counts when it is work on the job. -/
def Raises (state next : State Stamp) (id : Uuid) (level : Nat) : Prop :=
  ∃ higher, Spent next id higher ∧ level ≤ higher ∧ (Moves state next id → level < higher)

theorem progress_le_three (slot : Slot Stamp) : slot.progress ≤ 3 := by
  cases slot <;> simp [Slot.progress]

theorem Spent.le {level : Nat} (spent : Spent state id level) : level ≤ 4 * maxAttempts := by
  cases spent with
  | absent => exact Nat.zero_le _
  | resting row _ _ attempts => omega
  | working slot delivery _ _ attempts =>
      have small := progress_le_three (state.slots slot)
      omega

theorem Moves.not_of_frame (slots : ∀ slot, next.slots slot = state.slots slot ∨
    (¬ (state.slots slot).handles id ∧ ¬ (next.slots slot).handles id)) :
    ¬ Moves state next id := by
  rintro ⟨slot, moved, handles⟩
  rcases slots slot with same | ⟨before, after⟩
  · exact moved same
  · exact handles.elim before after

/-- A step that leaves the job alone. -/
theorem Spent.frame {level : Nat} (spent : Spent state id level)
    (rows : next.jobs.find? id.toText = state.jobs.find? id.toText)
    (slots : ∀ slot, next.slots slot = state.slots slot ∨
      (¬ (state.slots slot).handles id ∧ ¬ (next.slots slot).handles id)) :
    Raises state next id level := by
  refine ⟨level, ?_, le_rfl, fun moves => absurd moves (Moves.not_of_frame slots)⟩
  cases spent with
  | absent missing => exact .absent (rows.trans missing)
  | resting row found settled attempts => exact .resting row (rows.trans found) settled attempts
  | working slot delivery found running attempts holds sameJob =>
      have same : next.slots slot = state.slots slot := by
        rcases slots slot with same | ⟨free, _⟩
        · exact same
        · exact absurd ⟨delivery, holds, sameJob⟩ free
      rw [← same]
      refine .working slot delivery (rows.trans found) running attempts ?_ sameJob
      rw [Holds, same]
      exact holds

theorem Spent.eq_of_resting {level : Nat} {row : JobsRow Stamp} (spent : Spent state id level)
    (found : state.jobs.find? id.toText = some row) (settled : row.status ≠ .running) :
    level = 4 * row.attempts.toNat := by
  cases spent with
  | absent missing =>
      rw [found] at missing
      cases missing
  | resting other otherFound _ _ =>
      obtain rfl : row = other := Option.some.inj (found.symm.trans otherFound)
      rfl
  | working slot delivery otherFound running _ _ _ =>
      obtain rfl : row = delivery.row := Option.some.inj (found.symm.trans otherFound)
      exact absurd running settled

/-- The one slot that has the job in hand says how far it is. -/
theorem Spent.of_working {level slot : Nat} {delivery : Delivery Stamp}
    (spent : Spent state id level) (work : Working config state id slot delivery) :
    1 ≤ delivery.row.attempts ∧
      level = 4 * (delivery.row.attempts.toNat - 1) + (state.slots slot).progress := by
  cases spent with
  | absent missing =>
      rw [work.found] at missing
      cases missing
  | resting other otherFound settled _ =>
      obtain rfl : delivery.row = other := Option.some.inj (work.found.symm.trans otherFound)
      exact absurd work.running settled
  | working other another found _ attempts holds sameJob =>
      obtain rfl : other = slot := work.alone other ⟨another, holds, sameJob⟩
      obtain rfl : delivery = another := Option.some.inj (work.holds.symm.trans holds)
      exact ⟨attempts.1, rfl⟩

section Turns

variable {backend : Backend Stamp} {serde : Serde}

/-- The slot goes on with its attempt. -/
theorem Spent.advance {level slot : Nat} {delivery : Delivery Stamp} {value : Slot Stamp}
    (dlq : List DlqEntry) (lives : Lives config state) (spent : Spent state id level)
    (holds : Holds state slot delivery) (keeps : value.delivery? = some delivery)
    (further : value ≠ state.slots slot → (state.slots slot).progress < value.progress) :
    Raises state ({ state with dlq }.setSlot slot value) id level := by
  by_cases same : id = delivery.job.id
  · subst same
    have work := (lives.life delivery.job.id).working_of_holds holds
    obtain ⟨started, rfl⟩ := spent.of_working work
    have value_eq : ({ state with dlq }.setSlot slot value).slots slot = value := by
      simp [State.setSlot]
    have later : Spent ({ state with dlq }.setSlot slot value) delivery.job.id _ :=
      .working slot delivery work.found work.running ⟨started, work.attempts.2⟩
        (by rw [Holds, value_eq]; exact keeps) rfl
    rw [value_eq] at later
    by_cases moved : value = state.slots slot
    · refine ⟨_, later, by rw [moved], ?_⟩
      rintro ⟨other, changed, _⟩
      refine absurd ?_ changed
      by_cases here : other = slot
      · rw [here, value_eq, moved]
      · simp [State.setSlot, here]
    · have more := further moved
      exact ⟨_, later, by omega, fun _ => by omega⟩
  · have different : delivery.job.id ≠ id := fun equal => same equal.symm
    exact spent.frame rfl
      (slots_of_setSlot (not_handles_of_ne holds different) (not_handles_of_ne keeps different))

/-- The slot settles its attempt and lets go of the job. -/
theorem Spent.settle {level slot : Nat} {delivery : Delivery Stamp} {value : Slot Stamp}
    {jobs : JobsTable Stamp} {assign : JobsRow Stamp → JobsRow Stamp} (lives : Lives config state)
    (spent : Spent state id level) (holds : Holds state slot delivery)
    (idle : value.delivery? = none) (keeps : ∀ row, (assign row).attempts = row.attempts)
    (settled : ∀ row, (assign row).status ≠ .running)
    (rows : ∀ key, jobs.find? key = (state.jobs.find? key).map fun row =>
      if row.id = delivery.job.id.toText then assign row else row) :
    Raises state ({ state with jobs }.setSlot slot value) id level := by
  by_cases same : id = delivery.job.id
  · subst same
    have work := (lives.life delivery.job.id).working_of_holds holds
    obtain ⟨started, rfl⟩ := spent.of_working work
    have small := progress_le_three (state.slots slot)
    have rowId : delivery.row.id = delivery.job.id.toText :=
      (Table.find?_eq_some_iff.mp work.found).2
    have found : jobs.find? delivery.job.id.toText = some (assign delivery.row) := by
      rw [rows, work.found, Option.map_some, if_pos rowId]
    have rest : Spent ({ state with jobs }.setSlot slot value) delivery.job.id
        (4 * (assign delivery.row).attempts.toNat) :=
      .resting _ found (settled _) (by rw [keeps]; exact work.attempts)
    rw [keeps] at rest
    exact ⟨_, rest, by omega, fun _ => by omega⟩
  · have different : delivery.job.id ≠ id := fun equal => same equal.symm
    refine spent.frame ?_
      (slots_of_setSlot (not_handles_of_ne holds different) (not_handles_of_none idle))
    change jobs.find? id.toText = _
    rw [rows]
    cases found : state.jobs.find? id.toText with
    | none => rfl
    | some row =>
        have otherId : row.id = id.toText := (Table.find?_eq_some_iff.mp found).2
        rw [Option.map_some, if_neg]
        exact fun equal => same (Uuid.toText_injective (otherId.symm.trans equal))

variable [LinearOrder Stamp]

/-- The slot takes the job that waits the longest. -/
theorem Spent.take {level slot : Nat} {worker : String} {row : JobsRow Stamp} {job : Job}
    (lives : Lives config state) (withinLease : WithinLease config state)
    (spent : Spent state id level) (idle : (state.slots slot).delivery? = none)
    (chosen : claimedRow config.backend state.jobs state.now = some row)
    (decoded : jobOfRow config.backend config.serde
      (claim (config.backend.expiry state.now config.leaseSecs) worker row) = .ok job) :
    Raises state ({ state with
      jobs := claimNext config.backend config.leaseSecs worker state.jobs state.now }.setSlot slot
        (.handling ⟨claim (config.backend.expiry state.now config.leaseSecs) worker row, job⟩))
      id level := by
  obtain ⟨claimed, rowId, rowFound, pending, attempts, _, _⟩ :=
    lives.waiting_of_nextJob withinLease (claimedRow_eq_some_iff.mp chosen).1
  have parsed := (decodes_of_jobOfRow decoded).id
  have jobId : job.id = claimed := by
    rw [claim_id, rowId, Uuid.parseStr_toText, Option.some.injEq] at parsed
    exact parsed.symm
  have lookup : (claimNext config.backend config.leaseSecs worker state.jobs
      state.now).find? id.toText =
        if row.id = id.toText then
          some (JobQueue.claim (config.backend.expiry state.now config.leaseSecs) worker row)
        else state.jobs.find? id.toText := by
    rw [find?_claimNext, chosen]
  by_cases same : id = claimed
  · subst same
    have level_eq := spent.eq_of_resting rowFound (by simp [pending])
    have working : Spent ({ state with
        jobs := claimNext config.backend config.leaseSecs worker state.jobs state.now }.setSlot slot
          (.handling ⟨claim (config.backend.expiry state.now config.leaseSecs) worker row, job⟩))
        id _ :=
      .working slot ⟨JobQueue.claim _ worker row, job⟩ (lookup.trans (if_pos rowId)) rfl
        (by simp only [JobQueue.claim]; omega)
        (by simp [Holds, State.setSlot, Slot.delivery?]) jobId
    simp only [State.setSlot, Function.update_self, Slot.progress, JobQueue.claim] at working
    exact ⟨_, working, by omega, fun _ => by omega⟩
  · refine spent.frame ?_ (slots_of_setSlot (not_handles_of_none idle) ?_)
    · exact lookup.trans
        (if_neg fun equal => same (Uuid.toText_injective (equal.symm.trans rowId)))
    · exact not_handles_of_ne rfl fun equal => same (equal.symm.trans jobId)

theorem spent_of_turn {level : Nat} (lives : Lives config state)
    (withinLease : WithinLease config state) (turn : Turn config state next)
    (spent : Spent state id level) : Raises state next id level := by
  cases turn with
  | idles rows slots _ =>
      refine spent.frame (rows _) fun slot => ?_
      rcases slots slot with same | ⟨before, after⟩
      · exact Or.inl same
      · exact Or.inr ⟨not_handles_of_none before, not_handles_of_none after⟩
  | enqueues job unattempted result =>
      subst result
      cases before : state.jobs.find? id.toText with
      | some old =>
          refine spent.frame ?_ (fun _ => Or.inl rfl)
          simp only [find?_enqueue, before, Option.some_or]
      | none =>
          by_cases same : job.id.toText = id.toText
          · have attempts : (rowOfJob config.backend job).attempts = 0 := by
              simp only [rowOfJob, unattempted]
              rfl
            have rest : Spent { state with jobs := enqueue config.backend state.jobs job } id
                (4 * (rowOfJob config.backend job).attempts.toNat) := by
              refine .resting _ ?_ (by simp [rowOfJob]) (by rw [attempts]; decide)
              simp only [find?_enqueue, before, Option.none_or, if_pos same]
            have level_eq : level = 0 := by
              cases spent with
              | absent => rfl
              | resting _ found _ _ | working _ _ found _ _ _ _ =>
                  rw [before] at found
                  cases found
            refine ⟨_, rest, by omega, fun moves => absurd moves ?_⟩
            exact Moves.not_of_frame fun _ => Or.inl rfl
          · refine spent.frame ?_ (fun _ => Or.inl rfl)
            simp only [find?_enqueue, before, Option.none_or, if_neg same]
  | claims slot worker row job idle chosen decoded result =>
      subst result
      exact spent.take lives withinLease idle chosen decoded
  | finishes slot delivery value handling keeps _ _ result =>
      subst result
      refine spent.advance state.dlq lives (by rw [Holds, handling]; rfl) keeps ?_
      intro moved
      rw [handling] at moved ⊢
      cases value with
      | down | idle _ => cases keeps
      | handling another =>
          cases keeps
          exact absurd rfl moved
      | completing _ _ | burying _ _ | failing _ _ => simp [Slot.progress]
  | completes slot delivery outcome completing result =>
      subst result
      have holds : Holds state slot delivery := by
        rw [Holds, completing]
        rfl
      refine spent.settle lives holds rfl ?_ ?_ (fun _ => find?_complete)
      · exact fun _ => rfl
      · exact fun _ => by simp
  | buries slot delivery error burying result =>
      subst result
      refine spent.advance _ lives (by rw [Holds, burying]; rfl) rfl ?_
      intro _
      simp [burying, Slot.progress]
  | fails slot delivery error failing result =>
      subst result
      have holds : Holds state slot delivery := by
        rw [Holds, failing]
        rfl
      refine spent.settle lives holds rfl ?_ ?_ (fun _ => find?_fail)
      · exact fun _ => rfl
      · intro row
        dsimp only
        split <;> simp

end Turns

section Rest

variable [LinearOrder Stamp] {action : Action Stamp}

/-- Every job in the queue is done with. -/
def Drained (state : State Stamp) : Prop := ∀ row ∈ state.jobs, row.status.finished

/-- Only `enqueue` adds rows. -/
theorem missing_step {key : String} (quiet : ∀ job, action ≠ .enqueue job)
    (missing : state.jobs.find? key = none) (stepped : step config state action = some next) :
    next.jobs.find? key = none := by
  cases step_effect stepped with
  | keeps _ rows _ => exact (rows key).trans missing
  | enqueues job enqueued _ _ => exact absurd enqueued (quiet job)
  | claims slot worker _ rows _ =>
      rw [rows, find?_claimNext]
      split
      next => exact missing
      next row chosen =>
        obtain ⟨member, _, _⟩ := of_claimedRow_eq_some chosen
        rw [if_neg]
        · exact missing
        · intro same
          rw [Table.find?_eq_some_iff.mpr ⟨member, same⟩] at missing
          cases missing
  | completes slot delivery _ _ result rows _ =>
      rw [rows, find?_complete, missing]
      rfl
  | fails slot delivery _ _ error rows _ =>
      rw [rows, find?_fail, missing]
      rfl

/-- A drained queue stays drained until the next `enqueue`. -/
theorem drained_step (lives : Lives config state) (drained : Drained state)
    (quiet : ∀ job, action ≠ .enqueue job) (stepped : step config state action = some next) :
    Drained next := by
  have unheld : ∀ slot delivery, ¬ Holds state slot delivery := by
    intro slot delivery holds
    have work := (lives.life delivery.job.id).working_of_holds holds
    have finished := drained delivery.row (Table.find?_eq_some_iff.mp work.found).1
    rw [JobStatus.finished, work.running] at finished
    rcases finished with impossible | impossible <;> cases impossible
  cases step_effect stepped with
  | keeps _ rows _ =>
      intro row member
      have found := Table.find?_eq_some_iff.mpr ⟨member, rfl⟩
      rw [rows] at found
      exact drained row (Table.find?_eq_some_iff.mp found).1
  | enqueues job enqueued _ _ => exact absurd enqueued (quiet job)
  | claims slot worker _ rows _ =>
      have none_free : nextJob state.jobs (config.backend.now state.now) = none := by
        rw [nextJob_eq_none_iff]
        intro row member
        rcases drained row member with finished | finished <;> simp [claimable, finished]
      rw [claimNext, claimedRow_of_nextJob_none none_free] at rows
      intro row member
      rw [rows] at member
      exact drained row member
  | completes slot delivery _ holds _ _ _ => exact absurd holds (unheld slot delivery)
  | fails slot delivery _ holds _ _ _ => exact absurd holds (unheld slot delivery)

/-- Nothing to claim and nothing in hand: every job is done with. -/
theorem Lives.drained (lives : Lives config state)
    (unclaimable : nextJob state.jobs (config.backend.now state.now) = none)
    (unheld : ∀ slot delivery, ¬ Holds state slot delivery) : Drained state := by
  intro row member
  have rowFound : state.jobs.find? row.id = some row := Table.find?_eq_some_iff.mpr ⟨member, rfl⟩
  obtain ⟨id, rowId⟩ := lives.named _ _ rowFound
  rw [rowId] at rowFound
  cases lives.life id with
  | absent missing _ _ =>
      rw [rowFound] at missing
      cases missing
  | waiting other found pending _ _ _ =>
      obtain rfl : row = other := Option.some.inj (rowFound.symm.trans found)
      have free := nextJob_eq_none_iff.mp unclaimable row member
      simp [claimable, pending] at free
  | working slot delivery work => exact absurd work.holds (unheld slot delivery)
  | succeeded other found status _ _ =>
      obtain rfl : row = other := Option.some.inj (rowFound.symm.trans found)
      exact Or.inl status
  | dead other found status _ _ =>
      obtain rfl : row = other := Option.some.inj (rowFound.symm.trans found)
      exact Or.inr status

omit [LinearOrder Stamp] in
/-- The dead letters of a job that is done with. -/
theorem Lives.settled {row : JobsRow Stamp} (lives : Lives config state)
    (finished : row.status.finished) (member : row ∈ state.jobs) :
    ∃ id : Uuid, row.id = id.toText ∧
      (row.status = .succeeded ∧ entriesFor state id = [] ∨
        row.status = .dead ∧ Lettered state id) := by
  have rowFound : state.jobs.find? row.id = some row := Table.find?_eq_some_iff.mpr ⟨member, rfl⟩
  obtain ⟨id, rowId⟩ := lives.named _ _ rowFound
  rw [rowId] at rowFound
  refine ⟨id, rowId, ?_⟩
  cases lives.life id with
  | absent missing _ _ =>
      rw [rowFound] at missing
      cases missing
  | waiting other found pending _ _ _ =>
      obtain rfl : row = other := Option.some.inj (rowFound.symm.trans found)
      rw [JobStatus.finished, pending] at finished
      rcases finished with impossible | impossible <;> cases impossible
  | working slot delivery work =>
      obtain rfl : row = delivery.row := Option.some.inj (rowFound.symm.trans work.found)
      rw [JobStatus.finished, work.running] at finished
      rcases finished with impossible | impossible <;> cases impossible
  | succeeded other found status _ letters =>
      obtain rfl : row = other := Option.some.inj (rowFound.symm.trans found)
      exact Or.inl ⟨status, letters⟩
  | dead other found status _ letters =>
      obtain rfl : row = other := Option.some.inj (rowFound.symm.trans found)
      exact Or.inr ⟨status, letters⟩

/-- A `dequeue` that finds a job moves it into a slot. -/
theorem moves_of_dequeue {slot : Nat} {worker : String} {row : JobsRow Stamp}
    (lives : Lives config state) (orderly : Orderly config state (.dequeue slot worker))
    (chosen : nextJob state.jobs (config.backend.now state.now) = some row)
    (stepped : step config state (.dequeue slot worker) = some next) :
    ∃ id : Uuid, state.jobs.find? id.toText = some row ∧ Moves state next id := by
  obtain ⟨id, rowId, rowFound, _⟩ := lives.waiting_of_nextJob orderly.1 chosen
  refine ⟨id, rowFound, slot, ?_⟩
  have succeeded := orderly.2
  have returned := returnedRow_of_claimedRow config.leaseSecs worker
    (claimedRow_of_isOk chosen orderly.2)
  simp only [succeeds, dequeue, returned] at succeeded
  cases decoded : jobOfRow config.backend config.serde
      (claim (config.backend.expiry state.now config.leaseSecs) worker row) with
  | error _ =>
      rw [decoded] at succeeded
      cases succeeded
  | ok job =>
      have parsed := (decodes_of_jobOfRow decoded).id
      rw [claim_id, rowId, Uuid.parseStr_toText, Option.some.injEq] at parsed
      simp only [step] at stepped
      split at stepped
      next wakeAt idle =>
        split at stepped
        next =>
          cases stepped
          simp only [returned, received, decoded, State.setSlot,
            Function.update_self, idle]
          refine ⟨by simp, Or.inr ⟨_, rfl, parsed.symm⟩⟩
        next => cases stepped
      next => cases stepped

end Rest

section Traces

variable [LinearOrder Stamp]

/-- Slots that have a job in hand go on with it, and some slot always asks again. -/
structure Fair (trace : Trace (step config)) : Prop where
  hands : ∀ time slot delivery, Holds (trace.state time) slot delivery →
    ∃ later, time ≤ later ∧ (trace.state (later + 1)).slots slot ≠ (trace.state later).slots slot
  asks : ∀ time, ∃ later, time ≤ later ∧ ∃ slot worker, trace.action later = .dequeue slot worker

/-- The step moves the job. -/
def Worked (config : Config Stamp) (id : Uuid) (state : State Stamp) (action : Action Stamp) :
    Prop :=
  ∃ next, step config state action = some next ∧ Moves state next id

variable {backend : Backend Stamp} {serde : Serde} {trace : Trace (step (production backend serde))}

theorem lives_of_trace (unstarted : Unstarted backend (trace.state 0))
    (orderly : ∀ time, Orderly (production backend serde) (trace.state time) (trace.action time))
    (time : Nat) : Lives (production backend serde) (trace.state time) :=
  trace.invariant_from (Lives (production backend serde))
    (fun time _ lives => lives_step (orderly time) lives (trace.steps time))
    unstarted.lives (Nat.zero_le time)

/-- Each job is moved finitely often. -/
theorem eventually_unworked (unstarted : Unstarted backend (trace.state 0))
    (orderly : ∀ time, Orderly (production backend serde) (trace.state time) (trace.action time))
    (id : Uuid) :
    ∃ quiet, ∀ time, quiet ≤ time →
      ¬ Worked (production backend serde) id (trace.state time) (trace.action time) := by
  have start : ∃ level, Spent (trace.state 0) id level := by
    cases found : (trace.state 0).jobs.find? id.toText with
    | none => exact ⟨_, .absent found⟩
    | some row =>
        obtain ⟨job, unattempted, rfl⟩ := unstarted.rows _ _ found
        refine ⟨_, .resting _ found (by simp [rowOfJob]) ?_⟩
        simp only [rowOfJob, unattempted]
        decide
  obtain ⟨level, spent⟩ := start
  refine Trace.eventually_never (fun state level => Spent state id level) ?_
    (fun _ _ spent => spent.le) spent
  intro time level spent
  have turn := step_turn (orderly time).2 (trace.steps time)
  obtain ⟨higher, next, kept, strict⟩ :=
    spent_of_turn (lives_of_trace unstarted orderly time) (orderly time).1 turn spent
  refine ⟨higher, next, kept, ?_⟩
  rintro ⟨other, stepped, moves⟩
  obtain rfl : other = trace.state (time + 1) :=
    Option.some.inj (stepped.symm.trans (trace.steps time))
  exact strict moves

/-- A slot does not sit on a job that is never moved again. -/
theorem Fair.unheld (fair : Fair trace) {quiet : Nat} {slot : Nat} {delivery : Delivery Stamp}
    (unworked : ∀ time, quiet ≤ time →
      ¬ Worked (production backend serde) delivery.job.id (trace.state time) (trace.action time))
    {time : Nat} (after : quiet ≤ time) : ¬ Holds (trace.state time) slot delivery := by
  intro holds
  obtain ⟨later, afterwards, moved⟩ := fair.hands time slot delivery holds
  have stays : Holds (trace.state later) slot delivery := by
    refine trace.invariant_from (fun state => Holds state slot delivery) ?_ holds
      afterwards
    intro between since held
    by_contra changed
    refine unworked between (after.trans since) ⟨_, trace.steps between, slot, ?_, Or.inl ?_⟩
    · intro same
      rw [Holds, same] at changed
      exact changed held
    · exact ⟨delivery, held, rfl⟩
  exact unworked later (after.trans afterwards)
    ⟨_, trace.steps later, slot, moved, Or.inl ⟨delivery, stays, rfl⟩⟩

/-- Without failures and with every attempt within its lease, slots that keep asking for jobs and
go on with those they have drain the queue once nothing is enqueued any more: from some time on
every job has succeeded, without a dead letter, or is dead, with exactly one. -/
theorem pool_drains (backend : Backend Stamp) (serde : Serde)
    (trace : Trace (step (production backend serde)))
    (unstarted : Unstarted backend (trace.state 0))
    (orderly : ∀ time, Orderly (production backend serde) (trace.state time) (trace.action time))
    (fair : Fair trace)
    (closed : ∃ closing, ∀ time, closing ≤ time → ∀ job, trace.action time ≠ .enqueue job) :
    ∃ quiet, ∀ time, quiet ≤ time → ∀ row ∈ (trace.state time).jobs,
      ∃ id : Uuid, row.id = id.toText ∧
        (row.status = .succeeded ∧ entriesFor (trace.state time) id = [] ∨
          row.status = .dead ∧ Lettered (trace.state time) id) := by
  obtain ⟨closing, closed⟩ := closed
  have lives := lives_of_trace unstarted orderly
  -- the jobs of the closed queue are known, and each is moved finitely often
  let ids := (trace.state closing).jobs.rows.filterMap fun row => Uuid.parseStr row.id
  obtain ⟨quiet, unworked⟩ := trace.eventually_all_never ids
    (Worked (production backend serde)) fun id _ => eventually_unworked unstarted orderly id
  have known : ∀ time, closing ≤ time → ∀ (id : Uuid) row,
      (trace.state time).jobs.find? id.toText = some row → id ∈ ids := by
    intro time after id row found
    by_contra unknown
    have missing : (trace.state closing).jobs.find? id.toText = none := by
      rw [Table.find?_eq_none_iff]
      intro old member same
      refine unknown (List.mem_filterMap.mpr ⟨old, member, ?_⟩)
      rw [same, Uuid.parseStr_toText]
    have still := trace.invariant_from
      (fun state => state.jobs.find? id.toText = none)
      (fun time since missing => missing_step (closed time since) missing (trace.steps time))
      missing after
    rw [found] at still
    cases still
  obtain ⟨asked, afterwards, slot, worker, dequeues⟩ := fair.asks (max quiet closing)
  have afterQuiet : quiet ≤ asked := (le_max_left _ _).trans afterwards
  have afterClosing : closing ≤ asked := (le_max_right _ _).trans afterwards
  have drained : Drained (trace.state asked) := by
    refine (lives asked).drained ?_ ?_
    · cases chosen : nextJob (trace.state asked).jobs
          ((production backend serde).backend.now (trace.state asked).now) with
      | none => rfl
      | some row =>
          have stepped := trace.steps asked
          have orderlyHere := orderly asked
          rw [dequeues] at stepped orderlyHere
          obtain ⟨id, found, moves⟩ := moves_of_dequeue (lives asked) orderlyHere chosen stepped
          exact absurd ⟨_, trace.steps asked, moves⟩
            (unworked asked afterQuiet id (known asked afterClosing id row found))
    · intro slot delivery holds
      have work := ((lives asked).life delivery.job.id).working_of_holds holds
      have member := known asked afterClosing _ _ work.found
      exact fair.unheld (fun time after => unworked time after _ member) afterQuiet holds
  refine ⟨asked, ?_⟩
  intro time after row member
  exact (lives time).settled (trace.invariant_from Drained (fun time since drained => drained_step
    (lives time) drained (closed time (afterClosing.trans since)) (trace.steps time)) drained
    after row member) member

end Traces

section Sample

/-- One thumbnail, then a slot that asks every 200 ms. -/
def pollingAction : Nat → Action Int
  | 0 => .start 0
  | 1 => .dequeue 0 "a"
  | 2 => .finish 0 (.ok .skipped)
  | 3 => .complete 0
  | time + 4 => if time % 2 = 0 then .dequeue 0 "a" else .advance 200000000

def polledState (wakeAt now : Instant) : State Int where
  jobs := JobQueue.complete sampleConfig.serde
    (JobQueue.dequeue sampleConfig.backend sampleConfig.serde defaultLeaseSecs "a"
      onePending.jobs 0).1 thumbnailJob.id .skipped
  now := now
  slots := Function.update onePending.slots 0 (.idle wakeAt)

def pollingState : Nat → State Int
  | 0 => onePending
  | 1 => onePending.setSlot 0 (.idle 0)
  | 2 => (run (step (production .postgres sampleConfig.serde)) onePending
      [.start 0, .dequeue 0 "a"]).getD onePending
  | 3 => (run (step (production .postgres sampleConfig.serde)) onePending
      [.start 0, .dequeue 0 "a", .finish 0 (.ok .skipped)]).getD onePending
  | time + 4 =>
      polledState ((time + 1) / 2 * 200000000 : Nat) (time / 2 * 200000000 : Nat)

theorem polledState_unclaimable (wakeAt now : Instant) (later : Int) :
    nextJob (polledState wakeAt now).jobs later = none := rfl

theorem polledState_dequeue (now : Instant) :
    step (production .postgres sampleConfig.serde) (polledState now now) (.dequeue 0 "a") =
      some (polledState (now + 200000000) now) := by
  have idle : (polledState now now).slots 0 = .idle now := by simp [polledState]
  have none_free : nextJob (polledState now now).jobs
      ((production .postgres sampleConfig.serde).backend.now (polledState now now).now) = none :=
    polledState_unclaimable now now _
  simp only [step, idle, if_pos (show now ≤ (polledState now now).now from le_rfl), dequeue,
    claimNext, claimedRow_of_nextJob_none none_free, returnedRow, none_free, received,
    State.setSlot]
  simp [polledState]

theorem polledState_advance (wakeAt now : Instant) :
    step (production .postgres sampleConfig.serde) (polledState wakeAt now)
      (.advance 200000000) = some (polledState wakeAt (now + 200000000)) := rfl

/-- The slot that has settled the thumbnail is the one that polls. -/
theorem polledSlots :
    (((run (step (production .postgres sampleConfig.serde)) onePending
      [.start 0, .dequeue 0 "a", .finish 0 (.ok .skipped), .complete 0]).getD onePending).slots) =
        (polledState 0 0).slots := by
  funext slot
  cases slot <;> rfl

theorem nextPoll (half : Nat) : ((half * 200000000 : Nat) : Int) + 200000000 =
    (((half + 1) * 200000000 : Nat) : Int) := by omega

theorem pollingSteps (time : Nat) :
    step (production .postgres sampleConfig.serde) (pollingState time) (pollingAction time) =
      some (pollingState (time + 1)) := by
  match time with
  | 0 | 1 | 2 => rfl
  | 3 => exact congrArg (fun slots => some { polledState 0 0 with slots }) polledSlots
  | time + 4 =>
      simp only [pollingState, pollingAction]
      rcases Nat.even_or_odd' time with ⟨half, rfl | rfl⟩
      · have same : (2 * half + 1) / 2 = half := by omega
        have here : 2 * half / 2 = half := by omega
        have next : (2 * half + 1 + 1) / 2 = half + 1 := by omega
        rw [same, here, next, if_pos (by omega), polledState_dequeue]
        rw [nextPoll]
      · have here : (2 * half + 1) / 2 = half := by omega
        have next : (2 * half + 1 + 1) / 2 = half + 1 := by omega
        have after : (2 * half + 1 + 1 + 1) / 2 = half + 1 := by omega
        rw [here, next, after, if_neg (by omega), polledState_advance]
        rw [nextPoll]

def pollingTrace : Trace (step (production .postgres sampleConfig.serde)) where
  state := pollingState
  action := pollingAction
  steps := pollingSteps

theorem unheld_pollingState (time slot : Nat) (delivery : Delivery Int) :
    ¬ Holds (pollingState (time + 4)) slot delivery := by
  cases slot with
  | zero => simp [Holds, pollingState, polledState, Slot.delivery?]
  | succ slot => simp [Holds, pollingState, polledState, onePending, Slot.delivery?]

theorem polling_orderly (time : Nat) :
    Orderly (production .postgres sampleConfig.serde) (pollingState time) (pollingAction time) := by
  match time with
  | 0 | 1 | 2 | 3 => exact ⟨fun | 0 => rfl | _ + 1 => rfl, rfl⟩
  | time + 4 =>
      refine ⟨?_, ?_⟩
      · intro slot
        cases taken : ((pollingState (time + 4)).slots slot).delivery? with
        | none => simp [Slot.leased, taken]
        | some delivery => exact absurd taken (unheld_pollingState time slot delivery)
      · simp only [pollingAction]
        split <;> rfl

theorem polling_fair : Fair pollingTrace := by
  refine ⟨?_, ?_⟩
  · intro time slot delivery holds
    refine ⟨time, le_rfl, ?_⟩
    match time, slot with
    | 0, _ | 1, 0 | 1, _ + 1 | 2, _ + 1 | 3, _ + 1 => cases holds
    | 2, 0 | 3, 0 =>
        intro same
        cases same
    | time + 4, slot => exact absurd holds (unheld_pollingState time slot delivery)
  · intro time
    refine ⟨2 * time + 4, by omega, 0, "a", ?_⟩
    simp [pollingTrace, pollingAction]

/-- The thumbnail is made, and the queue is drained while the slot goes on polling. -/
theorem polling_drains :
    ∃ quiet, ∀ time, quiet ≤ time → ∀ row ∈ (pollingTrace.state time).jobs,
      ∃ id : Uuid, row.id = id.toText ∧
        (row.status = .succeeded ∧ entriesFor (pollingTrace.state time) id = [] ∨
          row.status = .dead ∧ Lettered (pollingTrace.state time) id) := by
  refine pool_drains .postgres sampleConfig.serde pollingTrace ⟨?_, rfl, fun _ => rfl⟩
    polling_orderly polling_fair ⟨0, ?_⟩
  · intro key row found
    have member : row ∈ onePending.jobs := (Table.find?_eq_some_iff.mp found).1
    exact ⟨thumbnailJob, rfl, List.mem_singleton.mp member⟩
  · intro time _ job
    match time with
    | 0 | 1 | 2 | 3 => simp [pollingTrace, pollingAction]
    | time + 4 =>
        simp only [pollingTrace, pollingAction]
        split <;> simp

end Sample

end Picroom.WorkerPool
