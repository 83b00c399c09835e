import Picroom.Worker.Finished

/-!
# Dead letters

Two comparisons decide that a job is given up: the slot compares `job.attempts` with
`policy.max_attempts` before it pushes a `DlqEntry`, and `fail` compares the column with
`MAX_ATTEMPTS`.  In the wiring of `worker_cmd` they agree at every failure, as long as no
call fails and every attempt ends within its lease.

The invariant is the life of one job (`Life`): in every state it is absent, waiting, in
the hands of one slot, succeeded or dead, and each of these fixes its dead letters.
-/

namespace Picroom.WorkerPool

open Transition Relational JobQueue

variable {Stamp : Type}

/-- The queue and the pool as `worker_cmd` wires them. -/
def production (backend : Backend Stamp) (serde : Serde) : Config Stamp := { backend, serde }

/-- The entries pushed for a job. -/
def entriesFor (state : State Stamp) (id : Uuid) : List DlqEntry :=
  state.dlq.filter (·.jobId = id)

def Delivery.letter (delivery : Delivery Stamp) (error : String) (now : Instant) : DlqEntry :=
  ⟨delivery.job.id, error, delivery.job.attempts, now⟩

def Slot.handles (slot : Slot Stamp) (id : Uuid) : Prop :=
  ∃ delivery, slot.delivery? = some delivery ∧ delivery.job.id = id

/-- The slot has pushed the entry of its job and is about to send `fail`. -/
def Slot.pushed (config : Config Stamp) : Slot Stamp → Bool
  | .failing delivery _ => exhausted config delivery.job
  | _ => false

/-- Exactly one entry, pushed after the last attempt. -/
def Lettered (state : State Stamp) (id : Uuid) : Prop :=
  ∃ entry, entriesFor state id = [entry] ∧ entry.attempts = .ofNat maxAttempts

section Orderly

variable [LinearOrder Stamp]

/-- The attempt of the slot, if there is one, still has its lease. -/
def Slot.leased (now : Stamp) (slot : Slot Stamp) : Bool :=
  slot.delivery?.all fun delivery => delivery.row.leaseExpiresAt.all fun expiry => ! (expiry < now)

def WithinLease (config : Config Stamp) (state : State Stamp) : Prop :=
  ∀ slot, (state.slots slot).leased (config.backend.now state.now) = true

/-- No call of the step fails and no attempt is cut off; jobs are enqueued unattempted. -/
def succeeds (config : Config Stamp) (state : State Stamp) : Action Stamp → Bool
  | .enqueue job => job.attempts == 0
  | .crash slot => (state.slots slot).delivery?.isNone
  | .dequeue _ worker =>
      (dequeue config.backend config.serde config.leaseSecs worker state.jobs state.now).2.isOk
  | .pushDlq _ accepted => accepted
  | .queueError _ => false
  | _ => true

/-- A step of a run without failures in which every attempt ends within its lease. -/
def Orderly (config : Config Stamp) (state : State Stamp) (action : Action Stamp) : Prop :=
  WithinLease config state ∧ succeeds config state action = true

end Orderly

section Life

variable {config : Config Stamp} {state next : State Stamp} {id : Uuid}

/-- A slot has the job in hand, and no other slot has it. -/
structure Working (config : Config Stamp) (state : State Stamp) (id : Uuid) (slot : Nat)
    (delivery : Delivery Stamp) : Prop where
  found : state.jobs.find? id.toText = some delivery.row
  running : delivery.row.status = .running
  leased : ∃ expiry, delivery.row.leaseExpiresAt = some expiry
  attempts : 0 ≤ delivery.row.attempts ∧ delivery.row.attempts ≤ maxAttempts
  sameJob : delivery.job.id = id
  sameAttempts : delivery.job.attempts = .ofInt delivery.row.attempts
  holds : Holds state slot delivery
  alone : ∀ other, (state.slots other).handles id → other = slot
  burying : ∀ error, state.slots slot = .burying delivery error →
    exhausted config delivery.job = true
  letters : if (state.slots slot).pushed config then Lettered state id
    else entriesFor state id = []

/-- The life of a job, with the dead letters of each stage. -/
inductive Life (config : Config Stamp) (state : State Stamp) (id : Uuid) : Prop where
  | absent (missing : state.jobs.find? id.toText = none)
      (free : ∀ slot, ¬ (state.slots slot).handles id) (letters : entriesFor state id = [])
  | waiting (row : JobsRow Stamp) (found : state.jobs.find? id.toText = some row)
      (pending : row.status = .pending) (attempts : 0 ≤ row.attempts ∧ row.attempts < maxAttempts)
      (free : ∀ slot, ¬ (state.slots slot).handles id) (letters : entriesFor state id = [])
  | working (slot : Nat) (delivery : Delivery Stamp) (work : Working config state id slot delivery)
  | succeeded (row : JobsRow Stamp) (found : state.jobs.find? id.toText = some row)
      (status : row.status = .succeeded)
      (free : ∀ slot, ¬ (state.slots slot).handles id) (letters : entriesFor state id = [])
  | dead (row : JobsRow Stamp) (found : state.jobs.find? id.toText = some row)
      (status : row.status = .dead)
      (free : ∀ slot, ¬ (state.slots slot).handles id) (letters : Lettered state id)

/-- A job that a step does not touch stays where it is. -/
theorem Life.frame (life : Life config state id)
    (rows : next.jobs.find? id.toText = state.jobs.find? id.toText)
    (slots : ∀ slot, next.slots slot = state.slots slot ∨
      (¬ (state.slots slot).handles id ∧ ¬ (next.slots slot).handles id))
    (entries : entriesFor next id = entriesFor state id) : Life config next id := by
  have handled : ∀ slot, (next.slots slot).handles id → next.slots slot = state.slots slot := by
    intro slot handles
    rcases slots slot with same | ⟨_, free⟩
    · exact same
    · exact absurd handles free
  have stillFree : (∀ slot, ¬ (state.slots slot).handles id) →
      ∀ slot, ¬ (next.slots slot).handles id := by
    intro free slot handles
    exact free slot (handled slot handles ▸ handles)
  have stillLettered : Lettered state id → Lettered next id := by
    rintro ⟨entry, only, attempts⟩
    exact ⟨entry, entries.trans only, attempts⟩
  cases life with
  | absent missing free letters =>
      exact .absent (rows.trans missing) (stillFree free) (entries.trans letters)
  | waiting row found pending attempts free letters =>
      exact .waiting row (rows.trans found) pending attempts (stillFree free)
        (entries.trans letters)
  | working slot delivery work =>
      have same : next.slots slot = state.slots slot := by
        rcases slots slot with same | ⟨free, _⟩
        · exact same
        · exact absurd ⟨delivery, work.holds, work.sameJob⟩ free
      refine .working slot delivery { work with
        found := rows.trans work.found, holds := ?_, alone := ?_, burying := ?_, letters := ?_ }
      · rw [Holds, same]
        exact work.holds
      · intro other handles
        exact work.alone other (handled other handles ▸ handles)
      · rw [same]
        exact work.burying
      · have letters := work.letters
        rw [same]
        split
        next pushed =>
          rw [if_pos pushed] at letters
          exact stillLettered letters
        next kept =>
          rw [if_neg kept] at letters
          exact entries.trans letters
  | succeeded row found status free letters =>
      exact .succeeded row (rows.trans found) status (stillFree free) (entries.trans letters)
  | dead row found status free letters =>
      exact .dead row (rows.trans found) status (stillFree free) (stillLettered letters)

theorem Life.working_of_holds {slot : Nat} {delivery : Delivery Stamp}
    (life : Life config state delivery.job.id) (holds : Holds state slot delivery) :
    Working config state delivery.job.id slot delivery := by
  have handles : (state.slots slot).handles delivery.job.id := ⟨delivery, holds, rfl⟩
  cases life with
  | absent _ free _ | waiting _ _ _ _ free _ | succeeded _ _ _ free _ | dead _ _ _ free _ =>
      exact absurd handles (free slot)
  | working other another work =>
      obtain rfl : slot = other := work.alone slot handles
      obtain rfl : delivery = another := Option.some.inj (holds.symm.trans work.holds)
      exact work

theorem not_handles_of_ne {slot : Slot Stamp} {delivery : Delivery Stamp}
    (taken : slot.delivery? = some delivery) (different : delivery.job.id ≠ id) :
    ¬ slot.handles id := by
  rintro ⟨another, anotherTaken, same⟩
  obtain rfl : delivery = another := Option.some.inj (taken.symm.trans anotherTaken)
  exact different same

theorem not_handles_of_none {slot : Slot Stamp} (free : slot.delivery? = none) :
    ¬ slot.handles id := by
  rintro ⟨_, taken, _⟩
  rw [free] at taken
  cases taken

/-- Once its only slot lets go of the job, nobody has it. -/
theorem Working.free_of_setSlot {slot : Nat} {delivery : Delivery Stamp} {value : Slot Stamp}
    (work : Working config state id slot delivery) (free : value.delivery? = none) (other : Nat) :
    ¬ ((state.setSlot slot value).slots other).handles id := by
  by_cases same : other = slot
  · subst same
    simpa [State.setSlot] using not_handles_of_none free
  · simp only [State.setSlot, Function.update_of_ne same]
    exact fun handles => same (work.alone other handles)

/-- Steps of one slot frame the jobs it does not have in hand. -/
theorem slots_of_setSlot {slot : Nat} {value : Slot Stamp}
    (before : ¬ (state.slots slot).handles id) (after : ¬ value.handles id) (other : Nat) :
    (state.setSlot slot value).slots other = state.slots other ∨
      (¬ (state.slots other).handles id ∧
        ¬ ((state.setSlot slot value).slots other).handles id) := by
  by_cases same : other = slot
  · subst same
    refine Or.inr ⟨before, ?_⟩
    simpa [State.setSlot] using after
  · left
    simp [State.setSlot, same]

theorem Working.not_finished {slot : Nat} {delivery : Delivery Stamp}
    (work : Working config state id slot delivery) {status : JobStatus}
    (finished : status ≠ .running) : ¬ HasStatus id.toText status state := by
  rintro ⟨row, found, rowStatus⟩
  obtain rfl : delivery.row = row := Option.some.inj (work.found.symm.trans found)
  exact finished (rowStatus.symm.trans work.running)

theorem Life.lettered_or_empty (life : Life config state id) :
    Lettered state id ∨ entriesFor state id = [] := by
  cases life with
  | absent _ _ letters | waiting _ _ _ _ _ letters | succeeded _ _ _ _ letters =>
      exact Or.inr letters
  | dead _ _ _ _ letters => exact Or.inl letters
  | working slot delivery work =>
      have letters := work.letters
      split at letters
      next => exact Or.inl letters
      next => exact Or.inr letters

theorem Life.dead_iff (life : Life config state id) :
    HasStatus id.toText .dead state ↔
      entriesFor state id ≠ [] ∧ ∀ slot, ¬ (state.slots slot).handles id := by
  have other : ∀ {row : JobsRow Stamp}, state.jobs.find? id.toText = some row →
      row.status ≠ .dead → ¬ HasStatus id.toText .dead state := by
    rintro row found alive ⟨again, foundAgain, dead⟩
    obtain rfl : row = again := Option.some.inj (found.symm.trans foundAgain)
    exact alive dead
  cases life with
  | absent missing _ letters =>
      refine iff_of_false ?_ (fun pushed => pushed.1 letters)
      rintro ⟨row, found, _⟩
      rw [missing] at found
      cases found
  | waiting row found pending _ _ letters =>
      exact iff_of_false (other found (by simp [pending])) (fun pushed => pushed.1 letters)
  | working slot delivery work =>
      refine iff_of_false (work.not_finished (by simp)) (fun settled => ?_)
      exact settled.2 slot ⟨delivery, work.holds, work.sameJob⟩
  | succeeded row found status _ letters =>
      exact iff_of_false (other found (by simp [status])) (fun pushed => pushed.1 letters)
  | dead row found status free letters =>
      obtain ⟨entry, only, _⟩ := letters
      exact iff_of_true ⟨row, found, status⟩ ⟨by simp [only], free⟩

theorem Life.succeeded_of_finished {row : JobsRow Stamp} (life : Life config state id)
    (found : state.jobs.find? id.toText = some row) (notPending : row.status ≠ .pending)
    (notRunning : row.status ≠ .running) (notDead : row.status ≠ .dead) :
    row.status = .succeeded ∧ entriesFor state id = [] := by
  cases life with
  | absent missing _ _ =>
      rw [missing] at found
      cases found
  | waiting other otherFound pending _ _ _ =>
      obtain rfl : row = other := Option.some.inj (found.symm.trans otherFound)
      exact absurd pending notPending
  | working slot delivery work =>
      exact absurd ⟨row, found, rfl⟩ (work.not_finished notRunning)
  | succeeded other otherFound status _ letters =>
      obtain rfl : row = other := Option.some.inj (found.symm.trans otherFound)
      exact ⟨status, letters⟩
  | dead other otherFound status _ _ =>
      obtain rfl : row = other := Option.some.inj (found.symm.trans otherFound)
      exact absurd status notDead

/-- The slot of a job with an entry is about to send `fail`. -/
theorem Life.failing_of_pushed {slot : Nat} (life : Life config state id)
    (entries : entriesFor state id ≠ []) (handles : (state.slots slot).handles id) :
    ∃ delivery error, state.slots slot = .failing delivery error ∧ delivery.job.id = id := by
  obtain ⟨delivery, holds, rfl⟩ := handles
  have letters := (life.working_of_holds holds).letters
  cases value : state.slots slot with
  | failing another error =>
      rw [value] at holds
      cases holds
      exact ⟨delivery, error, rfl, rfl⟩
  | down | idle _ | handling _ | completing _ _ | burying _ _ =>
      simp only [value, Slot.pushed, Bool.false_eq_true, if_false] at letters
      exact absurd letters entries

end Life

section Turn

variable [LinearOrder Stamp]

/-- What a step without failures can do, to the rows, the slots and the dead letters. -/
inductive Turn (config : Config Stamp) (state next : State Stamp) : Prop where
  | idles (rows : ∀ id, next.jobs.find? id = state.jobs.find? id)
      (slots : ∀ slot, next.slots slot = state.slots slot ∨
        ((state.slots slot).delivery? = none ∧ (next.slots slot).delivery? = none))
      (letters : next.dlq = state.dlq)
  | enqueues (job : Job) (unattempted : job.attempts = 0)
      (result : next = { state with jobs := enqueue config.backend state.jobs job })
  | claims (slot : Nat) (worker : String) (row : JobsRow Stamp) (job : Job)
      (idle : (state.slots slot).delivery? = none)
      (chosen : claimedRow config.backend state.jobs state.now = some row)
      (decoded : jobOfRow config.backend config.serde
        (claim (config.backend.expiry state.now config.leaseSecs) worker row) = .ok job)
      (result : next = { state with
        jobs := claimNext config.backend config.leaseSecs worker state.jobs state.now }.setSlot slot
          (.handling ⟨claim (config.backend.expiry state.now config.leaseSecs) worker row, job⟩))
  | finishes (slot : Nat) (delivery : Delivery Stamp) (value : Slot Stamp)
      (handling : state.slots slot = .handling delivery)
      (keeps : value.delivery? = some delivery) (unpushed : value.pushed config = false)
      (burying : ∀ error, value = .burying delivery error → exhausted config delivery.job = true)
      (result : next = state.setSlot slot value)
  | completes (slot : Nat) (delivery : Delivery Stamp) (outcome : JobResult)
      (completing : state.slots slot = .completing delivery outcome)
      (result : next = { state with
        jobs := complete config.serde state.jobs delivery.job.id outcome }.setSlot slot
          (.idle state.now))
  | buries (slot : Nat) (delivery : Delivery Stamp) (error : String)
      (burying : state.slots slot = .burying delivery error)
      (result : next = { state with
        dlq := state.dlq ++ [delivery.letter error state.now] }.setSlot slot
          (.failing delivery error))
  | fails (slot : Nat) (delivery : Delivery Stamp) (error : String)
      (failing : state.slots slot = .failing delivery error)
      (result : next = { state with jobs := fail state.jobs delivery.job.id error }.setSlot slot
        (.idle (wakeAfterFailure config delivery.job state.now)))

variable {config : Config Stamp} {state next : State Stamp} {action : Action Stamp}

theorem Turn.of_setSlot_idle {slot : Nat} {value : Slot Stamp}
    (before : (state.slots slot).delivery? = none) (after : value.delivery? = none) :
    Turn config state (state.setSlot slot value) := by
  refine .idles (fun _ => rfl) (fun other => ?_) rfl
  by_cases same : other = slot
  · subst same
    refine Or.inr ⟨before, ?_⟩
    simpa [State.setSlot] using after
  · left
    simp [State.setSlot, same]

theorem Turn.of_dequeue {slot : Nat} {worker : String}
    (idle : (state.slots slot).delivery? = none)
    (succeeded : succeeds config state (.dequeue slot worker) = true) :
    Turn config state ({ state with
      jobs := (dequeue config.backend config.serde config.leaseSecs worker
        state.jobs state.now).1 }.setSlot slot (received config state.now
          (returnedRow config.backend config.leaseSecs worker state.jobs state.now))) := by
  cases chosen : claimedRow config.backend state.jobs state.now with
  | none =>
      simp only [dequeue, claimNext, chosen]
      refine .of_setSlot_idle idle ?_
      cases answer : (received config state.now (returnedRow config.backend config.leaseSecs worker
          state.jobs state.now)).delivery? with
      | none => rfl
      | some delivery =>
          obtain ⟨row, claimed, _⟩ := returnedRow_eq_some_iff.mp (row_of_received answer)
          rw [chosen] at claimed
          cases claimed
  | some row =>
      have returned := returnedRow_of_claimedRow config.leaseSecs worker chosen
      simp only [succeeds, dequeue, returned] at succeeded
      cases decoded : jobOfRow config.backend config.serde
          (claim (config.backend.expiry state.now config.leaseSecs) worker row) with
      | error _ =>
          rw [decoded] at succeeded
          cases succeeded
      | ok job =>
          refine .claims slot worker row job idle chosen decoded ?_
          simp only [dequeue, returned, received, decoded]

theorem step_turn (succeeded : succeeds config state action = true)
    (stepped : step config state action = some next) : Turn config state next := by
  cases action with
  | enqueue job =>
      cases stepped
      exact .enqueues job (by simpa [succeeds] using succeeded) rfl
  | start slot =>
      simp only [step] at stepped
      split at stepped
      next down =>
        cases stepped
        exact .of_setSlot_idle (by rw [down]; rfl) rfl
      next => cases stepped
  | stop slot =>
      simp only [step] at stepped
      split at stepped
      next idle =>
        cases stepped
        exact .of_setSlot_idle (by rw [idle]; rfl) rfl
      next => cases stepped
  | crash slot =>
      cases stepped
      exact .of_setSlot_idle (by simpa [succeeds] using succeeded) rfl
  | dequeue slot worker =>
      simp only [step] at stepped
      split at stepped
      next idle =>
        split at stepped
        next =>
          cases stepped
          exact .of_dequeue (by rw [idle]; rfl) succeeded
        next => cases stepped
      next => cases stepped
  | finish slot outcome =>
      simp only [step] at stepped
      split at stepped
      next delivery result handling =>
        cases stepped
        exact .finishes slot delivery _ handling rfl rfl (fun _ burying => by cases burying) rfl
      next delivery error handling =>
        split at stepped
        next gaveUp =>
          cases stepped
          exact .finishes slot delivery _ handling rfl rfl (fun _ _ => gaveUp) rfl
        next retries =>
          cases stepped
          refine .finishes slot delivery _ handling rfl ?_ (fun _ burying => by cases burying) rfl
          simpa [Slot.pushed] using retries
      next => cases stepped
  | complete slot =>
      simp only [step] at stepped
      split at stepped
      next delivery outcome completing =>
        cases stepped
        exact .completes slot delivery outcome completing rfl
      next => cases stepped
  | pushDlq slot accepted =>
      obtain rfl : accepted = true := succeeded
      simp only [step] at stepped
      split at stepped
      next delivery error burying =>
        cases stepped
        exact .buries slot delivery error burying rfl
      next => cases stepped
  | fail slot =>
      simp only [step] at stepped
      split at stepped
      next delivery error failing =>
        cases stepped
        exact .fails slot delivery error failing rfl
      next => cases stepped
  | queueError slot => cases succeeded
  | advance nanoseconds =>
      cases stepped
      exact .idles (fun _ => rfl) (fun _ => Or.inl rfl) rfl
  | reorder permute =>
      cases stepped
      exact .idles (fun _ => by simp) (fun _ => Or.inl rfl) rfl

end Turn

/-- The two comparisons agree as long as the count is one that `dequeue` can return. -/
theorem exhausted_production_iff {backend : Backend Stamp} {serde : Serde} {job : Job}
    {attempts : Int} (bounds : 0 ≤ attempts ∧ attempts ≤ maxAttempts)
    (sameAttempts : job.attempts = .ofInt attempts) :
    exhausted (production backend serde) job = true ↔ (maxAttempts : Int) ≤ attempts := by
  obtain ⟨lower, upper⟩ := bounds
  simp only [maxAttempts] at upper
  simp only [exhausted, production, sameAttempts, decide_eq_true_eq]
  interval_cases attempts <;> decide

section Lives

variable {backend : Backend Stamp} {serde : Serde} {state next : State Stamp}
variable {action : Action Stamp}

/-- Every row belongs to a job, and every job is at a stage of its life. -/
structure Lives (config : Config Stamp) (state : State Stamp) : Prop where
  named : ∀ key row, state.jobs.find? key = some row → ∃ id : Uuid, key = id.toText
  life : ∀ id, Life config state id

theorem Lives.enqueue {config : Config Stamp} {job : Job} (lives : Lives config state)
    (unattempted : job.attempts = 0) :
    Lives config { state with jobs := JobQueue.enqueue config.backend state.jobs job } := by
  refine ⟨?_, ?_⟩
  · intro key row found
    simp only [find?_enqueue] at found
    cases before : state.jobs.find? key with
    | some old => exact lives.named key old before
    | none =>
        rw [before, Option.none_or] at found
        split at found
        next same => exact ⟨job.id, same.symm⟩
        next => cases found
  · intro id
    cases before : state.jobs.find? id.toText with
    | some old =>
        refine (lives.life id).frame ?_ (fun _ => Or.inl rfl) rfl
        simp only [find?_enqueue, before, Option.some_or]
    | none =>
        by_cases same : job.id = id
        · have found : (JobQueue.enqueue config.backend state.jobs job).find? id.toText =
              some (rowOfJob config.backend job) := by
            rw [find?_enqueue, before, Option.none_or, if_pos (congrArg _ same)]
          have attempts : (rowOfJob config.backend job).attempts = 0 := by
            simp only [rowOfJob, unattempted]
            rfl
          cases lives.life id with
          | absent _ free letters =>
              exact .waiting _ found rfl (by rw [attempts]; decide) free letters
          | waiting _ found _ _ _ _ | succeeded _ found _ _ _ | dead _ found _ _ _ =>
              rw [before] at found
              cases found
          | working _ _ work => exact absurd (before.symm.trans work.found) (by simp)
        · refine (lives.life id).frame ?_ (fun _ => Or.inl rfl) rfl
          simp only [find?_enqueue, before, Option.none_or]
          exact if_neg fun equal => same (Uuid.toText_injective equal)

/-- A slot that changes without settling its job and without pushing an entry. -/
theorem Lives.finish {config : Config Stamp} {slot : Nat} {delivery : Delivery Stamp}
    {value : Slot Stamp} (lives : Lives config state)
    (handling : state.slots slot = .handling delivery)
    (keeps : value.delivery? = some delivery) (unpushed : value.pushed config = false)
    (burying : ∀ error, value = .burying delivery error → exhausted config delivery.job = true) :
    Lives config (state.setSlot slot value) := by
  have holds : Holds state slot delivery := by
    rw [Holds, handling]
    rfl
  refine ⟨lives.named, fun id => ?_⟩
  by_cases same : id = delivery.job.id
  · subst same
    have work := (lives.life delivery.job.id).working_of_holds holds
    refine .working slot delivery { work with holds := ?_, alone := ?_, burying := ?_,
                                              letters := ?_ }
    · simpa [Holds, State.setSlot] using keeps
    · intro other handles
      by_contra different
      simp only [State.setSlot, Function.update_of_ne different] at handles
      exact different (work.alone other handles)
    · simpa [State.setSlot] using burying
    · have letters := work.letters
      simp only [handling, Slot.pushed, Bool.false_eq_true, if_false] at letters
      simpa [State.setSlot, unpushed, entriesFor] using letters
  · have different : delivery.job.id ≠ id := fun equal => same equal.symm
    exact (lives.life id).frame rfl
      (slots_of_setSlot (not_handles_of_ne holds different) (not_handles_of_ne keeps different)) rfl

/-- Settling a job: its slot lets go of it, and the row gets its new status. -/
theorem Lives.settle {config : Config Stamp} {slot : Nat} {delivery : Delivery Stamp}
    {value : Slot Stamp} {jobs : JobsTable Stamp} {assign : JobsRow Stamp → JobsRow Stamp}
    (lives : Lives config state) (holds : Holds state slot delivery)
    (idle : value.delivery? = none)
    (rows : ∀ key, jobs.find? key = (state.jobs.find? key).map fun row =>
      if row.id = delivery.job.id.toText then assign row else row)
    (settled : (∀ other, ¬ (({ state with jobs }.setSlot slot value).slots other).handles
        delivery.job.id) →
      jobs.find? delivery.job.id.toText = some (assign delivery.row) →
      Life config ({ state with jobs }.setSlot slot value) delivery.job.id) :
    Lives config ({ state with jobs }.setSlot slot value) := by
  have work := (lives.life delivery.job.id).working_of_holds holds
  have rowId : delivery.row.id = delivery.job.id.toText :=
    (Table.find?_eq_some_iff.mp work.found).2
  refine ⟨?_, ?_⟩
  · intro key row found
    change jobs.find? key = some row at found
    rw [rows, Option.map_eq_some_iff] at found
    obtain ⟨old, before, _⟩ := found
    exact lives.named key old before
  · intro id
    by_cases same : id = delivery.job.id
    · subst same
      apply settled (work.free_of_setSlot idle)
      rw [rows, work.found, Option.map_some, if_pos rowId]
    · have different : delivery.job.id ≠ id := fun equal => same equal.symm
      refine (lives.life id).frame ?_
        (slots_of_setSlot (not_handles_of_ne holds different) (not_handles_of_none idle)) rfl
      change jobs.find? id.toText = _
      rw [rows]
      cases found : state.jobs.find? id.toText with
      | none => rfl
      | some row =>
          have otherId : row.id = id.toText := (Table.find?_eq_some_iff.mp found).2
          rw [Option.map_some, if_neg]
          exact fun equal => same (Uuid.toText_injective (otherId.symm.trans equal))

theorem Lives.bury {slot : Nat} {delivery : Delivery Stamp} {error : String}
    (lives : Lives (production backend serde) state)
    (burying : state.slots slot = .burying delivery error) :
    Lives (production backend serde) ({ state with
      dlq := state.dlq ++ [delivery.letter error state.now] }.setSlot slot
        (.failing delivery error)) := by
  have holds : Holds state slot delivery := by
    rw [Holds, burying]
    rfl
  refine ⟨lives.named, fun id => ?_⟩
  by_cases same : id = delivery.job.id
  · subst same
    have work := (lives.life delivery.job.id).working_of_holds holds
    have gaveUp := work.burying error burying
    have last : delivery.row.attempts = maxAttempts :=
      le_antisymm work.attempts.2
        ((exhausted_production_iff work.attempts work.sameAttempts).mp gaveUp)
    have letters := work.letters
    simp only [burying, Slot.pushed, Bool.false_eq_true, if_false] at letters
    refine .working slot delivery { work with holds := ?_, alone := ?_, burying := ?_,
                                              letters := ?_ }
    · simp [Holds, State.setSlot, Slot.delivery?]
    · intro other handles
      by_contra different
      simp only [State.setSlot, Function.update_of_ne different] at handles
      exact different (work.alone other handles)
    · simp [State.setSlot]
    · simp only [State.setSlot, Function.update_self, Slot.pushed, gaveUp, if_true]
      refine ⟨delivery.letter error state.now, ?_, ?_⟩
      · unfold entriesFor at letters ⊢
        rw [List.filter_append, letters]
        simp [Delivery.letter]
      · simp only [Delivery.letter, work.sameAttempts, last]
        rfl
  · have different : delivery.job.id ≠ id := fun equal => same equal.symm
    refine (lives.life id).frame rfl
      (slots_of_setSlot (not_handles_of_ne holds different) (not_handles_of_ne rfl different)) ?_
    unfold entriesFor
    simp [State.setSlot, Delivery.letter, different]

theorem Lives.complete {config : Config Stamp} {slot : Nat} {delivery : Delivery Stamp}
    {outcome : JobResult} (lives : Lives config state)
    (completing : state.slots slot = .completing delivery outcome) :
    Lives config ({ state with
      jobs := JobQueue.complete config.serde state.jobs delivery.job.id outcome }.setSlot slot
        (.idle state.now)) := by
  have holds : Holds state slot delivery := by
    rw [Holds, completing]
    rfl
  refine lives.settle holds rfl (fun _ => find?_complete) ?_
  intro free found
  have letters := ((lives.life delivery.job.id).working_of_holds holds).letters
  simp only [completing, Slot.pushed, Bool.false_eq_true, if_false] at letters
  exact .succeeded _ found rfl free letters

theorem Lives.fail {slot : Nat} {delivery : Delivery Stamp} {error : String}
    (lives : Lives (production backend serde) state)
    (failing : state.slots slot = .failing delivery error) :
    Lives (production backend serde) ({ state with
      jobs := JobQueue.fail state.jobs delivery.job.id error }.setSlot slot
        (.idle (wakeAfterFailure (production backend serde) delivery.job state.now))) := by
  have holds : Holds state slot delivery := by
    rw [Holds, failing]
    rfl
  refine lives.settle holds rfl (fun _ => find?_fail) ?_
  intro free found
  have work := (lives.life delivery.job.id).working_of_holds holds
  have agree : exhausted (production backend serde) delivery.job = true ↔ _ :=
    exhausted_production_iff work.attempts work.sameAttempts
  have letters := work.letters
  simp only [failing, Slot.pushed] at letters
  by_cases last : (maxAttempts : Int) ≤ delivery.row.attempts
  · rw [if_pos (agree.mpr last)] at letters
    exact .dead _ found (if_pos last) free letters
  · rw [if_neg fun gaveUp => last (agree.mp gaveUp)] at letters
    exact .waiting _ found (if_neg last) ⟨work.attempts.1, lt_of_not_ge last⟩ free letters

/-- Before the run: rows as `enqueue` wrote them, no entries, no attempt under way. -/
structure Unstarted (backend : Backend Stamp) (start : State Stamp) : Prop where
  rows : ∀ key row, start.jobs.find? key = some row →
    ∃ job : Job, job.attempts = 0 ∧ row = rowOfJob backend job
  letters : start.dlq = []
  free : ∀ slot, (start.slots slot).delivery? = none

theorem Unstarted.lives {config : Config Stamp} {start : State Stamp}
    (unstarted : Unstarted backend start) : Lives config start := by
  have letters : ∀ id, entriesFor start id = [] := by
    intro id
    simp [entriesFor, unstarted.letters]
  have free : ∀ id slot, ¬ (start.slots slot).handles id :=
    fun _ slot => not_handles_of_none (unstarted.free slot)
  refine ⟨?_, ?_⟩
  · intro key row found
    obtain ⟨job, _, rfl⟩ := unstarted.rows key row found
    exact ⟨job.id, (Table.find?_eq_some_iff.mp found).2.symm⟩
  · intro id
    cases found : start.jobs.find? id.toText with
    | none => exact .absent found (free id) (letters id)
    | some row =>
        obtain ⟨job, unattempted, rfl⟩ := unstarted.rows _ _ found
        refine .waiting _ found rfl ?_ (free id) (letters id)
        simp only [rowOfJob, unattempted]
        decide

variable [LinearOrder Stamp]

/-- An unexpired attempt keeps its row from `dequeue`. -/
theorem Lives.waiting_of_nextJob {config : Config Stamp} {row : JobsRow Stamp}
    (lives : Lives config state) (withinLease : WithinLease config state)
    (chosen : nextJob state.jobs (config.backend.now state.now) = some row) :
    ∃ id : Uuid, row.id = id.toText ∧ state.jobs.find? id.toText = some row ∧
      row.status = .pending ∧ (0 ≤ row.attempts ∧ row.attempts < maxAttempts) ∧
      (∀ slot, ¬ (state.slots slot).handles id) ∧ entriesFor state id = [] := by
  obtain ⟨member, claimable, _⟩ := of_nextJob_eq_some chosen
  have rowFound : state.jobs.find? row.id = some row :=
    Table.find?_eq_some_iff.mpr ⟨member, rfl⟩
  obtain ⟨id, rowId⟩ := lives.named _ _ rowFound
  rw [rowId] at rowFound
  rw [claimable_eq_true_iff] at claimable
  refine ⟨id, rowId, rowFound, ?_⟩
  cases lives.life id with
  | absent missing _ _ =>
      rw [rowFound] at missing
      cases missing
  | waiting other found pending attempts free letters =>
      obtain rfl : row = other := Option.some.inj (rowFound.symm.trans found)
      exact ⟨pending, attempts, free, letters⟩
  | working slot delivery work =>
      obtain rfl : row = delivery.row := Option.some.inj (rowFound.symm.trans work.found)
      obtain ⟨expiry, leased⟩ := work.leased
      rcases claimable with pending | ⟨_, expired⟩
      · rw [work.running] at pending
        cases pending
      · have unexpired := withinLease slot
        have holds : (state.slots slot).delivery? = some delivery := work.holds
        simp only [Slot.leased, holds, leased, Option.all_some, Bool.not_eq_true',
          decide_eq_false_iff_not] at unexpired
        exact absurd (expired expiry leased) unexpired
  | succeeded other found status _ _ =>
      obtain rfl : row = other := Option.some.inj (rowFound.symm.trans found)
      simp [status] at claimable
  | dead other found status _ _ =>
      obtain rfl : row = other := Option.some.inj (rowFound.symm.trans found)
      simp [status] at claimable

theorem Lives.claim {config : Config Stamp} {slot : Nat} {worker : String} {row : JobsRow Stamp}
    {job : Job} (lives : Lives config state) (withinLease : WithinLease config state)
    (idle : (state.slots slot).delivery? = none)
    (chosen : claimedRow config.backend state.jobs state.now = some row)
    (decoded : jobOfRow config.backend config.serde
      (claim (config.backend.expiry state.now config.leaseSecs) worker row) = .ok job) :
    Lives config ({ state with
      jobs := claimNext config.backend config.leaseSecs worker state.jobs state.now }.setSlot slot
        (.handling ⟨claim (config.backend.expiry state.now config.leaseSecs) worker row,
          job⟩)) := by
  obtain ⟨claimed, rowId, rowFound, _, attempts, free, letters⟩ :=
    lives.waiting_of_nextJob withinLease (claimedRow_eq_some_iff.mp chosen).1
  obtain ⟨parsed, _, sameAttempts⟩ := decodes_of_jobOfRow decoded
  have jobId : job.id = claimed := by
    rw [claim_id, rowId, Uuid.parseStr_toText, Option.some.injEq] at parsed
    exact parsed.symm
  have lookup : ∀ key, (claimNext config.backend config.leaseSecs worker state.jobs
      state.now).find? key =
        if row.id = key then
          some (JobQueue.claim (config.backend.expiry state.now config.leaseSecs) worker row)
        else state.jobs.find? key := by
    intro key
    rw [find?_claimNext, chosen]
  refine ⟨?_, ?_⟩
  · intro key found present
    simp only [State.setSlot, lookup] at present
    split at present
    next same => exact ⟨claimed, same.symm.trans rowId⟩
    next => exact lives.named key found present
  · intro id
    by_cases same : id = claimed
    · subst same
      refine .working slot ⟨JobQueue.claim _ worker row, job⟩
        ⟨(lookup _).trans (if_pos rowId), rfl, ⟨_, rfl⟩, ?_, jobId, sameAttempts, ?_, ?_, ?_, ?_⟩
      · simp only [JobQueue.claim]
        omega
      · simp [Holds, State.setSlot, Slot.delivery?]
      · intro other handles
        by_contra different
        simp only [State.setSlot, Function.update_of_ne different] at handles
        exact free other handles
      · simp [State.setSlot]
      · simpa [State.setSlot, Slot.pushed, entriesFor] using letters
    · refine (lives.life id).frame ?_ (slots_of_setSlot (not_handles_of_none idle) ?_) rfl
      · exact (lookup _).trans
          (if_neg fun equal => same (Uuid.toText_injective (equal.symm.trans rowId)))
      · exact not_handles_of_ne rfl fun equal => same (equal.symm.trans jobId)

theorem lives_step
    (condition : Orderly (production backend serde) state action)
    (lives : Lives (production backend serde) state)
    (stepped : step (production backend serde) state action = some next) :
    Lives (production backend serde) next := by
  cases step_turn condition.2 stepped with
  | idles rows slots letters =>
      refine ⟨fun key row found => lives.named key row ((rows key).symm.trans found), ?_⟩
      intro id
      refine (lives.life id).frame (rows _) ?_ (by rw [entriesFor, letters]; rfl)
      intro slot
      rcases slots slot with same | ⟨before, after⟩
      · exact Or.inl same
      · exact Or.inr ⟨not_handles_of_none before, not_handles_of_none after⟩
  | enqueues job unattempted result => exact result ▸ lives.enqueue unattempted
  | claims slot worker row job idle chosen decoded result =>
      exact result ▸ lives.claim condition.1 idle chosen decoded
  | finishes slot delivery value handling keeps unpushed burying result =>
      exact result ▸ lives.finish handling keeps unpushed burying
  | completes slot delivery outcome completing result => exact result ▸ lives.complete completing
  | buries slot delivery error burying result => exact result ▸ lives.bury burying
  | fails slot delivery error failing result => exact result ▸ lives.fail failing

/-- In every run without failures whose attempts end within their leases, a job is dead
exactly when an entry was pushed for it and its last attempt is settled; there is never a
second entry, the entry counts `MAX_ATTEMPTS` attempts, every other finished job has
succeeded without an entry, and a slot that still has a job with an entry in hand is about
to make it dead. -/
theorem dead_letters_agree (backend : Backend Stamp) (serde : Serde) (start last : State Stamp)
    (actions : List (Action Stamp)) (unstarted : Unstarted backend start)
    (orderly : Meets (step (production backend serde)) (Orderly (production backend serde))
      start actions)
    (reached : run (step (production backend serde)) start actions = some last) (id : Uuid) :
    (HasStatus id.toText .dead last ↔
      entriesFor last id ≠ [] ∧ ∀ slot, ¬ (last.slots slot).handles id) ∧
    (entriesFor last id).length ≤ 1 ∧
    (∀ entry ∈ entriesFor last id, entry.attempts = .ofNat maxAttempts) ∧
    (∀ row, last.jobs.find? id.toText = some row →
      row.status ≠ .pending → row.status ≠ .running → row.status ≠ .dead →
        row.status = .succeeded ∧ entriesFor last id = []) ∧
    (∀ slot, entriesFor last id ≠ [] → (last.slots slot).handles id →
      ∃ next, step (production backend serde) last (.fail slot) = some next ∧
        HasStatus id.toText .dead next) := by
  have lives : Lives (production backend serde) last :=
    run_invariant_of_meets (Lives (production backend serde))
      (fun _ _ _ condition lives stepped => lives_step condition lives stepped) orderly
      unstarted.lives reached
  have life := lives.life id
  refine ⟨life.dead_iff, ?_, ?_, fun _ => life.succeeded_of_finished, ?_⟩
  · rcases life.lettered_or_empty with ⟨entry, only, _⟩ | none
    · simp [only]
    · simp [none]
  · intro entry member
    rcases life.lettered_or_empty with ⟨pushed, only, attempts⟩ | none
    · rw [only, List.mem_singleton] at member
      rw [member, attempts]
    · rw [none] at member
      cases member
  · intro slot entries handles
    obtain ⟨delivery, error, failing, sameJob⟩ := life.failing_of_pushed entries handles
    have after := (lives.fail failing).life id
    refine ⟨_, by simp only [step, failing]; rfl, ?_⟩
    have work := (lives.life delivery.job.id).working_of_holds
      (by rw [Holds, failing]; rfl : Holds last slot delivery)
    refine after.dead_iff.mpr ⟨entries, ?_⟩
    rw [← sameJob]
    exact work.free_of_setSlot rfl

end Lives

section Sample

variable [LinearOrder Stamp] {config : Config Stamp} {state next : State Stamp}
  {action : Action Stamp}

/-- The slot a step is about. -/
def Action.slot? : Action Stamp → Option Nat
  | .enqueue _ | .advance _ | .reorder _ => none
  | .start slot | .stop slot | .crash slot | .dequeue slot _ | .finish slot _ | .complete slot
  | .pushDlq slot _ | .fail slot | .queueError slot => some slot

theorem slots_of_step (stepped : step config state action = some next) {other : Nat}
    (elsewhere : other ∉ action.slot?) : next.slots other = state.slots other := by
  have kept : ∀ slot, action.slot? = some slot → ∀ value,
      Function.update state.slots slot value other = state.slots other := by
    intro slot about value
    apply Function.update_of_ne
    rintro rfl
    exact elsewhere about
  cases action with
  | enqueue | advance | reorder =>
      cases stepped
      rfl
  | crash slot =>
      cases stepped
      exact kept slot rfl _
  | start slot | stop slot | complete slot | pushDlq slot | fail slot =>
      simp only [step] at stepped
      split at stepped
      next =>
        cases stepped
        exact kept slot rfl _
      next => cases stepped
  | dequeue slot =>
      simp only [step] at stepped
      split at stepped
      next =>
        split at stepped
        next =>
          cases stepped
          exact kept slot rfl _
        next => cases stepped
      next => cases stepped
  | finish slot =>
      simp only [step] at stepped
      split at stepped
      next =>
        cases stepped
        exact kept slot rfl _
      next =>
        split at stepped
        next =>
          cases stepped
          exact kept slot rfl _
        next =>
          cases stepped
          exact kept slot rfl _
      next => cases stepped
  | queueError slot =>
      simp only [step] at stepped
      split at stepped
      next =>
        split at stepped
        next =>
          cases stepped
          exact kept slot rfl _
        next => cases stepped
      next =>
        cases stepped
        exact kept slot rfl _
      next =>
        cases stepped
        exact kept slot rfl _
      next => cases stepped

/-- With one slot at work the lease is that slot's. -/
theorem orderly_of_solitary {actions : List (Action Stamp)}
    (down : ∀ slot, slot ≠ 0 → state.slots slot = .down)
    (checked : Meets (step config) (fun state action =>
      ((state.slots 0).leased (config.backend.now state.now) = true ∧
        succeeds config state action = true) ∧ ∀ slot ∈ action.slot?, slot = 0) state actions) :
    Meets (step config) (Orderly config) state actions := by
  refine checked.of_invariant (fun state => ∀ slot, slot ≠ 0 → state.slots slot = .down) ?_ ?_ down
  · intro state action next condition down stepped slot other
    rw [slots_of_step stepped fun about => other (condition.2 slot about)]
    exact down slot other
  · intro state action condition down
    refine ⟨?_, condition.1.2⟩
    intro slot
    by_cases first : slot = 0
    · rw [first]
      exact condition.1.1
    · rw [down slot first]
      rfl

/-- An attempt that fails, and the wait after it. -/
def failedAttempt : List (Action Int) :=
  [.dequeue 0 "a", .finish 0 (.error "unreadable"), .fail 0, .advance 1000000000]

/-- The last attempt allowed fails like the four before it. -/
def fiveFailures : List (Action Int) :=
  .start 0 :: failedAttempt ++ failedAttempt ++ failedAttempt ++ failedAttempt ++
    [.dequeue 0 "a", .finish 0 (.error "unreadable"), .pushDlq 0 true, .fail 0]

theorem exhausted_thumbnail_has_letter :
    ∃ last, run (step (production .postgres sampleConfig.serde)) onePending fiveFailures =
        some last ∧
      HasStatus thumbnailJob.id.toText .dead last ∧
      (entriesFor last thumbnailJob.id).length = 1 ∧
      ∀ entry ∈ entriesFor last thumbnailJob.id, entry.attempts = .ofNat maxAttempts := by
  have unstarted : Unstarted .postgres onePending := by
    refine ⟨?_, rfl, fun _ => rfl⟩
    intro key row found
    have member : row ∈ onePending.jobs := (Table.find?_eq_some_iff.mp found).1
    exact ⟨thumbnailJob, rfl, List.mem_singleton.mp member⟩
  have orderly : Meets (step (production .postgres sampleConfig.serde))
      (Orderly (production .postgres sampleConfig.serde)) onePending fiveFailures :=
    orderly_of_solitary (fun _ _ => rfl) (by decide +kernel)
  have computed : (run (step (production .postgres sampleConfig.serde)) onePending
      fiveFailures).any (fun last =>
        (last.jobs.find? thumbnailJob.id.toText).any (·.status = .dead)) = true := by
    decide +kernel
  obtain ⟨last, reached, present⟩ := (Option.any_eq_true _ _).mp computed
  obtain ⟨row, found, buried⟩ := (Option.any_eq_true _ _).mp present
  have dead : HasStatus thumbnailJob.id.toText .dead last := ⟨row, found, of_decide_eq_true buried⟩
  obtain ⟨lettered, single, attempts, _⟩ := dead_letters_agree .postgres sampleConfig.serde
    onePending last fiveFailures unstarted orderly reached thumbnailJob.id
  have pushed := List.length_pos_of_ne_nil (lettered.mp dead).1
  exact ⟨last, reached, dead, by omega, attempts⟩

end Sample

end Picroom.WorkerPool
