import Picroom.Worker.Pool

/-!
# How often a job is delivered

The limit on deliveries stands in `fail` alone.  A delivery that ends without `fail`, by a
crash or by a row that does not decode, leaves the row running, and once its lease is over
`dequeue` claims it again, whatever its `attempts`.  The limit holds in the runs where no
`dequeue` comes upon such a row that has used up its deliveries (`sparesExhausted`).
-/

namespace Picroom.WorkerPool

open Transition Relational JobQueue

variable {Stamp : Type}

def enqueuesUnattempted (id : String) : Action Stamp → Prop
  | .enqueue job => job.id.toText = id → job.attempts = 0
  | _ => True

/-- A row within the limit; it is pending only while a delivery is left. -/
def WithinLimit (row : JobsRow Stamp) : Prop :=
  0 ≤ row.attempts ∧ row.attempts ≤ maxAttempts ∧
    (row.status = .pending → row.attempts < maxAttempts)

/-- The row with this id, if it is there, is within the limit. -/
def Counted (id : String) (state : State Stamp) : Prop :=
  ∀ row, state.jobs.find? id = some row → WithinLimit row

def attemptsOf (id : String) (state : State Stamp) : Nat :=
  (state.jobs.find? id).elim 0 fun row => row.attempts.toNat

variable {config : Config Stamp} {id : String} {state next : State Stamp} {action : Action Stamp}

theorem attemptsOf_eq {row : JobsRow Stamp} (found : state.jobs.find? id = some row) :
    attemptsOf id state = row.attempts.toNat := by
  simp [attemptsOf, found]

theorem Counted.attemptsOf_le (counted : Counted id state) :
    attemptsOf id state ≤ maxAttempts := by
  cases found : state.jobs.find? id with
  | none => simp [attemptsOf, found]
  | some row =>
      obtain ⟨_, upper, _⟩ := counted row found
      rw [attemptsOf_eq found]
      omega

theorem Counted.congr (counted : Counted id state)
    (rows : next.jobs.find? id = state.jobs.find? id) :
    Counted id next ∧ attemptsOf id next = attemptsOf id state := by
  refine ⟨fun row found => counted row (rows.symm.trans found), ?_⟩
  unfold attemptsOf
  rw [rows]

/-- Settling a row counts nothing, and gives it back only while a delivery is left. -/
theorem Counted.settle {job : Uuid} {assign : JobsRow Stamp → JobsRow Stamp}
    (counted : Counted id state) (keeps : ∀ row, (assign row).attempts = row.attempts)
    (pending : ∀ row, (assign row).status = .pending → row.attempts < maxAttempts)
    (rows : next.jobs.find? id = (state.jobs.find? id).map fun row =>
      if row.id = job.toText then assign row else row) :
    Counted id next ∧ attemptsOf id next = attemptsOf id state := by
  cases found : state.jobs.find? id with
  | none => exact counted.congr (by rw [rows, found, Option.map_none])
  | some old =>
      rw [found, Option.map_some] at rows
      by_cases addressed : old.id = job.toText
      · rw [if_pos addressed] at rows
        obtain ⟨lower, upper, _⟩ := counted old found
        refine ⟨?_, by rw [attemptsOf_eq rows, attemptsOf_eq found, keeps]⟩
        intro row present
        rw [rows, Option.some.injEq] at present
        rw [← present]
        unfold WithinLimit
        rw [keeps]
        exact ⟨lower, upper, pending old⟩
      · rw [if_neg addressed] at rows
        exact counted.congr (rows.trans found.symm)

theorem Counted.enqueue {backend : Backend Stamp} {job : Job} (counted : Counted id state)
    (unattempted : job.id.toText = id → job.attempts = 0)
    (rows : next.jobs = JobQueue.enqueue backend state.jobs job) :
    Counted id next ∧ attemptsOf id next = attemptsOf id state := by
  cases found : state.jobs.find? id with
  | some old => exact counted.congr (by rw [rows, find?_enqueue, found, Option.some_or])
  | none =>
      by_cases same : job.id.toText = id
      · have inserted : next.jobs.find? id = some (rowOfJob backend job) := by
          rw [rows, find?_enqueue, found, Option.none_or, if_pos same]
        have attempts : (rowOfJob backend job).attempts = 0 := by
          simp only [rowOfJob, unattempted same]
          rfl
        refine ⟨?_, ?_⟩
        · intro row present
          rw [inserted, Option.some.injEq] at present
          rw [← present]
          unfold WithinLimit
          rw [attempts]
          exact ⟨by decide, by decide, fun _ => by decide⟩
        · rw [attemptsOf_eq inserted, attempts]
          simp [attemptsOf, found]
      · exact counted.congr (by rw [rows, find?_enqueue, found, Option.none_or, if_neg same])

section Run

variable [LinearOrder Stamp]

def nextRow (config : Config Stamp) (state : State Stamp) : Option (JobsRow Stamp) :=
  claimedRow config.backend state.jobs state.now

def claimsRow (config : Config Stamp) (id : String) (state : State Stamp) :
    Action Stamp → Bool
  | .dequeue _ _ => (nextRow config state).any (·.id == id)
  | _ => false

/-- How often the row with this id is set to running. -/
def deliveries (config : Config Stamp) (id : String) :
    State Stamp → List (Action Stamp) → Nat :=
  count (step config) (claimsRow config id)

/-- `dequeue` does not come upon the row after its lease ran out on the last delivery. -/
def sparesExhausted (config : Config Stamp) (id : String) (state : State Stamp) :
    Action Stamp → Bool
  | .dequeue _ _ =>
      (nextRow config state).all fun row =>
        row.id != id || row.status != .running || decide (row.attempts < (maxAttempts : Int))
  | _ => true

theorem Counted.claim {slot : Nat} {worker : String} (counted : Counted id state)
    (spared : sparesExhausted config id state (.dequeue slot worker) = true)
    (rows : next.jobs = claimNext config.backend config.leaseSecs worker state.jobs state.now) :
    Counted id next ∧
      (if claimsRow config id state (.dequeue slot worker) then 1 else 0) + attemptsOf id state ≤
        attemptsOf id next := by
  have lookup : next.jobs.find? id = _ := (congrArg (·.find? id) rows).trans find?_claimNext
  cases chosen : claimedRow config.backend state.jobs state.now with
  | none =>
      simp only [chosen] at lookup
      obtain ⟨kept, same⟩ := counted.congr lookup
      refine ⟨kept, ?_⟩
      simp [claimsRow, nextRow, chosen, same]
  | some row =>
      simp only [chosen] at lookup
      obtain ⟨member, free, _⟩ := of_claimedRow_eq_some chosen
      by_cases same : row.id = id
      · rw [if_pos same] at lookup
        have found : state.jobs.find? id = some row :=
          Table.find?_eq_some_iff.mpr ⟨member, same⟩
        obtain ⟨lower, _, left⟩ := counted row found
        have attemptsLeft : row.attempts < maxAttempts := by
          rcases claimable_eq_true_iff.mp free with pending | ⟨running, _⟩
          · exact left pending
          · simpa [sparesExhausted, nextRow, chosen, same, running] using spared
        refine ⟨?_, ?_⟩
        · intro claimed present
          rw [lookup, Option.some.injEq] at present
          rw [← present]
          unfold WithinLimit
          simp only [JobQueue.claim]
          exact ⟨by omega, by omega, fun pending => by cases pending⟩
        · rw [attemptsOf_eq lookup, attemptsOf_eq found]
          simp only [claimsRow, nextRow, chosen, Option.any_some, same, beq_self_eq_true, if_true,
            JobQueue.claim]
          omega
      · rw [if_neg same] at lookup
        obtain ⟨kept, equal⟩ := counted.congr lookup
        refine ⟨kept, ?_⟩
        simp [claimsRow, nextRow, chosen, same, equal]

theorem counted_step
    (condition : sparesExhausted config id state action = true ∧ enqueuesUnattempted id action)
    (counted : Counted id state) (stepped : step config state action = some next) :
    Counted id next ∧
      (if claimsRow config id state action then 1 else 0) + attemptsOf id state ≤
        attemptsOf id next := by
  cases step_effect stepped with
  | keeps quiet rows _ =>
      have unclaimed : claimsRow config id state action = false := by
        cases action with
        | dequeue slot worker => exact absurd rfl (quiet slot worker)
        | _ => rfl
      obtain ⟨kept, same⟩ := counted.congr (rows id)
      exact ⟨kept, by simp [unclaimed, same]⟩
  | enqueues job enqueued rows _ =>
      subst enqueued
      obtain ⟨kept, same⟩ := counted.enqueue condition.2 rows
      exact ⟨kept, by simp [claimsRow, same]⟩
  | claims slot worker dequeued rows _ =>
      subst dequeued
      exact counted.claim condition.1 rows
  | completes slot delivery completed _ result rows _ =>
      subst completed
      have settled : Counted id next ∧ attemptsOf id next = attemptsOf id state := by
        refine counted.settle (fun _ => ?_) (fun _ => ?_) (by rw [rows, find?_complete])
        · rfl
        · intro pending
          cases pending
      exact ⟨settled.1, by simp [claimsRow, settled.2]⟩
  | fails slot delivery failed _ error rows _ =>
      subst failed
      have settled : Counted id next ∧ attemptsOf id next = attemptsOf id state := by
        refine counted.settle (fun _ => ?_) (fun row => ?_) (by rw [rows, find?_fail])
        · rfl
        · intro pending
          by_contra used
          simp [Int.not_lt.mp used] at pending
      exact ⟨settled.1, by simp [claimsRow, settled.2]⟩

/-- In a run where no `dequeue` comes upon the job running with its deliveries used up, a
job enqueued without attempts is delivered at most `MAX_ATTEMPTS` times. -/
theorem deliveries_bounded (config : Config Stamp) (id : String) (start : State Stamp)
    (actions : List (Action Stamp))
    (initially : ∀ row, start.jobs.find? id = some row →
      row.status = .pending ∧ row.attempts = 0)
    (unattempted : ∀ action ∈ actions, enqueuesUnattempted id action)
    (meets : Meets (step config)
      (fun state action => sparesExhausted config id state action = true) start actions) :
    deliveries config id start actions ≤ maxAttempts := by
  have counted : Counted id start := by
    intro row found
    obtain ⟨_, attempts⟩ := initially row found
    unfold WithinLimit
    rw [attempts]
    exact ⟨by decide, by decide, fun _ => by decide⟩
  have bound : deliveries config id start actions + attemptsOf id start ≤ maxAttempts :=
    count_add_le_of_meets (Counted id) (attemptsOf id)
      (fun _ _ _ condition counted stepped => counted_step condition counted stepped)
      (fun _ counted => counted.attemptsOf_le) (meets.and unattempted) counted
  omega

end Run

/-- A failed delivery is counted once. -/
theorem thumbnail_delivered_within_limit :
    thumbnailJob.attempts = 0 ∧
      deliveries sampleConfig thumbnailJob.id.toText onePending
        [.start 0, .dequeue 0 "a", .finish 0 (.error "timed out"), .fail 0,
          .advance 2000000000, .dequeue 0 "a"] = 2 ∧
      deliveries sampleConfig thumbnailJob.id.toText onePending
        [.start 0, .dequeue 0 "a", .finish 0 (.error "timed out"), .fail 0,
          .advance 2000000000, .dequeue 0 "a"] ≤ maxAttempts := by
  refine ⟨rfl, by decide, ?_⟩
  refine deliveries_bounded sampleConfig _ onePending _ ?_ ?_ (by decide)
  · rintro row ⟨⟩
    exact ⟨rfl, rfl⟩
  · simp [enqueuesUnattempted]

def crashingWorker : List (Action Int) :=
  .start 0 :: (List.replicate 6
    [.dequeue 0 "a", .crash 0, .start 0, .advance 301000000000]).flatten

/-- Each lease runs out without `fail`, and the job is delivered a sixth time. -/
theorem crashes_exceed_limit :
    (∀ row, onePending.jobs.find? thumbnailJob.id.toText = some row →
      row.status = .pending ∧ row.attempts = 0) ∧
      (run (step sampleConfig) onePending crashingWorker).isSome = true ∧
      maxAttempts <
        deliveries sampleConfig thumbnailJob.id.toText onePending crashingWorker := by
  refine ⟨?_, by decide, by decide⟩
  rintro row ⟨⟩
  exact ⟨rfl, rfl⟩

end Picroom.WorkerPool
