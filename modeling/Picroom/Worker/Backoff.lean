import Picroom.Worker.Pool

/-!
# Backoff of the pool

After a failure that leaves attempts, the slot sleeps for the delay of the policy; the row is
pending again before the sleep starts.  So the delay is kept for the job only while nobody else
is handed that row, and while the slot that sleeps stays up.
-/

namespace Picroom.WorkerPool

open Relational Transition

variable {Stamp : Type} [LinearOrder Stamp]

/-- No lease runs out: a dequeue finds every running row leased. -/
def LeasesLive (config : Config Stamp) (state : State Stamp) : Action Stamp → Prop
  | .dequeue _ _ => ∀ row ∈ state.jobs.rows, row.status = .running →
      ∃ expiry ∈ row.leaseExpiresAt, config.backend.now state.now ≤ expiry
  | _ => True

instance (config : Config Stamp) (state : State Stamp) (action : Action Stamp) :
    Decidable (LeasesLive config state action) :=
  match action with
  | .dequeue _ _ => inferInstanceAs (Decidable (∀ row ∈ state.jobs.rows, row.status = .running →
      ∃ expiry ∈ row.leaseExpiresAt, config.backend.now state.now ≤ expiry))
  | .enqueue _ | .start _ | .stop _ | .crash _ | .finish _ _ | .complete _ | .pushDlq _ _
  | .fail _ | .queueError _ | .advance _ | .reorder _ => isTrue trivial

/-- A failure recorded in a run, and a later claim of the same row. -/
structure Retry (config : Config Stamp) (start : State Stamp) where
  before : List (Action Stamp)
  first : State Stamp
  slot : Nat
  delivery : Delivery Stamp
  error : String
  failed : State Stamp
  between : List (Action Stamp)
  second : State Stamp
  other : Nat
  worker : String
  row : JobsRow Stamp
  reached : run (step config) start before = some first
  failing : first.slots slot = .failing delivery error
  unfinished : exhausted config delivery.job = false
  recorded : step config first (.fail slot) = some failed
  later : run (step config) failed between = some second
  asks : ∃ wakeAt ≤ second.now, second.slots other = .idle wakeAt
  claimed : JobQueue.returnedRow config.backend config.leaseSecs worker second.jobs second.now =
    .ok (some row)
  same : row.id = delivery.job.id.toText

namespace Retry

variable {config : Config Stamp} {start : State Stamp}

/-- When the delay of the failed attempt is over. -/
def due (retry : Retry config start) : Instant :=
  retry.first.now + seconds (config.policy.delaySecs retry.delivery.job.attempts).toNat

def actions (retry : Retry config start) : List (Action Stamp) :=
  retry.before ++ .fail retry.slot :: retry.between ++ [.dequeue retry.other retry.worker]

end Retry

/-- The job is not the first that `ORDER BY enqueued_at` meets: an older row can be claimed. -/
def Behind (jobs : JobsTable Stamp) (now : Stamp) (id : String) : Prop :=
  ∀ row ∈ jobs.rows, row.id = id → JobQueue.claimable now row = true →
    ∃ older ∈ jobs.rows, JobQueue.claimable now older = true ∧ older.enqueuedAt < row.enqueuedAt

/-- While the slot sleeps until `due`, it stays up, and whoever asks for a job is handed an
older one. -/
def Undisturbed (config : Config Stamp) (slot : Nat) (job : Uuid) (due : Instant)
    (state : State Stamp) : Action Stamp → Prop
  | .dequeue _ _ => state.slots slot = .idle due → state.now < due →
      Behind state.jobs (config.backend.now state.now) job.toText
  | .stop other | .crash other => other = slot → state.slots slot = .idle due →
      due ≤ state.now
  | _ => True

section Sleep

variable {config : Config Stamp} {state next : State Stamp} {slot : Nat} {due : Instant}

/-- The slot is still in the sleep that ends at `due`, if that lies ahead. -/
def Sleeps (slot : Nat) (due : Instant) (state : State Stamp) : Prop :=
  state.now < due → state.slots slot = .idle due

omit [LinearOrder Stamp] in
theorem sleeps_setSlot {other : Nat} {value : Slot Stamp} (sleeps : Sleeps slot due state)
    (elsewhere : other = slot → state.slots slot ≠ .idle due ∨ due ≤ state.now) :
    Sleeps slot due (state.setSlot other value) := by
  intro ahead
  have asleep := sleeps ahead
  change Function.update state.slots other value slot = _
  by_cases same : slot = other
  · rcases elsewhere same.symm with awake | passed
    · exact absurd asleep awake
    · exact absurd ahead (not_lt.mpr passed)
  · rw [Function.update_of_ne same]
    exact asleep

omit [LinearOrder Stamp] in
theorem awake_or_over {other : Nat} {wakeAt : Instant} (same : other = slot)
    (waiting : state.slots other = .idle wakeAt) (awake : wakeAt ≤ state.now) :
    state.slots slot ≠ .idle due ∨ due ≤ state.now := by
  rw [← same, waiting]
  by_cases equal : wakeAt = due
  · subst equal
    exact Or.inr awake
  · left
    simpa using equal

/-- Only going down ends a sleep early. -/
theorem sleeps_of_step {job : Uuid} {action : Action Stamp} (sleeps : Sleeps slot due state)
    (undisturbed : Undisturbed config slot job due state action)
    (stepped : step config state action = some next) : Sleeps slot due next := by
  cases action with
  | enqueue job =>
      cases stepped
      exact sleeps
  | start other =>
      simp only [step] at stepped
      split at stepped
      next down =>
        cases stepped
        refine sleeps_setSlot sleeps fun same => Or.inl ?_
        rw [← same, down]
        simp
      next => cases stepped
  | stop other =>
      simp only [step] at stepped
      split at stepped
      next =>
        cases stepped
        refine sleeps_setSlot sleeps fun same => ?_
        by_cases asleep : state.slots slot = .idle due
        · exact Or.inr (undisturbed same asleep)
        · exact Or.inl asleep
      next => cases stepped
  | crash other =>
      cases stepped
      refine sleeps_setSlot sleeps fun same => ?_
      by_cases asleep : state.slots slot = .idle due
      · exact Or.inr (undisturbed same asleep)
      · exact Or.inl asleep
  | dequeue other worker =>
      simp only [step] at stepped
      split at stepped
      next wakeAt waiting =>
        split at stepped
        next awake =>
          cases stepped
          refine sleeps_setSlot sleeps fun same => ?_
          exact awake_or_over same waiting awake
        next => cases stepped
      next => cases stepped
  | finish other outcome =>
      simp only [step] at stepped
      split at stepped
      next handling =>
        cases stepped
        exact sleeps_setSlot sleeps fun same => Or.inl (by rw [← same, handling]; simp)
      next handling =>
        split at stepped
        all_goals
          cases stepped
          exact sleeps_setSlot sleeps fun same => Or.inl (by rw [← same, handling]; simp)
      next => cases stepped
  | complete other =>
      simp only [step] at stepped
      split at stepped
      next completing =>
        cases stepped
        exact sleeps_setSlot sleeps fun same => Or.inl (by rw [← same, completing]; simp)
      next => cases stepped
  | pushDlq other accepted =>
      simp only [step] at stepped
      split at stepped
      next burying =>
        cases stepped
        exact sleeps_setSlot sleeps fun same => Or.inl (by rw [← same, burying]; simp)
      next => cases stepped
  | fail other =>
      simp only [step] at stepped
      split at stepped
      next failing =>
        cases stepped
        exact sleeps_setSlot sleeps fun same => Or.inl (by rw [← same, failing]; simp)
      next => cases stepped
  | queueError other =>
      simp only [step] at stepped
      split at stepped
      next waiting =>
        split at stepped
        next awake =>
          cases stepped
          exact sleeps_setSlot sleeps fun same => awake_or_over same waiting awake
        next => cases stepped
      next completing =>
        cases stepped
        exact sleeps_setSlot sleeps fun same => Or.inl (by rw [← same, completing]; simp)
      next failing =>
        cases stepped
        exact sleeps_setSlot sleeps fun same => Or.inl (by rw [← same, failing]; simp)
      next => cases stepped
  | advance nanoseconds =>
      cases stepped
      intro ahead
      apply sleeps
      change state.now + (nanoseconds : Int) < due at ahead
      grind
  | reorder permute =>
      cases stepped
      exact sleeps

/-- A row behind an older one is not handed out. -/
theorem not_returned_of_behind {jobs : JobsTable Stamp} {now : Instant} {worker id : String}
    {row : JobsRow Stamp} (behind : Behind jobs (config.backend.now now) id)
    (returned : JobQueue.returnedRow config.backend config.leaseSecs worker jobs now =
      .ok (some row)) : row.id ≠ id := by
  intro same
  obtain ⟨chosen, claimed, rfl⟩ := JobQueue.returnedRow_eq_some_iff.mp returned
  obtain ⟨next, _⟩ := JobQueue.claimedRow_eq_some_iff.mp claimed
  obtain ⟨member, claimable, first⟩ := JobQueue.of_nextJob_eq_some next
  obtain ⟨older, present, available, earlier⟩ := behind chosen member same claimable
  exact absurd (first older present available) (not_le.mpr earlier)

end Sleep

namespace Retry

variable {config : Config Stamp} {start : State Stamp}

theorem sleeps_failed (retry : Retry config start) :
    Sleeps retry.slot retry.due retry.failed := by
  intro _
  have recorded := retry.recorded
  simp only [step, retry.failing] at recorded
  rw [← Option.some.inj recorded]
  change Function.update retry.first.slots retry.slot _ retry.slot = _
  rw [Function.update_self, wakeAfterFailure, if_neg (by simp [retry.unfinished])]
  rfl

/-- The delay is kept for the job while the slot that failed it sleeps through, and the others
are handed older jobs meanwhile. -/
theorem backoff_of_undisturbed (retry : Retry config start)
    (undisturbed : Meets (step config)
      (Undisturbed config retry.slot retry.delivery.job.id retry.due) retry.failed
      (retry.between ++ [.dequeue retry.other retry.worker])) :
    retry.first.now + seconds (config.policy.delaySecs retry.delivery.job.attempts).toNat ≤
      retry.second.now := by
  obtain ⟨meanwhile, last⟩ := meets_append retry.later undisturbed
  have sleeps : Sleeps retry.slot retry.due retry.second := by
    refine run_invariant_of_meets (Sleeps retry.slot retry.due) ?_ meanwhile
      retry.sleeps_failed retry.later
    intro state action next condition sleeping stepped
    exact sleeps_of_step sleeping condition stepped
  by_contra early
  have ahead : retry.second.now < retry.due := not_le.mp early
  have behind : Behind retry.second.jobs (config.backend.now retry.second.now)
      retry.delivery.job.id.toText := last.1 (sleeps ahead) ahead
  exact not_returned_of_behind behind retry.claimed retry.same

end Retry

section Samples

/-- A slot claims the only job and fails it. -/
def failedOnce : List (Action Int) :=
  [.start 0, .start 1, .dequeue 0 "worker", .finish 0 (.error "boom")]

def beforeFailure : State Int :=
  (run (step sampleConfig) onePending failedOnce).getD onePending

def afterFailure : State Int := (step sampleConfig beforeFailure (.fail 0)).getD onePending

def deliveredOnce : Delivery Int where
  row := JobQueue.claim (Backend.expiry .postgres 0 defaultLeaseSecs) "worker"
    (JobQueue.rowOfJob .postgres thumbnailJob)
  job := { thumbnailJob with attempts := 1 }

/-- The second slot asks while the first one sleeps. -/
def instantRetry : Retry sampleConfig onePending where
  before := failedOnce
  first := beforeFailure
  slot := 0
  delivery := deliveredOnce
  error := "boom"
  failed := afterFailure
  between := []
  second := afterFailure
  other := 1
  worker := "worker"
  row := JobQueue.claim (Backend.expiry .postgres 0 defaultLeaseSecs) "worker"
    { JobQueue.rowOfJob .postgres thumbnailJob with attempts := 1, lastError := some "boom" }
  reached := rfl
  failing := rfl
  unfinished := rfl
  recorded := rfl
  later := rfl
  asks := ⟨0, le_refl _, rfl⟩
  claimed := rfl
  same := rfl

/-- The same job, claimed by the same slot after its sleep of one second. -/
def patientRetry : Retry sampleConfig onePending :=
  { instantRetry with
    between := [.advance 1000000000]
    second := { afterFailure with now := seconds 1 }
    other := 0
    row := JobQueue.claim (Backend.expiry .postgres (seconds 1) defaultLeaseSecs) "worker"
      { JobQueue.rowOfJob .postgres thumbnailJob with attempts := 1, lastError := some "boom" }
    later := rfl
    asks := ⟨seconds 1, le_refl _, rfl⟩
    claimed := rfl
    same := rfl }

theorem retried_at_once :
    ¬ ∀ (config : Config Int) (start : State Int) (retry : Retry config start),
      Meets (step config) (LeasesLive config) start retry.actions →
      retry.first.now + seconds (config.policy.delaySecs retry.delivery.job.attempts).toNat ≤
        retry.second.now := by
  intro backoff
  have live : Meets (step sampleConfig) (LeasesLive sampleConfig) onePending
      instantRetry.actions := by decide
  exact absurd (backoff sampleConfig onePending instantRetry live) (by decide)

theorem retried_after_sleep :
    Meets (step sampleConfig) (Undisturbed sampleConfig 0 ⟨1⟩ (seconds 1)) afterFailure
        (patientRetry.between ++ [.dequeue 0 "worker"]) ∧
      0 + seconds 1 ≤ patientRetry.second.now := by
  have undisturbed : Meets (step sampleConfig) (Undisturbed sampleConfig 0 ⟨1⟩ (seconds 1))
      afterFailure (patientRetry.between ++ [.dequeue 0 "worker"]) := by
    refine ⟨trivial, ?_⟩
    intro next stepped
    cases stepped
    refine ⟨?_, fun _ _ => trivial⟩
    intro _ ahead
    exact absurd ahead (by decide)
  exact ⟨undisturbed, patientRetry.backoff_of_undisturbed undisturbed⟩

end Samples

end Picroom.WorkerPool
