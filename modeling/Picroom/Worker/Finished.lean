import Picroom.Worker.Pool

/-!
# Finished jobs

`complete` and `fail` address a row by its id alone, so a worker whose lease ran out can
still settle a job that was claimed again, and even one that is finished.  As long as
every statement is sent by the latest claim of its row (`latestClaim`), a row that is
succeeded or dead keeps its status.

The claim a slot holds is identified by the `attempts` value the row had when it was
returned: every claim raises it and nothing else changes it.
-/

namespace Picroom.WorkerPool

open Transition Relational JobQueue

variable {Stamp : Type}

/-- The row that the delivery's statement addresses is the row that was delivered, and
nobody has claimed it since. -/
def Delivery.latest (delivery : Delivery Stamp) (jobs : JobsTable Stamp) : Bool :=
  match jobs.find? delivery.job.id.toText with
  | none => true
  | some current => current.id == delivery.row.id && current.attempts == delivery.row.attempts

/-- A slot sends `complete` and `fail` only while its claim is the latest one. -/
def latestClaim (state : State Stamp) : Action Stamp → Bool
  | .complete slot | .fail slot =>
      match (state.slots slot).delivery? with
      | none => true
      | some delivery => delivery.latest state.jobs
  | _ => true

/-- The claims the slots hold: none is ahead of its row, a row is running while its latest
claim is unsettled, and no two slots hold the same claim. -/
structure ClaimsValid (state : State Stamp) : Prop where
  present : ∀ slot delivery, Holds state slot delivery →
    ∃ row, state.jobs.find? delivery.row.id = some row ∧
      delivery.row.attempts ≤ row.attempts ∧
      (delivery.row.attempts = row.attempts → row.status = .running)
  distinct : ∀ first second one other, Holds state first one → Holds state second other →
    one.row.id = other.row.id → one.row.attempts = other.row.attempts → first = second

variable {config : Config Stamp} {state next : State Stamp} {action : Action Stamp}

theorem ClaimsValid.attempts_le {slot : Nat} {delivery : Delivery Stamp} {row : JobsRow Stamp}
    (valid : ClaimsValid state) (holds : Holds state slot delivery)
    (found : state.jobs.find? delivery.row.id = some row) :
    delivery.row.attempts ≤ row.attempts := by
  obtain ⟨current, currentFound, bounded, _⟩ := valid.present slot delivery holds
  rw [found, Option.some.injEq] at currentFound
  rwa [← currentFound] at bounded

theorem ClaimsValid.running_of_latest {slot : Nat} {delivery : Delivery Stamp}
    {row : JobsRow Stamp} (valid : ClaimsValid state) (holds : Holds state slot delivery)
    (latest : delivery.latest state.jobs = true)
    (found : state.jobs.find? delivery.job.id.toText = some row) :
    row.id = delivery.row.id ∧ row.attempts = delivery.row.attempts ∧ row.status = .running := by
  simp only [Delivery.latest, found, Bool.and_eq_true, beq_iff_eq] at latest
  obtain ⟨current, currentFound, _, running⟩ := valid.present slot delivery holds
  have rowId : row.id = delivery.job.id.toText := (Table.find?_eq_some_iff.mp found).2
  rw [← latest.1, rowId, found, Option.some.injEq] at currentFound
  subst currentFound
  exact ⟨latest.1, latest.2, running latest.2.symm⟩

theorem ClaimsValid.settle {slot : Nat} {delivery : Delivery Stamp}
    {assign : JobsRow Stamp → JobsRow Stamp} (valid : ClaimsValid state)
    (holds : Holds state slot delivery) (latest : delivery.latest state.jobs = true)
    (keeps : ∀ row, (assign row).attempts = row.attempts)
    (rows : ∀ id, next.jobs.find? id = (state.jobs.find? id).map fun row =>
      if row.id = delivery.job.id.toText then assign row else row)
    (held : ∀ other another, Holds next other another → other ≠ slot ∧ Holds state other another) :
    ClaimsValid next := by
  refine ⟨?_, ?_⟩
  · intro other another holdsNext
    obtain ⟨different, holdsBefore⟩ := held other another holdsNext
    obtain ⟨row, found, bounded, running⟩ := valid.present other another holdsBefore
    refine ⟨if row.id = delivery.job.id.toText then assign row else row,
      by rw [rows, found, Option.map_some], ?_⟩
    by_cases addressed : row.id = delivery.job.id.toText
    · rw [if_pos addressed, keeps]
      refine ⟨bounded, fun same => ?_⟩
      -- the settled claim was the latest, so an equal one would be in the same slot
      have rowId : row.id = another.row.id := (Table.find?_eq_some_iff.mp found).2
      have foundHere : state.jobs.find? delivery.job.id.toText = some row := by
        rw [← addressed, rowId, found]
      obtain ⟨sameId, sameAttempts, _⟩ := valid.running_of_latest holds latest foundHere
      exact absurd (valid.distinct other slot another delivery holdsBefore holds
        (rowId.symm.trans sameId) (same.trans sameAttempts)) different
    · rw [if_neg addressed]
      exact ⟨bounded, running⟩
  · intro first second one other holdsOne holdsOther
    exact valid.distinct first second one other (held first one holdsOne).2
      (held second other holdsOther).2

theorem ClaimsValid.mono (valid : ClaimsValid state)
    (rows : ∀ id row, state.jobs.find? id = some row → next.jobs.find? id = some row)
    (held : ∀ slot delivery, Holds next slot delivery → Holds state slot delivery) :
    ClaimsValid next := by
  refine ⟨?_, ?_⟩
  · intro slot delivery holds
    obtain ⟨row, found, rest⟩ := valid.present slot delivery (held slot delivery holds)
    exact ⟨row, rows _ _ found, rest⟩
  · intro first second one other holdsOne holdsOther
    exact valid.distinct first second one other (held first one holdsOne)
      (held second other holdsOther)

theorem latest_of_latestClaim {slot : Nat} {delivery : Delivery Stamp}
    (holds : Holds state slot delivery) (settles : action = .complete slot ∨ action = .fail slot)
    (condition : latestClaim state action = true) : delivery.latest state.jobs = true := by
  unfold Holds at holds
  rcases settles with rfl | rfl
  · simpa [latestClaim, holds] using condition
  · simpa [latestClaim, holds] using condition

def HasStatus (id : String) (status : JobStatus) (state : State Stamp) : Prop :=
  ∃ row, state.jobs.find? id = some row ∧ row.status = status

theorem hasStatus_settle {id : String} {status : JobStatus} {slot : Nat}
    {delivery : Delivery Stamp} {assign : JobsRow Stamp → JobsRow Stamp}
    (finished : status.finished) (valid : ClaimsValid state)
    (holds : Holds state slot delivery) (latest : delivery.latest state.jobs = true)
    (rows : ∀ id, next.jobs.find? id = (state.jobs.find? id).map fun row =>
      if row.id = delivery.job.id.toText then assign row else row)
    (settled : HasStatus id status state) : HasStatus id status next := by
  obtain ⟨row, found, rowStatus⟩ := settled
  have rowId : row.id = id := (Table.find?_eq_some_iff.mp found).2
  have different : row.id ≠ delivery.job.id.toText := by
    intro addressed
    rw [← rowId, addressed] at found
    obtain ⟨_, _, running⟩ := valid.running_of_latest holds latest found
    rw [running] at rowStatus
    subst rowStatus
    rcases finished with isSucceeded | isDead
    · cases isSucceeded
    · cases isDead
  exact ⟨row, by rw [rows, found, Option.map_some, if_neg different], rowStatus⟩

variable [LinearOrder Stamp]

/-- A fresh claim is ahead of every other claim of its row. -/
theorem ClaimsValid.claim {slot : Nat} {worker : String} (valid : ClaimsValid state)
    (rows : next.jobs = claimNext config.backend config.leaseSecs worker state.jobs state.now)
    (held : ∀ other delivery, Holds next other delivery →
      (other ≠ slot ∧ Holds state other delivery) ∨
        (other = slot ∧ returnedRow config.backend config.leaseSecs worker state.jobs
          state.now = .ok (some delivery.row))) :
    ClaimsValid next := by
  cases chosen : claimedRow config.backend state.jobs state.now with
  | none =>
      simp only [claimNext, chosen] at rows
      refine valid.mono (fun _ _ found => rows ▸ found) ?_
      intro other delivery holds
      rcases held other delivery holds with ⟨_, before⟩ | ⟨_, returned⟩
      · exact before
      · obtain ⟨row, claimed, _⟩ := returnedRow_eq_some_iff.mp returned
        rw [chosen] at claimed
        cases claimed
  | some row =>
      have member : row ∈ state.jobs := (of_claimedRow_eq_some chosen).1
      have current : state.jobs.find? row.id = some row :=
        Table.find?_eq_some_iff.mpr ⟨member, rfl⟩
      have lookup : ∀ id, next.jobs.find? id =
          if row.id = id then
            some (JobQueue.claim (config.backend.expiry state.now config.leaseSecs) worker row)
          else state.jobs.find? id := by
        intro id
        rw [rows, find?_claimNext, chosen]
      have fresh : ∀ delivery : Delivery Stamp,
          returnedRow config.backend config.leaseSecs worker state.jobs state.now =
            .ok (some delivery.row) →
          delivery.row.id = row.id ∧ delivery.row.attempts = row.attempts + 1 := by
        intro delivery returned
        rw [returnedRow_of_claimedRow _ _ chosen, Except.ok.injEq, Option.some.injEq] at returned
        rw [← returned]
        exact ⟨rfl, rfl⟩
      refine ⟨?_, ?_⟩
      · intro other delivery holds
        rcases held other delivery holds with ⟨_, before⟩ | ⟨_, returned⟩
        · by_cases same : row.id = delivery.row.id
          · refine ⟨_, (lookup _).trans (if_pos same), ?_⟩
            have bounded := valid.attempts_le before (same ▸ current)
            simp only [JobQueue.claim]
            exact ⟨by omega, fun _ => trivial⟩
          · obtain ⟨found, lookedUp, rest⟩ := valid.present other delivery before
            exact ⟨found, ((lookup _).trans (if_neg same)).trans lookedUp, rest⟩
        · obtain ⟨sameId, sameAttempts⟩ := fresh delivery returned
          refine ⟨_, (lookup _).trans (if_pos sameId.symm), ?_⟩
          simp only [JobQueue.claim]
          exact ⟨by omega, fun _ => trivial⟩
      · intro first second one other holdsOne holdsOther sameId sameAttempts
        rcases held first one holdsOne with ⟨_, before⟩ | ⟨rfl, returned⟩
        · rcases held second other holdsOther with ⟨_, otherBefore⟩ | ⟨rfl, otherReturned⟩
          · exact valid.distinct first second one other before otherBefore sameId sameAttempts
          · obtain ⟨freshId, freshAttempts⟩ := fresh other otherReturned
            have bounded := valid.attempts_le before ((sameId.trans freshId) ▸ current)
            omega
        · rcases held second other holdsOther with ⟨_, otherBefore⟩ | ⟨rfl, _⟩
          · obtain ⟨freshId, freshAttempts⟩ := fresh one returned
            have bounded := valid.attempts_le otherBefore ((sameId.symm.trans freshId) ▸ current)
            omega
          · rfl

theorem claimsValid_step (condition : latestClaim state action = true)
    (valid : ClaimsValid state) (stepped : step config state action = some next) :
    ClaimsValid next := by
  cases step_effect stepped with
  | keeps _ rows held => exact valid.mono (fun id _ found => (rows id).trans found) held
  | enqueues job _ rows held =>
      refine valid.mono ?_ held
      intro id row found
      rw [rows, find?_enqueue, found, Option.some_or]
  | claims slot worker _ rows held => exact valid.claim rows held
  | completes slot delivery completed holds result rows held =>
      refine valid.settle holds (latest_of_latestClaim holds (Or.inl completed) condition)
        ?_ (fun id => by rw [rows, find?_complete]) held
      exact fun _ => rfl
  | fails slot delivery failed holds error rows held =>
      refine valid.settle holds (latest_of_latestClaim holds (Or.inr failed) condition)
        ?_ (fun id => by rw [rows, find?_fail]) held
      exact fun _ => rfl

theorem hasStatus_step {id : String} {status : JobStatus} (finished : status.finished)
    (condition : latestClaim state action = true) (valid : ClaimsValid state)
    (settled : HasStatus id status state) (stepped : step config state action = some next) :
    HasStatus id status next := by
  cases step_effect stepped with
  | keeps _ rows _ =>
      obtain ⟨row, found, rowStatus⟩ := settled
      exact ⟨row, (rows id).trans found, rowStatus⟩
  | enqueues job _ rows _ =>
      obtain ⟨row, found, rowStatus⟩ := settled
      exact ⟨row, by rw [rows, find?_enqueue, found, Option.some_or], rowStatus⟩
  | claims slot worker _ rows _ =>
      obtain ⟨row, found, rowStatus⟩ := settled
      refine ⟨row, ?_, rowStatus⟩
      rw [rows, find?_claimNext]
      cases chosen : claimedRow config.backend state.jobs state.now with
      | none => exact found
      | some other =>
          -- a row that is claimed is pending or running, not finished
          obtain ⟨member, free, _⟩ := of_claimedRow_eq_some chosen
          have different : other.id ≠ id := by
            intro same
            have otherFound : state.jobs.find? id = some other :=
              Table.find?_eq_some_iff.mpr ⟨member, same⟩
            rw [found, Option.some.injEq] at otherFound
            subst otherFound
            rw [claimable_eq_true_iff, rowStatus] at free
            rcases finished with rfl | rfl <;> simp at free
          simp only [if_neg different]
          exact found
  | completes slot delivery completed holds result rows _ =>
      exact hasStatus_settle finished valid holds
        (latest_of_latestClaim holds (Or.inl completed) condition)
        (fun id => by rw [rows, find?_complete]) settled
  | fails slot delivery failed holds error rows _ =>
      exact hasStatus_settle finished valid holds
        (latest_of_latestClaim holds (Or.inr failed) condition)
        (fun id => by rw [rows, find?_fail]) settled

/-- In a run whose statements are all sent by latest claims, a finished job keeps its
status for good. -/
theorem finished_jobs_stay_finished (config : Config Stamp) (start middle last : State Stamp)
    (before after : List (Action Stamp))
    (unclaimed : ∀ slot, (start.slots slot).delivery? = none)
    (meets : Meets (step config) (fun state action => latestClaim state action = true) start
      (before ++ after))
    (reached : run (step config) start before = some middle)
    (later : run (step config) middle after = some last)
    (id : String) (status : JobStatus) (finished : status.finished)
    (settled : HasStatus id status middle) : HasStatus id status last := by
  have initially : ClaimsValid start := by
    refine ⟨?_, ?_⟩
    · intro slot delivery holds
      rw [Holds, unclaimed] at holds
      cases holds
    · intro first _ _ _ holds
      rw [Holds, unclaimed] at holds
      cases holds
  obtain ⟨meetsBefore, meetsAfter⟩ := meets_append reached meets
  have valid : ClaimsValid middle :=
    run_invariant_of_meets ClaimsValid
      (fun _ _ _ condition valid stepped => claimsValid_step condition valid stepped)
      meetsBefore initially reached
  have kept : ClaimsValid last ∧ HasStatus id status last :=
    run_invariant_of_meets (fun state => ClaimsValid state ∧ HasStatus id status state)
      (fun _ _ _ condition invariant stepped =>
        ⟨claimsValid_step condition invariant.1 stepped,
          hasStatus_step finished condition invariant.1 invariant.2 stepped⟩)
      meetsAfter ⟨valid, settled⟩ later
  exact kept.2

/-- One slot handles the job; the other finds nothing to do, even after the lease. -/
theorem succeeded_thumbnail_stays_succeeded :
    ∃ middle last,
      run (step sampleConfig) onePending
        [.start 0, .start 1, .dequeue 0 "a", .finish 0 (.ok .skipped), .complete 0] =
          some middle ∧
      run (step sampleConfig) middle [.advance 301000000000, .dequeue 1 "b"] = some last ∧
      HasStatus thumbnailJob.id.toText .succeeded middle ∧
      HasStatus thumbnailJob.id.toText .succeeded last := by
  refine ⟨_, _, rfl, rfl, ⟨_, rfl, rfl⟩, ?_⟩
  exact finished_jobs_stay_finished sampleConfig onePending _ _
    [.start 0, .start 1, .dequeue 0 "a", .finish 0 (.ok .skipped), .complete 0]
    [.advance 301000000000, .dequeue 1 "b"] (fun _ => rfl) (by decide) rfl rfl _ _ (Or.inl rfl)
    ⟨_, rfl, rfl⟩

/-- A slow slot loses its lease; another slot completes the job, and then the slow slot
fails it: the job that had succeeded is pending again. -/
theorem late_failure_reopens_job :
    ∃ middle last,
      run (step sampleConfig) onePending
        [.start 0, .start 1, .dequeue 0 "a", .advance 301000000000, .dequeue 1 "b",
          .finish 1 (.ok .skipped), .complete 1] = some middle ∧
      run (step sampleConfig) middle [.finish 0 (.error "timed out"), .fail 0] = some last ∧
      HasStatus thumbnailJob.id.toText .succeeded middle ∧
      ¬ HasStatus thumbnailJob.id.toText .succeeded last := by
  refine ⟨_, _, rfl, rfl, ⟨_, rfl, rfl⟩, ?_⟩
  rintro ⟨row, found, succeeded⟩
  cases found
  cases succeeded

end Picroom.WorkerPool
