import Mathlib.Data.List.MinMax
import Picroom.Relational.Table
import Picroom.Worker.Job

/-!
# Database-backed job queue

The four statements of `PgJobQueue` and `SqliteJobQueue`, which differ in how they
write and compare times and in the width of the column `attempts`; `Backend` carries
that difference.  What a statement does to the table is said once, by what a lookup
finds afterwards (`find?_enqueue`, `find?_claimNext`, `find?_complete`, `find?_fail`).

`attempts` counts claims.  PostgreSQL keeps it in 32 bits and refuses to count on from
2147483647; SQLite counts on, but `JobRow` reads 32 bits.
-/

namespace Picroom

open Relational

/-- How a backend represents instants: bound parameters, the current time as
`dequeue` compares it, and the expiry of a lease taken now; and whether its column
holds one attempt more than the given ones. -/
structure Backend (Stamp : Type) where
  bind : Instant → Stamp
  now : Instant → Stamp
  expiry : Instant → Int → Stamp
  read : Stamp → Except String Instant
  canCount : Int → Bool

namespace Backend

/-- Start of the year 2000, from which PostgreSQL counts microseconds. -/
def epoch : Instant := seconds 946684800

/-- The largest value of a column of 32 bits. -/
def maxInteger : Int := 2147483647

/-- `lease_secs as i32`. -/
def boundLease (leaseSecs : Int) : Int := (Int32.ofInt leaseSecs).toInt

/-- PostgreSQL `TIMESTAMPTZ`: whole microseconds.  The lease is bound in 32 bits, and
`attempts + 1` is out of range after the largest integer. -/
def postgres : Backend Int where
  bind instant := (instant - epoch).tdiv 1000
  now instant := (instant - epoch) / 1000
  expiry instant leaseSecs := (instant - epoch) / 1000 + boundLease leaseSecs * 1000000
  read microseconds := .ok (microseconds * 1000 + epoch)
  canCount attempts := decide (attempts < maxInteger)

/-- SQLite: RFC 3339 text, compared as text. -/
def sqlite (format : Instant → String) (parse : String → Except String Instant) :
    Backend String where
  bind := format
  now := format
  expiry instant leaseSecs := format (instant + seconds leaseSecs)
  read := parse
  canCount _ := true

end Backend

inductive JobStatus where
  | pending
  | running
  | succeeded
  | failed
  | dead
  deriving DecidableEq

/-- The job is settled. -/
def JobStatus.finished (status : JobStatus) : Prop := status = .succeeded ∨ status = .dead

/-- A row of `jobs`, with the columns the statements read. -/
structure JobsRow (Stamp : Type) where
  id : String
  imageId : String
  kind : String
  payload : Option String
  status : JobStatus
  attempts : Int
  lastError : Option String
  enqueuedAt : Stamp
  leaseExpiresAt : Option Stamp
  claimedBy : Option String

abbrev JobsTable (Stamp : Type) := Table fun row : JobsRow Stamp => row.id

/-- `serde_json` on the types of the queue. -/
structure Serde where
  decodeKind : String → Except String JobKind
  encodeResult : JobResult → String

/-- Deliveries after which a failed job is dead. -/
def maxAttempts : Nat := 5

/-- Default claim duration before a running job can be reclaimed. -/
def defaultLeaseSecs : Int := 300

namespace JobQueue

variable {Stamp : Type}

def rowOfJob (backend : Backend Stamp) (job : Job) : JobsRow Stamp where
  id := job.id.toText
  imageId := job.imageId.toText
  kind := job.kind.toJson
  payload := none
  status := .pending
  attempts := job.attempts.toInt32.toInt
  lastError := none
  enqueuedAt := backend.bind job.enqueuedAt
  leaseExpiresAt := none
  claimedBy := none

/-- `enqueue`: a job that is already there is left alone. -/
def enqueue (backend : Backend Stamp) (jobs : JobsTable Stamp) (job : Job) : JobsTable Stamp :=
  jobs.insertOrIgnore (rowOfJob backend job)

/-- The `SET` clause of `dequeue`. -/
def claim (expiry : Stamp) (worker : String) (row : JobsRow Stamp) : JobsRow Stamp :=
  { row with status := .running, attempts := row.attempts + 1, leaseExpiresAt := some expiry,
             claimedBy := some worker }

@[simp]
theorem claim_id {expiry : Stamp} {worker : String} {row : JobsRow Stamp} :
    (claim expiry worker row).id = row.id := rfl

/-- The column `attempts` decodes as `i32`. -/
def ReadsAttempts (attempts : Int) : Prop :=
  -Backend.maxInteger - 1 ≤ attempts ∧ attempts ≤ Backend.maxInteger

instance (attempts : Int) : Decidable (ReadsAttempts attempts) :=
  inferInstanceAs (Decidable (_ ∧ _))

/-- `TryFrom<JobRow> for Job`, with the decoding of the columns that can fail. -/
def jobOfRow (backend : Backend Stamp) (serde : Serde) (row : JobsRow Stamp) :
    Except JobError Job :=
  if ¬ ReadsAttempts row.attempts then
    .error (.processing ("dequeue: error occurred while decoding column \"attempts\": " ++
      "out of range integral type conversion attempted"))
  else
  match backend.read row.enqueuedAt with
  | .error message => .error (.processing ("dequeue: " ++ message))
  | .ok enqueuedAt =>
    match Uuid.parseStr row.id with
    | none => .error (.processing ("parse job id: " ++ row.id))
    | some id =>
      match Uuid.parseStr row.imageId with
      | none => .error (.processing ("parse image id: " ++ row.imageId))
      | some imageId =>
        match serde.decodeKind row.kind with
        | .error message => .error (.processing ("deserialize kind: " ++ message))
        | .ok kind => .ok { id, imageId, kind, attempts := .ofInt row.attempts, enqueuedAt }

theorem jobOfRow_of_decodes {backend : Backend Stamp} {serde : Serde} {row : JobsRow Stamp}
    {id imageId : Uuid} {kind : JobKind} {enqueuedAt : Instant}
    (sameId : row.id = id.toText) (sameImage : row.imageId = imageId.toText)
    (decoded : serde.decodeKind row.kind = .ok kind)
    (read : backend.read row.enqueuedAt = .ok enqueuedAt) (counted : ReadsAttempts row.attempts) :
    jobOfRow backend serde row =
      .ok { id, imageId, kind, attempts := .ofInt row.attempts, enqueuedAt } := by
  simp only [jobOfRow, counted, not_true_eq_false, if_false, read, sameId, sameImage, decoded,
    Uuid.parseStr_toText]

theorem readsAttempts_rowOfJob (backend : Backend Stamp) (job : Job) :
    ReadsAttempts (rowOfJob backend job).attempts := by
  have lower := job.attempts.toInt32.le_toInt
  have upper := job.attempts.toInt32.toInt_lt
  simp only [ReadsAttempts, rowOfJob, Backend.maxInteger]
  omega

/-- What a decoded job has in common with its row. -/
structure Decodes (row : JobsRow Stamp) (job : Job) : Prop where
  id : Uuid.parseStr row.id = some job.id
  imageId : Uuid.parseStr row.imageId = some job.imageId
  attempts : job.attempts = .ofInt row.attempts

theorem decodes_of_jobOfRow {backend : Backend Stamp} {serde : Serde} {row : JobsRow Stamp}
    {job : Job} (decoded : jobOfRow backend serde row = .ok job) : Decodes row job := by
  unfold jobOfRow at decoded
  split at decoded
  next => cases decoded
  next =>
    split at decoded
    next => cases decoded
    next =>
      split at decoded
      next => cases decoded
      next id parsed =>
        split at decoded
        next => cases decoded
        next imageId parsedImage =>
          split at decoded
          next => cases decoded
          next =>
            cases decoded
            exact ⟨parsed, parsedImage, rfl⟩

def complete (serde : Serde) (jobs : JobsTable Stamp) (id : Uuid) (result : JobResult) :
    JobsTable Stamp :=
  jobs.update (·.id == id.toText)
    (fun row => { row with status := .succeeded, lastError := none,
                           payload := some (serde.encodeResult result),
                           leaseExpiresAt := none, claimedBy := none }) fun _ => rfl

/-- `fail`: back to pending, or dead once the deliveries are used up. -/
def fail (jobs : JobsTable Stamp) (id : Uuid) (error : String) : JobsTable Stamp :=
  jobs.update (·.id == id.toText)
    (fun row => { row with status := if maxAttempts ≤ row.attempts then .dead else .pending,
                           lastError := some error, leaseExpiresAt := none,
                           claimedBy := none }) fun _ => rfl

section Lookup

variable {backend : Backend Stamp} {serde : Serde} {jobs : JobsTable Stamp}

theorem find?_enqueue {job : Job} {id : String} :
    (enqueue backend jobs job).find? id =
      (jobs.find? id).or (if job.id.toText = id then some (rowOfJob backend job) else none) :=
  Table.find?_insertOrIgnore

theorem find?_complete {job : Uuid} {result : JobResult} {id : String} :
    (complete serde jobs job result).find? id =
      (jobs.find? id).map fun row => if row.id = job.toText then
        { row with status := .succeeded, lastError := none,
                   payload := some (serde.encodeResult result), leaseExpiresAt := none,
                   claimedBy := none } else row := by
  unfold complete
  rw [Table.find?_update]
  simp only [beq_iff_eq]

theorem find?_fail {job : Uuid} {error : String} {id : String} :
    (fail jobs job error).find? id =
      (jobs.find? id).map fun row => if row.id = job.toText then
        { row with status := if maxAttempts ≤ row.attempts then .dead else .pending,
                   lastError := some error, leaseExpiresAt := none, claimedBy := none }
        else row := by
  unfold fail
  rw [Table.find?_update]
  simp only [beq_iff_eq]

end Lookup

variable [LinearOrder Stamp]

/-- The `WHERE` clause of `dequeue`: pending, or running without a live lease. -/
def claimable (now : Stamp) (row : JobsRow Stamp) : Bool :=
  row.status == .pending ||
    (row.status == .running && match row.leaseExpiresAt with
      | none => true
      | some expiry => decide (expiry < now))

/-- `ORDER BY enqueued_at LIMIT 1`. -/
def nextJob (jobs : JobsTable Stamp) (now : Stamp) : Option (JobsRow Stamp) :=
  (jobs.rows.filter (claimable now)).argmin JobsRow.enqueuedAt

/-- The row `dequeue` claims: the next job, when its claims can be counted. -/
def claimedRow (backend : Backend Stamp) (jobs : JobsTable Stamp) (now : Instant) :
    Option (JobsRow Stamp) :=
  (nextJob jobs (backend.now now)).filter fun row => backend.canCount row.attempts

def claimNext (backend : Backend Stamp) (leaseSecs : Int) (worker : String)
    (jobs : JobsTable Stamp) (now : Instant) : JobsTable Stamp :=
  match claimedRow backend jobs now with
  | none => jobs
  | some row =>
      jobs.update (·.id == row.id) (claim (backend.expiry now leaseSecs) worker) fun _ => claim_id

/-- What the statement returns: the claimed row as `RETURNING` gives it back, or the error of an
`attempts + 1` that the column does not hold. -/
def returnedRow (backend : Backend Stamp) (leaseSecs : Int) (worker : String)
    (jobs : JobsTable Stamp) (now : Instant) : Except JobError (Option (JobsRow Stamp)) :=
  match nextJob jobs (backend.now now) with
  | none => .ok none
  | some row =>
    if backend.canCount row.attempts then
      .ok (some (claim (backend.expiry now leaseSecs) worker row))
    else .error (.processing "dequeue: error returned from database: integer out of range")

/-- `dequeue`: one statement that claims a row and returns it; the returned row may
then fail to decode. -/
def dequeue (backend : Backend Stamp) (serde : Serde) (leaseSecs : Int) (worker : String)
    (jobs : JobsTable Stamp) (now : Instant) :
    JobsTable Stamp × Except JobError (Option Job) :=
  (claimNext backend leaseSecs worker jobs now,
    match returnedRow backend leaseSecs worker jobs now with
    | .error error => .error error
    | .ok none => .ok none
    | .ok (some row) => (jobOfRow backend serde row).map some)

section Dequeue

variable {jobs : JobsTable Stamp} {row : JobsRow Stamp}

theorem claimable_eq_true_iff {now : Stamp} :
    claimable now row = true ↔ row.status = .pending ∨
      (row.status = .running ∧ ∀ expiry, row.leaseExpiresAt = some expiry → expiry < now) := by
  unfold claimable
  cases lease : row.leaseExpiresAt <;> simp

theorem nextJob_eq_none_iff {now : Stamp} :
    nextJob jobs now = none ↔ ∀ row ∈ jobs, claimable now row = false := by
  unfold nextJob
  rw [List.argmin_eq_none, List.filter_eq_nil_iff]
  simp

theorem of_nextJob_eq_some {now : Stamp} (next : nextJob jobs now = some row) :
    row ∈ jobs ∧ claimable now row = true ∧
      ∀ other ∈ jobs, claimable now other = true → row.enqueuedAt ≤ other.enqueuedAt := by
  have member : row ∈ jobs.rows.filter (claimable now) := List.argmin_mem next
  obtain ⟨present, chosen⟩ := List.mem_filter.mp member
  refine ⟨present, chosen, ?_⟩
  intro other otherPresent otherClaimable
  exact List.le_of_mem_argmin (List.mem_filter.mpr ⟨otherPresent, otherClaimable⟩) next

variable {backend : Backend Stamp} {leaseSecs : Int} {worker : String} {now : Instant}

theorem claimedRow_eq_some_iff :
    claimedRow backend jobs now = some row ↔
      nextJob jobs (backend.now now) = some row ∧ backend.canCount row.attempts = true := by
  unfold claimedRow
  rw [Option.filter_eq_some_iff]

/-- The claimed row is a job that may be taken and that can be counted. -/
theorem of_claimedRow_eq_some (claimed : claimedRow backend jobs now = some row) :
    row ∈ jobs ∧ claimable (backend.now now) row = true ∧
      backend.canCount row.attempts = true := by
  obtain ⟨next, counted⟩ := claimedRow_eq_some_iff.mp claimed
  obtain ⟨member, free, _⟩ := of_nextJob_eq_some next
  exact ⟨member, free, counted⟩

/-- The statement returns a row exactly when it claims one. -/
theorem returnedRow_eq_some_iff {returned : JobsRow Stamp} :
    returnedRow backend leaseSecs worker jobs now = .ok (some returned) ↔
      ∃ row, claimedRow backend jobs now = some row ∧
        claim (backend.expiry now leaseSecs) worker row = returned := by
  simp only [claimedRow_eq_some_iff, returnedRow]
  cases nextJob jobs (backend.now now) with
  | none => simp
  | some row =>
      by_cases counted : backend.canCount row.attempts = true
      · simp [counted]
      · simp [counted]

theorem returnedRow_of_claimedRow (leaseSecs : Int) (worker : String)
    (claimed : claimedRow backend jobs now = some row) :
    returnedRow backend leaseSecs worker jobs now =
      .ok (some (claim (backend.expiry now leaseSecs) worker row)) :=
  returnedRow_eq_some_iff.mpr ⟨row, claimed, rfl⟩

/-- A job handed out is the claimed row, decoded. -/
theorem of_dequeue_eq_some {serde : Serde} {job : Job}
    (returned : (dequeue backend serde leaseSecs worker jobs now).2 = .ok (some job)) :
    ∃ row, claimedRow backend jobs now = some row ∧
      jobOfRow backend serde (claim (backend.expiry now leaseSecs) worker row) = .ok job := by
  simp only [dequeue] at returned
  split at returned
  next => cases returned
  next => cases returned
  next row answered =>
    obtain ⟨chosen, claimed, rfl⟩ := returnedRow_eq_some_iff.mp answered
    refine ⟨chosen, claimed, ?_⟩
    cases decoded : jobOfRow backend serde
        (claim (backend.expiry now leaseSecs) worker chosen) with
    | error error =>
        rw [decoded] at returned
        cases returned
    | ok found =>
        rw [decoded] at returned
        cases returned
        rfl

theorem dequeue_eq_none_iff {serde : Serde} :
    (dequeue backend serde leaseSecs worker jobs now).2 = .ok none ↔
      nextJob jobs (backend.now now) = none := by
  simp only [dequeue, returnedRow]
  cases nextJob jobs (backend.now now) with
  | none => simp
  | some row =>
      by_cases counted : backend.canCount row.attempts = true
      · simp only [counted, if_true]
        cases jobOfRow backend serde (claim (backend.expiry now leaseSecs) worker row) <;>
          simp [Except.map]
      · simp [counted]

theorem claimedRow_of_nextJob_none (next : nextJob jobs (backend.now now) = none) :
    claimedRow backend jobs now = none := by
  simp only [claimedRow, next, Option.filter_none]

/-- A `dequeue` that does not fail claims the next job. -/
theorem claimedRow_of_isOk {serde : Serde} (next : nextJob jobs (backend.now now) = some row)
    (answered : (dequeue backend serde leaseSecs worker jobs now).2.isOk = true) :
    claimedRow backend jobs now = some row := by
  refine claimedRow_eq_some_iff.mpr ⟨next, ?_⟩
  by_contra uncounted
  simp only [dequeue, returnedRow, next, if_neg uncounted] at answered
  cases answered

theorem dequeue_of_claimedRow {serde : Serde} {job : Job}
    (claimed : claimedRow backend jobs now = some row)
    (decoded : jobOfRow backend serde (claim (backend.expiry now leaseSecs) worker row) =
      .ok job) :
    (dequeue backend serde leaseSecs worker jobs now).2 = .ok (some job) := by
  simp only [dequeue, returnedRow_of_claimedRow leaseSecs worker claimed, decoded, Except.map]

/-- `dequeue` changes the claimed row only. -/
theorem find?_claimNext {id : String} :
    (claimNext backend leaseSecs worker jobs now).find? id =
      match claimedRow backend jobs now with
      | none => jobs.find? id
      | some row => if row.id = id then some (claim (backend.expiry now leaseSecs) worker row)
          else jobs.find? id := by
  unfold claimNext
  cases claimed : claimedRow backend jobs now with
  | none => rfl
  | some row =>
      obtain ⟨member, _, _⟩ := of_claimedRow_eq_some claimed
      simp only
      rw [Table.find?_update]
      by_cases same : row.id = id
      · have found : jobs.find? id = some row := Table.find?_eq_some_iff.mpr ⟨member, same⟩
        simp [found, same]
      · rw [if_neg same]
        cases found : jobs.find? id with
        | none => rfl
        | some other =>
            have otherId : other.id = id := (Table.find?_eq_some_iff.mp found).2
            have different : other.id ≠ row.id := fun equal => same (equal.symm.trans otherId)
            simp [different]

end Dequeue

end JobQueue

end Picroom
