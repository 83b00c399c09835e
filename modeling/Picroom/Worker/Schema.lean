import Picroom.Relational.Column
import Picroom.Worker.Queue

/-!
# The queue against its schemas

The columns the migrations declare for `jobs` on either server, and the row that
`enqueue` sends to it.  `PgJobQueue` was written against tables of text columns: the
PostgreSQL schema refuses four columns of every row, while the SQLite schema stores every
row and gives the job back (`sqlite_stores`, `sqlite_decodes`).
-/

namespace Picroom

open Relational

def JobStatus.toText : JobStatus → String
  | .pending => "pending"
  | .running => "running"
  | .succeeded => "succeeded"
  | .failed => "failed"
  | .dead => "dead"

namespace Schema

/-- `column IN (…)`. -/
def oneOf (allowed : List String) : Value → Bool
  | .text content => allowed.contains content
  | _ => false

inductive JobsColumn where
  | id
  | imageId
  | kind
  | payload
  | status
  | attempts
  | lastError
  | enqueuedAt
  | startedAt
  | finishedAt
  | leaseExpiresAt
  | claimedBy
  deriving DecidableEq

/-- `jobs` of `0003_audit_jobs_tokens.sql`, with the columns of `0011_jobs_lease.sql`. -/
def postgresJobs : JobsColumn → Column ColumnType
  | .id => { type := .uuid, notNull := true }
  | .imageId => { type := .uuid, notNull := true }
  | .kind =>
      { type := .varchar 32, notNull := true,
        check := oneOf ["encode_avif", "encode_webp", "thumbnail", "watermark", "strip_exif"] }
  | .payload => { type := .jsonb, notNull := true }
  | .status =>
      { type := .varchar 32, notNull := true,
        check := oneOf ["pending", "running", "succeeded", "failed", "dead"] }
  | .attempts => { type := .integer, notNull := true }
  | .lastError => { type := .text }
  | .enqueuedAt => { type := .timestamptz, notNull := true }
  | .startedAt => { type := .timestamptz }
  | .finishedAt => { type := .timestamptz }
  | .leaseExpiresAt => { type := .timestamptz }
  | .claimedBy => { type := .text }

/-- `jobs` of `0005_sqlite_init.sql`. -/
def sqliteJobs : JobsColumn → Column Affinity
  | .id => { type := .text }
  | .imageId => { type := .text, notNull := true }
  | .kind => { type := .text, notNull := true }
  | .payload => { type := .text }
  | .status => { type := .text, notNull := true }
  | .attempts => { type := .integer, notNull := true }
  | .lastError => { type := .text }
  | .enqueuedAt => { type := .text, notNull := true }
  | .startedAt => { type := .text }
  | .finishedAt => { type := .text }
  | .leaseExpiresAt => { type := .text }
  | .claimedBy => { type := .text }

/-- The value `INSERT` gives a column; the columns it does not name declare no default.
`stamp` is how the backend binds a time. -/
def inserted {Stamp : Type} (stamp : Stamp → Value) (row : JobsRow Stamp) : JobsColumn → Value
  | .id => .text row.id
  | .imageId => .text row.imageId
  | .kind => .text row.kind
  | .payload => row.payload.elim .null .text
  | .status => .text row.status.toText
  | .attempts => .integer row.attempts
  | .enqueuedAt => stamp row.enqueuedAt
  | .lastError | .startedAt | .finishedAt | .leaseExpiresAt | .claimedBy => .null

def postgresAccepts (job : Job) (column : JobsColumn) : Bool :=
  (postgresJobs column).accepts
    (inserted .timestamptz (JobQueue.rowOfJob .postgres job) column)

def sqliteAccepts (sqlite : Backend String) (job : Job) (column : JobsColumn) : Bool :=
  (sqliteJobs column).acceptsDynamic (inserted .text (JobQueue.rowOfJob sqlite job) column)

/-- Both schemas accept the job's row, and the claim of that row decodes to the job with
one more attempt. -/
structure StoredIntact (serde : Serde) (sqlite : Backend String) (job : Job) : Prop where
  storedByPostgres : ∀ column, postgresAccepts job column = true
  storedBySqlite : ∀ column, sqliteAccepts sqlite job column = true
  postgresDecodes : ∀ expiry worker,
    JobQueue.jobOfRow .postgres serde
        (JobQueue.claim expiry worker (JobQueue.rowOfJob .postgres job)) =
      .ok { job with attempts := job.attempts + 1 }
  sqliteDecodes : ∀ expiry worker,
    JobQueue.jobOfRow sqlite serde (JobQueue.claim expiry worker (JobQueue.rowOfJob sqlite job)) =
      .ok { job with attempts := job.attempts + 1 }

theorem toList_toJson (kind : JobKind) : ∃ rest, kind.toJson.toList = '\x7b' :: rest := by
  cases kind with
  | generateThumbnail size =>
      exact ⟨_, JobKind.toList_toJson_generateThumbnail size⟩
  | encodeAvif | encodeWebp | applyWatermark | stripExif => exact ⟨_, rfl⟩

theorem head_of_storeVarchar {width : Nat} {text stored : String} {first : Char}
    {rest : List Char} (start : text.toList = first :: rest)
    (succeeded : storeVarchar (width + 1) text = some stored) :
    ∃ kept, stored.toList = first :: kept := by
  unfold storeVarchar at succeeded
  split at succeeded
  next => cases succeeded
  next =>
    split at succeeded
    next =>
      cases succeeded
      exact ⟨rest.take width, by simp [start]⟩
    next => cases succeeded

/-- No JSON of a kind is one of the words the `CHECK` expects, cut off or not. -/
theorem kind_refused (kind : JobKind) :
    (postgresJobs .kind).accepts (.text kind.toJson) = false := by
  obtain ⟨rest, start⟩ := toList_toJson kind
  cases attempted : storeVarchar 32 kind.toJson with
  | none => simp [postgresJobs, Column.accepts, ColumnType.assign, attempted]
  | some stored =>
      obtain ⟨kept, braced⟩ := head_of_storeVarchar start attempted
      have other : ∀ word : String, word.toList.head? ≠ some '\x7b' → stored ≠ word := by
        rintro word notBraced rfl
        exact notBraced (by simp [braced])
      simp [postgresJobs, Column.accepts, ColumnType.assign, attempted, Column.constrains, oneOf,
        other "encode_avif" (by decide), other "encode_webp" (by decide),
        other "thumbnail" (by decide), other "watermark" (by decide),
        other "strip_exif" (by decide)]

theorem attempts_accepted (attempts : UInt32) :
    (postgresJobs .attempts).accepts (.integer attempts.toInt32.toInt) = true := by
  have lower : -2147483648 ≤ attempts.toInt32.toInt := attempts.toInt32.le_toInt
  have upper : attempts.toInt32.toInt < 2147483648 := attempts.toInt32.toInt_lt
  simp only [postgresJobs, Column.accepts, ColumnType.assign, if_pos (And.intro lower upper)]
  rfl

/-- Four columns refuse the row of every job: the identifiers are sent as text, the kind as
JSON, and the payload as `NULL`. -/
theorem postgresAccepts_eq_false_iff {job : Job} {column : JobsColumn} :
    postgresAccepts job column = false ↔
      column ∈ [JobsColumn.id, .imageId, .kind, .payload] := by
  have kind : postgresAccepts job .kind = false := kind_refused job.kind
  have attempts : postgresAccepts job .attempts = true := attempts_accepted job.attempts
  have status : (postgresJobs .status).accepts (.text "pending") = true := by decide
  have pending : postgresAccepts job .status = true := status
  cases column with
  | kind => simp [kind]
  | attempts => simp [attempts]
  | status => simp [pending]
  | id | imageId | payload => exact ⟨fun _ => by decide, fun _ => rfl⟩
  | lastError | enqueuedAt | startedAt | finishedAt | leaseExpiresAt | claimedBy =>
      exact ⟨fun refused => Bool.noConfusion (show true = false from refused),
        fun member => absurd member (by decide)⟩

theorem sqlite_stores (sqlite : Backend String) (job : Job) (column : JobsColumn) :
    sqliteAccepts sqlite job column = true := by
  cases column <;> rfl

theorem ofInt_attempts_succ {attempts : UInt32} (bounded : attempts.toNat < 2 ^ 31) :
    UInt32.ofInt (attempts.toInt32.toInt + 1) = attempts + 1 := by
  have signed : attempts.toInt32.toInt = attempts.toNat :=
    BitVec.toInt_eq_toNat_of_lt (by simpa using by omega)
  apply UInt32.toNat_inj.mp
  rw [signed, UInt32.ofInt, UInt32.toNat_add]
  simp
  omega

/-- On SQLite the claim of a stored row gives the job back, as long as its count reads as 32
bits afterwards. -/
theorem sqlite_decodes {serde : Serde} {sqlite : Backend String} {job : Job}
    (roundTrip : ∀ kind, serde.decodeKind kind.toJson = .ok kind)
    (readBack : sqlite.read (sqlite.bind job.enqueuedAt) = .ok job.enqueuedAt)
    (bounded : job.attempts.toNat + 1 < 2 ^ 31) (expiry worker : String) :
    JobQueue.jobOfRow sqlite serde (JobQueue.claim expiry worker (JobQueue.rowOfJob sqlite job)) =
      .ok { job with attempts := job.attempts + 1 } := by
  have signed : job.attempts.toInt32.toInt = job.attempts.toNat :=
    BitVec.toInt_eq_toNat_of_lt (by simpa using by omega)
  have counted : JobQueue.ReadsAttempts (job.attempts.toInt32.toInt + 1) := by
    simp only [signed, JobQueue.ReadsAttempts, Backend.maxInteger]
    omega
  rw [← ofInt_attempts_succ (by omega)]
  exact JobQueue.jobOfRow_of_decodes rfl rfl (roundTrip job.kind) readBack counted

/-- The PostgreSQL schema refuses four columns of every job, so no job is stored intact on
both servers. -/
theorem never_stored_intact (serde : Serde) (sqlite : Backend String) (job : Job) :
    (∀ column, postgresAccepts job column = false ↔
      column ∈ [JobsColumn.id, .imageId, .kind, .payload]) ∧
      ¬ StoredIntact serde sqlite job := by
  refine ⟨fun _ => postgresAccepts_eq_false_iff, ?_⟩
  intro intact
  have refused : postgresAccepts job .payload = false :=
    postgresAccepts_eq_false_iff.mpr (by decide)
  rw [intact.storedByPostgres .payload] at refused
  cases refused

def avifJob : Job := ⟨⟨1⟩, ⟨2⟩, .encodeAvif, 0, 0⟩

/-- PostgreSQL refuses its kind, although the `CHECK` names one for it. -/
theorem avif_job_refused :
    avifJob.attempts.toNat < 2 ^ 31 ∧ postgresAccepts avifJob .kind = false ∧
      ∀ serde sqlite, ¬ StoredIntact serde sqlite avifJob := by
  have refused : postgresAccepts avifJob .kind = false := by decide
  refine ⟨by decide, refused, ?_⟩
  intro serde sqlite intact
  rw [intact.storedByPostgres .kind] at refused
  cases refused

end Schema

end Picroom
