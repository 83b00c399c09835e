import Picroom.Relational.Ranked
import Picroom.Service.Page
import Picroom.Text.Fraction
import Picroom.Transition.Run
import Picroom.Worker.Queue

/-!
# The two queues

PostgreSQL compares times as microseconds, SQLite as texts; PostgreSQL also cuts the lease down to
32 bits and does not count claims past them.  Both are set against the queue that compares the
instants themselves: as long as a backend orders the times a dequeue compares the way they are
ordered, grants the whole lease and can count the claim, its table is that queue's table with every
time written its way, and it hands out the same jobs.

The text of a second and the parser belong to the `time` crate; `UtcText` and `Op.Covered` say what
is relied on.
-/

namespace Picroom.QueueBackends

open Relational Transition

/-- RFC 3339 in UTC, for the seconds the format covers. -/
structure UtcText where
  text : Int → List Char
  first : Int
  last : Int
  length : ∀ second, first ≤ second → second ≤ last → (text second).length = 19
  increasing : ∀ earlier later, first ≤ earlier → earlier < later → later ≤ last →
    text earlier < text later

namespace UtcText

variable (utc : UtcText)

def Covers (instant : Instant) : Prop :=
  utc.first ≤ instant / 1000000000 ∧ instant / 1000000000 ≤ utc.last

instance (instant : Instant) : Decidable (utc.Covers instant) :=
  inferInstanceAs (Decidable (_ ∧ _))

/-- The second, the fraction without trailing zeros and a `Z`. -/
def format (instant : Instant) : String :=
  .ofList (utc.text (instant / 1000000000) ++
    (Text.fraction 9 (instant % 1000000000).toNat ++ ['Z']))

end UtcText

/-- The fraction written for the first instant begins the one written for the second. -/
def Begins (first second : Instant) : Prop :=
  first / 1000000000 = second / 1000000000 ∧
    Text.fraction 9 (first % 1000000000).toNat <+: Text.fraction 9 (second % 1000000000).toNat

instance (first second : Instant) : Decidable (Begins first second) :=
  inferInstanceAs (Decidable (_ ∧ _))

theorem remainders_lt {first second : Int} (less : first < second)
    (same : first / 1000000000 = second / 1000000000) :
    (first % 1000000000).toNat < (second % 1000000000).toNat ∧
      (second % 1000000000).toNat < 10 ^ 9 := by
  omega

section Texts

variable {utc : UtcText} {first second : Instant}

theorem format_order (firstCovered : utc.Covers first) (secondCovered : utc.Covers second)
    (less : first < second) :
    if Begins first second then utc.format second < utc.format first
    else utc.format first < utc.format second := by
  simp only [UtcText.format, String.lt_iff_toList_lt, String.toList_ofList]
  have quotients : first / 1000000000 ≤ second / 1000000000 :=
    Int.ediv_le_ediv (by decide) less.le
  rcases quotients.lt_or_eq with below | same
  · have apart : ¬ Begins first second := fun begins => absurd begins.1 (ne_of_lt below)
    rw [if_neg apart]
    apply Text.append_lt_append
    · rw [utc.length _ firstCovered.1 firstCovered.2, utc.length _ secondCovered.1 secondCovered.2]
    · exact utc.increasing _ _ firstCovered.1 below secondCovered.2
  · obtain ⟨remainders, bounded⟩ := remainders_lt less same
    have fractions := Text.fraction_order (by decide : '.' < 'Z') (by decide) remainders bounded
    have begins : Begins first second ↔ Text.fraction 9 (first % 1000000000).toNat <+:
        Text.fraction 9 (second % 1000000000).toNat := and_iff_right same
    simp only [begins, same]
    split
    next starts =>
      rw [if_pos starts] at fractions
      exact List.append_left_lt fractions
    next starts =>
      rw [if_neg starts] at fractions
      exact List.append_left_lt fractions

theorem format_lt_iff (firstCovered : utc.Covers first) (secondCovered : utc.Covers second)
    (told : first < second → ¬ Begins first second)
    (toldBack : second < first → ¬ Begins second first) :
    utc.format first < utc.format second ↔ first < second := by
  constructor
  · intro below
    by_contra notLess
    rcases (not_lt.mp notLess).lt_or_eq with reversed | same
    · have order := format_order secondCovered firstCovered reversed
      rw [if_neg (toldBack reversed)] at order
      exact lt_asymm below order
    · rw [same] at below
      exact lt_irrefl _ below
  · intro less
    have order := format_order firstCovered secondCovered less
    rwa [if_neg (told less)] at order

end Texts

inductive Op where
  | enqueue (job : Job)
  | dequeue (worker : String) (now : Instant)
  | complete (id : Uuid) (result : JobResult)
  | fail (id : Uuid) (error : String)

structure Queue (Stamp : Type) where
  jobs : JobsTable Stamp
  answers : List (Except JobError (Option Job))

variable {Stamp : Type}

def Queue.empty : Queue Stamp := ⟨.empty _, []⟩

def step [LinearOrder Stamp] (backend : Backend Stamp) (serde : Serde) (leaseSecs : Int)
    (queue : Queue Stamp) : Op → Option (Queue Stamp)
  | .enqueue job => some { queue with jobs := JobQueue.enqueue backend queue.jobs job }
  | .dequeue worker now =>
    let (jobs, answer) := JobQueue.dequeue backend serde leaseSecs worker queue.jobs now
    some ⟨jobs, queue.answers ++ [answer]⟩
  | .complete id result =>
    some { queue with jobs := JobQueue.complete serde queue.jobs id result }
  | .fail id error => some { queue with jobs := JobQueue.fail queue.jobs id error }

/-- The queue that keeps and compares the instants themselves. -/
def exact : Backend Instant where
  bind := id
  now := id
  expiry now leaseSecs := now + seconds leaseSecs
  read := .ok
  canCount _ := true

section Encoding

def encodeRow (backend : Backend Stamp) (row : JobsRow Instant) : JobsRow Stamp where
  id := row.id
  imageId := row.imageId
  kind := row.kind
  payload := row.payload
  status := row.status
  attempts := row.attempts
  lastError := row.lastError
  enqueuedAt := backend.bind row.enqueuedAt
  leaseExpiresAt := row.leaseExpiresAt.map backend.now
  claimedBy := row.claimedBy

def encodeTable (backend : Backend Stamp) (jobs : JobsTable Instant) : JobsTable Stamp :=
  jobs.map (encodeRow backend) id Function.injective_id fun _ => rfl

variable {backend : Backend Stamp} {jobs : JobsTable Instant} {serde : Serde}

theorem enqueue_encode (job : Job) :
    JobQueue.enqueue backend (encodeTable backend jobs) job =
      encodeTable backend (JobQueue.enqueue exact jobs job) :=
  Table.insertOrIgnore_map (JobQueue.rowOfJob exact job)

theorem complete_encode (id : Uuid) (result : JobResult) :
    JobQueue.complete serde (encodeTable backend jobs) id result =
      encodeTable backend (JobQueue.complete serde jobs id result) :=
  Table.update_map (fun _ => rfl) fun _ => rfl

theorem fail_encode (id : Uuid) (error : String) :
    JobQueue.fail (encodeTable backend jobs) id error =
      encodeTable backend (JobQueue.fail jobs id error) :=
  Table.update_map (fun _ => rfl) fun _ => rfl

theorem find?_encode (id : String) :
    (encodeTable backend jobs).find? id = (jobs.find? id).map (encodeRow backend) :=
  Table.find?_map id

/-- A job as it is read back from a row: the enqueue time as the backend keeps it. -/
def seenAs (seen : Instant → Instant) (job : Job) : Job :=
  { job with enqueuedAt := seen job.enqueuedAt }

theorem jobOfRow_encode {seen : Instant → Instant} {row : JobsRow Instant}
    (reads : backend.read (backend.bind row.enqueuedAt) = .ok (seen row.enqueuedAt)) :
    JobQueue.jobOfRow backend serde (encodeRow backend row) =
      (JobQueue.jobOfRow exact serde row).map (seenAs seen) := by
  simp only [JobQueue.jobOfRow, encodeRow, reads, exact]
  by_cases counted : JobQueue.ReadsAttempts row.attempts
  · simp only [counted, not_true_eq_false, if_false]
    cases Uuid.parseStr row.id with
    | none => rfl
    | some id =>
        cases Uuid.parseStr row.imageId with
        | none => rfl
        | some imageId =>
            cases serde.decodeKind row.kind <;> rfl
  · simp only [counted, not_false_eq_true, if_true]
    rfl

end Encoding

section Dequeue

variable [LinearOrder Stamp]

/-- The backend orders the times of this dequeue as the instants are ordered, counts the claim and
grants the whole lease. -/
structure Agrees (backend : Backend Stamp) (leaseSecs : Int) (jobs : JobsTable Instant)
    (now : Instant) : Prop where
  leases : ∀ row ∈ jobs, row.status = .running → ∀ expiry, row.leaseExpiresAt = some expiry →
    (backend.now expiry < backend.now now ↔ expiry < now)
  order : ∀ first ∈ jobs, JobQueue.claimable now first = true →
    ∀ second ∈ jobs, JobQueue.claimable now second = true →
    (backend.bind first.enqueuedAt < backend.bind second.enqueuedAt ↔
      first.enqueuedAt < second.enqueuedAt)
  claims : ∀ row, JobQueue.nextJob jobs now = some row → backend.canCount row.attempts = true ∧
    backend.expiry now leaseSecs = backend.now (now + seconds leaseSecs)

variable {backend : Backend Stamp} {jobs : JobsTable Instant} {now : Instant} {serde : Serde}
  {leaseSecs : Int} {worker : String}

theorem claimable_encode (agrees : Agrees backend leaseSecs jobs now) {row : JobsRow Instant}
    (member : row ∈ jobs) :
    JobQueue.claimable (backend.now now) (encodeRow backend row) =
      JobQueue.claimable now row := by
  rw [Bool.eq_iff_iff, JobQueue.claimable_eq_true_iff, JobQueue.claimable_eq_true_iff]
  refine or_congr Iff.rfl (and_congr_right fun running => ?_)
  have leases := agrees.leases row member running
  cases lease : row.leaseExpiresAt with
  | none => simp [encodeRow, lease]
  | some expiry => simp [encodeRow, lease, leases expiry lease]

theorem nextJob_encode (agrees : Agrees backend leaseSecs jobs now) :
    JobQueue.nextJob (encodeTable backend jobs) (backend.now now) =
      (JobQueue.nextJob jobs now).map (encodeRow backend) := by
  have filtered : (jobs.rows.map (encodeRow backend)).filter
      (JobQueue.claimable (backend.now now)) =
        (jobs.rows.filter (JobQueue.claimable now)).map (encodeRow backend) := by
    rw [List.filter_map]
    congr 1
    apply List.filter_congr
    intro row member
    exact claimable_encode agrees member
  unfold JobQueue.nextJob
  change ((jobs.rows.map (encodeRow backend)).filter _).argmin _ = _
  rw [filtered]
  apply argmin_map
  intro first firstMember second secondMember
  obtain ⟨firstPresent, firstClaimable⟩ := List.mem_filter.mp firstMember
  obtain ⟨secondPresent, secondClaimable⟩ := List.mem_filter.mp secondMember
  exact agrees.order first firstPresent firstClaimable second secondPresent secondClaimable

omit [LinearOrder Stamp] in
theorem claim_encode (leases : backend.expiry now leaseSecs = backend.now (now + seconds leaseSecs))
    (row : JobsRow Instant) :
    JobQueue.claim (backend.expiry now leaseSecs) worker (encodeRow backend row) =
      encodeRow backend (JobQueue.claim (now + seconds leaseSecs) worker row) := by
  rw [leases]
  rfl

omit [LinearOrder Stamp] in
theorem exact_now : exact.now now = now := rfl

theorem claimedRow_encode (agrees : Agrees backend leaseSecs jobs now) :
    JobQueue.claimedRow backend (encodeTable backend jobs) now =
      (JobQueue.claimedRow exact jobs now).map (encodeRow backend) := by
  unfold JobQueue.claimedRow
  rw [nextJob_encode agrees, exact_now]
  cases chosen : JobQueue.nextJob jobs now with
  | none => rfl
  | some row =>
      have counted : backend.canCount (encodeRow backend row).attempts = true :=
        (agrees.claims row chosen).1
      simp only [Option.map_some, Option.filter_some, counted, if_true, exact]

theorem claimNext_encode (agrees : Agrees backend leaseSecs jobs now) :
    JobQueue.claimNext backend leaseSecs worker (encodeTable backend jobs) now =
      encodeTable backend (JobQueue.claimNext exact leaseSecs worker jobs now) := by
  unfold JobQueue.claimNext
  rw [claimedRow_encode agrees]
  cases claimed : JobQueue.claimedRow exact jobs now with
  | none => rfl
  | some row =>
      have leases := (agrees.claims row (JobQueue.claimedRow_eq_some_iff.mp claimed).1).2
      exact Table.update_map (fun _ => rfl) (claim_encode leases)

theorem returnedRow_encode (agrees : Agrees backend leaseSecs jobs now) :
    JobQueue.returnedRow backend leaseSecs worker (encodeTable backend jobs) now =
      (JobQueue.returnedRow exact leaseSecs worker jobs now).map
        (Option.map (encodeRow backend)) := by
  unfold JobQueue.returnedRow
  rw [nextJob_encode agrees, exact_now]
  cases chosen : JobQueue.nextJob jobs now with
  | none => rfl
  | some row =>
      obtain ⟨counted, leases⟩ := agrees.claims row chosen
      have countedCode : backend.canCount (encodeRow backend row).attempts = true := counted
      simp only [Option.map_some, countedCode, if_true, exact]
      rw [claim_encode leases]
      rfl

/-- The same row is claimed, and the job is the same but for the precision of its time. -/
theorem dequeue_encode {seen : Instant → Instant} (agrees : Agrees backend leaseSecs jobs now)
    (reads : ∀ row ∈ jobs, backend.read (backend.bind row.enqueuedAt) =
      .ok (seen row.enqueuedAt)) :
    JobQueue.dequeue backend serde leaseSecs worker (encodeTable backend jobs) now =
      (encodeTable backend (JobQueue.dequeue exact serde leaseSecs worker jobs now).1,
        (JobQueue.dequeue exact serde leaseSecs worker jobs now).2.map
          (Option.map (seenAs seen))) := by
  refine Prod.ext (claimNext_encode agrees) ?_
  simp only [JobQueue.dequeue]
  rw [returnedRow_encode agrees]
  cases returned : JobQueue.returnedRow exact leaseSecs worker jobs now with
  | error error => rfl
  | ok answer =>
      cases answer with
      | none => rfl
      | some row =>
          obtain ⟨chosen, claimed, rfl⟩ := JobQueue.returnedRow_eq_some_iff.mp returned
          obtain ⟨member, _, _⟩ := JobQueue.of_claimedRow_eq_some claimed
          have readsClaimed : backend.read (backend.bind (JobQueue.claim
              (exact.expiry now leaseSecs) worker chosen).enqueuedAt) =
                .ok (seen (JobQueue.claim (exact.expiry now leaseSecs) worker chosen).enqueuedAt) :=
            reads chosen member
          simp only [Except.map, Option.map_some]
          rw [jobOfRow_encode readsClaimed]
          cases JobQueue.jobOfRow exact serde _ <;> rfl

end Dequeue

section Runs

variable [LinearOrder Stamp] {backend : Backend Stamp} {serde : Serde} {leaseSecs : Int}
  {seen : Instant → Instant}

def encodeQueue (backend : Backend Stamp) (seen : Instant → Instant) (queue : Queue Instant) :
    Queue Stamp where
  jobs := encodeTable backend queue.jobs
  answers := queue.answers.map (Except.map (Option.map (seenAs seen)))

/-- The times a dequeue meets, as the backend writes, compares and reads them. -/
def Faithful (backend : Backend Stamp) (seen : Instant → Instant) (leaseSecs : Int)
    (queue : Queue Instant) : Op → Prop
  | .dequeue _ now => Agrees backend leaseSecs queue.jobs now ∧
      ∀ row ∈ queue.jobs, backend.read (backend.bind row.enqueuedAt) = .ok (seen row.enqueuedAt)
  | _ => True

theorem step_encode {queue : Queue Instant} {op : Op}
    (faithful : Faithful backend seen leaseSecs queue op) :
    step backend serde leaseSecs (encodeQueue backend seen queue) op =
      (step exact serde leaseSecs queue op).map (encodeQueue backend seen) := by
  cases op with
  | enqueue job => simp [step, encodeQueue, enqueue_encode]
  | dequeue worker now =>
      obtain ⟨agrees, reads⟩ := faithful
      simp only [step, encodeQueue, dequeue_encode agrees reads, Option.map_some,
        List.map_append, List.map_singleton]
  | complete id result => simp [step, encodeQueue, complete_encode]
  | fail id error => simp [step, encodeQueue, fail_encode]

/-- A backend that is faithful at every step runs like the exact queue. -/
theorem run_encode {queue : Queue Instant} {ops : List Op}
    (faithful : Meets (step exact serde leaseSecs) (Faithful backend seen leaseSecs) queue ops) :
    run (step backend serde leaseSecs) (encodeQueue backend seen queue) ops =
      (run (step exact serde leaseSecs) queue ops).map (encodeQueue backend seen) := by
  induction ops generalizing queue with
  | nil => rfl
  | cons op rest inductionHypothesis =>
      obtain ⟨here, later⟩ := faithful
      simp only [run, step_encode here]
      cases stepped : step exact serde leaseSecs queue op with
      | none => rfl
      | some next => exact inductionHypothesis (later next stepped)

end Runs

section Condition

/-- The later time is later in microseconds too, and the text of the earlier one does not begin
its text. -/
def Told (microseconds : Instant → Int) (earlier later : Instant) : Prop :=
  earlier < later → microseconds earlier < microseconds later ∧ ¬ Begins earlier later

instance (microseconds : Instant → Int) (earlier later : Instant) :
    Decidable (Told microseconds earlier later) :=
  inferInstanceAs (Decidable (earlier < later → _))

/-- What a dequeue compares can be told apart: the enqueue times of the jobs it may claim, and
the clock with the leases of the running ones.  The claim of the oldest job can be counted, and its
lease is one of 32 bits. -/
structure Distinguished (leaseSecs : Int) (queue : Queue Instant) (now : Instant) : Prop where
  order : ∀ first ∈ queue.jobs.rows, JobQueue.claimable now first = true →
    ∀ second ∈ queue.jobs.rows, JobQueue.claimable now second = true →
      Told Backend.postgres.bind first.enqueuedAt second.enqueuedAt
  leases : ∀ row ∈ queue.jobs.rows, row.status = .running → ∀ expiry ∈ row.leaseExpiresAt,
    Told Backend.postgres.now expiry now ∧ Told Backend.postgres.now now expiry
  claims : ∀ row ∈ queue.jobs.rows, JobQueue.claimable now row = true →
    (∀ other ∈ queue.jobs.rows, JobQueue.claimable now other = true →
      row.enqueuedAt ≤ other.enqueuedAt) →
    row.attempts < Backend.maxInteger ∧ Backend.boundLease leaseSecs = leaseSecs

theorem distinguished_iff {leaseSecs : Int} {queue : Queue Instant} {now : Instant} :
    ((∀ first ∈ queue.jobs.rows, JobQueue.claimable now first = true →
        ∀ second ∈ queue.jobs.rows, JobQueue.claimable now second = true →
          Told Backend.postgres.bind first.enqueuedAt second.enqueuedAt) ∧
      (∀ row ∈ queue.jobs.rows, row.status = .running → ∀ expiry ∈ row.leaseExpiresAt,
        Told Backend.postgres.now expiry now ∧ Told Backend.postgres.now now expiry) ∧
      ∀ row ∈ queue.jobs.rows, JobQueue.claimable now row = true →
        (∀ other ∈ queue.jobs.rows, JobQueue.claimable now other = true →
          row.enqueuedAt ≤ other.enqueuedAt) →
        row.attempts < Backend.maxInteger ∧ Backend.boundLease leaseSecs = leaseSecs) ↔
      Distinguished leaseSecs queue now :=
  ⟨fun ⟨order, leases, claims⟩ => ⟨order, leases, claims⟩,
    fun ⟨order, leases, claims⟩ => ⟨order, leases, claims⟩⟩

instance (leaseSecs : Int) (queue : Queue Instant) (now : Instant) :
    Decidable (Distinguished leaseSecs queue now) :=
  decidable_of_iff _ distinguished_iff

def Distinguishable (leaseSecs : Int) (queue : Queue Instant) : Op → Prop
  | .dequeue _ now => Distinguished leaseSecs queue now
  | _ => True

instance (leaseSecs : Int) (queue : Queue Instant) (op : Op) :
    Decidable (Distinguishable leaseSecs queue op) :=
  match op with
  | .dequeue _ now => inferInstanceAs (Decidable (Distinguished leaseSecs queue now))
  | .enqueue _ | .complete _ _ | .fail _ _ => isTrue trivial

/-- The times of the operation have a text, and an enqueue time is read back from it. -/
def Op.Covered (utc : UtcText) (parse : String → Except String Instant) (leaseSecs : Int) :
    Op → Prop
  | .enqueue job => utc.Covers job.enqueuedAt ∧
      parse (utc.format job.enqueuedAt) = .ok job.enqueuedAt
  | .dequeue _ now => utc.Covers now ∧ utc.Covers (now + seconds leaseSecs)
  | _ => True

instance (utc : UtcText) (parse : String → Except String Instant) (leaseSecs : Int) (op : Op) :
    Decidable (op.Covered utc parse leaseSecs) :=
  match op with
  | .enqueue job => inferInstanceAs (Decidable (utc.Covers job.enqueuedAt ∧
      parse (utc.format job.enqueuedAt) = .ok job.enqueuedAt))
  | .dequeue _ now => inferInstanceAs (Decidable (utc.Covers now ∧
      utc.Covers (now + seconds leaseSecs)))
  | .complete _ _ | .fail _ _ => isTrue trivial

variable {utc : UtcText} {parse : String → Except String Instant} {leaseSecs : Int} {serde : Serde}

structure CoveredTable (utc : UtcText) (parse : String → Except String Instant)
    (jobs : JobsTable Instant) : Prop where
  enqueued : ∀ row ∈ jobs, utc.Covers row.enqueuedAt ∧
    parse (utc.format row.enqueuedAt) = .ok row.enqueuedAt
  leases : ∀ row ∈ jobs, ∀ expiry, row.leaseExpiresAt = some expiry → utc.Covers expiry

theorem CoveredTable.update {jobs : JobsTable Instant} {condition : JobsRow Instant → Bool}
    {assign : JobsRow Instant → JobsRow Instant} {keepsKey : ∀ row, (assign row).id = row.id}
    (covered : CoveredTable utc parse jobs)
    (keepsTime : ∀ row, (assign row).enqueuedAt = row.enqueuedAt)
    (expires : ∀ row expiry, (assign row).leaseExpiresAt = some expiry → utc.Covers expiry) :
    CoveredTable utc parse (jobs.update condition assign keepsKey) := by
  constructor
  · intro row member
    obtain ⟨old, present, rfl⟩ := Table.mem_update.mp member
    split
    next =>
      rw [keepsTime]
      exact covered.enqueued old present
    next => exact covered.enqueued old present
  · intro row member expiry lease
    obtain ⟨old, present, rfl⟩ := Table.mem_update.mp member
    split at lease
    next => exact expires old expiry lease
    next => exact covered.leases old present expiry lease

theorem covered_of_step {queue next : Queue Instant} {op : Op}
    (readable : op.Covered utc parse leaseSecs) (covered : CoveredTable utc parse queue.jobs)
    (stepped : step exact serde leaseSecs queue op = some next) :
    CoveredTable utc parse next.jobs := by
  cases op with
  | enqueue job =>
      cases stepped
      constructor
      · intro row member
        rcases Table.mem_insertOrIgnore.mp member with old | ⟨rfl, _⟩
        · exact covered.enqueued row old
        · exact readable
      · intro row member expiry lease
        rcases Table.mem_insertOrIgnore.mp member with old | ⟨rfl, _⟩
        · exact covered.leases row old expiry lease
        · cases lease
  | dequeue worker now =>
      cases stepped
      simp only [JobQueue.claimNext]
      split
      next => exact covered
      next =>
        apply covered.update
        · intro row
          rfl
        · intro row expiry lease
          cases lease
          exact readable.2
  | complete id result =>
      cases stepped
      simp only [JobQueue.complete]
      apply covered.update
      · intro row
        rfl
      · intro row expiry lease
        cases lease
  | fail id error =>
      cases stepped
      simp only [JobQueue.fail]
      apply covered.update
      · intro row
        rfl
      · intro row expiry lease
        cases lease

theorem lt_iff_of_told {microseconds : Instant → Int}
    (monotone : ∀ {first second}, first ≤ second → microseconds first ≤ microseconds second)
    {first second : Instant} (told : Told microseconds first second) :
    microseconds first < microseconds second ↔ first < second := by
  constructor
  · intro below
    by_contra less
    exact absurd (monotone (Int.not_lt.mp less)) (Int.not_le.mpr below)
  · intro less
    exact (told less).1

theorem postgres_bind_monotone {first second : Instant} (below : first ≤ second) :
    Backend.postgres.bind first ≤ Backend.postgres.bind second := by
  exact Int.tdiv_le_tdiv (by decide) (Int.sub_le_sub_right below _)

theorem postgres_now_monotone {first second : Instant} (below : first ≤ second) :
    Backend.postgres.now first ≤ Backend.postgres.now second := by
  exact Int.ediv_le_ediv (by decide) (Int.sub_le_sub_right below _)

theorem postgres_expiry (now : Instant) {leaseSecs : Int}
    (fits : Backend.boundLease leaseSecs = leaseSecs) :
    Backend.postgres.expiry now leaseSecs = Backend.postgres.now (now + seconds leaseSecs) := by
  simp only [Backend.postgres, fits, seconds]
  grind

/-- The row a dequeue chooses is one of the oldest. -/
theorem Distinguished.of_nextJob {queue : Queue Instant} {now : Instant} {row : JobsRow Instant}
    (distinguished : Distinguished leaseSecs queue now)
    (next : JobQueue.nextJob queue.jobs now = some row) :
    row.attempts < Backend.maxInteger ∧ Backend.boundLease leaseSecs = leaseSecs := by
  obtain ⟨member, free, least⟩ := JobQueue.of_nextJob_eq_some next
  exact distinguished.claims row member free least

theorem faithful_postgres {queue : Queue Instant} {op : Op}
    (distinguishable : Distinguishable leaseSecs queue op) :
    Faithful .postgres timestamptz leaseSecs queue op := by
  cases op with
  | dequeue worker now =>
      have distinguished : Distinguished leaseSecs queue now := distinguishable
      refine ⟨⟨?_, ?_, ?_⟩, fun _ _ => rfl⟩
      · intro row member running expiry lease
        exact lt_iff_of_told postgres_now_monotone
          (distinguished.leases row member running expiry lease).1
      · intro first firstMember firstClaimable second secondMember secondClaimable
        exact lt_iff_of_told postgres_bind_monotone
          (distinguished.order first firstMember firstClaimable second secondMember secondClaimable)
      · intro row next
        obtain ⟨counted, fits⟩ := distinguished.of_nextJob next
        exact ⟨decide_eq_true counted, postgres_expiry now fits⟩
  | enqueue job => trivial
  | complete id result => trivial
  | fail id error => trivial

theorem faithful_sqlite {queue : Queue Instant} {op : Op}
    (distinguishable : Distinguishable leaseSecs queue op)
    (readable : op.Covered utc parse leaseSecs) (covered : CoveredTable utc parse queue.jobs) :
    Faithful (.sqlite utc.format parse) id leaseSecs queue op := by
  cases op with
  | dequeue worker now =>
      have distinguished : Distinguished leaseSecs queue now := distinguishable
      refine ⟨⟨?_, ?_, fun _ _ => ⟨rfl, rfl⟩⟩, fun row member => (covered.enqueued row member).2⟩
      · intro row member running expiry lease
        obtain ⟨ahead, behind⟩ := distinguished.leases row member running expiry lease
        exact format_lt_iff (covered.leases row member expiry lease) readable.1
          (fun less => (ahead less).2) (fun less => (behind less).2)
      · intro first firstMember firstClaimable second secondMember secondClaimable
        have ahead :=
          distinguished.order first firstMember firstClaimable second secondMember secondClaimable
        have behind :=
          distinguished.order second secondMember secondClaimable first firstMember firstClaimable
        exact format_lt_iff (covered.enqueued first firstMember).1
          (covered.enqueued second secondMember).1
          (fun less => (ahead less).2) (fun less => (behind less).2)
  | enqueue job => trivial
  | complete id result => trivial
  | fail id error => trivial

end Condition

section Agreement

/-- What the queue keeps of a job's progress. -/
def progress {Stamp : Type} (row : JobsRow Stamp) : JobStatus × Int := (row.status, row.attempts)

/-- Both queues give the same answers, up to the microseconds a `TIMESTAMPTZ` keeps, and leave
every row at the same status and attempts; the answers are those of the exact queue. -/
def SameBehaviour (utc : UtcText) (parse : String → Except String Instant) (serde : Serde)
    (leaseSecs : Int) (ops : List Op) : Prop :=
  ∃ postgres sqlite chronological,
    run (step .postgres serde leaseSecs) .empty ops = some postgres ∧
    run (step (.sqlite utc.format parse) serde leaseSecs) .empty ops = some sqlite ∧
    run (step exact serde leaseSecs) .empty ops = some chronological ∧
    sqlite.answers = chronological.answers ∧
    postgres.answers = sqlite.answers.map (Except.map (Option.map (seenAs timestamptz))) ∧
    ∀ id, (sqlite.jobs.find? id).map progress = (postgres.jobs.find? id).map progress

theorem seenAs_id : Except.map (Option.map (seenAs id)) =
    (id : Except JobError (Option Job) → Except JobError (Option Job)) := by
  funext answer
  cases answer with
  | error error => rfl
  | ok job => cases job <;> rfl

/-- The two queues behave the same while each dequeue can tell apart, in microseconds and as
texts, the times it compares, and can count the claim and grant the lease in 32 bits. -/
theorem sameBehaviour_of_distinguishable (utc : UtcText) (parse : String → Except String Instant)
    (serde : Serde) (leaseSecs : Int) (ops : List Op)
    (readable : ∀ op ∈ ops, op.Covered utc parse leaseSecs)
    (told : Meets (step exact serde leaseSecs) (Distinguishable leaseSecs) .empty ops) :
    SameBehaviour utc parse serde leaseSecs ops := by
  have total : ∀ queue op, ∃ next, step exact serde leaseSecs queue op = some next := by
    intro queue op
    cases op <;> exact ⟨_, rfl⟩
  obtain ⟨chronological, reached⟩ := exists_run total Queue.empty ops
  have start : CoveredTable utc parse (Queue.empty : Queue Instant).jobs :=
    ⟨fun row member => absurd member (Table.not_mem_empty row),
      fun row member => absurd member (Table.not_mem_empty row)⟩
  have onPostgres : Meets (step exact serde leaseSecs)
      (Faithful .postgres timestamptz leaseSecs) .empty ops := by
    refine told.of_invariant (fun _ => True) (fun _ _ _ _ _ _ => trivial) ?_ trivial
    intro queue op distinguishable _
    exact faithful_postgres distinguishable
  have onSqlite : Meets (step exact serde leaseSecs)
      (Faithful (.sqlite utc.format parse) id leaseSecs) .empty ops := by
    refine (told.and readable).of_invariant (fun queue => CoveredTable utc parse queue.jobs) ?_ ?_
      start
    · intro queue op next condition covered stepped
      exact covered_of_step condition.2 covered stepped
    · intro queue op condition covered
      exact faithful_sqlite condition.1 condition.2 covered
  have postgres := run_encode onPostgres
  have sqlite := run_encode onSqlite
  rw [reached] at postgres sqlite
  refine ⟨_, _, chronological, postgres, sqlite, reached, ?_, ?_, ?_⟩
  · simp only [encodeQueue, seenAs_id, List.map_id]
  · simp only [encodeQueue, seenAs_id, List.map_id]
  · intro id
    simp only [encodeQueue, find?_encode, Option.map_map]
    rfl

section Samples

/-- The first two seconds of the year 2026. -/
def newYear : UtcText where
  text second :=
    (if second = 1767225600 then "2026-01-01T00:00:00" else "2026-01-01T00:00:01").toList
  first := 1767225600
  last := 1767225601
  length second _ _ := by
    split <;> rfl
  increasing earlier later lower less upper := by
    have isFirst : earlier = 1767225600 := by omega
    have isLast : later ≠ 1767225600 := by omega
    rw [if_pos isFirst, if_neg isLast]
    decide

def newYearAt (milliseconds : Int) : Instant := seconds 1767225600 + milliseconds * 1000000

/-- Reads the texts of the sample times. -/
def readSample (text : String) : Except String Instant :=
  if text = newYear.format (newYearAt 0) then .ok (newYearAt 0)
  else if text = newYear.format (newYearAt 500) then .ok (newYearAt 500)
  else .ok (newYearAt 250)

def sampleAt (id : Uuid) (milliseconds : Int) : Job :=
  ⟨id, ⟨9⟩, .encodeAvif, 0, newYearAt milliseconds⟩

def enqueuedAt? : Op → Option Instant
  | .enqueue job => some job.enqueuedAt
  | _ => none

def twoJobs (first second : Int) : List Op :=
  [.enqueue (sampleAt ⟨1⟩ first), .enqueue (sampleAt ⟨2⟩ second), .dequeue "worker" (newYearAt 750)]

def readKinds : Serde := ⟨JobKind.ofJson, fun _ => ""⟩

/-- SQLite claims the job of half past the second before the job of the full second. -/
theorem later_job_first :
    ¬ ∀ (utc : UtcText) (parse : String → Except String Instant) (serde : Serde) (leaseSecs : Int)
        (ops : List Op), (∀ op ∈ ops, op.Covered utc parse leaseSecs) →
      (ops.filterMap enqueuedAt?).Nodup → SameBehaviour utc parse serde leaseSecs ops := by
  intro same
  obtain ⟨postgres, sqlite, _, onPostgres, onSqlite, _, _, answers, _⟩ :=
    same newYear readSample readKinds 1 (twoJobs 0 500) (by decide) (by decide)
  have first : (run (step .postgres readKinds 1) .empty (twoJobs 0 500)).map Queue.answers =
      some [.ok (some { sampleAt ⟨1⟩ 0 with attempts := 1 })] := by decide
  have second : (run (step (.sqlite newYear.format readSample) readKinds 1) .empty
      (twoJobs 0 500)).map Queue.answers =
        some [.ok (some { sampleAt ⟨2⟩ 500 with attempts := 1 })] := by decide
  rw [onPostgres, Option.map_some, Option.some.injEq, answers] at first
  rw [onSqlite, Option.map_some, Option.some.injEq] at second
  rw [second] at first
  exact absurd first (by decide)

theorem quarter_before_half :
    Meets (step exact readKinds 1) (Distinguishable 1) .empty (twoJobs 250 500) ∧
      SameBehaviour newYear readSample readKinds 1 (twoJobs 250 500) := by
  have told : Meets (step exact readKinds 1) (Distinguishable 1) .empty (twoJobs 250 500) := by
    decide
  exact ⟨told, sameBehaviour_of_distinguishable newYear readSample readKinds 1 (twoJobs 250 500)
    (by decide) told⟩

end Samples

end Agreement

end Picroom.QueueBackends
