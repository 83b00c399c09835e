import Picroom.Transition.Run
import Picroom.Worker.Queue

/-!
# Exclusive claims of the PostgreSQL queue

Any number of clients send `enqueue`, `dequeue`, `complete` and `fail` in any
order to a table that starts empty, while the clock advances and the server is
free to scan the rows in any order.  A claimed row keeps its lease until somebody
fails it or the lease is over (`Held`), so nobody else can claim it before.

A job whose `attempts` is the largest integer cannot be claimed: the statement fails, and
fails again, for as long as the job is the oldest one (`full_count_stuck`).
-/

namespace Picroom.Exclusive

open Transition Relational JobQueue

abbrev Row := JobsRow Int

structure State where
  jobs : JobsTable Int
  now : Instant

/-- One statement, time passing, or the rows changing their physical order. -/
inductive Action where
  | enqueue (job : Job)
  | dequeue (worker : String)
  | complete (id : Uuid) (result : JobResult)
  | fail (id : Uuid) (error : String)
  | advance (nanoseconds : Nat)
  | reorder (permute : (rows : List Row) → { result : List Row // result.Perm rows })

/-- `dequeue` of a queue made by `PgJobQueue::new`. -/
def dequeueNow (serde : Serde) (state : State) (worker : String) :
    JobsTable Int × Except JobError (Option Job) :=
  dequeue .postgres serde defaultLeaseSecs worker state.jobs state.now

def step (serde : Serde) (state : State) : Action → Option State
  | .enqueue job => some { state with jobs := enqueue .postgres state.jobs job }
  | .dequeue worker => some { state with jobs := (dequeueNow serde state worker).1 }
  | .complete id result => some { state with jobs := complete serde state.jobs id result }
  | .fail id error => some { state with jobs := fail state.jobs id error }
  | .advance nanoseconds => some { state with now := state.now + nanoseconds }
  | .reorder permute =>
      some { state with
        jobs := state.jobs.reorder (permute state.jobs.rows).1 (permute state.jobs.rows).2 }

/-- The columns that identify the job are the ones `enqueue` wrote, and the count is one the
column holds. -/
def Written (row : Row) : Prop :=
  (∃ (id imageId : Uuid) (kind : JobKind),
    row.id = id.toText ∧ row.imageId = imageId.toText ∧ row.kind = kind.toJson) ∧
  ReadsAttempts row.attempts

/-- A row nobody may take before the lease is over: it carries the lease of the claim,
or it is settled. -/
def Held (id : Uuid) (claimedAt : Instant) (state : State) : Prop :=
  claimedAt + seconds defaultLeaseSecs < state.now ∨
    ∃ row, state.jobs.find? id.toText = some row ∧
      (row.status = .succeeded ∨ (row.status = .running ∧
        row.leaseExpiresAt = some (Backend.postgres.expiry claimedAt defaultLeaseSecs)))

variable {serde : Serde} {state next : State} {action : Action}

/-- Microsecond stamps never report a lease over too early. -/
theorem elapsed_of_expiry_lt {claimedAt now : Int}
    (past : Backend.postgres.expiry claimedAt defaultLeaseSecs < Backend.postgres.now now) :
    claimedAt + seconds defaultLeaseSecs < now := by
  have granted : Backend.boundLease 300 = 300 := by decide
  simp only [Backend.postgres, Backend.epoch, seconds, defaultLeaseSecs, granted] at past ⊢
  omega

/-- A claim that `postgres` counts leaves a count the column holds. -/
theorem readsAttempts_succ {attempts : Int} (reads : ReadsAttempts attempts)
    (counted : Backend.postgres.canCount attempts = true) : ReadsAttempts (attempts + 1) := by
  have below : attempts < Backend.maxInteger := of_decide_eq_true counted
  obtain ⟨lower, _⟩ := reads
  exact ⟨by omega, by omega⟩

theorem written_claimNext {jobs : JobsTable Int} {now : Instant} {worker : String}
    (written : ∀ row ∈ jobs, Written row) :
    ∀ row ∈ claimNext .postgres defaultLeaseSecs worker jobs now, Written row := by
  intro row member
  unfold claimNext at member
  split at member
  next => exact written row member
  next chosen claimed =>
    obtain ⟨present, _, counted⟩ := of_claimedRow_eq_some claimed
    obtain ⟨old, stored, rfl⟩ := Table.mem_update.mp member
    obtain ⟨columns, reads⟩ := written old stored
    split
    next same =>
      have isChosen : old = chosen := jobs.eq_of_key_eq stored present (beq_iff_eq.mp same)
      subst isChosen
      exact ⟨columns, readsAttempts_succ reads counted⟩
    next => exact ⟨columns, reads⟩

theorem written_update {jobs : JobsTable Int} {condition : Row → Bool} {assign : Row → Row}
    {keepsKey : ∀ row, (assign row).id = row.id} (written : ∀ row ∈ jobs, Written row)
    (keeps : ∀ row, (assign row).id = row.id ∧ (assign row).imageId = row.imageId ∧
      (assign row).kind = row.kind ∧ (assign row).attempts = row.attempts) :
    ∀ row ∈ jobs.update condition assign keepsKey, Written row := by
  intro row member
  obtain ⟨old, present, rfl⟩ := Table.mem_update.mp member
  obtain ⟨⟨id, imageId, kind, sameId, sameImage, sameKind⟩, reads⟩ := written old present
  cases condition old with
  | false => exact ⟨⟨id, imageId, kind, sameId, sameImage, sameKind⟩, reads⟩
  | true =>
      obtain ⟨keptId, keptImage, keptKind, keptAttempts⟩ := keeps old
      exact ⟨⟨id, imageId, kind, keptId.trans sameId, keptImage.trans sameImage,
        keptKind.trans sameKind⟩, by rw [if_pos rfl, keptAttempts]; exact reads⟩

theorem written_step (written : ∀ row ∈ state.jobs, Written row)
    (stepped : step serde state action = some next) : ∀ row ∈ next.jobs, Written row := by
  intro row member
  cases action with
  | enqueue job =>
      cases stepped
      rcases Table.mem_insertOrIgnore.mp member with old | ⟨rfl, _⟩
      · exact written row old
      · exact ⟨⟨job.id, job.imageId, job.kind, rfl, rfl, rfl⟩, readsAttempts_rowOfJob .postgres job⟩
  | dequeue worker =>
      cases stepped
      exact written_claimNext written row member
  | complete _ _ =>
      cases stepped
      simp only [complete] at member
      refine written_update written ?_ row member
      exact fun _ => ⟨rfl, rfl, rfl, rfl⟩
  | fail _ _ =>
      cases stepped
      simp only [fail] at member
      refine written_update written ?_ row member
      exact fun _ => ⟨rfl, rfl, rfl, rfl⟩
  | advance _ =>
      cases stepped
      exact written row member
  | reorder _ =>
      cases stepped
      simp only [Table.mem_reorder] at member
      exact written row member

theorem written_of_run {actions : List Action} (written : ∀ row ∈ state.jobs, Written row)
    (reached : run (step serde) state actions = some next) : ∀ row ∈ next.jobs, Written row :=
  run_invariant (fun state => ∀ row ∈ state.jobs, Written row)
    (fun _ _ _ written stepped => written_step written stepped) written reached

theorem Held.elapsed {id : Uuid} {claimedAt : Instant} (held : Held id claimedAt state)
    {row : Row} (found : state.jobs.find? id.toText = some row)
    (free : claimable (Backend.postgres.now state.now) row = true) :
    claimedAt + seconds defaultLeaseSecs < state.now := by
  rcases held with elapsed | ⟨other, otherFound, settled⟩
  · exact elapsed
  · rw [found, Option.some.injEq] at otherFound
    subst otherFound
    rcases claimable_eq_true_iff.mp free with pending | ⟨running, expired⟩
    · rcases settled with done | ⟨running, _⟩
      · simp [pending] at done
      · simp [pending] at running
    · rcases settled with done | ⟨_, lease⟩
      · simp [running] at done
      · exact elapsed_of_expiry_lt (expired _ lease)

/-- Every step that does not fail the job keeps it held. -/
theorem held_step {id : Uuid} {claimedAt : Instant} (held : Held id claimedAt state)
    (unfailed : ∀ error, action ≠ .fail id error)
    (stepped : step serde state action = some next) : Held id claimedAt next := by
  cases action with
  | enqueue job =>
      cases stepped
      apply held.imp_right
      rintro ⟨row, found, settled⟩
      exact ⟨row, by simp [find?_enqueue, found], settled⟩
  | dequeue worker =>
      cases stepped
      have lookup : (dequeueNow serde state worker).1.find? id.toText = _ := find?_claimNext
      cases claimed : claimedRow .postgres state.jobs state.now with
      | none =>
          simp only [claimed] at lookup
          apply held.imp_right
          rintro ⟨row, found, settled⟩
          exact ⟨row, lookup.trans found, settled⟩
      | some other =>
          simp only [claimed] at lookup
          obtain ⟨member, free, _⟩ := of_claimedRow_eq_some claimed
          by_cases same : other.id = id.toText
          · -- the held row itself is chosen: its lease is over
            have found : state.jobs.find? id.toText = some other :=
              Table.find?_eq_some_iff.mpr ⟨member, same⟩
            exact Or.inl (held.elapsed found free)
          · rw [if_neg same] at lookup
            apply held.imp_right
            rintro ⟨row, found, settled⟩
            exact ⟨row, lookup.trans found, settled⟩
  | complete job result =>
      cases stepped
      apply held.imp_right
      rintro ⟨row, found, settled⟩
      refine ⟨_, by rw [find?_complete, found]; rfl, ?_⟩
      by_cases same : row.id = job.toText
      · simp [same]
      · simpa [same] using settled
  | fail job error =>
      cases stepped
      apply held.imp_right
      rintro ⟨row, found, settled⟩
      have rowId : row.id = id.toText := (Table.find?_eq_some_iff.mp found).2
      have different : row.id ≠ job.toText := by
        intro same
        have sameJob : job = id := Uuid.toText_injective (same.symm.trans rowId)
        exact unfailed error (by rw [sameJob])
      exact ⟨row, by simp [find?_fail, found, different], settled⟩
  | advance nanoseconds =>
      cases stepped
      refine held.imp_left fun elapsed => ?_
      exact lt_of_lt_of_le elapsed (Int.le_add_of_nonneg_right (Int.natCast_nonneg nanoseconds))
  | reorder _ =>
      cases stepped
      apply held.imp_right
      rintro ⟨row, found, settled⟩
      exact ⟨row, by simpa using found, settled⟩

theorem held_of_run {id : Uuid} {claimedAt : Instant} {actions : List Action}
    (held : Held id claimedAt state) (unfailed : ∀ error, .fail id error ∉ actions)
    (reached : run (step serde) state actions = some next) : Held id claimedAt next := by
  induction actions generalizing state with
  | nil =>
      cases reached
      exact held
  | cons action rest inductionHypothesis =>
      obtain ⟨middle, stepped, later⟩ := run_cons_eq_some_iff.mp reached
      refine inductionHypothesis (held_step held ?_ stepped) ?_ later
      · rintro error rfl
        exact unfailed error (List.mem_cons_self ..)
      · intro error membership
        exact unfailed error (List.mem_cons_of_mem _ membership)

section Returned

variable {worker : String} {row : Row} {job : Job}

theorem jobOfRow_claim (roundTrip : ∀ kind, serde.decodeKind kind.toJson = .ok kind)
    (written : Written row) (counted : Backend.postgres.canCount row.attempts = true)
    (expiry : Int) (worker : String) :
    ∃ job, jobOfRow .postgres serde (claim expiry worker row) = .ok job ∧
      job.id.toText = row.id := by
  obtain ⟨⟨id, imageId, kind, sameId, sameImage, sameKind⟩, reads⟩ := written
  have decoded : serde.decodeKind (claim expiry worker row).kind = .ok kind := by
    rw [← roundTrip kind, ← sameKind]
    rfl
  have counts : ReadsAttempts (claim expiry worker row).attempts :=
    readsAttempts_succ reads counted
  exact ⟨_, jobOfRow_of_decodes sameId sameImage decoded rfl counts, sameId.symm⟩

theorem of_dequeueNow_eq_some (written : ∀ row ∈ state.jobs, Written row)
    (returned : (dequeueNow serde state worker).2 = .ok (some job)) :
    ∃ row, claimedRow .postgres state.jobs state.now = some row ∧ job.id.toText = row.id := by
  obtain ⟨row, claimed, decoded⟩ := of_dequeue_eq_some returned
  refine ⟨row, claimed, ?_⟩
  obtain ⟨⟨id, _, _, sameId, _, _⟩, _⟩ := written row (of_claimedRow_eq_some claimed).1
  have parsed : Uuid.parseStr row.id = some job.id := (decodes_of_jobOfRow decoded).id
  rw [sameId, Uuid.parseStr_toText, Option.some.injEq] at parsed
  rw [← parsed, sameId]

theorem held_after_dequeue (written : ∀ row ∈ state.jobs, Written row)
    (returned : (dequeueNow serde state worker).2 = .ok (some job))
    (stepped : step serde state (.dequeue worker) = some next) :
    Held job.id state.now next := by
  obtain ⟨row, claimed, sameId⟩ := of_dequeueNow_eq_some written returned
  cases stepped
  have lookup : (dequeueNow serde state worker).1.find? job.id.toText = _ := find?_claimNext
  simp only [claimed, sameId, if_true] at lookup
  exact Or.inr ⟨_, by rw [sameId]; exact lookup, Or.inr ⟨rfl, rfl⟩⟩

/-- Two claims of one job are separated by a failure of it or by the lease. -/
theorem fail_or_elapsed {between : List Action} {claimed second : State} {other : String}
    {again : Job} (written : ∀ row ∈ state.jobs, Written row)
    (returned : (dequeueNow serde state worker).2 = .ok (some job))
    (stepped : step serde state (.dequeue worker) = some claimed)
    (reached : run (step serde) claimed between = some second)
    (returnedAgain : (dequeueNow serde second other).2 = .ok (some again))
    (sameJob : again.id = job.id) :
    (∃ error, .fail job.id error ∈ between) ∨
      state.now + seconds defaultLeaseSecs < second.now := by
  by_cases failed : ∃ error, .fail job.id error ∈ between
  · exact Or.inl failed
  · have unfailed : ∀ error, .fail job.id error ∉ between :=
      fun error membership => failed ⟨error, membership⟩
    have held : Held job.id state.now second :=
      held_of_run (held_after_dequeue written returned stepped) unfailed reached
    have stillWritten : ∀ row ∈ second.jobs, Written row :=
      written_of_run (written_step written stepped) reached
    obtain ⟨row, claimed, sameId⟩ := of_dequeueNow_eq_some stillWritten returnedAgain
    obtain ⟨member, free, _⟩ := of_claimedRow_eq_some claimed
    have found : second.jobs.find? job.id.toText = some row :=
      Table.find?_eq_some_iff.mpr ⟨member, by rw [← sameId, sameJob]⟩
    exact Or.inr (held.elapsed found free)

end Returned

/-- A row that `dequeue` may take: pending, or running with an expired or missing lease. -/
def Available (now : Instant) (row : Row) : Prop :=
  row.status = .pending ∨
    (row.status = .running ∧ (row.leaseExpiresAt = none ∨
      ∃ expiry, row.leaseExpiresAt = some expiry ∧ expiry < Backend.postgres.now now))

theorem claimable_iff_available {now : Instant} {row : Row} :
    claimable (Backend.postgres.now now) row = true ↔ Available now row := by
  rw [claimable_eq_true_iff]
  cases lease : row.leaseExpiresAt <;> simp [Available, lease]

theorem dequeueNow_eq_none_iff {worker : String} :
    (dequeueNow serde state worker).2 = .ok none ↔
      ¬ ∃ row ∈ state.jobs, Available state.now row := by
  simp only [dequeueNow, dequeue_eq_none_iff, nextJob_eq_none_iff, ← claimable_iff_available,
    not_exists, not_and, Bool.not_eq_true]

/-- No available job was enqueued before this one. -/
def Oldest (state : State) (row : Row) : Prop :=
  row ∈ state.jobs ∧ Available state.now row ∧
    ∀ other ∈ state.jobs, Available state.now other → row.enqueuedAt ≤ other.enqueuedAt

/-- When a job is available, `dequeue` returns one of the oldest. -/
def TakesOldest (serde : Serde) (state : State) (worker : String) : Prop :=
  (∃ row ∈ state.jobs, Available state.now row) →
    ∃ row, Oldest state row ∧ ∃ job, (dequeueNow serde state worker).2 = .ok (some job) ∧
      job.id.toText = row.id

/-- The column can count one more claim of every job that `dequeue` may choose. -/
def Countable (state : State) : Prop :=
  ∀ row, Oldest state row → row.attempts < Backend.maxInteger

theorem oldest_of_nextJob {row : Row}
    (chosen : nextJob state.jobs (Backend.postgres.now state.now) = some row) :
    Oldest state row := by
  obtain ⟨member, free, least⟩ := of_nextJob_eq_some chosen
  refine ⟨member, claimable_iff_available.mp free, ?_⟩
  intro other otherMember otherFree
  exact least other otherMember (claimable_iff_available.mpr otherFree)

theorem takesOldest_of_countable (roundTrip : ∀ kind, serde.decodeKind kind.toJson = .ok kind)
    (written : ∀ row ∈ state.jobs, Written row) (countable : Countable state) (worker : String) :
    TakesOldest serde state worker := by
  rintro ⟨available, member, free⟩
  cases chosen : nextJob state.jobs (Backend.postgres.now state.now) with
  | none =>
      have unclaimable := nextJob_eq_none_iff.mp chosen available member
      rw [← claimable_iff_available, unclaimable] at free
      cases free
  | some row =>
      have oldest := oldest_of_nextJob chosen
      have counted : Backend.postgres.canCount row.attempts = true :=
        decide_eq_true (countable row oldest)
      obtain ⟨job, decoded, sameId⟩ := jobOfRow_claim roundTrip (written row oldest.1) counted
        (Backend.postgres.expiry state.now defaultLeaseSecs) worker
      have claimed := claimedRow_eq_some_iff.mpr ⟨chosen, counted⟩
      exact ⟨row, oldest, job, dequeue_of_claimedRow claimed decoded, sameId⟩

/-- Nothing is taken when the job that is chosen cannot be counted. -/
theorem attempts_lt_of_takesOldest {row : Row} {worker : String}
    (chosen : nextJob state.jobs (Backend.postgres.now state.now) = some row)
    (takes : TakesOldest serde state worker) : row.attempts < Backend.maxInteger := by
  have oldest := oldest_of_nextJob chosen
  obtain ⟨_, _, job, returned, _⟩ := takes ⟨row, oldest.1, oldest.2.1⟩
  obtain ⟨claimedRow, claimed, _⟩ := of_dequeue_eq_some returned
  obtain ⟨next, counted⟩ := claimedRow_eq_some_iff.mp claimed
  rw [chosen, Option.some.injEq] at next
  subst next
  exact of_decide_eq_true counted

/-- A scan that comes to an oldest job first chooses it. -/
theorem nextJob_of_scanned_first {jobs : JobsTable Int} {row : Row} {rest : List Row} {now : Int}
    (scanned : jobs.rows = row :: rest) (free : claimable now row = true)
    (least : ∀ other ∈ jobs, claimable now other = true → row.enqueuedAt ≤ other.enqueuedAt) :
    nextJob jobs now = some row := by
  unfold nextJob
  rw [scanned, List.filter_cons_of_pos free, List.argmin_cons]
  cases other : (rest.filter (claimable now)).argmin JobsRow.enqueuedAt with
  | none => rfl
  | some found =>
      obtain ⟨member, foundFree⟩ := List.mem_filter.mp (List.argmin_mem other)
      have present : found ∈ jobs := by
        change found ∈ jobs.rows
        rw [scanned]
        exact List.mem_cons_of_mem _ member
      exact if_neg (not_lt.mpr (least found present foundFree))

theorem oldest_reorder {rows : List Row} (permuted : rows.Perm state.jobs.rows) {row : Row} :
    Oldest { state with jobs := state.jobs.reorder rows permuted } row ↔ Oldest state row := by
  simp only [Oldest, Table.mem_reorder]

/-- In whatever order the server scans the rows, `dequeue` takes one of the oldest jobs, if and
only if the claims of all of them can be counted. -/
theorem takesOldest_iff_countable
    (roundTrip : ∀ kind, serde.decodeKind kind.toJson = .ok kind)
    (written : ∀ row ∈ state.jobs, Written row) (worker : String) :
    (∀ rows (permuted : rows.Perm state.jobs.rows),
      TakesOldest serde { state with jobs := state.jobs.reorder rows permuted } worker) ↔
      Countable state := by
  constructor
  · intro takes row oldest
    obtain ⟨before, after, split⟩ := List.append_of_mem oldest.1
    have permuted : (row :: (before ++ after)).Perm state.jobs.rows := by
      rw [split]
      exact List.perm_middle.symm
    refine attempts_lt_of_takesOldest ?_ (takes _ permuted)
    obtain ⟨_, free, least⟩ := (oldest_reorder permuted).mpr oldest
    refine nextJob_of_scanned_first rfl (claimable_iff_available.mpr free) ?_
    intro other member otherFree
    exact least other member (claimable_iff_available.mp otherFree)
  · intro countable rows permuted
    apply takesOldest_of_countable roundTrip
    · intro row member
      simp only [Table.mem_reorder] at member
      exact written row member
    · intro row oldest
      exact countable row ((oldest_reorder permuted).mp oldest)

/-- Claims are exclusive for the length of a lease and nothing available is missed; and jobs leave
in the order they were enqueued, whatever order the server scans them in, exactly when the claims of
the oldest ones can be counted. -/
theorem exclusive_claims (serde : Serde)
    (roundTrip : ∀ kind, serde.decodeKind kind.toJson = .ok kind)
    (start : Instant) (before : List Action) (first : State)
    (reached : run (step serde) ⟨.empty _, start⟩ before = some first) (worker : String) :
    (∀ claimed between second other job again,
      (dequeueNow serde first worker).2 = .ok (some job) →
      step serde first (.dequeue worker) = some claimed →
      run (step serde) claimed between = some second →
      (dequeueNow serde second other).2 = .ok (some again) → again.id = job.id →
      (∃ error, .fail job.id error ∈ between) ∨
        first.now + seconds defaultLeaseSecs < second.now) ∧
    ((dequeueNow serde first worker).2 = .ok none ↔
      ¬ ∃ row ∈ first.jobs, Available first.now row) ∧
    ((∀ rows (permuted : rows.Perm first.jobs.rows),
      TakesOldest serde { first with jobs := first.jobs.reorder rows permuted } worker) ↔
      Countable first) := by
  have written : ∀ row ∈ first.jobs, Written row :=
    written_of_run (fun row member => absurd member (Table.not_mem_empty row)) reached
  refine ⟨?_, dequeueNow_eq_none_iff, takesOldest_iff_countable roundTrip written worker⟩
  intro claimed between second other job again returned stepped reachedAgain returnedAgain sameJob
  exact fail_or_elapsed written returned stepped reachedAgain returnedAgain sameJob

def sampleSerde : Serde where
  decodeKind := JobKind.ofJson
  encodeResult _ := ""

def sampleJob : Job := ⟨⟨1⟩, ⟨2⟩, .generateThumbnail 256, 0, 1000000⟩

def sampleState : State := ⟨enqueue .postgres (.empty _) sampleJob, 0⟩

/-- A worker claims the sample job; whoever gets it again does so after a failure of it
or more than 300 s later. -/
theorem sample_claimed_exclusively :
    run (step sampleSerde) ⟨.empty _, 0⟩ [.enqueue sampleJob] = some sampleState ∧
      (dequeueNow sampleSerde sampleState "first").2 = .ok (some { sampleJob with attempts := 1 }) ∧
      ∀ between second again,
        run (step sampleSerde) ⟨(dequeueNow sampleSerde sampleState "first").1, 0⟩ between =
          some second →
        (dequeueNow sampleSerde second "second").2 = .ok (some again) → again.id = sampleJob.id →
        (∃ error, .fail sampleJob.id error ∈ between) ∨ 0 + seconds 300 < second.now := by
  have returned : (dequeueNow sampleSerde sampleState "first").2 =
      .ok (some { sampleJob with attempts := 1 }) := by decide
  refine ⟨rfl, returned, ?_⟩
  intro between second again reached returnedAgain sameJob
  have exclusive := (exclusive_claims sampleSerde JobKind.ofJson_toJson 0 [.enqueue sampleJob]
    sampleState rfl "first").1
  exact exclusive _ between second "second" { sampleJob with attempts := 1 } again returned rfl
    reached returnedAgain sameJob

def fullJob : Job := { sampleJob with attempts := 2147483647 }

def fullState : State := ⟨enqueue .postgres (.empty _) fullJob, 0⟩

/-- The job enqueued with the largest count is available, and no dequeue returns it. -/
theorem full_count_stuck :
    run (step sampleSerde) ⟨.empty _, 0⟩ [.enqueue fullJob] = some fullState ∧
      (∃ row ∈ fullState.jobs, Available fullState.now row) ∧
      ∀ worker, ¬ TakesOldest sampleSerde fullState worker := by
  have available : rowOfJob .postgres fullJob ∈ fullState.jobs := List.mem_singleton_self _
  refine ⟨rfl, ⟨_, available, Or.inl rfl⟩, ?_⟩
  intro worker takes
  have chosen : nextJob fullState.jobs (Backend.postgres.now fullState.now) =
      some (rowOfJob .postgres fullJob) := rfl
  exact absurd (attempts_lt_of_takesOldest chosen takes) (by decide)

end Picroom.Exclusive
