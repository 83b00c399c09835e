import Mathlib.Logic.Function.Basic
import Picroom.Transition.Run
import Picroom.Worker.Queue

/-!
# Worker pool

The loop of `WorkerPool::run_into` for any number of slots, in any number of processes,
over one `jobs` table.  Each statement is one step; handlers may take any time, a process
may go down between two statements and come back, and any statement may fail.

`step_effect` says once what a step can do to the rows and to the claims the slots hold;
what follows about whole runs is derived from it.
-/

namespace Picroom

open Relational

inductive RetryStrategy where
  | none
  | fixed
  | exponential
  | linear
  deriving DecidableEq

structure RetryPolicy where
  maxAttempts : UInt32 := .ofNat Picroom.maxAttempts
  initialDelaySecs : UInt64 := 1
  maxDelaySecs : UInt64 := 60
  strategy : RetryStrategy := .exponential

/-- `u64` arithmetic that stops at the largest value. -/
def saturate (value : Nat) : UInt64 := .ofNat (min value (2 ^ 64 - 1))

def RetryPolicy.delaySecs (policy : RetryPolicy) (attempt : UInt32) : UInt64 :=
  let base := policy.initialDelaySecs
  match policy.strategy with
  | .none => 0
  | .fixed => min base policy.maxDelaySecs
  | .linear => min (saturate (base.toNat * attempt.toNat)) policy.maxDelaySecs
  | .exponential => min (saturate (base.toNat ^ min attempt.toNat 10)) policy.maxDelaySecs

structure DlqEntry where
  jobId : Uuid
  error : String
  attempts : UInt32
  movedAt : Instant
  deriving DecidableEq

namespace WorkerPool

structure Config (Stamp : Type) where
  backend : Backend Stamp
  serde : Serde
  leaseSecs : Int := defaultLeaseSecs
  policy : RetryPolicy := {}

/-- A delivery: the row `dequeue` returned and the job it decoded to. -/
structure Delivery (Stamp : Type) where
  row : JobsRow Stamp
  job : Job

/-- Where a slot is in its loop. -/
inductive Slot (Stamp : Type) where
  | down
  | idle (wakeAt : Instant)
  | handling (delivery : Delivery Stamp)
  | completing (delivery : Delivery Stamp) (result : JobResult)
  | burying (delivery : Delivery Stamp) (error : String)
  | failing (delivery : Delivery Stamp) (error : String)

variable {Stamp : Type}

def Slot.delivery? : Slot Stamp → Option (Delivery Stamp)
  | .down | .idle _ => none
  | .handling delivery | .completing delivery _ | .burying delivery _ | .failing delivery _ =>
      some delivery

structure State (Stamp : Type) where
  jobs : JobsTable Stamp
  now : Instant
  slots : Nat → Slot Stamp
  dlq : List DlqEntry := []

inductive Action (Stamp : Type) where
  | enqueue (job : Job)
  | start (slot : Nat)
  | stop (slot : Nat)
  | crash (slot : Nat)
  | dequeue (slot : Nat) (worker : String)
  | finish (slot : Nat) (outcome : Except String JobResult)
  | complete (slot : Nat)
  | pushDlq (slot : Nat) (accepted : Bool)
  | fail (slot : Nat)
  | queueError (slot : Nat)
  | advance (nanoseconds : Nat)
  | reorder (permute : (rows : List (JobsRow Stamp)) →
      { result : List (JobsRow Stamp) // result.Perm rows })

def exhausted (config : Config Stamp) (job : Job) : Bool :=
  config.policy.maxAttempts ≤ job.attempts

/-- When a slot that executed `fail` asks for the next job. -/
def wakeAfterFailure (config : Config Stamp) (job : Job) (now : Instant) : Instant :=
  if exhausted config job then now
  else now + seconds (config.policy.delaySecs job.attempts).toNat

def State.setSlot (state : State Stamp) (slot : Nat) (value : Slot Stamp) : State Stamp :=
  { state with slots := Function.update state.slots slot value }

/-- What a slot does with the answer of `dequeue`. -/
def received (config : Config Stamp) (now : Instant) :
    Except JobError (Option (JobsRow Stamp)) → Slot Stamp
  | .error _ => .idle (now + seconds 1)
  | .ok none => .idle (now + 200000000)
  | .ok (some row) =>
    match JobQueue.jobOfRow config.backend config.serde row with
    | .error _ => .idle (now + seconds 1)
    | .ok job => .handling ⟨row, job⟩

def step [LinearOrder Stamp] (config : Config Stamp) (state : State Stamp) :
    Action Stamp → Option (State Stamp)
  | .enqueue job => some { state with jobs := JobQueue.enqueue config.backend state.jobs job }
  | .start slot =>
    match state.slots slot with
    | .down => some (state.setSlot slot (.idle state.now))
    | _ => none
  | .stop slot =>
    match state.slots slot with
    | .idle _ => some (state.setSlot slot .down)
    | _ => none
  | .crash slot => some (state.setSlot slot .down)
  | .dequeue slot worker =>
    match state.slots slot with
    | .idle wakeAt =>
      if wakeAt ≤ state.now then
        let row := JobQueue.returnedRow config.backend config.leaseSecs worker state.jobs state.now
        let jobs := (JobQueue.dequeue config.backend config.serde config.leaseSecs worker
          state.jobs state.now).1
        some ({ state with jobs }.setSlot slot (received config state.now row))
      else none
    | _ => none
  | .finish slot outcome =>
    match state.slots slot, outcome with
    | .handling delivery, .ok result => some (state.setSlot slot (.completing delivery result))
    | .handling delivery, .error error =>
      if exhausted config delivery.job then some (state.setSlot slot (.burying delivery error))
      else some (state.setSlot slot (.failing delivery error))
    | _, _ => none
  | .complete slot =>
    match state.slots slot with
    | .completing delivery result =>
      let jobs := JobQueue.complete config.serde state.jobs delivery.job.id result
      some ({ state with jobs }.setSlot slot (.idle state.now))
    | _ => none
  | .pushDlq slot accepted =>
    match state.slots slot with
    | .burying delivery error =>
      let entry : DlqEntry := ⟨delivery.job.id, error, delivery.job.attempts, state.now⟩
      let dlq := if accepted then state.dlq ++ [entry] else state.dlq
      some ({ state with dlq }.setSlot slot (.failing delivery error))
    | _ => none
  | .fail slot =>
    match state.slots slot with
    | .failing delivery error =>
      let jobs := JobQueue.fail state.jobs delivery.job.id error
      some ({ state with jobs }.setSlot slot
        (.idle (wakeAfterFailure config delivery.job state.now)))
    | _ => none
  -- the statement the slot is about to send fails without an effect
  | .queueError slot =>
    match state.slots slot with
    | .idle wakeAt =>
      if wakeAt ≤ state.now then some (state.setSlot slot (.idle (state.now + seconds 1)))
      else none
    | .completing _ _ => some (state.setSlot slot (.idle state.now))
    | .failing delivery _ =>
      some (state.setSlot slot (.idle (wakeAfterFailure config delivery.job state.now)))
    | _ => none
  | .advance nanoseconds => some { state with now := state.now + nanoseconds }
  | .reorder permute =>
    some { state with
      jobs := state.jobs.reorder (permute state.jobs.rows).1 (permute state.jobs.rows).2 }

def Holds (state : State Stamp) (slot : Nat) (delivery : Delivery Stamp) : Prop :=
  (state.slots slot).delivery? = some delivery

theorem holds_setSlot {state : State Stamp} {slot other : Nat} {value : Slot Stamp}
    {delivery : Delivery Stamp} :
    Holds (state.setSlot slot value) other delivery ↔
      (other = slot ∧ value.delivery? = some delivery) ∨
        (other ≠ slot ∧ Holds state other delivery) := by
  unfold Holds State.setSlot
  by_cases same : other = slot
  · subst same
    simp
  · simp [same]

theorem row_of_received {config : Config Stamp} {now : Instant}
    {answer : Except JobError (Option (JobsRow Stamp))} {delivery : Delivery Stamp}
    (taken : (received config now answer).delivery? = some delivery) :
    answer = .ok (some delivery.row) := by
  unfold received at taken
  split at taken
  next => cases taken
  next => cases taken
  next =>
    split at taken
    next => cases taken
    next =>
      cases taken
      rfl

section Effect

variable [LinearOrder Stamp]

/-- A slot handles exactly the job that `dequeue` returns. -/
theorem received_handling_iff {config : Config Stamp} {worker : String} {jobs : JobsTable Stamp}
    {now : Instant} {job : Job} :
    (JobQueue.dequeue config.backend config.serde config.leaseSecs worker jobs now).2 =
        .ok (some job) ↔
      ∃ row, received config now
        (JobQueue.returnedRow config.backend config.leaseSecs worker jobs now) =
          .handling ⟨row, job⟩ := by
  simp only [JobQueue.dequeue]
  cases JobQueue.returnedRow config.backend config.leaseSecs worker jobs now with
  | error _ => simp [received]
  | ok answer =>
      cases answer with
      | none => simp [received]
      | some row =>
          cases decoded : JobQueue.jobOfRow config.backend config.serde row with
          | error _ => simp [received, decoded, Except.map]
          | ok _ => simp [received, decoded, Except.map]

/-- What a step can do to the rows and to the unsettled deliveries. -/
inductive Effect (config : Config Stamp) (state : State Stamp) (action : Action Stamp)
    (next : State Stamp) : Prop where
  | keeps (quiet : ∀ slot worker, action ≠ .dequeue slot worker)
      (rows : ∀ id, next.jobs.find? id = state.jobs.find? id)
      (held : ∀ slot delivery, Holds next slot delivery → Holds state slot delivery)
  | enqueues (job : Job) (enqueued : action = .enqueue job)
      (rows : next.jobs = JobQueue.enqueue config.backend state.jobs job)
      (held : ∀ slot delivery, Holds next slot delivery → Holds state slot delivery)
  | claims (slot : Nat) (worker : String) (dequeued : action = .dequeue slot worker)
      (rows : next.jobs = JobQueue.claimNext config.backend config.leaseSecs worker state.jobs
        state.now)
      (held : ∀ other delivery, Holds next other delivery →
        (other ≠ slot ∧ Holds state other delivery) ∨
          (other = slot ∧ JobQueue.returnedRow config.backend config.leaseSecs worker state.jobs
            state.now = .ok (some delivery.row)))
  | completes (slot : Nat) (delivery : Delivery Stamp) (completed : action = .complete slot)
      (holds : Holds state slot delivery) (result : JobResult)
      (rows : next.jobs = JobQueue.complete config.serde state.jobs delivery.job.id result)
      (held : ∀ other another, Holds next other another → other ≠ slot ∧ Holds state other another)
  | fails (slot : Nat) (delivery : Delivery Stamp) (failed : action = .fail slot)
      (holds : Holds state slot delivery) (error : String)
      (rows : next.jobs = JobQueue.fail state.jobs delivery.job.id error)
      (held : ∀ other another, Holds next other another → other ≠ slot ∧ Holds state other another)

variable {config : Config Stamp} {state next : State Stamp} {action : Action Stamp}

theorem Effect.of_setSlot {slot : Nat} {value : Slot Stamp}
    (quiet : ∀ slot worker, action ≠ .dequeue slot worker)
    (kept : ∀ delivery, value.delivery? = some delivery → Holds state slot delivery) :
    Effect config state action (state.setSlot slot value) := by
  refine .keeps quiet (fun _ => rfl) ?_
  intro other delivery holds
  rcases holds_setSlot.mp holds with ⟨rfl, taken⟩ | ⟨_, before⟩
  · exact kept delivery taken
  · exact before

theorem step_effect (stepped : step config state action = some next) :
    Effect config state action next := by
  cases action with
  | enqueue job =>
      cases stepped
      exact .enqueues job rfl rfl (fun _ _ holds => holds)
  | start slot =>
      simp only [step] at stepped
      split at stepped
      next =>
        cases stepped
        exact .of_setSlot (by simp) (fun _ taken => by cases taken)
      next => cases stepped
  | stop slot =>
      simp only [step] at stepped
      split at stepped
      next =>
        cases stepped
        exact .of_setSlot (by simp) (fun _ taken => by cases taken)
      next => cases stepped
  | crash slot =>
      cases stepped
      exact .of_setSlot (by simp) (fun _ taken => by cases taken)
  | dequeue slot worker =>
      simp only [step] at stepped
      split at stepped
      next =>
        split at stepped
        next =>
          cases stepped
          refine .claims slot worker rfl rfl ?_
          intro other delivery holds
          rcases holds_setSlot.mp holds with ⟨same, taken⟩ | different
          · exact Or.inr ⟨same, row_of_received taken⟩
          · exact Or.inl different
        next => cases stepped
      next => cases stepped
  | finish slot outcome =>
      simp only [step] at stepped
      split at stepped
      next delivery result handling =>
        cases stepped
        exact .of_setSlot (by simp) (fun _ taken => by rw [Holds, handling]; exact taken)
      next delivery error handling =>
        split at stepped
        next =>
          cases stepped
          exact .of_setSlot (by simp) (fun _ taken => by rw [Holds, handling]; exact taken)
        next =>
          cases stepped
          exact .of_setSlot (by simp) (fun _ taken => by rw [Holds, handling]; exact taken)
      next => cases stepped
  | complete slot =>
      simp only [step] at stepped
      split at stepped
      next delivery result completing =>
        cases stepped
        refine .completes slot delivery rfl (by rw [Holds, completing]; rfl) result rfl ?_
        intro other another holds
        rcases holds_setSlot.mp holds with ⟨_, taken⟩ | different
        · cases taken
        · exact different
      next => cases stepped
  | pushDlq slot accepted =>
      simp only [step] at stepped
      split at stepped
      next delivery error burying =>
        cases stepped
        refine .keeps (by simp) (fun _ => rfl) ?_
        intro other another holds
        rcases holds_setSlot.mp holds with ⟨rfl, taken⟩ | ⟨_, before⟩
        · rw [Holds, burying]
          exact taken
        · exact before
      next => cases stepped
  | fail slot =>
      simp only [step] at stepped
      split at stepped
      next delivery error failing =>
        cases stepped
        refine .fails slot delivery rfl (by rw [Holds, failing]; rfl) error rfl ?_
        intro other another holds
        rcases holds_setSlot.mp holds with ⟨_, taken⟩ | different
        · cases taken
        · exact different
      next => cases stepped
  | queueError slot =>
      simp only [step] at stepped
      split at stepped
      next =>
        split at stepped
        next =>
          cases stepped
          exact .of_setSlot (by simp) (fun _ taken => by cases taken)
        next => cases stepped
      next =>
        cases stepped
        exact .of_setSlot (by simp) (fun _ taken => by cases taken)
      next =>
        cases stepped
        exact .of_setSlot (by simp) (fun _ taken => by cases taken)
      next => cases stepped
  | advance nanoseconds =>
      cases stepped
      exact .keeps (by simp) (fun _ => rfl) (fun _ _ holds => holds)
  | reorder permute =>
      cases stepped
      exact .keeps (by simp) (fun _ => by simp) (fun _ _ holds => holds)

end Effect

def sampleConfig : Config Int where
  backend := .postgres
  serde := ⟨JobKind.ofJson, fun _ => ""⟩

def thumbnailJob : Job := ⟨⟨1⟩, ⟨2⟩, .generateThumbnail 256, 0, 0⟩

def onePending : State Int where
  jobs := JobQueue.enqueue .postgres (.empty _) thumbnailJob
  now := 0
  slots _ := .down

end WorkerPool

end Picroom
