import Picroom.Session.Administration

/-!
# The trail of administration

The role and the flag of an account are what they were, what a provider's callback gave, or what a
call of an administrator set.  Such a call is in the audit log once it is answered with success; a
change that is not in the log is on its way there, or its call was answered with an error.
-/

namespace Picroom.Administration

open Relational Transition SessionRepository AuthHandlers AdminHandlers Lockout

/-- An auditor reads the event as the change. -/
def Tells (config : Config) (change : Change) (event : AuditEvent) : Prop :=
  event.action = change.action ∧ event.targetType = "user" ∧
    event.targetId = some change.userId.toText ∧ event.metadata = config.json change.metadata

/-- The log holds an event of the change that was not there at the start. -/
def Recorded (config : Config) (start state : State) (change : Change) : Prop :=
  ∃ row ∈ state.log, row ∉ start.log ∧ Tells config change (Audit.eventFromRow row)

/-- The call is in a phase in which its change is not in the log. -/
def Holds (phase : Option CallPhase) (change : Change) : Prop :=
  (∃ actor, phase = some (.cascading actor change)) ∨
    (∃ actor, phase = some (.unrecorded actor change)) ∨
    ∃ error, phase = some (.answered (some change) (.error error))

/-- A call has made the change and has not been answered with success. -/
def Unanswered (state : State) (change : Change) : Prop :=
  ∃ request, Holds (state.calls request) change

def Told (config : Config) (start state : State) (change : Change) : Prop :=
  Recorded config start state change ∨ Unanswered state change

/-- The change leaves the account with the role. -/
def SetsRole (role : String) : Change → Prop
  | .created _ _ given => given = role
  | .roleSet _ given => given.asStr = role
  | .disabledSet _ _ => False

/-- One of the actions is a callback for the identity that adds the account. -/
def Provisioned (config : Config) (start : State) (actions : List Action)
    (identity : OidcIdentity) (userId : Uuid) : Prop :=
  ∃ before request after middle next,
    actions = before ++ .oidcCallback request identity userId :: after ∧
      run (step config) start before = some middle ∧
      step config middle (.oidcCallback request identity userId) = some next ∧
      (∀ old ∈ middle.users, old.id ≠ userId) ∧ ∃ added ∈ next.users, added.id = userId

/-- Where the role and the flag of an account come from. -/
structure Accounted (config : Config) (start : State) (actions : List Action) (state : State)
    (row : UserRow) : Prop where
  role : (∃ old ∈ start.users, old.id = row.id ∧ old.role = row.role) ∨
    (∃ identity, Provisioned config start actions identity row.id ∧
      row.role = provisionRole identity.email config.adminEmails) ∨
    ∃ change, change.userId = row.id ∧ SetsRole row.role change ∧ Told config start state change
  flag : (∃ old ∈ start.users, old.id = row.id ∧ old.disabled = row.disabled) ∨
    (row.disabled = false ∧ ((∃ identity, Provisioned config start actions identity row.id) ∨
      ∃ email role, Told config start state (.created row.id email role))) ∨
    Told config start state (.disabledSet row.id row.disabled)

variable {config : Config} {start state next : State} {taken : List Action} {action : Action}
  {row : UserRow}

section Moves

/-- What a step does to the accounts, the calls and the log. -/
inductive Moved (config : Config) (state : State) (action : Action) (next : State) : Prop where
  | quiet (users : next.users = state.users) (calls : next.calls = state.calls)
      (log : next.log = state.log)
  | provisioned (request : Nat) (identity : OidcIdentity) (freshId : Uuid)
      (called : action = .oidcCallback request identity freshId)
      (users : next.users =
        (oidcLookup config.adminEmails state.users state.links identity freshId state.now).1)
      (calls : next.calls = state.calls) (log : next.log = state.log)
  | refused (request : Nat) (error : ApiError) (idle : state.calls request = none)
      (users : next.users = state.users)
      (calls : next.calls = Function.update state.calls request
        (some (.answered none (.error error)))) (log : next.log = state.log)
  | made (request caller : Nat) (auth : AuthUser) (change : Change) (phase : CallPhase)
      (idle : state.calls request = none) (accepted : callerOf config state caller = .ok auth)
      (admin : Role.admin ∈ auth.roles) (applies : Applies state.users next.users change)
      (made : Made auth change phase)
      (calls : next.calls = Function.update state.calls request (some phase))
      (log : next.log = state.log)
  | cascaded (request : Nat) (actor : Uuid) (change : Change)
      (held : state.calls request = some (.cascading actor change))
      (users : next.users = state.users)
      (calls : next.calls = Function.update state.calls request (some (.unrecorded actor change)))
      (log : next.log = state.log)
  | recorded (request : Nat) (actor : Uuid) (change : Change) (eventId : Uuid)
      (outcome : Except ApiError Unit)
      (held : state.calls request = some (.unrecorded actor change))
      (users : next.users = state.users)
      (calls : next.calls = Function.update state.calls request
        (some (.answered (some change) outcome)))
      (fresh : ∀ old ∈ state.log, old.id ≠ eventId)
      (log : ∀ row, row ∈ next.log ↔ row ∈ state.log ∨
        row = event config state actor change eventId)
  | unrecorded (request : Nat) (actor : Uuid) (change : Change) (error : ApiError)
      (held : state.calls request = some (.unrecorded actor change))
      (users : next.users = state.users)
      (calls : next.calls = Function.update state.calls request
        (some (.answered (some change) (.error error)))) (log : next.log = state.log)
  | noted (written : AuditRow) (elsewhere : written.targetType ≠ "user")
      (users : next.users = state.users) (calls : next.calls = state.calls)
      (log : ∀ row, row ∈ next.log ↔ row ∈ state.log ∨ row = written)

/-- A row that fits no more leaves the log as it is. -/
theorem Moved.of_insert? (written : AuditRow) (elsewhere : written.targetType ≠ "user")
    (users : next.users = state.users) (calls : next.calls = state.calls)
    (log : next.log = (state.log.insert? written).getD state.log) :
    Moved config state action next := by
  cases inserted : state.log.insert? written with
  | none =>
      rw [inserted] at log
      exact .quiet users calls log
  | some table =>
      rw [inserted] at log
      refine .noted written elsewhere users calls ?_
      rw [log]
      exact (Table.mem_of_insert?_eq_some inserted).2

theorem row_of_insertAuthEvent {authEvent : AuthEvent} {eventId : Uuid} {log : AuditTable}
    (inserted : insertAuthEvent state authEvent eventId = some log) :
    ∃ written : AuditRow, written.targetType = "auth" ∧ state.log.insert? written = some log := by
  unfold insertAuthEvent at inserted
  split at inserted
  next =>
    obtain ⟨label, _, inserted⟩ := Option.bind_eq_some_iff.mp inserted
    exact ⟨_, rfl, inserted⟩
  next => cases inserted

theorem moved_of_step (stepped : step config state action = some next) :
    Moved config state action next := by
  cases action with
  | login request email password =>
      simp only [step] at stepped
      split at stepped
      next => cases stepped
      next =>
        cases stepped
        exact .quiet rfl rfl rfl
  | oidcCallback request identity freshId =>
      simp only [step] at stepped
      split at stepped
      next => cases stepped
      next =>
        cases stepped
        exact .provisioned request identity freshId rfl rfl rfl rfl
  | insertSession request sid =>
      simp only [step] at stepped
      split at stepped
      next =>
        split at stepped
        · cases stepped
          exact .quiet rfl rfl rfl
        · cases stepped
          exact .quiet rfl rfl rfl
      next => cases stepped
  | issueToken request =>
      simp only [step] at stepped
      split at stepped
      next =>
        cases stepped
        exact .quiet rfl rfl rfl
      next => cases stepped
  | call request caller call written =>
      obtain ⟨idle, ⟨error, rfl⟩ | ⟨auth, users, change, phase, accepted, performed, made, rfl⟩⟩ :=
        of_call stepped
      · exact .refused request error idle rfl rfl rfl
      · obtain ⟨admin, -, applies⟩ := of_perform performed
        exact .made request caller auth change phase idle accepted admin applies made rfl rfl
  | revokeAll request available =>
      simp only [step] at stepped
      split at stepped
      next actor change held =>
        cases stepped
        exact .cascaded request actor change held rfl rfl rfl
      next => cases stepped
  | record request eventId written =>
      simp only [step] at stepped
      split at stepped
      next actor change held =>
        split at stepped
        next log recorded =>
          cases stepped
          split at recorded
          next =>
            unfold recordEvent at recorded
            split at recorded
            next =>
              obtain ⟨fresh, members⟩ := Table.mem_of_insert?_eq_some recorded
              exact .recorded request actor change eventId _ held rfl rfl fresh members
            next => cases recorded
          next => cases recorded
        next =>
          cases stepped
          exact .unrecorded request actor change _ held rfl rfl rfl
      next => cases stepped
  | logout caller =>
      simp only [step] at stepped
      split at stepped
      next =>
        cases stepped
        exact .quiet rfl rfl rfl
      next =>
        split at stepped
        next =>
          cases stepped
          exact .quiet rfl rfl rfl
        next =>
          cases stepped
          exact .quiet rfl rfl rfl
  | auditAuth index eventId available =>
      simp only [step] at stepped
      split at stepped
      next => cases stepped
      next authEvent _ =>
        cases stepped
        cases inserted : (if available then insertAuthEvent state authEvent eventId else none) with
        | none => exact .quiet rfl rfl rfl
        | some log =>
            split at inserted
            next =>
              obtain ⟨written, isAuth, added⟩ := row_of_insertAuthEvent inserted
              refine .of_insert? written ?_ rfl rfl ?_
              · rw [isAuth]
                decide
              · rw [added]
            next => cases inserted
  | recordOther row =>
      simp only [step] at stepped
      split at stepped
      next other =>
        cases stepped
        refine .of_insert? row ?_ rfl rfl rfl
        intro isUser
        rw [isUser] at other
        exact absurd other (by decide)
      next => cases stepped
  | advance nanoseconds =>
      cases stepped
      exact .quiet rfl rfl rfl

end Moves

section Told

theorem tells_event (config : Config) (state : State) (actor : Uuid) (change : Change)
    (eventId : Uuid) :
    Tells config change (Audit.eventFromRow (event config state actor change eventId)) :=
  ⟨change.action.parse_asStr, rfl, rfl, rfl⟩

theorem holds_of_made {auth : AuthUser} {change : Change} {phase : CallPhase}
    (made : Made auth change phase) : Holds (some phase) change := by
  rcases made with rfl | ⟨error, rfl⟩
  · unfold phaseOf
    split
    next => exact Or.inl ⟨_, rfl⟩
    next => exact Or.inr (Or.inl ⟨_, rfl⟩)
  · exact Or.inr (Or.inr ⟨error, rfl⟩)

theorem log_of_moved (moved : Moved config state action next) :
    ∀ row ∈ state.log, row ∈ next.log := by
  intro row member
  cases moved with
  | recorded _ _ _ _ _ _ _ _ _ log => exact (log row).mpr (Or.inl member)
  | noted _ _ _ _ log => exact (log row).mpr (Or.inl member)
  | quiet _ _ log | provisioned _ _ _ _ _ _ log | refused _ _ _ _ _ log
  | made _ _ _ _ _ _ _ _ _ _ _ log | cascaded _ _ _ _ _ _ log | unrecorded _ _ _ _ _ _ _ log =>
      rw [log]
      exact member

theorem recorded_of_log {change : Change} (log : ∀ row ∈ state.log, row ∈ next.log)
    (recorded : Recorded config start state change) : Recorded config start next change := by
  obtain ⟨row, member, fields⟩ := recorded
  exact ⟨row, log row member, fields⟩

/-- An event that has just been written was not there at the start. -/
theorem recorded_of_written {actor eventId : Uuid} {change : Change}
    (kept : ∀ row ∈ start.log, row ∈ state.log) (fresh : ∀ old ∈ state.log, old.id ≠ eventId)
    (log : ∀ row, row ∈ next.log ↔ row ∈ state.log ∨
      row = event config state actor change eventId) : Recorded config start next change := by
  refine ⟨_, (log _).mpr (Or.inr rfl), ?_, tells_event config state actor change eventId⟩
  intro old
  exact fresh _ (kept _ old) rfl

/-- A call that goes on keeps what the other calls hold. -/
theorem told_of_update {request : Nat} {phase : CallPhase} {change : Change}
    (calls : next.calls = Function.update state.calls request (some phase))
    (log : ∀ row ∈ state.log, row ∈ next.log)
    (kept : Holds (state.calls request) change → Told config start next change)
    (told : Told config start state change) : Told config start next change := by
  rcases told with recorded | ⟨held, phases⟩
  · exact Or.inl (recorded_of_log log recorded)
  · by_cases same : held = request
    · subst same
      exact kept phases
    · refine Or.inr ⟨held, ?_⟩
      rw [calls, Function.update_of_ne same]
      exact phases

theorem unanswered_of_update {request : Nat} {phase : CallPhase} {change : Change}
    (calls : next.calls = Function.update state.calls request (some phase))
    (holds : Holds (some phase) change) : Told config start next change := by
  refine Or.inr ⟨request, ?_⟩
  rw [calls, Function.update_self]
  exact holds

/-- What is told stays told. -/
theorem told_of_moved (kept : ∀ row ∈ start.log, row ∈ state.log)
    (moved : Moved config state action next) {change : Change}
    (told : Told config start state change) : Told config start next change := by
  have log := log_of_moved moved
  have untouched : next.calls = state.calls → Told config start next change := by
    intro calls
    rcases told with recorded | ⟨held, phases⟩
    · exact Or.inl (recorded_of_log log recorded)
    · exact Or.inr ⟨held, by rw [calls]; exact phases⟩
  cases moved with
  | quiet _ calls _ | provisioned _ _ _ _ _ calls _ | noted _ _ _ calls _ => exact untouched calls
  | refused request error idle _ calls _ =>
      exact told_of_update calls log (fun holds => by simp [Holds, idle] at holds) told
  | made request caller auth other phase idle _ _ _ _ calls _ =>
      exact told_of_update calls log (fun holds => by simp [Holds, idle] at holds) told
  | cascaded request actor other held _ calls _ =>
      refine told_of_update calls log (fun holds => ?_) told
      have isOther : change = other := by simpa [Holds, held, eq_comm] using holds
      subst isOther
      exact unanswered_of_update calls (Or.inr (Or.inl ⟨actor, rfl⟩))
  | recorded request actor other eventId outcome held _ calls fresh written =>
      refine told_of_update calls log (fun holds => ?_) told
      have isOther : change = other := by simpa [Holds, held, eq_comm] using holds
      subst isOther
      exact Or.inl (recorded_of_written kept fresh written)
  | unrecorded request actor other error held _ calls _ =>
      refine told_of_update calls log (fun holds => ?_) told
      have isOther : change = other := by simpa [Holds, held, eq_comm] using holds
      subst isOther
      exact unanswered_of_update calls (Or.inr (Or.inr ⟨error, rfl⟩))

end Told

section Accounts

/-- Every account is accounted for, and every answered change is in the log. -/
structure Trail (config : Config) (start : State) (taken : List Action) (state : State) :
    Prop where
  log : ∀ row ∈ start.log, row ∈ state.log
  rows : ∀ row ∈ state.users, Accounted config start taken state row
  answered : ∀ request change,
    state.calls request = some (.answered (some change) (.ok ())) →
      Recorded config start state change

theorem Provisioned.append {identity : OidcIdentity} {userId : Uuid}
    (provisioned : Provisioned config start taken identity userId) (more : List Action) :
    Provisioned config start (taken ++ more) identity userId := by
  obtain ⟨before, request, after, middle, next, rfl, added⟩ := provisioned
  exact ⟨before, request, after ++ more, middle, next, by simp, added⟩

/-- What accounts for a row goes on to account for it. -/
theorem Accounted.step (accounted : Accounted config start taken state row)
    (kept : ∀ row ∈ start.log, row ∈ state.log) (moved : Moved config state action next) :
    Accounted config start (taken ++ [action]) next row where
  role := by
    rcases accounted.role with old | ⟨identity, provisioned, role⟩ | ⟨change, sameId, sets, told⟩
    · exact Or.inl old
    · exact Or.inr (Or.inl ⟨identity, provisioned.append _, role⟩)
    · exact Or.inr (Or.inr ⟨change, sameId, sets, told_of_moved kept moved told⟩)
  flag := by
    rcases accounted.flag with old | ⟨enabled, ⟨identity, provisioned⟩ | ⟨email, role, told⟩⟩ | told
    · exact Or.inl old
    · exact Or.inr (Or.inl ⟨enabled, Or.inl ⟨identity, provisioned.append _⟩⟩)
    · exact Or.inr (Or.inl ⟨enabled, Or.inr ⟨email, role, told_of_moved kept moved told⟩⟩)
    · exact Or.inr (Or.inr (told_of_moved kept moved told))

/-- The accounts after a change are accounted for by it. -/
theorem accounted_of_applies (trail : Trail config start taken state)
    (moved : Moved config state action next) {change : Change}
    (applies : Applies state.users next.users change) (told : Told config start next change)
    (member : row ∈ next.users) : Accounted config start (taken ++ [action]) next row := by
  cases change with
  | created userId email role =>
      obtain ⟨-, added, addedId, addedRole, enabled, members⟩ := applies
      rcases (members row).mp member with old | rfl
      · exact (trail.rows row old).step trail.log moved
      · refine ⟨Or.inr (Or.inr ⟨.created userId email role, addedId.symm, addedRole.symm, told⟩),
          Or.inr (Or.inl ?_)⟩
        rw [addedId]
        exact ⟨enabled, Or.inr ⟨email, role, told⟩⟩
  | roleSet userId role =>
      rw [applies] at member
      obtain ⟨old, present, sameId, sameFlag, sameRole⟩ := UserRepository.mem_setRole member
      have before := (trail.rows old present).step trail.log moved
      constructor
      · by_cases named : old.id = userId
        · rw [if_pos named] at sameRole
          exact Or.inr (Or.inr
            ⟨.roleSet userId role, (sameId.trans named).symm, sameRole.symm, told⟩)
        · rw [if_neg named] at sameRole
          rw [sameId, sameRole]
          exact before.role
      · rw [sameId, sameFlag]
        exact before.flag
  | disabledSet userId disabled =>
      rw [applies] at member
      obtain ⟨old, present, rfl⟩ := UserRepository.mem_setDisabled.mp member
      have before := (trail.rows old present).step trail.log moved
      by_cases named : old.id = userId
      · rw [if_pos named]
        refine ⟨before.role, Or.inr (Or.inr ?_)⟩
        rw [named]
        exact told
      · rw [if_neg named]
        exact before

/-- A call that becomes answered with success was just recorded. -/
theorem answered_of_moved (trail : Trail config start taken state)
    (moved : Moved config state action next) (request : Nat) (change : Change)
    (done : next.calls request = some (.answered (some change) (.ok ()))) :
    Recorded config start next change := by
  have before : state.calls request = some (.answered (some change) (.ok ())) →
      Recorded config start next change := fun held =>
    recorded_of_log (log_of_moved moved) (trail.answered request change held)
  have updated : ∀ {other phase}, next.calls = Function.update state.calls other (some phase) →
      (phase = .answered (some change) (.ok ()) → Recorded config start next change) →
        Recorded config start next change := by
    intro other phase calls here
    rw [calls] at done
    by_cases same : request = other
    · subst same
      rw [Function.update_self] at done
      exact here (Option.some.inj done)
    · rw [Function.update_of_ne same] at done
      exact before done
  cases moved with
  | quiet _ calls _ | provisioned _ _ _ _ _ calls _ | noted _ _ _ calls _ =>
      rw [calls] at done
      exact before done
  | refused _ _ _ _ calls _ => exact updated calls fun same => by cases same
  | made _ _ auth other phase _ _ _ _ made calls _ =>
      refine updated calls fun same => ?_
      rcases made with rfl | ⟨error, rfl⟩
      · unfold phaseOf at same
        split at same <;> cases same
      · cases same
  | cascaded _ _ _ _ _ calls _ => exact updated calls fun same => by cases same
  | recorded _ actor other eventId outcome _ _ calls fresh written =>
      refine updated calls fun same => ?_
      cases same
      exact recorded_of_written trail.log fresh written
  | unrecorded _ _ _ _ _ _ calls _ => exact updated calls fun same => by cases same

/-- The step goes on with what accounts for the state before it; a callback accounts for the row it
adds, a call for the rows it changes. -/
theorem trail_of_step (reached : run (step config) start taken = some state)
    (trail : Trail config start taken state) (stepped : step config state action = some next) :
    Trail config start (taken ++ [action]) next := by
  have moved := moved_of_step stepped
  have log : ∀ row ∈ start.log, row ∈ next.log :=
    fun row old => log_of_moved moved row (trail.log row old)
  refine ⟨log, ?_, answered_of_moved trail moved⟩
  intro row member
  have unchanged : next.users = state.users →
      Accounted config start (taken ++ [action]) next row := by
    intro users
    rw [users] at member
    exact (trail.rows row member).step trail.log moved
  cases moved_of_step stepped with
  | provisioned request identity freshId called users _ _ =>
      have looked := member
      rw [users] at looked
      rcases mem_of_oidcLookup looked with old | ⟨isId, role, enabled, absent⟩
      · exact (trail.rows row old).step trail.log moved
      · subst called
        have provisioned :
            Provisioned config start (taken ++ [.oidcCallback request identity freshId])
              identity row.id := by
          rw [isId]
          exact ⟨taken, request, [], state, next, rfl, reached, stepped, absent, row, member, isId⟩
        exact ⟨Or.inr (Or.inl ⟨identity, provisioned, role⟩),
          Or.inr (Or.inl ⟨enabled, Or.inl ⟨identity, provisioned⟩⟩)⟩
  | made _ _ _ change _ _ _ _ applies made calls _ =>
      exact accounted_of_applies trail moved applies
        (unanswered_of_update calls (holds_of_made made)) member
  | quiet users _ _ | refused _ _ _ users _ _ | cascaded _ _ _ _ users _ _
  | recorded _ _ _ _ _ _ users _ _ _ | unrecorded _ _ _ _ _ users _ _ | noted _ _ users _ _ =>
      exact unchanged users

end Accounts

section Actors

/-- The actors of the calls that are under way, and of the events about users since the start. -/
structure Acted (trusted : Uuid → Prop) (start state : State) : Prop where
  calls : ∀ request actor change, (state.calls request = some (.cascading actor change) ∨
    state.calls request = some (.unrecorded actor change)) → trusted actor
  log : ∀ row ∈ state.log, row ∉ start.log → row.targetType = "user" →
    ∃ actor, row.actorId = some actor ∧ trusted actor

variable {trusted : Uuid → Prop}

theorem acted_of_moved (holds : Trusted trusted state) (acted : Acted trusted start state)
    (moved : Moved config state action next) : Acted trusted start next := by
  have updated : ∀ {other phase}, next.calls = Function.update state.calls other (some phase) →
      (∀ actor change, phase = .cascading actor change ∨ phase = .unrecorded actor change →
        trusted actor) →
      ∀ request actor change, (next.calls request = some (.cascading actor change) ∨
        next.calls request = some (.unrecorded actor change)) → trusted actor := by
    intro other phase calls here request actor change found
    rw [calls] at found
    by_cases same : request = other
    · subst same
      rw [Function.update_self, Option.some.injEq, Option.some.injEq] at found
      exact here actor change found
    · rw [Function.update_of_ne same] at found
      exact acted.calls request actor change found
  have added : ∀ {written}, (∀ row, row ∈ next.log ↔ row ∈ state.log ∨ row = written) →
      (written.targetType = "user" → ∃ actor, written.actorId = some actor ∧ trusted actor) →
      ∀ row ∈ next.log, row ∉ start.log → row.targetType = "user" →
        ∃ actor, row.actorId = some actor ∧ trusted actor := by
    intro written log here row member new
    rcases (log row).mp member with old | rfl
    · exact acted.log row old new
    · exact here
  cases moved with
  | quiet users calls log | provisioned _ _ _ _ users calls log =>
      refine ⟨?_, by rw [log]; exact acted.log⟩
      rw [calls]
      exact acted.calls
  | refused request error idle users calls log =>
      refine ⟨updated calls ?_, by rw [log]; exact acted.log⟩
      rintro actor change (same | same) <;> cases same
  | made request caller auth other phase idle accepted admin applies made calls log =>
      refine ⟨updated calls ?_, by rw [log]; exact acted.log⟩
      intro actor change phases
      have isActor : actor = auth.userId := by
        rcases made with rfl | ⟨error, rfl⟩
        · unfold phaseOf at phases
          split at phases
          next => rcases phases with same | same <;> cases same; rfl
          next => rcases phases with same | same <;> cases same; rfl
        · rcases phases with same | same <;> cases same
      rw [isActor]
      exact trusted_of_accepted holds accepted admin
  | cascaded request actor made held users calls log =>
      refine ⟨updated calls ?_, by rw [log]; exact acted.log⟩
      rintro other change (same | same)
      · cases same
      · cases same
        exact acted.calls request actor made (Or.inl held)
  | recorded request actor made eventId outcome held users calls fresh log =>
      refine ⟨updated calls ?_, added log fun _ => ⟨actor, rfl, ?_⟩⟩
      · rintro other change (same | same) <;> cases same
      · exact acted.calls request actor made (Or.inr held)
  | unrecorded request actor made error held users calls log =>
      refine ⟨updated calls ?_, by rw [log]; exact acted.log⟩
      rintro other change (same | same) <;> cases same
  | noted written elsewhere users calls log =>
      refine ⟨?_, added log fun isUser => absurd isUser elsewhere⟩
      rw [calls]
      exact acted.calls

end Actors

/-- After any interleaving of logins, callbacks and calls of administrators, with writes that fail
as they may: where every role and flag comes from, that a success is in the log, and that the events
about users name trusted actors only. -/
theorem changes_accounted (config : Config) (trusted : Uuid → Prop) (start last : State)
    (actions : List Action) (initially : Trusted trusted start)
    (idle : ∀ request, start.calls request = none)
    (contained : Meets (step config) (Contained config trusted) start actions)
    (reached : run (step config) start actions = some last) :
    (∀ row ∈ last.users, Accounted config start actions last row) ∧
      (∀ request change, last.calls request = some (.answered (some change) (.ok ())) →
        Recorded config start last change) ∧
      ∀ row ∈ last.log, row ∉ start.log → row.targetType = "user" →
        ∃ actor, row.actorId = some actor ∧ trusted actor := by
  have before : Trail config start [] start := by
    refine ⟨fun row member => member, ?_, ?_⟩
    · exact fun row member => ⟨Or.inl ⟨row, member, rfl, rfl⟩, Or.inl ⟨row, member, rfl, rfl⟩⟩
    · intro request change done
      rw [idle request] at done
      cases done
  have unacted : Acted trusted start start := by
    refine ⟨?_, fun row member new => absurd member new⟩
    rintro request actor change (held | held)
    · rw [idle request] at held
      cases held
    · rw [idle request] at held
      cases held
  have invariant : Trusted trusted last ∧ Trail config start actions last ∧
      Acted trusted start last :=
    run_invariant_of_history
      (fun taken state => Trusted trusted state ∧ Trail config start taken state ∧
        Acted trusted start state)
      (fun _ _ _ _ earlier contained holds stepped =>
        ⟨trusted_step holds.1 contained stepped, trail_of_step earlier holds.2.1 stepped,
          acted_of_moved holds.1 holds.2.2 (moved_of_step stepped)⟩)
      contained ⟨initially, before, unacted⟩ reached
  exact ⟨invariant.2.1.rows, invariant.2.1.answered, invariant.2.2.log⟩

/-- The change of a call that is answered with success. -/
def CallPhase.made? : CallPhase → Option Change
  | .answered change (.ok ()) => change
  | _ => none

theorem CallPhase.eq_of_made? {phase : CallPhase} {change : Change}
    (made : phase.made? = some change) : phase = .answered (some change) (.ok ()) := by
  cases phase with
  | cascading actor other => cases made
  | unrecorded actor other => cases made
  | answered other outcome =>
      cases outcome with
      | error error => cases made
      | ok done =>
          have same : other = some change := made
          rw [same]

/-- The log holds the promotion of the viewer beside a login and a failed one, and the accounts,
with the newcomer's, are accounted for. -/
theorem promotion_recorded :
    ∃ last, run (step plainConfig) twoAccounts promotion = some last ∧
      last.log.rows.map AuditRow.action = ["auth.login", "auth.login", "user.role_change"] ∧
      Recorded plainConfig twoAccounts last (.roleSet ⟨2⟩ .manager) ∧
      (∀ row ∈ last.users, Accounted plainConfig twoAccounts promotion last row) ∧
      ∀ row ∈ last.log, row.targetType = "user" → row.actorId = some ⟨1⟩ := by
  have done : ((run (step plainConfig) twoAccounts promotion).bind fun last =>
      ((last.calls 0).bind CallPhase.made?).map fun change =>
        (change, last.log.rows.map AuditRow.action)) =
      some (.roleSet ⟨2⟩ .manager, ["auth.login", "auth.login", "user.role_change"]) := by
    decide +kernel
  obtain ⟨last, reached, found⟩ := Option.bind_eq_some_iff.mp done
  obtain ⟨change, answered, same⟩ := Option.map_eq_some_iff.mp found
  obtain ⟨rfl, events⟩ := Prod.mk.inj same
  obtain ⟨phase, held, made⟩ := Option.bind_eq_some_iff.mp answered
  obtain ⟨rows, recorded, actors⟩ := changes_accounted plainConfig (· = ⟨1⟩) twoAccounts last
    promotion trusted_twoAccounts (fun _ => rfl) contained_promotion reached
  refine ⟨last, reached, events, ?_, rows, ?_⟩
  · exact recorded 0 _ (held.trans (congrArg some (CallPhase.eq_of_made? made)))
  · intro row member isUser
    obtain ⟨actor, isActor, rfl⟩ := actors row member (Table.not_mem_empty row) isUser
    exact isActor

end Picroom.Administration
