import Picroom.Api.Lifecycle

/-!
# Who runs a team

Memberships are written by `add_member` alone, on behalf of a global manager or administrator or of
somebody who runs the team at that time.  So the power over a team goes back, appointment by
appointment, to those who ran it from the start and to the global roles.
-/

namespace Picroom.Membership

open Transition Relational TeamRepository TeamHandlers Lifecycle

/-- The user has a managing role inside the team. -/
def Runs (members : TeamMemberTable) (team user : Uuid) : Prop :=
  ∃ row ∈ members, row.key = (team, user) ∧ (row.role = "manager" ∨ row.role = "admin")

/-- The caller's global roles allow him to manage every team. -/
def Global (call : Call) : Prop := permitted call.auth.roles .team .update = true

/-- The call wrote the membership and was answered 204.  Who has joined before keeps his date. -/
structure Grants (state : AppState) (row : TeamMemberRow) (world : World) (call : Call) : Prop where
  called : ∃ role, call.request.call = .addMember row.teamId ⟨row.userId, role⟩ ∧
    row.role = role.getD defaultMemberRole
  assignable : row.role ∈ assignableTeamRoles
  team : ∃ stored ∈ world.database.teams, stored.id = row.teamId
  user : ∃ stored ∈ world.database.users, stored.id = row.userId
  joined : (∃ old ∈ world.database.members, old.key = row.key ∧ old.joinedAt = row.joinedAt) ∨
    row.joinedAt = call.request.environment.now ∧
      ¬ Member world.database.members row.teamId row.userId
  answered : answer state world call = .ok .noContent
  authority : Global call ∨ Runs world.database.members row.teamId call.auth.userId

/-- What a call does to the memberships. -/
inductive Changed (state : AppState) (world : World) (call : Call) (members : TeamMemberTable) :
    Prop
  | kept (same : members = world.database.members)
  | granted (row : TeamMemberRow) (grants : Grants state row world call)
      (rows : ∀ other, other ∈ members ↔
        other = row ∨ other ∈ world.database.members ∧ other.key ≠ row.key)

/-- Those who run the team at the start, and whom a global role or one of them has appointed. -/
inductive Entrusted (state : AppState) (first : World) (calls : List Call) (team : Uuid) :
    Uuid → Prop
  | initially {user : Uuid} (runs : Runs first.database.members team user) :
      Entrusted state first calls team user
  | byGlobal {row : TeamMemberRow} (inTeam : row.teamId = team) (manager : row.role = "manager")
      (made : Made state first calls fun world call => Grants state row world call ∧ Global call) :
      Entrusted state first calls team row.userId
  | byEntrusted {row : TeamMemberRow} {appointer : Uuid} (inTeam : row.teamId = team)
      (manager : row.role = "manager") (entrusted : Entrusted state first calls team appointer)
      (made : Made state first calls fun world call =>
        Grants state row world call ∧ call.auth.userId = appointer) :
      Entrusted state first calls team row.userId

variable {state : AppState} {world next first last : World} {call : Call} {calls : List Call}
  {row : TeamMemberRow}

section Steps

theorem runs_of_memberRole {members : TeamMemberTable} {team user : Uuid} {role : String}
    (found : memberRole members team user = some role)
    (managing : role = "manager" ∨ role = "admin") : Runs members team user := by
  obtain ⟨row, isFound, rfl⟩ := Option.map_eq_some_iff.mp found
  obtain ⟨member, key⟩ := Table.find?_eq_some_iff.mp isFound
  exact ⟨row, member, key, managing⟩

theorem authority_of_managesMembers {id : Uuid}
    (manages : managesMembers world.database call.auth id = true) :
    Global call ∨ Runs world.database.members id call.auth.userId := by
  unfold managesMembers at manages
  rcases Bool.or_eq_true_iff.mp manages with globally | inTeam
  · exact .inl globally
  · refine .inr ?_
    split at inTeam
    next found => exact runs_of_memberRole found (.inl rfl)
    next found => exact runs_of_memberRole found (.inr rfl)
    next => cases inTeam

/-- The upsert replaces the row of the key, or adds one. -/
theorem mem_upsertMember (members : TeamMemberTable) (now : Instant) (team user : Uuid)
    {role : String} (checked : role ∈ Role.columnValues) :
    ∃ row : TeamMemberRow, row.teamId = team ∧ row.userId = user ∧ row.role = role ∧
      ((∃ old ∈ members, old.key = row.key ∧ old.joinedAt = row.joinedAt) ∨
        row.joinedAt = now ∧ ¬ Member members team user) ∧
      ∀ other, other ∈ upsertMember members now team user role checked ↔
        other = row ∨ other ∈ members ∧ other.key ≠ row.key := by
  cases found : members.find? (team, user) with
  | some old =>
      obtain ⟨member, key⟩ := Table.find?_eq_some_iff.mp found
      have oldTeam : old.teamId = team := congrArg Prod.fst key
      have oldUser : old.userId = user := congrArg Prod.snd key
      refine ⟨{ old with role, roleChecked := checked }, oldTeam, oldUser, rfl,
        .inl ⟨old, member, rfl, rfl⟩, ?_⟩
      intro other
      refine Table.mem_upsert.trans ?_
      constructor
      · rintro (⟨stored, present, rfl⟩ | ⟨_, fresh⟩)
        · split
          next same =>
            obtain rfl := members.eq_of_key_eq present member (same.trans key.symm)
            exact .inl rfl
          next different => exact .inr ⟨present, fun same => different (same.trans key)⟩
        · exact absurd key (fresh old member)
      · rintro (rfl | ⟨present, different⟩)
        · exact .inl ⟨old, member, (if_pos key).symm⟩
        · have apart : other.key ≠ (team, user) := fun same => different (same.trans key.symm)
          exact .inl ⟨other, present, (if_neg apart).symm⟩
  | none =>
      have fresh := Table.find?_eq_none_iff.mp found
      refine ⟨{ teamId := team, userId := user, role, joinedAt := now, roleChecked := checked },
        rfl, rfl, rfl, .inr ⟨rfl, ?_⟩, ?_⟩
      · rintro ⟨stored, present, inTeam, isUser⟩
        exact fresh stored present (Prod.ext inTeam isUser)
      · intro other
        refine Table.mem_upsert.trans ?_
        constructor
        · rintro (⟨stored, present, rfl⟩ | ⟨rfl, _⟩)
          · split
            next same => exact absurd same (fresh stored present)
            next different => exact .inr ⟨present, different⟩
          · exact .inl rfl
        · rintro (rfl | ⟨present, different⟩)
          · exact .inr ⟨rfl, fresh⟩
          · exact .inl ⟨other, present, (if_neg (fresh other present)).symm⟩

theorem members_addMember {id : Uuid} {body : AddMemberBody}
    (called : call.request.call = .addMember id body)
    (stepped : step state world call = some next) :
    Changed state world call next.database.members := by
  have answered : answer state world call =
      (TeamHandlers.addMember world call.request.environment call.auth id body).2.map
        fun _ => .noContent := by
    simp only [answer, Isolation.handle, called, Isolation.respond]
  have reached : next =
      (TeamHandlers.addMember world call.request.environment call.auth id body).1 := by
    simp only [Lifecycle.step, Isolation.step, Isolation.handle, called, Isolation.respond,
      Option.some.injEq] at stepped
    exact stepped.symm
  subst reached
  revert answered
  simp only [TeamHandlers.addMember]
  split
  next manages =>
    split
    next assignable =>
      split
      next => exact fun _ => .kept rfl
      next members added =>
        intro answered
        unfold TeamRepository.addMember at added
        split at added
        next checked =>
          split at added
          next known =>
            cases added
            obtain ⟨row, rowTeam, rowUser, role, joined, rows⟩ := mem_upsertMember
              world.database.members call.request.environment.now id body.userId checked
            rw [Bool.and_eq_true, Option.isSome_iff_exists, Option.isSome_iff_exists] at known
            obtain ⟨⟨team, teamFound⟩, user, userFound⟩ := known
            refine .granted row
              ⟨⟨body.role, ?_, role⟩, ?_, ⟨team, ?_⟩, ⟨user, ?_⟩, ?_, answered, ?_⟩ rows
            · rw [called, rowTeam, rowUser]
            · rw [role]
              exact List.contains_iff_mem.mp assignable
            · rw [rowTeam]
              exact Table.find?_eq_some_iff.mp teamFound
            · rw [rowUser]
              exact Table.find?_eq_some_iff.mp userFound
            · rw [rowTeam, rowUser]
              exact joined
            · rw [rowTeam]
              exact authority_of_managesMembers manages
          next => cases added
        next => cases added
    next => exact fun _ => .kept rfl
  next => exact fun _ => .kept rfl

/-- No other route writes a membership. -/
theorem changed_of_step (stepped : step state world call = some next) :
    Changed state world call next.database.members := by
  cases called : call.request.call with
  | addMember id body => exact members_addMember called stepped
  | createTeam _ | getTeam _ | listTeams _ | listMembers _ | uploadImage _ | getImage _
  | linkImage _ | fileImage _ | deleteImage _ | listAcl _ | replaceAcl _ _ | revokeAcl _ _ _ =>
      refine .kept ?_
      cases Isolation.effect_of_step stepped with
      | frame _ members _ => exact members
      | join id body joins =>
          rw [called] at joins
          cases joins
      | insert _ _ _ members => exact members
      | mark _ _ _ _ _ members => exact members
      | write _ _ _ _ members => exact members

end Steps

section Runs

/-- Nobody leaves a team, and everybody keeps the date he joined. -/
theorem kept_of_run {old : TeamMemberRow} (member : old ∈ first.database.members)
    (reached : run (step state) first calls = some last) :
    ∃ later ∈ last.database.members, later.key = old.key ∧ later.joinedAt = old.joinedAt := by
  refine run_invariant (fun world => ∃ later ∈ world.database.members,
    later.key = old.key ∧ later.joinedAt = old.joinedAt) ?_ ⟨old, member, rfl, rfl⟩ reached
  rintro world call next ⟨later, present, sameKey, sameDate⟩ stepped
  cases changed_of_step stepped with
  | kept same => exact ⟨later, same ▸ present, sameKey, sameDate⟩
  | granted row grants rows =>
      by_cases written : later.key = row.key
      · refine ⟨row, (rows row).mpr (.inl rfl), written.symm.trans sameKey, ?_⟩
        rcases grants.joined with ⟨before, stored, rowKey, date⟩ | ⟨_, stranger⟩
        · have same := world.database.members.eq_of_key_eq stored present
            (rowKey.trans written.symm)
          rw [← date, same, sameDate]
        · exact absurd ⟨later, present, congrArg Prod.fst written, congrArg Prod.snd written⟩
            stranger
      · exact ⟨later, (rows later).mpr (.inr ⟨present, written⟩), sameKey, sameDate⟩

/-- A membership that was not there before comes from a call that wrote it as it is. -/
theorem granted_of_run (reached : run (step state) first calls = some last)
    (absent : row ∉ first.database.members) (member : row ∈ last.database.members) :
    ∃ before call after world, calls = before ++ call :: after ∧
      run (step state) first before = some world ∧ Grants state row world call := by
  obtain ⟨before, call, after, world, next, split, earlier, stepped, _, missing, brought⟩ :=
    exists_step_of_run (fun world => row ∈ world.database.members) reached absent member
  refine ⟨before, call, after, world, split, earlier, ?_⟩
  cases changed_of_step stepped with
  | kept same => exact absurd (same ▸ brought) missing
  | granted written grants rows =>
      rcases (rows row).mp brought with rfl | ⟨present, _⟩
      · exact grants
      · exact absurd present missing

theorem Made.append {deed : World → Call → Prop} (made : Made state first calls deed)
    (more : List Call) : Made state first (calls ++ more) deed := by
  obtain ⟨before, call, after, world, rfl, reached, done⟩ := made
  exact ⟨before, call, after ++ more, world, by simp, reached, done⟩

theorem Entrusted.append {team user : Uuid} (entrusted : Entrusted state first calls team user)
    (more : List Call) : Entrusted state first (calls ++ more) team user := by
  induction entrusted with
  | initially runs => exact .initially runs
  | byGlobal inTeam manager made => exact .byGlobal inTeam manager (Made.append made more)
  | byEntrusted inTeam manager _ made inductionHypothesis =>
      exact .byEntrusted inTeam manager inductionHypothesis (Made.append made more)

/-- Whoever runs a team is entrusted with it. -/
theorem entrusted_of_runs {team user : Uuid} (reached : run (step state) first calls = some last)
    (runs : Runs last.database.members team user) : Entrusted state first calls team user := by
  -- who appointed the user ran the team after fewer calls
  induction size : calls.length using Nat.strongRecOn generalizing calls last user with
  | ind count inductionHypothesis =>
      obtain ⟨row, member, key, managing⟩ := runs
      by_cases already : row ∈ first.database.members
      · exact .initially ⟨row, already, key, managing⟩
      · obtain ⟨before, call, after, world, rfl, earlier, grants⟩ :=
          granted_of_run reached already member
        have manager : row.role = "manager" := by
          rcases managing with isManager | isAdmin
          · exact isManager
          · have assignable := grants.assignable
            rw [isAdmin] at assignable
            exact absurd assignable (by decide)
        have inTeam : row.teamId = team := congrArg Prod.fst key
        obtain rfl : row.userId = user := congrArg Prod.snd key
        rcases grants.authority with globally | runs
        · exact .byGlobal inTeam manager
            ⟨before, call, after, world, rfl, earlier, grants, globally⟩
        · have fewer : before.length < count := by
            rw [← size]
            simp
          have appointer := inductionHypothesis before.length fewer earlier (inTeam ▸ runs) rfl
          exact .byEntrusted inTeam manager (appointer.append _)
            ⟨before, call, after, world, rfl, earlier, grants, rfl⟩

/-- Without a caller in power nobody comes into power. -/
theorem Entrusted.initially_runs {team user : Uuid}
    (powerless : ∀ call ∈ calls,
      ¬ Global call ∧ ¬ Runs first.database.members team call.auth.userId)
    (entrusted : Entrusted state first calls team user) :
    Runs first.database.members team user := by
  induction entrusted with
  | initially runs => exact runs
  | byGlobal _ _ made =>
      obtain ⟨before, call, after, world, rfl, _, _, globally⟩ := made
      exact absurd globally (powerless call (by simp)).1
  | byEntrusted _ _ _ made inductionHypothesis =>
      obtain ⟨before, call, after, world, rfl, _, _, rfl⟩ := made
      exact absurd inductionHypothesis (powerless call (by simp)).2

/-- After any calls of any users, whoever was a member is one since the same date.  Every membership
that is new or changed was written for a caller with a global role or for one the team was entrusted
to, in the end by those who ran it from the start or held a global role.  As long as none of these
calls, the team stays as it is. -/
theorem memberships_accounted (state : AppState) (first last : World) (calls : List Call)
    (reached : run (step state) first calls = some last) :
    (∀ old ∈ first.database.members,
      ∃ later ∈ last.database.members, later.key = old.key ∧ later.joinedAt = old.joinedAt) ∧
    (∀ row ∈ last.database.members, row ∈ first.database.members ∨
      Made state first calls fun world call => Grants state row world call ∧
        (Global call ∨ Entrusted state first calls row.teamId call.auth.userId)) ∧
    ∀ team, (∀ call ∈ calls,
        ¬ Global call ∧ ¬ Runs first.database.members team call.auth.userId) →
      ∀ row, row.teamId = team →
        (row ∈ last.database.members ↔ row ∈ first.database.members) := by
  have account : ∀ row ∈ last.database.members, row ∈ first.database.members ∨
      Made state first calls fun world call => Grants state row world call ∧
        (Global call ∨ Entrusted state first calls row.teamId call.auth.userId) := by
    intro row member
    by_cases already : row ∈ first.database.members
    · exact .inl already
    · obtain ⟨before, call, after, world, rfl, earlier, grants⟩ :=
        granted_of_run reached already member
      refine .inr ⟨before, call, after, world, rfl, earlier, grants, ?_⟩
      exact grants.authority.imp_right fun runs => (entrusted_of_runs earlier runs).append _
  refine ⟨fun old member => kept_of_run member reached, account, ?_⟩
  intro team powerless row inTeam
  subst team
  have unwritten : ∀ written : TeamMemberRow, written.teamId = row.teamId →
      written ∈ last.database.members → written ∈ first.database.members := by
    intro written sameTeam member
    rcases account written member with already | ⟨before, call, after, world, rfl, _, _, power⟩
    · exact already
    · have caller := powerless call (by simp)
      rcases power with globally | entrusted
      · exact absurd globally caller.1
      · exact absurd (Entrusted.initially_runs powerless (sameTeam ▸ entrusted)) caller.2
  refine ⟨unwritten row rfl, ?_⟩
  intro already
  obtain ⟨later, member, sameKey, _⟩ := kept_of_run already reached
  have old := unwritten later (congrArg Prod.fst sameKey) member
  exact first.database.members.eq_of_key_eq old already sameKey ▸ member

end Runs

section Sample

def viewerRow (id : Uuid) (email : String) : UserRow :=
  ⟨id, email, "A", some "hash", "viewer", false, 0, Role.asStr_mem_columnValues .viewer⟩

/-- A team without members, and three users who may become some. -/
def staffedWorld : World :=
  { Isolation.sharedWorld with
    database := { Isolation.sharedWorld.database with
      users :=
        ⟨[viewerRow ⟨2⟩ "b@b.c", viewerRow ⟨3⟩ "c@b.c", viewerRow ⟨4⟩ "d@b.c"], by decide⟩ } }

def appointment (caller : AuthUser) (user : Uuid) (role : Option String) : Call :=
  ⟨caller, ⟨.addMember ⟨7⟩ ⟨user, role⟩, Isolation.quietEnvironment⟩⟩

/-- A global manager appoints a manager of the team, who appoints another, who adds a member. -/
def appointments : List Call :=
  [appointment ⟨⟨1⟩, [.manager], none⟩ ⟨2⟩ (some "manager"),
    appointment ⟨⟨2⟩, [.viewer], none⟩ ⟨3⟩ (some "manager"),
    appointment ⟨⟨3⟩, [.viewer], none⟩ ⟨4⟩ none]

/-- The membership at the end of the chain is accounted for by the chain. -/
theorem chain_of_appointments :
    ∃ last row, run (step Isolation.sharedApp) staffedWorld appointments = some last ∧
      row ∈ last.database.members ∧ row.key = (⟨7⟩, ⟨4⟩) ∧
      Entrusted Isolation.sharedApp staffedWorld appointments ⟨7⟩ ⟨3⟩ := by
  obtain ⟨last, reached, member⟩ : ∃ last,
      run (step Isolation.sharedApp) staffedWorld appointments = some last ∧
        ⟨⟨7⟩, ⟨4⟩, "uploader", 0, Role.asStr_mem_columnValues .uploader⟩ ∈ last.database.members :=
    ⟨_, rfl, .tail _ (.tail _ (.head _))⟩
  refine ⟨last, _, reached, member, rfl, ?_⟩
  obtain ⟨_, accounted, _⟩ :=
    memberships_accounted Isolation.sharedApp staffedWorld last appointments reached
  rcases accounted _ member with old | ⟨before, call, after, world, split, _, grants, power⟩
  · exact absurd old (Table.not_mem_empty _)
  · have taken : call ∈ appointments := by simp [split]
    obtain ⟨role, called, _⟩ := grants.called
    simp only [appointments, List.mem_cons, List.not_mem_nil, or_false] at taken
    rcases taken with rfl | rfl | rfl
    · simp [appointment] at called
    · simp [appointment] at called
    · exact power.resolve_left (by unfold Global; decide)

end Sample

end Picroom.Membership
