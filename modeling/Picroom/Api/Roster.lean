import Picroom.Api.Isolation
import Picroom.Relational.Offset
import Picroom.Service.Paging

/-!
# The roster of a team

`list_members` of the repository pages by offset, first joined first, and its cursor is the offset
in decimal.  No call removes a member and a change of role keeps the time of joining, so a member
who joins later than the others comes behind them, and whoever follows the cursors while any calls
are made in between sees every member once.  The route takes no cursor: it answers with the first
500 members.
-/

namespace Picroom

open Relational Transition

namespace TeamRepository

/-- The members of a team, first joined first. -/
def roster (members : TeamMemberTable) (teamId : Uuid) : List TeamMemberRow :=
  (members.rows.filter (·.teamId == teamId)).mergeSort joinedFirst

section Offset

variable {members : TeamMemberTable} {teamId : Uuid}

theorem parseDigits_toDigits (value : Nat) : parseDigits (Nat.toDigits 10 value) = some value := by
  have digits : (Nat.toDigits 10 value).all Char.isDigit = true :=
    List.all_eq_true.mpr fun char member =>
      Nat.isDigit_of_mem_toDigits (by decide) (by decide) member
  have read := Nat.ofDigitChars_ten_toDigits (n := value)
  rw [Nat.ofDigitChars_eq_foldl] at read
  unfold parseDigits
  split
  next empty => exact absurd empty Nat.toDigits_ne_nil
  next =>
    rw [if_pos digits, Option.some.injEq]
    simp only [Nat.mul_comm _ 10]
    exact read

/-- A cursor the server made is read back. -/
theorem parseI64_toString {value : Nat} (small : value < 2 ^ 63) :
    parseI64 (toString (value : Int)) = some (value : Int) := by
  have text : (toString (value : Int)).toList = Nat.toDigits 10 value := by
    change (Nat.repr value).toList = _
    rw [Nat.repr, String.toList_ofList]
  have unsigned : ∀ sign, sign.isDigit = false → ∀ rest, Nat.toDigits 10 value ≠ sign :: rest := by
    intro sign notDigit rest same
    have digit := Nat.isDigit_of_mem_toDigits (b := 10) (n := value) (c := sign) (by decide)
      (by decide) (same ▸ List.mem_cons_self)
    rw [notDigit] at digit
    cases digit
  unfold parseI64
  rw [text]
  split
  next rest same => exact absurd same (unsigned '-' (by decide) rest)
  next rest same => exact absurd same (unsigned '+' (by decide) rest)
  next =>
    rw [parseDigits_toDigits]
    change Option.filter _ (some (value : Int)) = _
    rw [Option.filter_some, if_pos (decide_eq_true ⟨by omega, by omega⟩)]

/-- A cursor of the client, and how many rows it skips. -/
def SkipsRows (cursor : Option String) (offset : Option Nat) : Prop :=
  (cursor = none ∧ offset = none) ∨
    ∃ count : Nat, cursor = some (toString (count : Int)) ∧ offset = some count ∧ count < 2 ^ 63

theorem listMembers_eq {cursor : Option String} {offset : Option Nat}
    (skips : SkipsRows cursor offset) (limit : UInt32) :
    listMembers members teamId ⟨limit, cursor⟩ =
      .ok (.new ((((roster members teamId).drop (offset.getD 0)).take
          (clampLimit limit + 1)).take (clampLimit limit))
        (if clampLimit limit < (((roster members teamId).drop (offset.getD 0)).take
            (clampLimit limit + 1)).length then
          some (toString ((offset.getD 0 : Int) + clampLimit limit)) else none)
        ⟨limit, cursor⟩) := by
  rcases skips with ⟨rfl, rfl⟩ | ⟨count, rfl, rfl, small⟩
  · rfl
  · have nonempty : toString (count : Int) ≠ "" := by
      intro empty
      have parsed := parseI64_toString small
      rw [empty] at parsed
      cases parsed
    simp only [listMembers, if_neg nonempty, parseI64_toString small]
    rfl

/-- The pages of a client who follows the cursors are those of the walk by offset. -/
theorem follow_listMembers {State : Type} (members : State → TeamMemberTable) (teamId : Uuid)
    (limit : UInt32) {states : List State}
    (small : ∀ state ∈ states, (roster (members state) teamId).length < 2 ^ 63) :
    follow (nextPage (fun state => listMembers (members state) teamId) limit) none states =
      follow (offsetPage (fun state => roster (members state) teamId) (clampLimit limit)) none
        states := by
  have walked := @follow_simulates State TeamMemberRow String TeamMemberRow Nat id
    (nextPage (fun state => listMembers (members state) teamId) limit)
    (offsetPage (fun state => roster (members state) teamId) (clampLimit limit))
    SkipsRows (fun state => (roster (members state) teamId).length < 2 ^ 63) ?_
    none none (Or.inl ⟨rfl, rfl⟩) states small
  · rw [walked]
    simp
  · intro cursor offset state skips fits
    rw [nextPage, listMembers_eq skips]
    have size : (((roster (members state) teamId).drop (offset.getD 0)).take
        (clampLimit limit + 1)).length =
        min (clampLimit limit + 1) ((roster (members state) teamId).length - offset.getD 0) := by
      rw [List.length_take, List.length_drop]
    have first : (((roster (members state) teamId).drop (offset.getD 0)).take
        (clampLimit limit + 1)).take (clampLimit limit) =
        ((roster (members state) teamId).drop (offset.getD 0)).take (clampLimit limit) := by
      rw [List.take_take, Nat.min_eq_left (Nat.le_succ _)]
    rcases offsetPage_cases (fun state => roster (members state) teamId) (clampLimit limit) offset
      state with ⟨short, answer⟩ | ⟨more, answer⟩
    · refine ⟨_, none, none, answer, ?_, by simp, Or.inl ⟨rfl, rfl⟩⟩
      rw [size, if_neg (by omega), first, List.take_of_length_le]
      · simp [Page.new]
      · rw [List.length_drop]
        omega
    · refine ⟨_, _, some (toString ((offset.getD 0 + clampLimit limit : Nat) : Int)), answer, ?_,
        by simp, Or.inr ⟨_, rfl, rfl, by omega⟩⟩
      rw [size, if_pos (by omega), first]
      simp [Page.new]

end Offset

/-- A member's place on the roster. -/
def joinRank (row : TeamMemberRow) : Lex (Int × Nat) := toLex (row.joinedAt, row.userId.bits.toNat)

def rankedUser (rank : Lex (Int × Nat)) : Uuid := ⟨BitVec.ofNat 128 (ofLex rank).2⟩

theorem rankedUser_joinRank (row : TeamMemberRow) : rankedUser (joinRank row) = row.userId := by
  simp [rankedUser, joinRank]

/-- Nobody is on the roster twice. -/
theorem nodup_roster (members : TeamMemberTable) (teamId : Uuid) :
    ((roster members teamId).map TeamMemberRow.userId).Nodup := by
  have keys := members.unique
  rw [List.Nodup, List.pairwise_map] at keys
  have sorted := ((List.mergeSort_perm _ joinedFirst).pairwise_iff fun different =>
    different.symm).mpr (keys.filter (·.teamId == teamId))
  rw [List.Nodup, List.pairwise_map]
  apply sorted.imp_of_mem
  intro first second inFirst inSecond different same
  rw [List.mem_mergeSort, List.mem_filter, beq_iff_eq] at inFirst inSecond
  exact different (Prod.ext (inFirst.2.trans inSecond.2.symm) same)

/-- The roster is in the order of the ranks. -/
theorem sorted_roster (members : TeamMemberTable) (teamId : Uuid) :
    ((roster members teamId).map joinRank).Pairwise (· < ·) := by
  have sorted : (roster members teamId).Pairwise fun first second =>
      joinedFirst first second = true := by
    apply List.pairwise_mergeSort
    · intro first second third
      simp only [joinedFirst, Bool.or_eq_true, Bool.and_eq_true, decide_eq_true_eq, beq_iff_eq]
      grind
    · intro first second
      simp only [joinedFirst, Bool.or_eq_true, Bool.and_eq_true, decide_eq_true_eq, beq_iff_eq]
      grind
  have distinct := nodup_roster members teamId
  rw [List.Nodup, List.pairwise_map] at distinct
  rw [List.pairwise_map]
  apply (sorted.and distinct).imp
  rintro first second ⟨before, apart⟩
  rw [joinRank, joinRank, Prod.Lex.toLex_lt_toLex]
  simp only [joinedFirst, Bool.or_eq_true, Bool.and_eq_true, decide_eq_true_eq, beq_iff_eq]
    at before
  rcases before with earlier | ⟨together, ordered⟩
  · exact Or.inl earlier
  · refine Or.inr ⟨together, lt_of_le_of_ne ordered fun same => apart ?_⟩
    exact congrArg Uuid.mk (BitVec.eq_of_toNat_eq same)

theorem mem_roster_iff {members : TeamMemberTable} {teamId : Uuid} {row : TeamMemberRow} :
    row ∈ roster members teamId ↔ row ∈ members ∧ row.teamId = teamId := by
  rw [roster, List.mem_mergeSort, List.mem_filter, beq_iff_eq, Table.mem_rows_iff]

/-- A member who joins later than the others comes behind them, and nobody else moves. -/
theorem roster_upsertMember {members : TeamMemberTable} {now : Instant} {teamId userId : Uuid}
    {role : String} {checked : role ∈ Role.columnValues} {wanted : Uuid}
    (later : teamId = wanted → ∀ row ∈ members, row.teamId = wanted → row.joinedAt < now) :
    (roster members wanted).map joinRank <+:
      (roster (upsertMember members now teamId userId role checked) wanted).map joinRank := by
  apply prefix_of_above (sorted_roster _ _) (sorted_roster _ _)
  · intro rank member
    obtain ⟨row, inRoster, rfl⟩ := List.mem_map.mp member
    obtain ⟨stored, ofTeam⟩ := mem_roster_iff.mp inRoster
    obtain ⟨kept, present, sameTeam, sameRank⟩ :
        ∃ kept ∈ upsertMember members now teamId userId role checked,
          kept.teamId = row.teamId ∧ joinRank kept = joinRank row := by
      refine ⟨_, Table.mem_upsert.mpr (Or.inl ⟨row, stored, rfl⟩), ?_, ?_⟩
      · split <;> rfl
      · split <;> rfl
    exact List.mem_map.mpr ⟨kept, mem_roster_iff.mpr ⟨present, sameTeam.trans ofTeam⟩, sameRank⟩
  · intro rank member fresh old inOld
    obtain ⟨row, inRoster, rfl⟩ := List.mem_map.mp member
    obtain ⟨stored, ofTeam⟩ := mem_roster_iff.mp inRoster
    obtain ⟨first, inFirst, rfl⟩ := List.mem_map.mp inOld
    obtain ⟨storedFirst, sameTeam⟩ := mem_roster_iff.mp inFirst
    rcases Table.mem_upsert.mp stored with ⟨before, present, same⟩ | ⟨added, -⟩
    · -- a row that was there, perhaps with another role, has the rank it had
      have sameRank : joinRank row = joinRank before := by
        rw [same]
        split <;> rfl
      have inTeam : before.teamId = wanted := by
        rw [← ofTeam, same]
        split <;> rfl
      exact absurd (List.mem_map.mpr ⟨before, mem_roster_iff.mpr ⟨present, inTeam⟩,
        sameRank.symm⟩) fresh
    · subst added
      rw [joinRank, joinRank, Prod.Lex.toLex_lt_toLex]
      exact Or.inl (later ofTeam first storedFirst sameTeam)

end TeamRepository

namespace Roster

open Isolation TeamRepository

def callStep (state : AppState) (world : World) (call : AuthUser × Request) : Option World :=
  Isolation.step state call.1 world call.2

def after (state : AppState) (world : World) (calls : List (AuthUser × Request)) : World :=
  calls.foldl (fun world call => (handle state call.1 world call.2).1) world

/-- What a client meets who asks for a page before and after each of the batches of calls. -/
def visited (state : AppState) : World → List (List (AuthUser × Request)) → List World
  | world, [] => [world]
  | world, calls :: later => world :: visited state (after state world calls) later

/-- Whoever joins the team does so later than everyone who is in it. -/
def JoinsLater (team : Uuid) (world : World) (call : AuthUser × Request) : Prop :=
  ∀ body, call.2.call = .addMember team body → ∀ row ∈ world.database.members,
    row.teamId = team → row.joinedAt < call.2.environment.now

/-- The pages are the roster that the last of them was read from, first joined first: every member
once, each as he was when his page was read. -/
structure Paged (team : Uuid) (pages : List (List TeamMemberRow)) (visits : List World) : Prop where
  complete : ∃ last, visits[pages.length - 1]? = some last ∧
    pages.flatten.map TeamMemberRow.userId =
      (roster last.database.members team).map TeamMemberRow.userId ∧
    ∀ user, user ∈ pages.flatten.map TeamMemberRow.userId ↔ Member last.database.members team user
  once : (pages.flatten.map TeamMemberRow.userId).Nodup
  stored : List.Forall₂ (fun page visit => ∀ row ∈ page,
    row ∈ visit.database.members ∧ row.teamId = team) pages (visits.take pages.length)

section Calls

variable {state : AppState} {team : Uuid} {world : World}

/-- `add_member` alone writes to the memberships. -/
theorem members_of_handle (state : AppState) (auth : AuthUser) (world : World)
    (request : Request) :
    (handle state auth world request).1.database.members = world.database.members ∨
      ∃ id body checked, request.call = .addMember id body ∧
        (handle state auth world request).1.database.members =
          upsertMember world.database.members request.environment.now id body.userId
            (body.role.getD TeamHandlers.defaultMemberRole) checked := by
  have effect : Effect auth request world.database (handle state auth world request).1.database :=
    effect_of_step rfl
  cases effect with
  | frame images members acls => exact Or.inl members
  | insert row fresh images members acls => exact Or.inl members
  | mark id image loaded granted images members acls => exact Or.inl members
  | write id image passed images members acls => exact Or.inl members
  | join id body called manages images acls joined =>
      have handled : (handle state auth world request).1 =
          (TeamHandlers.addMember world request.environment auth id body).1 := by
        unfold handle
        rw [called]
        rfl
      rw [handled, TeamHandlers.addMember, if_pos manages]
      split
      next =>
        split
        next => exact Or.inl rfl
        next members added =>
          right
          unfold TeamRepository.addMember at added
          split at added
          next checked =>
            split at added
            next =>
              cases added
              exact ⟨id, body, checked, called, rfl⟩
            next => cases added
          next => cases added
      next => exact Or.inl rfl

theorem roster_of_step {call : AuthUser × Request} {next : World}
    (later : JoinsLater team world call) (stepped : callStep state world call = some next) :
    (roster world.database.members team).map joinRank <+:
      (roster next.database.members team).map joinRank := by
  cases stepped
  rcases members_of_handle state call.1 world call.2 with same | ⟨id, body, checked, called, added⟩
  · rw [same]
  · rw [added]
    apply roster_upsertMember
    rintro rfl
    exact later body called

theorem run_after (calls : List (AuthUser × Request)) :
    run (callStep state) world calls = some (after state world calls) := by
  induction calls generalizing world with
  | nil => rfl
  | cons call rest inductionHypothesis =>
      exact run_cons_eq_some_iff.mpr ⟨_, rfl, inductionHypothesis⟩

theorem roster_of_run {calls : List (AuthUser × Request)}
    (later : Meets (callStep state) (JoinsLater team) world calls) :
    (roster world.database.members team).map joinRank <+:
      (roster (after state world calls).database.members team).map joinRank := by
  apply run_invariant_of_meets
    (fun next => (roster world.database.members team).map joinRank <+:
      (roster next.database.members team).map joinRank) _ later (List.prefix_refl _)
    (run_after calls)
  intro middle call next joins grown stepped
  exact grown.trans (roster_of_step joins stepped)

theorem roster_of_visited {batches : List (List (AuthUser × Request))}
    (later : Meets (callStep state) (JoinsLater team) world batches.flatten) :
    ∀ visit ∈ visited state world batches,
      (roster world.database.members team).map joinRank <+:
        (roster visit.database.members team).map joinRank := by
  induction batches generalizing world with
  | nil =>
      intro visit member
      rw [List.mem_singleton.mp member]
  | cons calls rest inductionHypothesis =>
      obtain ⟨here, onwards⟩ := meets_append (run_after calls) later
      intro visit member
      rcases List.mem_cons.mp member with rfl | member
      · exact List.prefix_refl _
      · exact (roster_of_run here).trans (inductionHypothesis onwards visit member)

/-- From visit to visit the roster only gets longer. -/
theorem grows_visited {batches : List (List (AuthUser × Request))}
    (later : Meets (callStep state) (JoinsLater team) world batches.flatten) :
    (visited state world batches).Pairwise fun earlier next =>
      (roster earlier.database.members team).map joinRank <+:
        (roster next.database.members team).map joinRank := by
  induction batches generalizing world with
  | nil => exact List.pairwise_singleton _ _
  | cons calls rest inductionHypothesis =>
      obtain ⟨here, onwards⟩ := meets_append (run_after calls) later
      refine List.pairwise_cons.mpr ⟨?_, inductionHypothesis onwards⟩
      intro visit member
      exact (roster_of_run here).trans (roster_of_visited onwards visit member)

end Calls

/-- The route shows the head of the roster. -/
theorem listMembers_of_visible {database : Database} {auth : AuthUser} {team : Uuid}
    (shown : TeamHandlers.visible database auth team = true) :
    ∃ page, TeamHandlers.listMembers database auth team = .ok page ∧
      page.items = (roster database.members team).take 500 ∧
      (page.hasMore = true ↔ 500 < (roster database.members team).length) := by
  have clamped : clampLimit 500 = 500 := by decide
  rw [TeamHandlers.listMembers, if_pos shown, listMembers_eq (Or.inl ⟨rfl, rfl⟩), clamped]
  refine ⟨_, rfl, ?_, ?_⟩
  · simp [Page.new, List.take_take]
  · simp only [Page.new, Option.getD_none, List.drop_zero, List.length_take]
    split
    next more =>
      simp only [Option.isSome_some, true_iff]
      omega
    next short =>
      simp only [Option.isSome_none, Bool.false_eq_true, false_iff]
      omega

/-- Whoever follows the cursors of `list_members`, with any calls of any users between the requests,
gets the roster of the last request, every member once, and is done as soon as the requests make
room for it.  Who may see the team is shown the first 500 of the roster by the route. -/
theorem roster_paged (state : AppState) (team : Uuid) (limit : UInt32) (world : World)
    (batches : List (List (AuthUser × Request)))
    (later : Meets (callStep state) (JoinsLater team) world batches.flatten)
    (small : ∀ visit ∈ visited state world batches,
      (roster visit.database.members team).length < 2 ^ 63) :
    (∀ pages, follow (nextPage (fun visit : World =>
        listMembers visit.database.members team) limit) none (visited state world batches) =
          some pages → Paged team pages (visited state world batches)) ∧
    ((∀ visit ∈ visited state world batches, (roster visit.database.members team).length ≤
        (visited state world batches).length * clampLimit limit) →
      (follow (nextPage (fun visit : World => listMembers visit.database.members team) limit) none
        (visited state world batches)).isSome = true) ∧
    ∀ visit ∈ visited state world batches, ∀ auth,
      TeamHandlers.visible visit.database auth team = true →
        ∃ page, TeamHandlers.listMembers visit.database auth team = .ok page ∧
          page.items = (roster visit.database.members team).take 500 ∧
          (page.hasMore = true ↔ 500 < (roster visit.database.members team).length) := by
  rw [follow_listMembers (fun visit : World => visit.database.members) team limit small]
  refine ⟨?_, ?_, fun visit _ auth => listMembers_of_visible⟩
  · intro pages walked
    obtain ⟨⟨last, isLast, joined⟩, stored⟩ := follow_offset (grows_visited later) walked
    rw [Option.getD_none, List.drop_zero] at joined
    have users : pages.flatten.map TeamMemberRow.userId =
        (roster last.database.members team).map TeamMemberRow.userId := by
      have mapped := congrArg (List.map rankedUser) joined
      simpa only [List.map_map, Function.comp_def, rankedUser_joinRank] using mapped
    refine ⟨⟨last, isLast, users, ?_⟩, ?_, ?_⟩
    · intro user
      rw [users, List.mem_map]
      constructor
      · rintro ⟨row, member, rfl⟩
        obtain ⟨present, ofTeam⟩ := mem_roster_iff.mp member
        exact ⟨row, present, ofTeam, rfl⟩
      · rintro ⟨row, present, ofTeam, rfl⟩
        exact ⟨row, mem_roster_iff.mpr ⟨present, ofTeam⟩, rfl⟩
    · rw [users]
      exact nodup_roster _ _
    · exact stored.imp fun page visit here row member => mem_roster_iff.mp (here row member)
  · intro enough
    apply follow_offset_isSome
    · cases batches <;> simp [visited]
    · intro visit member
      have bound := enough visit member
      rw [Option.getD_none]
      omega

def memberRow (userId : Uuid) (joinedAt : Instant) : TeamMemberRow :=
  ⟨⟨7⟩, userId, "uploader", joinedAt, Role.asStr_mem_columnValues .uploader⟩

/-- A team of two. -/
def rosterWorld : World :=
  { sharedWorld with
    database := { sharedWorld.database with
      members := ⟨[memberRow ⟨6⟩ (-1), memberRow ⟨5⟩ (-2)], by decide⟩ } }

/-- A third member joins while the pages are read. -/
def joinBetween : List (List (AuthUser × Request)) := [[(⟨⟨1⟩, [.manager], none⟩, joinRequest)], []]

theorem newcomer_on_last_page :
    ∃ pages, follow (nextPage (fun visit : World => listMembers visit.database.members ⟨7⟩) 1) none
        (visited sharedApp rosterWorld joinBetween) = some pages ∧
      Paged ⟨7⟩ pages (visited sharedApp rosterWorld joinBetween) := by
  have size : ∀ visit ∈ visited sharedApp rosterWorld joinBetween,
      (roster visit.database.members ⟨7⟩).length ≤ 3 := by
    have ofTeam : ∀ visit ∈ visited sharedApp rosterWorld joinBetween,
        (visit.database.members.rows.filter (·.teamId == ⟨7⟩)).length ≤ 3 := by decide
    intro visit member
    rw [roster, List.length_mergeSort]
    exact ofTeam visit member
  have paged := roster_paged sharedApp ⟨7⟩ 1 rosterWorld joinBetween ?_ ?_
  · have done := paged.2.1 size
    obtain ⟨pages, walked⟩ := Option.isSome_iff_exists.mp done
    exact ⟨pages, walked, paged.1 pages walked⟩
  · refine ⟨?_, fun _ _ => trivial⟩
    intro body _ row member _
    have earlier : ∀ row ∈ rosterWorld.database.members.rows, row.joinedAt < 0 := by decide
    exact earlier row member
  · intro visit member
    exact (size visit member).trans_lt (by decide)

end Roster

end Picroom
