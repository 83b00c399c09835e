import Picroom.Api.Teams
import Picroom.Relational.Ties
import Picroom.Service.Paging

/-!
# Reading the audit log

`GET /audit` returns the newest events before a time.  A client pages by sending the time of the
last event it got, so events of that time that did not fit on the page are passed over.
-/

namespace Picroom

open Relational

inductive AuditAction where
  | login
  | logout
  | imageUpload
  | imageDelete
  | teamCreate
  | teamMemberAdd
  | teamMemberRemove
  | userCreate
  | userRoleChange
  | userDisable
  | userEnable
  | storagePolicyCreate
  | storagePolicyUpdate
  | permissionDenied
  | other
  deriving DecidableEq

/-- Unknown actions are read as `other`. -/
def AuditAction.parse : String → AuditAction
  | "auth.login" => .login
  | "auth.logout" => .logout
  | "image.upload" => .imageUpload
  | "image.delete" => .imageDelete
  | "team.create" => .teamCreate
  | "team.member_add" => .teamMemberAdd
  | "team.member_remove" => .teamMemberRemove
  | "user.create" => .userCreate
  | "user.role_change" => .userRoleChange
  | "user.disable" => .userDisable
  | "user.enable" => .userEnable
  | "storage_policy.create" => .storagePolicyCreate
  | "storage_policy.update" => .storagePolicyUpdate
  | "permission.denied" => .permissionDenied
  | _ => .other

/-- A row of `audit_events`; the metadata are the text of a JSON value. -/
structure AuditRow where
  id : Uuid
  timestamp : Instant
  actorId : Option Uuid
  actorLabel : Option String
  action : String
  targetType : String
  targetId : Option String
  ip : Option String
  userAgent : Option String
  metadata : String

abbrev AuditTable := Table AuditRow.id

structure AuditEvent where
  id : Uuid
  timestamp : Instant
  actorId : Option Uuid
  actorLabel : Option String
  action : AuditAction
  targetType : String
  targetId : Option String
  ip : Option String
  userAgent : Option String
  metadata : String

namespace Audit

def eventFromRow (row : AuditRow) : AuditEvent :=
  { id := row.id, timestamp := row.timestamp, actorId := row.actorId,
    actorLabel := row.actorLabel, action := .parse row.action, targetType := row.targetType,
    targetId := row.targetId, ip := row.ip, userAgent := row.userAgent, metadata := row.metadata }

/-- `DbAuditSink::list`, when the database answers; it arranges events of one time as it likes. -/
def list (table : AuditTable) (arrangement : Arrangement AuditRow.timestamp) (limit : Nat)
    (before : Option Instant) : Except AuditSinkError (List AuditEvent) :=
  .ok (((arrangement.arrange (older AuditRow.timestamp table.rows
    (before.map timestamptz))).take limit).map eventFromRow)

structure AuditQuery where
  limit : Option Int
  before : Option String

/-- `limit.unwrap_or(50).clamp(1, 500)`. -/
def pageSize (limit : Option Int) : Nat := (max 1 (min (limit.getD 50) 500)).toNat

/-- A text that is no timestamp counts as none. -/
def readBefore (formats : TextFormats) (before : Option String) : Option Instant :=
  before.bind fun text =>
    match formats.parse text with
    | .ok instant => some instant
    | .error _ => none

/-- `GET /audit`. -/
def audit (formats : TextFormats)
    (reader : Option (Nat → Option Instant → Except AuditSinkError (List AuditEvent)))
    (auth : AuthUser) (params : AuditQuery) : Except ApiError (List AuditEvent) :=
  if permitted auth.roles .audit .read then
    match reader with
    | none => .error (.internal "audit reader not configured")
    | some list =>
        match list (pageSize params.limit) (readBefore formats params.before) with
        | .ok events => .ok events
        | .error error => .error (.internal error.display)
  else .error (.ofService .permissionDenied)

/-- The next request of a client that sends the time of the last event it got. -/
def nextEvents (formats : TextFormats) (table : AuditTable) (auth : AuthUser) (limit : Option Int)
    (before : Option String) (arrangement : Arrangement AuditRow.timestamp) :
    Option (List AuditEvent × Option String) :=
  match audit formats (some (list table arrangement)) auth ⟨limit, before⟩ with
  | .error _ => none
  | .ok events =>
      match events.getLast? with
      | none => some (events, none)
      | some last =>
          match formats.format last.timestamp with
          | .ok text => some (events, some text)
          | .error _ => none

section Walk

variable {formats : TextFormats} {table : AuditTable} {auth : AuthUser}

theorem pageSize_positive (limit : Option Int) : 0 < pageSize limit := by
  unfold pageSize
  omega

variable (formats table) in
theorem audit_eq (reads : permitted auth.roles .audit .read = true) (limit : Option Int)
    (before : Option String) (arrangement : Arrangement AuditRow.timestamp) :
    audit formats (some (list table arrangement)) auth ⟨limit, before⟩ =
      .ok (((arrangement.arrange (older AuditRow.timestamp table.rows
        ((readBefore formats before).map timestamptz))).take (pageSize limit)).map
          eventFromRow) := by
  rw [audit, if_pos reads]
  rfl

theorem follow_nextEvents (reads : permitted auth.roles .audit .read = true)
    (stored : ∀ row ∈ table, Stored formats row.timestamp) (limit : Option Int)
    (arrangements : List (Arrangement AuditRow.timestamp)) :
    follow (nextEvents formats table auth limit) none arrangements =
      (follow (tiedPage AuditRow.timestamp table.rows (pageSize limit)) none arrangements).map
        (List.map (List.map eventFromRow)) := by
  apply follow_simulates (fun before bound => (readBefore formats before).map timestamptz = bound)
    (fun _ => True)
  · rintro before _ arrangement rfl -
    have answered := audit_eq formats table reads limit before arrangement
    cases isLast : ((arrangement.arrange (older AuditRow.timestamp table.rows
        ((readBefore formats before).map timestamptz))).take (pageSize limit)).getLast? with
    | none =>
        refine ⟨_, none, none, tiedPage_eq isLast, ?_, by simp, rfl⟩
        rw [nextEvents, answered]
        simp only [List.getLast?_map, isLast, Option.map_none]
    | some last =>
        have inTable : last ∈ table := by
          have arranged := List.mem_of_mem_take (List.mem_of_getLast? isLast)
          exact (mem_older_iff.mp ((arrangement.perm _).mem_iff.mp arranged)).1
        have kept := stored last inTable
        obtain ⟨text, formatted, parsed, -⟩ := kept.readBack
        refine ⟨_, some last.timestamp, some text, tiedPage_eq isLast, ?_, by simp, ?_⟩
        · rw [nextEvents, answered]
          simp only [List.getLast?_map, isLast, Option.map_some, eventFromRow, formatted]
        · simp only [readBefore, Option.bind_some, parsed, Option.map_some, kept.precise]
  · rfl
  · simp

/-- The log is read completely exactly when no time is on both sides of the end of a page. -/
theorem covers_iff (reads : permitted auth.roles .audit .read = true)
    (stored : ∀ row ∈ table, Stored formats row.timestamp) (limit : Option Int)
    {arrangements : List (Arrangement AuditRow.timestamp)}
    (enough : table.rows.length < arrangements.length) :
    (∃ pages, follow (nextEvents formats table auth limit) none arrangements = some pages ∧
      ∀ row ∈ table, eventFromRow row ∈ pages.flatten) ↔
      Unbroken (pageSize limit) (descending AuditRow.timestamp table.rows) := by
  have all : older AuditRow.timestamp table.rows none = table.rows := by simp [older]
  have distinct : table.rows.Nodup := List.Nodup.of_map AuditRow.id table.unique
  obtain ⟨pages, walked, sound, covers⟩ :=
    follow_covers_iff none (pageSize_positive limit) distinct (by rwa [all])
  rw [all] at sound covers
  rw [← covers, follow_nextEvents reads stored, walked]
  simp only [Option.map_some, Option.some.injEq, exists_eq_left', ← List.map_flatten]
  constructor
  · intro found row member
    obtain ⟨other, inPages, same⟩ := List.mem_map.mp (found row member)
    have equal := table.eq_of_key_eq (sound other inPages) member (congrArg AuditEvent.id same)
    rwa [← equal]
  · intro found row member
    exact List.mem_map_of_mem (found row member)

variable (formats table) in
/-- A text that is no timestamp is never refused. -/
theorem accepts_before (reads : permitted auth.roles .audit .read = true) (limit : Option Int)
    (text : String) (arrangement : Arrangement AuditRow.timestamp) :
    ∃ events, audit formats (some (list table arrangement)) auth ⟨limit, some text⟩ =
      .ok events :=
  ⟨_, audit_eq formats table reads limit (some text) arrangement⟩

/-- Paging through the log loses nothing and a malformed cursor is refused. -/
def PagesSafely (formats : TextFormats) (table : AuditTable) (auth : AuthUser) (limit : Option Int)
    (arrangements : List (Arrangement AuditRow.timestamp)) (text : String) : Prop :=
  (∃ pages, follow (nextEvents formats table auth limit) none arrangements = some pages ∧
    ∀ row ∈ table, eventFromRow row ∈ pages.flatten) ∧
  ((∃ message, formats.parse text = .error message) → ∀ arrangement, ∃ error,
    audit formats (some (list table arrangement)) auth ⟨limit, some text⟩ = .error error)

theorem pagesSafely_iff (formats : TextFormats) {table : AuditTable} {auth : AuthUser}
    (reads : permitted auth.roles .audit .read = true)
    (stored : ∀ row ∈ table, Stored formats row.timestamp) (limit : Option Int)
    {arrangements : List (Arrangement AuditRow.timestamp)}
    (enough : table.rows.length < arrangements.length) (text : String) :
    PagesSafely formats table auth limit arrangements text ↔
      Unbroken (pageSize limit) (descending AuditRow.timestamp table.rows) ∧
        ∃ instant, formats.parse text = .ok instant := by
  rw [PagesSafely, covers_iff reads stored limit enough]
  apply and_congr_right
  intro _
  have requests : 0 < arrangements.length := Nat.lt_of_le_of_lt (Nat.zero_le _) enough
  have arrangement := arrangements[0]
  cases parsed : formats.parse text with
  | ok instant => simp
  | error message =>
      obtain ⟨events, accepted⟩ := accepts_before formats table reads limit text arrangement
      constructor
      · intro refused
        obtain ⟨error, rejected⟩ := refused ⟨message, rfl⟩ arrangement
        rw [accepted] at rejected
        cases rejected
      · rintro ⟨instant, impossible⟩
        cases impossible

def sampleEvent (id : Uuid) (timestamp : Instant) : AuditRow :=
  ⟨id, timestamp, none, none, "auth.login", "user", none, none, none, "\x7b\x7d"⟩

/-- Two events of one time. -/
def twoEvents : AuditTable := ⟨[sampleEvent ⟨1⟩ 0, sampleEvent ⟨2⟩ 0], by decide⟩

/-- Two events of one second and two of the next. -/
def pairedEvents : AuditTable :=
  ⟨[sampleEvent ⟨1⟩ 0, sampleEvent ⟨2⟩ 0, sampleEvent ⟨3⟩ (seconds 1), sampleEvent ⟨4⟩ (seconds 1)],
    by decide⟩

/-- The format in the first two seconds. -/
def twoSecondsText : TextFormats where
  parse text :=
    if text = "1970-01-01T00:00:00Z" then .ok 0
    else if text = "1970-01-01T00:00:01Z" then .ok (seconds 1)
    else .error "invalid"
  format instant :=
    if instant = 0 then .ok "1970-01-01T00:00:00Z"
    else if instant = seconds 1 then .ok "1970-01-01T00:00:01Z"
    else .error "out of range"
  uuidError _ := "invalid character"

def auditor : AuthUser := ⟨⟨9⟩, [.admin], none⟩

theorem auditor_reads : permitted auditor.roles .audit .read = true := by decide

theorem stored_twoEvents : ∀ row ∈ twoEvents, Stored epochText row.timestamp := by
  have times : ∀ row ∈ twoEvents.rows, row.timestamp = 0 := by decide
  intro row member
  rw [times row member]
  exact stored_epoch

theorem stored_pairedEvents : ∀ row ∈ pairedEvents, Stored twoSecondsText row.timestamp := by
  have times : ∀ row ∈ pairedEvents.rows, row.timestamp = 0 ∨ row.timestamp = seconds 1 := by decide
  intro row member
  rcases times row member with time | time
  · rw [time]
    exact ⟨by decide, "1970-01-01T00:00:00Z", rfl, by decide, by decide⟩
  · rw [time]
    exact ⟨by decide, "1970-01-01T00:00:01Z", rfl, by decide, by decide⟩

/-- Events in the order of the table, sorted by time. -/
def tableOrder : Arrangement AuditRow.timestamp where
  arrange rows := rows.mergeSort fun first second => decide (second.timestamp ≤ first.timestamp)
  perm rows := List.mergeSort_perm _ _
  sorted rows := by
    have pairs : (rows.mergeSort fun first second : AuditRow =>
        decide (second.timestamp ≤ first.timestamp)).Pairwise fun first second =>
          decide (second.timestamp ≤ first.timestamp) = true := by
      apply List.pairwise_mergeSort
      · intro first second third firstSecond secondThird
        rw [decide_eq_true_eq] at firstSecond secondThird ⊢
        exact secondThird.trans firstSecond
      · intro first second
        simpa using le_total second.timestamp first.timestamp
    exact pairs.imp of_decide_eq_true

/-- The same with the events of one time turned round. -/
def reverseOrder : Arrangement AuditRow.timestamp where
  arrange rows := tableOrder.arrange rows.reverse
  perm rows := (tableOrder.perm rows.reverse).trans rows.reverse_perm
  sorted rows := tableOrder.sorted rows.reverse

theorem tied_event_lost :
    ¬ PagesSafely epochText twoEvents auditor (some 1) [tableOrder, tableOrder, tableOrder]
      "yesterday" := by
  rintro ⟨complete, -⟩
  have unbroken := (covers_iff auditor_reads stored_twoEvents (some 1)
    (by decide)).mp complete
  have values : descending AuditRow.timestamp twoEvents.rows = [0, 0] := by
    symm
    apply eq_descending
    · exact List.Perm.refl _
    · decide
  rw [values] at unbroken
  exact unbroken 1 Nat.one_pos (by decide) (by decide)

/-- Ties are no danger inside a page, in whatever order each answer puts them. -/
theorem tied_pairs_paged :
    PagesSafely twoSecondsText pairedEvents auditor (some 2)
      [tableOrder, reverseOrder, tableOrder, reverseOrder, tableOrder] "1970-01-01T00:00:01Z" := by
  rw [pagesSafely_iff twoSecondsText auditor_reads stored_pairedEvents (some 2) (by decide)]
  have values : descending AuditRow.timestamp pairedEvents.rows =
      [seconds 1, seconds 1, 0, 0] := by
    symm
    apply eq_descending
    · decide
    · decide
  refine ⟨?_, seconds 1, by decide⟩
  rw [values]
  intro pages some inside
  have bound : pages * 2 < 4 := inside
  obtain rfl : pages = 1 := by omega
  decide

end Walk

end Audit

end Picroom
