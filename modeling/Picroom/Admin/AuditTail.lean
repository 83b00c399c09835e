import Picroom.Api.Audit
import Picroom.Relational.Stream

/-!
# Following the audit log

`audit_tail` asks for the newest events again and again and prints those it has not printed yet.
The table is append-only.  Every event is printed at most once, and is printed if at some poll no
more than 100 events are as new.
-/

namespace Picroom.AuditTail

open Relational Audit

/-- What a poll finds; events of one time come as the database likes. -/
structure Snapshot where
  table : AuditTable
  arrangement : Arrangement AuditRow.timestamp

def listed (snapshot : Snapshot) : List AuditRow :=
  (snapshot.arrangement.arrange snapshot.table.rows).take 100

/-- Of the actor that is asked for, if one is. -/
def wanted (actor : Option String) (row : AuditRow) : Bool :=
  actor.all fun label => row.actorLabel == some label

/-- The events of a poll in the order they are printed in, oldest first. -/
def polled (actor : Option String) (snapshot : Snapshot) : List AuditEvent :=
  (((listed snapshot).map eventFromRow).filter
    fun event => actor.all fun label => event.actorLabel == some label).reverse

/-- The events that are printed, and how the command ends unless it still follows. -/
def auditTail (follow : Bool) (actor : Option String) (seen : List Uuid) :
    List (Except String Snapshot) → List AuditEvent × Option (Except String Unit)
  | [] => ([], none)
  | .error message :: _ => ([], some (.error ("db: " ++ message)))
  | .ok snapshot :: rest =>
      let events := polled actor snapshot
      let printed := unseen AuditEvent.id seen events
      if follow then
        let (later, outcome) := auditTail follow actor (events.map AuditEvent.id ++ seen) rest
        (printed ++ later, outcome)
      else (printed, some (.ok ()))

/-- The polls before the first that fails. -/
def answered : List (Except String Snapshot) → List Snapshot
  | .ok snapshot :: rest => snapshot :: answered rest
  | _ => []

/-- Events stay as they are. -/
def AppendOnly (snapshots : List Snapshot) : Prop :=
  snapshots.Pairwise fun earlier later => ∀ row ∈ earlier.table, row ∈ later.table

/-- No two events have one time, and later ones have later times. -/
structure Chronological (snapshots : List Snapshot) : Prop where
  apart : ∀ snapshot ∈ snapshots, ∀ first ∈ snapshot.table, ∀ second ∈ snapshot.table,
    first.timestamp = second.timestamp → first = second
  arrivals : snapshots.Pairwise fun earlier later => ∀ old ∈ earlier.table, ∀ new ∈ later.table,
    new ∉ earlier.table → old.timestamp < new.timestamp

/-- How many events are as new as a row. -/
def rank (snapshot : Snapshot) (row : AuditRow) : Nat :=
  snapshot.table.rows.countP fun other => row.timestamp ≤ other.timestamp

section Tail

variable {actor : Option String} {snapshot : Snapshot} {snapshots : List Snapshot}
  {event : AuditEvent} {row : AuditRow}

theorem auditTail_eq (actor : Option String) (seen : List Uuid)
    (polls : List (Except String Snapshot)) :
    (auditTail true actor seen polls).1 =
      stream AuditEvent.id seen ((answered polls).map (polled actor)) := by
  induction polls generalizing seen with
  | nil => rfl
  | cons poll rest inductionHypothesis =>
      cases poll with
      | error message => rfl
      | ok snapshot =>
          simp only [auditTail, if_true, answered, List.map_cons, stream, inductionHypothesis]

theorem mem_polled_iff :
    event ∈ polled actor snapshot ↔
      ∃ row ∈ listed snapshot, wanted actor row = true ∧ eventFromRow row = event := by
  unfold polled wanted
  rw [List.mem_reverse, List.mem_filter, List.mem_map]
  constructor
  · rintro ⟨⟨row, isListed, rfl⟩, isWanted⟩
    exact ⟨row, isListed, isWanted, rfl⟩
  · rintro ⟨row, isListed, isWanted, rfl⟩
    exact ⟨⟨row, isListed, rfl⟩, isWanted⟩

theorem mem_table_of_listed (isListed : row ∈ listed snapshot) : row ∈ snapshot.table :=
  (snapshot.arrangement.perm _).mem_iff.mp (List.mem_of_mem_take isListed)

/-- A poll is printed in the order of the times. -/
theorem sorted_polled :
    (polled actor snapshot).Pairwise fun first second => first.timestamp ≤ second.timestamp := by
  unfold polled
  rw [List.pairwise_reverse]
  have sorted := (snapshot.arrangement.sorted snapshot.table.rows).sublist (List.take_sublist 100 _)
  exact (List.pairwise_map.mpr sorted).sublist List.filter_sublist

/-- Rows of an earlier table that are newer than a row are rows of the later one. -/
theorem countP_le_of_subset {earlier later : AuditTable} (kept : ∀ row ∈ earlier, row ∈ later)
    (newer : AuditRow → Bool) : earlier.rows.countP newer ≤ later.rows.countP newer := by
  have distinct : earlier.rows.Nodup := List.Nodup.of_map AuditRow.id earlier.unique
  exact (List.subperm_of_subset distinct kept).countP_le newer

/-- One id, one event. -/
theorem eq_of_id_eq (kept : AppendOnly snapshots) {first second : Snapshot}
    (firstPolled : first ∈ snapshots) (secondPolled : second ∈ snapshots) {row other : AuditRow}
    (inFirst : row ∈ first.table) (inSecond : other ∈ second.table) (same : row.id = other.id) :
    row = other := by
  have stays : ∀ {first second : Snapshot}, (∀ row ∈ first.table, row ∈ second.table) →
      ∀ row ∈ first.table, ∀ other ∈ second.table, row.id = other.id → row = other :=
    fun kept row inFirst other inSecond same =>
      Table.eq_of_key_eq _ (kept row inFirst) inSecond same
  refine List.Pairwise.forall_of_forall_of_flip ?_ (kept.imp stays) (kept.imp ?_) firstPolled
    secondPolled row inFirst other inSecond same
  · exact fun snapshot _ row member other otherMember same =>
      snapshot.table.eq_of_key_eq member otherMember same
  · intro earlier later kept row inLater other inEarlier same
    exact (stays kept other inEarlier row inLater same.symm).symm

/-- A row that is among the newest later was among the newest when it was there before. -/
theorem listed_of_listed_later {earlier later : Snapshot}
    (kept : ∀ row ∈ earlier.table, row ∈ later.table)
    (apart : ∀ first ∈ earlier.table, ∀ second ∈ earlier.table,
      first.timestamp = second.timestamp → first = second)
    (isListed : row ∈ listed later) (known : row ∈ earlier.table) : row ∈ listed earlier := by
  have newer := few_newer_of_mem_take isListed
  have fewer := countP_le_of_subset kept fun other => decide (row.timestamp < other.timestamp)
  have distinct : (earlier.table.rows.map AuditRow.timestamp).Nodup := by
    apply List.Nodup.map_on
    · exact fun first inTable second alsoInTable => apart first inTable second alsoInTable
    · exact List.Nodup.of_map AuditRow.id earlier.table.unique
  have atMost := countP_le_of_distinct distinct row.timestamp
  exact mem_take_of_few known (by omega)

/-- Following the log prints no event twice, nothing but events of the actor, every event of his
that is among the newest 100 of some poll, whatever the order of ties, and all of them in the order
of their times if no two events have one time and later ones have later times. -/
theorem tail_shows_once (actor : Option String) (polls : List (Except String Snapshot))
    (kept : AppendOnly (answered polls)) :
    ((auditTail true actor [] polls).1.map AuditEvent.id).Nodup ∧
    (∀ event ∈ (auditTail true actor [] polls).1, ∃ snapshot ∈ answered polls,
      ∃ row ∈ snapshot.table, wanted actor row = true ∧ eventFromRow row = event) ∧
    (∀ snapshot ∈ answered polls, ∀ row ∈ snapshot.table, wanted actor row = true →
      rank snapshot row ≤ 100 → eventFromRow row ∈ (auditTail true actor [] polls).1) ∧
    (Chronological (answered polls) → (auditTail true actor [] polls).1.Pairwise
      fun first second => first.timestamp ≤ second.timestamp) := by
  rw [auditTail_eq]
  have sound : ∀ event ∈ stream AuditEvent.id [] ((answered polls).map (polled actor)),
      ∃ snapshot ∈ answered polls, ∃ row ∈ snapshot.table,
        wanted actor row = true ∧ eventFromRow row = event := by
    intro event shown
    obtain ⟨_, batch, inBatches, inBatch⟩ := mem_of_stream shown
    obtain ⟨snapshot, isAnswered, rfl⟩ := List.mem_map.mp inBatches
    obtain ⟨row, isListed, isWanted, same⟩ := mem_polled_iff.mp inBatch
    exact ⟨snapshot, isAnswered, row, mem_table_of_listed isListed, isWanted, same⟩
  refine ⟨nodup_stream, sound, ?_, ?_⟩
  · intro snapshot isAnswered row member isWanted few
    have inPoll : eventFromRow row ∈ polled actor snapshot :=
      mem_polled_iff.mpr ⟨row, mem_take_of_few member few, isWanted, rfl⟩
    have found : ∃ shown ∈ stream AuditEvent.id [] ((answered polls).map (polled actor)),
        shown.id = row.id :=
      shown_of_mem_batch (List.mem_map_of_mem isAnswered) inPoll List.not_mem_nil
    obtain ⟨shown, isShown, sameId⟩ := found
    obtain ⟨other, alsoAnswered, stored, inTable, _, rfl⟩ := sound shown isShown
    obtain rfl := eq_of_id_eq kept alsoAnswered isAnswered inTable member sameId
    exact isShown
  · intro chronological
    apply pairwise_stream
    · intro batch inBatches
      obtain ⟨snapshot, _, rfl⟩ := List.mem_map.mp inBatches
      exact sorted_polled
    · rw [List.pairwise_map]
      refine (kept.and chronological.arrivals).imp_of_mem ?_
      rintro earlier later isAnswered _ ⟨stays, arrives⟩ event inLater new first inEarlier
      obtain ⟨row, isListed, isWanted, rfl⟩ := mem_polled_iff.mp inLater
      obtain ⟨old, oldListed, _, rfl⟩ := mem_polled_iff.mp inEarlier
      by_cases known : row ∈ earlier.table
      · have before := listed_of_listed_later stays (chronological.apart earlier isAnswered)
          isListed known
        exact absurd rfl (new _ (mem_polled_iff.mpr ⟨row, before, isWanted, rfl⟩))
      · exact (arrives old (mem_table_of_listed oldListed) row (mem_table_of_listed isListed)
          known).le

end Tail

def oneEvent : AuditTable := ⟨[sampleEvent ⟨1⟩ 0], by decide⟩

/-- An event is recorded between the polls. -/
def twoPolls : List (Except String Snapshot) :=
  [.ok ⟨oneEvent, tableOrder⟩, .ok ⟨twoEvents, tableOrder⟩]

theorem appendOnly_twoPolls : AppendOnly (answered twoPolls) := by
  refine List.pairwise_cons.mpr ⟨?_, List.pairwise_singleton _ _⟩
  intro later member row inTable
  cases List.mem_singleton.mp member
  exact List.mem_cons.mpr (.inl (List.mem_singleton.mp inTable))

/-- Both events are printed, each once. -/
theorem second_event_followed :
    ((auditTail true none [] twoPolls).1.map AuditEvent.id).Nodup ∧
      eventFromRow (sampleEvent ⟨1⟩ 0) ∈ (auditTail true none [] twoPolls).1 ∧
      eventFromRow (sampleEvent ⟨2⟩ 0) ∈ (auditTail true none [] twoPolls).1 := by
  obtain ⟨once, _, shown, _⟩ := tail_shows_once none twoPolls appendOnly_twoPolls
  refine ⟨once, ?_, ?_⟩
  · exact shown ⟨oneEvent, tableOrder⟩ List.mem_cons_self (sampleEvent ⟨1⟩ 0)
      List.mem_cons_self rfl (by decide)
  · exact shown ⟨twoEvents, tableOrder⟩ (List.mem_cons_of_mem _ List.mem_cons_self)
      (sampleEvent ⟨2⟩ 0) (List.mem_cons_of_mem _ List.mem_cons_self) rfl (by decide)

end Picroom.AuditTail
