import Mathlib.Algebra.Order.Monoid.Defs
import Mathlib.Data.List.Induction

/-!
# Fixed windows

A window opens with the first visit after the last one is over and lasts for a span.  When the
visits let through are among the first `limit` of their windows, at most `limit` of them fall in
a window, and at most twice as many in any interval no longer than the span.
-/

namespace Rate

variable {Time : Type*} [LinearOrder Time] [Add Time]

structure Window (Time : Type*) where
  start : Time
  hits : Nat

structure Visit (Time : Type*) where
  time : Time
  allowed : Bool

/-- The window a visit falls in, with the visit counted. -/
def enter (span : Time) : Option (Window Time) → Time → Window Time
  | none, time => ⟨time, 1⟩
  | some window, time =>
      if time < window.start + span then ⟨window.start, window.hits + 1⟩ else ⟨time, 1⟩

/-- The last window opened. -/
def current (span : Time) (times : List Time) : Option (Window Time) :=
  times.foldl (fun window time => some (enter span window time)) none

theorem current_concat (span : Time) (times : List Time) (time : Time) :
    current span (times ++ [time]) = some (enter span (current span times) time) := by
  simp [current]

theorem current_eq_none_iff {span : Time} {times : List Time} :
    current span times = none ↔ times = [] := by
  induction times using List.reverseRecOn with
  | nil => simp [current]
  | append_singleton times time _ => simp [current_concat]

theorem start_mem_of_current {span : Time} {times : List Time} {window : Window Time}
    (last : current span times = some window) : window.start ∈ times := by
  induction times using List.reverseRecOn generalizing window with
  | nil => cases last
  | append_singleton times time inductionHypothesis =>
      rw [current_concat, Option.some.injEq] at last
      subst last
      cases previous : current span times with
      | none => simp [enter]
      | some opened =>
          have member := inductionHypothesis previous
          simp only [enter]
          split
          next => exact List.mem_append_left _ member
          next => simp

theorem hits_le_length {span : Time} {times : List Time} {window : Window Time}
    (last : current span times = some window) : window.hits ≤ times.length := by
  induction times using List.reverseRecOn generalizing window with
  | nil => cases last
  | append_singleton times time inductionHypothesis =>
      rw [current_concat, Option.some.injEq] at last
      subst last
      rw [List.length_append, List.length_singleton]
      cases previous : current span times with
      | none => simp [enter]
      | some opened =>
          have fewer := inductionHypothesis previous
          simp only [enter]
          split
          next => exact Nat.succ_le_succ fewer
          next => simp

/-- Each visit with the start of its window. -/
def tagged (span : Time) : Option (Window Time) → List (Visit Time) → List (Time × Visit Time)
  | _, [] => []
  | window, visit :: rest =>
      ((enter span window visit.time).start, visit) ::
        tagged span (some (enter span window visit.time)) rest

/-- How many visits of a window were let through. -/
def allowedIn (span start : Time) (visits : List (Visit Time)) : Nat :=
  (tagged span none visits).countP fun entry => decide (entry.1 = start ∧ entry.2.allowed = true)

/-- How many visits between two times were let through. -/
def allowedBetween (first last : Time) (visits : List (Visit Time)) : Nat :=
  visits.countP fun visit =>
    decide ((first ≤ visit.time ∧ visit.time ≤ last) ∧ visit.allowed = true)

/-- The visit lets the next one through only among the first `limit` of its window. -/
def Limited (span : Time) (limit : Nat) (visits : List (Visit Time)) : Prop :=
  ∀ earlier visit later, visits = earlier ++ visit :: later → visit.allowed = true →
    (enter span (current span (earlier.map Visit.time)) visit.time).hits ≤ limit

theorem tagged_concat (span : Time) (window : Option (Window Time)) (visits : List (Visit Time))
    (visit : Visit Time) :
    tagged span window (visits ++ [visit]) = tagged span window visits ++
      [((enter span ((visits.map Visit.time).foldl
        (fun window time => some (enter span window time)) window) visit.time).start, visit)] := by
  induction visits generalizing window with
  | nil => rfl
  | cons first rest inductionHypothesis =>
      rw [List.cons_append, tagged, inductionHypothesis]
      rfl

theorem allowedIn_concat (span start : Time) (visits : List (Visit Time)) (visit : Visit Time) :
    allowedIn span start (visits ++ [visit]) = allowedIn span start visits +
      if (enter span (current span (visits.map Visit.time)) visit.time).start = start ∧
        visit.allowed = true then 1 else 0 := by
  unfold allowedIn
  rw [tagged_concat, List.countP_append, List.countP_singleton]
  simp only [decide_eq_true_eq]
  rfl

omit [Add Time] in
theorem allowedBetween_concat (first last : Time) (visits : List (Visit Time))
    (visit : Visit Time) :
    allowedBetween first last (visits ++ [visit]) = allowedBetween first last visits +
      if (first ≤ visit.time ∧ visit.time ≤ last) ∧ visit.allowed = true then 1 else 0 := by
  unfold allowedBetween
  rw [List.countP_append, List.countP_singleton]
  simp only [decide_eq_true_eq]

theorem Limited.of_concat {span : Time} {limit : Nat} {visits : List (Visit Time)}
    {visit : Visit Time} (limited : Limited span limit (visits ++ [visit])) :
    Limited span limit visits ∧ (visit.allowed = true →
      (enter span (current span (visits.map Visit.time)) visit.time).hits ≤ limit) := by
  constructor
  · intro earlier other later split
    exact limited earlier other (later ++ [visit]) (by simp [split])
  · exact limited visits visit [] rfl

section Bounds

variable {span : Time} {limit : Nat} {visits : List (Visit Time)}

/-- A visit at or after all others either continues the last window or opens a later one. -/
theorem enter_cases (times : List Time) {time : Time} (latest : ∀ earlier ∈ times, earlier ≤ time) :
    (times = [] ∧ enter span (current span times) time = ⟨time, 1⟩) ∨
      ∃ window, current span times = some window ∧ window.start ≤ time ∧
        ((time < window.start + span ∧
            enter span (current span times) time = ⟨window.start, window.hits + 1⟩) ∨
          (window.start + span ≤ time ∧ enter span (current span times) time = ⟨time, 1⟩)) := by
  cases last : current span times with
  | none => exact Or.inl ⟨current_eq_none_iff.mp last, rfl⟩
  | some window =>
      refine Or.inr ⟨window, rfl, latest _ (start_mem_of_current last), ?_⟩
      by_cases open' : time < window.start + span
      · exact Or.inl ⟨open', by simp [enter, open']⟩
      · exact Or.inr ⟨not_lt.mp open', by simp [enter, open']⟩

/-- Of the window that starts at `start`: nothing before it opens, then no more than was hit. -/
structure SoFar (limit count : Nat) (start : Time) (window : Window Time) : Prop where
  before : window.start < start → count = 0
  during : window.start = start → count ≤ window.hits
  bound : count ≤ limit

theorem soFar_of_limited (positive : ∀ time : Time, time < time + span) (start : Time)
    (sorted : (visits.map Visit.time).Pairwise (· ≤ ·)) (limited : Limited span limit visits) :
    (visits = [] → allowedIn span start visits = 0) ∧
      ∀ window, current span (visits.map Visit.time) = some window →
        SoFar limit (allowedIn span start visits) start window := by
  induction visits using List.reverseRecOn with
  | nil => exact ⟨fun _ => rfl, fun _ last => by cases last⟩
  | append_singleton visits visit inductionHypothesis =>
      obtain ⟨limitedBefore, among⟩ := limited.of_concat
      rw [List.map_append, List.map_singleton, List.pairwise_append] at sorted
      obtain ⟨sortedBefore, _, latest⟩ := sorted
      obtain ⟨nothing, soFar⟩ := inductionHypothesis sortedBefore limitedBefore
      refine ⟨by simp, ?_⟩
      intro window last
      rw [List.map_append, List.map_singleton, current_concat, Option.some.injEq] at last
      subst last
      rw [allowedIn_concat]
      have before : ∀ earlier ∈ visits.map Visit.time, earlier ≤ visit.time :=
        fun earlier member => latest earlier member _ (List.mem_singleton_self _)
      rcases enter_cases (visits.map Visit.time) before with
        ⟨empty, entered⟩ | ⟨window, last, _, ⟨_, entered⟩ | ⟨over', entered⟩⟩
      · rw [entered] at among ⊢
        have zero := nothing (List.map_eq_nil_iff.mp empty)
        exact ⟨by grind, by grind, by grind⟩
      · rw [entered] at among ⊢
        obtain ⟨before, during, bound⟩ := soFar window last
        exact ⟨by grind, by grind, by grind⟩
      · -- the new window starts after the last one, so nothing of it was counted yet
        rw [entered] at among ⊢
        obtain ⟨before, during, bound⟩ := soFar window last
        have later := lt_of_lt_of_le (positive window.start) over'
        exact ⟨by grind, by grind, by grind⟩

/-- At most `limit` visits of a window are let through. -/
theorem allowedIn_le (positive : ∀ time : Time, time < time + span) (start : Time)
    (sorted : (visits.map Visit.time).Pairwise (· ≤ ·)) (limited : Limited span limit visits) :
    allowedIn span start visits ≤ limit := by
  obtain ⟨nothing, soFar⟩ := soFar_of_limited positive start sorted limited
  cases last : current span (visits.map Visit.time) with
  | none =>
      rw [nothing (List.map_eq_nil_iff.mp (current_eq_none_iff.mp last))]
      exact Nat.zero_le _
  | some window => exact (soFar window last).bound

/-- Of the interval from `first` to `final`: a window that starts inside it may follow one that
started before, and nothing else. -/
structure Covered (limit count : Nat) (span first final : Time) (window : Window Time) : Prop where
  reached : 0 < count → first < window.start + span
  outside : window.start ≤ first → count ≤ window.hits ∧ count ≤ limit
  inside : window.start ≤ final → count ≤ limit + window.hits
  bound : count ≤ 2 * limit

theorem covered_of_limited [AddRightStrictMono Time]
    (positive : ∀ time : Time, time < time + span) {first final : Time}
    (short : final ≤ first + span) (sorted : (visits.map Visit.time).Pairwise (· ≤ ·))
    (limited : Limited span limit visits) :
    (visits = [] → allowedBetween first final visits = 0) ∧
      ∀ window, current span (visits.map Visit.time) = some window →
        Covered limit (allowedBetween first final visits) span first final window := by
  induction visits using List.reverseRecOn with
  | nil => exact ⟨fun _ => rfl, fun _ last => by cases last⟩
  | append_singleton visits visit inductionHypothesis =>
      obtain ⟨limitedBefore, among⟩ := limited.of_concat
      rw [List.map_append, List.map_singleton, List.pairwise_append] at sorted
      obtain ⟨sortedBefore, _, latest⟩ := sorted
      obtain ⟨nothing, covered⟩ := inductionHypothesis sortedBefore limitedBefore
      refine ⟨by simp, ?_⟩
      intro window last
      rw [List.map_append, List.map_singleton, current_concat, Option.some.injEq] at last
      subst last
      rw [allowedBetween_concat]
      have before : ∀ earlier ∈ visits.map Visit.time, earlier ≤ visit.time :=
        fun earlier member => latest earlier member _ (List.mem_singleton_self _)
      rcases enter_cases (visits.map Visit.time) before with
        ⟨empty, entered⟩ | ⟨window, last, started, ⟨open', entered⟩ | ⟨over', entered⟩⟩
      · rw [entered] at among ⊢
        have zero := nothing (List.map_eq_nil_iff.mp empty)
        have later := positive visit.time
        exact ⟨by grind, by grind, by grind, by grind⟩
      · rw [entered] at among ⊢
        obtain ⟨reached, outside, inside, bound⟩ := covered window last
        exact ⟨by grind, by grind, by grind, by grind⟩
      · rw [entered] at among ⊢
        obtain ⟨reached, outside, inside, bound⟩ := covered window last
        have later := positive visit.time
        have single : visit.time ≤ final → allowedBetween first final visits ≤ limit := by
          intro within
          by_cases started : window.start ≤ first
          · exact (outside started).2
          · -- two windows do not fit into the interval
            have apart : first + span < window.start + span :=
              add_lt_add_left (not_le.mp started) span
            exact absurd (lt_of_lt_of_le apart (over'.trans (within.trans short))) (lt_irrefl _)
        exact ⟨by grind, by grind, by grind, by grind⟩

/-- At most twice `limit` visits are let through in an interval no longer than the span. -/
theorem allowedBetween_le [AddRightStrictMono Time] (positive : ∀ time : Time, time < time + span)
    {first final : Time} (short : final ≤ first + span)
    (sorted : (visits.map Visit.time).Pairwise (· ≤ ·)) (limited : Limited span limit visits) :
    allowedBetween first final visits ≤ 2 * limit := by
  obtain ⟨nothing, covered⟩ := covered_of_limited positive short sorted limited
  cases last : current span (visits.map Visit.time) with
  | none =>
      rw [nothing (List.map_eq_nil_iff.mp (current_eq_none_iff.mp last))]
      exact Nat.zero_le _
  | some window => exact (covered window last).bound

end Bounds

end Rate
