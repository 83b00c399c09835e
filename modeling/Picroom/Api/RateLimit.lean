import Picroom.Domain.Entity
import Picroom.Rate.Window
import Picroom.Relational.Table

/-!
# Rate limits of the auth endpoints

Attempts are counted in fixed windows, per client address and per account; both buckets share
one map.  A window is replaced when it is over and its key is counted again, or dropped when the
map is swept.  `windowAt` is the window a key is counted in, whatever the map still holds.
-/

namespace Picroom

open Relational

structure Window where
  count : UInt32
  resetAt : Instant
  deriving DecidableEq

def Window.counted (window : Window) : Window := { window with count := window.count + 1 }

structure AuthRateLimiter where
  maxAttempts : UInt32
  windowSecs : Int

/-- `HashMap<String, Window>`. -/
abbrev Windows := Table fun entry : String × Window => entry.1

/-- The arguments of one `record_at`. -/
structure Attempt where
  now : Instant
  ip : String
  account : String

namespace AuthRateLimiter

/-- Once this many keys are tracked the map is swept of expired windows. -/
def sweepThreshold : Nat := 4096

def new (maxAttempts : UInt32) (windowSecs : UInt64) : AuthRateLimiter where
  maxAttempts := maxAttempts
  windowSecs := min windowSecs.toNat (2 ^ 63 - 1)

/-- A limiter that never blocks. -/
def disabled : AuthRateLimiter := new 0 0

variable (limiter : AuthRateLimiter)

def span : Int := seconds limiter.windowSecs

def openWindow (now : Instant) : Window := ⟨0, now + limiter.span⟩

/-- The window an attempt is counted in, before it is counted. -/
def windowAt (windows : Windows) (now : Instant) (key : String) : Window :=
  let window := (windows.find? key).elim (limiter.openWindow now) (·.2)
  if window.resetAt ≤ now then limiter.openWindow now else window

/-- `Duration::whole_seconds`. -/
def wholeSeconds (nanoseconds : Int) : Int := nanoseconds.tdiv 1000000000

/-- One round of the loop: the map, and how long the key is blocked. -/
def countKey (windows : Windows) (now : Instant) (key : String) : Windows × Option Int :=
  let counted := (limiter.windowAt windows now key).counted
  (windows.upsert (key, counted) (fun entry => (entry.1, counted)) fun _ => rfl,
    if limiter.maxAttempts < counted.count then some (wholeSeconds (counted.resetAt - now))
    else none)

def blockedFor : Option Int → Option Int → Option Int
  | seen, none => seen
  | none, some remaining => some remaining
  | some seen, some remaining => some (max seen remaining)

/-- `Retry-After` must never be zero. -/
def retryAfter (secs : Int) : UInt64 :=
  max (if 0 ≤ secs then .ofNat secs.toNat else 1) 1

def ipKey (ip : String) : String := "ip:" ++ ip

def accountKey (account : String) : String := "acct:" ++ account

def countBoth (windows : Windows) (attempt : Attempt) : Windows × Option UInt64 :=
  let (first, ipBlocked) := limiter.countKey windows attempt.now (ipKey attempt.ip)
  let (second, accountBlocked) := limiter.countKey first attempt.now (accountKey attempt.account)
  (second, (blockedFor ipBlocked accountBlocked).map retryAfter)

/-- Drops the windows that are over. -/
def retain (windows : Windows) (now : Instant) : Windows :=
  windows.delete fun entry => !decide (now < entry.2.resetAt)

def sweeps (windows : Windows) : Bool := sweepThreshold < windows.rows.length

def recordAt (windows : Windows) (attempt : Attempt) : Windows × Option UInt64 :=
  if limiter.maxAttempts = 0 then (windows, none)
  else
    let (counted, answer) := limiter.countBoth windows attempt
    (if sweeps counted then retain counted attempt.now else counted, answer)

/-- Every attempt with its answer, from an empty map on. -/
def recordAll : Windows → List Attempt → Windows × List (Attempt × Option UInt64)
  | windows, [] => (windows, [])
  | windows, attempt :: rest =>
      let (recorded, answer) := limiter.recordAt windows attempt
      let (last, answers) := recordAll recorded rest
      (last, (attempt, answer) :: answers)

section Counting

variable {limiter} {windows : Windows} {now : Instant} {key other : String}

theorem ipKey_ne_accountKey (ip account : String) : ipKey ip ≠ accountKey account := by
  intro same
  have texts := congrArg String.toList same
  simp [ipKey, accountKey] at texts

theorem ipKey_injective : Function.Injective ipKey := by
  intro first second same
  have texts := congrArg String.toList same
  apply String.toList_inj.mp
  simpa [ipKey] using texts

theorem accountKey_injective : Function.Injective accountKey := by
  intro first second same
  have texts := congrArg String.toList same
  apply String.toList_inj.mp
  simpa [accountKey] using texts

theorem find?_countKey :
    (limiter.countKey windows now key).1.find? other =
      if key = other then
        some (key, (limiter.windowAt windows now key).counted)
      else windows.find? other := by
  unfold countKey
  rw [Table.find?_upsert]
  simp only
  split
  next same =>
    cases found : windows.find? other with
    | none => rfl
    | some entry =>
        obtain ⟨_, holds⟩ := Table.find?_eq_some_iff.mp found
        simp only [Option.elim_some, holds, same]
  next => rfl

theorem windowAt_of_absent (absent : windows.find? key = none) :
    limiter.windowAt windows now key = limiter.openWindow now := by
  unfold windowAt
  rw [absent]
  exact ite_self (limiter.openWindow now)

theorem windowAt_of_found {entry : String × Window} (found : windows.find? key = some entry) :
    limiter.windowAt windows now key =
      if entry.2.resetAt ≤ now then limiter.openWindow now else entry.2 := by
  unfold windowAt
  rw [found]
  rfl

theorem windowAt_countKey {later : Instant} (different : key ≠ other) :
    limiter.windowAt (limiter.countKey windows now key).1 later other =
      limiter.windowAt windows later other := by
  unfold windowAt
  rw [find?_countKey, if_neg different]

theorem find?_retain :
    (retain windows now).find? key =
      (windows.find? key).filter fun entry => decide (now < entry.2.resetAt) := by
  unfold retain
  rw [Table.find?_delete]
  simp only [Bool.not_not]

theorem isSome_blockedFor (first second : Option Int) :
    (blockedFor first second).isSome = (first.isSome || second.isSome) := by
  cases first <;> cases second <;> rfl

/-- An attempt is blocked when either bucket is exhausted; both are counted first. -/
theorem isSome_countBoth {attempt : Attempt} :
    (limiter.countBoth windows attempt).2.isSome = true ↔
      limiter.maxAttempts <
          (limiter.windowAt windows attempt.now (ipKey attempt.ip)).counted.count ∨
        limiter.maxAttempts <
          (limiter.windowAt windows attempt.now (accountKey attempt.account)).counted.count := by
  simp only [countBoth, Option.isSome_map, isSome_blockedFor, Bool.or_eq_true]
  apply or_congr
  · simp only [countKey]
    split <;> simp_all
  · rw [countKey, windowAt_countKey (ipKey_ne_accountKey attempt.ip attempt.account)]
    simp only
    split <;> simp_all

end Counting

/-- What attempts are counted by. -/
inductive Bucket where
  | ip (address : String)
  | account (name : String)

def Bucket.key : Bucket → String
  | .ip address => ipKey address
  | .account name => accountKey name

def hits (attempt : Attempt) : Bucket → Bool
  | .ip address => attempt.ip = address
  | .account name => attempt.account = name

theorem hits_eq_true_iff {attempt : Attempt} {bucket : Bucket} :
    hits attempt bucket = true ↔ bucket = .ip attempt.ip ∨ bucket = .account attempt.account := by
  cases bucket with
  | ip address => simp [hits, eq_comm]
  | account name => simp [hits, eq_comm]

def times (bucket : Bucket) (attempts : List Attempt) : List Instant :=
  (attempts.filter (hits · bucket)).map Attempt.now

/-- How many attempts have hit the current window of the bucket. -/
def hitsIn (bucket : Bucket) (attempts : List Attempt) : Nat :=
  (Rate.current limiter.span (times bucket attempts)).elim 0 Rate.Window.hits

/-- The attempts of a bucket, and whether they were let through. -/
def visits (bucket : Bucket) (log : List (Attempt × Option UInt64)) : List (Rate.Visit Instant) :=
  (log.filter fun entry => hits entry.1 bucket).map fun entry => ⟨entry.1.now, entry.2.isNone⟩

section History

variable {limiter} {windows : Windows} {attempts : List Attempt} {attempt : Attempt}

theorem find?_countBoth (bucket : Bucket) :
    (limiter.countBoth windows attempt).1.find? bucket.key =
      if hits attempt bucket then
        some (bucket.key, (limiter.windowAt windows attempt.now bucket.key).counted)
      else windows.find? bucket.key := by
  have apart := ipKey_ne_accountKey
  simp only [countBoth]
  rw [find?_countKey, find?_countKey, windowAt_countKey (apart attempt.ip attempt.account)]
  cases bucket with
  | ip address =>
      simp only [Bucket.key, hits, decide_eq_true_eq, ipKey_injective.eq_iff]
      rw [if_neg (apart address attempt.account).symm]
      split
      next same => rw [same]
      next => rfl
  | account name =>
      by_cases same : attempt.account = name
      · simp [Bucket.key, hits, same]
      · simp [Bucket.key, hits, same, accountKey_injective.eq_iff, apart]

theorem times_concat (bucket : Bucket) :
    times bucket (attempts ++ [attempt]) =
      times bucket attempts ++ if hits attempt bucket then [attempt.now] else [] := by
  unfold times
  rw [List.filter_append, List.map_append]
  cases hit : hits attempt bucket <;> simp [hit]

/-- The map against the history: a key that is there holds its current window; a key that is not
was never counted, or its window was over at some attempt. -/
def Linked (limiter : AuthRateLimiter) (windows : Windows) (attempts : List Attempt) : Prop :=
  ∀ bucket : Bucket,
    (∀ entry, windows.find? bucket.key = some entry →
      ∃ window, Rate.current limiter.span (times bucket attempts) = some window ∧
        entry.2.resetAt = window.start + limiter.span ∧ entry.2.count.toNat = window.hits) ∧
    (windows.find? bucket.key = none →
      ∀ window, Rate.current limiter.span (times bucket attempts) = some window →
        ∃ earlier ∈ attempts, window.start + limiter.span ≤ earlier.now)

/-- The window that the map gives for an attempt is the one its history gives. -/
theorem windowAt_eq (linked : Linked limiter windows attempts)
    (latest : ∀ earlier ∈ attempts, earlier.now ≤ attempt.now) (bucket : Bucket) :
    let entered := Rate.enter limiter.span (Rate.current limiter.span (times bucket attempts))
      attempt.now
    (limiter.windowAt windows attempt.now bucket.key).resetAt = entered.start + limiter.span ∧
      (limiter.windowAt windows attempt.now bucket.key).count.toNat + 1 = entered.hits := by
  obtain ⟨present, absent⟩ := linked bucket
  cases found : windows.find? bucket.key with
  | none =>
      rw [windowAt_of_absent found]
      cases last : Rate.current limiter.span (times bucket attempts) with
      | none => exact ⟨rfl, rfl⟩
      | some window =>
          obtain ⟨earlier, member, over'⟩ := absent found window last
          have closed := not_lt.mpr (over'.trans (latest earlier member))
          simp only [Rate.enter, if_neg closed]
          exact ⟨rfl, rfl⟩
  | some entry =>
      obtain ⟨window, last, reset, count⟩ := present entry found
      rw [windowAt_of_found found]
      simp only [last, Rate.enter, reset]
      by_cases open' : attempt.now < window.start + limiter.span
      · rw [if_neg (not_le.mpr open'), if_pos open']
        exact ⟨reset, by rw [count]⟩
      · rw [if_pos (not_lt.mp open'), if_neg open']
        exact ⟨rfl, rfl⟩

/-- The hits of the bucket's window, the attempt included. -/
theorem hitsIn_concat {bucket : Bucket} (hit : hits attempt bucket = true) :
    limiter.hitsIn bucket (attempts ++ [attempt]) =
      (Rate.enter limiter.span (Rate.current limiter.span (times bucket attempts))
        attempt.now).hits := by
  unfold hitsIn
  rw [times_concat, if_pos hit, Rate.current_concat]
  rfl

theorem count_eq (linked : Linked limiter windows attempts)
    (latest : ∀ earlier ∈ attempts, earlier.now ≤ attempt.now) (bucket : Bucket)
    (hit : hits attempt bucket = true)
    (unsaturated : limiter.hitsIn bucket (attempts ++ [attempt]) < 2 ^ 32) :
    (limiter.windowAt windows attempt.now bucket.key).counted.count.toNat =
      limiter.hitsIn bucket (attempts ++ [attempt]) := by
  obtain ⟨_, count⟩ := windowAt_eq linked latest bucket
  rw [hitsIn_concat hit] at unsaturated ⊢
  have one : (1 : UInt32).toNat = 1 := rfl
  rw [Window.counted, UInt32.toNat_add, one, count, Nat.mod_eq_of_lt unsaturated]

/-- Counting an attempt keeps the map in step with the history. -/
theorem linked_countBoth (linked : Linked limiter windows attempts)
    (latest : ∀ earlier ∈ attempts, earlier.now ≤ attempt.now)
    (unsaturated : ∀ bucket, hits attempt bucket = true →
      limiter.hitsIn bucket (attempts ++ [attempt]) < 2 ^ 32) :
    Linked limiter (limiter.countBoth windows attempt).1 (attempts ++ [attempt]) := by
  intro bucket
  rw [find?_countBoth, times_concat]
  by_cases hit : hits attempt bucket = true
  · rw [if_pos hit, if_pos hit, Rate.current_concat]
    refine ⟨?_, fun absent => by cases absent⟩
    intro entry found
    cases found
    refine ⟨_, rfl, (windowAt_eq linked latest bucket).1, ?_⟩
    rw [← hitsIn_concat hit]
    exact count_eq linked latest bucket hit (unsaturated bucket hit)
  · rw [if_neg hit, if_neg hit, List.append_nil]
    refine ⟨(linked bucket).1, ?_⟩
    intro absent window last
    obtain ⟨earlier, member, over'⟩ := (linked bucket).2 absent window last
    exact ⟨earlier, List.mem_append_left _ member, over'⟩

/-- What the sweep drops is over. -/
theorem linked_retain (linked : Linked limiter windows (attempts ++ [attempt])) :
    Linked limiter (retain windows attempt.now) (attempts ++ [attempt]) := by
  intro bucket
  obtain ⟨present, absent⟩ := linked bucket
  rw [find?_retain]
  constructor
  · intro entry found
    exact present entry (Option.filter_eq_some_iff.mp found).1
  · intro dropped window last
    cases found : windows.find? bucket.key with
    | none => exact absent found window last
    | some entry =>
        obtain ⟨held, heldLast, reset, _⟩ := present entry found
        rw [last, Option.some.injEq] at heldLast
        subst heldLast
        have over' : entry.2.resetAt ≤ attempt.now := by simpa [found] using dropped
        exact ⟨attempt, by simp, reset ▸ over'⟩

theorem linked_recordAt (enabled : limiter.maxAttempts ≠ 0)
    (linked : Linked limiter windows attempts)
    (latest : ∀ earlier ∈ attempts, earlier.now ≤ attempt.now)
    (unsaturated : ∀ bucket, hits attempt bucket = true →
      limiter.hitsIn bucket (attempts ++ [attempt]) < 2 ^ 32) :
    Linked limiter (limiter.recordAt windows attempt).1 (attempts ++ [attempt]) := by
  have counted := linked_countBoth linked latest unsaturated
  simp only [recordAt, if_neg enabled]
  split
  next => exact linked_retain counted
  next => exact counted

/-- More attempts than allowed have hit the window of either bucket. -/
def Exhausted (limiter : AuthRateLimiter) (attempts : List Attempt) (attempt : Attempt) : Prop :=
  limiter.maxAttempts.toNat < limiter.hitsIn (.ip attempt.ip) (attempts ++ [attempt]) ∨
    limiter.maxAttempts.toNat < limiter.hitsIn (.account attempt.account) (attempts ++ [attempt])

theorem isSome_recordAt (enabled : limiter.maxAttempts ≠ 0)
    (linked : Linked limiter windows attempts)
    (latest : ∀ earlier ∈ attempts, earlier.now ≤ attempt.now)
    (unsaturated : ∀ bucket, hits attempt bucket = true →
      limiter.hitsIn bucket (attempts ++ [attempt]) < 2 ^ 32) :
    (limiter.recordAt windows attempt).2.isSome = true ↔ Exhausted limiter attempts attempt := by
  simp only [recordAt, if_neg enabled]
  rw [isSome_countBoth, UInt32.lt_iff_toNat_lt, UInt32.lt_iff_toNat_lt]
  have ip := count_eq linked latest (.ip attempt.ip) (by simp [hits])
    (unsaturated _ (by simp [hits]))
  have account := count_eq linked latest (.account attempt.account) (by simp [hits])
    (unsaturated _ (by simp [hits]))
  rw [show ipKey attempt.ip = (Bucket.ip attempt.ip).key from rfl, ip,
    show accountKey attempt.account = (Bucket.account attempt.account).key from rfl, account]
  exact Iff.rfl

end History

section Log

variable {limiter} {windows : Windows} {earlier attempts : List Attempt}

/-- Times do not go back. -/
def Chronological (attempts : List Attempt) : Prop :=
  (attempts.map Attempt.now).Pairwise (· ≤ ·)

/-- No window counter reaches `u32::MAX`. -/
def Unsaturated (limiter : AuthRateLimiter) (attempts : List Attempt) : Prop :=
  ∀ before attempt after, attempts = before ++ attempt :: after →
    ∀ bucket, hits attempt bucket = true →
      limiter.hitsIn bucket (before ++ [attempt]) < 2 ^ 32 - 1

theorem map_recordAll : (limiter.recordAll windows attempts).2.map Prod.fst = attempts := by
  induction attempts generalizing windows with
  | nil => rfl
  | cons attempt rest inductionHypothesis =>
      simp only [recordAll, List.map_cons]
      rw [inductionHypothesis]

theorem Chronological.latest {attempt : Attempt} {rest : List Attempt}
    (chronological : Chronological (earlier ++ attempt :: rest)) :
    ∀ other ∈ earlier, other.now ≤ attempt.now := by
  intro other member
  unfold Chronological at chronological
  rw [List.map_append, List.pairwise_append] at chronological
  exact chronological.2.2 other.now (List.mem_map_of_mem member) attempt.now (by simp)

/-- Every answer of a log says whether a bucket was exhausted at its attempt. -/
theorem answer_of_linked (enabled : limiter.maxAttempts ≠ 0)
    (linked : Linked limiter windows earlier) (chronological : Chronological (earlier ++ attempts))
    (unsaturated : Unsaturated limiter (earlier ++ attempts))
    {front back : List (Attempt × Option UInt64)} {attempt : Attempt} {answer : Option UInt64}
    (split : (limiter.recordAll windows attempts).2 = front ++ (attempt, answer) :: back) :
    answer.isSome = true ↔ Exhausted limiter (earlier ++ front.map Prod.fst) attempt := by
  induction attempts generalizing windows earlier front with
  | nil => simp [recordAll] at split
  | cons first rest inductionHypothesis =>
      have small : ∀ bucket, hits first bucket = true →
          limiter.hitsIn bucket (earlier ++ [first]) < 2 ^ 32 :=
        fun bucket hit => (unsaturated earlier first rest rfl bucket hit).trans (by decide)
      simp only [recordAll] at split
      cases front with
      | nil =>
          obtain ⟨head, _⟩ := List.cons.inj split
          cases head
          rw [List.map_nil, List.append_nil]
          exact isSome_recordAt enabled linked chronological.latest small
      | cons entry front =>
          obtain ⟨rfl, later⟩ := List.cons.inj split
          have next := linked_recordAt enabled linked chronological.latest small
          rw [List.append_cons] at chronological unsaturated
          rw [List.map_cons, List.append_cons]
          exact inductionHypothesis next chronological unsaturated later

theorem linked_empty : Linked limiter (.empty _) [] := by
  intro bucket
  refine ⟨?_, ?_⟩
  · intro entry found
    cases found
  · intro _ window last
    cases last

theorem times_map (bucket : Bucket) (log : List (Attempt × Option UInt64)) :
    times bucket (log.map Prod.fst) = (visits bucket log).map Rate.Visit.time := by
  unfold times visits
  rw [List.filter_map, List.map_map, List.map_map]
  rfl

theorem hitsIn_le_of_not_exhausted {bucket : Bucket} {attempt : Attempt}
    (hit : hits attempt bucket = true) (left : ¬ Exhausted limiter attempts attempt) :
    limiter.hitsIn bucket (attempts ++ [attempt]) ≤ limiter.maxAttempts.toNat := by
  obtain ⟨ip, account⟩ := not_or.mp left
  rcases hits_eq_true_iff.mp hit with rfl | rfl
  · exact not_lt.mp ip
  · exact not_lt.mp account

/-- The visits of a bucket that were let through are among the first of their windows. -/
theorem limited_visits (enabled : limiter.maxAttempts ≠ 0)
    (chronological : Chronological attempts) (unsaturated : Unsaturated limiter attempts)
    (bucket : Bucket) :
    Rate.Limited limiter.span limiter.maxAttempts.toNat
      (visits bucket (limiter.recordAll (.empty _) attempts).2) := by
  intro before visit after split allowed
  obtain ⟨front, rest, filtered, rfl, restVisits⟩ := List.map_eq_append_iff.mp split
  obtain ⟨⟨attempt, answer⟩, tail, rfl, rfl, _⟩ := List.map_eq_cons_iff.mp restVisits
  obtain ⟨first, second, log, rfl, later⟩ := List.filter_eq_append_iff.mp filtered
  obtain ⟨skipped, others, rfl, unhit, hit, _⟩ := List.filter_eq_cons_iff.mp later
  have answered := answer_of_linked enabled linked_empty chronological unsaturated
    (log.trans (List.append_assoc first skipped _).symm)
  have left : ¬ Exhausted limiter ((first ++ skipped).map Prod.fst) attempt := by
    intro exhausted
    have blocked := answered.mpr exhausted
    simp_all
  have bound := hitsIn_le_of_not_exhausted hit left
  rw [hitsIn_concat hit, times_map] at bound
  have nothing : skipped.filter (fun entry => hits entry.1 bucket) = [] :=
    List.filter_eq_nil_iff.mpr unhit
  simpa [visits, nothing] using bound

theorem pairwise_visits (chronological : Chronological attempts) (bucket : Bucket) :
    ((visits bucket (limiter.recordAll windows attempts).2).map Rate.Visit.time).Pairwise
      (· ≤ ·) := by
  rw [← times_map, map_recordAll]
  exact chronological.sublist (List.filter_sublist.map Attempt.now)

/-- At most `max_attempts` attempts of a bucket pass in one of its windows, at most twice as many
in an interval no longer than a window, and an attempt is blocked exactly when more than
`max_attempts` have hit the window of its address or of its account. -/
theorem attempts_limited (limiter : AuthRateLimiter) (enabled : 0 < limiter.maxAttempts)
    (long : 1 ≤ limiter.windowSecs) (attempts : List Attempt)
    (chronological : Chronological attempts) (unsaturated : Unsaturated limiter attempts) :
    (∀ bucket start, Rate.allowedIn limiter.span start
        (visits bucket (limiter.recordAll (.empty _) attempts).2) ≤ limiter.maxAttempts.toNat) ∧
    (∀ bucket first last, last ≤ first + limiter.span →
      Rate.allowedBetween first last (visits bucket (limiter.recordAll (.empty _) attempts).2) ≤
        2 * limiter.maxAttempts.toNat) ∧
    ∀ front attempt answer back,
      (limiter.recordAll (.empty _) attempts).2 = front ++ (attempt, answer) :: back →
      (answer.isSome = true ↔
        limiter.maxAttempts.toNat <
            limiter.hitsIn (.ip attempt.ip) (front.map Prod.fst ++ [attempt]) ∨
          limiter.maxAttempts.toNat <
            limiter.hitsIn (.account attempt.account) (front.map Prod.fst ++ [attempt])) := by
  have positive : ∀ time : Instant, time < time + limiter.span := by
    intro time
    simp only [span, seconds]
    grind
  have nonzero : limiter.maxAttempts ≠ 0 := by
    rintro zero
    rw [zero] at enabled
    exact absurd enabled (by decide)
  refine ⟨?_, ?_, ?_⟩
  · intro bucket start
    exact Rate.allowedIn_le positive start (pairwise_visits chronological bucket)
      (limited_visits nonzero chronological unsaturated bucket)
  · intro bucket first last short
    exact Rate.allowedBetween_le positive short (pairwise_visits chronological bucket)
      (limited_visits nonzero chronological unsaturated bucket)
  · intro front attempt answer back split
    exact answer_of_linked nonzero linked_empty chronological unsaturated split

theorem unsaturated_of_length (few : attempts.length < 2 ^ 32 - 1) :
    Unsaturated limiter attempts := by
  intro before attempt after split bucket _
  have counted : limiter.hitsIn bucket (before ++ [attempt]) ≤ (before ++ [attempt]).length := by
    unfold hitsIn
    cases last : Rate.current limiter.span (times bucket (before ++ [attempt])) with
    | none => exact Nat.zero_le _
    | some window =>
        refine (Rate.hits_le_length last).trans ?_
        unfold times
        rw [List.length_map]
        exact List.length_filter_le _ _
  have longer : (before ++ [attempt]).length ≤ attempts.length := by
    rw [split]
    simp
  omega

def threeLogins : List Attempt := [⟨0, "::1", "a"⟩, ⟨0, "::1", "b"⟩, ⟨seconds 1, "::1", "c"⟩]

/-- One attempt per second: the second login is blocked, the third opens a window. -/
theorem third_login_passes :
    ((AuthRateLimiter.new 1 1).recordAll (.empty _) threeLogins).2.map Prod.snd =
        [none, some 1, none] ∧
      Rate.allowedBetween 0 (seconds 1) (visits (.ip "::1")
        ((AuthRateLimiter.new 1 1).recordAll (.empty _) threeLogins).2) ≤ 2 := by
  refine ⟨by decide, ?_⟩
  exact (attempts_limited (.new 1 1) (by decide) (by decide) threeLogins
    (by unfold Chronological; decide) (unsaturated_of_length (by decide))).2.1 (.ip "::1") 0
      (seconds 1) (by decide)

end Log

section Sweep

variable {swept unswept : Windows} {attempt : Attempt} {now : Instant} {key : String}

/-- `record_at` without the sweep. -/
def recordUnswept (limiter : AuthRateLimiter) (windows : Windows) (attempt : Attempt) :
    Windows × Option UInt64 :=
  if limiter.maxAttempts = 0 then (windows, none) else limiter.countBoth windows attempt

def unsweptAnswers (limiter : AuthRateLimiter) : Windows → List Attempt → List (Option UInt64)
  | _, [] => []
  | windows, attempt :: rest =>
      (limiter.recordUnswept windows attempt).2 ::
        unsweptAnswers limiter (limiter.recordUnswept windows attempt).1 rest

/-- The swept map lacks at most windows that are over. -/
def Swept (now : Instant) (swept unswept : Windows) : Prop :=
  ∀ key, swept.find? key = unswept.find? key ∨
    (swept.find? key = none ∧ ∃ entry, unswept.find? key = some entry ∧ entry.2.resetAt ≤ now)

theorem Swept.mono (related : Swept now swept unswept) {later : Instant} (after : now ≤ later) :
    Swept later swept unswept := by
  intro key
  rcases related key with same | ⟨absent, entry, found, over'⟩
  · exact Or.inl same
  · exact Or.inr ⟨absent, entry, found, over'.trans after⟩

/-- A window that is over is replaced, so it does not matter whether it was dropped. -/
theorem Swept.windowAt_eq (related : Swept now swept unswept) (limiter : AuthRateLimiter)
    (key : String) : limiter.windowAt swept now key = limiter.windowAt unswept now key := by
  rcases related key with same | ⟨absent, entry, found, over'⟩
  · unfold windowAt
    rw [same]
  · rw [windowAt_of_absent absent, windowAt_of_found found, if_pos over']

theorem Swept.countKey (related : Swept now swept unswept) (limiter : AuthRateLimiter)
    (key : String) :
    Swept now (limiter.countKey swept now key).1 (limiter.countKey unswept now key).1 ∧
      (limiter.countKey swept now key).2 = (limiter.countKey unswept now key).2 := by
  have same := related.windowAt_eq limiter key
  constructor
  · intro other
    rw [find?_countKey, find?_countKey, same]
    split
    next => exact Or.inl rfl
    next => exact related other
  · simp only [AuthRateLimiter.countKey, same]

theorem Swept.countBoth (related : Swept attempt.now swept unswept)
    (limiter : AuthRateLimiter) :
    Swept attempt.now (limiter.countBoth swept attempt).1 (limiter.countBoth unswept attempt).1 ∧
      (limiter.countBoth swept attempt).2 = (limiter.countBoth unswept attempt).2 := by
  have first := related.countKey limiter (ipKey attempt.ip)
  have second := first.1.countKey limiter (accountKey attempt.account)
  refine ⟨second.1, ?_⟩
  simp only [AuthRateLimiter.countBoth, first.2, second.2]

theorem Swept.retain (related : Swept now swept unswept) :
    Swept now (retain swept now) unswept := by
  intro key
  rw [find?_retain]
  rcases related key with same | ⟨absent, expired⟩
  · cases found : unswept.find? key with
    | none =>
        left
        rw [same, found]
        rfl
    | some entry =>
        rw [same, found]
        by_cases live : now < entry.2.resetAt
        · left
          simp [live]
        · right
          exact ⟨by simpa using live, entry, rfl, not_lt.mp live⟩
  · right
    rw [absent]
    exact ⟨rfl, expired⟩

theorem Swept.recordAt (related : Swept now swept unswept) (limiter : AuthRateLimiter)
    (after : now ≤ attempt.now) :
    Swept attempt.now (limiter.recordAt swept attempt).1 (limiter.recordUnswept unswept attempt).1 ∧
      (limiter.recordAt swept attempt).2 = (limiter.recordUnswept unswept attempt).2 := by
  have later := related.mono after
  unfold AuthRateLimiter.recordAt recordUnswept
  split
  next => exact ⟨later, rfl⟩
  next =>
    obtain ⟨counted, answers⟩ := later.countBoth limiter
    refine ⟨?_, answers⟩
    simp only
    split
    next => exact counted.retain
    next => exact counted

theorem Swept.recordAll {attempts : List Attempt} (related : Swept now swept unswept)
    (limiter : AuthRateLimiter) (after : ∀ attempt ∈ attempts, now ≤ attempt.now)
    (chronological : Chronological attempts) :
    (limiter.recordAll swept attempts).2.map Prod.snd =
      limiter.unsweptAnswers unswept attempts := by
  induction attempts generalizing now swept unswept with
  | nil => rfl
  | cons attempt rest inductionHypothesis =>
      obtain ⟨next, same⟩ := related.recordAt limiter (after attempt (by simp))
      obtain ⟨earliest, rest_chronological⟩ := List.pairwise_cons.mp chronological
      simp only [AuthRateLimiter.recordAll, unsweptAnswers, List.map_cons, same]
      congr 1
      apply inductionHypothesis next _ rest_chronological
      intro other member
      exact earliest other.now (List.mem_map_of_mem member)

theorem windows_cons (limiter : AuthRateLimiter) (windows : Windows) (rest : List Attempt) :
    (limiter.recordAll windows (attempt :: rest)).1 =
      (limiter.recordAll (limiter.recordAt windows attempt).1 rest).1 := rfl

theorem windows_append (limiter : AuthRateLimiter) (windows : Windows)
    (first second : List Attempt) :
    (limiter.recordAll windows (first ++ second)).1 =
      (limiter.recordAll (limiter.recordAll windows first).1 second).1 := by
  induction first generalizing windows with
  | nil => rfl
  | cons attempt rest inductionHypothesis =>
      rw [List.cons_append, windows_cons, windows_cons]
      exact inductionHypothesis _

/-- The sweep changes no answer, and leaves open windows only. -/
theorem sweep_invisible (limiter : AuthRateLimiter) (attempts : List Attempt)
    (chronological : Chronological attempts) :
    (limiter.recordAll (.empty _) attempts).2.map Prod.snd =
        limiter.unsweptAnswers (.empty _) attempts ∧
      ∀ before attempt after, attempts = before ++ attempt :: after →
        limiter.maxAttempts ≠ 0 →
        sweeps (limiter.countBoth (limiter.recordAll (.empty _) before).1 attempt).1 = true →
        ∀ entry ∈ (limiter.recordAll (.empty _) (before ++ [attempt])).1,
          attempt.now < entry.2.resetAt := by
  constructor
  · cases attempts with
    | nil => rfl
    | cons first rest =>
        have start : Swept first.now (.empty _) (.empty _) := fun _ => Or.inl rfl
        apply start.recordAll limiter _ chronological
        intro other member
        rcases List.mem_cons.mp member with rfl | later
        · exact le_refl _
        · exact (List.pairwise_cons.mp chronological).1 other.now (List.mem_map_of_mem later)
  · intro before attempt after _ enabled sweeping entry member
    rw [windows_append] at member
    simp only [AuthRateLimiter.recordAll, AuthRateLimiter.recordAt, if_neg enabled,
      if_pos sweeping, AuthRateLimiter.retain, Table.mem_delete] at member
    simpa using member.2

/-- The map after a whole log is in step with it. -/
theorem linked_recordAll {attempts : List Attempt} (enabled : limiter.maxAttempts ≠ 0)
    (chronological : Chronological attempts) (few : attempts.length < 2 ^ 32 - 1) :
    Linked limiter (limiter.recordAll (.empty _) attempts).1 attempts := by
  induction attempts using List.reverseRecOn with
  | nil => exact linked_empty
  | append_singleton earlier attempt inductionHypothesis =>
      have shorter : earlier.length < 2 ^ 32 - 1 := by
        rw [List.length_append] at few
        omega
      have ordered := chronological
      unfold Chronological at ordered
      rw [List.map_append, List.pairwise_append] at ordered
      rw [windows_append]
      apply linked_recordAt enabled (inductionHypothesis ordered.1 shorter) chronological.latest
      intro bucket hit
      exact (unsaturated_of_length few earlier attempt [] rfl bucket hit).trans (by decide)

theorem isSome_find?_iff {windows : Windows} {key : String} :
    (windows.find? key).isSome = true ↔ key ∈ windows.rows.map Prod.fst := by
  cases found : windows.find? key with
  | some entry =>
      obtain ⟨member, same⟩ := Table.find?_eq_some_iff.mp found
      exact iff_of_true rfl (List.mem_map.mpr ⟨entry, member, same⟩)
  | none =>
      apply iff_of_false (by simp)
      intro member
      obtain ⟨entry, inTable, same⟩ := List.mem_map.mp member
      exact Table.find?_eq_none_iff.mp found entry inTable same

/-- While no window is over the map holds all of them. -/
theorem isSome_find?_of_open {attempts : List Attempt} {windows : Windows}
    (linked : Linked limiter windows attempts) {bucket : Bucket} (visited : attempt ∈ attempts)
    (hit : hits attempt bucket = true)
    (opened : ∀ first ∈ attempts, ∀ last ∈ attempts, last.now < first.now + limiter.span) :
    (windows.find? bucket.key).isSome = true := by
  have nonempty : times bucket attempts ≠ [] :=
    List.ne_nil_of_mem (List.mem_map_of_mem (List.mem_filter.mpr ⟨visited, hit⟩))
  cases found : windows.find? bucket.key with
  | some entry => rfl
  | none =>
      obtain ⟨window, last⟩ :=
        Option.ne_none_iff_exists'.mp (mt Rate.current_eq_none_iff.mp nonempty)
      obtain ⟨first, started, start⟩ := List.mem_map.mp (Rate.start_mem_of_current last)
      obtain ⟨earlier, before, over'⟩ := (linked bucket).2 found window last
      rw [← start] at over'
      exact absurd (opened first (List.mem_filter.mp started).1 earlier before) (not_lt.mpr over')

def visitor (number : Nat) : String := String.ofList (List.replicate number 'x')

/-- First logins at one time, from different addresses to different accounts. -/
def crowd (size : Nat) : List Attempt :=
  (List.range size).map fun number => ⟨0, visitor number, visitor number⟩

theorem visitor_injective : Function.Injective visitor := by
  intro first second same
  have texts := congrArg String.length same
  simpa [visitor] using texts

theorem now_of_mem_crowd {size : Nat} {attempt : Attempt} (member : attempt ∈ crowd size) :
    attempt.now = 0 := by
  obtain ⟨_, _, rfl⟩ := List.mem_map.mp member
  rfl

theorem chronological_crowd (size : Nat) (rest : List Attempt)
    (chronological : Chronological rest) (later : ∀ attempt ∈ rest, 0 ≤ attempt.now) :
    Chronological (crowd size ++ rest) := by
  unfold Chronological
  rw [List.map_append, List.pairwise_append]
  have zero : ∀ time ∈ (crowd size).map Attempt.now, time = 0 := by
    intro time member
    obtain ⟨attempt, inCrowd, rfl⟩ := List.mem_map.mp member
    exact now_of_mem_crowd inCrowd
  refine ⟨?_, chronological, ?_⟩
  · apply List.pairwise_of_forall_mem_list
    intro first firstMember second secondMember
    rw [zero first firstMember, zero second secondMember]
  · intro first firstMember second secondMember
    obtain ⟨attempt, inRest, rfl⟩ := List.mem_map.mp secondMember
    rw [zero first firstMember]
    exact later attempt inRest

/-- The keys of the first visitors. -/
def crowdKeys (size : Nat) : List String :=
  (List.range size).map (ipKey ∘ visitor) ++ (List.range size).map (accountKey ∘ visitor)

theorem nodup_crowdKeys (size : Nat) : (crowdKeys size).Nodup := by
  apply List.Nodup.append
  · exact List.nodup_range.map (ipKey_injective.comp visitor_injective)
  · exact List.nodup_range.map (accountKey_injective.comp visitor_injective)
  · intro key asIp asAccount
    obtain ⟨_, _, rfl⟩ := List.mem_map.mp asIp
    obtain ⟨_, _, same⟩ := List.mem_map.mp asAccount
    exact ipKey_ne_accountKey _ _ same.symm

theorem exists_bucket_of_mem_crowdKeys {size : Nat} {key : String} (member : key ∈ crowdKeys size) :
    ∃ number < size, ∃ bucket : Bucket, bucket.key = key ∧
      ∀ now, hits ⟨now, visitor number, visitor number⟩ bucket = true := by
  rcases List.mem_append.mp member with asIp | asAccount
  · obtain ⟨number, inRange, rfl⟩ := List.mem_map.mp asIp
    exact ⟨number, List.mem_range.mp inRange, .ip (visitor number), rfl, by simp [hits]⟩
  · obtain ⟨number, inRange, rfl⟩ := List.mem_map.mp asAccount
    exact ⟨number, List.mem_range.mp inRange, .account (visitor number), rfl, by simp [hits]⟩

/-- The visitors of a crowd and one that comes after it take two entries each. -/
theorem length_countBoth_crowd (enabled : limiter.maxAttempts ≠ 0) (positive : 0 < limiter.span)
    (size : Nat) (few : size < 2 ^ 32 - 1) (now : Instant) :
    2 * (size + 1) ≤ (limiter.countBoth (limiter.recordAll (.empty _) (crowd size)).1
      ⟨now, visitor size, visitor size⟩).1.rows.length := by
  have chronological : Chronological (crowd size) := by
    simpa using chronological_crowd size [] List.Pairwise.nil (by simp)
  have linked := linked_recordAll limiter enabled chronological (by simpa [crowd] using few)
  have opened : ∀ first ∈ crowd size, ∀ last ∈ crowd size, last.now < first.now + limiter.span := by
    intro first firstMember last lastMember
    rw [now_of_mem_crowd firstMember, now_of_mem_crowd lastMember]
    simpa using positive
  have held : crowdKeys (size + 1) ⊆ (limiter.countBoth (limiter.recordAll (.empty _)
      (crowd size)).1 ⟨now, visitor size, visitor size⟩).1.rows.map Prod.fst := by
    intro key member
    obtain ⟨number, bound, bucket, rfl, hit⟩ := exists_bucket_of_mem_crowdKeys member
    rw [← isSome_find?_iff, find?_countBoth]
    split
    next => rfl
    next other =>
      have earlier : number < size := by
        rcases Nat.lt_succ_iff_lt_or_eq.mp bound with earlier | rfl
        · exact earlier
        · exact absurd (hit now) other
      exact isSome_find?_of_open limiter linked
        (List.mem_map.mpr ⟨number, List.mem_range.mpr earlier, rfl⟩) (hit 0) opened
  calc
    2 * (size + 1) = (crowdKeys (size + 1)).length := by
      simp only [crowdKeys, List.length_append, List.length_map, List.length_range]
      omega
    _ ≤ _ := (List.subperm_of_subset (nodup_crowdKeys (size + 1)) held).length_le
    _ = _ := List.length_map _

def straggler : Attempt := ⟨seconds 1, visitor 2048, visitor 2048⟩

/-- The login after a crowd of 2048, when their windows are over, sweeps the map; the login of
one of the crowd after that is answered as without the sweep. -/
theorem crowd_swept :
    (∀ entry ∈ ((AuthRateLimiter.new 1 1).recordAll (.empty _) (crowd 2048 ++ [straggler])).1,
      seconds 1 < entry.2.resetAt) ∧
    ((AuthRateLimiter.new 1 1).recordAll (.empty _)
        (crowd 2048 ++ [straggler, ⟨seconds 1, visitor 0, visitor 0⟩])).2.map Prod.snd =
      (AuthRateLimiter.new 1 1).unsweptAnswers (.empty _)
        (crowd 2048 ++ [straggler, ⟨seconds 1, visitor 0, visitor 0⟩]) := by
  have invisible := sweep_invisible (.new 1 1)
    (crowd 2048 ++ [straggler, ⟨seconds 1, visitor 0, visitor 0⟩])
    (chronological_crowd 2048 _ (by unfold Chronological; decide) (by decide))
  refine ⟨?_, invisible.1⟩
  have swept : sweeps ((AuthRateLimiter.new 1 1).countBoth
      ((AuthRateLimiter.new 1 1).recordAll (.empty _) (crowd 2048)).1 straggler).1 = true := by
    have many := length_countBoth_crowd (.new 1 1) (by decide) (by decide) 2048
      (by decide) (seconds 1)
    have more : sweepThreshold < 2 * (2048 + 1) := by decide
    exact decide_eq_true (more.trans_le many)
  exact invisible.2 (crowd 2048) straggler [⟨seconds 1, visitor 0, visitor 0⟩] rfl (by decide) swept

end Sweep

end AuthRateLimiter

end Picroom
