import Picroom.Api.RateLimit

/-!
# The advertised wait

A blocked caller is told to come back after whole seconds, and the fraction of a second that is
left of a window is cut off.  A bucket that the attempt fills to the last place counts too: the
next attempt overruns it unless its window is over by then.
-/

namespace Picroom

open Relational

namespace AuthRateLimiter

variable (limiter : AuthRateLimiter) (windows : Windows) (attempt : Attempt)

/-- How long the window of a bucket lasts after the attempt. -/
def remaining (bucket : Bucket) : Int :=
  (limiter.windowAt windows attempt.now bucket.key).resetAt - attempt.now

/-- The attempt is one too many for its bucket. -/
structure Overruns (bucket : Bucket) : Prop where
  hit : hits attempt bucket = true
  blocked : limiter.maxAttempts < (limiter.windowAt windows attempt.now bucket.key).counted.count

/-- Another attempt in the same window would be one too many. -/
structure Spends (bucket : Bucket) : Prop where
  hit : hits attempt bucket = true
  full : limiter.maxAttempts <
    (limiter.windowAt windows attempt.now bucket.key).counted.counted.count

/-- A window that the next attempt would overrun is over within a second, or a whole number of
seconds lies between its end and the end of a window that this attempt overruns. -/
def OverInWholeSeconds : Prop :=
  ∀ bucket, limiter.Spends windows attempt bucket →
    limiter.remaining windows attempt bucket ≤ seconds 1 ∨
      ∃ other, limiter.Overruns windows attempt other ∧
        ∃ whole : Int, limiter.remaining windows attempt bucket ≤ seconds whole ∧
          seconds whole ≤ limiter.remaining windows attempt other

/-- Once the wait is over the caller passes, when nobody else uses its buckets meanwhile. -/
def Honest (earlier : List Attempt) (wait : UInt64) : Prop :=
  ∀ between again, Chronological (earlier ++ attempt :: (between ++ [again])) →
    (∀ other ∈ between, ∀ bucket, hits attempt bucket = true → hits other bucket = false) →
    again.ip = attempt.ip → again.account = attempt.account →
    attempt.now + seconds wait.toNat ≤ again.now →
    (limiter.recordAt (limiter.recordAll (.empty _) (earlier ++ attempt :: between)).1 again).2 =
      none

section Windows

variable {limiter windows attempt} {bucket : Bucket} {now later : Instant}

/-- What the sweep drops would be replaced. -/
theorem windowAt_retain (after : now ≤ later) (key : String) :
    limiter.windowAt (retain windows now) later key = limiter.windowAt windows later key := by
  have same : Swept now windows windows := fun _ => Or.inl rfl
  exact (same.retain.mono after).windowAt_eq limiter key

theorem windowAt_recordAt (enabled : limiter.maxAttempts ≠ 0) (after : attempt.now ≤ later)
    (key : String) :
    limiter.windowAt (limiter.recordAt windows attempt).1 later key =
      limiter.windowAt (limiter.countBoth windows attempt).1 later key := by
  simp only [recordAt, if_neg enabled]
  split
  next => exact windowAt_retain after key
  next => rfl

/-- A bucket that the attempt does not hit keeps its window. -/
theorem windowAt_recordAt_of_missed (enabled : limiter.maxAttempts ≠ 0)
    (missed : hits attempt bucket = false) (after : attempt.now ≤ later) :
    limiter.windowAt (limiter.recordAt windows attempt).1 later bucket.key =
      limiter.windowAt windows later bucket.key := by
  rw [windowAt_recordAt enabled after]
  unfold windowAt
  rw [find?_countBoth, missed]
  rfl

/-- A bucket that the attempt hits holds the counted window until it is over. -/
theorem windowAt_recordAt_of_hit (enabled : limiter.maxAttempts ≠ 0)
    (hit : hits attempt bucket = true) (after : attempt.now ≤ later) :
    limiter.windowAt (limiter.recordAt windows attempt).1 later bucket.key =
      if (limiter.windowAt windows attempt.now bucket.key).resetAt ≤ later then
        limiter.openWindow later
      else (limiter.windowAt windows attempt.now bucket.key).counted := by
  have found : (limiter.countBoth windows attempt).1.find? bucket.key =
      some (bucket.key, (limiter.windowAt windows attempt.now bucket.key).counted) := by
    rw [find?_countBoth, if_pos hit]
  rw [windowAt_recordAt enabled after, windowAt_of_found found]
  rfl

theorem windowAt_recordAll (enabled : limiter.maxAttempts ≠ 0) {between : List Attempt}
    (missed : ∀ other ∈ between, hits other bucket = false)
    (before : ∀ other ∈ between, other.now ≤ later) :
    limiter.windowAt (limiter.recordAll windows between).1 later bucket.key =
      limiter.windowAt windows later bucket.key := by
  induction between generalizing windows with
  | nil => rfl
  | cons other rest inductionHypothesis =>
      rw [windows_cons, inductionHypothesis
        (fun next member => missed next (List.mem_cons_of_mem _ member))
        fun next member => before next (List.mem_cons_of_mem _ member)]
      exact windowAt_recordAt_of_missed enabled (missed other (by simp)) (before other (by simp))

/-- An attempt passes when it overruns neither bucket. -/
theorem recordAt_eq_none_iff (enabled : limiter.maxAttempts ≠ 0) :
    (limiter.recordAt windows attempt).2 = none ↔
      ∀ bucket, ¬ limiter.Overruns windows attempt bucket := by
  have blocked : (limiter.recordAt windows attempt).2.isSome = true ↔
      ∃ bucket, limiter.Overruns windows attempt bucket := by
    simp only [recordAt, if_neg enabled]
    rw [isSome_countBoth]
    constructor
    · rintro (ip | account)
      · exact ⟨.ip attempt.ip, hits_eq_true_iff.mpr (Or.inl rfl), ip⟩
      · exact ⟨.account attempt.account, hits_eq_true_iff.mpr (Or.inr rfl), account⟩
    · rintro ⟨bucket, hit, blocked⟩
      rcases hits_eq_true_iff.mp hit with rfl | rfl
      · exact Or.inl blocked
      · exact Or.inr blocked
  rw [← not_exists, ← blocked, Option.not_isSome_iff_eq_none]

end Windows

section Wait

variable {limiter windows attempt} {bucket : Bucket}

/-- No window ends later than a window that is opened at the time. -/
def EndsBy (limiter : AuthRateLimiter) (windows : Windows) (latest : Instant) : Prop :=
  ∀ key entry, windows.find? key = some entry → entry.2.resetAt ≤ latest + limiter.span

theorem resetAt_windowAt_le {latest : Instant} (ends : EndsBy limiter windows latest)
    {now : Instant} (before : now ≤ latest) (key : String) :
    (limiter.windowAt windows now key).resetAt ≤ latest + limiter.span := by
  have opened : (limiter.openWindow now).resetAt ≤ latest + limiter.span :=
    add_le_add_left before limiter.span
  cases found : windows.find? key with
  | none => rwa [windowAt_of_absent found]
  | some entry =>
      rw [windowAt_of_found found]
      split
      next => exact opened
      next => exact ends key entry found

theorem endsBy_countKey {latest : Instant} (ends : EndsBy limiter windows latest)
    {now : Instant} (before : now ≤ latest) (key : String) :
    EndsBy limiter (limiter.countKey windows now key).1 latest := by
  intro other entry found
  rw [find?_countKey] at found
  split at found
  next =>
    cases found
    exact resetAt_windowAt_le ends before key
  next => exact ends other entry found

theorem endsBy_recordAt {latest : Instant} (ends : EndsBy limiter windows latest)
    (before : attempt.now ≤ latest) :
    EndsBy limiter (limiter.recordAt windows attempt).1 latest := by
  have counted : EndsBy limiter (limiter.countBoth windows attempt).1 latest :=
    endsBy_countKey (endsBy_countKey ends before _) before _
  unfold recordAt
  split
  next => exact ends
  next =>
    dsimp only
    split
    next =>
      intro key entry found
      rw [find?_retain] at found
      exact counted key entry (Option.filter_eq_some_iff.mp found).1
    next => exact counted

theorem endsBy_recordAll {latest : Instant} (ends : EndsBy limiter windows latest)
    {attempts : List Attempt} (before : ∀ attempt ∈ attempts, attempt.now ≤ latest) :
    EndsBy limiter (limiter.recordAll windows attempts).1 latest := by
  induction attempts generalizing windows with
  | nil => exact ends
  | cons first rest inductionHypothesis =>
      exact inductionHypothesis (endsBy_recordAt ends (before first (by simp)))
        fun other member => before other (List.mem_cons_of_mem _ member)

theorem remaining_nonneg (long : 0 ≤ limiter.span) :
    0 ≤ limiter.remaining windows attempt bucket := by
  have opened : 0 ≤ (limiter.openWindow attempt.now).resetAt - attempt.now := by
    simp only [openWindow]
    grind
  unfold remaining
  cases found : windows.find? bucket.key with
  | none => rwa [windowAt_of_absent found]
  | some entry =>
      rw [windowAt_of_found found]
      split
      next => exact opened
      next running => grind

theorem blockedFor_eq_some {ip account : Option Int} {secs : Int}
    (blocked : blockedFor ip account = some secs) :
    (ip = some secs ∨ account = some secs) ∧ (∀ other, ip = some other → other ≤ secs) ∧
      ∀ other, account = some other → other ≤ secs := by
  cases ip with
  | none =>
      cases account with
      | none => cases blocked
      | some second =>
          cases blocked
          exact ⟨Or.inr rfl, nofun, fun _ same => (Option.some.inj same).ge⟩
  | some first =>
      cases account with
      | none =>
          cases blocked
          exact ⟨Or.inl rfl, fun _ same => (Option.some.inj same).ge, nofun⟩
      | some second =>
          cases blocked
          refine ⟨?_, ?_, ?_⟩
          · rcases max_choice first second with left | right
            · exact Or.inl (congrArg some left.symm)
            · exact Or.inr (congrArg some right.symm)
          · rintro other ⟨⟩
            exact le_max_left first second
          · rintro other ⟨⟩
            exact le_max_right first second

theorem countKey_blocked {windows : Windows} (now : Instant) (key : String) (secs : Int) :
    (limiter.countKey windows now key).2 = some secs ↔
      limiter.maxAttempts < (limiter.windowAt windows now key).counted.count ∧
        wholeSeconds ((limiter.windowAt windows now key).resetAt - now) = secs := by
  unfold countKey
  dsimp only
  rw [Option.ite_none_right_eq_some, Option.some.injEq]
  rfl

/-- The longest wait for a bucket that is overrun, in seconds, and no less than one. -/
theorem recordAt_eq_some (enabled : limiter.maxAttempts ≠ 0) {wait : UInt64}
    (blocked : (limiter.recordAt windows attempt).2 = some wait) :
    ∃ bucket, limiter.Overruns windows attempt bucket ∧
      retryAfter (wholeSeconds (limiter.remaining windows attempt bucket)) = wait ∧
      ∀ other, limiter.Overruns windows attempt other →
        wholeSeconds (limiter.remaining windows attempt other) ≤
          wholeSeconds (limiter.remaining windows attempt bucket) := by
  simp only [recordAt, if_neg enabled, countBoth, Option.map_eq_some_iff] at blocked
  obtain ⟨secs, maximum, rfl⟩ := blocked
  obtain ⟨reached, ipShorter, accountShorter⟩ := blockedFor_eq_some maximum
  have apart := ipKey_ne_accountKey attempt.ip attempt.account
  simp only [countKey_blocked, windowAt_countKey apart] at reached ipShorter accountShorter
  have shorter : ∀ other, limiter.Overruns windows attempt other →
      wholeSeconds (limiter.remaining windows attempt other) ≤ secs := by
    rintro other ⟨hit, over'⟩
    rcases hits_eq_true_iff.mp hit with rfl | rfl
    · exact ipShorter _ ⟨over', rfl⟩
    · exact accountShorter _ ⟨over', rfl⟩
  -- the bucket that gave the maximum
  obtain ⟨longest, overruns, same⟩ : ∃ bucket, limiter.Overruns windows attempt bucket ∧
      wholeSeconds (limiter.remaining windows attempt bucket) = secs := by
    rcases reached with ⟨over', same⟩ | ⟨over', same⟩
    · exact ⟨.ip attempt.ip, ⟨hits_eq_true_iff.mpr (Or.inl rfl), over'⟩, same⟩
    · exact ⟨.account attempt.account, ⟨hits_eq_true_iff.mpr (Or.inr rfl), over'⟩, same⟩
  refine ⟨longest, overruns, congrArg retryAfter same, ?_⟩
  intro other exceeds
  exact (shorter other exceeds).trans same.ge

theorem seconds_le_iff {duration : Int} (nonneg : 0 ≤ duration) (count : Int) :
    seconds count ≤ duration ↔ count ≤ wholeSeconds duration := by
  rw [wholeSeconds, Int.tdiv_eq_ediv_of_nonneg nonneg, Int.le_ediv_iff_mul_le (by decide)]
  rfl

theorem seconds_le_seconds {first second : Int} :
    seconds first ≤ seconds second ↔ first ≤ second :=
  Int.mul_le_mul_right (by decide)

theorem toNat_retryAfter {secs : Int} (nonneg : 0 ≤ secs) (bound : secs < 2 ^ 64) :
    ((retryAfter secs).toNat : Int) = max secs 1 := by
  have value : (UInt64.ofNat secs.toNat).toNat = secs.toNat :=
    UInt64.toNat_ofNat_of_lt' (by rw [UInt64.size]; omega)
  have one : (1 : UInt64).toNat = 1 := rfl
  have larger : max (UInt64.ofNat secs.toNat) 1 =
      if UInt64.ofNat secs.toNat ≤ 1 then 1 else UInt64.ofNat secs.toNat := rfl
  rw [retryAfter, if_pos nonneg, larger]
  split
  next few =>
    rw [UInt64.le_iff_toNat_le, value, one] at few
    omega
  next many =>
    rw [UInt64.le_iff_toNat_le, value, one] at many
    omega

/-- What the advertised wait covers: a second, or the whole seconds of the remaining time of a
bucket that is overrun. -/
theorem le_wait_iff (enabled : limiter.maxAttempts ≠ 0) (long : 0 ≤ limiter.span)
    (short : limiter.windowSecs < 2 ^ 64) (ends : EndsBy limiter windows attempt.now)
    {wait : UInt64} (blocked : (limiter.recordAt windows attempt).2 = some wait)
    (duration : Int) :
    duration ≤ seconds wait.toNat ↔ duration ≤ seconds 1 ∨
      ∃ other, limiter.Overruns windows attempt other ∧
        ∃ whole : Int, duration ≤ seconds whole ∧
          seconds whole ≤ limiter.remaining windows attempt other := by
  obtain ⟨bucket, overruns, advertised, longest⟩ := recordAt_eq_some enabled blocked
  have nonneg : ∀ other, 0 ≤ limiter.remaining windows attempt other :=
    fun _ => remaining_nonneg long
  have bound : wholeSeconds (limiter.remaining windows attempt bucket) < 2 ^ 64 := by
    have ending : limiter.remaining windows attempt bucket ≤ seconds limiter.windowSecs :=
      Int.sub_left_le_of_le_add (resetAt_windowAt_le ends le_rfl bucket.key)
    have within := (seconds_le_iff (nonneg bucket) _).mpr le_rfl
    exact (seconds_le_seconds.mp (within.trans ending)).trans_lt short
  have value : (wait.toNat : Int) =
      max (wholeSeconds (limiter.remaining windows attempt bucket)) 1 := by
    rw [← advertised]
    exact toNat_retryAfter ((seconds_le_iff (nonneg bucket) 0).mp (nonneg bucket)) bound
  rw [value]
  constructor
  · intro covered
    rcases max_choice (wholeSeconds (limiter.remaining windows attempt bucket)) 1 with left | right
    · rw [left] at covered
      exact Or.inr ⟨bucket, overruns, _, covered, (seconds_le_iff (nonneg bucket) _).mpr le_rfl⟩
    · rw [right] at covered
      exact Or.inl covered
  · rintro (second | ⟨other, overrun, whole, covered, within⟩)
    · exact second.trans (seconds_le_seconds.mpr (le_max_right _ _))
    · have fewer := ((seconds_le_iff (nonneg other) whole).mp within).trans (longest other overrun)
      exact covered.trans (seconds_le_seconds.mpr (fewer.trans (le_max_left _ _)))

end Wait

section Result

variable {limiter windows attempt}

/-- The next attempt on the same buckets passes when the windows that it would overrun are
over. -/
theorem next_passes_iff (enabled : limiter.maxAttempts ≠ 0) {between : List Attempt}
    {again : Attempt} (same : ∀ bucket, hits again bucket = hits attempt bucket)
    (missed : ∀ other ∈ between, ∀ bucket, hits attempt bucket = true → hits other bucket = false)
    (before : ∀ other ∈ between, other.now ≤ again.now) (after : attempt.now ≤ again.now) :
    (limiter.recordAt (limiter.recordAll (limiter.recordAt windows attempt).1 between).1
        again).2 = none ↔
      ∀ bucket, limiter.Spends windows attempt bucket →
        attempt.now + limiter.remaining windows attempt bucket ≤ again.now := by
  have opened : ∀ now, ¬ limiter.maxAttempts < (limiter.openWindow now).counted.count := by
    intro now
    change ¬ limiter.maxAttempts < 1
    intro few
    rw [UInt32.lt_iff_toNat_lt] at few
    exact enabled (UInt32.toNat_inj.mp (Nat.lt_one_iff.mp few))
  have window : ∀ bucket, hits attempt bucket = true →
      limiter.windowAt (limiter.recordAll (limiter.recordAt windows attempt).1 between).1
          again.now bucket.key =
        if (limiter.windowAt windows attempt.now bucket.key).resetAt ≤ again.now then
          limiter.openWindow again.now
        else (limiter.windowAt windows attempt.now bucket.key).counted := by
    intro bucket hit
    rw [windowAt_recordAll enabled (fun other member => missed other member bucket hit) before]
    exact windowAt_recordAt_of_hit enabled hit after
  rw [recordAt_eq_none_iff enabled]
  apply forall_congr'
  intro bucket
  rw [remaining, add_sub_cancel]
  constructor
  · intro passes spends
    by_contra running
    apply passes
    refine ⟨(same bucket).trans spends.hit, ?_⟩
    rw [window bucket spends.hit, if_neg running]
    exact spends.full
  · intro over' overruns
    have hit := (same bucket).symm.trans overruns.hit
    have blocked := overruns.blocked
    rw [window bucket hit] at blocked
    split at blocked
    next => exact opened again.now blocked
    next running => exact running (over' ⟨hit, blocked⟩)

theorem hits_congr {first second : Attempt} (ip : first.ip = second.ip)
    (account : first.account = second.account) (bucket : Bucket) :
    hits first bucket = hits second bucket := by
  cases bucket with
  | ip address => rw [hits, hits, ip]
  | account name => rw [hits, hits, account]

theorem chronological_concat {attempts : List Attempt} {last : Attempt} :
    Chronological (attempts ++ [last]) ↔
      Chronological attempts ∧ ∀ other ∈ attempts, other.now ≤ last.now := by
  simp [Chronological, List.pairwise_append]

theorem honest_iff_spends (enabled : limiter.maxAttempts ≠ 0) {earlier : List Attempt}
    (chronological : Chronological (earlier ++ [attempt])) (wait : UInt64) :
    limiter.Honest attempt earlier wait ↔
      ∀ bucket, limiter.Spends (limiter.recordAll (.empty _) earlier).1 attempt bucket →
        limiter.remaining (limiter.recordAll (.empty _) earlier).1 attempt bucket ≤
          seconds wait.toNat := by
  have later : attempt.now ≤ attempt.now + seconds wait.toNat :=
    le_add_of_nonneg_right (Int.mul_nonneg (Int.natCast_nonneg _) (by decide))
  constructor
  · intro honest bucket spends
    -- the caller comes back at the first moment it is told to
    obtain ⟨again, ip, account, now⟩ : ∃ again : Attempt, again.ip = attempt.ip ∧
        again.account = attempt.account ∧ again.now = attempt.now + seconds wait.toNat :=
      ⟨⟨attempt.now + seconds wait.toNat, attempt.ip, attempt.account⟩, rfl, rfl, rfl⟩
    have ordered : Chronological (earlier ++ attempt :: ([] ++ [again])) := by
      rw [List.nil_append, List.append_cons, chronological_concat]
      refine ⟨chronological, ?_⟩
      intro other member
      rw [now]
      rcases List.mem_append.mp member with previous | current
      · exact ((chronological_concat.mp chronological).2 other previous).trans later
      · rw [List.mem_singleton.mp current]
        exact later
    have passes := honest [] again ordered (by simp) ip account now.ge
    rw [windows_append, windows_cons] at passes
    have over' := (next_passes_iff enabled (hits_congr ip account) (by simp) (by simp)
      (later.trans now.ge)).mp passes bucket spends
    rw [now] at over'
    exact le_of_add_le_add_left over'
  · intro covered between again ordered missed ip account waited
    rw [List.append_cons, ← List.append_assoc, chronological_concat] at ordered
    rw [windows_append, windows_cons]
    apply (next_passes_iff enabled (hits_congr ip account) missed ?_ (later.trans waited)).mpr
    · intro bucket spends
      exact (add_le_add_right (covered bucket spends) attempt.now).trans waited
    · intro other member
      exact ordered.2 other (List.mem_append_right _ member)

/-- Waiting as advertised suffices exactly when the windows in question are over in whole
seconds. -/
theorem honest_iff (maxAttempts : UInt32) (windowSecs : UInt64) (enabled : 0 < maxAttempts)
    (earlier : List Attempt) (attempt : Attempt)
    (chronological : Chronological (earlier ++ [attempt])) (wait : UInt64)
    (blocked : ((new maxAttempts windowSecs).recordAt
      ((new maxAttempts windowSecs).recordAll (.empty _) earlier).1 attempt).2 = some wait) :
    (new maxAttempts windowSecs).Honest attempt earlier wait ↔
      (new maxAttempts windowSecs).OverInWholeSeconds
        ((new maxAttempts windowSecs).recordAll (.empty _) earlier).1 attempt := by
  have nonzero : (new maxAttempts windowSecs).maxAttempts ≠ 0 := by
    rintro zero
    change maxAttempts = 0 at zero
    rw [zero] at enabled
    exact absurd enabled (by decide)
  have size := windowSecs.toNat_lt
  have short : (new maxAttempts windowSecs).windowSecs < 2 ^ 64 := by
    simp only [new]
    omega
  have long : 0 ≤ (new maxAttempts windowSecs).span := by
    apply Int.mul_nonneg _ (by decide)
    simp only [new]
    omega
  have latest := (chronological_concat.mp chronological).2
  have ends : EndsBy (new maxAttempts windowSecs)
      ((new maxAttempts windowSecs).recordAll (.empty _) earlier).1 attempt.now := by
    apply endsBy_recordAll _ latest
    intro key entry found
    cases found
  rw [honest_iff_spends nonzero chronological]
  unfold OverInWholeSeconds
  simp only [le_wait_iff nonzero long short ends blocked]

/-- A login at the epoch, in windows of ten seconds that allow one. -/
def firstLogin : Attempt := ⟨0, "::1", "a"⟩

def wholeLogin : Attempt := ⟨seconds 1, "::1", "a"⟩

/-- A second later the window has nine seconds left. -/
theorem honest_wholeLogin :
    ((new 1 10).recordAt ((new 1 10).recordAll (.empty _) [firstLogin]).1 wholeLogin).2 = some 9 ∧
      (new 1 10).Honest wholeLogin [firstLogin] 9 := by
  have blocked : ((new 1 10).recordAt ((new 1 10).recordAll (.empty _) [firstLogin]).1
      wholeLogin).2 = some 9 := by decide
  refine ⟨blocked, ?_⟩
  apply (honest_iff 1 10 (by decide) [firstLogin] wholeLogin (by unfold Chronological; decide) 9
    blocked).mpr
  rintro bucket ⟨hit, _⟩
  rcases hits_eq_true_iff.mp hit with rfl | rfl
  · exact Or.inr ⟨.ip "::1", ⟨by decide, by decide⟩, 9, by decide, by decide⟩
  · exact Or.inr ⟨.account "a", ⟨by decide, by decide⟩, 9, by decide, by decide⟩

/-- The second login, half a second after the first. -/
def halfLogin : Attempt := ⟨500000000, "::1", "a"⟩

/-- Nine seconds and a half are advertised as nine: the caller is blocked when it comes back. -/
theorem halfLogin_blocked_again :
    ((new 1 10).recordAt ((new 1 10).recordAll (.empty _) [firstLogin]).1 halfLogin).2 = some 9 ∧
      ((new 1 10).recordAt ((new 1 10).recordAll (.empty _) [firstLogin, halfLogin]).1
        ⟨halfLogin.now + seconds 9, "::1", "a"⟩).2 = some 1 ∧
      ¬ (new 1 10).Honest halfLogin [firstLogin] 9 := by
  have again : ((new 1 10).recordAt ((new 1 10).recordAll (.empty _) [firstLogin, halfLogin]).1
      ⟨halfLogin.now + seconds 9, "::1", "a"⟩).2 = some 1 := by decide
  refine ⟨by decide, again, ?_⟩
  intro honest
  have passes := honest [] ⟨halfLogin.now + seconds 9, "::1", "a"⟩
    (by unfold Chronological; decide) (by simp) rfl rfl (by decide)
  rw [List.cons_append, List.nil_append, again] at passes
  cases passes

end Result

end AuthRateLimiter

end Picroom
