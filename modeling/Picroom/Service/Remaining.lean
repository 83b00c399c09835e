import Picroom.Service.Allowance

/-!
# The quota service of the API

Both backends run the same queries.  The default cap is bound as `i64`, so a cap from `2 ^ 63` on
becomes negative and then zero, and teams without a row get the default of the users.
-/

namespace Picroom

open Relational

/-- Default per-user quota when no explicit `quotas` row exists (1 GiB). -/
def defaultQuota : UInt64 := 1024 * 1024 * 1024

structure QuotaConfig where
  defaultUserBytes : UInt64
  defaultTeamBytes : UInt64

inductive DatabaseHandle where
  | pg
  | sqlite

namespace QuotaService

def new : QuotaService := ⟨false, Picroom.defaultQuota⟩

def withPool : QuotaService := ⟨true, Picroom.defaultQuota⟩

def withSqlitePool : QuotaService := ⟨true, Picroom.defaultQuota⟩

def withDefaultQuota (service : QuotaService) (bytes : UInt64) : QuotaService :=
  { service with defaultQuota := bytes }

/-- What `run` passes to the upload service. -/
def wired (config : QuotaConfig) : Option DatabaseHandle → QuotaService
  | some .pg => withPool.withDefaultQuota config.defaultUserBytes
  | some .sqlite => withSqlitePool.withDefaultQuota config.defaultUserBytes
  | none => new

section Exactness

variable {service : QuotaService} {caps : QuotaTable} {images : ImageTable} {subjectId : Uuid}
  {selected : ImageRow → Bool}

/-- The cap of a subject: its row, or the default. -/
def configuredCap (caps : QuotaTable) (default : UInt64) (subjectId : Uuid) : Int :=
  match caps.find? subjectId with
  | some row => row.maxBytes.toInt
  | none => default.toNat

/-- The answer is the cap less what is used, and nothing when more is used. -/
def Exact (answer : Except ServiceError UInt64) (cap used : Int) : Prop :=
  ∃ bytes, answer = .ok bytes ∧ (bytes.toNat : Int) = max (cap - used) 0

/-- The default in use leaves what the intended one does: they are the same and fit in `i64`, or
both are used up, where a default that does not fit is used up from the start. -/
def SameAllowance (given intended : UInt64) (used : Int) : Prop :=
  (given = intended ∧ given.toNat < 2 ^ 63) ∨
    ((intended.toNat : Int) ≤ used ∧ ((given.toNat : Int) ≤ used ∨ 2 ^ 63 ≤ given.toNat))

theorem toNat_toInt64 (bytes : UInt64) :
    clampNonnegative bytes.toInt64.toInt = if bytes.toNat < 2 ^ 63 then bytes.toNat else 0 := by
  have signed : bytes.toInt64.toInt =
      if 2 * bytes.toNat < 2 ^ 64 then (bytes.toNat : Int) else bytes.toNat - 2 ^ 64 :=
    BitVec.toInt_eq_toNat_cond bytes.toBitVec
  have size := bytes.toNat_lt
  unfold clampNonnegative
  rw [signed]
  split <;> split <;> omega

theorem remaining_eq_ok (backed : service.backed = true)
    (fits : usedBytes images selected < 2 ^ 63) (caps : QuotaTable) (subjectId : Uuid) :
    ∃ bytes, service.remaining caps images subjectId selected = .ok bytes ∧
      bytes.toNat = service.cap caps subjectId - (usedBytes images selected).toNat := by
  have answered : ∃ bytes, service.remaining caps images subjectId selected = .ok bytes := by
    unfold remaining
    simp only [backed, if_true, if_pos fits]
    exact ⟨_, rfl⟩
  obtain ⟨bytes, answer⟩ := answered
  exact ⟨bytes, answer, of_remaining backed answer⟩

/-- A subject with a row gets an exact answer; another one does when the default in use leaves as
much as the intended one. -/
theorem exact_remaining_iff (backed : service.backed = true)
    (fits : usedBytes images selected < 2 ^ 63) (intended : UInt64) :
    Exact (service.remaining caps images subjectId selected)
        (configuredCap caps intended subjectId) (usedBytes images selected) ↔
      (caps.find? subjectId).isSome = true ∨
        SameAllowance service.defaultQuota intended (usedBytes images selected) := by
  obtain ⟨bytes, answer, value⟩ := remaining_eq_ok backed fits caps subjectId
  have nonneg := usedBytes_nonneg images selected
  have unfolded : Exact (service.remaining caps images subjectId selected)
      (configuredCap caps intended subjectId) (usedBytes images selected) ↔
        (bytes.toNat : Int) =
          max (configuredCap caps intended subjectId - usedBytes images selected) 0 := by
    simp [Exact, answer]
  rw [unfolded, value]
  unfold cap configuredCap
  cases found : caps.find? subjectId with
  | some row =>
      simp only [Option.isSome_some, true_or, iff_true]
      unfold clampNonnegative
      omega
  | none =>
      simp only [Option.isSome_none, Bool.false_eq_true, false_or, toNat_toInt64, SameAllowance,
        ← UInt64.toNat_inj]
      have size := service.defaultQuota.toNat_lt
      split
      next small => omega
      next large => omega

/-- The wired service answers exactly what is left of the configured caps when a user without a
row has a default that fits in `i64`, and a team without a row is left with as much by the default
of the users as by its own. -/
theorem remaining_exact_iff (config : QuotaConfig) (handle : DatabaseHandle)
    (quotas teamQuotas : QuotaTable) (images : ImageTable) (userId teamId : Uuid)
    (userFits : usedBytes images (·.ownerId == userId) < 2 ^ 63)
    (teamFits : usedBytes images (·.teamId == some teamId) < 2 ^ 63) :
    (Exact ((wired config (some handle)).remainingUser quotas images userId)
          (configuredCap quotas config.defaultUserBytes userId)
          (usedBytes images (·.ownerId == userId)) ∧
        Exact ((wired config (some handle)).remainingTeam teamQuotas images teamId)
          (configuredCap teamQuotas config.defaultTeamBytes teamId)
          (usedBytes images (·.teamId == some teamId))) ↔
      ((quotas.find? userId).isSome = true ∨ config.defaultUserBytes.toNat < 2 ^ 63) ∧
        ((teamQuotas.find? teamId).isSome = true ∨
          SameAllowance config.defaultUserBytes config.defaultTeamBytes
            (usedBytes images (·.teamId == some teamId))) := by
  have backed : (wired config (some handle)).backed = true := by cases handle <;> rfl
  have default : (wired config (some handle)).defaultQuota = config.defaultUserBytes := by
    cases handle <;> rfl
  have own : SameAllowance config.defaultUserBytes config.defaultUserBytes
      (usedBytes images (·.ownerId == userId)) ↔ config.defaultUserBytes.toNat < 2 ^ 63 := by
    unfold SameAllowance
    grind
  unfold remainingUser remainingTeam
  rw [exact_remaining_iff backed userFits, exact_remaining_iff backed teamFits, default, own]

/-- A gigabyte per user and per team, and one image of ten bytes. -/
theorem remaining_pixel :
    usedBytes ⟨[.pixel ⟨3⟩ ⟨1⟩ (some ⟨2⟩)], by simp⟩ (·.ownerId == ⟨1⟩) < 2 ^ 63 ∧
      Exact ((wired ⟨1073741824, 1073741824⟩ (some .sqlite)).remainingTeam (.empty _)
          ⟨[.pixel ⟨3⟩ ⟨1⟩ (some ⟨2⟩)], by simp⟩ ⟨2⟩)
        (configuredCap (.empty _) 1073741824 ⟨2⟩)
        (usedBytes ⟨[.pixel ⟨3⟩ ⟨1⟩ (some ⟨2⟩)], by simp⟩ (·.teamId == some ⟨2⟩)) := by
  refine ⟨by decide, ?_⟩
  exact ((remaining_exact_iff ⟨1073741824, 1073741824⟩ .sqlite (.empty _) (.empty _)
    ⟨[.pixel ⟨3⟩ ⟨1⟩ (some ⟨2⟩)], by simp⟩ ⟨1⟩ ⟨2⟩ (by decide) (by decide)).mpr
    ⟨Or.inr (by decide), Or.inr (Or.inl ⟨rfl, by decide⟩)⟩).2

/-- The defaults of the configuration, 10 GiB per user and 1 TiB per team: a team without a row
and without images is left with 10 GiB. -/
theorem team_default_ignored :
    (wired ⟨10737418240, 1099511627776⟩ (some .pg)).remainingTeam (.empty _) (.empty _) ⟨2⟩ =
        .ok 10737418240 ∧
      ¬ Exact ((wired ⟨10737418240, 1099511627776⟩ (some .pg)).remainingTeam (.empty _)
          (.empty _) ⟨2⟩)
        (configuredCap (.empty _) 1099511627776 ⟨2⟩)
        (usedBytes (.empty _) (·.teamId == some ⟨2⟩)) := by
  have answer : (wired ⟨10737418240, 1099511627776⟩ (some .pg)).remainingTeam (.empty _)
      (.empty _) ⟨2⟩ = .ok 10737418240 := rfl
  refine ⟨answer, ?_⟩
  rw [answer]
  rintro ⟨bytes, same, value⟩
  cases same
  exact absurd value (by decide)

end Exactness

end QuotaService

end Picroom
