import Picroom.Service.Images

/-!
# Quota service

The remaining bytes of a user or a team: the configured cap, or the default when
no row exists, less the bytes of the images that are not deleted.
-/

namespace Picroom

open Relational

structure QuotaRow where
  subjectId : Uuid
  maxBytes : Int64

abbrev QuotaTable := Table QuotaRow.subjectId

/-- `backed` is false for the service without a pool, which enforces nothing. -/
structure QuotaService where
  backed : Bool
  defaultQuota : UInt64

namespace QuotaService

/-- `row.max(0) as u64`. -/
def clampNonnegative (number : Int) : Nat := number.toNat

/-- `SUM(bytes)` over the images that are selected and not deleted. -/
def usedBytes (images : ImageTable) (selected : ImageRow → Bool) : Int :=
  ((images.rows.filter fun row => selected row && row.status != .deleted).map
    fun row => row.bytes.toInt).sum

/-- The shared body of `remaining_user` and `remaining_team`. -/
def remaining (service : QuotaService) (caps : QuotaTable) (images : ImageTable)
    (subjectId : Uuid) (selected : ImageRow → Bool) : Except ServiceError UInt64 :=
  if service.backed then
    let cap := match caps.find? subjectId with
      | some row => row.maxBytes
      | none => service.defaultQuota.toInt64
    let used := usedBytes images selected
    if used < 2 ^ 63 then
      .ok (.ofNat (clampNonnegative cap.toInt - clampNonnegative used))
    else .error (.internal "quota query: bigint out of range")
  else .ok (.ofNat (2 ^ 64 - 1))

def remainingUser (service : QuotaService) (quotas : QuotaTable) (images : ImageTable)
    (userId : Uuid) : Except ServiceError UInt64 :=
  service.remaining quotas images userId (·.ownerId == userId)

def remainingTeam (service : QuotaService) (teamQuotas : QuotaTable) (images : ImageTable)
    (teamId : Uuid) : Except ServiceError UInt64 :=
  service.remaining teamQuotas images teamId (·.teamId == some teamId)

end QuotaService

end Picroom
