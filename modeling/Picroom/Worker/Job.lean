import Picroom.Domain.Entity

/-!
# Jobs

The units of work the upload path enqueues and the worker pool consumes, with
the JSON `serde` writes for the internally tagged `JobKind`.
-/

namespace Picroom

inductive JobKind where
  | encodeAvif
  | encodeWebp
  | generateThumbnail (size : UInt32)
  | applyWatermark
  | stripExif
  deriving DecidableEq

def JobKind.tag : JobKind → String
  | .encodeAvif => "encode_avif"
  | .encodeWebp => "encode_webp"
  | .generateThumbnail _ => "generate_thumbnail"
  | .applyWatermark => "apply_watermark"
  | .stripExif => "strip_exif"

/-- `serde_json::to_string(&kind)`. -/
def JobKind.toJson (kind : JobKind) : String :=
  match kind with
  | .generateThumbnail size =>
      "\x7b\"kind\":\"" ++ kind.tag ++ "\",\"size\":" ++ toString size.toNat ++ "\x7d"
  | _ => "\x7b\"kind\":\"" ++ kind.tag ++ "\"\x7d"

def JobKind.thumbnailHead : String := "\x7b\"kind\":\"generate_thumbnail\",\"size\":"

/-- `serde_json::from_str` on the texts `toJson` writes; every other text is refused. -/
def JobKind.ofJson (text : String) : Except String JobKind :=
  let digits := (text.toList.drop JobKind.thumbnailHead.length).dropLast
  let thumbnail := JobKind.generateThumbnail (.ofNat (Nat.ofDigitChars 10 digits 0))
  if text = thumbnail.toJson then .ok thumbnail
  else
    match [JobKind.encodeAvif, .encodeWebp, .applyWatermark, .stripExif].find?
        (·.toJson = text) with
    | some kind => .ok kind
    | none => .error "unknown variant"

theorem JobKind.toList_toJson_generateThumbnail (size : UInt32) :
    (JobKind.generateThumbnail size).toJson.toList =
      JobKind.thumbnailHead.toList ++ (Nat.toDigits 10 size.toNat ++ ['\x7d']) := by
  simp [JobKind.toJson, JobKind.tag, JobKind.thumbnailHead, Nat.repr, toString]

theorem JobKind.take_toJson_generateThumbnail (size : UInt32) :
    (JobKind.generateThumbnail size).toJson.toList.take 10 = "\x7b\"kind\":\"g".toList := by
  rw [JobKind.toList_toJson_generateThumbnail]
  rfl

theorem JobKind.ofJson_toJson (kind : JobKind) : JobKind.ofJson kind.toJson = .ok kind := by
  by_cases thumbnail : ∃ size, kind = .generateThumbnail size
  · obtain ⟨size, rfl⟩ := thumbnail
    have digits : ((JobKind.generateThumbnail size).toJson.toList.drop
        JobKind.thumbnailHead.length).dropLast = Nat.toDigits 10 size.toNat := by
      rw [JobKind.toList_toJson_generateThumbnail, ← String.length_toList, List.drop_left,
        List.dropLast_concat]
    have parsed : UInt32.ofNat (Nat.ofDigitChars 10 (Nat.toDigits 10 size.toNat) 0) = size := by
      rw [Nat.ofDigitChars_ten_toDigits, UInt32.ofNat_toNat]
    simp only [JobKind.ofJson, digits, parsed, if_true]
  · have other : ∀ size, kind.toJson ≠ (JobKind.generateThumbnail size).toJson := by
      intro size same
      have start := JobKind.take_toJson_generateThumbnail size
      rw [← same] at start
      cases kind with
      | generateThumbnail own => exact thumbnail ⟨own, rfl⟩
      | encodeAvif | encodeWebp | applyWatermark | stripExif => exact absurd start (by decide)
    simp only [JobKind.ofJson, if_neg (other _)]
    cases kind with
    | generateThumbnail own => exact absurd ⟨own, rfl⟩ thumbnail
    | encodeAvif | encodeWebp | applyWatermark | stripExif => decide

structure Job where
  id : Uuid
  imageId : Uuid
  kind : JobKind
  attempts : UInt32
  enqueuedAt : Instant
  deriving DecidableEq

inductive JobError where
  | notFound
  | locked
  | processing (message : String)
  | storage (message : String)
  deriving DecidableEq

def JobError.display : JobError → String
  | .notFound => "not found"
  | .locked => "locked"
  | .processing message => "processing: " ++ message
  | .storage message => "storage: " ++ message

inductive JobResult where
  | variant (kind key : String) (bytes : Option (List UInt8))
  | skipped
  deriving DecidableEq

end Picroom
