import Picroom.Service.Ledger

/-!
# Public objects of a deleted image

`GET /i/*key` consults storage alone.  Delete removes the original, so its link is dead for
good; the variants the worker has put under keys of their own are not removed by anything,
so they stay public.
-/

namespace Picroom

/-- `StorageReader::get` on a storage whose backend answers. -/
def Storage.get (storage : Storage) (key : StorageKey) : Except StorageError (List UInt8) :=
  match storage key with
  | none => .error (.notFound key.text)
  | some content => .ok content

namespace PublicHandlers

def mapStorageError : StorageError → ApiError
  | .notFound _ => ⟨404, "not_found", "no such object", none⟩
  | other => .internal other.display

def slice (bytes : List UInt8) (start stop : Nat) : List UInt8 :=
  (bytes.drop start).take (stop - start)

def isAvif (bytes : List UInt8) : Bool :=
  12 ≤ bytes.length && slice bytes 4 8 == "ftyp".toUTF8.toList &&
    ["avif", "avis", "mif1"].any fun brand => slice bytes 8 12 == brand.toUTF8.toList

def sniffContentType (bytes : List UInt8) : String :=
  if [0xFF, 0xD8, 0xFF].isPrefixOf bytes then "image/jpeg"
  else if [0x89, 0x50, 0x4E, 0x47, 0x0D, 0x0A, 0x1A, 0x0A].isPrefixOf bytes then "image/png"
  else if "GIF87a".toUTF8.toList.isPrefixOf bytes || "GIF89a".toUTF8.toList.isPrefixOf bytes then
    "image/gif"
  else if 12 ≤ bytes.length && slice bytes 0 4 == "RIFF".toUTF8.toList &&
      slice bytes 8 12 == "WEBP".toUTF8.toList then "image/webp"
  else if isAvif bytes then "image/avif"
  else "application/octet-stream"

structure PublicObject where
  contentType : String
  cacheControl : String := "public, max-age=31536000, immutable"
  bytes : List UInt8

/-- `GET /i/*key`. -/
def serveObject (printable : Char → Bool) (storage : Storage) (keyRaw : String) :
    Except ApiError PublicObject :=
  match StorageKey.parse (String.ofList (keyRaw.toList.dropWhile (· == '/'))) with
  | .error error => .error (.badRequest ("invalid key: " ++ error.display printable))
  | .ok key =>
    match storage.get key with
    | .error error => .error (mapStorageError error)
    | .ok bytes => .ok { contentType := sniffContentType bytes, bytes }

/-- The route answers 404 exactly for the keys without an object. -/
theorem serveObject_notFound_iff {printable : Char → Bool} {storage : Storage}
    {key : StorageKey} :
    serveObject printable storage key.text = .error ⟨404, "not_found", "no such object", none⟩ ↔
      storage key = none := by
  obtain ⟨_, _, noSlash, _, _⟩ := StorageKey.validate_eq_ok_iff.mp key.valid
  have kept : key.text.toList.dropWhile (· == '/') = key.text.toList := by
    cases chars : key.text.toList with
    | nil => rfl
    | cons char rest =>
        rw [chars] at noSlash
        have different : char ≠ '/' := by simpa using noSlash
        simp [different]
  simp only [serveObject, kept, String.ofList_toList, StorageKey.parse_text, Storage.get]
  cases storage key with
  | none => simp [mapStorageError]
  | some content => simp

end PublicHandlers

namespace Requests

open Transition Relational PublicHandlers

variable {Client : Type} [DecidableEq Client]

/-- After a delete of an image has returned `Ok`, and no storage delete failed, the public
route answers 404 for the original and for every variant key ever written exactly when no
variant of the image was ever written. -/
theorem deleted_image_unreachable_iff (config : Config) (printable : Char → Bool)
    (start last : State Client)
    (actions : List (Action Client)) (id : Uuid) (quiet : Quiet start)
    (unremoved : start.removed = [])
    (meets : Meets (step config) (fun state action => removalSucceeds state action = true)
      start actions)
    (reached : run (step config) start actions = some last) (returned : id ∈ last.removed) :
    (∀ key, key = originalKey id ∨ (id, key) ∈ last.variants →
        serveObject printable last.storage key.text =
          .error ⟨404, "not_found", "no such object", none⟩) ↔
      ∀ key, (id, key) ∉ last.variants := by
  have invariant : Consistent last ∧ Gone last :=
    run_invariant_of_meets (fun state => Consistent state ∧ Gone state)
      (fun _ _ _ condition invariant stepped =>
        ⟨consistent_step invariant.1 stepped,
          gone_step condition invariant.1 invariant.2 stepped⟩)
      meets ⟨quiet.consistent, quiet.gone unremoved⟩ reached
  obtain ⟨consistent, gone⟩ := invariant
  simp only [serveObject_notFound_iff]
  constructor
  · intro unreachable key written
    have present := (consistent.variants id key written).2
    rw [unreachable key (Or.inr written)] at present
    cases present
  · rintro unwritten key (rfl | written)
    · exact (gone id (Or.inl returned)).1
    · exact absurd written (unwritten key)

/-- A deleted image without variants is unreachable. -/
theorem deleted_original_unreachable :
    ∃ last, run (step sampleConfig) emptyState (uploadedByFirst ++ deletedByFirst) = some last ∧
      serveObject asciiPrintable last.storage (originalText ⟨5⟩) =
        .error ⟨404, "not_found", "no such object", none⟩ := by
  refine ⟨_, rfl, ?_⟩
  refine (deleted_image_unreachable_iff sampleConfig asciiPrintable emptyState _
    (uploadedByFirst ++ deletedByFirst) ⟨5⟩ quiet_emptyState rfl (by decide) rfl
    (by decide)).mpr ?_ (originalKey ⟨5⟩) (Or.inl rfl)
  intro key written
  cases written

/-- The thumbnail of a deleted image is still served. -/
theorem deleted_thumbnail_still_public :
    ∃ last, run (step sampleConfig) emptyState
        (uploadedByFirst ++ thumbnailByThird ++ deletedByFirst) = some last ∧
      Meets (step sampleConfig) (fun state action => removalSucceeds state action = true)
        emptyState (uploadedByFirst ++ thumbnailByThird ++ deletedByFirst) ∧
      (∀ client, last.phase client = .idle) ∧ (⟨5⟩ : Uuid) ∈ last.removed ∧
      (∃ object, serveObject asciiPrintable last.storage (variantText ⟨5⟩ "thumbnail_256") =
        .ok object) := by
  refine ⟨_, rfl, by decide, ?_, by decide, _, rfl⟩
  intro client
  match client with
  | 0 => rfl
  | 1 => rfl
  | 2 => rfl

end Requests

end Picroom
