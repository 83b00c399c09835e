import Picroom.Domain.Key
import Picroom.Files.System
import Picroom.Service.Page

/-!
# The driver for a local directory

`LocalDriver` keeps an object in the file that its key names under the root.  Objects are written
to a temporary file beside the target, which is then renamed.  The operations are written over any
file system; the text of a system error is a parameter.
-/

namespace Picroom

open Files

/-- Metadata returned from a storage backend about an object. -/
structure ObjectMeta where
  key : StorageKey
  bytes : Nat
  lastModified : Instant
  etag : Option String
  deriving DecidableEq

structure LocalDriver where
  root : Path

namespace LocalDriver

/-- The segments of a key, as a relative path. -/
def keyPath (key : StorageKey) : List Segment := Segment.split key.text.toList

def display (path : Path) : String := String.ofList path.text

section Names

theorem slash_not_mem_hexText (width value : Nat) : '/' ∉ Uuid.hexText width value := by
  intro slash
  exact absurd (Uuid.mem_hexText slash) (by decide)

/-- `.{name}.{uuid}.tmp`, where a path that ends in no name is called `picroom`. -/
def tmpText (path : Path) (suffix : Uuid) : List Char :=
  '.' :: ((match path.fileName with
    | some name => name.text
    | none => "picroom".toList) ++ '.' :: (Uuid.hexText 32 suffix.bits.toNat ++ ".tmp".toList))

theorem slash_not_mem_tmpText (path : Path) (suffix : Uuid) : '/' ∉ tmpText path suffix := by
  have name : '/' ∉ (match path.fileName with
      | some name => name.text
      | none => "picroom".toList) := by
    split
    next name _ => exact name.plain
    next => decide
  simp only [tmpText, List.mem_cons, List.mem_append, not_or]
  exact ⟨by decide, name, by decide, slash_not_mem_hexText _ _, by decide⟩

theorem length_tmpText (path : Path) (suffix : Uuid) : 38 ≤ (tmpText path suffix).length := by
  simp only [tmpText, List.length_cons, List.length_append, Uuid.length_hexText]
  have four : ".tmp".toList.length = 4 := by decide
  omega

def tmpName (path : Path) (suffix : Uuid) : FileName where
  text := tmpText path suffix
  plain := slash_not_mem_tmpText path suffix
  proper := by
    have long := length_tmpText path suffix
    refine ⟨?_, ?_, ?_⟩
    all_goals
      intro same
      rw [same] at long
      simp at long

end Names

section Keys

/-- The names of a key: its segments without empty ones and `.`. -/
def names (key : StorageKey) : List FileName :=
  (keyPath key).filterMap fun segment =>
    match segment.component with
    | some (.normal name) => some name
    | _ => none

theorem filterMap_component {segments : List Segment}
    (noClimb : ∀ segment ∈ segments, segment.component ≠ some .parentDir) :
    segments.filterMap Segment.component =
      (segments.filterMap fun segment =>
        match segment.component with
        | some (.normal name) => some name
        | _ => none).map Component.normal := by
  induction segments with
  | nil => rfl
  | cons segment rest inductionHypothesis =>
      have later := inductionHypothesis fun other member =>
        noClimb other (List.mem_cons_of_mem _ member)
      rw [List.filterMap_cons, List.filterMap_cons, later]
      cases present : segment.component with
      | none => rfl
      | some component =>
          cases component with
          | parentDir => exact absurd present (noClimb segment List.mem_cons_self)
          | normal name => rfl

/-- A key does not climb. -/
theorem steps_keyPath (key : StorageKey) :
    (keyPath key).filterMap Segment.component = (names key).map Component.normal := by
  apply filterMap_component
  intro segment member climbs
  obtain ⟨_, _, _, noDots, _⟩ := StorageKey.validate_eq_ok_iff.mp key.valid
  have dots : segment.text = ['.', '.'] := by
    unfold Segment.component at climbs
    split at climbs
    next => cases climbs
    next =>
      split at climbs
      next same => exact same
      next => cases climbs
  apply noDots
  rw [← dots, StorageKey.segments, ← Segment.map_text_split]
  exact List.mem_map_of_mem member

end Keys

variable {State : Type} (system : System State (List UInt8)) (describe : Errno → String)

def resolveUnchecked (driver : LocalDriver) (key : StorageKey) : Path :=
  driver.root.join (keyPath key)

/-- The canonical root, or the root as it is configured. -/
def canonicalRoot (driver : LocalDriver) : Except Errno Path → Path
  | .ok canonical => canonical
  | .error _ => driver.root

/-- Resolves a storage key to a filesystem path with safety check. -/
def resolve (driver : LocalDriver) (key : StorageKey) (state : State) :
    Except StorageError Path × State :=
  let path := driver.resolveUnchecked key
  match system.canonicalize path state with
  | (.error _, state) => (.ok path, state)
  | (.ok canonical, state) =>
      let (root, state) := system.canonicalize driver.root state
      if canonical.startsWith (driver.canonicalRoot root) then (.ok path, state)
      else (.error (.permissionDenied ("path escapes root: " ++ key.text)), state)

def get (driver : LocalDriver) (key : StorageKey) (state : State) :
    Except StorageError (List UInt8) × State :=
  match driver.resolve system key state with
  | (.error error, state) => (.error error, state)
  | (.ok path, state) =>
      match system.read path state with
      | (.ok bytes, state) => (.ok bytes, state)
      | (.error .noEntry, state) => (.error (.notFound key.text), state)
      | (.error error, state) =>
          (.error (.backend ("read " ++ display path ++ ": " ++ describe error)), state)

def objectMeta (key : StorageKey) (found : Metadata) : ObjectMeta :=
  { key, bytes := found.length, lastModified := seconds found.modified, etag := none }

def head (driver : LocalDriver) (key : StorageKey) (state : State) :
    Except StorageError ObjectMeta × State :=
  match driver.resolve system key state with
  | (.error error, state) => (.error error, state)
  | (.ok path, state) =>
      match system.metadata path state with
      | (.ok found, state) => (.ok (objectMeta key found), state)
      | (.error .noEntry, state) => (.error (.notFound key.text), state)
      | (.error error, state) =>
          (.error (.backend ("stat " ++ display path ++ ": " ++ describe error)), state)

def exists? (driver : LocalDriver) (key : StorageKey) (state : State) : Bool × State :=
  system.exists? (driver.resolveUnchecked key) state

/-- Ensure parent directory exists. -/
def ensureParent (path : Path) (state : State) : Except StorageError Unit × State :=
  match path.parent with
  | none => (.ok (), state)
  | some parent =>
      match system.createDirAll parent state with
      | (.ok (), state) => (.ok (), state)
      | (.error error, state) =>
          (.error (.backend ("mkdir " ++ display parent ++ ": " ++ describe error)), state)

/-- Atomic write: temp file and rename. -/
def writeAtomically (path tmp : Path) (bytes : List UInt8) (state : State) :
    Except StorageError Unit × State :=
  match system.write tmp bytes state with
  | (.error error, state) =>
      (.error (.backend ("write tmp " ++ display tmp ++ ": " ++ describe error)), state)
  | (.ok (), state) =>
      match system.rename tmp path state with
      | (.error error, state) =>
          (.error (.backend ("rename " ++ display path ++ ": " ++ describe error)), state)
      | (.ok (), state) => (.ok (), state)

/-- `suffix` is what `Uuid::now_v7` returns. -/
def put (driver : LocalDriver) (key : StorageKey) (bytes : List UInt8) (suffix : Uuid)
    (state : State) : Except StorageError Unit × State :=
  let path := driver.resolveUnchecked key
  match ensureParent system describe path state with
  | (.error error, state) => (.error error, state)
  | (.ok (), state) =>
      writeAtomically system describe path (path.setFileName (tmpName path suffix)) bytes state

def delete (driver : LocalDriver) (key : StorageKey) (state : State) :
    Except StorageError Unit × State :=
  let path := driver.resolveUnchecked key
  match system.removeFile path state with
  | (.ok (), state) => (.ok (), state)
  | (.error .noEntry, state) => (.ok (), state)
  | (.error error, state) =>
      (.error (.backend ("remove " ++ display path ++ ": " ++ describe error)), state)

section Listing

/-- Temp files: dot-prefixed names ending in `.tmp`. -/
def isTemp (name : FileName) : Bool :=
  ['.'].isPrefixOf name.text && ".tmp".toList.isSuffixOf name.text

def relative (root path : Path) : Path :=
  match path.stripPrefix root with
  | some rest => rest
  | none => path

def keyText (root path : Path) : List Char :=
  (relative root path).text.map fun char => if char = '\\' then '/' else char

/-- What is listed for a file. -/
def entryOf (root : Path) (keyPrefix : List Char) (path : Path) (found : Metadata) :
    Option ObjectMeta :=
  if (relative root path).fileName.any isTemp then none
  else match StorageKey.parse (String.ofList (keyText root path)) with
    | .error _ => none
    | .ok key =>
        if keyPrefix.isPrefixOf key.text.toList then some (objectMeta key found) else none

/-- The entries of a directory: what is listed, and the directories to read later. -/
def readEntries (root : Path) (keyPrefix : List Char) (directory : Path) :
    List FileName → State → (List ObjectMeta × List Path) × State
  | [], state => (([], []), state)
  | name :: rest, state =>
      let path := directory.push name
      match system.metadata path state with
      | (.error _, state) => readEntries root keyPrefix directory rest state
      | (.ok found, state) =>
          let ((items, directories), state) := readEntries root keyPrefix directory rest state
          if found.isDir then ((items, path :: directories), state)
          else (((entryOf root keyPrefix path found).toList ++ items, directories), state)

def collectRecursive (root : Path) (keyPrefix : List Char) :
    Nat → List Path → State → List ObjectMeta × State
  | 0, _, state => ([], state)
  | _ + 1, [], state => ([], state)
  | fuel + 1, directory :: stack, state =>
      match system.readDir directory state with
      | (.error _, state) => collectRecursive root keyPrefix fuel stack state
      | (.ok names, state) =>
          let ((items, directories), state) :=
            readEntries system root keyPrefix directory names state
          let (rest, state) :=
            collectRecursive root keyPrefix fuel (directories.reverse ++ stack) state
          (items ++ rest, state)

/-- No prefix: list the whole backing store. -/
def base (driver : LocalDriver) : Option StorageKey → Path
  | some key => driver.resolveUnchecked key
  | none => driver.root

def prefixText : Option StorageKey → List Char
  | some key => key.text.toList
  | none => []

def list (driver : LocalDriver) (keyPrefix : Option StorageKey) (fuel : Nat) (state : State) :
    Page ObjectMeta × State :=
  match system.exists? (driver.base keyPrefix) state with
  | (false, state) => (Page.new [] none ⟨50, none⟩, state)
  | (true, state) =>
      let (items, state) := collectRecursive system driver.root (prefixText keyPrefix) fuel
        [driver.base keyPrefix] state
      (Page.new items none ⟨UInt32.ofNat items.length, none⟩, state)

end Listing

end LocalDriver

end Picroom
