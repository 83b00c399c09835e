import Picroom.Storage.LocalListing
import Picroom.Storage.ObjectUrl

/-!
# Different keys, different objects

Two keys can name one file, or a file and a directory on its way, and the temporary file of one
can be the object of the other.  `Disturbs` has these cases, and they are the only ones: otherwise
no operation on the first key changes what is read or listed for the second.
-/

namespace Picroom

open Files

namespace LocalDriver

/-- What is reported for a key is the same in two trees. -/
structure Undisturbed (driver : LocalDriver) (machine : Machine) (key : StorageKey)
    (tree next : Store) : Prop where
  get : ∀ (order later : Tree.Order FileName) (now afterwards : Nat),
    (driver.get (driver.storage machine later afterwards) machine.describe key next).1 =
      (driver.get (driver.storage machine order now) machine.describe key tree).1
  head : ∀ (order later : Tree.Order FileName) (now afterwards : Nat),
    (driver.head (driver.storage machine later afterwards) machine.describe key next).1 =
      (driver.head (driver.storage machine order now) machine.describe key tree).1
  list : ∀ (keyPrefix : Option StorageKey) (order later : Tree.Order FileName)
      (now afterwards fuel : Nat),
    tree.nodes.keys.length ≤ fuel → next.nodes.keys.length ≤ fuel →
      ((driver.list (driver.storage machine later afterwards) keyPrefix fuel next).1.items.filter
          (·.key = key)).Perm
        ((driver.list (driver.storage machine order now) keyPrefix fuel tree).1.items.filter
          (·.key = key))

/-- Neither `put` nor `delete` of the first key changes what is reported for the second. -/
def Separate (driver : LocalDriver) (machine : Machine) (first second : StorageKey) : Prop :=
  ∀ (tree : Store) (order : Tree.Order FileName) (now : Nat),
    (∀ (bytes : List UInt8) (suffix : Uuid), driver.Undisturbed machine second tree
        (driver.put (driver.storage machine order now) machine.describe first bytes suffix
          tree).2) ∧
      driver.Undisturbed machine second tree
        (driver.delete (driver.storage machine order now) machine.describe first tree).2

/-- The first key's directories, temporary file or object are on the way to the second. -/
def Disturbs (driver : LocalDriver) (first second : StorageKey) : Prop :=
  (∃ dir, driver.home first = some dir ∧ (names second <+: dir ∨
      ∃ suffix, dir ++ [tmpName (driver.resolveUnchecked first) suffix] <+: names second)) ∨
    dirLike first = false ∧ names first <+: names second

section Backslash

theorem text_of_mem_names {key : StorageKey} {name : FileName} (member : name ∈ names key) :
    ∀ char ∈ name.text, char ∈ key.text.toList := by
  obtain ⟨segment, present, isName⟩ := List.mem_filterMap.mp member
  have same : segment.text = name.text := by
    split at isName
    next other component =>
      cases isName
      unfold Segment.component at component
      split at component
      next =>
        cases component
        rfl
      next =>
        split at component
        next => cases component
        next => cases component
    next => cases isName
  have part : segment.text ∈ key.text.toList.splitOn '/' := by
    rw [← Segment.map_text_split]
    exact List.mem_map_of_mem present
  intro char inName
  rw [← same] at inName
  exact (Text.mem_of_mem_splitOnP part char inName).1

theorem backslash_not_mem_names {key : StorageKey} {name : FileName} (member : name ∈ names key) :
    '\\' ∉ name.text := by
  intro backslash
  obtain ⟨_, _, _, _, chars⟩ := StorageKey.validate_eq_ok_iff.mp key.valid
  have valid := chars '\\' (text_of_mem_names member '\\' backslash)
  cases valid

theorem backslash_not_mem_tmpName {path : Path} (suffix : Uuid)
    (plain : ∀ name, path.fileName = some name → '\\' ∉ name.text) :
    '\\' ∉ (tmpName path suffix).text := by
  have digits : '\\' ∉ Uuid.hexText 32 suffix.bits.toNat := by
    intro backslash
    exact absurd (Uuid.mem_hexText backslash) (by decide)
  simp only [tmpName, tmpText, List.mem_cons, List.mem_append, not_or]
  refine ⟨by decide, ?_, by decide, digits, by decide⟩
  split
  next name ending => exact plain name ending
  next => decide

/-- The temporary file has no backslash in its names, wherever it is in the tree. -/
theorem backslash_not_mem_tmp {driver : LocalDriver} {key : StorageKey} {dir : List FileName}
    (works : driver.home key = some dir) (suffix : Uuid) :
    ∀ name ∈ dir ++ [tmpName (driver.resolveUnchecked key) suffix], '\\' ∉ name.text := by
  unfold home at works
  split at works
  next bare =>
    split at works
    next => cases works
    next unnamed =>
      cases works
      have sameName := fileName_congr (driver.steps_of_bare key bare)
      intro name member
      rw [List.mem_singleton.mp member]
      apply backslash_not_mem_tmpName
      intro other named
      rw [sameName] at named
      rw [named] at unnamed
      exact absurd rfl unnamed
  next named =>
    cases works
    obtain ⟨front, last, split⟩ := (List.eq_nil_or_concat (names key)).resolve_left named
    rw [List.concat_eq_append] at split
    have steps := steps_resolveUnchecked driver key
    rw [split, List.map_append, List.map_singleton, ← List.append_assoc] at steps
    intro name member
    rcases List.mem_append.mp member with inDir | isTmp
    · exact backslash_not_mem_names (List.mem_of_mem_dropLast inDir)
    · rw [List.mem_singleton.mp isTmp]
      apply backslash_not_mem_tmpName
      intro other isLast
      rw [fileName_of_steps steps] at isLast
      cases isLast
      exact backslash_not_mem_names (by rw [split]; simp)

end Backslash

section Apart

variable {driver : LocalDriver} {machine : Machine} {key : StorageKey} {tree next : Store}

theorem lookAt_congr (same : next.stat (names key) = tree.stat (names key)) :
    lookAt next key = lookAt tree key := by
  rw [lookAt, lookAt, same]

theorem key_of_entryOf {root path : Path} {keyPrefix : List Char} {found : Metadata}
    {entry : ObjectMeta} (listed : entryOf root keyPrefix path found = some entry) :
    keyText root path = entry.key.text.toList := by
  unfold entryOf at listed
  split at listed
  next => cases listed
  next =>
    split at listed
    next => cases listed
    next parsedKey parsed =>
      split at listed
      next =>
        cases listed
        rw [objectMeta, StorageKey.text_of_parse parsed, String.toList_ofList]
      next => cases listed

/-- A file that is listed under a key has the key's names, or a backslash in its own. -/
theorem of_listed {keyPrefix : Option StorageKey} {found : List FileName} {entry : ObjectMeta}
    (below : top keyPrefix <+: found)
    (listed : driver.listed tree (prefixText keyPrefix) (driver.base keyPrefix) (top keyPrefix)
      found = some entry) :
    (∃ data modified, tree.lookup found = some (.file data modified)) ∧
      (found = names entry.key ∨ ∃ name ∈ found, '\\' ∈ name.text) := by
  unfold LocalDriver.listed at listed
  split at listed
  next data modified present =>
    refine ⟨⟨data, modified, present⟩, ?_⟩
    exact names_of_keyText (driver.leadsTo_pathOf (driver.leadsTo_base keyPrefix) below)
      (key_of_entryOf listed)
  next => cases listed

theorem listed_congr {keyPrefix : List Char} {base : Path} {top found : List FileName}
    (same : ∀ data modified, next.lookup found = some (.file data modified) ↔
      tree.lookup found = some (.file data modified)) :
    driver.listed next keyPrefix base top found = driver.listed tree keyPrefix base top found := by
  unfold LocalDriver.listed
  split
  next data modified present => rw [(same data modified).mp present]
  next absent =>
    split
    next data modified present => exact absurd ((same data modified).mpr present) (absent _ _)
    next => rfl

/-- A change that leaves the directories and files on the way to a key alone does not show. -/
theorem undisturbed_of_changes {dirs leaves : List FileName → Prop}
    (changes : Tree.Changes tree next dirs leaves) (noDir : ¬ dirs (names key))
    (noLeaf : ∀ above, above <+: names key → ¬ leaves above)
    (plain : ∀ path, leaves path → ∀ name ∈ path, '\\' ∉ name.text) :
    driver.Undisturbed machine key tree next := by
  have look : lookAt next key = lookAt tree key := lookAt_congr (changes.stat_eq noDir noLeaf)
  refine ⟨?_, ?_, ?_⟩
  · intro order later now afterwards
    rw [get_storage, get_storage, look]
  · intro order later now afterwards
    rw [head_storage, head_storage, look]
  · intro keyPrefix order later now afterwards fuel enough enoughNext
    rw [list_storage, list_storage, List.filter_filterMap, List.filter_filterMap]
    apply perm_filterMap (nodup_reached enoughNext) (nodup_reached enough)
    have safe : ∀ store : Store, ∀ found entry, top keyPrefix <+: found →
        (driver.listed store (prefixText keyPrefix) (driver.base keyPrefix) (top keyPrefix)
          found).filter (fun entry => decide (entry.key = key)) = some entry → ¬ leaves found := by
      intro store found entry below listed isLeaf
      obtain ⟨listed, isKey⟩ := Option.filter_eq_some_iff.mp listed
      rcases (of_listed below listed).2 with same | ⟨name, member, backslash⟩
      · rw [of_decide_eq_true isKey] at same
        exact noLeaf found (same ▸ List.prefix_refl _) isLeaf
      · exact plain found isLeaf name member backslash
    intro found entry
    rw [mem_reached_iff enoughNext, mem_reached_iff enough]
    constructor
    · rintro ⟨⟨nonempty, isFile, below, strict⟩, listed⟩
      have unchanged := changes.file found (safe next found entry below listed)
      rw [listed_congr unchanged] at listed
      refine ⟨⟨nonempty, ?_, below, strict⟩, listed⟩
      rw [← changes.isFile_eq (safe tree found entry below listed)]
      exact isFile
    · rintro ⟨⟨nonempty, isFile, below, strict⟩, listed⟩
      have unchanged := changes.file found (safe tree found entry below listed)
      rw [← listed_congr unchanged] at listed
      refine ⟨⟨nonempty, ?_, below, strict⟩, listed⟩
      rw [changes.isFile_eq (safe next found entry below listed)]
      exact isFile

end Apart

section Necessary

variable {driver : LocalDriver} {machine : Machine} {first second : StorageKey}

theorem home_of_target {name : FileName} {dir : List FileName} (isTarget : target first = some name)
    (works : driver.home first = some dir) :
    dir ++ [name] = names first ∧ dirLike first = false := by
  obtain ⟨split, plain⟩ := names_of_target first isTarget
  have named : names first ≠ [] := by
    rw [split]
    simp
  rw [home, if_neg named] at works
  cases works
  exact ⟨split.symm, plain⟩

theorem separate_of_not_disturbs (apart : ¬ driver.Disturbs first second) :
    driver.Separate machine first second := by
  intro tree order now
  constructor
  · intro bytes suffix
    have stored := congrArg Prod.snd (driver.put_storage machine order now first tree bytes suffix)
    dsimp only at stored
    rw [stored]
    cases works : driver.home first with
    | none =>
        exact undisturbed_of_changes (.refl tree (fun _ => False) fun _ => False) not_false
          (fun _ _ => not_false) fun _ impossible => impossible.elim
    | some dir =>
        apply undisturbed_of_changes (changes_putAt _ _ _ _ _ _)
        · exact fun below => apart (Or.inl ⟨dir, works, Or.inl below⟩)
        · rintro above isFront (rfl | ⟨name, isTarget, rfl⟩)
          · exact apart (Or.inl ⟨dir, works, Or.inr ⟨suffix, isFront⟩⟩)
          · obtain ⟨same, plain⟩ := home_of_target isTarget works
            exact apart (Or.inr ⟨plain, same ▸ isFront⟩)
        · rintro path (rfl | ⟨name, isTarget, rfl⟩) other member
          · exact backslash_not_mem_tmp works suffix other member
          · rw [(home_of_target isTarget works).1] at member
            exact backslash_not_mem_names member
  · have removed := congrArg Prod.snd (driver.delete_storage machine order now first tree)
    dsimp only at removed
    rw [removed]
    apply undisturbed_of_changes (changes_deleteAt _ _ _)
    · rintro ⟨same, named, _⟩
      have works : driver.home first = some (names first).dropLast := by rw [home, if_neg named]
      exact apart (Or.inl ⟨_, works, Or.inl (same ▸ List.prefix_refl _)⟩)
    · rintro above isFront ⟨rfl, plain⟩
      exact apart (Or.inr ⟨plain, isFront⟩)
    · rintro path ⟨rfl, _⟩ name member
      exact backslash_not_mem_names member

/-- A key is reported as not found exactly when its names lead nowhere. -/
theorem get_notFound_iff {order : Tree.Order FileName} {now : Nat} {key : StorageKey}
    {tree : Store} :
    (driver.get (driver.storage machine order now) machine.describe key tree).1 =
        .error (.notFound key.text) ↔ tree.stat (names key) = .error .noEntry := by
  rw [get_storage]
  unfold lookAt
  cases tree.stat (names key) with
  | error error => cases error <;> simp
  | ok node =>
      cases node with
      | dir modified => simp
      | file data modified => cases dirLike key <;> simp

theorem stat_of_isFile {tree : Store} {above path : List FileName}
    (isFile : tree.isFile above = true) (isFront : above <+: path) :
    tree.stat path ≠ .error .noEntry := by
  rw [ne_eq, Tree.stat_eq_noEntry_iff]
  rintro ⟨missing, free⟩
  obtain ⟨rest, rfl⟩ := isFront
  cases rest with
  | nil =>
      obtain ⟨_, _, present⟩ := Tree.isFile_iff.mp isFile
      rw [List.append_nil, present] at missing
      cases missing
  | cons name rest =>
      rw [free above (name :: rest) rfl (by simp)] at isFile
      cases isFile

theorem isFile_empty (other : List FileName) : (Tree.empty 0 : Store).isFile other = false := by
  rw [Tree.isFile, Tree.lookup_empty]
  split
  next data modified found =>
    split at found
    next => cases found
    next => cases found
  next => rfl

/-- A tree with the directories on the way to some names and nothing else. -/
theorem exists_dirs (path : List FileName) :
    ∃ tree : Store, tree.isDir path = true ∧ (∀ other, tree.isFile other = false) ∧
      ∀ other, ¬ other <+: path → tree.lookup other = none := by
  obtain ⟨tree, made⟩ := Tree.makeDirs_ok 0 path (Tree.isDir_nil (Tree.empty 0 : Store))
    fun other _ => isFile_empty other
  obtain ⟨dir, changes⟩ := Tree.of_makeDirs made
  refine ⟨tree, dir (Tree.isDir_nil _), ?_, ?_⟩
  · intro other
    rw [changes.isFile_eq not_false, isFile_empty]
  · intro other notAbove
    rw [changes.same other (fun dirs => notAbove dirs.2) not_false, Tree.lookup_empty, if_neg]
    rintro rfl
    exact notAbove List.nil_prefix

theorem stat_noEntry {tree : Store} {path other : List FileName}
    (noFiles : ∀ other, tree.isFile other = false)
    (missing : ∀ other, ¬ other <+: path → tree.lookup other = none) (notAbove : ¬ other <+: path) :
    tree.stat other = .error .noEntry :=
  Tree.stat_eq_noEntry_iff.mpr ⟨missing other notAbove, fun above _ _ _ => noFiles above⟩

section Put

variable {tree : Store} {dir : List FileName} {tmp : FileName} {goal : Option FileName}

/-- A temporary file that cannot be renamed stays. -/
theorem isFile_tmp_putAt (goal : Option FileName) (bytes : List UInt8) (now : Nat)
    (inside : tree.isDir dir = true)
    (free : tree.lookup (dir ++ [tmp]) = none)
    (blocked : ∀ name, goal = some name → tmp ≠ name ∧ tree.isDir (dir ++ [name]) = true) :
    (putAt tree dir tmp goal bytes now).2.isFile (dir ++ [tmp]) = true := by
  obtain ⟨written, wrote⟩ := Tree.write_ok bytes now inside (Tree.isDir_of_missing free)
  obtain ⟨edited, _, present⟩ := Tree.of_write wrote
  have isFile : written.isFile (dir ++ [tmp]) = true := Tree.isFile_iff.mpr ⟨_, _, present⟩
  unfold putAt
  rw [Tree.makeDirs_of_isDir (by rwa [List.nil_append])]
  dsimp only
  rw [wrote]
  cases goal with
  | none => exact isFile
  | some name =>
      obtain ⟨different, isDir⟩ := blocked name rfl
      have stays : written.isDir (dir ++ [name]) = true := by
        have apart : dir ++ [name] ≠ dir ++ [tmp] := by simpa using Ne.symm different
        rw [Tree.isDir, edited.same _ (Ne.symm (Tree.ne_append_singleton dir name)) (by
          rintro _ rfl
          exact apart)]
        exact isDir
      obtain ⟨error, refused⟩ := Tree.rename_onto_dir now different stays
      dsimp only
      rw [refused]
      exact isFile

/-- An object can be stored under a free name of a directory. -/
theorem isFile_putAt (tmp : FileName) (bytes : List UInt8) (now : Nat) {name : FileName}
    (inside : tree.isDir dir = true) (freeTmp : tree.isDir (dir ++ [tmp]) = false)
    (different : tmp ≠ name) (free : tree.isDir (dir ++ [name]) = false) :
    (putAt tree dir tmp (some name) bytes now).2.isFile (dir ++ [name]) = true := by
  obtain ⟨written, wrote⟩ := Tree.write_ok bytes now inside freeTmp
  obtain ⟨edited, _, present⟩ := Tree.of_write wrote
  have stays : written.isDir (dir ++ [name]) = false := by
    have apart : dir ++ [name] ≠ dir ++ [tmp] := by simpa using Ne.symm different
    rw [Tree.isDir, edited.same _ (Ne.symm (Tree.ne_append_singleton dir name)) (by
      rintro _ rfl
      exact apart)]
    exact free
  obtain ⟨moved, renamed⟩ := Tree.rename_ok now present stays
  obtain ⟨_, data, modified, _, stored, _⟩ := Tree.of_rename renamed
  unfold putAt
  rw [Tree.makeDirs_of_isDir (by rwa [List.nil_append])]
  dsimp only
  rw [wrote]
  dsimp only
  rw [renamed]
  exact Tree.isFile_iff.mpr ⟨data, modified, stored⟩

theorem stamp_makeDirs {made : Store} {name : FileName} {rest : List FileName}
    (mkdirs : Tree.makeDirs 1 (Tree.empty 0) [] (name :: rest) = .ok made) :
    made.lookup [] = some (.dir 1) := by
  rw [Tree.makeDirs, Tree.lookup_empty, if_neg (by simp)] at mkdirs
  dsimp only at mkdirs
  split at mkdirs
  next => cases mkdirs
  next middle first =>
    have deeper := (Tree.of_makeDirs mkdirs).2
    rw [deeper.same [] (by simp) not_false]
    exact Tree.dir_of_mkdir first

/-- The directories of an object are there afterwards, and writing to the root changes its time. -/
theorem dir_putAt_empty (tmp : FileName) (goal : Option FileName) (bytes : List UInt8)
    {above : List FileName} (isFront : above <+: dir) :
    ∃ modified, (putAt (Tree.empty 0) dir tmp goal bytes 1).2.lookup above = some (.dir modified) ∧
      (above = [] → modified = 1) := by
  obtain ⟨made, mkdirs⟩ := Tree.makeDirs_ok 1 dir (Tree.isDir_nil (Tree.empty 0 : Store))
    fun other _ => isFile_empty other
  obtain ⟨isDir, changes⟩ := Tree.of_makeDirs mkdirs
  have inside : made.isDir dir = true := isDir (Tree.isDir_nil _)
  have tmpFree : made.lookup (dir ++ [tmp]) = none := by
    rw [changes.same _ _ not_false, Tree.lookup_empty, if_neg (by simp)]
    rintro ⟨_, below⟩
    have lengths := below.length_le
    rw [List.nil_append, List.length_append, List.length_singleton] at lengths
    omega
  obtain ⟨modified, present⟩ := Tree.isDir_iff.mp (Tree.isDir_of_prefix isFront inside)
  have stamped : above = [] → above ≠ dir → modified = 1 := by
    rintro rfl different
    obtain ⟨name, rest, rfl⟩ := List.exists_cons_of_ne_nil (Ne.symm different)
    rw [stamp_makeDirs mkdirs] at present
    cases present
    rfl
  obtain ⟨written, wrote⟩ := Tree.write_ok bytes 1 inside (Tree.isDir_of_missing tmpFree)
  have edited := (Tree.of_write wrote).1
  have dirWritten := Tree.dir_of_write wrote tmpFree
  have afterWrite : ∃ modified, written.lookup above = some (.dir modified) ∧
      (above = [] → modified = 1) := by
    by_cases same : above = dir
    · exact ⟨1, same ▸ dirWritten, fun _ => rfl⟩
    · exact ⟨modified, (edited.lookup_above isFront same).trans present,
        fun top => stamped top same⟩
  unfold putAt
  rw [mkdirs]
  dsimp only
  rw [wrote]
  cases goal with
  | none => exact afterWrite
  | some name =>
      dsimp only
      cases renamed : written.rename dir tmp name 1 with
      | error error => exact afterWrite
      | ok moved =>
          by_cases same : above = dir
          · exact ⟨1, same ▸ Tree.dir_of_rename renamed, fun _ => rfl⟩
          · obtain ⟨time, stays, top⟩ := afterWrite
            exact ⟨time, ((Tree.of_rename renamed).1.lookup_above isFront same).trans stays, top⟩

end Put

theorem lookAt_of_dir {tree : Store} {key : StorageKey} {modified : Nat}
    (present : tree.lookup (names key) = some (.dir modified)) :
    lookAt tree key = .ok (.dir modified) := by
  rw [lookAt, Tree.stat_eq_ok_iff.mpr present]

/-- The temporary file lies beside the object, and is not on the way to it. -/
theorem tmp_beside {dir : List FileName} (works : driver.home first = some dir) (suffix : Uuid) :
    dir <+: names first ∧
      ¬ dir ++ [tmpName (driver.resolveUnchecked first) suffix] <+: names first := by
  unfold home at works
  split at works
  next bare =>
    split at works
    next => cases works
    next =>
      cases works
      refine ⟨List.nil_prefix, ?_⟩
      intro above
      rw [bare] at above
      have lengths := above.length_le
      simp at lengths
  next named =>
    cases works
    obtain ⟨front, last, split⟩ := (List.eq_nil_or_concat (names first)).resolve_left named
    rw [List.concat_eq_append] at split
    refine ⟨List.dropLast_prefix _, ?_⟩
    intro above
    have steps := steps_resolveUnchecked driver first
    rw [split, List.map_append, List.map_singleton, ← List.append_assoc] at steps
    rw [split, List.dropLast_concat] at above
    have same := above.eq_of_length (by simp)
    exact tmpName_ne (fileName_of_steps steps) suffix (by simpa using same)

variable (separate : driver.Separate machine first second)

include separate

/-- The directories of the first key show. -/
theorem not_below_of_separate {dir : List FileName} (works : driver.home first = some dir) :
    ¬ names second <+: dir := by
  intro below
  have order : Tree.Order FileName := ⟨fun _ found => found, fun _ _ => .refl _⟩
  have same := ((separate (Tree.empty 0) order 1).1 [] Uuid.nil).head order order 0 0
  have stored := congrArg Prod.snd
    (driver.put_storage machine order 1 first (Tree.empty 0) [] Uuid.nil)
  rw [works] at stored
  dsimp only at stored
  rw [stored] at same
  obtain ⟨modified, present, stamped⟩ := dir_putAt_empty
    (tmpName (driver.resolveUnchecked first) Uuid.nil) (target first) [] below
  rw [head_storage, head_storage, lookAt_of_dir present] at same
  by_cases top : names second = []
  · have before : (Tree.empty 0 : Store).lookup (names second) = some (.dir 0) := by
      rw [top, Tree.lookup_empty, if_pos rfl]
    rw [lookAt_of_dir before, stamped top] at same
    simp only [objectMeta, Except.ok.injEq, ObjectMeta.mk.injEq] at same
    exact absurd same.2.2.1 (by decide)
  · have before : lookAt (Tree.empty 0) second = .error .noEntry := by
      have missing : (Tree.empty 0 : Store).stat (names second) = .error .noEntry := by
        rw [Tree.stat_eq_noEntry_iff]
        refine ⟨by rw [Tree.lookup_empty, if_neg top], ?_⟩
        intro above _ _ _
        exact isFile_empty above
      rw [lookAt, missing]
    rw [before] at same
    cases same

/-- A `put` that makes a file on the way to the second key shows, where there was nothing. -/
theorem not_isFile_of_separate {tree : Store} {bytes : List UInt8} {suffix : Uuid}
    {dir above : List FileName} (works : driver.home first = some dir)
    (missing : tree.stat (names second) = .error .noEntry) (isFront : above <+: names second) :
    (putAt tree dir (tmpName (driver.resolveUnchecked first) suffix) (target first) bytes
      0).2.isFile above = false := by
  by_contra isFile
  rw [Bool.not_eq_false] at isFile
  have order : Tree.Order FileName := ⟨fun _ found => found, fun _ _ => .refl _⟩
  have same := ((separate tree order 0).1 bytes suffix).get order order 0 0
  have stored := congrArg Prod.snd (driver.put_storage machine order 0 first tree bytes suffix)
  rw [works] at stored
  dsimp only at stored
  rw [stored, get_notFound_iff.mpr missing, get_notFound_iff] at same
  exact stat_of_isFile isFile isFront same

/-- So does a temporary file that is left behind. -/
theorem not_tmp_of_separate {dir : List FileName} (works : driver.home first = some dir)
    (suffix : Uuid) :
    ¬ dir ++ [tmpName (driver.resolveUnchecked first) suffix] <+: names second := by
  intro isFront
  obtain ⟨tree, isDir, noFiles, missing⟩ := exists_dirs (names first)
  obtain ⟨below, notIn⟩ := tmp_beside works suffix
  have nothing : tree.stat (names second) = .error .noEntry :=
    stat_noEntry noFiles missing fun above => notIn (isFront.trans above)
  have left := isFile_tmp_putAt (target first) [] 0 (Tree.isDir_of_prefix below isDir)
    (missing _ notIn) (by
      intro name isTarget
      obtain ⟨same, _⟩ := home_of_target isTarget works
      refine ⟨?_, same ▸ isDir⟩
      rintro rfl
      exact notIn (same ▸ List.prefix_refl _))
  rw [not_isFile_of_separate separate works nothing isFront] at left
  cases left

/-- So does the object itself. -/
theorem not_object_of_separate (plain : dirLike first = false) :
    ¬ names first <+: names second := by
  intro isFront
  have named : names first ≠ [] := by
    intro bare
    rw [dirLike_of_names first bare] at plain
    cases plain
  obtain ⟨front, last, split⟩ := (List.eq_nil_or_concat (names first)).resolve_left named
  rw [List.concat_eq_append] at split
  have works : driver.home first = some front := by
    rw [home, if_neg named, split, List.dropLast_concat]
  have isTarget : target first = some last := by
    rw [target, plain, split, List.getLast?_concat]
    rfl
  obtain ⟨_, notIn⟩ := tmp_beside works Uuid.nil
  obtain ⟨tree, isDir, noFiles, missing⟩ := exists_dirs front
  have deeper : ∀ name, ¬ front ++ [name] <+: front := by
    intro name above
    have lengths := above.length_le
    rw [List.length_append, List.length_singleton] at lengths
    omega
  rw [split] at isFront
  have nothing : tree.stat (names second) = .error .noEntry :=
    stat_noEntry noFiles missing fun above => deeper last (isFront.trans above)
  have stored := isFile_putAt (tmpName (driver.resolveUnchecked first) Uuid.nil) [] 0 isDir
    (Tree.isDir_of_missing (missing _ (deeper _))) (by
      rintro rfl
      exact notIn (split ▸ List.prefix_refl _)) (Tree.isDir_of_missing (missing _ (deeper last)))
  rw [← isTarget, not_isFile_of_separate separate works nothing isFront] at stored
  cases stored

omit separate in
/-- The operations on one key do not show at another exactly when they do not disturb it. -/
theorem separate_iff : driver.Separate machine first second ↔ ¬ driver.Disturbs first second := by
  constructor
  · rintro separate (⟨dir, works, below | ⟨suffix, isFront⟩⟩ | ⟨plain, isFront⟩)
    · exact not_below_of_separate separate works below
    · exact not_tmp_of_separate separate works suffix isFront
    · exact not_object_of_separate separate plain isFront
  · exact separate_of_not_disturbs

end Necessary

end LocalDriver

section Drivers

open Web S3Driver

variable {parseAuthority : List Char → List Char → Option Authority}

/-- Two keys are different objects in both drivers exactly when the first does not disturb the
second on disk and their URLs do not differ in dot segments only. -/
theorem keys_distinct_iff {localDriver : LocalDriver} {machine : LocalDriver.Machine}
    {s3Driver : S3Driver} {bucket : List Char} {first second : StorageKey} {url : Url}
    (different : first ≠ second)
    (built : objectUrl parseAuthority s3Driver bucket first.text.toList = some url) :
    localDriver.Separate machine first second ∧
        objectUrl parseAuthority s3Driver bucket first.text.toList ≠
          objectUrl parseAuthority s3Driver bucket second.text.toList ↔
      ¬ localDriver.Disturbs first second ∧
        (behindQuery s3Driver bucket = true ∨
          settle (keySegments first) ≠ settle (keySegments second)) := by
  rw [LocalDriver.separate_iff, ne_eq, objectUrl_eq_iff built]
  cases behindQuery s3Driver bucket <;> simp [different]

theorem host_plain : ∀ char ∈ "h".toList,
    printable char = true ∧ isSlash char = false ∧ endsPath char = false :=
  Text.forall_mem_of_all (by decide)

def hostAuthority : Authority where
  text := "h".toList
  host := "h".toList
  port := none
  nonempty := by decide
  plain := host_plain
  hostPlain := host_plain

def parseHost (_scheme text : List Char) : Option Authority :=
  if text = "h".toList then some hostAuthority else none

theorem https_special : isSpecial "https".toList = true := by decide

def hostDriver : S3Driver where
  config := ⟨"b".toList, "r".toList, some "https://h".toList, [], [], true⟩
  baseUrl := parseRest "https".toList https_special hostAuthority []

def plainMachine : LocalDriver.Machine := ⟨[], 4096, fun _ => ""⟩

theorem validate_first : StorageKey.validate "a/b" = .ok () := by decide

theorem validate_second : StorageKey.validate "a/c" = .ok () := by decide

theorem validate_dotted : StorageKey.validate "a/./b" = .ok () := by decide

def firstKey : StorageKey := ⟨"a/b", validate_first⟩

def secondKey : StorageKey := ⟨"a/c", validate_second⟩

/-- A second spelling of `a/b`. -/
def dottedKey : StorageKey := ⟨"a/./b", validate_dotted⟩

theorem dotted_key_shares :
    dottedKey ≠ firstKey ∧
      ¬ (LocalDriver.sampleDriver.Separate plainMachine dottedKey firstKey ∧
        objectUrl parseHost hostDriver "b".toList dottedKey.text.toList ≠
          objectUrl parseHost hostDriver "b".toList firstKey.text.toList) := by
  refine ⟨by decide, ?_⟩
  rintro ⟨separate, _⟩
  rw [LocalDriver.separate_iff] at separate
  apply separate
  exact Or.inr ⟨by decide, by decide⟩

theorem siblings_distinct :
    LocalDriver.sampleDriver.Separate plainMachine firstKey secondKey ∧
      objectUrl parseHost hostDriver "b".toList firstKey.text.toList ≠
        objectUrl parseHost hostDriver "b".toList secondKey.text.toList := by
  have built : (objectUrl parseHost hostDriver "b".toList firstKey.text.toList).isSome = true := by
    decide
  obtain ⟨url, built⟩ := Option.isSome_iff_exists.mp built
  refine (keys_distinct_iff (by decide) built).mpr ⟨?_, Or.inr (by decide)⟩
  have works : LocalDriver.sampleDriver.home firstKey =
      some (LocalDriver.names firstKey).dropLast := by
    rw [LocalDriver.home, if_neg (by decide)]
  rintro (⟨dir, isDir, below | ⟨suffix, isFront⟩⟩ | ⟨_, isFront⟩)
  · rw [works] at isDir
    cases isDir
    exact absurd below (by decide)
  · rw [works] at isDir
    cases isDir
    have same : (LocalDriver.names firstKey).dropLast ++
        [LocalDriver.tmpName (LocalDriver.sampleDriver.resolveUnchecked firstKey) suffix] =
          LocalDriver.names secondKey := isFront.eq_of_length (by
      rw [List.length_append, List.length_singleton]
      decide)
    have long := LocalDriver.length_tmpText
      (LocalDriver.sampleDriver.resolveUnchecked firstKey) suffix
    have member : LocalDriver.tmpName (LocalDriver.sampleDriver.resolveUnchecked firstKey) suffix ∈
        LocalDriver.names secondKey := by
      rw [← same]
      simp
    have short : ∀ name ∈ LocalDriver.names secondKey, name.text.length < 38 := by decide
    exact absurd (short _ member) (Nat.not_lt.mpr long)
  · exact absurd isFront (by decide)

end Drivers

end Picroom
