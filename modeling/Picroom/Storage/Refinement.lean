import Picroom.Storage.Distinct
import Picroom.Transition.Run

/-!
# The driver as a map

`contents` is the map that a sequence of `put` and `delete` calls describes.  The tree the driver
leaves stands for that map as long as the keys in use are spelled by their names, do not look like
temporary files, and none lies above another.  Prefixes have to be whole directories for the keys
in use.
-/

namespace Picroom

open Files Transition

namespace LocalDriver

inductive Edit where
  | put (key : StorageKey) (bytes : List UInt8) (suffix : Uuid) (now : Nat)
  | delete (key : StorageKey) (now : Nat)

def Edit.key : Edit → StorageKey
  | .put key _ _ _ => key
  | .delete key _ => key

section Abstract

/-- The objects by key. -/
abbrev Contents := StorageKey → Option (List UInt8)

def Edit.apply (contents : Contents) : Edit → Contents
  | .put key bytes _ _ => Function.update contents key (some bytes)
  | .delete key _ => Function.update contents key none

/-- The bytes of the last `put` of a key that no `delete` follows. -/
def contents (edits : List Edit) : Contents := edits.foldl Edit.apply fun _ => none

end Abstract

section Concrete

variable (driver : LocalDriver) (machine : Machine) (order : Tree.Order FileName)

/-- A call that succeeds. -/
def edit (tree : Store) : Edit → Option Store
  | .put key bytes suffix now =>
      match driver.put (driver.storage machine order now) machine.describe key bytes suffix
        tree with
      | (.ok (), next) => some next
      | (.error _, _) => none
  | .delete key now =>
      match driver.delete (driver.storage machine order now) machine.describe key tree with
      | (.ok (), next) => some next
      | (.error _, _) => none

end Concrete

/-- Spelled by its names. -/
def Plain (key : StorageKey) : Prop := keyPath key = (names key).map FileName.toSegment

instance (key : StorageKey) : Decidable (Plain key) := inferInstanceAs (Decidable (_ = _))

/-- Keys that can be kept side by side. -/
structure Tidy (used : StorageKey → Prop) : Prop where
  plain : ∀ key, used key → Plain key
  notTemp : ∀ key, used key → ∀ name, (names key).getLast? = some name → isTemp name = false
  apart : ∀ key other, used key → used other → names key <+: names other → key = other

/-- A key that is not above or below a key in use, nor another spelling of one. -/
structure Clear (used : StorageKey → Prop) (key : StorageKey) : Prop where
  named : names key ≠ []
  above : ∀ other, used other → names key <+: names other → other = key
  below : ∀ other, used other → names other <+: names key → other = key

section Plain

variable {key : StorageKey}

theorem dirLike_of_plain (plain : Plain key) : dirLike key = false := by
  have nonempty : keyPath key ≠ [] := Segment.split_ne_nil _
  unfold dirLike
  rw [plain] at nonempty ⊢
  obtain ⟨front, last, split⟩ := (List.eq_nil_or_concat (names key)).resolve_left (by
    intro bare
    rw [bare] at nonempty
    exact nonempty rfl)
  rw [split, List.concat_eq_append, List.map_append, List.map_singleton, List.getLast?_concat]
  simp [Path.isTrivial]

theorem names_ne_nil_of_plain (plain : Plain key) : names key ≠ [] := by
  intro bare
  have isDirLike := dirLike_of_names key bare
  rw [dirLike_of_plain plain] at isDirLike
  cases isDirLike

/-- Where a plain key is stored. -/
theorem place_of_plain (driver : LocalDriver) (plain : Plain key) :
    ∃ front last, names key = front ++ [last] ∧ driver.home key = some front ∧
      target key = some last := by
  have named := names_ne_nil_of_plain plain
  obtain ⟨front, last, split⟩ := (List.eq_nil_or_concat (names key)).resolve_left named
  rw [List.concat_eq_append] at split
  refine ⟨front, last, split, ?_, ?_⟩
  · rw [home, if_neg named, split, List.dropLast_concat]
  · rw [target, dirLike_of_plain plain, split, List.getLast?_concat]
    rfl

theorem tmpText_ends (path : Path) (suffix : Uuid) :
    ∃ front, front ++ ".tmp".toList = tmpText path suffix := by
  unfold tmpText
  cases path.fileName with
  | none => exact ⟨'.' :: ("picroom".toList ++ '.' :: Uuid.hexText 32 suffix.bits.toNat), by simp⟩
  | some name => exact ⟨'.' :: (name.text ++ '.' :: Uuid.hexText 32 suffix.bits.toNat), by simp⟩

theorem isTemp_tmpName (path : Path) (suffix : Uuid) : isTemp (tmpName path suffix) = true := by
  rw [isTemp, Bool.and_eq_true]
  refine ⟨rfl, ?_⟩
  rw [List.isSuffixOf_iff_suffix]
  exact tmpText_ends path suffix

end Plain

/-- The tree holds exactly the objects, and the directories on the way to keys in use. -/
structure Represents (used : StorageKey → Prop) (objects : Contents) (tree : Store) : Prop where
  files : ∀ path data modified, tree.lookup path = some (.file data modified) →
    ∃ key, used key ∧ objects key = some data ∧ names key = path
  stored : ∀ key data, objects key = some data →
    used key ∧ ∃ modified, tree.lookup (names key) = some (.file data modified)
  dirs : ∀ path, tree.isDir path = true →
    path = [] ∨ ∃ key, used key ∧ path <+: names key ∧ path ≠ names key

section Step

variable {driver : LocalDriver} {machine : Machine} {order : Tree.Order FileName}
  {used : StorageKey → Prop} {objects : Contents} {tree next : Store} {key : StorageKey}

theorem represents_empty (used : StorageKey → Prop) (modified : Nat) :
    Represents used (fun _ => none) (Tree.empty modified) where
  files path data time found := by
    rw [Tree.lookup_empty] at found
    split at found
    next => cases found
    next => cases found
  stored key data absurd := by cases absurd
  dirs path isDir := by
    obtain ⟨time, found⟩ := Tree.isDir_iff.mp isDir
    rw [Tree.lookup_empty] at found
    split at found
    next top => exact Or.inl top
    next => cases found

variable (tidy : Tidy used) (inUse : used key)

include tidy inUse

/-- No object in use is at the place of a temporary file. -/
theorem ne_tmp {path : Path} {suffix : Uuid} (dir : List FileName) :
    names key ≠ dir ++ [tmpName path suffix] := by
  intro same
  have notTemp := tidy.notTemp key inUse (tmpName path suffix) (by rw [same, List.getLast?_concat])
  rw [isTemp_tmpName] at notTemp
  cases notTemp

theorem represents_put {bytes : List UInt8} {suffix : Uuid} {now : Nat}
    (represents : Represents used objects tree)
    (stored : edit driver machine order tree (.put key bytes suffix now) = some next) :
    Represents used (Edit.apply objects (.put key bytes suffix now)) next := by
  obtain ⟨front, last, split, works, isTarget⟩ := place_of_plain driver (tidy.plain key inUse)
  have result := driver.put_storage machine order now key tree bytes suffix
  rw [works, isTarget] at result
  have succeeded : putAt tree front (tmpName (driver.resolveUnchecked key) suffix) (some last) bytes
      now = (true, next) := by
    rw [edit] at stored
    split at stored
    next done =>
      cases stored
      rw [done] at result
      exact result.symm
    next => cases stored
  obtain ⟨name, isName, object, tmpGone⟩ := of_putAt succeeded
  cases isName
  rw [← split] at object
  have gone := tmpGone (by
    rintro same
    exact ne_tmp tidy inUse front (split.trans (by rw [same])))
  have changes := changes_putAt tree front (tmpName (driver.resolveUnchecked key) suffix)
    (some last) bytes now
  rw [succeeded] at changes
  have notLeaf : ∀ path, path ≠ names key →
      path ≠ front ++ [tmpName (driver.resolveUnchecked key) suffix] →
      ¬ (path = front ++ [tmpName (driver.resolveUnchecked key) suffix] ∨
        ∃ name, some last = some name ∧ path = front ++ [name]) := by
    rintro path notObject notTmp (isTmp | ⟨name, isLast, isObject⟩)
    · exact notTmp isTmp
    · cases isLast
      exact notObject (isObject.trans split.symm)
  refine ⟨?_, ?_, ?_⟩
  · intro path data modified found
    by_cases isObject : path = names key
    · subst isObject
      rw [object] at found
      cases found
      exact ⟨key, inUse, Function.update_self _ _ _, rfl⟩
    · have notTmp : path ≠ front ++ [tmpName (driver.resolveUnchecked key) suffix] := by
        rintro rfl
        rw [gone] at found
        cases found
      obtain ⟨other, otherUsed, present, isPath⟩ := represents.files path data modified
        ((changes.file path (notLeaf path isObject notTmp) data modified).mp found)
      refine ⟨other, otherUsed, ?_, isPath⟩
      rw [Edit.apply, Function.update_of_ne _ _ _]
      · exact present
      · rintro rfl
        exact isObject isPath.symm
  · intro other data present
    by_cases same : other = key
    · subst same
      rw [Edit.apply, Function.update_self] at present
      cases present
      exact ⟨inUse, now, object⟩
    · rw [Edit.apply, Function.update_of_ne same] at present
      obtain ⟨otherUsed, modified, found⟩ := represents.stored other data present
      refine ⟨otherUsed, modified, ?_⟩
      have different : names other ≠ names key := fun equal =>
        same (tidy.apart other key otherUsed inUse (equal ▸ List.prefix_refl _))
      exact (changes.file _ (notLeaf _ different (ne_tmp tidy otherUsed front)) data modified).mpr
        found
  · intro path isDir
    by_cases above : path <+: front
    · refine Or.inr ⟨key, inUse, split ▸ above.trans (List.prefix_append _ _), ?_⟩
      rintro rfl
      have lengths := above.length_le
      rw [split, List.length_append, List.length_singleton] at lengths
      omega
    · have notObject : path ≠ names key := by
        rintro rfl
        rw [Tree.isDir_of_file object] at isDir
        cases isDir
      have notTmp : path ≠ front ++ [tmpName (driver.resolveUnchecked key) suffix] := by
        rintro rfl
        rw [Tree.isDir_of_missing gone] at isDir
        cases isDir
      apply represents.dirs
      rw [Tree.isDir, ← changes.same path above (notLeaf path notObject notTmp)]
      exact isDir

theorem represents_delete {now : Nat} (represents : Represents used objects tree)
    (removed : edit driver machine order tree (.delete key now) = some next) :
    Represents used (Edit.apply objects (.delete key now)) next := by
  have result := driver.delete_storage machine order now key tree
  have succeeded : deleteAt tree key now = (true, next) := by
    rw [edit] at removed
    split at removed
    next done =>
      cases removed
      rw [done] at result
      exact result.symm
    next => cases removed
  have changes := changes_deleteAt tree now key
  rw [succeeded] at changes
  have gone := of_deleteAt succeeded
  refine ⟨?_, ?_, ?_⟩
  · intro path data modified found
    have notObject : path ≠ names key := by
      rintro rfl
      rw [gone] at found
      cases found
    obtain ⟨other, otherUsed, present, isPath⟩ := represents.files path data modified
      ((changes.file path (fun leaf => notObject leaf.1) data modified).mp found)
    refine ⟨other, otherUsed, ?_, isPath⟩
    rw [Edit.apply, Function.update_of_ne]
    · exact present
    · rintro rfl
      exact notObject isPath.symm
  · intro other data present
    by_cases same : other = key
    · subst same
      rw [Edit.apply, Function.update_self] at present
      cases present
    · rw [Edit.apply, Function.update_of_ne same] at present
      obtain ⟨otherUsed, modified, found⟩ := represents.stored other data present
      refine ⟨otherUsed, modified, ?_⟩
      have different : names other ≠ names key := fun equal =>
        same (tidy.apart other key otherUsed inUse (equal ▸ List.prefix_refl _))
      exact (changes.file _ (fun leaf => different leaf.1) data modified).mpr found
  · intro path isDir
    by_cases above : path = (names key).dropLast
    · have named := names_ne_nil_of_plain (tidy.plain key inUse)
      refine Or.inr ⟨key, inUse, above ▸ List.dropLast_prefix _, ?_⟩
      rintro isObject
      have lengths := congrArg List.length (isObject.symm.trans above)
      have positive := List.length_pos_iff.mpr named
      rw [List.length_dropLast] at lengths
      omega
    · have notObject : path ≠ names key := by
        rintro rfl
        rw [Tree.isDir_of_missing gone] at isDir
        cases isDir
      apply represents.dirs
      rw [Tree.isDir, ← changes.same path (fun dirs => above dirs.1) fun leaf => notObject leaf.1]
      exact isDir

end Step

section Observed

variable {driver : LocalDriver} {machine : Machine} {order : Tree.Order FileName}
  {used : StorageKey → Prop} {objects : Contents} {tree : Store} {key : StorageKey}

/-- A run of successful calls keeps the tree and the map together. -/
theorem represents_run {last : Store} {edits : List Edit} (tidy : Tidy used)
    (uses : ∀ edit ∈ edits, used edit.key) (represents : Represents used objects tree)
    (ran : run (driver.edit machine order) tree edits = some last) :
    Represents used (edits.foldl Edit.apply objects) last := by
  induction edits generalizing objects tree with
  | nil =>
      cases ran
      exact represents
  | cons first rest inductionHypothesis =>
      obtain ⟨next, stepped, later⟩ := run_cons_eq_some_iff.mp ran
      have inUse := uses first List.mem_cons_self
      refine inductionHypothesis (fun edit member => uses edit (List.mem_cons_of_mem _ member)) ?_
        later
      cases first with
      | put key bytes suffix now => exact represents_put tidy inUse represents stepped
      | delete key now => exact represents_delete tidy inUse represents stepped

theorem lookAt_of_represents (tidy : Tidy used) (represents : Represents used objects tree)
    (clear : Clear used key) :
    match objects key with
    | some data => ∃ modified, lookAt tree key = .ok (.file data modified)
    | none => lookAt tree key = .error .noEntry := by
  cases present : objects key with
  | some data =>
      obtain ⟨inUse, modified, found⟩ := represents.stored key data present
      refine ⟨modified, ?_⟩
      rw [lookAt, Tree.stat_eq_ok_iff.mpr found, dirLike_of_plain (tidy.plain key inUse)]
      rfl
  | none =>
      have noFile : ∀ above, above <+: names key → tree.isFile above = false := by
        intro above isFront
        by_contra isFile
        rw [Bool.not_eq_false] at isFile
        obtain ⟨data, modified, found⟩ := Tree.isFile_iff.mp isFile
        obtain ⟨other, inUse, stored, isPath⟩ := represents.files above data modified found
        have same := clear.below other inUse (isPath ▸ isFront)
        rw [same, present] at stored
        cases stored
      have missing : tree.lookup (names key) = none := by
        cases found : tree.lookup (names key) with
        | none => rfl
        | some node =>
            cases node with
            | file data modified =>
                have isFile : tree.isFile (names key) = true :=
                  Tree.isFile_iff.mpr ⟨data, modified, found⟩
                rw [noFile _ (List.prefix_refl _)] at isFile
                cases isFile
            | dir modified =>
                rcases represents.dirs _ (Tree.isDir_iff.mpr ⟨modified, found⟩) with
                  top | ⟨other, inUse, above, strict⟩
                · exact absurd top clear.named
                · rw [clear.above other inUse above] at strict
                  exact absurd rfl strict
      have stat : tree.stat (names key) = .error .noEntry :=
        Tree.stat_eq_noEntry_iff.mpr ⟨missing, fun above below split _ =>
          noFile above ⟨below, split.symm⟩⟩
      rw [lookAt, stat]

variable (driver machine order) in
/-- What is read of a key. -/
theorem get_of_represents (now : Nat) (tidy : Tidy used)
    (represents : Represents used objects tree) (clear : Clear used key) :
    (driver.get (driver.storage machine order now) machine.describe key tree).1 =
        (match objects key with
          | some data => .ok data
          | none => .error (.notFound key.text)) ∧
      (driver.exists? (driver.storage machine order now) key tree).1 = (objects key).isSome := by
  have looked := lookAt_of_represents tidy represents clear
  rw [get_storage, exists_storage]
  cases present : objects key with
  | some data =>
      rw [present] at looked
      obtain ⟨modified, found⟩ := looked
      rw [found]
      exact ⟨rfl, rfl⟩
  | none =>
      rw [present] at looked
      dsimp only at looked
      rw [looked]
      exact ⟨rfl, rfl⟩

end Observed

section Spelling

/-- Segments without a final empty one. -/
def settled (segments : List Segment) : List Segment := (Path.join ⟨false, segments⟩ []).segments

theorem segments_join (path : Path) (segments : List Segment) :
    (path.join segments).segments = settled path.segments ++ segments := by
  unfold settled Path.join
  rw [List.append_nil]

theorem settled_append {front back : List Segment} (nonempty : back ≠ []) :
    settled (front ++ back) = front ++ settled back := by
  obtain ⟨shorter, last, rfl⟩ := (List.eq_nil_or_concat back).resolve_left nonempty
  unfold settled Path.join
  dsimp only
  rw [List.append_nil, List.append_nil, List.concat_eq_append, ← List.append_assoc,
    List.getLast?_concat, List.getLast?_concat]
  dsimp only
  split
  next => rw [List.dropLast_concat, List.dropLast_concat]
  next => rw [List.append_assoc]

theorem settled_name (front : List Segment) (name : FileName) :
    settled (front ++ [name.toSegment]) = front ++ [name.toSegment] := by
  rw [settled_append (by simp)]
  simp [settled, Path.join, name.ne_empty]

theorem segments_descend (path : Path) {rest : List FileName} (nonempty : rest ≠ []) :
    (descend path rest).segments = settled path.segments ++ rest.map FileName.toSegment := by
  obtain ⟨shorter, last, rfl⟩ := (List.eq_nil_or_concat rest).resolve_left nonempty
  rw [List.concat_eq_append]
  clear nonempty
  induction shorter using List.reverseRecOn generalizing last with
  | nil => exact segments_join path _
  | append_singleton shorter name inductionHypothesis =>
      have deeper : descend path (shorter ++ [name] ++ [last]) =
          (descend path (shorter ++ [name])).push last := by
        rw [descend, List.foldl_append]
        rfl
      rw [deeper, Path.push, segments_join, inductionHypothesis name, List.map_append,
        List.map_append, List.map_singleton, ← List.append_assoc, settled_name]
      simp

theorem trimStart_dropSteps {front back : List Segment} {count : Nat}
    (counted : (front.filterMap Segment.component).length = count) :
    Path.trimStart (Path.dropSteps count (front ++ back)) = Path.trimStart back := by
  induction front generalizing count with
  | nil =>
      rw [List.filterMap_nil, List.length_nil] at counted
      subst counted
      rw [Path.dropSteps, List.nil_append]
  | cons segment rest inductionHypothesis =>
      cases component : segment.component with
      | none =>
          have trivial : Path.isTrivial segment = true := by simp [Path.isTrivial, component]
          rw [List.filterMap_cons_none component] at counted
          cases count with
          | zero =>
              have later := inductionHypothesis counted
              rw [Path.dropSteps] at later ⊢
              rw [List.cons_append, Path.trimStart, List.dropWhile_cons, if_pos trivial]
              exact later
          | succ count =>
              rw [List.cons_append, Path.dropSteps, if_pos trivial]
              exact inductionHypothesis counted
      | some step =>
          have proper : ¬ Path.isTrivial segment = true := by simp [Path.isTrivial, component]
          rw [List.filterMap_cons_some component, List.length_cons] at counted
          cases count with
          | zero => cases counted
          | succ count =>
              rw [List.cons_append, Path.dropSteps, if_neg proper]
              exact inductionHypothesis (Nat.succ.inj counted)

theorem trimStart_append_names (segments : List Segment) {rest : List FileName}
    (nonempty : rest ≠ []) :
    Path.trimStart (segments ++ rest.map FileName.toSegment) =
      Path.trimStart segments ++ rest.map FileName.toSegment := by
  obtain ⟨name, others, rfl⟩ := List.exists_cons_of_ne_nil nonempty
  unfold Path.trimStart
  rw [List.dropWhile_append]
  split
  next none =>
    rw [List.isEmpty_iff.mp none, List.nil_append, List.map_cons, List.dropWhile_cons,
      if_neg (by simp [Path.isTrivial])]
  next => rfl

theorem trimEnd_append_names (segments : List Segment) {rest : List FileName}
    (nonempty : rest ≠ []) :
    Path.trimEnd (segments ++ rest.map FileName.toSegment) =
      segments ++ rest.map FileName.toSegment := by
  obtain ⟨shorter, last, rfl⟩ := (List.eq_nil_or_concat rest).resolve_left nonempty
  rw [List.concat_eq_append, List.map_append, List.map_singleton, ← List.append_assoc,
    Path.trimEnd, List.reverse_append, List.reverse_singleton, List.singleton_append,
    List.dropWhile_cons, if_neg (by simp [Path.isTrivial]), List.reverse_cons, List.reverse_reverse]

/-- A prefix that names a whole directory: behind leading `./` it is spelled by its names, with at
most one slash at the end, and the keys in use that start with it lie in that directory. -/
structure Whole (used : StorageKey → Prop) (keyPrefix : StorageKey) : Prop where
  spelled : Path.trimStart (settled (keyPath keyPrefix)) =
    (names keyPrefix).map FileName.toSegment
  covers : ∀ key, used key → keyPrefix.text.toList <+: key.text.toList →
    names keyPrefix <+: names key ∧ names key ≠ names keyPrefix

variable {driver : LocalDriver} {keyPrefix : Option StorageKey}

/-- The path of a file below the directory, relative to the root, is spelled by its names. -/
theorem relative_pathOf (deep : driver.root.depth ≠ 0)
    (spelled : ∀ key, keyPrefix = some key → Path.trimStart (settled (keyPath key)) =
      (names key).map FileName.toSegment)
    {found : List FileName} (below : top keyPrefix <+: found) (strict : found ≠ top keyPrefix) :
    relative driver.root (pathOf (driver.base keyPrefix) (top keyPrefix) found) =
      ⟨false, found.map FileName.toSegment⟩ := by
  have leads := driver.leadsTo_pathOf (driver.leadsTo_base keyPrefix) below
  obtain ⟨rest, rfl⟩ := below
  have nonempty : rest ≠ [] := by
    rintro rfl
    exact strict (List.append_nil _)
  have counted :
      (settled driver.root.segments).filterMap Segment.component = driver.root.steps := by
    have steps := Path.steps_join driver.root []
    rw [List.filterMap_nil, List.append_nil, Path.steps, segments_join, List.append_nil] at steps
    exact steps
  have segments : (pathOf (driver.base keyPrefix) (top keyPrefix)
      (top keyPrefix ++ rest)).segments = settled (driver.base keyPrefix).segments ++
        rest.map FileName.toSegment := by
    rw [pathOf, List.drop_left, segments_descend _ nonempty]
  rw [top] at leads
  rw [top] at segments
  rw [top, relative_of_deep leads deep, segments]
  cases keyPrefix with
  | none =>
      rw [base, trimStart_dropSteps (by rw [counted])]
      have alone := trimStart_append_names [] nonempty
      have whole := trimEnd_append_names [] nonempty
      rw [List.nil_append] at alone whole
      rw [alone]
      change (⟨false, Path.trimEnd (rest.map FileName.toSegment)⟩ : Path) = _
      rw [whole]
      rfl
  | some key =>
      have back : keyPath key ≠ [] := Segment.split_ne_nil _
      rw [base, resolveUnchecked, segments_join, settled_append back, List.append_assoc,
        trimStart_dropSteps (by rw [counted]), trimStart_append_names _ nonempty,
        spelled key rfl, ← List.map_append]
      have whole := trimEnd_append_names ((names key).map FileName.toSegment) nonempty
      rw [← List.map_append] at whole
      rw [whole]
      rfl

theorem text_of_plain {key : StorageKey} (plain : Plain key) :
    key.text.toList = ['/'].intercalate ((names key).map fun name => name.text) := by
  have joined := Segment.intercalate_split key.text.toList
  change ['/'].intercalate ((keyPath key).map Segment.text) = _ at joined
  rw [plain, List.map_map] at joined
  exact joined.symm

theorem keyText_of_plain {key : StorageKey} {path : Path} (plain : Plain key)
    (isRelative : relative driver.root path = ⟨false, (names key).map FileName.toSegment⟩) :
    keyText driver.root path = key.text.toList := by
  have spelled : (relative driver.root path).text = key.text.toList := by
    rw [isRelative, Path.text, text_of_plain plain, List.map_map]
    rfl
  rw [keyText, spelled]
  conv_rhs => rw [← List.map_id key.text.toList]
  apply List.map_congr_left
  intro char member
  apply if_neg
  rintro rfl
  obtain ⟨_, _, _, _, chars⟩ := StorageKey.validate_eq_ok_iff.mp key.valid
  have valid := chars '\\' member
  cases valid

end Spelling

section Listings

variable {driver : LocalDriver} {machine : Machine} {order : Tree.Order FileName}
  {used : StorageKey → Prop} {objects : Contents} {tree : Store} {keyPrefix : Option StorageKey}

/-- What is listed for the file of a key in use. -/
theorem listed_of_used {key : StorageKey} {data : List UInt8} {modified : Nat}
    (deep : driver.root.depth ≠ 0)
    (spelled : ∀ key, keyPrefix = some key → Path.trimStart (settled (keyPath key)) =
      (names key).map FileName.toSegment)
    (tidy : Tidy used) (inUse : used key) (below : top keyPrefix <+: names key)
    (strict : names key ≠ top keyPrefix)
    (found : tree.lookup (names key) = some (.file data modified)) :
    driver.listed tree (prefixText keyPrefix) (driver.base keyPrefix) (top keyPrefix) (names key) =
      if (prefixText keyPrefix).isPrefixOf key.text.toList then
        some (objectMeta key ⟨false, data.length, modified⟩)
      else none := by
  have plain := tidy.plain key inUse
  have isRelative := relative_pathOf deep spelled below strict
  obtain ⟨front, last, split⟩ :=
    (List.eq_nil_or_concat (names key)).resolve_left (names_ne_nil_of_plain plain)
  rw [List.concat_eq_append] at split
  have named : (⟨false, (names key).map FileName.toSegment⟩ : Path).fileName = some last := by
    have steps : (⟨false, (names key).map FileName.toSegment⟩ : Path).steps =
        front.map Component.normal ++ [.normal last] := by
      rw [Path.steps, List.filterMap_map, split]
      simp
    exact fileName_of_steps steps
  have notTemp := tidy.notTemp key inUse last (by rw [split, List.getLast?_concat])
  have parsed : StorageKey.parse (String.ofList key.text.toList) = .ok key := by
    rw [String.ofList_toList, StorageKey.parse_text]
  unfold listed
  rw [found]
  unfold entryOf
  rw [keyText_of_plain plain isRelative, isRelative, named, parsed, Option.any_some, notTemp]
  rfl

/-- Exactly the objects under the kept keys, each once and with its length. -/
structure ListsExactly (objects : Contents) (kept : StorageKey → Prop) (items : List ObjectMeta) :
    Prop where
  once : (items.map (·.key)).Nodup
  lengths : ∀ key size, (∃ entry ∈ items, entry.key = key ∧ entry.bytes = size) ↔
    ∃ data, objects key = some data ∧ data.length = size ∧ kept key

variable (machine order keyPrefix) in
theorem lists_of_represents {fuel : Nat} (now : Nat) (deep : driver.root.depth ≠ 0)
    (tidy : Tidy used) (represents : Represents used objects tree)
    (spelled : ∀ key, keyPrefix = some key → Path.trimStart (settled (keyPath key)) =
      (names key).map FileName.toSegment)
    (covers : ∀ key, used key → prefixText keyPrefix <+: key.text.toList →
      top keyPrefix <+: names key ∧ names key ≠ top keyPrefix)
    (enough : tree.nodes.keys.length ≤ fuel) :
    ListsExactly objects (fun key => prefixText keyPrefix <+: key.text.toList)
      (driver.list (driver.storage machine order now) keyPrefix fuel tree).1.items := by
  have nonempty : (driver.base keyPrefix).isEmpty = false := by
    cases keyPrefix with
    | none =>
        by_contra empty
        rw [Bool.not_eq_false] at empty
        exact deep (depth_of_isEmpty empty)
    | some key => exact driver.isEmpty_resolveUnchecked key
  rw [list_storage]
  -- every file that is come across is the object of a key in use
  have known : ∀ found ∈ driver.reached order tree keyPrefix fuel, ∃ key data modified, used key ∧
      objects key = some data ∧ names key = found ∧
        driver.listed tree (prefixText keyPrefix) (driver.base keyPrefix) (top keyPrefix) found =
          if (prefixText keyPrefix).isPrefixOf key.text.toList then
            some (objectMeta key ⟨false, data.length, modified⟩)
          else none := by
    intro found member
    obtain ⟨_, isFile, below, strict⟩ := (mem_reached_iff enough).mp member
    obtain ⟨data, modified, present⟩ := Tree.isFile_iff.mp isFile
    obtain ⟨key, inUse, stored, rfl⟩ := represents.files found data modified present
    exact ⟨key, data, modified, inUse, stored, rfl,
      listed_of_used deep spelled tidy inUse below strict present⟩
  have entries : ∀ found ∈ driver.reached order tree keyPrefix fuel, ∀ entry,
      driver.listed tree (prefixText keyPrefix) (driver.base keyPrefix) (top keyPrefix) found =
        some entry → ∃ data, objects entry.key = some data ∧ names entry.key = found ∧
          data.length = entry.bytes ∧ prefixText keyPrefix <+: entry.key.text.toList := by
    intro found member entry listed
    obtain ⟨key, data, modified, _, stored, isFound, value⟩ := known found member
    rw [value] at listed
    split at listed
    next starts =>
      cases listed
      exact ⟨data, stored, isFound, rfl, List.isPrefixOf_iff_prefix.mp starts⟩
    next => cases listed
  constructor
  · rw [List.map_filterMap, List.Nodup, List.pairwise_filterMap]
    apply (nodup_reached enough).imp_of_mem
    intro first second inFirst inSecond different firstKey isFirst secondKey isSecond same
    obtain ⟨firstEntry, firstListed, rfl⟩ := Option.map_eq_some_iff.mp isFirst
    obtain ⟨secondEntry, secondListed, rfl⟩ := Option.map_eq_some_iff.mp isSecond
    obtain ⟨_, _, firstNames, _⟩ := entries first inFirst firstEntry firstListed
    obtain ⟨_, _, secondNames, _⟩ := entries second inSecond secondEntry secondListed
    exact different (firstNames.symm.trans ((congrArg names same).trans secondNames))
  · intro key size
    constructor
    · rintro ⟨entry, member, rfl, rfl⟩
      obtain ⟨found, inReached, listed⟩ := List.mem_filterMap.mp member
      obtain ⟨data, stored, _, length, starts⟩ := entries found inReached entry listed
      exact ⟨data, stored, length, starts⟩
    · rintro ⟨data, stored, rfl, starts⟩
      obtain ⟨inUse, modified, present⟩ := represents.stored key data stored
      obtain ⟨below, strict⟩ := covers key inUse starts
      have inReached : names key ∈ driver.reached order tree keyPrefix fuel :=
        (mem_reached_iff enough).mpr ⟨nonempty, Tree.isFile_iff.mpr ⟨_, _, present⟩, below, strict⟩
      have listed := listed_of_used deep spelled tidy inUse below strict present
      rw [if_pos (List.isPrefixOf_iff_prefix.mpr starts)] at listed
      exact ⟨_, List.mem_filterMap.mpr ⟨_, inReached, listed⟩, rfl, rfl⟩

/-- After every sequence of successful calls on keys that are kept tidy, the driver reads and lists
what the map of the calls holds. -/
theorem driver_refines_map {last : Store} {modified : Nat} {edits : List Edit}
    (deep : driver.root.depth ≠ 0) (tidy : Tidy used) (uses : ∀ edit ∈ edits, used edit.key)
    (ran : run (driver.edit machine order) (Tree.empty modified) edits = some last) :
    (∀ (order : Tree.Order FileName) (now : Nat) (key : StorageKey), Clear used key →
        (driver.get (driver.storage machine order now) machine.describe key last).1 =
            (match contents edits key with
              | some bytes => .ok bytes
              | none => .error (.notFound key.text)) ∧
          (driver.exists? (driver.storage machine order now) key last).1 =
            (driver.get (driver.storage machine order now) machine.describe key last).1.isOk) ∧
      ∀ (order : Tree.Order FileName) (now fuel : Nat), last.nodes.keys.length ≤ fuel →
        ListsExactly (contents edits) (fun _ => True)
            (driver.list (driver.storage machine order now) none fuel last).1.items ∧
          ∀ keyPrefix, Whole used keyPrefix →
            ListsExactly (contents edits) (fun key => keyPrefix.text.toList <+: key.text.toList)
              (driver.list (driver.storage machine order now) (some keyPrefix) fuel
                last).1.items := by
  have represents : Represents used (contents edits) last :=
    represents_run tidy uses (represents_empty used modified) ran
  constructor
  · intro order now key clear
    obtain ⟨read, present⟩ := get_of_represents driver machine order now tidy represents clear
    refine ⟨read, ?_⟩
    rw [present, read]
    cases contents edits key <;> rfl
  · intro order now fuel enough
    constructor
    · have below : ∀ key, used key → prefixText none <+: key.text.toList →
          top none <+: names key ∧ names key ≠ top none := by
        intro key inUse _
        exact ⟨List.nil_prefix, names_ne_nil_of_plain (tidy.plain key inUse)⟩
      have listed := lists_of_represents machine order none now deep tidy represents
        (fun _ impossible => by cases impossible) below enough
      simpa [prefixText] using listed
    · intro keyPrefix whole
      refine lists_of_represents machine order (some keyPrefix) now deep tidy represents ?_
        whole.covers enough
      rintro key isKey
      cases isKey
      exact whole.spelled

end Listings

section Sample

def readOrder : Tree.Order FileName := ⟨fun _ found => found, fun _ _ => .refl _⟩

theorem validate_short : StorageKey.validate "a" = .ok () := by decide

theorem validate_long : StorageKey.validate "ab" = .ok () := by decide

/-- The prefix `a` is looked for in the directory `a`, where the key `ab` is not. -/
theorem prefix_is_directory :
    ((run (sampleDriver.edit plainMachine readOrder) (Tree.empty 0)
        [.put ⟨"ab", validate_long⟩ [1] Uuid.nil 0]).map fun last =>
      (sampleDriver.list (sampleDriver.storage plainMachine readOrder 0)
        (some ⟨"a", validate_short⟩) 9 last).1.items) = some [] ∧
    contents [.put ⟨"ab", validate_long⟩ [1] Uuid.nil 0] ⟨"ab", validate_long⟩ = some [1] ∧
      "a".toList <+: "ab".toList := by
  refine ⟨by decide, by decide, by decide⟩

def siblings (key : StorageKey) : Prop := key = firstKey ∨ key = secondKey

theorem tidy_siblings : Tidy siblings where
  plain := by
    rintro key (rfl | rfl)
    · decide
    · decide
  notTemp := by
    rintro key (rfl | rfl) name last
    · have names : (names firstKey).getLast?.any (!isTemp ·) = true := by decide
      simpa [last] using names
    · have names : (names secondKey).getLast?.any (!isTemp ·) = true := by decide
      simpa [last] using names
  apart := by
    rintro key other (rfl | rfl) (rfl | rfl) isFront
    · rfl
    · exact absurd isFront (by decide)
    · exact absurd isFront (by decide)
    · rfl

def siblingEdits : List Edit :=
  [.put firstKey [1, 2] Uuid.nil 0, .put secondKey [3] Uuid.nil 1, .delete firstKey 2]

theorem siblings_refine :
    ∃ last, run (sampleDriver.edit plainMachine readOrder) (Tree.empty 0) siblingEdits = some last ∧
      (sampleDriver.get (sampleDriver.storage plainMachine readOrder 3) plainMachine.describe
        secondKey last).1 = .ok [3] ∧
      ListsExactly (contents siblingEdits) (fun _ => True)
        (sampleDriver.list (sampleDriver.storage plainMachine readOrder 3) none
          last.nodes.keys.length last).1.items := by
  have ran : (run (sampleDriver.edit plainMachine readOrder) (Tree.empty 0)
      siblingEdits).isSome = true := by decide
  obtain ⟨last, ran⟩ := Option.isSome_iff_exists.mp ran
  have uses : ∀ edit ∈ siblingEdits, siblings edit.key := by
    simp [siblingEdits, siblings, Edit.key]
  obtain ⟨reads, lists⟩ := driver_refines_map (by decide) tidy_siblings uses ran
  have clear : Clear siblings secondKey := by
    refine ⟨by decide, ?_, ?_⟩
    · exact fun other inUse above => (tidy_siblings.apart _ _ (Or.inr rfl) inUse above).symm
    · exact fun other inUse below => tidy_siblings.apart _ _ inUse (Or.inr rfl) below
  have held : contents siblingEdits secondKey = some [3] := by decide
  refine ⟨last, ran, ?_, (lists readOrder 3 _ le_rfl).1⟩
  rw [(reads readOrder 3 secondKey clear).1, held]

end Sample

end LocalDriver

end Picroom
