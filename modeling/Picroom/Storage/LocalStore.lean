import Picroom.Storage.Containment

/-!
# The driver on a tree

The operations of `LocalDriver` on a tree that is mounted at the root, in terms of the names of a
key.  Reading looks the names up; `put` makes the directories, writes the temporary file beside
the target and renames it, and `delete` removes the file.
-/

namespace Picroom

open Files

namespace LocalDriver

/-- What the machine adds: the working directory, the length it reports for a directory, and the
texts of its errors. -/
structure Machine where
  workingDir : List FileName
  dirLength : Nat
  describe : Errno → String

abbrev Store := Tree FileName (List UInt8)

def mount (driver : LocalDriver) (machine : Machine) : Mount :=
  ⟨driver.root, machine.workingDir, machine.dirLength⟩

/-- The file system below the root, at an instant. -/
def storage (driver : LocalDriver) (machine : Machine) (order : Tree.Order FileName) (now : Nat) :
    System Store (List UInt8) :=
  (driver.mount machine).system List.length order now

/-- A key that ends in a slash or in `.`. -/
def dirLike (key : StorageKey) : Bool :=
  match (keyPath key).getLast? with
  | some last => Path.isTrivial last
  | none => true

section Located

variable (driver : LocalDriver) (machine : Machine)

theorem intercalate_eq_nil {parts : List (List Char)} (empty : ['/'].intercalate parts = []) :
    parts = [] ∨ parts = [[]] := by
  cases parts with
  | nil => exact Or.inl rfl
  | cons first rest =>
      cases rest with
      | nil => exact Or.inr (by simpa using empty)
      | cons second others =>
          rw [List.intercalate_cons_cons] at empty
          simp at empty

theorem isEmpty_join {path : Path} {segments : List Segment} (nonempty : segments ≠ [])
    (spelled : ['/'].intercalate (segments.map Segment.text) ≠ []) :
    (path.join segments).isEmpty = false := by
  by_contra empty
  simp only [Bool.not_eq_false, Path.isEmpty, beq_iff_eq, Path.text, Path.join,
    List.append_eq_nil_iff, List.map_append] at empty
  rcases intercalate_eq_nil empty.2 with none | alone
  · exact nonempty (by simpa using (List.append_eq_nil_iff.mp none).2)
  · rcases List.append_eq_singleton_iff.mp alone with ⟨_, back⟩ | ⟨_, back⟩
    · rw [back] at spelled
      exact spelled rfl
    · exact nonempty (by simpa using back)

theorem isEmpty_resolveUnchecked (key : StorageKey) :
    (driver.resolveUnchecked key).isEmpty = false := by
  apply isEmpty_join (Segment.split_ne_nil _)
  rw [Segment.intercalate_split]
  exact (StorageKey.validate_eq_ok_iff.mp key.valid).1

theorem locate_of_steps {path : Path} {found : List FileName} (nonempty : path.isEmpty = false)
    (sameRoot : path.absolute = driver.root.absolute)
    (steps : path.steps = driver.root.steps ++ found.map Component.normal) :
    (driver.mount machine).locate path = some found := by
  rw [Mount.locate, nonempty, steps]
  simp only [mount, sameRoot, bne_self_eq_false, Bool.or_self, Bool.false_eq_true, if_false]
  exact Mount.namesAfter_append _ _

theorem locate_resolveUnchecked (key : StorageKey) :
    (driver.mount machine).locate (driver.resolveUnchecked key) = some (names key) :=
  driver.locate_of_steps machine (driver.isEmpty_resolveUnchecked key) rfl
    (steps_resolveUnchecked driver key)

theorem asDirectory_join (path : Path) {segments : List Segment} (nonempty : segments ≠ []) :
    (path.join segments).asDirectory = Path.asDirectory ⟨path.absolute, segments⟩ := by
  unfold Path.asDirectory Path.join
  dsimp only
  rw [List.getLast?_append_of_ne_nil _ nonempty]

theorem asDirectory_resolveUnchecked (key : StorageKey) :
    (driver.resolveUnchecked key).asDirectory = dirLike key :=
  asDirectory_join driver.root (Segment.split_ne_nil _)

theorem asDirectory_push (path : Path) (name : FileName) :
    (path.push name).asDirectory = false := by
  rw [Path.push, asDirectory_join path (by simp)]
  simp [Path.asDirectory, Path.isTrivial]

theorem isEmpty_push (path : Path) (name : FileName) : (path.push name).isEmpty = false :=
  isEmpty_join (by simp) (by simpa using name.ne_empty)

theorem locate_push {path : Path} {found : List FileName} (name : FileName)
    (sameRoot : path.absolute = driver.root.absolute)
    (steps : path.steps = driver.root.steps ++ found.map Component.normal) :
    (driver.mount machine).locate (path.push name) = some (found ++ [name]) := by
  apply driver.locate_of_steps machine (isEmpty_push path name) sameRoot
  rw [Path.steps_push, steps, List.map_append, List.map_singleton, List.append_assoc]

end Located

section Reading

variable (driver : LocalDriver) (machine : Machine) (order : Tree.Order FileName) (now : Nat)
  (key : StorageKey) (tree : Store)

/-- The node a key names; a file cannot be named as a directory. -/
def lookAt (tree : Store) (key : StorageKey) : Except Errno (Node (List UInt8)) :=
  match tree.stat (names key) with
  | .error error => .error error
  | .ok (.file data modified) =>
      if dirLike key then .error .notDirectory else .ok (.file data modified)
  | .ok (.dir modified) => .ok (.dir modified)

theorem nodeAt_resolveUnchecked :
    (driver.mount machine).nodeAt tree (driver.resolveUnchecked key) =
      (lookAt tree key).map fun node => (names key, node) := by
  rw [Mount.nodeAt, locate_resolveUnchecked, asDirectory_resolveUnchecked]
  unfold lookAt
  dsimp only
  cases tree.stat (names key) with
  | error error => rfl
  | ok node =>
      cases node with
      | file data modified =>
          dsimp only
          split <;> rfl
      | dir modified => rfl

theorem startsWith_canonical (mount : Mount) (found : List FileName) :
    (mount.canonical found).startsWith (mount.canonical []) = true := by
  have steps : ∀ found : List FileName, (mount.canonical found).steps =
      (mount.root.normalise mount.workingDir ++ found).map Component.normal := by
    intro found
    rw [Path.steps, Mount.canonical, List.filterMap_map]
    simp
  rw [Path.startsWith, steps, steps, List.append_nil]
  have isFront : ((mount.root.normalise mount.workingDir).map Component.normal).isPrefixOf
      ((mount.root.normalise mount.workingDir ++ found).map Component.normal) = true := by
    rw [List.isPrefixOf_iff_prefix, List.map_append]
    exact List.prefix_append _ _
  rw [isFront]
  simp [Mount.canonical, Path.startsHere]

theorem depth_of_isEmpty {path : Path} (empty : path.isEmpty = true) : path.depth = 0 := by
  simp only [Path.isEmpty, beq_iff_eq, Path.text, List.append_eq_nil_iff] at empty
  have relative : path.absolute = false := by
    by_contra absolute
    simp [absolute] at empty
  rw [Path.depth, Path.steps, Path.startsHere, relative]
  rcases intercalate_eq_nil empty.2 with none | alone
  · have segments : path.segments = [] := by simpa using none
    rw [segments]
    rfl
  · obtain ⟨segment, segments, spelled⟩ := List.map_eq_singleton_iff.mp alone
    rw [segments]
    simp [Segment.component, spelled]

theorem startsWith_canonicalRoot (found : List FileName) :
    ((driver.mount machine).canonical found).startsWith (driver.canonicalRoot
      (((driver.mount machine).nodeAt tree driver.root).map fun node =>
        (driver.mount machine).canonical node.1)) = true := by
  cases empty : driver.root.isEmpty with
  | true =>
      have none : (driver.mount machine).nodeAt tree driver.root = .error .noEntry := by
        rw [Mount.nodeAt, Mount.locate, empty]
        rfl
      rw [none]
      simp [Except.map, canonicalRoot, Path.startsWith, depth_of_isEmpty empty]
  | false =>
      have located : (driver.mount machine).locate driver.root = some [] :=
        driver.locate_of_steps machine empty rfl (by simp)
      obtain ⟨modified, rooted⟩ := tree.rooted
      have present : (driver.mount machine).nodeAt tree driver.root = .ok ([], .dir modified) := by
        rw [Mount.nodeAt, located]
        dsimp only
        rw [Tree.stat_eq_ok_iff.mpr rooted]
      rw [present]
      exact startsWith_canonical _ _

/-- The check of `resolve` never refuses: nothing below the root leads out of it. -/
theorem resolve_storage :
    driver.resolve (driver.storage machine order now) key tree =
      (.ok (driver.resolveUnchecked key), tree) := by
  unfold resolve storage Mount.system
  dsimp only
  rw [nodeAt_resolveUnchecked]
  cases lookAt tree key with
  | error error => rfl
  | ok node => exact if_pos (driver.startsWith_canonicalRoot machine tree (names key))

theorem get_storage :
    driver.get (driver.storage machine order now) machine.describe key tree =
      (match lookAt tree key with
        | .ok (.file data _) => .ok data
        | .ok (.dir _) => .error (.backend ("read " ++ display (driver.resolveUnchecked key) ++
            ": " ++ machine.describe .isDirectory))
        | .error .noEntry => .error (.notFound key.text)
        | .error error => .error (.backend ("read " ++ display (driver.resolveUnchecked key) ++
            ": " ++ machine.describe error)), tree) := by
  unfold get
  rw [resolve_storage]
  unfold storage Mount.system
  dsimp only
  rw [nodeAt_resolveUnchecked]
  cases lookAt tree key with
  | error error => cases error <;> rfl
  | ok node => cases node <;> rfl

theorem head_storage :
    driver.head (driver.storage machine order now) machine.describe key tree =
      (match lookAt tree key with
        | .ok (.file data modified) => .ok (objectMeta key ⟨false, data.length, modified⟩)
        | .ok (.dir modified) => .ok (objectMeta key ⟨true, machine.dirLength, modified⟩)
        | .error .noEntry => .error (.notFound key.text)
        | .error error => .error (.backend ("stat " ++ display (driver.resolveUnchecked key) ++
            ": " ++ machine.describe error)), tree) := by
  unfold head
  rw [resolve_storage]
  unfold storage Mount.system
  dsimp only
  rw [nodeAt_resolveUnchecked]
  cases lookAt tree key with
  | error error => cases error <;> rfl
  | ok node => cases node <;> rfl

theorem exists_storage :
    driver.exists? (driver.storage machine order now) key tree =
      ((lookAt tree key).isOk, tree) := by
  unfold exists? System.exists? storage Mount.system
  dsimp only
  rw [nodeAt_resolveUnchecked]
  cases lookAt tree key with
  | error error => rfl
  | ok node => cases node <;> rfl

end Reading

section Writing

/-- The directory `put` works in.  For a key without names that is the root, or the directory that
holds the root when the root ends in a name. -/
def home (driver : LocalDriver) (key : StorageKey) : Option (List FileName) :=
  if names key = [] then if driver.root.fileName.isSome then none else some []
  else some (names key).dropLast

/-- The name `put` can give to the temporary file. -/
def target (key : StorageKey) : Option FileName :=
  if dirLike key then none else (names key).getLast?

/-- Whether an object is stored, and what is left in the tree. -/
def putAt (tree : Store) (dir : List FileName) (tmp : FileName) (target : Option FileName)
    (bytes : List UInt8) (now : Nat) : Bool × Store :=
  match Tree.makeDirs now tree [] dir with
  | .error _ => (false, tree)
  | .ok made =>
      match made.write dir tmp bytes now with
      | .error _ => (false, made)
      | .ok written =>
          match target with
          | none => (false, written)
          | some name =>
              match written.rename dir tmp name now with
              | .error _ => (false, written)
              | .ok moved => (true, moved)

variable (driver : LocalDriver) (machine : Machine) (order : Tree.Order FileName) (now : Nat)
  (key : StorageKey) (tree : Store)

theorem dirLike_of_names (bare : names key = []) : dirLike key = true := by
  unfold dirLike
  split
  next last isLast =>
    have member : last ∈ keyPath key := List.mem_of_getLast? isLast
    have steps := steps_keyPath key
    rw [bare, List.map_nil, List.filterMap_eq_nil_iff] at steps
    simp [Path.isTrivial, steps last member]
  next => rfl

/-- The last name of a key that is not spelled as a directory. -/
theorem names_of_target {name : FileName} (isTarget : target key = some name) :
    names key = (names key).dropLast ++ [name] ∧ dirLike key = false := by
  unfold target at isTarget
  split at isTarget
  next => cases isTarget
  next plain =>
    obtain ⟨front, split⟩ := List.getLast?_eq_some_iff.mp isTarget
    rw [split, List.dropLast_concat]
    exact ⟨rfl, by simpa using plain⟩

theorem createDirAll_storage {path : Path} {found : List FileName}
    (sameRoot : path.absolute = driver.root.absolute)
    (steps : path.steps = driver.root.steps ++ found.map Component.normal) :
    (driver.storage machine order now).createDirAll path tree =
      Mount.changed tree (Tree.makeDirs now tree [] found) := by
  unfold System.createDirAll
  split
  next empty =>
    have shallow := depth_of_isEmpty empty
    have none : found = [] := by
      rw [Path.depth, steps, List.length_append, List.length_map] at shallow
      exact List.length_eq_zero_iff.mp (by omega)
    rw [none]
    rfl
  next nonempty =>
    have located := driver.locate_of_steps machine (by simpa using nonempty) sameRoot steps
    unfold storage Mount.system
    dsimp only
    rw [located]

/-- Directories outside of the root are taken to be there. -/
theorem createDirAll_outside {path : Path}
    (outside : (driver.mount machine).locate path = none) :
    (driver.storage machine order now).createDirAll path tree = (.ok (), tree) := by
  unfold System.createDirAll storage Mount.system
  split
  next => rfl
  next =>
    dsimp only
    rw [outside]

theorem namesAfter_shorter {front rest : List Component} (shorter : rest.length < front.length) :
    Mount.namesAfter front rest = none := by
  induction front generalizing rest with
  | nil => exact absurd shorter (Nat.not_lt_zero _)
  | cons first front inductionHypothesis =>
      cases rest with
      | nil => rfl
      | cons step rest =>
          rw [Mount.namesAfter, inductionHypothesis (by simpa using shorter), ite_self]

theorem namesAfter_other {front : List Component} {name other : FileName}
    (different : name ≠ other) :
    Mount.namesAfter (front ++ [.normal name]) (front ++ [.normal other]) = none := by
  induction front with
  | nil => simp [Mount.namesAfter, different]
  | cons first front inductionHypothesis =>
      rw [List.cons_append, List.cons_append, Mount.namesAfter, if_pos rfl, inductionHypothesis]

theorem renameAt_storage {tmpPath : Path} {dir : List FileName} {tmp : FileName}
    (located : (driver.mount machine).locate tmpPath = some (dir ++ [tmp]))
    (beside : names key = [] ∨ (names key).dropLast = dir) :
    ((driver.mount machine).renameAt now tmpPath (driver.resolveUnchecked key) tree).toOption =
      match target key with
      | none => none
      | some name => (tree.rename dir tmp name now).toOption := by
  unfold Mount.renameAt target
  rw [located, locate_resolveUnchecked, asDirectory_resolveUnchecked]
  dsimp only
  rw [List.getLast?_concat]
  cases last : (names key).getLast? with
  | none =>
      dsimp only
      split
      next same =>
        split at same
        next => rfl
        next => rfl
      next same =>
        split at same
        next => cases same
        next => cases same
  | some name =>
      obtain ⟨front, split⟩ := List.getLast?_eq_some_iff.mp last
      have inDir : (names key).dropLast = dir := by
        rcases beside with bare | same
        · rw [bare] at last
          cases last
        · exact same
      dsimp only
      rw [List.dropLast_concat, inDir]
      split
      next => rfl
      next => rw [if_pos rfl]

theorem writeAtomically_storage {tmpPath : Path} {dir : List FileName} {tmp : FileName}
    {bytes : List UInt8} (located : (driver.mount machine).locate tmpPath = some (dir ++ [tmp]))
    (named : tmpPath.asDirectory = false)
    (beside : names key = [] ∨ (names key).dropLast = dir) :
    ((writeAtomically (driver.storage machine order now) machine.describe
        (driver.resolveUnchecked key) tmpPath bytes tree).1.isOk,
      (writeAtomically (driver.storage machine order now) machine.describe
        (driver.resolveUnchecked key) tmpPath bytes tree).2) =
      match tree.write dir tmp bytes now with
      | .error _ => (false, tree)
      | .ok written =>
          match target key with
          | none => (false, written)
          | some name =>
              match written.rename dir tmp name now with
              | .error _ => (false, written)
              | .ok moved => (true, moved) := by
  have written : (driver.mount machine).writeAt now tmpPath bytes tree =
      tree.write dir tmp bytes now := by
    unfold Mount.writeAt
    rw [located]
    dsimp only
    rw [List.getLast?_concat, named, List.dropLast_concat]
    rfl
  unfold writeAtomically storage Mount.system
  dsimp only
  rw [written]
  cases tree.write dir tmp bytes now with
  | error error => rfl
  | ok next =>
      dsimp only [Mount.changed]
      have renamed := driver.renameAt_storage machine now key next located beside
      cases result :
          (driver.mount machine).renameAt now tmpPath (driver.resolveUnchecked key) next with
      | error error =>
          rw [result] at renamed
          cases isTarget : target key with
          | none => rfl
          | some name =>
              rw [isTarget] at renamed
              dsimp only at renamed ⊢
              cases moved : next.rename dir tmp name now with
              | error error => rfl
              | ok last =>
                  rw [moved] at renamed
                  cases renamed
      | ok last =>
          rw [result] at renamed
          cases isTarget : target key with
          | none =>
              rw [isTarget] at renamed
              cases renamed
          | some name =>
              rw [isTarget] at renamed
              dsimp only at renamed ⊢
              cases moved : next.rename dir tmp name now with
              | error error =>
                  rw [moved] at renamed
                  cases renamed
              | ok other =>
                  rw [moved] at renamed
                  cases renamed
                  rfl

/-- `put` once its directory is made. -/
theorem put_of_parent {bytes : List UInt8} {suffix : Uuid} {made : Store}
    (parents : ensureParent (driver.storage machine order now) machine.describe
      (driver.resolveUnchecked key) tree = (.ok (), made)) :
    driver.put (driver.storage machine order now) machine.describe key bytes suffix tree =
      writeAtomically (driver.storage machine order now) machine.describe
        (driver.resolveUnchecked key) ((driver.resolveUnchecked key).setFileName
          (tmpName (driver.resolveUnchecked key) suffix)) bytes made := by
  unfold put
  dsimp only
  rw [parents]

theorem put_named {bytes : List UInt8} {suffix : Uuid} {front : List FileName} {name : FileName}
    (split : names key = front ++ [name]) :
    ((driver.put (driver.storage machine order now) machine.describe key bytes suffix tree).1.isOk,
      (driver.put (driver.storage machine order now) machine.describe key bytes suffix tree).2) =
      putAt tree front (tmpName (driver.resolveUnchecked key) suffix) (target key) bytes now := by
  have steps := steps_resolveUnchecked driver key
  rw [split, List.map_append, List.map_singleton, ← List.append_assoc] at steps
  obtain ⟨parent, above⟩ := Path.parent_isSome
    (show (driver.resolveUnchecked key).steps ≠ [] by simp [steps])
  obtain ⟨sameRoot, parentSteps⟩ := Path.of_parent above
  rw [steps, List.dropLast_concat] at parentSteps
  have made := driver.createDirAll_storage machine order now tree sameRoot parentSteps
  have tmpPath : ∀ tmp, (driver.resolveUnchecked key).setFileName tmp = parent.push tmp := by
    intro tmp
    rw [Path.setFileName, fileName_of_steps steps, above]
  unfold putAt
  cases result : Tree.makeDirs now tree [] front with
  | error error =>
      rw [result] at made
      unfold put ensureParent
      dsimp only
      rw [above]
      dsimp only
      rw [made]
      rfl
  | ok next =>
      rw [result] at made
      have parents : ensureParent (driver.storage machine order now) machine.describe
          (driver.resolveUnchecked key) tree = (.ok (), next) := by
        unfold ensureParent
        rw [above]
        dsimp only
        rw [made]
        rfl
      rw [driver.put_of_parent machine order now key tree parents, tmpPath]
      exact driver.writeAtomically_storage machine order now key next
        (driver.locate_push machine _ sameRoot parentSteps) (asDirectory_push _ _)
        (Or.inr (by rw [split, List.dropLast_concat]))

theorem steps_of_bare (bare : names key = []) :
    (driver.resolveUnchecked key).steps = driver.root.steps := by
  rw [steps_resolveUnchecked, bare, List.map_nil, List.append_nil]

/-- A key without names leaves the directories as they are. -/
theorem ensureParent_of_bare (bare : names key = []) :
    ensureParent (driver.storage machine order now) machine.describe
      (driver.resolveUnchecked key) tree = (.ok (), tree) := by
  have steps := driver.steps_of_bare key bare
  unfold ensureParent
  cases above : (driver.resolveUnchecked key).parent with
  | none => rfl
  | some parent =>
      obtain ⟨sameRoot, parentSteps⟩ := Path.of_parent above
      rw [steps] at parentSteps
      have made : (driver.storage machine order now).createDirAll parent tree = (.ok (), tree) := by
        rcases List.eq_nil_or_concat driver.root.steps with top | ⟨front, last, split⟩
        · have above : parent.steps = driver.root.steps ++ [].map Component.normal := by
            rw [parentSteps, top]
            rfl
          exact driver.createDirAll_storage machine order now tree sameRoot above
        · apply createDirAll_outside
          rw [List.concat_eq_append] at split
          have outside : Mount.namesAfter driver.root.steps parent.steps = none := by
            apply namesAfter_shorter
            rw [parentSteps, split, List.dropLast_concat, List.length_append]
            simp
          unfold Mount.locate
          split
          next => rfl
          next => exact outside
      dsimp only
      rw [made]

theorem put_bare {bytes : List UInt8} {suffix : Uuid} (bare : names key = []) :
    ((driver.put (driver.storage machine order now) machine.describe key bytes suffix tree).1.isOk,
      (driver.put (driver.storage machine order now) machine.describe key bytes suffix tree).2) =
      if driver.root.fileName.isSome then (false, tree)
      else putAt tree [] (tmpName (driver.resolveUnchecked key) suffix) none bytes now := by
  have steps := driver.steps_of_bare key bare
  have sameName := fileName_congr steps
  have noTarget : target key = none := by rw [target, dirLike_of_names key bare, if_pos rfl]
  rw [driver.put_of_parent machine order now key tree
    (driver.ensureParent_of_bare machine order now key tree bare)]
  cases ending : driver.root.fileName with
  | some name =>
      obtain ⟨front, rootSteps⟩ := steps_of_fileName ending
      obtain ⟨parent, above⟩ := Path.parent_isSome
        (show (driver.resolveUnchecked key).steps ≠ [] by simp [steps, rootSteps])
      obtain ⟨_, parentSteps⟩ := Path.of_parent above
      have tmpPath : ∀ tmp, (driver.resolveUnchecked key).setFileName tmp = parent.push tmp := by
        intro tmp
        rw [Path.setFileName, sameName, ending, above]
      have outside : (driver.mount machine).locate ((driver.resolveUnchecked key).setFileName
          (tmpName (driver.resolveUnchecked key) suffix)) = none := by
        have different := tmpName_ne (sameName.trans ending) suffix
        have after : Mount.namesAfter driver.root.steps ((driver.resolveUnchecked key).setFileName
            (tmpName (driver.resolveUnchecked key) suffix)).steps = none := by
          rw [tmpPath, Path.steps_push, parentSteps, steps, rootSteps, List.dropLast_concat]
          exact namesAfter_other (Ne.symm different)
        unfold Mount.locate
        split
        next => rfl
        next => exact after
      unfold writeAtomically storage Mount.system Mount.writeAt Mount.renameAt
      dsimp only
      rw [outside]
      rfl
  | none =>
      have tmpPath : ∀ tmp, (driver.resolveUnchecked key).setFileName tmp =
          (driver.resolveUnchecked key).push tmp := by
        intro tmp
        rw [Path.setFileName, sameName, ending]
      have here : (driver.resolveUnchecked key).steps =
          driver.root.steps ++ [].map Component.normal := by
        rw [steps]
        simp
      have sameRoot : (driver.resolveUnchecked key).absolute = driver.root.absolute := rfl
      have located := driver.locate_push machine (tmpName (driver.resolveUnchecked key) suffix)
        sameRoot here
      rw [tmpPath, driver.writeAtomically_storage machine order now key tree located
        (asDirectory_push _ _) (Or.inl bare), noTarget]
      rfl

/-- `put` on the tree. -/
theorem put_storage (bytes : List UInt8) (suffix : Uuid) :
    ((driver.put (driver.storage machine order now) machine.describe key bytes suffix tree).1.isOk,
      (driver.put (driver.storage machine order now) machine.describe key bytes suffix tree).2) =
      match driver.home key with
      | none => (false, tree)
      | some dir =>
          putAt tree dir (tmpName (driver.resolveUnchecked key) suffix) (target key) bytes now := by
  unfold home
  rcases List.eq_nil_or_concat (names key) with bare | ⟨front, name, split⟩
  · have noTarget : target key = none := by rw [target, dirLike_of_names key bare, if_pos rfl]
    rw [put_bare _ _ _ _ _ _ bare, if_pos bare, noTarget]
    split
    next => rfl
    next => rfl
  · rw [List.concat_eq_append] at split
    rw [put_named _ _ _ _ _ _ split, if_neg (by simp [split]), split, List.dropLast_concat]

theorem lookup_of_lookAt {data : List UInt8} {modified : Nat}
    (found : lookAt tree key = .ok (.file data modified)) :
    tree.lookup (names key) = some (.file data modified) ∧ dirLike key = false := by
  unfold lookAt at found
  split at found
  next => cases found
  next other changed stat =>
    split at found
    next => cases found
    next plain =>
      cases found
      exact ⟨Tree.stat_eq_ok_iff.mp stat, by simpa using plain⟩
  next => cases found

theorem isDir_of_lookAt {modified : Nat} (found : lookAt tree key = .ok (.dir modified)) :
    tree.lookup (names key) = some (.dir modified) := by
  unfold lookAt at found
  split at found
  next => cases found
  next =>
    split at found
    next => cases found
    next => cases found
  next other stat =>
    cases found
    exact Tree.stat_eq_ok_iff.mp stat

/-- Whether an object is absent afterwards, and what is left in the tree. -/
def deleteAt (tree : Store) (key : StorageKey) (now : Nat) : Bool × Store :=
  match lookAt tree key, (names key).getLast? with
  | .ok (.file _ _), some name =>
      match tree.unlink (names key).dropLast name now with
      | .ok next => (true, next)
      | .error _ => (false, tree)
  | .error .noEntry, _ => (true, tree)
  | _, _ => (false, tree)

/-- `delete` on the tree. -/
theorem delete_storage :
    ((driver.delete (driver.storage machine order now) machine.describe key tree).1.isOk,
      (driver.delete (driver.storage machine order now) machine.describe key tree).2) =
      deleteAt tree key now := by
  unfold delete deleteAt storage Mount.system Mount.removeAt
  dsimp only
  rw [nodeAt_resolveUnchecked]
  cases found : lookAt tree key with
  | error error => cases error <;> rfl
  | ok node =>
      simp only [Except.map]
      cases last : (names key).getLast? with
      | none => cases node <;> rfl
      | some name =>
          obtain ⟨front, split⟩ := List.getLast?_eq_some_iff.mp last
          rw [split, List.dropLast_concat]
          cases node with
          | dir modified =>
              have present := isDir_of_lookAt key tree found
              rw [split] at present
              have refused : tree.unlink front name now = .error .isDirectory := by
                unfold Tree.unlink
                split
                next isFile =>
                  rw [present] at isFile
                  cases isFile
                next => rfl
                next missing =>
                  rw [present] at missing
                  cases missing
              dsimp only
              rw [refused]
              rfl
          | file data modified =>
              have present := (lookup_of_lookAt key tree found).1
              rw [split] at present
              cases removed : tree.unlink front name now with
              | ok next =>
                  dsimp only
                  rw [removed]
                  rfl
              | error error =>
                  unfold Tree.unlink at removed
                  split at removed
                  next => cases removed
                  next isDir =>
                    rw [present] at isDir
                    cases isDir
                  next missing =>
                    rw [present] at missing
                    cases missing

end Writing

section Effects

variable {tree : Store} {dir : List FileName} {tmp : FileName} {goal : Option FileName}
  {bytes : List UInt8} {now : Nat}

variable (tree dir tmp goal bytes now) in
/-- All a `put` can change: the directories it makes or writes to, the temporary file and the
object. -/
theorem changes_putAt :
    Tree.Changes tree (putAt tree dir tmp goal bytes now).2 (· <+: dir) fun path =>
      path = dir ++ [tmp] ∨ ∃ name, goal = some name ∧ path = dir ++ [name] := by
  unfold putAt
  cases made : Tree.makeDirs now tree [] dir with
  | error error => exact .refl _ _ _
  | ok parents =>
      have first : Tree.Changes tree parents (· <+: dir) fun path =>
          path = dir ++ [tmp] ∨ ∃ name, goal = some name ∧ path = dir ++ [name] :=
        (Tree.of_makeDirs made).2.mono (fun _ dirs => dirs.2) fun _ impossible =>
          impossible.elim
      dsimp only
      cases written : parents.write dir tmp bytes now with
      | error error => exact first
      | ok next =>
          have second : Tree.Changes parents next (· <+: dir) fun path =>
              path = dir ++ [tmp] ∨ ∃ name, goal = some name ∧ path = dir ++ [name] := by
            apply (Tree.of_write written).1.changes.mono
            · rintro _ rfl
              exact List.prefix_refl _
            · rintro _ ⟨_, rfl, rfl⟩
              exact Or.inl rfl
          dsimp only
          cases goal with
          | none => exact first.trans second
          | some name =>
              dsimp only
              cases moved : next.rename dir tmp name now with
              | error error => exact first.trans second
              | ok last =>
                  apply (first.trans second).trans
                  apply (Tree.of_rename moved).1.changes.mono
                  · rintro _ rfl
                    exact List.prefix_refl _
                  · rintro _ ⟨_, rfl | rfl, rfl⟩
                    · exact Or.inl rfl
                    · exact Or.inr ⟨_, rfl, rfl⟩

/-- A `put` that succeeds leaves the object, and no temporary file. -/
theorem of_putAt {next : Store} (stored : putAt tree dir tmp goal bytes now = (true, next)) :
    ∃ name, goal = some name ∧ next.lookup (dir ++ [name]) = some (.file bytes now) ∧
      (tmp ≠ name → next.lookup (dir ++ [tmp]) = none) := by
  unfold putAt at stored
  split at stored
  next => cases stored
  next made _ =>
    split at stored
    next => cases stored
    next written wrote =>
      split at stored
      next => cases stored
      next name =>
        split at stored
        next => cases stored
        next moved renamed =>
          cases stored
          obtain ⟨_, data, modified, present, moved, apart⟩ := Tree.of_rename renamed
          rw [(Tree.of_write wrote).2.2] at present
          cases present
          exact ⟨name, rfl, moved, fun different => (apart different).1⟩

/-- A `delete` that succeeds leaves nothing. -/
theorem of_deleteAt {key : StorageKey} {next : Store}
    (removed : deleteAt tree key now = (true, next)) :
    next.lookup (names key) = none := by
  unfold deleteAt at removed
  split at removed
  next name found last =>
    obtain ⟨front, split⟩ := List.getLast?_eq_some_iff.mp last
    rw [split, List.dropLast_concat] at removed
    rw [split]
    split at removed
    next unlinked =>
      cases removed
      exact (Tree.of_unlink unlinked).2.2
    next => cases removed
  next missing =>
    cases removed
    unfold lookAt at missing
    split at missing
    next stat =>
      cases missing
      exact (Tree.stat_eq_noEntry_iff.mp stat).1
    next =>
      split at missing
      next => cases missing
      next => cases missing
    next => cases missing
  next => cases removed

variable (tree now) in
/-- All a `delete` can change. -/
theorem changes_deleteAt (key : StorageKey) :
    Tree.Changes tree (deleteAt tree key now).2 (fun path => path = (names key).dropLast ∧
        names key ≠ [] ∧ dirLike key = false)
      fun path => path = names key ∧ dirLike key = false := by
  unfold deleteAt
  split
  next data modified name found last =>
    obtain ⟨front, split⟩ := List.getLast?_eq_some_iff.mp last
    obtain ⟨_, plain⟩ := lookup_of_lookAt key tree found
    split
    next next removed =>
      rw [split, List.dropLast_concat] at removed
      apply (Tree.of_unlink removed).1.changes.mono
      · rintro _ rfl
        exact ⟨by rw [split, List.dropLast_concat], by simp [split], plain⟩
      · rintro _ ⟨_, rfl, rfl⟩
        exact ⟨split.symm, plain⟩
    next => exact .refl _ _ _
  next => exact .refl _ _ _
  next => exact .refl _ _ _

end Effects

end LocalDriver

end Picroom
