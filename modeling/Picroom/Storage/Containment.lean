import Picroom.Storage.LocalDriver

/-!
# What the driver touches

The paths an operation hands to the file system lie under the root, except for `put`.  A key
without names, such as `.`, makes `put` write its temporary file beside the root, and
`create_dir_all` goes above a root whose own directory is missing.
-/

namespace Picroom

open Files

namespace LocalDriver

section Paths

variable {driver : LocalDriver} {workingDir : List FileName} {key : StorageKey}

theorem steps_resolveUnchecked (driver : LocalDriver) (key : StorageKey) :
    (driver.resolveUnchecked key).steps =
      driver.root.steps ++ (names key).map Component.normal := by
  rw [resolveUnchecked, Path.steps_join, steps_keyPath]

theorem normalise_resolveUnchecked (workingDir : List FileName) (driver : LocalDriver)
    (key : StorageKey) :
    (driver.resolveUnchecked key).normalise workingDir =
      driver.root.normalise workingDir ++ names key := by
  rw [resolveUnchecked, Path.normalise_join, steps_keyPath, Component.foldl_enter_normal]

theorem contained_resolveUnchecked (driver : LocalDriver) (key : StorageKey) :
    Path.Contained workingDir driver.root (driver.resolveUnchecked key) := by
  rw [Path.Contained, normalise_resolveUnchecked]
  exact List.prefix_append _ _

theorem fileName_of_steps {path : Path} {front : List Component} {name : FileName}
    (steps : path.steps = front ++ [.normal name]) : path.fileName = some name := by
  rw [Path.fileName, steps, List.getLast?_concat]

theorem steps_of_fileName {path : Path} {name : FileName} (named : path.fileName = some name) :
    ∃ front, path.steps = front ++ [.normal name] := by
  unfold Path.fileName at named
  split at named
  next other last =>
    cases named
    obtain ⟨front, steps⟩ := List.getLast?_eq_some_iff.mp last
    exact ⟨front, steps⟩
  next => cases named

theorem fileName_congr {first second : Path} (same : first.steps = second.steps) :
    first.fileName = second.fileName := by
  rw [Path.fileName, Path.fileName, same]

/-- The directory of an object's path lies under the root, unless the path is the root's own. -/
theorem contained_parent {parent : Path}
    (above : (driver.resolveUnchecked key).parent = some parent)
    (below : names key = [] → driver.root.fileName = none) :
    Path.Contained workingDir driver.root parent := by
  obtain ⟨sameRoot, fewer⟩ := Path.of_parent above
  have steps := steps_resolveUnchecked driver key
  rcases List.eq_nil_or_concat (names key) with none | ⟨front, last, split⟩
  · rw [none, List.map_nil, List.append_nil] at steps
    rcases List.eq_nil_or_concat driver.root.steps with top | ⟨rootFront, rootLast, rootSplit⟩
    · have same : parent.normalise workingDir = driver.root.normalise workingDir := by
        rw [Path.normalise, Path.normalise, fewer, steps, top, sameRoot]
        rfl
      rw [Path.Contained, same]
    · rw [List.concat_eq_append] at rootSplit
      have root := normalise_resolveUnchecked workingDir driver key
      rw [none, List.append_nil,
        Path.normalise_of_parent above (steps.trans rootSplit)] at root
      cases rootLast with
      | parentDir =>
          rw [Path.Contained, ← root, Component.enter]
          exact List.dropLast_prefix _
      | normal name =>
          have named := below none
          rw [fileName_of_steps rootSplit] at named
          cases named
  · rw [List.concat_eq_append] at split
    have whole := normalise_resolveUnchecked workingDir driver key
    rw [split, List.map_append, List.map_singleton, ← List.append_assoc] at steps
    rw [Path.normalise_of_parent above steps, split, Component.enter, ← List.append_assoc] at whole
    rw [Path.Contained, (List.append_inj' whole rfl).1]
    exact List.prefix_append _ _

/-- The temporary file lies in the object's directory, or under a path that ends in no name. -/
theorem contained_tmp {name : FileName} (below : names key = [] → driver.root.fileName = none) :
    Path.Contained workingDir driver.root
      ((driver.resolveUnchecked key).setFileName name) := by
  unfold Path.setFileName
  split
  next parent _ above => exact Path.contained_push (contained_parent above below) name
  next => exact Path.contained_push (contained_resolveUnchecked driver key) name

theorem tmpName_ne {path : Path} {name : FileName} (named : path.fileName = some name)
    (suffix : Uuid) : tmpName path suffix ≠ name := by
  intro same
  have lengths := congrArg (fun other : FileName => other.text.length) same
  simp only [tmpName, tmpText, named, List.length_cons, List.length_append] at lengths
  omega

end Paths

inductive Operation where
  | get (key : StorageKey)
  | head (key : StorageKey)
  | exists (key : StorageKey)
  | put (key : StorageKey) (bytes : List UInt8) (suffix : Uuid)
  | delete (key : StorageKey)
  | list (keyPrefix : Option StorageKey) (fuel : Nat)

section Touched

variable {State : Type} (system : System State (List UInt8)) (describe : Errno → String)

/-- The state an operation leaves. -/
def perform (driver : LocalDriver) : Operation → State → State
  | .get key, state => (driver.get system describe key state).2
  | .head key, state => (driver.head system describe key state).2
  | .exists key, state => (driver.exists? system key state).2
  | .put key bytes suffix, state => (driver.put system describe key bytes suffix state).2
  | .delete key, state => (driver.delete system describe key state).2
  | .list keyPrefix fuel, state => (driver.list system keyPrefix fuel state).2

/-- The paths an operation hands to the file system. -/
def touched (missing : State → Path → Bool) (driver : LocalDriver) (operation : Operation)
    (state : State) : List Path :=
  (driver.perform (system.traced missing) describe operation (state, [])).2

end Touched

section Kept

variable {State : Type} {system : System State (List UInt8)} {describe : Errno → String}
  {missing : State → Path → Bool} {inside : Path → Prop}

def Kept (inside : Path → Prop) (state : State × List Path) : Prop := ∀ path ∈ state.2, inside path

theorem kept_noted {Result : Type} {paths : State → List Path}
    {call : State → Except Errno Result × State} {state : State × List Path} :
    Kept inside (System.noted paths call state).2 ↔
      Kept inside state ∧ ∀ path ∈ paths state.1, inside path := by
  simp only [System.noted, Kept, List.mem_append]
  constructor
  · exact fun all => ⟨fun path member => all path (Or.inl member),
      fun path member => all path (Or.inr member)⟩
  · rintro ⟨earlier, now⟩ path (before | here)
    · exact earlier path before
    · exact now path here

theorem path_of_resolve {driver : LocalDriver} {key : StorageKey} {state next : State} {path : Path}
    (resolved : driver.resolve system key state = (.ok path, next)) :
    path = driver.resolveUnchecked key := by
  unfold resolve at resolved
  dsimp only at resolved
  split at resolved
  next => cases resolved; rfl
  next =>
    split at resolved
    next => cases resolved; rfl
    next => cases resolved

variable {driver : LocalDriver} {key : StorageKey} {state : State × List Path}

theorem kept_resolve (kept : Kept inside state) (root : inside driver.root)
    (object : inside (driver.resolveUnchecked key)) :
    Kept inside (driver.resolve (system.traced missing) key state).2 := by
  have first : Kept inside
      ((system.traced missing).canonicalize (driver.resolveUnchecked key) state).2 :=
    kept_noted.mpr ⟨kept, by simpa using object⟩
  unfold resolve
  dsimp only
  split
  next result =>
    rw [result] at first
    exact first
  next _ state canonicalized =>
    rw [canonicalized] at first
    have second : Kept inside ((system.traced missing).canonicalize driver.root state).2 :=
      kept_noted.mpr ⟨first, by simpa using root⟩
    split
    next => exact second
    next => exact second

theorem kept_get (kept : Kept inside state) (root : inside driver.root)
    (object : inside (driver.resolveUnchecked key)) :
    Kept inside (driver.get (system.traced missing) describe key state).2 := by
  have first : Kept inside (driver.resolve (system.traced missing) key state).2 :=
    kept_resolve kept root object
  unfold get
  split
  next resolved =>
    rw [resolved] at first
    exact first
  next path next resolved =>
    rw [resolved] at first
    have second : Kept inside ((system.traced missing).read path next).2 := by
      rw [path_of_resolve resolved]
      exact kept_noted.mpr ⟨first, by simpa using object⟩
    split
    all_goals
      next read =>
        rw [read] at second
        exact second

theorem kept_head (kept : Kept inside state) (root : inside driver.root)
    (object : inside (driver.resolveUnchecked key)) :
    Kept inside (driver.head (system.traced missing) describe key state).2 := by
  have first : Kept inside (driver.resolve (system.traced missing) key state).2 :=
    kept_resolve kept root object
  unfold head
  split
  next resolved =>
    rw [resolved] at first
    exact first
  next path next resolved =>
    rw [resolved] at first
    have second : Kept inside ((system.traced missing).metadata path next).2 := by
      rw [path_of_resolve resolved]
      exact kept_noted.mpr ⟨first, by simpa using object⟩
    split
    all_goals
      next read =>
        rw [read] at second
        exact second

theorem kept_exists (kept : Kept inside state) {path : Path} (object : inside path) :
    Kept inside ((system.traced missing).exists? path state).2 := by
  have looked : Kept inside ((system.traced missing).metadata path state).2 :=
    kept_noted.mpr ⟨kept, by simpa using object⟩
  unfold System.exists?
  dsimp only
  split
  next => exact looked
  next => exact looked

theorem kept_delete (kept : Kept inside state) (object : inside (driver.resolveUnchecked key)) :
    Kept inside (driver.delete (system.traced missing) describe key state).2 := by
  have removed : Kept inside
      ((system.traced missing).removeFile (driver.resolveUnchecked key) state).2 :=
    kept_noted.mpr ⟨kept, by simpa using object⟩
  unfold delete
  dsimp only
  split
  all_goals
    next result =>
      rw [result] at removed
      exact removed

theorem kept_readEntries {root directory : Path} {keyPrefix : List Char}
    (down : ∀ path, inside path → ∀ name, inside (path.push name)) (here : inside directory)
    {found : List FileName} (kept : Kept inside state) :
    Kept inside (readEntries (system.traced missing) root keyPrefix directory found state).2 ∧
      ∀ path ∈ (readEntries (system.traced missing) root keyPrefix directory found state).1.2,
        inside path := by
  induction found generalizing state with
  | nil => exact ⟨kept, by simp [readEntries]⟩
  | cons name rest inductionHypothesis =>
      have looked : Kept inside ((system.traced missing).metadata (directory.push name) state).2 :=
        kept_noted.mpr ⟨kept, by simpa using down directory here name⟩
      rw [readEntries]
      dsimp only
      split
      next next result =>
        rw [result] at looked
        exact inductionHypothesis looked
      next found next result =>
        rw [result] at looked
        obtain ⟨later, directories⟩ := inductionHypothesis looked
        split
        next =>
          refine ⟨later, ?_⟩
          intro path member
          rcases List.mem_cons.mp member with rfl | inRest
          · exact down directory here name
          · exact directories path inRest
        next => exact ⟨later, directories⟩

theorem kept_collectRecursive {root : Path} {keyPrefix : List Char}
    (down : ∀ path, inside path → ∀ name, inside (path.push name)) {fuel : Nat}
    {stack : List Path} (here : ∀ path ∈ stack, inside path) (kept : Kept inside state) :
    Kept inside (collectRecursive (system.traced missing) root keyPrefix fuel stack state).2 := by
  induction fuel generalizing stack state with
  | zero => exact kept
  | succ fuel inductionHypothesis =>
      cases stack with
      | nil => exact kept
      | cons directory stack =>
          have opened : Kept inside ((system.traced missing).readDir directory state).2 :=
            kept_noted.mpr ⟨kept, by simpa using here directory List.mem_cons_self⟩
          have others : ∀ path ∈ stack, inside path :=
            fun path member => here path (List.mem_cons_of_mem _ member)
          rw [collectRecursive]
          split
          next result =>
            rw [result] at opened
            exact inductionHypothesis others opened
          next found next result =>
            rw [result] at opened
            have read : Kept inside (readEntries (system.traced missing) root keyPrefix directory
                found next).2 ∧ ∀ path ∈ (readEntries (system.traced missing) root keyPrefix
                  directory found next).1.2, inside path :=
              kept_readEntries down (here directory List.mem_cons_self) opened
            obtain ⟨read, directories⟩ := read
            dsimp only
            apply inductionHypothesis _ read
            intro path member
            rcases List.mem_append.mp member with child | inStack
            · exact directories path (List.mem_reverse.mp child)
            · exact others path inStack

theorem kept_list (down : ∀ path, inside path → ∀ name, inside (path.push name))
    (root : inside driver.root) (objects : ∀ key, inside (driver.resolveUnchecked key))
    {keyPrefix : Option StorageKey} {fuel : Nat} (kept : Kept inside state) :
    Kept inside (driver.list (system.traced missing) keyPrefix fuel state).2 := by
  have base : inside (driver.base keyPrefix) := by
    cases keyPrefix with
    | none => exact root
    | some key => exact objects key
  have looked : Kept inside ((system.traced missing).exists? (driver.base keyPrefix) state).2 :=
    kept_exists kept base
  unfold list
  split
  next result =>
    rw [result] at looked
    exact looked
  next next result =>
    rw [result] at looked
    exact kept_collectRecursive down (by simpa using base) looked

section Put

variable {path tmp : Path} {bytes : List UInt8} {suffix : Uuid} {store : State}

theorem noted_ensureParent :
    (ensureParent (system.traced missing) describe path (store, [])).2.2 =
      match path.parent with
      | none => []
      | some parent => parent.climb (missing store) := by
  unfold ensureParent
  cases path.parent with
  | none => rfl
  | some parent =>
    have made : ((system.traced missing).createDirAll parent (store, [])).2.2 =
        parent.climb (missing store) := by
      unfold System.createDirAll
      split
      next empty => rw [Path.climb_of_isEmpty empty]
      next => rfl
    dsimp only
    split
    next result =>
      rw [result] at made
      exact made
    next result =>
      rw [result] at made
      exact made

/-- Nothing is asked for to make the empty path. -/
theorem ensureParent_of_isEmpty {parent : Path} (above : path.parent = some parent)
    (empty : parent.isEmpty = true) (state : State × List Path) :
    ensureParent (system.traced missing) describe path state = (.ok (), state) := by
  rw [ensureParent, above]
  dsimp only
  rw [System.createDirAll, if_pos empty]

theorem of_kept_writeAtomically
    (kept : Kept inside
      (writeAtomically (system.traced missing) describe path tmp bytes state).2) :
    Kept inside state ∧ inside tmp := by
  have written : Kept inside ((system.traced missing).write tmp bytes state).2 := by
    unfold writeAtomically at kept
    split at kept
    next result => rwa [result]
    next next result =>
      rw [result]
      have renamed : Kept inside ((system.traced missing).rename tmp path next).2 := by
        split at kept
        next moved => rwa [moved]
        next moved => rwa [moved]
      exact (kept_noted.mp renamed).1
  obtain ⟨earlier, now⟩ := kept_noted.mp written
  exact ⟨earlier, now tmp (List.mem_singleton.mpr rfl)⟩

theorem kept_writeAtomically (kept : Kept inside state) (insideTmp : inside tmp)
    (insidePath : inside path) :
    Kept inside (writeAtomically (system.traced missing) describe path tmp bytes state).2 := by
  have written : Kept inside ((system.traced missing).write tmp bytes state).2 :=
    kept_noted.mpr ⟨kept, by simpa using insideTmp⟩
  unfold writeAtomically
  split
  next result =>
    rw [result] at written
    exact written
  next next result =>
    rw [result] at written
    have renamed : Kept inside ((system.traced missing).rename tmp path next).2 :=
      kept_noted.mpr ⟨written, by simpa using ⟨insideTmp, insidePath⟩⟩
    split
    next moved =>
      rw [moved] at renamed
      exact renamed
    next moved =>
      rw [moved] at renamed
      exact renamed

/-- `put` makes the directories first. -/
theorem of_kept_put
    (kept : Kept inside
      (driver.put (system.traced missing) describe key bytes suffix (store, [])).2) :
    (∀ parent, (driver.resolveUnchecked key).parent = some parent →
        ∀ path ∈ parent.climb (missing store), inside path) ∧
      ∀ state, ensureParent (system.traced missing) describe (driver.resolveUnchecked key)
          (store, []) = (.ok (), state) →
        inside ((driver.resolveUnchecked key).setFileName
          (tmpName (driver.resolveUnchecked key) suffix)) := by
  unfold put at kept
  dsimp only at kept
  have first : Kept inside (ensureParent (system.traced missing) describe
      (driver.resolveUnchecked key) (store, [])).2 := by
    split at kept
    next result => rwa [result]
    next result =>
      rw [result]
      exact (of_kept_writeAtomically kept).1
  constructor
  · intro parent above path member
    apply first
    rw [noted_ensureParent, above]
    exact member
  · intro state made
    rw [made] at kept
    exact (of_kept_writeAtomically kept).2

theorem kept_put (object : inside (driver.resolveUnchecked key))
    (insideTmp : inside ((driver.resolveUnchecked key).setFileName
      (tmpName (driver.resolveUnchecked key) suffix)))
    (climbs : ∀ parent, (driver.resolveUnchecked key).parent = some parent →
      ∀ path ∈ parent.climb (missing store), inside path) :
    Kept inside (driver.put (system.traced missing) describe key bytes suffix (store, [])).2 := by
  have first : Kept inside (ensureParent (system.traced missing) describe
      (driver.resolveUnchecked key) (store, [])).2 := by
    intro path member
    rw [noted_ensureParent] at member
    split at member
    next => cases member
    next parent above => exact climbs parent above path member
  unfold put
  dsimp only
  split
  next result =>
    rw [result] at first
    exact first
  next result =>
    rw [result] at first
    exact kept_writeAtomically first insideTmp object

end Put

end Kept

section Root

variable {State : Type}

/-- When an operation stays under the root.  A `put` does if its key has a name, or the root ends
in none, and if no directory whose own directory lies outside of the root has to wait for it. -/
def StaysUnder (workingDir : List FileName) (missing : Path → Bool) (driver : LocalDriver) :
    Operation → Prop
  | .put key _ _ =>
      (names key = [] → driver.root.fileName = none) ∧
        ∀ parent, (driver.resolveUnchecked key).parent = some parent →
          ∀ reached ∈ parent.ancestors, ∀ above, reached.parent = some above →
            above.isEmpty = false → ¬ Path.Contained workingDir driver.root above →
              missing reached = false
  | _ => True

variable {system : System State (List UInt8)} {describe : Errno → String}
  {missing : State → Path → Bool} {workingDir : List FileName} {driver : LocalDriver}

/-- A key without names has the directory that holds the root for its parent. -/
theorem normalise_holder (workingDir : List FileName) {key : StorageKey} {parent : Path}
    {name : FileName}
    (bare : names key = []) (named : driver.root.fileName = some name)
    (above : (driver.resolveUnchecked key).parent = some parent) :
    parent.normalise workingDir ++ [name] = driver.root.normalise workingDir := by
  obtain ⟨front, rootSteps⟩ := steps_of_fileName named
  have steps := steps_resolveUnchecked driver key
  rw [bare, List.map_nil, List.append_nil] at steps
  have whole := normalise_resolveUnchecked workingDir driver key
  rw [bare, List.append_nil, Path.normalise_of_parent above (steps.trans rootSteps)] at whole
  exact whole

theorem put_escapes {key : StorageKey} {bytes : List UInt8} {suffix : Uuid} {name : FileName}
    {state : State} (bare : names key = []) (named : driver.root.fileName = some name) :
    ¬ Kept (Path.Contained workingDir driver.root)
      (driver.put (system.traced missing) describe key bytes suffix (state, [])).2 := by
  intro kept
  obtain ⟨climbs, writes⟩ := of_kept_put kept
  have steps := steps_resolveUnchecked driver key
  rw [bare, List.map_nil, List.append_nil] at steps
  have objectNamed : (driver.resolveUnchecked key).fileName = some name :=
    (fileName_congr steps).trans named
  obtain ⟨front, rootSteps⟩ := steps_of_fileName named
  have deep : (driver.resolveUnchecked key).steps ≠ [] := by simp [steps, rootSteps]
  obtain ⟨parent, above⟩ := Path.parent_isSome deep
  have holds := normalise_holder workingDir bare named above
  cases empty : parent.isEmpty with
  | false =>
      have contained := climbs parent above parent (by
        rw [Path.climb_eq, empty]
        exact List.mem_cons_self)
      have lengths := List.IsPrefix.length_le contained
      rw [← holds, List.length_append, List.length_singleton] at lengths
      omega
  | true =>
      have contained := writes _ (ensureParent_of_isEmpty above empty _)
      unfold Path.setFileName at contained
      rw [objectNamed, above] at contained
      dsimp only at contained
      rw [Path.Contained, Path.normalise_push, ← holds] at contained
      have same := contained.eq_of_length (by simp)
      have names := (List.append_inj' same rfl).2
      exact tmpName_ne objectNamed suffix (List.cons.inj names).1.symm

/-- Every path an operation touches is the root or lies under it, exactly when it stays under the
root in the sense of `StaysUnder`. -/
theorem touched_contained_iff {state : State}
    (missing_below : ∀ {path above : Path}, path.parent = some above →
      missing state above = true → missing state path = true) (operation : Operation) :
    (∀ path ∈ driver.touched system describe missing operation state,
        Path.Contained workingDir driver.root path) ↔
      driver.StaysUnder workingDir (missing state) operation := by
  have root : Path.Contained workingDir driver.root driver.root := List.prefix_refl _
  have objects : ∀ key, Path.Contained workingDir driver.root (driver.resolveUnchecked key) :=
    contained_resolveUnchecked driver
  have start : Kept (Path.Contained workingDir driver.root) (state, []) := by
    intro path member
    cases member
  cases operation with
  | get key => exact iff_of_true (kept_get start root (objects key)) trivial
  | head key => exact iff_of_true (kept_head start root (objects key)) trivial
  | «exists» key => exact iff_of_true (kept_exists start (objects key)) trivial
  | delete key => exact iff_of_true (kept_delete start (objects key)) trivial
  | list keyPrefix fuel =>
      exact iff_of_true (kept_list (fun _ => Path.contained_push) root objects start) trivial
  | put key bytes suffix =>
      constructor
      · intro kept
        have named : names key = [] → driver.root.fileName = none := by
          intro bare
          cases ending : driver.root.fileName with
          | none => rfl
          | some name => exact absurd kept (put_escapes bare ending)
        refine ⟨named, ?_⟩
        intro parent above
        rw [← Path.climb_all_iff missing_below (contained_parent above named)]
        exact (of_kept_put kept).1 parent above
      · rintro ⟨named, stops⟩
        apply kept_put (objects key) (contained_tmp named)
        intro parent above
        rw [Path.climb_all_iff missing_below (contained_parent above named)]
        exact stops parent above

section Sample

theorem validate_dot : StorageKey.validate "." = .ok () := by decide

theorem validate_name : StorageKey.validate "a.bin" = .ok () := by decide

def sampleDriver : LocalDriver := ⟨⟨true, Segment.split "data".toList⟩⟩

def sampleSystem : System (Tree FileName (List UInt8)) (List UInt8) :=
  Mount.system ⟨sampleDriver.root, [], 4096⟩ List.length
    ⟨fun _ found => found, fun _ _ => .refl _⟩ 0

theorem put_dot_escapes :
    ¬ ∀ path ∈ sampleDriver.touched sampleSystem (fun _ => "") (fun _ _ => false)
        (.put ⟨".", validate_dot⟩ [] Uuid.nil) (Tree.empty 0),
      Path.Contained [] sampleDriver.root path := by
  have named : sampleDriver.root.fileName = some ⟨⟨"data".toList, by decide⟩, by decide⟩ := by
    decide
  exact put_escapes (by decide) named

theorem put_name_stays :
    names ⟨"a.bin", validate_name⟩ ≠ [] ∧
    ∀ path ∈ sampleDriver.touched sampleSystem (fun _ => "") (fun _ _ => false)
        (.put ⟨"a.bin", validate_name⟩ [] Uuid.nil) (Tree.empty 0),
      Path.Contained [] sampleDriver.root path := by
  have deep : names ⟨"a.bin", validate_name⟩ ≠ [] := by decide
  refine ⟨deep, (touched_contained_iff ?_ _).mpr ⟨?_, ?_⟩⟩
  · intro _ _ _ impossible
    cases impossible
  · exact fun bare => absurd bare deep
  · intros
    rfl

end Sample

end Root

end LocalDriver

end Picroom
