import Mathlib.Data.List.AList
import Mathlib.Data.List.Induction

/-!
# A tree of directories and files

A tree maps paths, lists of names, to nodes; every node other than the root lies in a
directory.  `stat` is path resolution, and the other calls check what POSIX checks before they
change the tree.  `stat_congr` says what the resolution of a path depends on.
-/

namespace Files

universe u v

inductive Node (Data : Type v) where
  | file (data : Data) (modified : Nat)
  | dir (modified : Nat)
  deriving DecidableEq

inductive Errno where
  | noEntry
  | notDirectory
  | isDirectory
  | fileExists
  | busy
  deriving DecidableEq

structure Tree (Name : Type u) (Data : Type v) [DecidableEq Name] where
  nodes : AList fun _ : List Name => Node Data
  rooted : ∃ modified, nodes.lookup [] = some (.dir modified)
  closed : ∀ path name node, nodes.lookup (path ++ [name]) = some node →
    ∃ modified, nodes.lookup path = some (.dir modified)

namespace Tree

variable {Name : Type u} {Data : Type v} [DecidableEq Name]

def lookup (tree : Tree Name Data) (path : List Name) : Option (Node Data) :=
  tree.nodes.lookup path

/-- A tree that has its root only. -/
def empty (modified : Nat) : Tree Name Data where
  nodes := (∅ : AList fun _ : List Name => Node Data).insert [] (.dir modified)
  rooted := ⟨modified, AList.lookup_insert _⟩
  closed := by
    intro path name node found
    rw [AList.lookup_insert_ne (by simp), AList.lookup_empty] at found
    cases found

theorem lookup_empty (modified : Nat) (path : List Name) :
    (empty modified : Tree Name Data).lookup path =
      if path = [] then some (.dir modified) else none := by
  split
  next top =>
    subst top
    exact AList.lookup_insert _
  next deep => exact (AList.lookup_insert_ne deep).trans (AList.lookup_empty _)

def isDir (tree : Tree Name Data) (path : List Name) : Bool :=
  match tree.lookup path with
  | some (.dir _) => true
  | _ => false

def isFile (tree : Tree Name Data) (path : List Name) : Bool :=
  match tree.lookup path with
  | some (.file _ _) => true
  | _ => false

theorem isDir_iff {tree : Tree Name Data} {path : List Name} :
    tree.isDir path = true ↔ ∃ modified, tree.lookup path = some (.dir modified) := by
  unfold isDir
  cases tree.lookup path with
  | none => simp
  | some node => cases node <;> simp

theorem isFile_iff {tree : Tree Name Data} {path : List Name} :
    tree.isFile path = true ↔ ∃ data modified, tree.lookup path = some (.file data modified) := by
  unfold isFile
  cases tree.lookup path with
  | none => simp
  | some node => cases node <;> simp

theorem isDir_of_lookup {tree : Tree Name Data} {path : List Name} {name : Name}
    {node : Node Data} (found : tree.lookup (path ++ [name]) = some node) :
    tree.isDir path = true :=
  isDir_iff.mpr (tree.closed path name node found)

theorem isDir_nil (tree : Tree Name Data) : tree.isDir [] = true := isDir_iff.mpr tree.rooted

/-- Whatever lies above a node is a directory. -/
theorem isDir_of_strictPrefix {tree : Tree Name Data} {path rest : List Name} {node : Node Data}
    (found : tree.lookup (path ++ rest) = some node) (nonempty : rest ≠ []) :
    tree.isDir path = true := by
  induction rest using List.reverseRecOn generalizing node with
  | nil => exact absurd rfl nonempty
  | append_singleton rest name inductionHypothesis =>
      rw [← List.append_assoc] at found
      obtain ⟨modified, above⟩ := isDir_iff.mp (isDir_of_lookup found)
      cases rest with
      | nil =>
          rw [List.append_nil] at above
          exact isDir_iff.mpr ⟨modified, above⟩
      | cons first others => exact inductionHypothesis above (by simp)

section Changes

/-- Puts a node that is not a directory's into a directory. -/
def graft (tree : Tree Name Data) (path : List Name) (name : Name) (node : Node Data)
    (inside : tree.isDir path = true) (free : tree.isDir (path ++ [name]) = false) :
    Tree Name Data where
  nodes := tree.nodes.insert (path ++ [name]) node
  rooted := by
    obtain ⟨modified, found⟩ := tree.rooted
    refine ⟨modified, ?_⟩
    rw [AList.lookup_insert_ne (by simp)]
    exact found
  closed := by
    intro other child present found
    have different : other ≠ path ++ [name] := by
      rintro rfl
      by_cases same : path ++ [name] ++ [child] = path ++ [name]
      · simp at same
      · rw [AList.lookup_insert_ne same] at found
        rw [isDir_of_lookup found] at free
        cases free
    rw [AList.lookup_insert_ne different]
    by_cases same : other ++ [child] = path ++ [name]
    · obtain ⟨rfl, _⟩ := List.append_inj' same rfl
      exact isDir_iff.mp inside
    · rw [AList.lookup_insert_ne same] at found
      exact tree.closed other child present found

/-- Takes a node without children out of the tree. -/
def prune (tree : Tree Name Data) (path : List Name) (name : Name)
    (leaf : tree.isDir (path ++ [name]) = false) : Tree Name Data where
  nodes := tree.nodes.erase (path ++ [name])
  rooted := by
    obtain ⟨modified, found⟩ := tree.rooted
    refine ⟨modified, ?_⟩
    rw [AList.lookup_erase_ne (by simp)]
    exact found
  closed := by
    intro other child present found
    have stays : other ++ [child] ≠ path ++ [name] := by
      intro same
      rw [same, AList.lookup_erase] at found
      cases found
    rw [AList.lookup_erase_ne stays] at found
    have different : other ≠ path ++ [name] := by
      rintro rfl
      rw [isDir_of_lookup found] at leaf
      cases leaf
    rw [AList.lookup_erase_ne different]
    exact tree.closed other child present found

/-- Sets the modification time of a directory. -/
def touch (tree : Tree Name Data) (path : List Name) (now : Nat)
    (inside : tree.isDir path = true) : Tree Name Data where
  nodes := tree.nodes.insert path (.dir now)
  rooted := by
    by_cases same : path = []
    · subst same
      exact ⟨now, AList.lookup_insert _⟩
    · obtain ⟨modified, found⟩ := tree.rooted
      refine ⟨modified, ?_⟩
      rw [AList.lookup_insert_ne (Ne.symm same)]
      exact found
  closed := by
    intro other child present found
    by_cases same : other = path
    · subst same
      exact ⟨now, AList.lookup_insert _⟩
    · rw [AList.lookup_insert_ne same]
      by_cases below : other ++ [child] = path
      · subst below
        obtain ⟨modified, above⟩ := isDir_iff.mp inside
        exact tree.closed other child _ above
      · rw [AList.lookup_insert_ne below] at found
        exact tree.closed other child present found

variable {tree : Tree Name Data} {path : List Name} {name : Name} {node : Node Data}

theorem lookup_graft {inside : tree.isDir path = true}
    {free : tree.isDir (path ++ [name]) = false} (other : List Name) :
    (tree.graft path name node inside free).lookup other =
      if other = path ++ [name] then some node else tree.lookup other := by
  split
  next same =>
    subst same
    exact AList.lookup_insert _
  next different => exact AList.lookup_insert_ne different

theorem lookup_prune {leaf : tree.isDir (path ++ [name]) = false} (other : List Name) :
    (tree.prune path name leaf).lookup other =
      if other = path ++ [name] then none else tree.lookup other := by
  split
  next same =>
    subst same
    exact AList.lookup_erase _ _
  next different => exact AList.lookup_erase_ne different

theorem lookup_touch {now : Nat} {inside : tree.isDir path = true} (other : List Name) :
    (tree.touch path now inside).lookup other =
      if other = path then some (.dir now) else tree.lookup other := by
  split
  next same =>
    subst same
    exact AList.lookup_insert _
  next different => exact AList.lookup_insert_ne different

end Changes

section Resolution

/-- Path resolution from a directory that has been reached. -/
def walk (tree : Tree Name Data) (reached : List Name) : List Name → Except Errno (Node Data)
  | [] =>
      match tree.lookup reached with
      | none => .error .noEntry
      | some node => .ok node
  | name :: rest =>
      match tree.lookup reached with
      | none => .error .noEntry
      | some (.file _ _) => .error .notDirectory
      | some (.dir _) => walk tree (reached ++ [name]) rest

def stat (tree : Tree Name Data) (path : List Name) : Except Errno (Node Data) :=
  tree.walk [] path

variable {tree : Tree Name Data}

theorem walk_eq_ok_iff {reached rest : List Name} {node : Node Data} :
    tree.walk reached rest = .ok node ↔ tree.lookup (reached ++ rest) = some node := by
  induction rest generalizing reached with
  | nil =>
      rw [walk, List.append_nil]
      cases tree.lookup reached <;> simp
  | cons name rest inductionHypothesis =>
      have above : tree.lookup (reached ++ name :: rest) = some node → tree.isDir reached = true :=
        fun found => isDir_of_strictPrefix found (by simp)
      rw [walk]
      split
      next missing =>
        constructor
        · intro impossible
          cases impossible
        · intro found
          obtain ⟨_, present⟩ := isDir_iff.mp (above found)
          rw [missing] at present
          cases present
      next isFile =>
        constructor
        · intro impossible
          cases impossible
        · intro found
          obtain ⟨_, present⟩ := isDir_iff.mp (above found)
          rw [isFile] at present
          cases present
      next => rw [inductionHypothesis, List.append_assoc, List.singleton_append]

/-- Resolution runs into a file that has to be a directory. -/
theorem walk_eq_notDirectory_iff {reached rest : List Name} :
    tree.walk reached rest = .error .notDirectory ↔
      ∃ above below, rest = above ++ below ∧ below ≠ [] ∧
        tree.isFile (reached ++ above) = true := by
  induction rest generalizing reached with
  | nil =>
      rw [walk]
      constructor
      · intro failed
        cases found : tree.lookup reached <;> simp [found] at failed
      · rintro ⟨above, below, split, nonempty, _⟩
        exact absurd (List.append_eq_nil_iff.mp split.symm).2 nonempty
  | cons name rest inductionHypothesis =>
      have deeper : (∃ above below, name :: rest = above ++ below ∧ below ≠ [] ∧
          tree.isFile (reached ++ above) = true) ↔ tree.isFile reached = true ∨
            ∃ above below, rest = above ++ below ∧ below ≠ [] ∧
              tree.isFile (reached ++ [name] ++ above) = true := by
        constructor
        · rintro ⟨above, below, split, nonempty, file⟩
          cases above with
          | nil => exact Or.inl (by simpa using file)
          | cons first others =>
              obtain ⟨rfl, rfl⟩ := List.cons.inj split
              exact Or.inr ⟨others, below, rfl, nonempty, by simpa using file⟩
        · rintro (file | ⟨above, below, rfl, nonempty, file⟩)
          · exact ⟨[], name :: rest, rfl, by simp, by simpa using file⟩
          · exact ⟨name :: above, below, rfl, nonempty, by simpa using file⟩
      rw [walk, deeper]
      split
      next missing =>
        constructor
        · intro impossible
          cases impossible
        · rintro (file | ⟨above, below, _, _, file⟩)
          · simp [isFile, missing] at file
          · obtain ⟨data, modified, found⟩ := isFile_iff.mp file
            rw [List.append_assoc] at found
            have present := isDir_of_strictPrefix found (by simp)
            simp [isDir, missing] at present
      next isFile =>
        refine iff_of_true rfl (Or.inl ?_)
        simp [Tree.isFile, isFile]
      next isDir =>
        rw [inductionHypothesis]
        constructor
        · exact Or.inr
        · rintro (file | later)
          · simp [Tree.isFile, isDir] at file
          · exact later

theorem walk_error {reached rest : List Name} {error : Errno}
    (failed : tree.walk reached rest = .error error) :
    error = .noEntry ∨ error = .notDirectory := by
  induction rest generalizing reached with
  | nil =>
      rw [walk] at failed
      split at failed
      next => cases failed; exact Or.inl rfl
      next => cases failed
  | cons name rest inductionHypothesis =>
      rw [walk] at failed
      split at failed
      next => cases failed; exact Or.inl rfl
      next => cases failed; exact Or.inr rfl
      next => exact inductionHypothesis failed

theorem stat_eq_ok_iff {path : List Name} {node : Node Data} :
    tree.stat path = .ok node ↔ tree.lookup path = some node := walk_eq_ok_iff

theorem stat_eq_notDirectory_iff {path : List Name} :
    tree.stat path = .error .notDirectory ↔
      ∃ above below, path = above ++ below ∧ below ≠ [] ∧ tree.isFile above = true :=
  walk_eq_notDirectory_iff

theorem stat_eq_noEntry_iff {path : List Name} :
    tree.stat path = .error .noEntry ↔ tree.lookup path = none ∧
      ∀ above below, path = above ++ below → below ≠ [] → tree.isFile above = false := by
  constructor
  · intro failed
    constructor
    · cases found : tree.lookup path with
      | none => rfl
      | some node =>
          rw [stat_eq_ok_iff.mpr found] at failed
          cases failed
    · intro above below split nonempty
      by_contra file
      rw [Bool.not_eq_false] at file
      rw [stat_eq_notDirectory_iff.mpr ⟨above, below, split, nonempty, file⟩] at failed
      cases failed
  · rintro ⟨missing, noFile⟩
    cases result : tree.stat path with
    | ok node =>
        rw [stat_eq_ok_iff, missing] at result
        cases result
    | error error =>
        rcases walk_error result with rfl | rfl
        · rfl
        · obtain ⟨above, below, split, nonempty, file⟩ := stat_eq_notDirectory_iff.mp result
          rw [noFile above below split nonempty] at file
          cases file

/-- Resolution depends on the node itself and on which nodes above it are files. -/
theorem stat_congr {other : Tree Name Data} {path : List Name}
    (same : other.lookup path = tree.lookup path)
    (files : ∀ above below, path = above ++ below → below ≠ [] →
      other.isFile above = tree.isFile above) : other.stat path = tree.stat path := by
  cases result : tree.stat path with
  | ok node =>
      rw [stat_eq_ok_iff] at result ⊢
      rw [same, result]
  | error error =>
      rcases walk_error result with rfl | rfl
      · rw [stat_eq_noEntry_iff] at result ⊢
        refine ⟨same.trans result.1, ?_⟩
        intro above below split nonempty
        rw [files above below split nonempty]
        exact result.2 above below split nonempty
      · rw [stat_eq_notDirectory_iff] at result ⊢
        obtain ⟨above, below, split, nonempty, file⟩ := result
        exact ⟨above, below, split, nonempty, by rwa [files above below split nonempty]⟩

end Resolution

/-- What one call may change: the times and existence of some directories, and some leaves. -/
structure Changes (tree other : Tree Name Data) (dirs leaves : List Name → Prop) : Prop where
  same : ∀ path, ¬ dirs path → ¬ leaves path → other.lookup path = tree.lookup path
  file : ∀ path, ¬ leaves path → ∀ data modified,
    other.lookup path = some (.file data modified) ↔ tree.lookup path = some (.file data modified)

namespace Changes

variable {tree other last : Tree Name Data} {dirs leaves : List Name → Prop}

theorem refl (tree : Tree Name Data) (dirs leaves : List Name → Prop) :
    Changes tree tree dirs leaves := ⟨fun _ _ _ => rfl, fun _ _ _ _ => Iff.rfl⟩

theorem trans (first : Changes tree other dirs leaves) (second : Changes other last dirs leaves) :
    Changes tree last dirs leaves where
  same path noDir noLeaf := (second.same path noDir noLeaf).trans (first.same path noDir noLeaf)
  file path noLeaf data modified :=
    (second.file path noLeaf data modified).trans (first.file path noLeaf data modified)

theorem mono {moreDirs moreLeaves : List Name → Prop} (changes : Changes tree other dirs leaves)
    (dirsMore : ∀ path, dirs path → moreDirs path)
    (leavesMore : ∀ path, leaves path → moreLeaves path) :
    Changes tree other moreDirs moreLeaves where
  same path noDir noLeaf := changes.same path (fun dir => noDir (dirsMore path dir))
    fun leaf => noLeaf (leavesMore path leaf)
  file path noLeaf := changes.file path fun leaf => noLeaf (leavesMore path leaf)

theorem isFile_eq (changes : Changes tree other dirs leaves) {path : List Name}
    (noLeaf : ¬ leaves path) : other.isFile path = tree.isFile path := by
  rw [Bool.eq_iff_iff, isFile_iff, isFile_iff]
  simp only [changes.file path noLeaf]

/-- A path is resolved as before unless it is a changed directory or lies at or below a changed
leaf. -/
theorem stat_eq (changes : Changes tree other dirs leaves) {path : List Name}
    (noDir : ¬ dirs path) (noLeaf : ∀ above, above <+: path → ¬ leaves above) :
    other.stat path = tree.stat path := by
  apply stat_congr
  · exact changes.same path noDir (noLeaf path (List.prefix_refl path))
  · intro above below split _
    apply changes.isFile_eq
    apply noLeaf
    exact ⟨below, split.symm⟩

end Changes

section Calls

omit [DecidableEq Name] in
theorem ne_append_singleton (path : List Name) (name : Name) : path ≠ path ++ [name] := by
  intro same
  have lengths := congrArg List.length same
  simp at lengths

variable {tree : Tree Name Data} {path : List Name} {name : Name}

theorem isDir_graft {node : Node Data} (inside : tree.isDir path = true)
    (free : tree.isDir (path ++ [name]) = false) :
    (tree.graft path name node inside free).isDir path = true := by
  rw [isDir, lookup_graft, if_neg (ne_append_singleton path name)]
  exact inside

theorem isDir_prune (inside : tree.isDir path = true)
    (leaf : tree.isDir (path ++ [name]) = false) :
    (tree.prune path name leaf).isDir path = true := by
  rw [isDir, lookup_prune, if_neg (ne_append_singleton path name)]
  exact inside

theorem isDir_of_missing {path : List Name} (missing : tree.lookup path = none) :
    tree.isDir path = false := by
  rw [isDir, missing]

theorem isDir_of_file {path : List Name} {data : Data} {modified : Nat}
    (file : tree.lookup path = some (.file data modified)) : tree.isDir path = false := by
  rw [isDir, file]

/-- Why a path is not a directory. -/
def dirError (tree : Tree Name Data) (path : List Name) : Errno :=
  match tree.stat path with
  | .error error => error
  | .ok _ => .notDirectory

def mkdir (tree : Tree Name Data) (path : List Name) (name : Name) (now : Nat) :
    Except Errno (Tree Name Data) :=
  if inside : tree.isDir path = true then
    if missing : tree.lookup (path ++ [name]) = none then
      .ok ((tree.graft path name (.dir now) inside (isDir_of_missing missing)).touch path now
        (isDir_graft inside _))
    else .error .fileExists
  else .error (tree.dirError path)

/-- Creates or truncates a file; only a new file changes the directory. -/
def write (tree : Tree Name Data) (path : List Name) (name : Name) (data : Data) (now : Nat) :
    Except Errno (Tree Name Data) :=
  if inside : tree.isDir path = true then
    if free : tree.isDir (path ++ [name]) = false then
      if tree.lookup (path ++ [name]) = none then
        .ok ((tree.graft path name (.file data now) inside free).touch path now
          (isDir_graft inside free))
      else .ok (tree.graft path name (.file data now) inside free)
    else .error .isDirectory
  else .error (tree.dirError path)

def unlink (tree : Tree Name Data) (path : List Name) (name : Name) (now : Nat) :
    Except Errno (Tree Name Data) :=
  match found : tree.lookup (path ++ [name]) with
  | some (.file _ _) =>
      .ok ((tree.prune path name (isDir_of_file found)).touch path now
        (isDir_prune (isDir_of_lookup found) _))
  | some (.dir _) => .error .isDirectory
  | none =>
      match tree.stat (path ++ [name]) with
      | .error error => .error error
      | .ok _ => .error .noEntry

/-- Moves a file within its directory, over a file or to a free name. -/
def rename (tree : Tree Name Data) (path : List Name) (source target : Name) (now : Nat) :
    Except Errno (Tree Name Data) :=
  match found : tree.lookup (path ++ [source]) with
  | some (.file data modified) =>
      if free : (tree.prune path source (isDir_of_file found)).isDir (path ++ [target]) = false then
        .ok (((tree.prune path source (isDir_of_file found)).graft path target
          (.file data modified) (isDir_prune (isDir_of_lookup found) _) free).touch path now
            (isDir_graft _ free))
      else .error .isDirectory
  | _ => .error .noEntry

/-- `create_dir_all`, from a directory that has been reached. -/
def makeDirs (now : Nat) : Tree Name Data → List Name → List Name → Except Errno (Tree Name Data)
  | tree, _, [] => .ok tree
  | tree, reached, name :: rest =>
      match tree.lookup (reached ++ [name]) with
      | some (.dir _) => makeDirs now tree (reached ++ [name]) rest
      | some (.file _ _) => .error (if rest = [] then .fileExists else .notDirectory)
      | none =>
          match tree.mkdir reached name now with
          | .error error => .error error
          | .ok next => makeDirs now next (reached ++ [name]) rest

/-- Only the directory's time and its leaf `name` may be different. -/
structure EditedAt (tree next : Tree Name Data) (path : List Name) (leaves : Name → Prop) :
    Prop where
  inside : tree.isDir path = true
  after : next.isDir path = true
  same : ∀ other, other ≠ path → (∀ name, leaves name → other ≠ path ++ [name]) →
    next.lookup other = tree.lookup other

theorem EditedAt.changes {next : Tree Name Data} {leaves : Name → Prop}
    (edited : EditedAt tree next path leaves) :
    Changes tree next (· = path) fun other => ∃ name, leaves name ∧ other = path ++ [name] where
  same other noDir noLeaf := edited.same other noDir fun name leaf same =>
    noLeaf ⟨name, leaf, same⟩
  file other noLeaf := by
    by_cases same : other = path
    · subst same
      obtain ⟨_, before⟩ := isDir_iff.mp edited.inside
      obtain ⟨_, after⟩ := isDir_iff.mp edited.after
      simp [before, after]
    · have unchanged := edited.same other same fun name leaf same => noLeaf ⟨name, leaf, same⟩
      intro data modified
      rw [unchanged]

section Results

variable {now : Nat} {next : Tree Name Data}

theorem isDir_touch {inside : tree.isDir path = true} :
    (tree.touch path now inside).isDir path = true := by
  rw [isDir, lookup_touch, if_pos rfl]

theorem of_mkdir (made : tree.mkdir path name now = .ok next) :
    EditedAt tree next path (· = name) ∧ tree.lookup (path ++ [name]) = none ∧
      next.lookup (path ++ [name]) = some (.dir now) := by
  unfold mkdir at made
  split at made
  next inside =>
    split at made
    next missing =>
      cases made
      refine ⟨⟨inside, isDir_touch, ?_⟩, missing, ?_⟩
      · intro other noDir noLeaf
        rw [lookup_touch, if_neg noDir, lookup_graft, if_neg (noLeaf name rfl)]
      · rw [lookup_touch, if_neg (Ne.symm (ne_append_singleton path name)), lookup_graft,
          if_pos rfl]
    next => cases made
  next => cases made

theorem of_write {data : Data} (written : tree.write path name data now = .ok next) :
    EditedAt tree next path (· = name) ∧ tree.isDir (path ++ [name]) = false ∧
      next.lookup (path ++ [name]) = some (.file data now) := by
  have apart := Ne.symm (ne_append_singleton path name)
  unfold write at written
  split at written
  next inside =>
    split at written
    next free =>
      split at written
      next =>
        cases written
        refine ⟨⟨inside, isDir_touch, ?_⟩, free, ?_⟩
        · intro other noDir noLeaf
          rw [lookup_touch, if_neg noDir, lookup_graft, if_neg (noLeaf name rfl)]
        · rw [lookup_touch, if_neg apart, lookup_graft, if_pos rfl]
      next =>
        cases written
        refine ⟨⟨inside, isDir_graft inside free, ?_⟩, free, ?_⟩
        · intro other _ noLeaf
          rw [lookup_graft, if_neg (noLeaf name rfl)]
        · rw [lookup_graft, if_pos rfl]
    next => cases written
  next => cases written

theorem of_unlink (removed : tree.unlink path name now = .ok next) :
    EditedAt tree next path (· = name) ∧ tree.isFile (path ++ [name]) = true ∧
      next.lookup (path ++ [name]) = none := by
  have apart := Ne.symm (ne_append_singleton path name)
  unfold unlink at removed
  split at removed
  next data modified found =>
    cases removed
    refine ⟨⟨isDir_of_lookup found, isDir_touch, ?_⟩, ?_, ?_⟩
    · intro other noDir noLeaf
      rw [lookup_touch, if_neg noDir, lookup_prune, if_neg (noLeaf name rfl)]
    · exact isFile_iff.mpr ⟨data, modified, found⟩
    · rw [lookup_touch, if_neg apart, lookup_prune, if_pos rfl]
  next => cases removed
  next =>
    split at removed
    · cases removed
    · cases removed

theorem of_rename {source target : Name} (moved : tree.rename path source target now = .ok next) :
    EditedAt tree next path (fun name => name = source ∨ name = target) ∧
      ∃ data modified, tree.lookup (path ++ [source]) = some (.file data modified) ∧
        next.lookup (path ++ [target]) = some (.file data modified) ∧
        (source ≠ target → next.lookup (path ++ [source]) = none ∧
          tree.isDir (path ++ [target]) = false) := by
  have apart := fun name => Ne.symm (ne_append_singleton path name)
  unfold rename at moved
  split at moved
  next data modified found =>
    split at moved
    next free =>
      cases moved
      refine ⟨⟨isDir_of_lookup found, isDir_touch, ?_⟩, data, modified, found, ?_, ?_⟩
      · intro other noDir noLeaf
        rw [lookup_touch, if_neg noDir, lookup_graft, if_neg (noLeaf target (Or.inr rfl)),
          lookup_prune, if_neg (noLeaf source (Or.inl rfl))]
      · rw [lookup_touch, if_neg (apart target), lookup_graft, if_pos rfl]
      · intro different
        have paths : path ++ [source] ≠ path ++ [target] := by simpa using different
        constructor
        · rw [lookup_touch, if_neg (apart source), lookup_graft, if_neg paths, lookup_prune,
            if_pos rfl]
        · rw [isDir, lookup_prune, if_neg (Ne.symm paths)] at free
          exact free
    next => cases moved
  next => cases moved

/-- Created directories are new, and nothing else is different but times of directories. -/
theorem of_makeDirs {reached rest : List Name} (made : makeDirs now tree reached rest = .ok next) :
    (tree.isDir reached = true → next.isDir (reached ++ rest) = true) ∧
      Changes tree next (fun path => reached <+: path ∧ path <+: reached ++ rest)
        fun _ => False := by
  induction rest generalizing tree reached with
  | nil =>
      cases made
      refine ⟨fun inside => by rwa [List.append_nil], Changes.refl _ _ _⟩
  | cons name rest inductionHypothesis =>
      have shift : reached ++ name :: rest = reached ++ [name] ++ rest := by simp
      have below : ∀ path, reached ++ [name] <+: path ∧ path <+: reached ++ [name] ++ rest →
          reached <+: path ∧ path <+: reached ++ [name] ++ rest :=
        fun path dirs => ⟨(List.prefix_append reached [name]).trans dirs.1, dirs.2⟩
      rw [makeDirs] at made
      split at made
      next modified found =>
        obtain ⟨inside, changes⟩ := inductionHypothesis made
        rw [shift]
        exact ⟨fun _ => inside (isDir_iff.mpr ⟨modified, found⟩),
          changes.mono below fun _ impossible => impossible⟩
      next => cases made
      next missing =>
        split at made
        next => cases made
        next middle mkdir =>
          obtain ⟨edited, _, created⟩ := of_mkdir mkdir
          obtain ⟨inside, changes⟩ := inductionHypothesis made
          rw [shift]
          refine ⟨fun _ => inside (isDir_iff.mpr ⟨now, created⟩), ?_⟩
          refine Changes.trans ⟨?_, ?_⟩ (changes.mono below fun _ impossible => impossible)
          · intro other noDir _
            apply edited.same
            · rintro rfl
              exact noDir ⟨List.prefix_refl _, name :: rest, by simp⟩
            · rintro _ rfl rfl
              exact noDir ⟨List.prefix_append _ _, rest, rfl⟩
          · intro other _
            by_cases same : other = reached ++ [name]
            · subst same
              simp [created, missing]
            · exact edited.changes.file other fun ⟨_, isName, equal⟩ =>
                same (by rw [equal, isName])

theorem isDir_of_prefix {above : List Name} (isFront : above <+: path)
    (dir : tree.isDir path = true) : tree.isDir above = true := by
  obtain ⟨rest, rfl⟩ := isFront
  obtain ⟨modified, present⟩ := isDir_iff.mp dir
  cases rest with
  | nil => rwa [List.append_nil] at dir
  | cons name rest => exact isDir_of_strictPrefix present (by simp)

/-- A directory that is there is not made again. -/
theorem makeDirs_of_isDir {reached rest : List Name} (dir : tree.isDir (reached ++ rest) = true) :
    makeDirs now tree reached rest = .ok tree := by
  induction rest generalizing reached with
  | nil => rfl
  | cons name rest inductionHypothesis =>
      have shift : reached ++ name :: rest = reached ++ [name] ++ rest := by simp
      have above : tree.isDir (reached ++ [name]) = true :=
        isDir_of_prefix ⟨rest, shift.symm⟩ dir
      obtain ⟨modified, present⟩ := isDir_iff.mp above
      rw [makeDirs, present]
      dsimp only
      rw [shift] at dir
      exact inductionHypothesis dir

/-- Directories can be made where no file stands in the way. -/
theorem makeDirs_ok (now : Nat) {tree : Tree Name Data} {reached : List Name} (rest : List Name)
    (inside : tree.isDir reached = true)
    (free : ∀ above, above <+: reached ++ rest → tree.isFile above = false) :
    ∃ next, makeDirs now tree reached rest = .ok next := by
  induction rest generalizing tree reached with
  | nil => exact ⟨tree, rfl⟩
  | cons name rest inductionHypothesis =>
      have shift : reached ++ name :: rest = reached ++ [name] ++ rest := by simp
      rw [shift] at free
      rw [makeDirs]
      split
      next modified found =>
        exact inductionHypothesis (isDir_iff.mpr ⟨modified, found⟩) free
      next data modified found =>
        have blocked := free (reached ++ [name]) (List.prefix_append _ _)
        rw [isFile, found] at blocked
        cases blocked
      next missing =>
        cases made : tree.mkdir reached name now with
        | error error =>
            rw [mkdir, dif_pos inside, dif_pos missing] at made
            cases made
        | ok next =>
            obtain ⟨edited, _, created⟩ := of_mkdir made
            dsimp only
            apply inductionHypothesis (isDir_iff.mpr ⟨now, created⟩)
            intro above isFront
            by_cases same : above = reached ++ [name]
            · rw [same, isFile, created]
            · rw [edited.changes.isFile_eq fun ⟨_, isName, equal⟩ => same (by rw [equal, isName])]
              exact free above isFront

theorem write_ok (data : Data) (now : Nat) (inside : tree.isDir path = true)
    (free : tree.isDir (path ++ [name]) = false) :
    ∃ next, tree.write path name data now = .ok next := by
  unfold write
  rw [dif_pos inside, dif_pos free]
  split
  next => exact ⟨_, rfl⟩
  next => exact ⟨_, rfl⟩

/-- A new file changes the time of its directory. -/
theorem dir_of_write {data : Data} (written : tree.write path name data now = .ok next)
    (missing : tree.lookup (path ++ [name]) = none) : next.lookup path = some (.dir now) := by
  unfold write at written
  split at written
  next inside =>
    split at written
    next free =>
      cases written
      rw [lookup_touch, if_pos rfl]
    next => cases written
  next => cases written

theorem dir_of_mkdir (made : tree.mkdir path name now = .ok next) :
    next.lookup path = some (.dir now) := by
  unfold mkdir at made
  split at made
  next =>
    split at made
    next =>
      cases made
      rw [lookup_touch, if_pos rfl]
    next => cases made
  next => cases made

theorem dir_of_rename {source target : Name}
    (moved : tree.rename path source target now = .ok next) :
    next.lookup path = some (.dir now) := by
  unfold rename at moved
  split at moved
  next =>
    split at moved
    next =>
      cases moved
      rw [lookup_touch, if_pos rfl]
    next => cases moved
  next => cases moved

/-- A file does not replace a directory. -/
theorem rename_onto_dir (now : Nat) {source target : Name} (different : source ≠ target)
    (dir : tree.isDir (path ++ [target]) = true) :
    ∃ error, tree.rename path source target now = .error error := by
  unfold rename
  split
  next found =>
    rw [dif_neg]
    · exact ⟨_, rfl⟩
    · rw [isDir, lookup_prune, if_neg (by simpa using Ne.symm different)]
      rw [isDir] at dir
      simp [dir]
  next => exact ⟨_, rfl⟩

theorem rename_ok {source target : Name} {data : Data} {modified : Nat} (now : Nat)
    (present : tree.lookup (path ++ [source]) = some (.file data modified))
    (free : tree.isDir (path ++ [target]) = false) :
    ∃ next, tree.rename path source target now = .ok next := by
  unfold rename
  split
  next found =>
    rw [dif_pos]
    · exact ⟨_, rfl⟩
    · by_cases same : path ++ [target] = path ++ [source]
      · rw [isDir, lookup_prune, if_pos same]
      · rw [isDir, lookup_prune, if_neg same]
        exact free
  next absent =>
    exact absurd present (absent data modified)

theorem unlink_ok {data : Data} {modified : Nat} (now : Nat)
    (present : tree.lookup (path ++ [name]) = some (.file data modified)) :
    ∃ next, tree.unlink path name now = .ok next := by
  unfold unlink
  split
  next => exact ⟨_, rfl⟩
  next isDir =>
    rw [present] at isDir
    cases isDir
  next missing =>
    rw [present] at missing
    cases missing

/-- What lies above the place of an edit stays as it is. -/
theorem EditedAt.lookup_above {leaves : Name → Prop} (edited : EditedAt tree next path leaves)
    {above : List Name} (isFront : above <+: path) (different : above ≠ path) :
    next.lookup above = tree.lookup above := by
  apply edited.same above different
  rintro name _ rfl
  have lengths := isFront.length_le
  rw [List.length_append, List.length_singleton] at lengths
  omega

end Results

end Calls

end Tree

end Files
