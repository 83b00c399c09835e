import Mathlib.Data.List.Induction
import Mathlib.Tactic.Conv
import Picroom.Text.Separated

/-!
# Paths

A path is the text of `std::path::Path`, cut at its slashes.  `parent`, `file_name` and
`set_file_name` look at the components only: empty segments and `.` are no components, except
for a `.` at the start of a relative path.  `normalise` is where a path leads when nothing on
the way is a symbolic link.
-/

namespace Files

/-- What stands between two slashes. -/
structure Segment where
  text : List Char
  plain : '/' ∉ text
  deriving DecidableEq

/-- A name a directory can hold. -/
structure FileName extends Segment where
  proper : text ≠ [] ∧ text ≠ ['.'] ∧ text ≠ ['.', '.']
  deriving DecidableEq

namespace Segment

/-- The segments of a text. -/
def split (text : List Char) : List Segment :=
  (text.splitOn '/').attach.map fun part => ⟨part.1, fun slash => by
    have plain := (Text.mem_of_mem_splitOnP part.2 '/' slash).2
    cases plain⟩

theorem map_text_split (text : List Char) : (split text).map Segment.text = text.splitOn '/' := by
  rw [split, List.map_map]
  exact List.attach_map_subtype_val _

theorem intercalate_split (text : List Char) :
    ['/'].intercalate ((split text).map Segment.text) = text := by
  rw [map_text_split]
  exact List.intercalate_splitOn '/'

theorem split_ne_nil (text : List Char) : split text ≠ [] := by
  intro empty
  have parts := map_text_split text
  rw [empty] at parts
  exact List.splitOn_ne_nil '/' text parts.symm

end Segment

inductive Component where
  | parentDir
  | normal (name : FileName)
  deriving DecidableEq

namespace Component

/-- Where a component leads. -/
def enter (reached : List FileName) : Component → List FileName
  | .parentDir => reached.dropLast
  | .normal name => reached ++ [name]

theorem foldl_enter_normal (reached names : List FileName) :
    (names.map Component.normal).foldl enter reached = reached ++ names := by
  induction names generalizing reached with
  | nil => simp
  | cons name rest inductionHypothesis => simp [enter, inductionHypothesis]

end Component

def Segment.component (segment : Segment) : Option Component :=
  if proper : segment.text ≠ [] ∧ segment.text ≠ ['.'] ∧ segment.text ≠ ['.', '.'] then
    some (.normal ⟨segment, proper⟩)
  else if segment.text = ['.', '.'] then some .parentDir
  else none

@[simp]
theorem FileName.component (name : FileName) : name.toSegment.component = some (.normal name) := by
  rw [Segment.component, dif_pos name.proper]

theorem FileName.ne_empty (name : FileName) : name.text ≠ [] := name.proper.1

structure Path where
  absolute : Bool
  segments : List Segment
  deriving DecidableEq

namespace Path

def text (path : Path) : List Char :=
  (if path.absolute then ['/'] else []) ++ ['/'].intercalate (path.segments.map Segment.text)

def isEmpty (path : Path) : Bool := path.text == []

/-- A `.` that starts a relative path is a component. -/
def startsHere (path : Path) : Bool :=
  !path.absolute && match path.segments with
    | [] => false
    | first :: _ => first.text == ['.']

/-- The components behind the root or the leading `.`. -/
def steps (path : Path) : List Component := path.segments.filterMap Segment.component

def depth (path : Path) : Nat :=
  (if path.absolute || path.startsHere then 1 else 0) + path.steps.length

def isTrivial (segment : Segment) : Bool := segment.component.isNone

def trimStart (segments : List Segment) : List Segment := segments.dropWhile isTrivial

def trimEnd (segments : List Segment) : List Segment :=
  (segments.reverse.dropWhile isTrivial).reverse

def lead (path : Path) : List Segment := if path.startsHere then path.segments.take 1 else []

def body (path : Path) : List Segment :=
  if path.startsHere then path.segments.drop 1 else path.segments

/-- `parent`, which leaves out what is no component at the end. -/
def parent (path : Path) : Option Path :=
  match trimEnd path.body with
  | [] => if path.startsHere then some ⟨path.absolute, []⟩ else none
  | first :: rest => some ⟨path.absolute, path.lead ++ trimEnd (first :: rest).dropLast⟩

def fileName (path : Path) : Option FileName :=
  match path.steps.getLast? with
  | some (.normal name) => some name
  | _ => none

/-- `join` and `push` of a relative path, which write one slash between the two. -/
def join (path : Path) (segments : List Segment) : Path :=
  ⟨path.absolute,
    (match path.segments.getLast? with
      | some last => if last.text = [] then path.segments.dropLast else path.segments
      | none => []) ++ segments⟩

def push (path : Path) (name : FileName) : Path := path.join [name.toSegment]

def setFileName (path : Path) (name : FileName) : Path :=
  match path.fileName, path.parent with
  | some _, some directory => directory.push name
  | _, _ => path.push name

/-- `starts_with`: whole components at the start. -/
def startsWith (path front : Path) : Bool :=
  front.depth == 0 || path.absolute == front.absolute && path.startsHere == front.startsHere &&
    front.steps.isPrefixOf path.steps

def dropSteps : Nat → List Segment → List Segment
  | 0, segments => segments
  | _ + 1, [] => []
  | count + 1, segment :: rest =>
      if isTrivial segment then dropSteps (count + 1) rest else dropSteps count rest

/-- `strip_prefix`: what is spelled behind the components of `front`. -/
def stripPrefix (path front : Path) : Option Path :=
  if front.depth = 0 then some ⟨path.absolute, trimEnd path.segments⟩
  else if path.startsWith front then
    some ⟨false, trimEnd (trimStart (dropSteps front.steps.length path.segments))⟩
  else none

/-- A path that names a directory by its spelling: it ends in a slash or in `.`. -/
def asDirectory (path : Path) : Bool :=
  match path.segments.getLast? with
  | some last => isTrivial last
  | none => true

section Steps

theorem filterMap_trimEnd (segments : List Segment) :
    (trimEnd segments).filterMap Segment.component = segments.filterMap Segment.component := by
  induction segments using List.reverseRecOn with
  | nil => rfl
  | append_singleton segments last inductionHypothesis =>
      rw [trimEnd, List.reverse_append, List.reverse_singleton, List.singleton_append,
        List.dropWhile_cons]
      split
      next trivial =>
        have skipped : last.component = none := by simpa [isTrivial] using trivial
        have shorter := inductionHypothesis
        rw [trimEnd] at shorter
        rw [shorter, List.filterMap_append, List.filterMap_cons_none skipped, List.filterMap_nil,
          List.append_nil]
      next => rw [List.reverse_cons, List.reverse_reverse]

/-- What `trimEnd` leaves ends in a component. -/
theorem component_of_trimEnd {segments shorter : List Segment} {last : Segment}
    (trimmed : trimEnd segments = shorter ++ [last]) :
    ∃ component, last.component = some component := by
  have reversed : segments.reverse.dropWhile isTrivial = last :: shorter.reverse := by
    rw [← List.reverse_inj, ← trimEnd, trimmed]
    simp
  have kept := List.head_dropWhile_not isTrivial (l := segments.reverse) (by simp [reversed])
  simp only [reversed, List.head_cons, isTrivial, Option.isNone_eq_false_iff] at kept
  exact Option.isSome_iff_exists.mp kept

theorem steps_join (path : Path) (segments : List Segment) :
    (path.join segments).steps = path.steps ++ segments.filterMap Segment.component := by
  unfold join steps
  rw [List.filterMap_append]
  congr 1
  cases last : path.segments.getLast? with
  | none =>
      rw [List.getLast?_eq_none_iff] at last
      rw [last]
  | some segment =>
      dsimp only
      split
      next empty =>
        have trivial : segment.component = none := by
          simp [Segment.component, empty]
        obtain ⟨front, whole⟩ := List.getLast?_eq_some_iff.mp last
        rw [whole, List.dropLast_concat, List.filterMap_append,
          List.filterMap_cons_none trivial, List.filterMap_nil, List.append_nil]
      next => rfl

@[simp]
theorem absolute_join (path : Path) (segments : List Segment) :
    (path.join segments).absolute = path.absolute := rfl

theorem steps_push (path : Path) (name : FileName) :
    (path.push name).steps = path.steps ++ [.normal name] := by
  rw [push, steps_join]
  simp

theorem lead_append_body (path : Path) : path.lead ++ path.body = path.segments := by
  unfold lead body
  split
  next => exact List.take_append_drop 1 path.segments
  next => rfl

theorem filterMap_lead (path : Path) : path.lead.filterMap Segment.component = [] := by
  unfold lead
  split
  next here =>
    unfold startsHere at here
    cases split : path.segments with
    | nil => rfl
    | cons first rest =>
        rw [split] at here
        have dot : first.text = ['.'] := by
          rw [Bool.and_eq_true, beq_iff_eq] at here
          exact here.2
        have skipped : first.component = none := by simp [Segment.component, dot]
        rw [List.take_succ_cons, List.take_zero, List.filterMap_cons_none skipped,
          List.filterMap_nil]
  next => rfl

theorem steps_eq_body (path : Path) : path.steps = path.body.filterMap Segment.component := by
  rw [steps, ← lead_append_body, List.filterMap_append, filterMap_lead, List.nil_append]

/-- The parent has all components but the last. -/
theorem of_parent {path directory : Path} (above : path.parent = some directory) :
    directory.absolute = path.absolute ∧ directory.steps = path.steps.dropLast := by
  unfold parent at above
  rw [steps_eq_body path, ← filterMap_trimEnd]
  split at above
  next empty =>
    split at above
    next =>
      cases above
      rw [empty]
      exact ⟨rfl, rfl⟩
    next => cases above
  next first rest trimmed =>
    cases above
    refine ⟨rfl, ?_⟩
    obtain ⟨shorter, last, split⟩ :=
      (List.eq_nil_or_concat (first :: rest)).resolve_left (by simp)
    rw [List.concat_eq_append] at split
    rw [split] at trimmed
    obtain ⟨component, present⟩ := component_of_trimEnd trimmed
    rw [steps, List.filterMap_append, filterMap_lead, List.nil_append, filterMap_trimEnd, trimmed,
      split, List.dropLast_concat, List.filterMap_append, List.filterMap_cons_some present,
      List.filterMap_nil, List.dropLast_concat]

/-- A path with a component behind its root has a parent. -/
theorem parent_isSome {path : Path} (deep : path.steps ≠ []) :
    ∃ directory, path.parent = some directory := by
  unfold parent
  split
  next empty =>
    rw [steps_eq_body, ← filterMap_trimEnd, empty] at deep
    exact absurd rfl deep
  next first rest _ => exact ⟨_, rfl⟩

end Steps

section Normalise

/-- Where a path leads from the working directory. -/
def normalise (workingDir : List FileName) (path : Path) : List FileName :=
  path.steps.foldl Component.enter (if path.absolute then [] else workingDir)

/-- A path that is `root` or lies under it. -/
def Contained (workingDir : List FileName) (root path : Path) : Prop :=
  root.normalise workingDir <+: path.normalise workingDir

instance (workingDir : List FileName) (root path : Path) :
    Decidable (Contained workingDir root path) :=
  inferInstanceAs (Decidable (_ <+: _))

variable {workingDir : List FileName}

theorem normalise_join (path : Path) (segments : List Segment) :
    (path.join segments).normalise workingDir =
      (segments.filterMap Segment.component).foldl Component.enter (path.normalise workingDir) := by
  rw [normalise, steps_join, absolute_join, List.foldl_append]
  rfl

theorem normalise_push (path : Path) (name : FileName) :
    (path.push name).normalise workingDir = path.normalise workingDir ++ [name] := by
  rw [push, normalise_join]
  simp [Component.enter]

theorem normalise_of_parent {path directory : Path} (above : path.parent = some directory)
    {front : List Component} {last : Component} (steps : path.steps = front ++ [last]) :
    path.normalise workingDir = Component.enter (directory.normalise workingDir) last := by
  obtain ⟨sameRoot, fewer⟩ := of_parent above
  rw [normalise, normalise, sameRoot, fewer, steps, List.dropLast_concat, List.foldl_append]
  rfl

theorem contained_push {root path : Path} (contained : Contained workingDir root path)
    (name : FileName) : Contained workingDir root (path.push name) := by
  unfold Contained
  rw [normalise_push]
  exact contained.trans (List.prefix_append _ _)

end Normalise

section Ancestors

theorem trimEnd_isPrefix (segments : List Segment) : trimEnd segments <+: segments := by
  rw [← List.reverse_suffix, trimEnd, List.reverse_reverse]
  exact List.dropWhile_suffix _

theorem startsHere_of_isPrefix {absolute : Bool} {segments front : List Segment}
    (isFront : front <+: segments) (here : startsHere ⟨absolute, front⟩ = true) :
    startsHere ⟨absolute, segments⟩ = true := by
  obtain ⟨rest, rfl⟩ := isFront
  cases front with
  | nil => simp [startsHere] at here
  | cons first others => exact here

theorem depth_parent_lt {path directory : Path} (above : path.parent = some directory) :
    directory.depth < path.depth := by
  obtain ⟨sameRoot, fewer⟩ := of_parent above
  unfold parent at above
  split at above
  next =>
    split at above
    next here =>
      cases above
      have relative : path.absolute = false := by
        simp only [startsHere, Bool.and_eq_true, Bool.not_eq_true'] at here
        exact here.1
      have top : depth ⟨path.absolute, []⟩ = 0 := by
        rw [relative]
        rfl
      rw [top, depth, here, Bool.or_true, if_pos rfl]
      omega
    next => cases above
  next first rest trimmed =>
    have here : directory.startsHere = true → path.startsHere = true := by
      cases above
      apply startsHere_of_isPrefix
      conv_rhs => rw [← lead_append_body]
      rw [List.prefix_append_right_inj]
      apply (trimEnd_isPrefix _).trans
      rw [← trimmed]
      exact (List.dropLast_prefix _).trans (trimEnd_isPrefix _)
    have deep : path.steps ≠ [] := by
      obtain ⟨shorter, last, split⟩ :=
        (List.eq_nil_or_concat (first :: rest)).resolve_left (by simp)
      rw [List.concat_eq_append] at split
      rw [split] at trimmed
      obtain ⟨component, present⟩ := component_of_trimEnd trimmed
      rw [steps_eq_body, ← filterMap_trimEnd, trimmed, List.filterMap_append,
        List.filterMap_cons_some present]
      simp
    have positive := List.length_pos_iff.mpr deep
    rw [depth, depth, sameRoot, fewer, List.length_dropLast]
    by_cases directoryHere : directory.startsHere = true
    · simp only [directoryHere, here directoryHere]
      omega
    · rw [Bool.not_eq_true] at directoryHere
      rw [directoryHere]
      cases path.absolute <;> cases path.startsHere <;> simp <;> omega

/-- The directories `create_dir_all` asks for, lowest first: it goes up from a directory whose own
directory is missing, and stops at the empty path. -/
def climbWith (missing : Path → Bool) : Nat → Path → List Path
  | 0, _ => []
  | fuel + 1, path =>
      if path.isEmpty then []
      else path :: if missing path then
        match path.parent with
        | some above => climbWith missing fuel above
        | none => []
      else []

def climb (missing : Path → Bool) (path : Path) : List Path :=
  climbWith missing (path.depth + 1) path

theorem climbWith_enough {missing : Path → Bool} {fuel : Nat} {path : Path}
    (enough : path.depth < fuel) : climbWith missing fuel path = climb missing path := by
  suffices same : ∀ (first second : Nat) (path : Path), path.depth < first → path.depth < second →
      climbWith missing first path = climbWith missing second path from
    same fuel (path.depth + 1) path enough (Nat.lt_succ_self _)
  intro first
  induction first with
  | zero => exact fun second path impossible _ => absurd impossible (Nat.not_lt_zero _)
  | succ first inductionHypothesis =>
      intro second path firstEnough secondEnough
      cases second with
      | zero => exact absurd secondEnough (Nat.not_lt_zero _)
      | succ second =>
          rw [climbWith, climbWith]
          cases above : path.parent with
          | none => rfl
          | some directory =>
              have lower := depth_parent_lt above
              have later := inductionHypothesis second directory (by omega) (by omega)
              dsimp only
              rw [later]

theorem climb_eq (missing : Path → Bool) (path : Path) :
    climb missing path =
      if path.isEmpty then []
      else path :: if missing path then
        match path.parent with
        | some above => climb missing above
        | none => []
      else [] := by
  rw [climb, climbWith]
  cases above : path.parent with
  | none => rfl
  | some directory =>
      dsimp only
      rw [climbWith_enough (depth_parent_lt above)]

/-- Every directory on the way to a path, lowest first. -/
def ancestors (path : Path) : List Path := climb (fun _ => true) path

theorem ancestors_of_parent {path directory : Path} (nonempty : path.isEmpty = false)
    (above : path.parent = some directory) : path.ancestors = path :: directory.ancestors := by
  rw [ancestors, climb_eq, nonempty, above]
  rfl

variable {missing : Path → Bool}

theorem climb_of_isEmpty {path : Path} (empty : path.isEmpty = true) : climb missing path = [] := by
  rw [climb_eq, empty, if_pos rfl]

/-- Induction on the way up. -/
theorem parent_induction {motive : Path → Prop}
    (step : ∀ path, (∀ above, path.parent = some above → motive above) → motive path)
    (path : Path) : motive path := by
  induction depth : path.depth using Nat.strongRecOn generalizing path with
  | _ depth inductionHypothesis =>
      apply step
      intro above isParent
      exact inductionHypothesis above.depth (depth ▸ depth_parent_lt isParent) above rfl

variable (missing_below : ∀ {path above : Path}, path.parent = some above →
  missing above = true → missing path = true)

include missing_below

theorem missing_of_ancestor {path reached : Path} (member : reached ∈ path.ancestors)
    (isMissing : missing reached = true) : missing path = true := by
  induction path using parent_induction with
  | step path inductionHypothesis =>
      rw [ancestors, climb_eq] at member
      split at member
      next => cases member
      next =>
        rcases List.mem_cons.mp member with rfl | later
        · exact isMissing
        · cases above : path.parent with
          | none =>
              rw [above] at later
              cases later
          | some directory =>
              rw [above] at later
              exact missing_below above (inductionHypothesis directory above later)

theorem mem_climb_of_missing {path reached above : Path} (member : reached ∈ path.ancestors)
    (isMissing : missing reached = true) (isParent : reached.parent = some above)
    (nonempty : above.isEmpty = false) : above ∈ climb missing path := by
  induction path using parent_induction with
  | step path inductionHypothesis =>
      have below := missing_of_ancestor missing_below member isMissing
      rw [ancestors, climb_eq] at member
      rw [climb_eq, below]
      split at member
      next => cases member
      next notEmpty =>
        rw [if_neg notEmpty, if_pos rfl]
        apply List.mem_cons_of_mem
        rcases List.mem_cons.mp member with rfl | later
        · rw [isParent]
          dsimp only
          rw [climb_eq, nonempty]
          exact List.mem_cons_self
        · cases next : path.parent with
          | none =>
              rw [next] at later
              cases later
          | some directory =>
              rw [next] at later
              exact inductionHypothesis directory next later

/-- The climb stays inside if it stops before the first directory that is not. -/
theorem climb_all_iff {inside : Path → Prop} {path : Path} (starts : inside path) :
    (∀ reached ∈ climb missing path, inside reached) ↔
      ∀ reached ∈ path.ancestors, ∀ above, reached.parent = some above → above.isEmpty = false →
        ¬ inside above → missing reached = false := by
  constructor
  · intro stays reached member above isParent nonempty outside
    by_contra isMissing
    rw [Bool.not_eq_false] at isMissing
    exact outside (stays above
      (mem_climb_of_missing missing_below member isMissing isParent nonempty))
  · induction path using parent_induction with
    | step path inductionHypothesis =>
        intro stops reached member
        rw [climb_eq] at member
        split at member
        next => cases member
        next notEmpty =>
          rw [Bool.not_eq_true] at notEmpty
          rcases List.mem_cons.mp member with rfl | later
          · exact starts
          · split at later
            next isMissing =>
              cases isParent : path.parent with
              | none =>
                  rw [isParent] at later
                  cases later
              | some above =>
                  rw [isParent] at later
                  dsimp only at later
                  have chain := ancestors_of_parent notEmpty isParent
                  cases nonempty : above.isEmpty with
                  | true =>
                      rw [climb_of_isEmpty nonempty] at later
                      cases later
                  | false =>
                      have insideAbove : inside above := by
                        by_contra outside
                        have stopped := stops path (by rw [chain]; exact List.mem_cons_self) above
                          isParent nonempty outside
                        rw [stopped] at isMissing
                        cases isMissing
                      apply inductionHypothesis above isParent insideAbove _ reached later
                      intro other inAbove
                      exact stops other (by rw [chain]; exact List.mem_cons_of_mem _ inAbove)
            next => cases later

end Ancestors

end Path

end Files
