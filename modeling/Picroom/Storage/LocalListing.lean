import Picroom.Storage.LocalStore

/-!
# The listing of a tree

`collect_recursive` keeps a stack of paths, where the visit of a tree keeps a stack of names.  The
listing is what the visit reports, each file under the key its path spells.
-/

namespace Picroom

open Files

namespace LocalDriver

/-- A path below a directory, spelled out from it. -/
def descend (base : Path) (rest : List FileName) : Path := rest.foldl Path.push base

/-- A path that leads to names below the root. -/
structure LeadsTo (driver : LocalDriver) (path : Path) (found : List FileName) : Prop where
  sameRoot : path.absolute = driver.root.absolute
  sameStart : driver.root.depth ≠ 0 → path.startsHere = driver.root.startsHere
  steps : path.steps = driver.root.steps ++ found.map Component.normal

/-- What is appended to a path that has a component does not change how it starts. -/
theorem startsHere_join {path : Path} (deep : path.depth ≠ 0) (segments : List Segment) :
    (path.join segments).startsHere = path.startsHere := by
  unfold Path.startsHere Path.join
  dsimp only
  cases absolute : path.absolute with
  | true => rfl
  | false =>
      rcases split : path.segments with _ | ⟨first, _ | ⟨second, rest⟩⟩
      · simp [Path.depth, Path.steps, Path.startsHere, absolute, split] at deep
      · by_cases blank : first.text = []
        · simp [Path.depth, Path.steps, Path.startsHere, absolute, split, Segment.component, blank]
            at deep
        · simp [blank]
      · cases last : (first :: second :: rest).getLast? with
        | none => simp at last
        | some segment =>
            dsimp only
            by_cases blank : segment.text = []
            · rw [if_pos blank]
              rfl
            · rw [if_neg blank]
              rfl

theorem LeadsTo.depth {driver : LocalDriver} {path : Path} {found : List FileName}
    (leads : driver.LeadsTo path found) (deep : driver.root.depth ≠ 0) : path.depth ≠ 0 := by
  unfold Path.depth at deep ⊢
  rw [leads.sameRoot, leads.sameStart deep, leads.steps, List.length_append]
  omega

theorem LeadsTo.push {driver : LocalDriver} {path : Path} {found : List FileName}
    (leads : driver.LeadsTo path found) (name : FileName) :
    driver.LeadsTo (path.push name) (found ++ [name]) where
  sameRoot := leads.sameRoot
  sameStart deep := (startsHere_join (leads.depth deep) _).trans (leads.sameStart deep)
  steps := by
    rw [Path.steps_push, leads.steps, List.map_append, List.map_singleton, List.append_assoc]

theorem LeadsTo.descend {driver : LocalDriver} {path : Path} {found : List FileName}
    (leads : driver.LeadsTo path found) (rest : List FileName) :
    driver.LeadsTo (descend path rest) (found ++ rest) := by
  induction rest generalizing path found with
  | nil =>
      rw [List.append_nil]
      exact leads
  | cons name rest inductionHypothesis =>
      have deeper := inductionHypothesis (leads.push name)
      rw [List.append_assoc] at deeper
      exact deeper

theorem leadsTo_base (driver : LocalDriver) (keyPrefix : Option StorageKey) :
    driver.LeadsTo (driver.base keyPrefix) ((keyPrefix.map names).getD []) := by
  cases keyPrefix with
  | none => exact ⟨rfl, fun _ => rfl, by simp [base]⟩
  | some key =>
      exact ⟨rfl, fun deep => startsHere_join deep _, steps_resolveUnchecked driver key⟩

section Spelled

variable {driver : LocalDriver} {path : Path} {found : List FileName}

theorem filterMap_dropSteps (count : Nat) (segments : List Segment) :
    (Path.dropSteps count segments).filterMap Segment.component =
      (segments.filterMap Segment.component).drop count := by
  induction segments generalizing count with
  | nil => cases count <;> rfl
  | cons segment rest inductionHypothesis =>
      cases count with
      | zero => rfl
      | succ count =>
          rw [Path.dropSteps]
          cases component : segment.component with
          | none =>
              rw [if_pos (by simp [Path.isTrivial, component]), inductionHypothesis,
                List.filterMap_cons_none component]
          | some step =>
              rw [if_neg (by simp [Path.isTrivial, component]), inductionHypothesis,
                List.filterMap_cons_some component, List.drop_succ_cons]

theorem filterMap_trimStart (segments : List Segment) :
    (Path.trimStart segments).filterMap Segment.component =
      segments.filterMap Segment.component := by
  induction segments with
  | nil => rfl
  | cons segment rest inductionHypothesis =>
      rw [Path.trimStart, List.dropWhile_cons]
      split
      next trivial =>
        have skipped : segment.component = none := by simpa [Path.isTrivial] using trivial
        rw [List.filterMap_cons_none skipped]
        exact inductionHypothesis
      next => rfl

theorem relative_of_deep (leads : driver.LeadsTo path found) (deep : driver.root.depth ≠ 0) :
    relative driver.root path =
      ⟨false, Path.trimEnd (Path.trimStart
        (Path.dropSteps driver.root.steps.length path.segments))⟩ := by
  have isFront : driver.root.steps.isPrefixOf path.steps = true := by
    rw [List.isPrefixOf_iff_prefix, leads.steps]
    exact List.prefix_append _ _
  have starts : path.startsWith driver.root = true := by
    rw [Path.startsWith, leads.sameRoot, leads.sameStart deep, isFront]
    simp
  rw [relative, Path.stripPrefix, if_neg deep, if_pos starts]

/-- The path of a file, relative to the root, spells its names. -/
theorem relative_of_leadsTo (leads : driver.LeadsTo path found) :
    (relative driver.root path).absolute = false ∧
      (relative driver.root path).steps = found.map Component.normal := by
  by_cases top : driver.root.depth = 0
  · have shallow := top
    unfold Path.depth at shallow
    have none : driver.root.steps = [] := List.length_eq_zero_iff.mp (by omega)
    have absolute : driver.root.absolute = false := by
      by_contra isAbsolute
      simp [isAbsolute] at shallow
    rw [relative, Path.stripPrefix, if_pos top]
    dsimp only
    refine ⟨leads.sameRoot.trans absolute, ?_⟩
    rw [Path.steps, Path.filterMap_trimEnd]
    change path.steps = _
    rw [leads.steps, none, List.nil_append]
  · rw [relative_of_deep leads top]
    refine ⟨rfl, ?_⟩
    rw [Path.steps, Path.filterMap_trimEnd, filterMap_trimStart, filterMap_dropSteps]
    change path.steps.drop _ = _
    rw [leads.steps, List.drop_left]

/-- A file is listed under a key that names it, unless a backslash was read as a slash. -/
theorem names_of_keyText {key : StorageKey} (leads : driver.LeadsTo path found)
    (spelled : keyText driver.root path = key.text.toList) :
    found = names key ∨ ∃ name ∈ found, '\\' ∈ name.text := by
  obtain ⟨notAbsolute, steps⟩ := relative_of_leadsTo leads
  unfold keyText Path.text at spelled
  rw [notAbsolute] at spelled
  generalize relative driver.root path = rest at steps spelled
  by_cases plain : ∀ segment ∈ rest.segments, '\\' ∉ segment.text
  · left
    have same : ∀ char ∈ ['/'].intercalate (rest.segments.map Segment.text),
        (if char = '\\' then '/' else char) = char := by
      intro char member
      apply if_neg
      rintro rfl
      rcases Text.mem_of_mem_intercalate member with impossible | ⟨part, inParts, inPart⟩
      · cases impossible
      · obtain ⟨segment, present, rfl⟩ := List.mem_map.mp inParts
        exact plain segment present inPart
    have joined : ['/'].intercalate (rest.segments.map Segment.text) = key.text.toList := by
      rw [← spelled]
      simp only [Bool.false_eq_true, if_false, List.nil_append]
      conv_lhs => rw [← List.map_id (['/'].intercalate (rest.segments.map Segment.text))]
      exact (List.map_congr_left fun char member => (same char member)).symm
    have nonempty : rest.segments ≠ [] := by
      intro none
      rw [none] at joined
      exact (StorageKey.validate_eq_ok_iff.mp key.valid).1 joined.symm
    have segments : (keyPath key).map Segment.text = rest.segments.map Segment.text := by
      rw [keyPath, ← joined, Segment.map_text_split]
      apply List.splitOn_intercalate
      · intro part member
        obtain ⟨segment, _, rfl⟩ := List.mem_map.mp member
        exact segment.plain
      · simpa using nonempty
    have sameSegments : keyPath key = rest.segments := by
      apply List.map_injective_iff.mpr _ segments
      rintro ⟨first, _⟩ ⟨second, _⟩ equal
      cases equal
      rfl
    have keySteps := steps_keyPath key
    rw [sameSegments] at keySteps
    change rest.steps = _ at keySteps
    rw [steps] at keySteps
    exact List.map_injective_iff.mpr (fun _ _ => Component.normal.inj) keySteps
  · right
    push Not at plain
    obtain ⟨segment, present, backslash⟩ := plain
    cases component : segment.component with
    | none =>
        exfalso
        unfold Segment.component at component
        split at component
        next => cases component
        next improper =>
          split at component
          next => cases component
          next =>
            rcases eq_or_ne segment.text [] with blank | spelledOut
            · rw [blank] at backslash
              cases backslash
            · rcases eq_or_ne segment.text ['.'] with dot | other
              · rw [dot] at backslash
                simp at backslash
              · exact improper ⟨spelledOut, other, by assumption⟩
    | some step =>
        have member : step ∈ rest.steps := List.mem_filterMap.mpr ⟨segment, present, component⟩
        rw [steps] at member
        obtain ⟨name, inFound, rfl⟩ := List.mem_map.mp member
        refine ⟨name, inFound, ?_⟩
        unfold Segment.component at component
        split at component
        next =>
          cases component
          exact backslash
        next =>
          split at component
          next => cases component
          next => cases component

end Spelled

section Below

variable (driver : LocalDriver) (machine : Machine) (order : Tree.Order FileName) (now : Nat)
  (tree : Store)

/-- The path of names below the directory a listing starts from. -/
def pathOf (base : Path) (top : List FileName) (found : List FileName) : Path :=
  descend base (found.drop top.length)

theorem pathOf_append (base : Path) {top found : List FileName} (below : top <+: found)
    (name : FileName) : pathOf base top (found ++ [name]) = (pathOf base top found).push name := by
  obtain ⟨rest, rfl⟩ := below
  rw [pathOf, pathOf, List.append_assoc, List.drop_left, List.drop_left, descend, List.foldl_append]
  rfl

/-- What is listed for the file of some names. -/
def listed (keyPrefix : List Char) (base : Path) (top : List FileName) (found : List FileName) :
    Option ObjectMeta :=
  match tree.lookup found with
  | some (.file data modified) =>
      entryOf driver.root keyPrefix (pathOf base top found) ⟨false, data.length, modified⟩
  | _ => none

theorem metadata_push {path : Path} {found : List FileName} (here : driver.LeadsTo path found)
    (name : FileName) {node : Node (List UInt8)}
    (present : tree.lookup (found ++ [name]) = some node) :
    (driver.storage machine order now).metadata (path.push name) tree =
      (.ok (match node with
        | .file data modified => ⟨false, data.length, modified⟩
        | .dir modified => ⟨true, machine.dirLength, modified⟩), tree) := by
  have located := driver.locate_push machine name here.sameRoot here.steps
  unfold storage Mount.system Mount.nodeAt
  dsimp only
  rw [located]
  dsimp only
  rw [Tree.stat_eq_ok_iff.mpr present, asDirectory_push]
  cases node <;> rfl

variable {base : Path} {top : List FileName} (leads : driver.LeadsTo base top)

include leads

theorem leadsTo_pathOf {found : List FileName} (below : top <+: found) :
    driver.LeadsTo (pathOf base top found) found := by
  obtain ⟨rest, rfl⟩ := below
  rw [pathOf, List.drop_left]
  exact leads.descend rest

theorem readEntries_storage (keyPrefix : List Char) {above : List FileName} (below : top <+: above)
    {found : List FileName}
    (present : ∀ name ∈ found, ∃ node, tree.lookup (above ++ [name]) = some node) :
    readEntries (driver.storage machine order now) driver.root keyPrefix (pathOf base top above)
        found tree =
      ((((found.map (above ++ [·])).filter tree.isFile).filterMap
          (driver.listed tree keyPrefix base top),
        ((found.map (above ++ [·])).filter tree.isDir).map (pathOf base top)), tree) := by
  induction found with
  | nil => rfl
  | cons name rest inductionHypothesis =>
      obtain ⟨node, here⟩ := present name List.mem_cons_self
      have later := inductionHypothesis fun other member =>
        present other (List.mem_cons_of_mem _ member)
      have looked := driver.metadata_push machine order now tree
        (driver.leadsTo_pathOf leads below) name here
      rw [readEntries]
      dsimp only
      rw [looked]
      dsimp only
      rw [later, List.map_cons, List.filter_cons, List.filter_cons]
      cases node with
      | dir modified =>
          have isDir : tree.isDir (above ++ [name]) = true := Tree.isDir_iff.mpr ⟨_, here⟩
          have notFile : tree.isFile (above ++ [name]) = false := by rw [Tree.isFile, here]
          rw [isDir, notFile]
          simp only [if_true, Bool.false_eq_true, if_false, List.map_cons]
          rw [pathOf_append base below]
      | file data modified =>
          have notDir : tree.isDir (above ++ [name]) = false := Tree.isDir_of_file here
          have isFile : tree.isFile (above ++ [name]) = true :=
            Tree.isFile_iff.mpr ⟨_, _, here⟩
          rw [isFile, notDir]
          simp only [if_true, Bool.false_eq_true, if_false]
          have entry : driver.listed tree keyPrefix base top (above ++ [name]) =
              entryOf driver.root keyPrefix ((pathOf base top above).push name)
                ⟨false, data.length, modified⟩ := by
            rw [listed, here, pathOf_append base below]
          rw [List.filterMap_cons, entry]
          cases entryOf driver.root keyPrefix ((pathOf base top above).push name)
            ⟨false, data.length, modified⟩ <;> rfl

omit leads in
theorem isEmpty_descend {base : Path} (nonempty : base.isEmpty = false) (rest : List FileName) :
    (descend base rest).isEmpty = false := by
  induction rest generalizing base with
  | nil => exact nonempty
  | cons name rest inductionHypothesis => exact inductionHypothesis (isEmpty_push base name)

variable (nonempty : base.isEmpty = false)

include nonempty

theorem readDir_storage {above : List FileName} (below : top <+: above)
    (dir : tree.isDir above = true) :
    (driver.storage machine order now).readDir (pathOf base top above) tree =
      (.ok (order.arrange above (tree.children above)), tree) := by
  have here := driver.leadsTo_pathOf leads below
  have located : (driver.mount machine).locate (pathOf base top above) = some above :=
    driver.locate_of_steps machine (isEmpty_descend nonempty _) here.sameRoot here.steps
  obtain ⟨modified, present⟩ := Tree.isDir_iff.mp dir
  unfold storage Mount.system Mount.nodeAt
  dsimp only
  rw [located]
  dsimp only
  rw [Tree.stat_eq_ok_iff.mpr present]

/-- The listing lists what the visit of the tree reports. -/
theorem collectRecursive_storage (keyPrefix : List Char) (fuel : Nat)
    {stack : List (List FileName)}
    (dirs : ∀ above ∈ stack, top <+: above ∧ tree.isDir above = true) :
    collectRecursive (driver.storage machine order now) driver.root keyPrefix fuel
        (stack.map (pathOf base top)) tree =
      ((tree.visit order fuel stack).filterMap (driver.listed tree keyPrefix base top), tree) := by
  induction fuel generalizing stack with
  | zero => rfl
  | succ fuel inductionHypothesis =>
      cases stack with
      | nil => rfl
      | cons above stack =>
          obtain ⟨below, dir⟩ := dirs above List.mem_cons_self
          have opened := driver.readDir_storage machine order now tree leads nonempty below dir
          have present : ∀ name ∈ order.arrange above (tree.children above),
              ∃ node, tree.lookup (above ++ [name]) = some node := by
            intro name member
            rw [(order.perm _ _).mem_iff] at member
            exact Tree.mem_children_iff.mp member
          have entries := driver.readEntries_storage machine order now tree leads keyPrefix below
            present
          have whole : (order.arrange above (tree.children above)).map (above ++ [·]) =
              tree.found order above := rfl
          rw [whole] at entries
          have next : ∀ other ∈ ((tree.found order above).filter tree.isDir).reverse ++ stack,
              top <+: other ∧ tree.isDir other = true := by
            intro other member
            rcases List.mem_append.mp member with child | inStack
            · rw [List.mem_reverse, List.mem_filter] at child
              obtain ⟨name, rfl, _⟩ := Tree.mem_found_iff.mp child.1
              exact ⟨below.trans (List.prefix_append _ _), child.2⟩
            · exact dirs other (List.mem_cons_of_mem _ inStack)
          have later := inductionHypothesis next
          rw [List.map_append, List.map_reverse] at later
          rw [List.map_cons, collectRecursive, opened]
          dsimp only
          rw [entries]
          dsimp only
          rw [later, Tree.visit, if_pos dir, List.filterMap_append]

end Below

section Listed

variable (driver : LocalDriver) (machine : Machine) (order : Tree.Order FileName) (now : Nat)
  (tree : Store) (keyPrefix : Option StorageKey)

/-- The names of the directory a listing starts from. -/
def top (keyPrefix : Option StorageKey) : List FileName := (keyPrefix.map names).getD []

/-- The empty path is no directory. -/
def listable (tree : Store) : Bool :=
  !(driver.base keyPrefix).isEmpty && tree.isDir (top keyPrefix)

/-- The files a listing comes across. -/
def reached (fuel : Nat) : List (List FileName) :=
  if driver.listable keyPrefix tree then tree.visit order fuel [top keyPrefix] else []

theorem list_storage {fuel : Nat} :
    (driver.list (driver.storage machine order now) keyPrefix fuel tree).1.items =
      (driver.reached order tree keyPrefix fuel).filterMap
        (driver.listed tree (prefixText keyPrefix) (driver.base keyPrefix) (top keyPrefix)) := by
  have leads := driver.leadsTo_base keyPrefix
  unfold reached listable
  cases empty : (driver.base keyPrefix).isEmpty with
  | true =>
      have missing :
          (driver.mount machine).nodeAt tree (driver.base keyPrefix) = .error .noEntry := by
        rw [Mount.nodeAt, Mount.locate, empty]
        rfl
      unfold list System.exists? storage Mount.system
      dsimp only
      rw [missing]
      rfl
  | false =>
      have located : (driver.mount machine).locate (driver.base keyPrefix) = some (top keyPrefix) :=
        driver.locate_of_steps machine empty leads.sameRoot leads.steps
      cases dir : tree.isDir (top keyPrefix) with
      | true =>
          obtain ⟨modified, present⟩ := Tree.isDir_iff.mp dir
          have looked : (driver.storage machine order now).exists? (driver.base keyPrefix) tree =
              (true, tree) := by
            unfold System.exists? storage Mount.system Mount.nodeAt
            dsimp only
            rw [located]
            dsimp only
            rw [Tree.stat_eq_ok_iff.mpr present]
          have here : pathOf (driver.base keyPrefix) (top keyPrefix) (top keyPrefix) =
              driver.base keyPrefix := by
            rw [pathOf, List.drop_length]
            rfl
          have dirs : ∀ above ∈ [top keyPrefix], top keyPrefix <+: above ∧
              tree.isDir above = true := by
            intro above member
            rw [List.mem_singleton.mp member]
            exact ⟨List.prefix_refl _, dir⟩
          have collected := driver.collectRecursive_storage machine order now tree leads empty
            (prefixText keyPrefix) fuel dirs
          rw [List.map_singleton] at collected
          unfold top at here
          rw [top, here] at collected
          unfold list
          rw [looked]
          dsimp only
          rw [collected]
          rfl
      | false =>
          have nothing : ∀ fuel, (collectRecursive (driver.storage machine order now) driver.root
              (prefixText keyPrefix) fuel [driver.base keyPrefix] tree).1 = [] := by
            intro fuel
            cases fuel with
            | zero => rfl
            | succ fuel =>
                have refused : ∃ error, (driver.storage machine order now).readDir
                    (driver.base keyPrefix) tree = (.error error, tree) := by
                  unfold storage Mount.system Mount.nodeAt
                  dsimp only
                  rw [located]
                  dsimp only
                  cases stat : tree.stat (top keyPrefix) with
                  | error error => exact ⟨error, rfl⟩
                  | ok node =>
                      cases node with
                      | file data modified =>
                          cases (driver.base keyPrefix).asDirectory with
                          | true => exact ⟨_, rfl⟩
                          | false => exact ⟨_, rfl⟩
                      | dir modified =>
                          rw [Tree.isDir, Tree.stat_eq_ok_iff.mp stat] at dir
                          cases dir
                obtain ⟨error, refused⟩ := refused
                rw [collectRecursive, refused]
                cases fuel <;> rfl
          unfold list
          split
          next => rfl
          next next looked =>
            have same : next = tree := by
              unfold System.exists? storage Mount.system at looked
              dsimp only at looked
              split at looked <;> cases looked
              rfl
            subst same
            exact nothing fuel

variable {driver order tree keyPrefix} {fuel : Nat} (enough : tree.nodes.keys.length ≤ fuel)

include enough

/-- Every file below the directory is come across. -/
theorem mem_reached_iff {found : List FileName} :
    found ∈ driver.reached order tree keyPrefix fuel ↔
      (driver.base keyPrefix).isEmpty = false ∧ tree.isFile found = true ∧
        top keyPrefix <+: found ∧ found ≠ top keyPrefix := by
  unfold reached listable
  cases empty : (driver.base keyPrefix).isEmpty with
  | true => simp
  | false =>
      cases dir : tree.isDir (top keyPrefix) with
      | true =>
          rw [if_pos (by rfl), Tree.mem_visit_from enough dir]
          constructor
          · rintro ⟨isFile, below⟩
            refine ⟨rfl, isFile, below, ?_⟩
            rintro rfl
            rw [Tree.isFile_ne_isDir isFile] at dir
            cases dir
          · rintro ⟨_, isFile, below, _⟩
            exact ⟨isFile, below⟩
      | false =>
          rw [if_neg (by simp)]
          constructor
          · intro impossible
            cases impossible
          · rintro ⟨_, isFile, ⟨rest, rfl⟩, different⟩
            obtain ⟨_, _, present⟩ := Tree.isFile_iff.mp isFile
            have above := Tree.isDir_of_strictPrefix present (by
              rintro rfl
              exact different (List.append_nil _))
            rw [dir] at above
            cases above

theorem nodup_reached : (driver.reached order tree keyPrefix fuel).Nodup := by
  unfold reached
  split
  next isListable =>
    unfold listable at isListable
    rw [Bool.and_eq_true] at isListable
    exact Tree.nodup_visit_from enough isListable.2
  next => exact List.nodup_nil

end Listed

/-- Two lists without repetitions whose elements have the same values have them equally often. -/
theorem perm_filterMap {Element Value : Type} [DecidableEq Element] {first second : List Element}
    {value other : Element → Option Value} (firstNodup : first.Nodup) (secondNodup : second.Nodup)
    (same : ∀ element result, element ∈ first ∧ value element = some result ↔
      element ∈ second ∧ other element = some result) :
    (first.filterMap value).Perm (second.filterMap other) := by
  have kept : ∀ (list : List Element) (value : Element → Option Value),
      list.filterMap value =
        (list.filter fun element => (value element).isSome).filterMap value := by
    intro list value
    rw [List.filterMap_filter]
    apply List.filterMap_congr
    intro element _
    cases value element <;> simp
  have elements : (first.filter fun element => (value element).isSome).Perm
      (second.filter fun element => (other element).isSome) := by
    rw [List.perm_ext_iff_of_nodup (firstNodup.filter _) (secondNodup.filter _)]
    intro element
    rw [List.mem_filter, List.mem_filter, Option.isSome_iff_exists, Option.isSome_iff_exists]
    constructor
    · rintro ⟨member, result, present⟩
      obtain ⟨there, equal⟩ := (same element result).mp ⟨member, present⟩
      exact ⟨there, result, equal⟩
    · rintro ⟨member, result, present⟩
      obtain ⟨there, equal⟩ := (same element result).mpr ⟨member, present⟩
      exact ⟨there, result, equal⟩
  rw [kept first value, kept second other]
  apply (elements.filterMap value).trans
  rw [List.filterMap_congr]
  intro element member
  obtain ⟨inSecond, isSome⟩ := List.mem_filter.mp member
  obtain ⟨result, present⟩ := Option.isSome_iff_exists.mp isSome
  rw [present, ((same element result).mpr ⟨inSecond, present⟩).2]

end LocalDriver

end Picroom
