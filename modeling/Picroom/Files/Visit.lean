import Mathlib.Data.Finset.Card
import Picroom.Files.Tree

/-!
# Visiting a tree with a stack

A directory is taken from the stack, its files are reported and its directories are put on the
stack, in the order in which they are read.  Whatever that order is, the visit reports every file
below the directories it starts from, and each once.
-/

namespace Files

universe u v

namespace Tree

variable {Name : Type u} {Data : Type v} [DecidableEq Name]

def children (tree : Tree Name Data) (path : List Name) : List Name :=
  tree.nodes.keys.filterMap fun key =>
    if key.dropLast = path then key.getLast? else none

theorem mem_keys_iff {tree : Tree Name Data} {path : List Name} :
    path ∈ tree.nodes.keys ↔ ∃ node, tree.lookup path = some node := by
  rw [← AList.mem_keys, lookup, ← Option.isSome_iff_exists, AList.lookup_isSome]

theorem mem_children_iff {tree : Tree Name Data} {path : List Name} {name : Name} :
    name ∈ tree.children path ↔ ∃ node, tree.lookup (path ++ [name]) = some node := by
  rw [← mem_keys_iff, children, List.mem_filterMap]
  constructor
  · rintro ⟨key, member, read⟩
    split at read
    next same =>
      obtain ⟨front, rfl⟩ := List.getLast?_eq_some_iff.mp read
      rw [List.dropLast_concat] at same
      rwa [← same]
    next => cases read
  · intro member
    exact ⟨path ++ [name], member, by simp⟩

theorem nodup_children (tree : Tree Name Data) (path : List Name) : (tree.children path).Nodup := by
  apply List.Nodup.filterMap _ tree.nodes.nodupKeys
  intro first second name inFirst inSecond
  have read : ∀ key : List Name, (name ∈ if key.dropLast = path then key.getLast? else none) →
      key = path ++ [name] := by
    intro key isName
    split at isName
    next same =>
      obtain ⟨front, rfl⟩ := List.getLast?_eq_some_iff.mp isName
      rw [List.dropLast_concat] at same
      rw [same]
    next => cases isName
  rw [read first inFirst, read second inSecond]

/-- An order in which a directory is read. -/
structure Order (Name : Type u) where
  arrange : List Name → List Name → List Name
  perm : ∀ path names, (arrange path names).Perm names

def found (tree : Tree Name Data) (order : Order Name) (path : List Name) : List (List Name) :=
  (order.arrange path (tree.children path)).map (path ++ [·])

/-- The files a visit reports. -/
def visit (tree : Tree Name Data) (order : Order Name) : Nat → List (List Name) → List (List Name)
  | 0, _ => []
  | _ + 1, [] => []
  | fuel + 1, path :: stack =>
      if tree.isDir path then
        (tree.found order path).filter tree.isFile ++
          visit tree order fuel (((tree.found order path).filter tree.isDir).reverse ++ stack)
      else visit tree order fuel stack

section Visited

variable {tree : Tree Name Data} {order : Order Name}

/-- Directories none of which lies in another. -/
structure Apart (tree : Tree Name Data) (stack : List (List Name)) : Prop where
  dirs : ∀ path ∈ stack, tree.isDir path = true
  apart : stack.Pairwise fun first second => ¬ first <+: second ∧ ¬ second <+: first

/-- The nodes at or below the directories of a stack. -/
def covered (tree : Tree Name Data) (stack : List (List Name)) : Finset (List Name) :=
  {path ∈ tree.nodes.keys.toFinset | ∃ above ∈ stack, above <+: path}

theorem card_covered_le (stack : List (List Name)) :
    (tree.covered stack).card ≤ tree.nodes.keys.length :=
  (Finset.card_filter_le _ _).trans (List.toFinset_card_le _)

theorem mem_found_iff {path child : List Name} :
    child ∈ tree.found order path ↔
      ∃ name, child = path ++ [name] ∧ ∃ node, tree.lookup child = some node := by
  rw [found, List.mem_map]
  constructor
  · rintro ⟨name, member, rfl⟩
    rw [(order.perm _ _).mem_iff, mem_children_iff] at member
    exact ⟨name, rfl, member⟩
  · rintro ⟨name, rfl, present⟩
    refine ⟨name, ?_, rfl⟩
    rw [(order.perm _ _).mem_iff, mem_children_iff]
    exact present

theorem nodup_found (path : List Name) : (tree.found order path).Nodup := by
  apply List.Nodup.map
  · intro first second same
    simpa using same
  · rw [(order.perm _ _).nodup_iff]
    exact nodup_children tree path

theorem isFile_ne_isDir {path : List Name} (file : tree.isFile path = true) :
    tree.isDir path = false := by
  obtain ⟨data, modified, present⟩ := isFile_iff.mp file
  exact isDir_of_file present

/-- The stack after one directory has been read is still one of separate directories. -/
theorem Apart.next (order : Order Name) {path : List Name} {stack : List (List Name)}
    (apart : tree.Apart (path :: stack)) :
    tree.Apart (((tree.found order path).filter tree.isDir).reverse ++ stack) := by
  obtain ⟨fromPath, among⟩ := List.pairwise_cons.mp apart.apart
  constructor
  · intro other member
    rcases List.mem_append.mp member with child | later
    · rw [List.mem_reverse, List.mem_filter] at child
      exact child.2
    · exact apart.dirs other (List.mem_cons_of_mem _ later)
  · rw [List.pairwise_append]
    refine ⟨?_, among, ?_⟩
    · rw [List.pairwise_reverse]
      apply List.Pairwise.filter
      apply (nodup_found path).imp_of_mem
      intro first second inFirst inSecond different
      obtain ⟨firstName, rfl, _⟩ := mem_found_iff.mp inFirst
      obtain ⟨secondName, rfl, _⟩ := mem_found_iff.mp inSecond
      constructor
      · intro isFront
        exact different (isFront.eq_of_length (by simp)).symm
      · intro isFront
        exact different (isFront.eq_of_length (by simp))
    · intro child inChildren other inStack
      rw [List.mem_reverse, List.mem_filter] at inChildren
      obtain ⟨name, rfl, _⟩ := mem_found_iff.mp inChildren.1
      obtain ⟨notBelow, notAbove⟩ := fromPath other inStack
      constructor
      · exact fun isFront => notBelow ((List.prefix_append path [name]).trans isFront)
      · intro isFront
        rcases List.prefix_concat_iff.mp isFront with same | shorter
        · exact notBelow (same ▸ List.prefix_append path [name])
        · exact notAbove shorter

theorem card_covered_lt (order : Order Name) {path : List Name} {stack : List (List Name)}
    (apart : tree.Apart (path :: stack)) :
    (tree.covered (((tree.found order path).filter tree.isDir).reverse ++ stack)).card <
      (tree.covered (path :: stack)).card := by
  obtain ⟨fromPath, _⟩ := List.pairwise_cons.mp apart.apart
  apply Finset.card_lt_card
  rw [Finset.ssubset_iff_of_subset]
  · refine ⟨path, ?_, ?_⟩
    · obtain ⟨modified, present⟩ := isDir_iff.mp (apart.dirs path List.mem_cons_self)
      simp only [covered, Finset.mem_filter, List.mem_toFinset]
      exact ⟨mem_keys_iff.mpr ⟨_, present⟩, path, List.mem_cons_self, List.prefix_refl path⟩
    · simp only [covered, Finset.mem_filter, not_and]
      rintro _ ⟨above, member, isFront⟩
      rcases List.mem_append.mp member with child | later
      · rw [List.mem_reverse, List.mem_filter] at child
        obtain ⟨name, rfl, _⟩ := mem_found_iff.mp child.1
        have lengths := isFront.length_le
        rw [List.length_append, List.length_singleton] at lengths
        omega
      · exact (fromPath above later).2 isFront
  · intro other member
    simp only [covered, Finset.mem_filter] at member ⊢
    obtain ⟨present, above, inStack, isFront⟩ := member
    refine ⟨present, ?_⟩
    rcases List.mem_append.mp inStack with child | later
    · rw [List.mem_reverse, List.mem_filter] at child
      obtain ⟨name, rfl, _⟩ := mem_found_iff.mp child.1
      exact ⟨path, List.mem_cons_self, (List.prefix_append path [name]).trans isFront⟩
    · exact ⟨above, List.mem_cons_of_mem _ later, isFront⟩

/-- A file below a directory is one of its files or below one of its directories. -/
theorem below_iff (order : Order Name) {path file : List Name} (dir : tree.isDir path = true)
    (isFile : tree.isFile file = true) :
    path <+: file ↔ file ∈ tree.found order path ∨
      ∃ child ∈ tree.found order path, tree.isDir child = true ∧ child <+: file := by
  constructor
  · rintro ⟨rest, rfl⟩
    cases rest with
    | nil =>
        rw [List.append_nil] at isFile
        rw [isFile_ne_isDir isFile] at dir
        cases dir
    | cons name others =>
        obtain ⟨data, modified, present⟩ := isFile_iff.mp isFile
        cases others with
        | nil => exact Or.inl (mem_found_iff.mpr ⟨name, rfl, _, present⟩)
        | cons next rest =>
            have shift : path ++ name :: next :: rest = (path ++ [name]) ++ next :: rest := by simp
            rw [shift] at present
            have above := isDir_of_strictPrefix present (by simp)
            obtain ⟨_, found⟩ := isDir_iff.mp above
            exact Or.inr ⟨path ++ [name], mem_found_iff.mpr ⟨name, rfl, _, found⟩, above,
              ⟨next :: rest, shift.symm⟩⟩
  · rintro (direct | ⟨child, member, _, isFront⟩)
    · obtain ⟨name, rfl, _⟩ := mem_found_iff.mp direct
      exact List.prefix_append path [name]
    · obtain ⟨name, rfl, _⟩ := mem_found_iff.mp member
      exact (List.prefix_append path [name]).trans isFront

theorem mem_visit_iff {fuel : Nat} {stack : List (List Name)} (apart : tree.Apart stack)
    (enough : (tree.covered stack).card ≤ fuel) {file : List Name} :
    file ∈ tree.visit order fuel stack ↔
      tree.isFile file = true ∧ ∃ path ∈ stack, path <+: file := by
  induction fuel generalizing stack with
  | zero =>
      cases stack with
      | nil => simp [visit]
      | cons path stack =>
          have fewer := card_covered_lt order apart
          omega
  | succ fuel inductionHypothesis =>
      cases stack with
      | nil => simp [visit]
      | cons path stack =>
          have dir := apart.dirs path List.mem_cons_self
          have fewer := card_covered_lt order apart
          have later := inductionHypothesis (apart.next order) (by omega)
          rw [visit, if_pos dir]
          rw [List.mem_append, List.mem_filter, later]
          constructor
          · rintro (⟨direct, isFile⟩ | ⟨isFile, other, member, isFront⟩)
            · exact ⟨isFile, path, List.mem_cons_self,
                (below_iff order dir isFile).mpr (Or.inl direct)⟩
            · refine ⟨isFile, ?_⟩
              rcases List.mem_append.mp member with child | inStack
              · rw [List.mem_reverse, List.mem_filter] at child
                exact ⟨path, List.mem_cons_self,
                  (below_iff order dir isFile).mpr (Or.inr ⟨other, child.1, child.2, isFront⟩)⟩
              · exact ⟨other, List.mem_cons_of_mem _ inStack, isFront⟩
          · rintro ⟨isFile, other, member, isFront⟩
            rcases List.mem_cons.mp member with rfl | inStack
            · rcases (below_iff order dir isFile).mp isFront with
                direct | ⟨child, inChildren, isDir, front⟩
              · exact Or.inl ⟨direct, isFile⟩
              · refine Or.inr ⟨isFile, child, ?_, front⟩
                rw [List.mem_append, List.mem_reverse, List.mem_filter]
                exact Or.inl ⟨inChildren, isDir⟩
            · exact Or.inr ⟨isFile, other, List.mem_append_right _ inStack, isFront⟩

theorem nodup_visit {fuel : Nat} {stack : List (List Name)} (apart : tree.Apart stack)
    (enough : (tree.covered stack).card ≤ fuel) : (tree.visit order fuel stack).Nodup := by
  induction fuel generalizing stack with
  | zero => exact List.nodup_nil
  | succ fuel inductionHypothesis =>
      cases stack with
      | nil => exact List.nodup_nil
      | cons path stack =>
          have dir := apart.dirs path List.mem_cons_self
          have fewer := card_covered_lt order apart
          have next := apart.next order
          obtain ⟨fromPath, _⟩ := List.pairwise_cons.mp apart.apart
          rw [visit, if_pos dir]
          rw [List.nodup_append']
          refine ⟨(nodup_found path).filter _, inductionHypothesis next (by omega), ?_⟩
          intro file direct later
          obtain ⟨inFound, isFile⟩ := List.mem_filter.mp direct
          obtain ⟨name, rfl, _⟩ := mem_found_iff.mp inFound
          obtain ⟨_, above, member, isFront⟩ := (mem_visit_iff next (by omega)).mp later
          have notDir := isFile_ne_isDir isFile
          rcases List.prefix_concat_iff.mp isFront with same | shorter
          · rw [← same, next.dirs above member] at notDir
            cases notDir
          · rcases List.mem_append.mp member with child | inStack
            · rw [List.mem_reverse, List.mem_filter] at child
              obtain ⟨other, rfl, _⟩ := mem_found_iff.mp child.1
              have lengths := shorter.length_le
              rw [List.length_append, List.length_singleton] at lengths
              omega
            · exact (fromPath above inStack).2 shorter

/-- A visit from a directory reports the files below it. -/
theorem mem_visit_from {fuel : Nat} (enough : tree.nodes.keys.length ≤ fuel) {path : List Name}
    (dir : tree.isDir path = true) {file : List Name} :
    file ∈ tree.visit order fuel [path] ↔ tree.isFile file = true ∧ path <+: file := by
  rw [mem_visit_iff ⟨by simpa using dir, by simp⟩ ((card_covered_le _).trans enough)]
  simp

theorem nodup_visit_from {fuel : Nat} (enough : tree.nodes.keys.length ≤ fuel) {path : List Name}
    (dir : tree.isDir path = true) : (tree.visit order fuel [path]).Nodup :=
  nodup_visit ⟨by simpa using dir, by simp⟩ ((card_covered_le _).trans enough)

end Visited

end Tree

end Files
