import Mathlib.Data.List.Infix

/-!
# Searching texts with tags

A tag is found at its first occurrence in a text.  A text is closed when each `<` in it has its
`>`: then no tag begins in the text and ends behind it, and a search passes over the text as over
one piece.
-/

namespace Text

/-- `str::find` and the slices around what is found. -/
def splitOnce (needle : List Char) : List Char → Option (List Char × List Char)
  | [] => if needle = [] then some ([], []) else none
  | char :: rest =>
      if needle.isPrefixOf (char :: rest) then some ([], (char :: rest).drop needle.length)
      else (splitOnce needle rest).map fun parts => (char :: parts.1, parts.2)

def tag (name : List Char) : List Char := '<' :: (name ++ ['>'])

/-- Each `<` is followed by a `>`. -/
def Closed : List Char → Prop
  | [] => True
  | char :: rest => (char = '<' → '>' ∈ rest) ∧ Closed rest

instance decidableClosed : (text : List Char) → Decidable (Closed text)
  | [] => isTrue trivial
  | char :: rest =>
      have := decidableClosed rest
      inferInstanceAs (Decidable ((char = '<' → '>' ∈ rest) ∧ Closed rest))

theorem closed_of_not_mem {text : List Char} (plain : '<' ∉ text) : Closed text := by
  induction text with
  | nil => trivial
  | cons char rest inductionHypothesis =>
      rw [List.mem_cons, not_or] at plain
      exact ⟨fun same => absurd same.symm plain.1, inductionHypothesis plain.2⟩

theorem Closed.append {first second : List Char} (firstClosed : Closed first)
    (secondClosed : Closed second) : Closed (first ++ second) := by
  induction first with
  | nil => exact secondClosed
  | cons char rest inductionHypothesis =>
      refine ⟨fun same => ?_, inductionHypothesis firstClosed.2⟩
      exact List.mem_append_left second (firstClosed.1 same)

theorem closed_tag {name : List Char} (plain : '<' ∉ name) : Closed (tag name) := by
  refine ⟨fun _ => by simp, ?_⟩
  apply closed_of_not_mem
  simp [plain]

section Search

variable {name : List Char}

theorem splitOnce_tag_append (name rest : List Char) :
    splitOnce (tag name) (tag name ++ rest) = some ([], rest) := by
  have here : (tag name).isPrefixOf (tag name ++ rest) = true :=
    List.isPrefixOf_iff_prefix.mpr (List.prefix_append _ _)
  have dropped : (tag name ++ rest).drop (tag name).length = rest := List.drop_left
  unfold tag at here dropped ⊢
  rw [List.cons_append] at here dropped ⊢
  rw [splitOnce, if_pos here, dropped]

/-- A tag that begins in a closed text ends in it. -/
theorem tag_prefix_of_append {text rest : List Char} {char : Char} (proper : '>' ∉ name)
    (closed : Closed (char :: text)) (found : tag name <+: char :: (text ++ rest)) :
    tag name <+: char :: text := by
  obtain ⟨same, inside⟩ := List.cons_prefix_cons.mp found
  have ends := closed.1 same.symm
  rw [tag, List.cons_prefix_cons]
  refine ⟨same, ?_⟩
  rcases List.prefix_or_prefix_of_prefix inside (List.prefix_append text rest) with shorter | longer
  · exact shorter
  · rcases List.prefix_concat_iff.mp longer with whole | part
    · rw [whole]
    · exact absurd (part.subset ends) proper

/-- A search passes over a closed text without the tag. -/
theorem splitOnce_append {front : List Char} (proper : '>' ∉ name) (closed : Closed front)
    (absent : splitOnce (tag name) front = none) (rest : List Char) :
    splitOnce (tag name) (front ++ rest) =
      (splitOnce (tag name) rest).map fun parts => (front ++ parts.1, parts.2) := by
  induction front with
  | nil => simp
  | cons char front inductionHypothesis =>
      rw [splitOnce] at absent
      split at absent
      next => cases absent
      next notHere =>
        have notBefore : ¬ (tag name).isPrefixOf (char :: (front ++ rest)) = true := by
          intro found
          apply notHere
          rw [List.isPrefixOf_iff_prefix] at found ⊢
          exact tag_prefix_of_append proper closed found
        rw [List.cons_append, splitOnce, if_neg notBefore,
          inductionHypothesis closed.2 (Option.map_eq_none_iff.mp absent), Option.map_map]
        rfl

theorem splitOnce_eq_none {text : List Char} (plain : '<' ∉ text) :
    splitOnce (tag name) text = none := by
  induction text with
  | nil => rfl
  | cons char rest inductionHypothesis =>
      rw [List.mem_cons, not_or] at plain
      have notHere : ¬ (tag name).isPrefixOf (char :: rest) = true := by
        rw [List.isPrefixOf_iff_prefix, tag, List.cons_prefix_cons]
        exact fun found => plain.1 found.1
      rw [splitOnce, if_neg notHere, inductionHypothesis plain.2, Option.map_none]

/-- The first occurrence of a tag is behind a closed text without it. -/
theorem splitOnce_found {front : List Char} (proper : '>' ∉ name) (closed : Closed front)
    (absent : splitOnce (tag name) front = none) (rest : List Char) :
    splitOnce (tag name) (front ++ (tag name ++ rest)) = some (front, rest) := by
  rw [splitOnce_append proper closed absent, splitOnce_tag_append, Option.map_some,
    List.append_nil]

/-- A tag is not inside another one. -/
theorem splitOnce_other {other : List Char} (different : other ≠ name) (plain : '<' ∉ other)
    (otherProper : '>' ∉ other) : splitOnce (tag name) (tag other) = none := by
  have notHere : ¬ (tag name).isPrefixOf (tag other) = true := by
    rw [List.isPrefixOf_iff_prefix, tag, tag, List.cons_prefix_cons]
    rintro ⟨-, found⟩
    rcases List.prefix_concat_iff.mp found with whole | part
    · exact different (List.append_cancel_right whole).symm
    · exact otherProper (part.subset (by simp))
  have later : splitOnce (tag name) (other ++ ['>']) = none :=
    splitOnce_eq_none (by simp [plain])
  unfold tag at notHere later ⊢
  rw [splitOnce, if_neg notHere, later, Option.map_none]

/-- What is behind the first occurrence of a tag is shorter than the text. -/
theorem length_lt_of_splitOnce {text front rest : List Char}
    (found : splitOnce (tag name) text = some (front, rest)) : rest.length < text.length := by
  induction text generalizing front with
  | nil => cases found
  | cons char text inductionHypothesis =>
      rw [splitOnce] at found
      split at found
      next =>
        injection found with parts
        injection parts with _ same
        have positive : 0 < (tag name).length := Nat.zero_lt_succ _
        rw [← same, List.length_drop, List.length_cons]
        omega
      next =>
        obtain ⟨⟨before, after⟩, inner, same⟩ := Option.map_eq_some_iff.mp found
        cases same
        exact Nat.lt_succ_of_lt (inductionHypothesis inner)

/-- A search for the tag passes over the text. -/
def Skipped (name text : List Char) : Prop := Closed text ∧ splitOnce (tag name) text = none

instance (name text : List Char) : Decidable (Skipped name text) :=
  inferInstanceAs (Decidable (_ ∧ _))

theorem skipped_of_plain {text : List Char} (plain : '<' ∉ text) : Skipped name text :=
  ⟨closed_of_not_mem plain, splitOnce_eq_none plain⟩

theorem Skipped.append {first second : List Char} (proper : '>' ∉ name)
    (firstSkipped : Skipped name first) (secondSkipped : Skipped name second) :
    Skipped name (first ++ second) := by
  refine ⟨firstSkipped.1.append secondSkipped.1, ?_⟩
  rw [splitOnce_append proper firstSkipped.1 firstSkipped.2, secondSkipped.2, Option.map_none]

/-- `<name>text</name>`. -/
def element (name text : List Char) : List Char := tag name ++ (text ++ tag ('/' :: name))

theorem Skipped.element {other text : List Char} (proper : '>' ∉ name)
    (plain : '<' ∉ other ∧ '>' ∉ other) (different : other ≠ name ∧ '/' :: other ≠ name)
    (inside : Skipped name text) : Skipped name (element other text) := by
  have opening : Skipped name (tag other) :=
    ⟨closed_tag plain.1, splitOnce_other different.1 plain.1 plain.2⟩
  have closing : Skipped name (tag ('/' :: other)) :=
    ⟨closed_tag (by simp [plain.1]),
      splitOnce_other different.2 (by simp [plain.1]) (by simp [plain.2])⟩
  exact opening.append proper (inside.append proper closing)

/-- The content of the first element of a name. -/
theorem splitOnce_element {front text : List Char} (proper : '>' ∉ name)
    (before : Skipped name front) (inside : Skipped ('/' :: name) text) (rest : List Char) :
    splitOnce (tag name) (front ++ (element name text ++ rest)) =
        some (front, text ++ (tag ('/' :: name) ++ rest)) ∧
      splitOnce (tag ('/' :: name)) (text ++ (tag ('/' :: name) ++ rest)) = some (text, rest) := by
  constructor
  · rw [Text.element, List.append_assoc, List.append_assoc]
    exact splitOnce_found proper before.1 before.2 _
  · exact splitOnce_found (by simp [proper]) inside.1 inside.2 rest

end Search

section Trim

/-- `char::is_whitespace`. -/
def isWhitespace (char : Char) : Bool :=
  let code := char.toNat
  (9 ≤ code && code ≤ 13) || code == 0x20 || code == 0x85 || code == 0xA0 || code == 0x1680 ||
    (0x2000 ≤ code && code ≤ 0x200A) || code == 0x2028 || code == 0x2029 || code == 0x202F ||
    code == 0x205F || code == 0x3000

/-- `str::trim`. -/
def trimmed (text : List Char) : List Char :=
  ((text.dropWhile isWhitespace).reverse.dropWhile isWhitespace).reverse

/-- Whitespace surrounds no part of the text. -/
def Trimmed (text : List Char) : Prop :=
  text.head?.all (!isWhitespace ·) = true ∧ text.getLast?.all (!isWhitespace ·) = true

instance (text : List Char) : Decidable (Trimmed text) := inferInstanceAs (Decidable (_ ∧ _))

theorem dropWhile_of_head {text : List Char} (start : text.head?.all (!isWhitespace ·) = true) :
    text.dropWhile isWhitespace = text := by
  cases text with
  | nil => rfl
  | cons char rest =>
      have visible : isWhitespace char = false := by simpa using start
      rw [List.dropWhile_cons, if_neg (by simp [visible])]

theorem head_dropWhile (text : List Char) :
    (text.dropWhile isWhitespace).head?.all (!isWhitespace ·) = true := by
  induction text with
  | nil => rfl
  | cons char rest inductionHypothesis =>
      rw [List.dropWhile_cons]
      split
      next => exact inductionHypothesis
      next visible => simpa using visible

/-- Whitespace around a text is removed, and nothing else. -/
theorem trimmed_surrounded {before text after : List Char}
    (beforeBlank : ∀ char ∈ before, isWhitespace char = true)
    (afterBlank : ∀ char ∈ after, isWhitespace char = true) (visible : Trimmed text) :
    trimmed (before ++ (text ++ after)) = text := by
  have ends : text.reverse.head?.all (!isWhitespace ·) = true := by
    rw [List.head?_reverse]
    exact visible.2
  rw [trimmed, List.dropWhile_append_of_pos beforeBlank]
  cases text with
  | nil =>
      have nothing : (after ++ []).dropWhile isWhitespace = [] :=
        List.dropWhile_append_of_pos afterBlank
      rw [List.append_nil] at nothing
      rw [List.nil_append, nothing]
      rfl
  | cons char rest =>
      have start : (char :: rest ++ after).head?.all (!isWhitespace ·) = true := visible.1
      rw [dropWhile_of_head start, List.reverse_append, List.dropWhile_append_of_pos,
        dropWhile_of_head ends, List.reverse_reverse]
      intro other member
      exact afterBlank other (List.mem_reverse.mp member)

theorem trimmed_eq {text : List Char} (visible : Trimmed text) : trimmed text = text := by
  have blank : ∀ char ∈ ([] : List Char), isWhitespace char = true := by simp
  have same := trimmed_surrounded blank blank visible
  rwa [List.nil_append, List.append_nil] at same

theorem trimmed_visible (text : List Char) : Trimmed (trimmed text) := by
  have front := head_dropWhile text
  have back := head_dropWhile (text.dropWhile isWhitespace).reverse
  constructor
  · have initial : trimmed text <+: text.dropWhile isWhitespace := by
      rw [← List.reverse_suffix, trimmed, List.reverse_reverse]
      exact List.dropWhile_suffix isWhitespace
    obtain ⟨rest, whole⟩ := initial
    rw [← whole] at front
    cases start : trimmed text with
    | nil => rfl
    | cons char chars =>
        rw [start] at front
        exact front
  · rw [trimmed, List.getLast?_reverse]
    exact back

theorem visible_of_all {text : List Char} (all : ∀ char ∈ text, isWhitespace char = false) :
    Trimmed text := by
  constructor
  · cases start : text.head? with
    | none => rfl
    | some char => simp [all char (List.mem_of_mem_head? start)]
  · cases finish : text.getLast? with
    | none => rfl
    | some char => simp [all char (List.mem_of_getLast? finish)]

end Trim

end Text
