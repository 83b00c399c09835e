import Mathlib.Logic.Basic

/-!
# Texts with separators

Fields that do not hold the separator can be read back from the text that joins them, so two
such texts are equal only when their fields are.
-/

namespace Text

universe u

variable {Symbol : Type u}

/-- A property of every symbol of a text, by the search `List.all` does. -/
theorem forall_mem_of_all {holds : Symbol → Prop} [DecidablePred holds] {text : List Symbol}
    (all : text.all (fun symbol => decide (holds symbol)) = true) :
    ∀ symbol ∈ text, holds symbol := by
  intro symbol member
  exact of_decide_eq_true (List.all_eq_true.mp all symbol member)

/-- The part before the first separator and the part after it. -/
theorem append_separator_inj {separator : Symbol} {first second rest other : List Symbol}
    (firstPlain : separator ∉ first) (secondPlain : separator ∉ second)
    (same : first ++ separator :: rest = second ++ separator :: other) :
    first = second ∧ rest = other := by
  induction first generalizing second with
  | nil =>
      cases second with
      | nil =>
          cases same
          exact ⟨rfl, rfl⟩
      | cons symbol symbols =>
          injection same with head _
          subst head
          exact absurd (List.mem_cons_self) secondPlain
  | cons symbol symbols inductionHypothesis =>
      cases second with
      | nil =>
          injection same with head _
          subst head
          exact absurd (List.mem_cons_self) firstPlain
      | cons other others =>
          injection same with head tail
          subst head
          rw [List.mem_cons, not_or] at firstPlain secondPlain
          obtain ⟨symbolsSame, restSame⟩ :=
            inductionHypothesis firstPlain.2 secondPlain.2 tail
          exact ⟨congrArg _ symbolsSame, restSame⟩

/-- The part before the last separator and the part after it. -/
theorem append_last_separator_inj {separator : Symbol} {first second rest other : List Symbol}
    (restPlain : separator ∉ rest) (otherPlain : separator ∉ other)
    (same : first ++ separator :: rest = second ++ separator :: other) :
    first = second ∧ rest = other := by
  have reversed : rest.reverse ++ separator :: first.reverse =
      other.reverse ++ separator :: second.reverse := by
    simpa using congrArg List.reverse same
  obtain ⟨rests, firsts⟩ := append_separator_inj (by simpa using restPlain)
    (by simpa using otherPlain) reversed
  exact ⟨List.reverse_inj.mp firsts, List.reverse_inj.mp rests⟩

theorem mem_of_mem_intercalate {separator symbol : Symbol} {parts : List (List Symbol)}
    (member : symbol ∈ [separator].intercalate parts) :
    symbol = separator ∨ ∃ part ∈ parts, symbol ∈ part := by
  induction parts with
  | nil => cases member
  | cons part rest inductionHypothesis =>
      cases rest with
      | nil => exact Or.inr ⟨part, by simp, by simpa using member⟩
      | cons next others =>
          rw [List.intercalate_cons_cons, List.mem_append, List.mem_append] at member
          rcases member with (inPart | isSeparator) | later
          · exact Or.inr ⟨part, by simp, inPart⟩
          · exact Or.inl (List.mem_singleton.mp isSeparator)
          · rcases inductionHypothesis later with same | ⟨other, present, inOther⟩
            · exact Or.inl same
            · exact Or.inr ⟨other, by simp [present], inOther⟩

theorem intercalate_append_singleton {separator : Symbol} {parts : List (List Symbol)}
    (nonempty : parts ≠ []) (last : List Symbol) :
    [separator].intercalate (parts ++ [last]) =
      [separator].intercalate parts ++ separator :: last := by
  induction parts with
  | nil => exact absurd rfl nonempty
  | cons part rest inductionHypothesis =>
      cases rest with
      | nil => simp [List.intercalate_cons_cons]
      | cons next others =>
          have later := inductionHypothesis (by simp)
          rw [List.cons_append] at later
          simp only [List.cons_append, List.intercalate_cons_cons, later, List.append_assoc]

/-- A part of a split text holds symbols of the text, and no separator. -/
theorem mem_of_mem_splitOnP {isSeparator : Symbol → Bool} {symbols part : List Symbol}
    (member : part ∈ symbols.splitOnP isSeparator) :
    ∀ symbol ∈ part, symbol ∈ symbols ∧ isSeparator symbol = false := by
  induction symbols generalizing part with
  | nil =>
      rw [List.splitOnP_nil, List.mem_singleton] at member
      simp [member]
  | cons first rest inductionHypothesis =>
      rw [List.splitOnP_cons_eq_if_modifyHead] at member
      split at member
      next =>
        rcases List.mem_cons.mp member with rfl | later
        · simp
        · intro symbol inPart
          obtain ⟨inRest, plain⟩ := inductionHypothesis later symbol inPart
          exact ⟨List.mem_cons_of_mem first inRest, plain⟩
      next ordinary =>
        have nonempty := List.splitOnP_ne_nil isSeparator rest
        obtain ⟨head, tail, split⟩ := List.exists_cons_of_ne_nil nonempty
        rw [split, List.modifyHead_cons] at member
        intro symbol inPart
        rcases List.mem_cons.mp member with rfl | later
        · rcases List.mem_cons.mp inPart with rfl | inHead
          · exact ⟨List.mem_cons_self, by simpa using ordinary⟩
          · have headMember : head ∈ rest.splitOnP isSeparator := by simp [split]
            obtain ⟨inRest, plain⟩ := inductionHypothesis headMember symbol inHead
            exact ⟨List.mem_cons_of_mem first inRest, plain⟩
        · have tailMember : part ∈ rest.splitOnP isSeparator := by simp [split, later]
          obtain ⟨inRest, plain⟩ := inductionHypothesis tailMember symbol inPart
          exact ⟨List.mem_cons_of_mem first inRest, plain⟩

theorem sublist_of_mem_splitOnP {isSeparator : Symbol → Bool} {symbols part : List Symbol}
    (member : part ∈ symbols.splitOnP isSeparator) : part.Sublist symbols := by
  induction symbols generalizing part with
  | nil =>
      rw [List.splitOnP_nil, List.mem_singleton] at member
      exact member ▸ List.Sublist.slnil
  | cons first rest inductionHypothesis =>
      rw [List.splitOnP_cons_eq_if_modifyHead] at member
      split at member
      next =>
        rcases List.mem_cons.mp member with rfl | later
        · exact List.nil_sublist _
        · exact (inductionHypothesis later).cons first
      next =>
        have nonempty := List.splitOnP_ne_nil isSeparator rest
        obtain ⟨head, tail, split⟩ := List.exists_cons_of_ne_nil nonempty
        rw [split, List.modifyHead_cons] at member
        rcases List.mem_cons.mp member with rfl | later
        · exact (inductionHypothesis (by simp [split])).cons_cons first
        · exact (inductionHypothesis (by simp [split, later])).cons first

/-- A symbol that is not kept ends the kept symbols before it. -/
theorem takeWhile_append_stop {keeps : Symbol → Bool} {stop : Symbol} (stops : keeps stop = false)
    (symbols rest : List Symbol) :
    (symbols ++ stop :: rest).takeWhile keeps = symbols.takeWhile keeps := by
  induction symbols with
  | nil => rw [List.nil_append, List.takeWhile_cons_of_neg (by simp [stops]), List.takeWhile_nil]
  | cons symbol symbols inductionHypothesis =>
      rw [List.cons_append, List.takeWhile_cons, List.takeWhile_cons, inductionHypothesis]

theorem dropWhile_append_stop {keeps : Symbol → Bool} {stop : Symbol} (stops : keeps stop = false)
    (symbols rest : List Symbol) :
    (symbols ++ stop :: rest).dropWhile keeps = symbols.dropWhile keeps ++ stop :: rest := by
  induction symbols with
  | nil => rw [List.nil_append, List.dropWhile_cons_of_neg (by simp [stops]), List.dropWhile_nil,
      List.nil_append]
  | cons symbol symbols inductionHypothesis =>
      rw [List.cons_append, List.dropWhile_cons, List.dropWhile_cons, inductionHypothesis]
      split <;> rfl

/-- Nothing is dropped from a text whose ends are kept. -/
theorem dropWhile_ends {drops : Symbol → Bool} {symbols : List Symbol}
    (head : ∀ symbol, symbols.head? = some symbol → drops symbol = false)
    (last : ∀ symbol, symbols.getLast? = some symbol → drops symbol = false) :
    ((symbols.dropWhile drops).reverse.dropWhile drops).reverse = symbols := by
  have front : symbols.dropWhile drops = symbols := by
    cases symbols with
    | nil => rfl
    | cons symbol rest => exact List.dropWhile_cons_of_neg (by simp [head symbol rfl])
  have back : symbols.reverse.dropWhile drops = symbols.reverse := by
    cases reversed : symbols.reverse with
    | nil => rfl
    | cons symbol rest =>
        have isLast : symbols.getLast? = some symbol := by
          rw [← List.head?_reverse, reversed]
          rfl
        exact List.dropWhile_cons_of_neg (by simp [last symbol isLast])
  rw [front, back, List.reverse_reverse]

variable [DecidableEq Symbol]

/-- Joined parts that are not empty and do not hold the separator determine the parts. -/
theorem intercalate_inj {separator : Symbol} {parts others : List (List Symbol)}
    (partsPlain : ∀ part ∈ parts, part ≠ [] ∧ separator ∉ part)
    (othersPlain : ∀ part ∈ others, part ≠ [] ∧ separator ∉ part)
    (same : [separator].intercalate parts = [separator].intercalate others) :
    parts = others := by
  have read : ∀ list : List (List Symbol), (∀ part ∈ list, part ≠ [] ∧ separator ∉ part) →
      list ≠ [] → ([separator].intercalate list).splitOn separator = list := by
    intro list plain nonempty
    exact List.splitOn_intercalate separator (fun part member => (plain part member).2) nonempty
  have joined : ∀ list : List (List Symbol), (∀ part ∈ list, part ≠ [] ∧ separator ∉ part) →
      [separator].intercalate list = [] → list = [] := by
    intro list plain empty
    cases list with
    | nil => rfl
    | cons part rest =>
        have split := read (part :: rest) plain (by simp)
        rw [empty] at split
        have alone : part = [] := by
          injection split with head _
          exact head.symm
        exact absurd alone (plain part (by simp)).1
  by_cases nonempty : parts = []
  · rw [nonempty, List.intercalate_nil] at same
    rw [nonempty, joined others othersPlain same.symm]
  · have otherNonempty : others ≠ [] := by
      rintro rfl
      rw [List.intercalate_nil] at same
      exact nonempty (joined parts partsPlain same)
    rw [← read parts partsPlain nonempty, same, read others othersPlain otherNonempty]

end Text
