import Picroom.Domain.Entity
import Picroom.Text.Separated

/-!
# The keys of an image

An original is stored under `img/{id}.bin`, a variant under `img/{id}/{name}`.  Both texts
are valid storage keys for every id, and keys of different images, or an original and a
variant, never coincide.
-/

namespace Picroom

namespace StorageKey

@[ext]
theorem ext {first second : StorageKey} (same : first.text = second.text) : first = second := by
  cases first
  cases second
  cases same
  rfl

theorem validate_eq_ok_iff {text : String} :
    validate text = .ok () ↔
      text.toList ≠ [] ∧ text.utf8ByteSize ≤ maxLen ∧ text.toList.head? ≠ some '/' ∧
        ['.', '.'] ∉ segments text.toList ∧ ∀ char ∈ text.toList, validChar char = true := by
  unfold validate
  cases invalid : text.toList.find? (!validChar ·) with
  | none =>
      have valid : ∀ char ∈ text.toList, validChar char = true := by
        intro char member
        simpa using List.find?_eq_none.mp invalid char member
      split_ifs <;> simp_all
  | some char =>
      have refused : ¬ ∀ char ∈ text.toList, validChar char = true := by
        intro valid
        have bad := List.find?_some invalid
        simp [valid char (List.mem_of_find?_eq_some invalid)] at bad
      split_ifs <;> simp_all

theorem text_of_parse {text : String} {key : StorageKey} (parsed : parse text = .ok key) :
    key.text = text := by
  unfold parse at parsed
  split at parsed
  next =>
    cases parsed
    rfl
  next => cases parsed

theorem parse_eq_ok {text : String} (valid : validate text = .ok ()) :
    parse text = .ok ⟨text, valid⟩ := by
  unfold parse
  split
  next => rfl
  next error invalid =>
    rw [valid] at invalid
    cases invalid

@[simp]
theorem parse_text (key : StorageKey) : parse key.text = .ok key := parse_eq_ok key.valid

theorem byteSize_ofList_le (chars : List Char) :
    (String.ofList chars).utf8ByteSize ≤ 4 * chars.length := by
  induction chars with
  | nil => simp
  | cons char rest inductionHypothesis =>
      have size := Char.utf8Size_le_four char
      rw [String.ofList_cons, String.utf8ByteSize_append, String.utf8ByteSize_singleton,
        List.length_cons]
      omega

theorem segmentChars_of_all {part : List Char}
    (all : part.all (fun char => validChar char && char != '/') = true) :
    ∀ char ∈ part, validChar char = true ∧ char ≠ '/' := by
  intro char member
  simpa using List.all_eq_true.mp all char member

/-- Joining plain segments gives a valid key. -/
theorem validate_join {first : List Char} {rest : List (List Char)} (nonempty : first ≠ [])
    (short : (['/'].intercalate (first :: rest)).length ≤ 256)
    (chars : ∀ part ∈ first :: rest, ∀ char ∈ part, validChar char = true ∧ char ≠ '/')
    (plain : ['.', '.'] ∉ first :: rest) :
    validate (String.ofList (['/'].intercalate (first :: rest))) = .ok () := by
  have split : segments (['/'].intercalate (first :: rest)) = first :: rest := by
    apply List.splitOn_intercalate
    · exact fun part member slash => (chars part member '/' slash).2 rfl
    · simp
  obtain ⟨char, others, rfl⟩ := List.exists_cons_of_ne_nil nonempty
  have head : (['/'].intercalate ((char :: others) :: rest)).head? = some char := by
    cases rest with
    | nil => simp
    | cons next rest => simp [List.intercalate_cons_cons]
  have bytes := byteSize_ofList_le (['/'].intercalate ((char :: others) :: rest))
  rw [validate_eq_ok_iff, String.toList_ofList, split, head]
  refine ⟨?_, ?_, ?_, plain, ?_⟩
  · intro empty
    rw [empty] at head
    cases head
  · simp only [maxLen]
    omega
  · simpa using (chars (char :: others) (by simp) char (by simp)).2
  · intro other member
    rcases Text.mem_of_mem_intercalate member with rfl | ⟨part, present, inPart⟩
    · decide
    · exact (chars part present other inPart).1

end StorageKey

namespace Uuid

theorem mem_hexText {width value : Nat} {char : Char} (member : char ∈ hexText width value) :
    char.isAlphanum = true := by
  induction width generalizing value with
  | zero => cases member
  | succ width inductionHypothesis =>
      rw [hexText, List.mem_append, List.mem_singleton] at member
      rcases member with earlier | rfl
      · exact inductionHypothesis earlier
      · have digit : value % 16 < 16 := Nat.mod_lt value (by decide)
        interval_cases value % 16 <;> decide

theorem mem_hyphenate {digits : List Char} {char : Char} (member : char ∈ hyphenate digits) :
    char = '-' ∨ char ∈ digits := by
  simp only [hyphenate, List.mem_append, List.mem_cons] at member
  have taken : ∀ {start count}, char ∈ (digits.drop start).take count → char ∈ digits :=
    fun present => List.mem_of_mem_drop (List.mem_of_mem_take present)
  rcases member with first | rfl | second | rfl | third | rfl | fourth | rfl | fifth
  · exact Or.inr (List.mem_of_mem_take first)
  · exact Or.inl rfl
  · exact Or.inr (taken second)
  · exact Or.inl rfl
  · exact Or.inr (taken third)
  · exact Or.inl rfl
  · exact Or.inr (taken fourth)
  · exact Or.inl rfl
  · exact Or.inr (List.mem_of_mem_drop fifth)

theorem mem_toText {id : Uuid} {char : Char} (member : char ∈ id.toText.toList) :
    char = '-' ∨ char.isAlphanum = true := by
  rw [toText, String.toList_ofList] at member
  rcases mem_hyphenate member with hyphen | digit
  · exact Or.inl hyphen
  · exact Or.inr (mem_hexText digit)

theorem length_toText (id : Uuid) : id.toText.toList.length = 36 := by
  rw [toText, String.toList_ofList, length_hyphenate (length_hexText _ _)]

end Uuid

def originalText (id : Uuid) : String := "img/" ++ id.toText ++ ".bin"

def variantText (id : Uuid) (name : String) : String := "img/" ++ id.toText ++ "/" ++ name

theorem validate_originalText (id : Uuid) : StorageKey.validate (originalText id) = .ok () := by
  have length := Uuid.length_toText id
  have joined : originalText id =
      String.ofList (['/'].intercalate ["img".toList, id.toText.toList ++ ".bin".toList]) := by
    rw [← String.toList_inj]
    simp [originalText]
  rw [joined]
  apply StorageKey.validate_join
  · simp
  · simp only [List.intercalate_cons_cons, List.intercalate_singleton, List.length_append, length]
    decide
  · simp only [List.mem_cons, List.not_mem_nil, or_false, forall_eq_or_imp, forall_eq,
      List.mem_append]
    refine ⟨StorageKey.segmentChars_of_all (by decide), ?_⟩
    rintro char (inId | inSuffix)
    · rcases Uuid.mem_toText inId with rfl | alphanumeric
      · decide
      · refine ⟨by simp [StorageKey.validChar, alphanumeric], ?_⟩
        rintro rfl
        exact absurd alphanumeric (by decide)
    · exact StorageKey.segmentChars_of_all (by decide) char inSuffix
  · have long : 2 < (id.toText.toList ++ ".bin".toList).length := by
      rw [List.length_append, length]
      decide
    simp only [List.mem_cons, List.not_mem_nil, or_false, not_or]
    refine ⟨by decide, fun same => ?_⟩
    rw [← same] at long
    exact absurd long (by decide)

/-- The key of an original. -/
def originalKey (id : Uuid) : StorageKey := ⟨originalText id, validate_originalText id⟩

@[simp]
theorem parse_originalText (id : Uuid) :
    StorageKey.parse (originalText id) = .ok (originalKey id) :=
  StorageKey.parse_eq_ok _

theorem originalKey_injective : Function.Injective originalKey := by
  intro first second same
  have texts : originalText first = originalText second := congrArg StorageKey.text same
  simp only [originalText, ← String.toList_inj, String.toList_append, List.append_left_inj,
    List.append_right_inj] at texts
  exact Uuid.toText_injective (String.toList_inj.mp texts)

/-- No variant is stored where an original is. -/
theorem originalText_ne_variantText (id other : Uuid) (name : String) :
    originalText id ≠ variantText other name := by
  intro same
  simp only [originalText, variantText, ← String.toList_inj, String.toList_append,
    List.append_assoc, List.append_right_inj] at same
  have tails := (List.append_inj same ((Uuid.length_toText id).trans
    (Uuid.length_toText other).symm)).2
  simp at tails

theorem variantText_inj {id other : Uuid} {name otherName : String} :
    variantText id name = variantText other otherName ↔ id = other ∧ name = otherName := by
  constructor
  · intro same
    simp only [variantText, ← String.toList_inj, String.toList_append, List.append_assoc,
      List.append_right_inj] at same
    obtain ⟨sameId, sameTail⟩ := List.append_inj same
      ((Uuid.length_toText id).trans (Uuid.length_toText other).symm)
    refine ⟨Uuid.toText_injective (String.toList_inj.mp sameId), ?_⟩
    rwa [List.append_right_inj, String.toList_inj] at sameTail
  · rintro ⟨rfl, rfl⟩
    rfl

theorem segmentChars_toText (id : Uuid) :
    ∀ char ∈ id.toText.toList, StorageKey.validChar char = true ∧ char ≠ '/' := by
  intro char member
  rcases Uuid.mem_toText member with rfl | alphanumeric
  · decide
  · refine ⟨by simp [StorageKey.validChar, alphanumeric], ?_⟩
    rintro rfl
    exact absurd alphanumeric (by decide)

theorem validate_variantText (id : Uuid) {name : String}
    (chars : ∀ char ∈ name.toList, StorageKey.validChar char = true ∧ char ≠ '/')
    (short : name.toList.length ≤ 100) (plain : name.toList ≠ ['.', '.']) :
    StorageKey.validate (variantText id name) = .ok () := by
  have length := Uuid.length_toText id
  have joined : variantText id name =
      String.ofList (['/'].intercalate ["img".toList, id.toText.toList, name.toList]) := by
    rw [← String.toList_inj]
    simp [variantText]
  rw [joined]
  apply StorageKey.validate_join
  · simp
  · simp only [List.intercalate_cons_cons, List.intercalate_singleton, List.length_append, length,
      List.length_singleton]
    have start : "img".toList.length = 3 := by decide
    omega
  · simp only [List.mem_cons, List.not_mem_nil, or_false, forall_eq_or_imp, forall_eq]
    exact ⟨StorageKey.segmentChars_of_all (by decide), segmentChars_toText id, chars⟩
  · simp only [List.mem_cons, List.not_mem_nil, or_false, not_or]
    refine ⟨by decide, ?_, fun same => plain same.symm⟩
    intro same
    rw [← same] at length
    exact absurd length (by decide)

end Picroom
