import Mathlib.Data.List.Basic
import Mathlib.Tactic.IntervalCases
import Picroom.Text.Bytes

/-!
# Percent-encoding and form-urlencoding

`percentEncode keeps` writes every byte of a text as `%XX`, but the characters it keeps.
`formEncode` is the serializer of `application/x-www-form-urlencoded`, which writes a space
as `+`; `formDecode` reads both.
-/

namespace Web

open Text

def hexDigit (value : Nat) : Char := Char.ofNat (if value < 10 then 48 + value else 55 + value)

def hexValue (digit : Char) : Option Nat :=
  if '0' ≤ digit ∧ digit ≤ '9' then some (digit.toNat - 48)
  else if 'A' ≤ digit ∧ digit ≤ 'F' then some (digit.toNat - 55)
  else if 'a' ≤ digit ∧ digit ≤ 'f' then some (digit.toNat - 87)
  else none

def percentByte (byte : UInt8) : List Char :=
  ['%', hexDigit (byte.toNat / 16), hexDigit (byte.toNat % 16)]

def encodeByte (keeps : Char → Bool) (byte : UInt8) : List Char :=
  if byte < 128 && keeps (charOf byte) then [charOf byte] else percentByte byte

def percentEncode (keeps : Char → Bool) (text : List Char) : List Char :=
  (asBytes text).flatMap (encodeByte keeps)

/-- A percent sign that does not start `%XX` stands for itself. -/
def percentDecode : List UInt8 → List UInt8
  | [] => []
  | [byte] => [byte]
  | [byte, next] => [byte, next]
  | byte :: high :: low :: rest =>
      if byte = 37 then
        match hexValue (charOf high), hexValue (charOf low) with
        | some highValue, some lowValue => .ofNat (16 * highValue + lowValue) :: percentDecode rest
        | _, _ => byte :: percentDecode (high :: low :: rest)
      else byte :: percentDecode (high :: low :: rest)

def formKeeps (char : Char) : Bool :=
  char.isAlphanum || char == '*' || char == '-' || char == '.' || char == '_'

def formByte (byte : UInt8) : List Char := if byte = 32 then ['+'] else encodeByte formKeeps byte

def formEncode (text : List Char) : List Char := (asBytes text).flatMap formByte

def plusToSpace (byte : UInt8) : UInt8 := if byte = 43 then 32 else byte

def formDecode (text : List Char) : List UInt8 :=
  percentDecode ((asBytes text).map plusToSpace)

theorem percentDecode_cons_of_ne {byte : UInt8} (different : byte ≠ 37) (rest : List UInt8) :
    percentDecode (byte :: rest) = byte :: percentDecode rest := by
  match rest with
  | [] => rfl
  | [_] => rfl
  | _ :: _ :: _ => rw [percentDecode, if_neg different]

theorem toNat_hexDigit_lt {value : Nat} (digit : value < 16) : (hexDigit value).toNat < 128 := by
  interval_cases value <;> decide

theorem hexValue_hexDigit {value : Nat} (digit : value < 16) :
    hexValue (hexDigit value) = some value := by
  interval_cases value <;> decide

theorem hexDigit_ne_plus {value : Nat} (digit : value < 16) : hexDigit value ≠ '+' := by
  interval_cases value <;> decide

theorem plusToSpace_of_char {char : Char} (ascii : char.toNat < 128) (different : char ≠ '+') :
    plusToSpace (.ofNat char.toNat) = .ofNat char.toNat := by
  have notPlus : UInt8.ofNat char.toNat ≠ 43 := by
    intro same
    apply different
    rw [← charOf_ofNat ascii, same]
    decide
  rw [plusToSpace, if_neg notPlus]

/-- A written byte is read back. -/
theorem percentDecode_percentByte (byte : UInt8) (rest : List UInt8) :
    percentDecode ((asBytes (percentByte byte)).map plusToSpace ++ rest) =
      byte :: percentDecode rest := by
  have bound := byte.toNat_lt
  have high : byte.toNat / 16 < 16 := by omega
  have low : byte.toNat % 16 < 16 := Nat.mod_lt _ (by decide)
  have bytes : (asBytes (percentByte byte)).map plusToSpace =
      [37, .ofNat (hexDigit (byte.toNat / 16)).toNat,
        .ofNat (hexDigit (byte.toNat % 16)).toNat] := by
    rw [percentByte, asBytes_cons_of_ascii (by decide),
      asBytes_cons_of_ascii (toNat_hexDigit_lt high), asBytes_cons_of_ascii (toNat_hexDigit_lt low)]
    simp only [asBytes, List.flatMap_nil, List.map_cons, List.map_nil,
      plusToSpace_of_char (toNat_hexDigit_lt high) (hexDigit_ne_plus high),
      plusToSpace_of_char (toNat_hexDigit_lt low) (hexDigit_ne_plus low)]
    rfl
  rw [bytes, List.cons_append, List.cons_append, List.cons_append, List.nil_append, percentDecode,
    if_pos rfl, charOf_ofNat (toNat_hexDigit_lt high), charOf_ofNat (toNat_hexDigit_lt low),
    hexValue_hexDigit high, hexValue_hexDigit low]
  have value : 16 * (byte.toNat / 16) + byte.toNat % 16 = byte.toNat := Nat.div_add_mod _ _
  simp only [value, UInt8.ofNat_toNat]

theorem asBytes_charOf {byte : UInt8} (ascii : byte < 128) : asBytes [charOf byte] = [byte] := by
  have small : (charOf byte).toNat < 128 := by
    rw [toNat_charOf]
    exact UInt8.lt_iff_toNat_lt.mp ascii
  rw [asBytes_cons_of_ascii small, toNat_charOf, UInt8.ofNat_toNat]
  rfl

theorem percentDecode_encodeByte {keeps : Char → Bool} (percent : keeps '%' = false)
    (plus : keeps '+' = false) (byte : UInt8) (rest : List UInt8) :
    percentDecode ((asBytes (encodeByte keeps byte)).map plusToSpace ++ rest) =
      byte :: percentDecode rest := by
  unfold encodeByte
  split
  next kept =>
    simp only [Bool.and_eq_true, decide_eq_true_eq] at kept
    have notPercent : byte ≠ 37 := by
      rintro rfl
      exact absurd (percent.symm.trans kept.2) (by decide)
    have notPlus : byte ≠ 43 := by
      rintro rfl
      exact absurd (plus.symm.trans kept.2) (by decide)
    rw [asBytes_charOf kept.1, List.map_singleton, plusToSpace, if_neg notPlus,
      List.singleton_append, percentDecode_cons_of_ne notPercent]
  next => exact percentDecode_percentByte byte rest

theorem percentDecode_formByte (byte : UInt8) (rest : List UInt8) :
    percentDecode ((asBytes (formByte byte)).map plusToSpace ++ rest) =
      byte :: percentDecode rest := by
  unfold formByte
  split
  next space =>
    subst space
    exact percentDecode_cons_of_ne (by decide) rest
  next => exact percentDecode_encodeByte (by decide) (by decide) byte rest

/-- Reading back what was written byte by byte. -/
theorem formDecode_flatMap {write : UInt8 → List Char}
    (reads : ∀ byte rest, percentDecode ((asBytes (write byte)).map plusToSpace ++ rest) =
      byte :: percentDecode rest) (bytes : List UInt8) :
    formDecode (bytes.flatMap write) = bytes := by
  induction bytes with
  | nil => rfl
  | cons byte rest inductionHypothesis =>
      unfold formDecode at inductionHypothesis ⊢
      rw [List.flatMap_cons, asBytes_append, List.map_append, reads, inductionHypothesis]

theorem formDecode_percentEncode {keeps : Char → Bool} (percent : keeps '%' = false)
    (plus : keeps '+' = false) (text : List Char) :
    formDecode (percentEncode keeps text) = asBytes text :=
  formDecode_flatMap (percentDecode_encodeByte percent plus) (asBytes text)

theorem formDecode_formEncode (text : List Char) : formDecode (formEncode text) = asBytes text :=
  formDecode_flatMap percentDecode_formByte (asBytes text)

/-- A text of characters that are kept is written as it is. -/
theorem percentEncode_of_kept {keeps : Char → Bool} {text : List Char}
    (kept : ∀ char ∈ text, char.toNat < 128 ∧ keeps char = true) :
    percentEncode keeps text = text := by
  induction text with
  | nil => rfl
  | cons char rest inductionHypothesis =>
      obtain ⟨ascii, keepsChar⟩ := kept char (by simp)
      have small : UInt8.ofNat char.toNat < 128 := by
        rw [UInt8.lt_iff_toNat_lt, UInt8.toNat_ofNat_of_lt' (Nat.lt_trans ascii (by decide))]
        exact ascii
      have written : encodeByte keeps (.ofNat char.toNat) = [char] := by
        rw [encodeByte, charOf_ofNat ascii]
        simp [small, keepsChar]
      have later := inductionHypothesis fun other member =>
        kept other (List.mem_cons_of_mem _ member)
      unfold percentEncode at later ⊢
      rw [asBytes_cons_of_ascii ascii, List.flatMap_cons, written, later]
      rfl

/-- A text without a percent sign is decoded to itself. -/
theorem percentDecode_of_unescaped {text : List Char}
    (unescaped : ∀ char ∈ text, char.toNat < 128 ∧ char ≠ '%') :
    percentDecode (asBytes text) = asBytes text := by
  induction text with
  | nil => rfl
  | cons char rest inductionHypothesis =>
      obtain ⟨ascii, different⟩ := unescaped char List.mem_cons_self
      have notPercent : UInt8.ofNat char.toNat ≠ 37 := by
        intro same
        apply different
        rw [← charOf_ofNat ascii, same]
        decide
      rw [asBytes_cons_of_ascii ascii, percentDecode_cons_of_ne notPercent,
        inductionHypothesis fun other member => unescaped other (List.mem_cons_of_mem _ member)]

theorem percentEncode_append (keeps : Char → Bool) (first second : List Char) :
    percentEncode keeps (first ++ second) =
      percentEncode keeps first ++ percentEncode keeps second := by
  rw [percentEncode, asBytes_append, List.flatMap_append]
  rfl

theorem percentEncode_injective {keeps : Char → Bool} (percent : keeps '%' = false)
    (plus : keeps '+' = false) : Function.Injective (percentEncode keeps) := by
  intro first second same
  apply asBytes_injective
  rw [← formDecode_percentEncode percent plus first, same, formDecode_percentEncode percent plus]

/-- The characters percent-encoding writes for a byte. -/
theorem mem_encodeByte {keeps : Char → Bool} {byte : UInt8} {char : Char}
    (member : char ∈ encodeByte keeps byte) :
    keeps char = true ∨ char = '%' ∨ ∃ value < 16, char = hexDigit value := by
  have bound := byte.toNat_lt
  unfold encodeByte at member
  split at member
  next kept =>
    rw [List.mem_singleton.mp member]
    exact Or.inl (Bool.and_eq_true_iff.mp kept).2
  next =>
    simp only [percentByte, List.mem_cons, List.not_mem_nil, or_false] at member
    rcases member with percent | high | low
    · exact Or.inr (Or.inl percent)
    · exact Or.inr (Or.inr ⟨_, by omega, high⟩)
    · exact Or.inr (Or.inr ⟨_, Nat.mod_lt _ (by decide), low⟩)

theorem mem_percentEncode {keeps : Char → Bool} {text : List Char} {char : Char}
    (member : char ∈ percentEncode keeps text) :
    keeps char = true ∨ char = '%' ∨ ∃ value < 16, char = hexDigit value := by
  obtain ⟨byte, _, inByte⟩ := List.mem_flatMap.mp member
  exact mem_encodeByte inByte

/-- Two encodings that keep the same characters of a text write it the same. -/
theorem percentEncode_congr {keeps other : Char → Bool} {text : List Char}
    (same : ∀ char ∈ text, char.toNat < 128 → keeps char = other char) :
    percentEncode keeps text = percentEncode other text := by
  induction text with
  | nil => rfl
  | cons char rest inductionHypothesis =>
      have later := inductionHypothesis fun other member =>
        same other (List.mem_cons_of_mem _ member)
      have first : percentEncode keeps [char] = percentEncode other [char] := by
        by_cases ascii : char.toNat < 128
        · have bytes : asBytes [char] = [.ofNat char.toNat] := asBytes_cons_of_ascii ascii []
          rw [percentEncode, percentEncode, bytes, List.flatMap_singleton, List.flatMap_singleton,
            encodeByte, encodeByte, charOf_ofNat ascii, same char (by simp) ascii]
        · unfold percentEncode
          apply List.flatMap_congr
          intro byte member
          have large := large_of_mem_asBytes (Nat.le_of_not_lt ascii) member
          have escaped : ¬ byte < 128 := by
            rw [UInt8.lt_iff_toNat_lt]
            exact Nat.not_lt_of_le large
          simp [encodeByte, escaped]
      have split : ∀ kept : Char → Bool,
          percentEncode kept (char :: rest) =
            percentEncode kept [char] ++ percentEncode kept rest :=
        fun kept => percentEncode_append kept [char] rest
      rw [split, split, first, later]

section Length

theorem encodeByte_ne_nil (keeps : Char → Bool) (byte : UInt8) : encodeByte keeps byte ≠ [] := by
  unfold encodeByte percentByte
  split <;> simp

theorem length_encodeByte_le {keeps other : Char → Bool}
    (fewer : ∀ char, other char = true → keeps char = true) (byte : UInt8) :
    (encodeByte keeps byte).length ≤ (encodeByte other byte).length := by
  unfold encodeByte
  cases kept : other (charOf byte) with
  | true =>
      rw [fewer _ kept]
  | false =>
      split <;> simp [percentByte]

theorem percentEncode_cons (keeps : Char → Bool) (char : Char) (rest : List Char) :
    percentEncode keeps (char :: rest) = percentEncode keeps [char] ++ percentEncode keeps rest :=
  percentEncode_append keeps [char] rest

theorem percentEncode_singleton_ne_nil (keeps : Char → Bool) (char : Char) :
    percentEncode keeps [char] ≠ [] := by
  have bytes : asBytes [char] ≠ [] := by
    intro empty
    exact List.cons_ne_nil char [] (asBytes_injective empty)
  obtain ⟨byte, others, split⟩ := List.exists_cons_of_ne_nil bytes
  rw [percentEncode, split, List.flatMap_cons]
  exact List.append_ne_nil_of_left_ne_nil (encodeByte_ne_nil keeps byte) _

theorem length_percentEncode_singleton_le {keeps other : Char → Bool}
    (fewer : ∀ char, other char = true → keeps char = true) (char : Char) :
    (percentEncode keeps [char]).length ≤ (percentEncode other [char]).length := by
  unfold percentEncode
  induction asBytes [char] with
  | nil => rfl
  | cons byte rest inductionHypothesis =>
      rw [List.flatMap_cons, List.flatMap_cons, List.length_append, List.length_append]
      exact Nat.add_le_add (length_encodeByte_le fewer byte) inductionHypothesis

theorem length_percentEncode_singleton_lt {keeps other : Char → Bool} {char : Char}
    (ascii : char.toNat < 128) (kept : keeps char = true) (dropped : other char = false) :
    (percentEncode keeps [char]).length < (percentEncode other [char]).length := by
  have bytes : asBytes [char] = [.ofNat char.toNat] := asBytes_cons_of_ascii ascii []
  have written : percentEncode keeps [char] = [char] :=
    percentEncode_of_kept (by simp [ascii, kept])
  rw [written, percentEncode, bytes, List.flatMap_singleton, encodeByte, charOf_ofNat ascii,
    dropped]
  simp [percentByte]

/-- A part of a text, with at least as many characters kept, is not longer when it is encoded. -/
theorem length_percentEncode_le {keeps other : Char → Bool}
    (fewer : ∀ char, other char = true → keeps char = true) {part text : List Char}
    (within : part.Sublist text) :
    (percentEncode keeps part).length ≤ (percentEncode other text).length := by
  induction within with
  | slnil => exact Nat.le_refl 0
  | cons char _ inductionHypothesis =>
      rw [percentEncode_cons, List.length_append]
      omega
  | cons_cons char _ inductionHypothesis =>
      rw [percentEncode_cons, percentEncode_cons other, List.length_append, List.length_append]
      exact Nat.add_le_add (length_percentEncode_singleton_le fewer char) inductionHypothesis

/-- It is shorter where the part leaves a character out or only the other encoding escapes one. -/
theorem length_percentEncode_lt {keeps other : Char → Bool}
    (fewer : ∀ char, other char = true → keeps char = true) {part text : List Char}
    (within : part.Sublist text) {char : Char} (member : char ∈ text)
    (differs : char ∉ part ∨ char.toNat < 128 ∧ keeps char = true ∧ other char = false) :
    (percentEncode keeps part).length < (percentEncode other text).length := by
  induction within with
  | slnil => cases member
  | cons skipped within inductionHypothesis =>
      have rest := length_percentEncode_le fewer within
      have first := List.length_pos_iff.mpr (percentEncode_singleton_ne_nil other skipped)
      rw [percentEncode_cons, List.length_append]
      omega
  | cons_cons shared within inductionHypothesis =>
      rw [percentEncode_cons, percentEncode_cons other, List.length_append, List.length_append]
      rcases List.mem_cons.mp member with rfl | later
      · have escaped := differs.resolve_left (by simp)
        exact Nat.add_lt_add_of_lt_of_le
          (length_percentEncode_singleton_lt escaped.1 escaped.2.1 escaped.2.2)
          (length_percentEncode_le fewer within)
      · exact Nat.add_lt_add_of_le_of_lt (length_percentEncode_singleton_le fewer shared)
          (inductionHypothesis later (differs.imp_left fun absent inPart =>
            absent (List.mem_cons_of_mem shared inPart)))

end Length

end Web
