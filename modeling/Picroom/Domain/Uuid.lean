import Mathlib.Data.List.Basic
import Mathlib.Tactic.IntervalCases

/-!
# UUIDs and their text forms

Identifiers are 128-bit values.  The database columns, the JWT claims and the
storage keys carry them as text: `to_string` writes the hyphenated lower-case
form, `parse_str` reads that form, the bare 32 digits, the braced form and the
`urn:uuid:` form, with digits of either case.
-/

namespace Picroom

structure Uuid where
  bits : BitVec 128
  deriving DecidableEq

namespace Uuid

def nil : Uuid := ⟨0⟩

/-- The lowest `width` hexadecimal digits of a number, most significant first. -/
def hexText : Nat → Nat → List Char
  | 0, _ => []
  | width + 1, value => hexText width (value / 16) ++ [Nat.digitChar (value % 16)]

@[simp]
theorem length_hexText (width value : Nat) : (hexText width value).length = width := by
  induction width generalizing value with
  | zero => rfl
  | succ width inductionHypothesis => simp [hexText, inductionHypothesis]

def hexValue (digit : Char) : Option Nat :=
  if '0' ≤ digit ∧ digit ≤ '9' then some (digit.toNat - '0'.toNat)
  else if 'a' ≤ digit ∧ digit ≤ 'f' then some (digit.toNat - 'a'.toNat + 10)
  else if 'A' ≤ digit ∧ digit ≤ 'F' then some (digit.toNat - 'A'.toNat + 10)
  else none

def parseHex (digits : List Char) : Option Nat :=
  digits.foldlM (fun value digit => (hexValue digit).map (16 * value + ·)) 0

theorem hexValue_digitChar {value : Nat} (digit : value < 16) :
    hexValue (Nat.digitChar value) = some value := by
  interval_cases value <;> decide

theorem parseHex_hexText (width value : Nat) :
    parseHex (hexText width value) = some (value % 16 ^ width) := by
  induction width generalizing value with
  | zero => simp [hexText, parseHex, Nat.mod_one]
  | succ width inductionHypothesis =>
      have leading := inductionHypothesis (value / 16)
      have digit := hexValue_digitChar (Nat.mod_lt value (by decide : 16 > 0))
      unfold parseHex at leading ⊢
      rw [hexText, List.foldlM_append, leading]
      simp only [Option.bind_eq_bind, Option.bind_some, List.foldlM_cons, List.foldlM_nil,
        digit, Option.map_some, Option.pure_def]
      rw [pow_succ', Nat.mod_mul]
      exact congrArg some (Nat.add_comm _ _)

def hyphenate (digits : List Char) : List Char :=
  digits.take 8 ++ '-' :: ((digits.drop 8).take 4 ++ '-' :: ((digits.drop 12).take 4 ++
    '-' :: ((digits.drop 16).take 4 ++ '-' :: digits.drop 20)))

/-- `Uuid::to_string`: the hyphenated lower-case form. -/
def toText (id : Uuid) : String :=
  String.ofList (hyphenate (hexText 32 id.bits.toNat))

def parseSimple (text : List Char) : Option Uuid :=
  (parseHex text).map fun value => ⟨BitVec.ofNat 128 value⟩

/-- Read 36 characters with hyphens at the four group boundaries. -/
def parseHyphenated (text : List Char) : Option Uuid :=
  if text[8]? = some '-' ∧ text[13]? = some '-' ∧ text[18]? = some '-' ∧
      text[23]? = some '-' then
    parseSimple (text.take 8 ++ (text.drop 9).take 4 ++ (text.drop 14).take 4 ++
      (text.drop 19).take 4 ++ text.drop 24)
  else none

/-- `Uuid::parse_str`. -/
def parseStr (text : String) : Option Uuid :=
  let chars := text.toList
  if chars.length = 32 then parseSimple chars
  else if chars.length = 36 then parseHyphenated chars
  else if chars.length = 38 ∧ chars.head? = some '{' ∧ chars.getLast? = some '}' then
    parseHyphenated ((chars.drop 1).take 36)
  else if chars.length = 45 ∧ chars.take 9 = "urn:uuid:".toList then
    parseHyphenated (chars.drop 9)
  else none

theorem length_hyphenate {digits : List Char} (length : digits.length = 32) :
    (hyphenate digits).length = 36 := by
  simp [hyphenate, length]

theorem parseHyphenated_hyphenate {digits : List Char} (length : digits.length = 32) :
    parseHyphenated (hyphenate digits) = parseSimple digits := by
  have groups : digits = digits.take 8 ++ ((digits.drop 8).take 4 ++ ((digits.drop 12).take 4 ++
      ((digits.drop 16).take 4 ++ digits.drop 20))) := by
    conv_lhs => rw [← List.take_append_drop 8 digits, ← List.take_append_drop 4 (digits.drop 8),
      ← List.take_append_drop 4 ((digits.drop 8).drop 4),
      ← List.take_append_drop 4 (((digits.drop 8).drop 4).drop 4)]
    simp only [List.drop_drop]
  have ungrouped : (hyphenate digits).take 8 ++ ((hyphenate digits).drop 9).take 4 ++
      ((hyphenate digits).drop 14).take 4 ++ ((hyphenate digits).drop 19).take 4 ++
      (hyphenate digits).drop 24 = digits := by
    conv_rhs => rw [groups]
    simp [hyphenate, List.drop_append, List.drop_take, length]
  rw [parseHyphenated, if_pos (by simp [hyphenate, length]), ungrouped]

theorem parseSimple_hexText (id : Uuid) :
    parseSimple (hexText 32 id.bits.toNat) = some id := by
  have bounded : id.bits.toNat % 16 ^ 32 = id.bits.toNat :=
    Nat.mod_eq_of_lt (by simpa using id.bits.isLt)
  rw [parseSimple, parseHex_hexText, bounded]
  simp

/-- Text written by `to_string` reads back as the same identifier. -/
@[simp]
theorem parseStr_toText (id : Uuid) : parseStr (toText id) = some id := by
  have length : (hyphenate (hexText 32 id.bits.toNat)).length = 36 :=
    length_hyphenate (length_hexText _ _)
  simp only [parseStr, toText, String.toList_ofList, length]
  simpa using (parseHyphenated_hyphenate (length_hexText 32 id.bits.toNat)).trans
    (parseSimple_hexText id)

/-- The version nibble; `Uuid::now_v7` sets it to 7. -/
def version (id : Uuid) : Nat := id.bits.toNat / 2 ^ 76 % 16

theorem ne_nil_of_version {id : Uuid} (isV7 : id.version = 7) : id ≠ nil := by
  rintro rfl
  exact absurd isV7 (by decide)

theorem toText_injective : Function.Injective toText := by
  intro first second same
  have parsed := congrArg parseStr same
  simpa using parsed

end Uuid

end Picroom
