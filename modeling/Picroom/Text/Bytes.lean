import Mathlib.Logic.Function.Basic
import Mathlib.Tactic.SplitIfs

/-!
# The bytes of a text

Texts are lists of characters and their bytes are UTF-8.
-/

namespace Text

def asBytes (text : List Char) : List UInt8 := text.flatMap String.utf8EncodeChar

theorem asBytes_injective : Function.Injective asBytes := by
  intro first second same
  apply String.ofList_injective
  have encoded : first.utf8Encode = second.utf8Encode := congrArg List.toByteArray same
  exact String.toByteArray_inj.mp encoded

@[simp]
theorem asBytes_append (first second : List Char) :
    asBytes (first ++ second) = asBytes first ++ asBytes second :=
  List.flatMap_append

/-- The character of a byte below 128. -/
def charOf (byte : UInt8) : Char := Char.ofNat byte.toNat

theorem toNat_charOf (byte : UInt8) : (charOf byte).toNat = byte.toNat := by
  have bound := byte.toNat_lt
  have valid : byte.toNat.isValidChar := Or.inl (by omega)
  rw [charOf, Char.ofNat, dif_pos valid]
  rfl

theorem charOf_injective : Function.Injective charOf := by
  intro first second same
  have code := congrArg Char.toNat same
  rw [toNat_charOf, toNat_charOf] at code
  exact UInt8.toNat_inj.mp code

theorem asBytes_cons_of_ascii {char : Char} (ascii : char.toNat < 128) (rest : List Char) :
    asBytes (char :: rest) = .ofNat char.toNat :: asBytes rest := by
  have one : String.utf8EncodeChar char = [.ofNat char.toNat] := by
    have small : char.val.toNat ≤ 0x7f := Nat.le_of_lt_succ ascii
    simp only [String.utf8EncodeChar, if_pos small]
    rfl
  rw [asBytes, List.flatMap_cons, one]
  rfl

theorem charOf_ofNat {char : Char} (ascii : char.toNat < 128) :
    charOf (.ofNat char.toNat) = char := by
  have value : (UInt8.ofNat char.toNat).toNat = char.toNat := by
    exact UInt8.toNat_ofNat_of_lt' (Nat.lt_trans ascii (by decide))
  rw [charOf, value, Char.ofNat_toNat]

/-- A property of characters that holds of the first 128 holds of every ASCII character. -/
theorem ascii_all (holds : Char → Bool)
    (all : (List.range 128).all (fun code => holds (Char.ofNat code)) = true) {char : Char}
    (ascii : char.toNat < 128) : holds char = true := by
  rw [← Char.ofNat_toNat char]
  exact List.all_eq_true.mp all char.toNat (List.mem_range.mpr ascii)

theorem ascii_of_isAlphanum {char : Char} (alphanum : char.isAlphanum = true) :
    char.toNat < 128 := by
  change (decide (char.val ≥ 'A'.val ∧ char.val ≤ 'Z'.val) ||
    (decide (char.val ≥ 'a'.val) && decide (char.val ≤ 'z'.val)) ||
    (decide (char.val ≥ '0'.val) && decide (char.val ≤ '9'.val))) = true at alphanum
  simp only [Bool.or_eq_true, Bool.and_eq_true, decide_eq_true_eq, ge_iff_le,
    UInt32.le_iff_toNat_le] at alphanum
  have code : char.toNat = char.val.toNat := rfl
  simp at alphanum
  omega

/-- The bytes of a character outside ASCII are all from 128 on. -/
theorem large_of_mem_asBytes {char : Char} (large : 128 ≤ char.toNat) {byte : UInt8}
    (member : byte ∈ asBytes [char]) : 128 ≤ byte.toNat := by
  have code : char.val.toNat = char.toNat := rfl
  rw [asBytes, List.flatMap_singleton] at member
  unfold String.utf8EncodeChar at member
  dsimp only at member
  split_ifs at member
  next small => omega
  all_goals
    simp only [List.mem_cons, List.not_mem_nil, or_false] at member
    rcases member with rfl | rfl | rfl | rfl <;> simp only [UInt8.toNat_ofNat'] <;> omega

section Lossy

def isContinuation (byte : UInt8) : Bool := 0x80 ≤ byte && byte ≤ 0xBF

/-- The two bytes start a character of three or four bytes. -/
def startsLong (first second : UInt8) : Bool :=
  (first == 0xE0 && 0xA0 ≤ second && second ≤ 0xBF) ||
    (0xE1 ≤ first && first ≤ 0xEF && first != 0xED && isContinuation second) ||
    (first == 0xED && 0x80 ≤ second && second ≤ 0x9F) ||
    (first == 0xF0 && 0x90 ≤ second && second ≤ 0xBF) ||
    (0xF1 ≤ first && first ≤ 0xF3 && isContinuation second) ||
    (first == 0xF4 && 0x80 ≤ second && second ≤ 0x8F)

/-- How many bytes at the start of an invalid sequence one replacement character stands for. -/
def invalidLength : List UInt8 → Nat
  | first :: second :: rest =>
      if startsLong first second then
        if 0xF0 ≤ first && rest.head?.any isContinuation then 3 else 2
      else 1
  | _ => 1

def lossyLoop : Nat → List UInt8 → List Char
  | 0, _ => []
  | _ + 1, [] => []
  | fuel + 1, byte :: rest =>
      match (byte :: rest).toByteArray.utf8DecodeChar? 0 with
      | some char => char :: lossyLoop fuel ((byte :: rest).drop char.utf8Size)
      | none =>
          Char.ofNat 0xFFFD :: lossyLoop fuel ((byte :: rest).drop (invalidLength (byte :: rest)))

/-- `String::from_utf8_lossy`. -/
def fromUtf8Lossy (bytes : List UInt8) : List Char := lossyLoop bytes.length bytes

theorem lossyLoop_asBytes {fuel : Nat} {text : List Char} (enough : text.length ≤ fuel) :
    lossyLoop fuel (asBytes text) = text := by
  induction text generalizing fuel with
  | nil => cases fuel <;> rfl
  | cons char rest inductionHypothesis =>
      cases fuel with
      | zero => exact absurd enough (by simp)
      | succ fuel =>
          have encoded : asBytes (char :: rest) = String.utf8EncodeChar char ++ asBytes rest := rfl
          have nonempty : asBytes (char :: rest) ≠ [] := by
            intro empty
            have size := congrArg List.length empty
            rw [encoded, List.length_append, String.length_utf8EncodeChar] at size
            have positive := char.utf8Size_pos
            simp only [List.length_nil] at size
            omega
          obtain ⟨byte, bytes, split⟩ := List.exists_cons_of_ne_nil nonempty
          have read : (byte :: bytes).toByteArray.utf8DecodeChar? 0 = some char := by
            rw [← split]
            exact List.utf8DecodeChar?_utf8Encode_cons
          have dropped : (byte :: bytes).drop char.utf8Size = asBytes rest := by
            rw [← split, encoded, ← String.length_utf8EncodeChar, List.drop_left]
          rw [split, lossyLoop, read]
          simp only [dropped]
          rw [inductionHypothesis (Nat.le_of_succ_le_succ enough)]

/-- Valid UTF-8 is read as it is. -/
@[simp]
theorem fromUtf8Lossy_asBytes (text : List Char) : fromUtf8Lossy (asBytes text) = text := by
  apply lossyLoop_asBytes
  induction text with
  | nil => simp
  | cons char rest inductionHypothesis =>
      have encoded : asBytes (char :: rest) = String.utf8EncodeChar char ++ asBytes rest := rfl
      have positive := char.utf8Size_pos
      rw [encoded, List.length_append, String.length_utf8EncodeChar, List.length_cons]
      omega

end Lossy

end Text
