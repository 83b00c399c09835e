import Mathlib.Data.List.Induction
import Picroom.S3.SignedHeaders

/-!
# The replay window

`within_skew` reads fixed positions of `x-amz-date` with integer parsers that take a sign, does not
look at the two separators, and compares whole seconds.  So it accepts more than the times within
fifteen minutes that are written `YYYYMMDDTHHMMSSZ`; `skewAt_exact_iff` says on which inputs.
-/

namespace Picroom.SigV4

open Text S3Driver

/-- The six numbers of a date text. -/
def numbers (date : List Char) : List (List Char) :=
  [date.take 4, (date.drop 4).take 2, (date.drop 6).take 2, (date.drop 9).take 2,
    (date.drop 11).take 2, (date.drop 13).take 2]

/-- Digits in the numbers, and the separators in their places. -/
def isDateText (date : List Char) : Bool :=
  date.length == 16 && (numbers date).all (·.all Char.isDigit) &&
    (date.drop 8).head? == some 'T' && (date.drop 15).head? == some 'Z'

def dateText (year month day hour minute second : Nat) : List Char :=
  decimal 4 year ++ (decimal 2 month ++ (decimal 2 day ++ 'T' :: (decimal 2 hour ++
    (decimal 2 minute ++ (decimal 2 second ++ ['Z'])))))

/-- The distance of an instant from a second, in nanoseconds. -/
def distance (now second : Int) : Nat := (now - second * 1000000000).natAbs

/-- The text is a UTC time of the calendar, at most fifteen minutes from the instant. -/
def NamesRecent (date : List Char) (now : Int) : Prop :=
  ∃ year month day hour minute second : Nat, year ≤ 9999 ∧
    validDateTime year month day hour minute second = true ∧
    date = dateText year month day hour minute second ∧
    distance now (secondNumber year month day hour minute second) ≤ 15 * 60 * 1000000000

/-- `within_skew` at any instant, in nanoseconds. -/
def skewAt (date : List Char) (now : Int) : Bool :=
  if date.length ≠ 16 then false
  else
    match parseI32 (date.take 4), parseU8 ((date.drop 4).take 2), parseU8 ((date.drop 6).take 2),
        parseU8 ((date.drop 9).take 2), parseU8 ((date.drop 11).take 2),
        parseU8 ((date.drop 13).take 2) with
    | some year, some month, some day, some hour, some minute, some second =>
        validDateTime year month day hour minute second &&
          ((now - secondNumber year month day hour minute second * 1000000000).tdiv
            1000000000).natAbs ≤ 15 * 60
    | _, _, _, _, _, _ => false

theorem withinSkew_eq_skewAt (date : List Char) (now : OffsetDateTime) :
    withinSkew date now = skewAt date now.nanoseconds := rfl

/-- The time the parsers read from a text, in seconds. -/
def readTime (date : List Char) : Option Int :=
  if date.length ≠ 16 then none
  else
    match parseI32 (date.take 4), parseU8 ((date.drop 4).take 2), parseU8 ((date.drop 6).take 2),
        parseU8 ((date.drop 9).take 2), parseU8 ((date.drop 11).take 2),
        parseU8 ((date.drop 13).take 2) with
    | some year, some month, some day, some hour, some minute, some second =>
        if validDateTime year month day hour minute second then
          some (secondNumber year month day hour minute second)
        else none
    | _, _, _, _, _, _ => none

/-- A text that is read as a time less than a second beyond the window has digits and separators
in their places and is within the window. -/
def ReadExactly (date : List Char) (now : Int) : Prop :=
  ∀ second, readTime date = some second → distance now second < 901 * 1000000000 →
    isDateText date = true ∧ distance now second ≤ 15 * 60 * 1000000000

section Slices

/-- `str::is_char_boundary`. -/
def IsCharBoundary (text : List Char) (index : Nat) : Prop :=
  ∃ front rest, text = front ++ rest ∧ (asBytes front).length = index

/-- The ranges that are sliced out of a text of 16 bytes. -/
def sliced : List (Nat × Nat) := [(0, 4), (4, 6), (6, 8), (9, 11), (11, 13), (13, 15)]

/-- Slicing does not panic. -/
def Sliceable (date : List Char) : Prop :=
  (asBytes date).length = 16 → ∀ range ∈ sliced,
    IsCharBoundary date range.1 ∧ IsCharBoundary date range.2

theorem length_asBytes_of_ascii {text : List Char} (ascii : ∀ char ∈ text, char.toNat < 128) :
    (asBytes text).length = text.length := by
  induction text with
  | nil => rfl
  | cons char rest inductionHypothesis =>
      rw [asBytes_cons_of_ascii (ascii char (by simp)), List.length_cons, List.length_cons,
        inductionHypothesis fun other member => ascii other (List.mem_cons_of_mem _ member)]

theorem isCharBoundary_of_ascii {text : List Char} (ascii : ∀ char ∈ text, char.toNat < 128)
    {index : Nat} (inside : index ≤ text.length) : IsCharBoundary text index := by
  refine ⟨text.take index, text.drop index, (List.take_append_drop index text).symm, ?_⟩
  rw [length_asBytes_of_ascii fun char member => ascii char (List.mem_of_mem_take member),
    List.length_take, Nat.min_eq_left inside]

theorem sliceable_of_ascii {date : List Char} (ascii : ∀ char ∈ date, char.toNat < 128) :
    Sliceable date := by
  intro length range member
  rw [length_asBytes_of_ascii ascii] at length
  have inside : range.1 ≤ 16 ∧ range.2 ≤ 16 := by
    revert range
    decide
  exact ⟨isCharBoundary_of_ascii ascii (by omega), isCharBoundary_of_ascii ascii (by omega)⟩

end Slices

/-- The window on the time that is read: less than 901 seconds, as whole seconds are compared. -/
theorem skewAt_eq_true_iff {date : List Char} {now : Int} :
    skewAt date now = true ↔
      ∃ second, readTime date = some second ∧ distance now second < 901 * 1000000000 := by
  have whole : ∀ duration : Int, (duration.tdiv 1000000000).natAbs ≤ 15 * 60 ↔
      duration.natAbs < 901 * 1000000000 := by
    intro duration
    rw [Int.natAbs_tdiv]
    change duration.natAbs / 1000000000 ≤ 15 * 60 ↔ _
    omega
  have same : skewAt date now = (readTime date).any fun second =>
      decide (((now - second * 1000000000).tdiv 1000000000).natAbs ≤ 15 * 60) := by
    unfold skewAt readTime
    split
    next => rfl
    next =>
      cases parseI32 (date.take 4) with
      | none => rfl
      | some year =>
          cases parseU8 ((date.drop 4).take 2) with
          | none => rfl
          | some month =>
              cases parseU8 ((date.drop 6).take 2) with
              | none => rfl
              | some day =>
                  cases parseU8 ((date.drop 9).take 2) with
                  | none => rfl
                  | some hour =>
                      cases parseU8 ((date.drop 11).take 2) with
                      | none => rfl
                      | some minute =>
                          cases parseU8 ((date.drop 13).take 2) with
                          | none => rfl
                          | some second =>
                              cases valid : validDateTime year month day hour minute second with
                              | false => simp [valid]
                              | true => simp [valid]
  rw [same, Option.any_eq_true]
  simp only [decide_eq_true_eq, whole]
  rfl

section Format

theorem all_digits_decimal (width value : Nat) : (decimal width value).all Char.isDigit = true := by
  rw [List.all_eq_true]
  exact fun char member => isDigit_of_mem_decimal char member

/-- Digits are the decimal text of a number. -/
theorem eq_decimal_of_digits {text : List Char} (digits : text.all Char.isDigit = true) :
    ∃ value < 10 ^ text.length, text = decimal text.length value := by
  induction text using List.reverseRecOn with
  | nil => exact ⟨0, by simp, rfl⟩
  | append_singleton front last inductionHypothesis =>
      rw [List.all_append, Bool.and_eq_true, List.all_cons, List.all_nil, Bool.and_true] at digits
      obtain ⟨value, small, text⟩ := inductionHypothesis digits.1
      have code : 48 ≤ last.toNat ∧ last.toNat ≤ 57 := by
        simpa [Char.isDigit, UInt32.le_iff_toNat_le] using digits.2
      have length : (front ++ [last]).length = front.length + 1 := by simp
      refine ⟨10 * value + (last.toNat - 48), ?_, ?_⟩
      · rw [length, Nat.pow_succ]
        omega
      · have tens : (10 * value + (last.toNat - 48)) / 10 = value := by omega
        have ones : 48 + (10 * value + (last.toNat - 48)) % 10 = last.toNat := by omega
        rw [length, decimal, tens, ones, Char.ofNat_toNat, ← text]

theorem number_of_digits {text : List Char} (digits : text.all Char.isDigit = true) {width : Nat}
    (length : text.length = width) : ∃ value < 10 ^ width, text = decimal width value := by
  obtain ⟨value, small, written⟩ := eq_decimal_of_digits digits
  rw [length] at small written
  exact ⟨value, small, written⟩

/-- A text with digits and separators in their places is written from six numbers. -/
theorem dateText_of_isDateText {date : List Char} (format : isDateText date = true) :
    ∃ year month day hour minute second : Nat, year < 10000 ∧ month < 100 ∧ day < 100 ∧
      hour < 100 ∧ minute < 100 ∧ second < 100 ∧
      date = dateText year month day hour minute second := by
  simp only [isDateText, numbers, Bool.and_eq_true, beq_iff_eq, List.all_cons,
    List.all_nil] at format
  obtain ⟨⟨⟨length, yearDigits, monthDigits, dayDigits, hourDigits, minuteDigits, secondDigits, _⟩,
    separator⟩, zone⟩ := format
  have pair : ∀ index ≤ 14, ((date.drop index).take 2).length = 2 := by
    intro index inside
    rw [List.length_take, List.length_drop, length]
    omega
  obtain ⟨year, yearSmall, yearText⟩ := number_of_digits yearDigits
    (by simp [length] : (date.take 4).length = 4)
  obtain ⟨month, monthSmall, monthText⟩ := number_of_digits monthDigits (pair 4 (by decide))
  obtain ⟨day, daySmall, dayText⟩ := number_of_digits dayDigits (pair 6 (by decide))
  obtain ⟨hour, hourSmall, hourText⟩ := number_of_digits hourDigits (pair 9 (by decide))
  obtain ⟨minute, minuteSmall, minuteText⟩ := number_of_digits minuteDigits (pair 11 (by decide))
  obtain ⟨second, secondSmall, secondText⟩ := number_of_digits secondDigits (pair 13 (by decide))
  have behind : ∀ index count, date.drop index =
      (date.drop index).take count ++ date.drop (index + count) := by
    intro index count
    rw [← List.drop_drop, List.take_append_drop]
  have separatorText : (date.drop 8).take 1 = ['T'] := by
    obtain ⟨rest, split⟩ := List.head?_eq_some_iff.mp separator
    rw [split]
    rfl
  have zoneText : date.drop 15 = ['Z'] := by
    obtain ⟨rest, split⟩ := List.head?_eq_some_iff.mp zone
    have one := congrArg List.length split
    rw [List.length_drop, length, List.length_cons] at one
    rw [split, List.eq_nil_of_length_eq_zero (by omega : rest.length = 0)]
  refine ⟨year, month, day, hour, minute, second, yearSmall, monthSmall, daySmall, hourSmall,
    minuteSmall, secondSmall, ?_⟩
  calc
    date = date.take 4 ++ date.drop 4 := (List.take_append_drop 4 date).symm
    _ = decimal 4 year ++ (decimal 2 month ++ date.drop 6) := by
      rw [← yearText, ← monthText, ← behind 4 2]
    _ = decimal 4 year ++ (decimal 2 month ++ (decimal 2 day ++ 'T' :: date.drop 9)) := by
      rw [behind 6 2, dayText, behind (6 + 2) 1, separatorText]
      rfl
    _ = decimal 4 year ++ (decimal 2 month ++ (decimal 2 day ++ 'T' :: (decimal 2 hour ++
        (decimal 2 minute ++ date.drop 13)))) := by
      rw [behind 9 2, hourText, behind (9 + 2) 2, minuteText]
    _ = dateText year month day hour minute second := by
      rw [behind 13 2, secondText, zoneText]
      rfl

theorem isDateText_dateText (year month day hour minute second : Nat) :
    isDateText (dateText year month day hour minute second) = true := by
  have length : (dateText year month day hour minute second).length = 16 := by
    simp [dateText, length_decimal]
  have digits : ∀ number ∈ numbers (dateText year month day hour minute second),
      ∃ width value, number = decimal width value := by
    intro number member
    have known : numbers (dateText year month day hour minute second) =
        [decimal 4 year, decimal 2 month, decimal 2 day, decimal 2 hour, decimal 2 minute,
          decimal 2 second] := rfl
    rw [known] at member
    simp only [List.mem_cons, List.not_mem_nil, or_false] at member
    rcases member with rfl | rfl | rfl | rfl | rfl | rfl
    all_goals exact ⟨_, _, rfl⟩
  have all : (numbers (dateText year month day hour minute second)).all
      (·.all Char.isDigit) = true := by
    rw [List.all_eq_true]
    intro number member
    obtain ⟨width, value, rfl⟩ := digits number member
    exact all_digits_decimal width value
  rw [isDateText, length, all]
  rfl

/-- The parsers read the numbers that were written. -/
theorem readTime_dateText {year month day hour minute second : Nat} (yearSmall : year < 10000)
    (monthSmall : month < 100) (daySmall : day < 100) (hourSmall : hour < 100)
    (minuteSmall : minute < 100) (secondSmall : second < 100) :
    readTime (dateText year month day hour minute second) =
      if validDateTime year month day hour minute second then
        some (secondNumber year month day hour minute second)
      else none := by
  have length : (dateText year month day hour minute second).length = 16 := by
    simp [dateText, length_decimal]
  have yearRead : parseI32 ((dateText year month day hour minute second).take 4) =
      some (year : Int) := (parseI32_decimal year).trans (by rw [Nat.mod_eq_of_lt yearSmall])
  have read : ∀ value < 100, parseU8 (decimal 2 value) = some value := by
    intro value small
    rw [parseU8_decimal, Nat.mod_eq_of_lt small]
  have monthRead : parseU8 (((dateText year month day hour minute second).drop 4).take 2) =
      some month := read month monthSmall
  have dayRead : parseU8 (((dateText year month day hour minute second).drop 6).take 2) =
      some day := read day daySmall
  have hourRead : parseU8 (((dateText year month day hour minute second).drop 9).take 2) =
      some hour := read hour hourSmall
  have minuteRead : parseU8 (((dateText year month day hour minute second).drop 11).take 2) =
      some minute := read minute minuteSmall
  have secondRead : parseU8 (((dateText year month day hour minute second).drop 13).take 2) =
      some second := read second secondSmall
  rw [readTime, if_neg (by simp [length]), yearRead, monthRead, dayRead, hourRead, minuteRead,
    secondRead]

theorem fields_of_valid {year : Int} {month day hour minute second : Nat}
    (valid : validDateTime year month day hour minute second = true) :
    month < 100 ∧ day < 100 ∧ hour < 100 ∧ minute < 100 ∧ second < 100 := by
  have days := daysInMonth_le year month
  simp only [validDateTime, Bool.and_eq_true, decide_eq_true_eq] at valid
  omega

/-- The recent times are the texts that are read, have the form and are within the window. -/
theorem namesRecent_iff {date : List Char} {now : Int} :
    NamesRecent date now ↔
      isDateText date = true ∧ ∃ second, readTime date = some second ∧
        distance now second ≤ 15 * 60 * 1000000000 := by
  constructor
  · rintro ⟨year, month, day, hour, minute, second, yearBound, valid, rfl, close⟩
    obtain ⟨monthSmall, daySmall, hourSmall, minuteSmall, secondSmall⟩ := fields_of_valid valid
    refine ⟨isDateText_dateText _ _ _ _ _ _, _, ?_, close⟩
    rw [readTime_dateText (by omega) monthSmall daySmall hourSmall minuteSmall secondSmall,
      if_pos valid]
  · rintro ⟨format, read, found, close⟩
    obtain ⟨year, month, day, hour, minute, second, yearSmall, monthSmall, daySmall, hourSmall,
      minuteSmall, secondSmall, rfl⟩ := dateText_of_isDateText format
    rw [readTime_dateText yearSmall monthSmall daySmall hourSmall minuteSmall secondSmall] at found
    split at found
    next valid =>
      cases found
      exact ⟨year, month, day, hour, minute, second, by omega, valid, rfl, close⟩
    next => cases found

end Format

/-- On an ASCII text `within_skew` does not panic, and it accepts exactly the recent times unless
it reads a time from a text that is none, or one in the second behind the window. -/
theorem skewAt_exact_iff (date : List Char) (ascii : ∀ char ∈ date, char.toNat < 128)
    (now : Int) :
    (Sliceable date ∧ (skewAt date now = true ↔ NamesRecent date now)) ↔ ReadExactly date now := by
  rw [skewAt_eq_true_iff, namesRecent_iff]
  constructor
  · rintro ⟨_, exact⟩ second read close
    obtain ⟨format, other, found, within⟩ := exact.mp ⟨second, read, close⟩
    rw [read] at found
    cases found
    exact ⟨format, within⟩
  · intro exactly
    refine ⟨sliceable_of_ascii ascii, ?_, ?_⟩
    · rintro ⟨second, read, close⟩
      obtain ⟨format, within⟩ := exactly second read close
      exact ⟨format, second, read, within⟩
    · rintro ⟨_, second, read, within⟩
      exact ⟨second, read, by omega⟩

section Samples

/-- A quarter past midnight. -/
def quarterPast : Int := secondNumber 2026 1 1 0 15 0 * 1000000000

/-- Midnight is recent until a quarter past. -/
theorem skewAt_exact_quarterPast :
    skewAt "20260101T000000Z".toList quarterPast = true ∧
      NamesRecent "20260101T000000Z".toList quarterPast := by
  have exactly : ReadExactly "20260101T000000Z".toList quarterPast := by
    intro second read _
    have known : readTime "20260101T000000Z".toList =
        some (secondNumber 2026 1 1 0 0 0) := by decide
    rw [known, Option.some.injEq] at read
    subst read
    decide
  have accepted : skewAt "20260101T000000Z".toList quarterPast = true := by decide
  have agrees := (skewAt_exact_iff "20260101T000000Z".toList
    (Text.forall_mem_of_all (by decide)) quarterPast).mpr exactly
  exact ⟨accepted, agrees.2.mp accepted⟩

theorem not_namesRecent_of_format {date : List Char} {now : Int}
    (format : isDateText date = false) : ¬ NamesRecent date now := by
  intro named
  rw [(namesRecent_iff.mp named).1] at format
  cases format

/-- Blanks for the separators, signs in the numbers, and half a second too much. -/
theorem skewAt_inexact :
    (¬ ∀ date : List Char, (∀ char ∈ date, char.toNat < 128) → ∀ now,
      Sliceable date ∧ (skewAt date now = true ↔ NamesRecent date now)) ∧
    (skewAt "20260101 000000 ".toList quarterPast = true ∧
      ¬ NamesRecent "20260101 000000 ".toList quarterPast) ∧
    (skewAt "2026+1+1T+0+0+0Z".toList quarterPast = true ∧
      ¬ NamesRecent "2026+1+1T+0+0+0Z".toList quarterPast) ∧
    (skewAt "20260101T000000Z".toList (quarterPast + 500000000) = true ∧
      ¬ NamesRecent "20260101T000000Z".toList (quarterPast + 500000000)) := by
  refine ⟨?_, ⟨by decide, not_namesRecent_of_format (by decide)⟩,
    ⟨by decide, not_namesRecent_of_format (by decide)⟩, by decide, ?_⟩
  · intro always
    have exact := (always "20260101 000000 ".toList (Text.forall_mem_of_all (by decide))
      quarterPast).2
    exact not_namesRecent_of_format (by decide) (exact.mp (by decide))
  · intro named
    obtain ⟨_, second, read, within⟩ := namesRecent_iff.mp named
    have known : readTime "20260101T000000Z".toList = some (secondNumber 2026 1 1 0 0 0) := by
      decide
    rw [known, Option.some.injEq] at read
    subst read
    revert within
    decide

end Samples

end Picroom.SigV4
