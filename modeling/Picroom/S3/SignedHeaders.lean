import Mathlib.Data.List.TakeDrop
import Picroom.Storage.Signer

/-!
# The server reads the client's headers

The date the client writes is within the skew for 15 minutes around its clock, and the
`Authorization` header it writes is parsed into its fields.
-/

namespace Picroom

open Text SigV4

namespace S3Driver

section Date

theorem isDigit_ofNat {digit : Nat} (small : digit < 10) :
    (Char.ofNat (48 + digit)).isDigit = true ∧ (Char.ofNat (48 + digit)).toNat = 48 + digit := by
  interval_cases digit <;> decide

theorem length_decimal (width value : Nat) : (decimal width value).length = width := by
  induction width generalizing value with
  | zero => rfl
  | succ width inductionHypothesis => simp [decimal, inductionHypothesis]

/-- Digits that follow a number `acc` are appended to it. -/
theorem foldlM_decimal (width value acc : Nat) :
    (decimal width value).foldlM (fun value digit =>
      if digit.isDigit then some (10 * value + (digit.toNat - '0'.toNat)) else none) acc =
        some (acc * 10 ^ width + value % 10 ^ width) := by
  induction width generalizing value with
  | zero => simp [decimal, Nat.mod_one]
  | succ width inductionHypothesis =>
      obtain ⟨digit, code⟩ := isDigit_ofNat (Nat.mod_lt value (by decide : 0 < 10))
      rw [decimal, List.foldlM_append, inductionHypothesis]
      simp only [Option.bind_eq_bind, Option.bind_some, List.foldlM_cons, List.foldlM_nil, digit,
        code, if_true]
      have split : value % 10 ^ (width + 1) = 10 * (value / 10 % 10 ^ width) + value % 10 := by
        rw [Nat.pow_succ, Nat.mul_comm, Nat.mod_mul]
        omega
      rw [split, Nat.pow_succ]
      have zero : '0'.toNat = 48 := rfl
      rw [zero]
      congr 1
      have shift : acc * (10 ^ width * 10) = 10 * (acc * 10 ^ width) := by
        rw [Nat.mul_comm (10 ^ width) 10, Nat.mul_left_comm]
      rw [shift]
      omega

theorem parseDigits_decimal {width : Nat} (positive : 0 < width) (value : Nat) :
    parseDigits (decimal width value) = some (value % 10 ^ width) := by
  have nonempty : decimal width value ≠ [] := by
    intro empty
    have length := length_decimal width value
    rw [empty, List.length_nil] at length
    omega
  rw [parseDigits, if_neg nonempty, foldlM_decimal, Nat.zero_mul, Nat.zero_add]

theorem isDigit_of_mem_decimal {width value : Nat} (char : Char)
    (member : char ∈ decimal width value) : char.isDigit = true := by
  induction width generalizing value with
  | zero => cases member
  | succ width inductionHypothesis =>
      rw [decimal, List.mem_append, List.mem_singleton] at member
      rcases member with before | rfl
      · exact inductionHypothesis before
      · exact (isDigit_ofNat (Nat.mod_lt value (by decide))).1

theorem parseU8_decimal (value : Nat) : parseU8 (decimal 2 value) = some (value % 100) := by
  have parsed := parseDigits_decimal (by decide : 0 < 2) value
  rw [show 10 ^ 2 = 100 from rfl] at parsed
  rw [← parsed]
  unfold parseU8
  split
  next digits split =>
    have digit := isDigit_of_mem_decimal '+' (by rw [split]; simp)
    cases digit
  next => rfl

theorem parseI32_decimal (value : Nat) :
    parseI32 (decimal 4 value) = some ((value % 10000 : Nat) : Int) := by
  have parsed : (parseDigits (decimal 4 value)).map Int.ofNat =
      some ((value % 10000 : Nat) : Int) := by
    rw [parseDigits_decimal (by decide : 0 < 4) value]
    rfl
  rw [← parsed]
  unfold parseI32
  split
  next digits split =>
    have digit := isDigit_of_mem_decimal '+' (by rw [split]; simp)
    cases digit
  next digits split =>
    have digit := isDigit_of_mem_decimal '-' (by rw [split]; simp)
    cases digit
  next => rfl

theorem daysInMonth_le (year : Int) (month : Nat) : daysInMonth year month ≤ 31 := by
  unfold daysInMonth
  split
  · split <;> decide
  all_goals decide

/-- The fields of the clock fit the widths they are written with. -/
theorem fields_fit (now : OffsetDateTime) :
    now.year % 10000 = now.year ∧ now.month % 100 = now.month ∧ now.day % 100 = now.day ∧
      now.hour % 100 = now.hour ∧ now.minute % 100 = now.minute ∧
      now.second % 100 = now.second := by
  have valid := now.valid
  have year := now.yearBound
  have days := daysInMonth_le now.year now.month
  simp only [validDateTime, Bool.and_eq_true, decide_eq_true_eq] at valid
  omega

/-- Whole seconds are rounded towards zero, so the nanoseconds a date leaves out do no harm. -/
theorem wholeSeconds_le {duration : Int} (bound : duration.natAbs < 901 * 1000000000) :
    (duration.tdiv 1000000000).natAbs ≤ 15 * 60 := by
  rw [Int.natAbs_tdiv]
  change duration.natAbs / 1000000000 ≤ 15 * 60
  omega

/-- The date the client writes is within the skew for 15 minutes around its clock. -/
theorem withinSkew_amzDate {now serverNow : OffsetDateTime}
    (close : (serverNow.nanoseconds - now.nanoseconds).natAbs ≤ 15 * 60 * 1000000000) :
    withinSkew (amzDate now) serverNow = true := by
  obtain ⟨year, month, day, hour, minute, second⟩ := fields_fit now
  have length : (amzDate now).length = 16 := by
    simp [amzDate, dateStamp, length_decimal]
  have yearRead : parseI32 ((amzDate now).take 4) = some (now.year : Int) :=
    (parseI32_decimal now.year).trans (by rw [year])
  have monthRead : parseU8 (((amzDate now).drop 4).take 2) = some now.month :=
    (parseU8_decimal now.month).trans (by rw [month])
  have dayRead : parseU8 (((amzDate now).drop 6).take 2) = some now.day :=
    (parseU8_decimal now.day).trans (by rw [day])
  have hourRead : parseU8 (((amzDate now).drop 9).take 2) = some now.hour :=
    (parseU8_decimal now.hour).trans (by rw [hour])
  have minuteRead : parseU8 (((amzDate now).drop 11).take 2) = some now.minute :=
    (parseU8_decimal now.minute).trans (by rw [minute])
  have secondRead : parseU8 (((amzDate now).drop 13).take 2) = some now.second :=
    (parseU8_decimal now.second).trans (by rw [second])
  have nanosecond := now.nanosecondBound
  unfold withinSkew
  rw [if_neg (by simp [length]), yearRead, monthRead, dayRead, hourRead, minuteRead, secondRead]
  simp only [now.valid, Bool.true_and, decide_eq_true_eq]
  apply wholeSeconds_le
  unfold OffsetDateTime.nanoseconds at close
  unfold OffsetDateTime.nanoseconds
  omega

end Date

section Authorization

theorem trim_of_ends {text : List Char}
    (head : ∀ char, text.head? = some char → char.isWhitespace = false)
    (last : ∀ char, text.getLast? = some char → char.isWhitespace = false) : trim text = text :=
  dropWhile_ends head last

theorem trim_space (text : List Char) : trim (' ' :: text) = trim text := by
  rw [trim, List.dropWhile_cons_of_pos (by decide)]
  rfl

theorem span_separator {name value : List Char} {separator : Char} (plain : separator ∉ name) :
    (name ++ separator :: value).span (· != separator) = (name, separator :: value) := by
  have kept : ∀ char ∈ name, (char != separator) = true := by
    intro char member
    simp only [bne_iff_ne]
    rintro rfl
    exact plain member
  rw [List.span_eq_takeWhile_dropWhile, takeWhile_append_stop (by simp),
    dropWhile_append_stop (by simp), List.takeWhile_eq_self_iff.mpr kept,
    List.dropWhile_eq_nil_iff.mpr kept, List.nil_append]

/-- The `Credential` field for the service `s3`. -/
def credential (accessKey date region : List Char) : List Char :=
  accessKey ++ '/' :: (date ++ '/' :: (region ++ '/' :: ("s3".toList ++ "/aws4_request".toList)))

theorem parsePart_credential {auth : ParsedAuth} {accessKey date region : List Char}
    (accessKeyPlain : '/' ∉ accessKey) (datePlain : '/' ∉ date) (regionPlain : '/' ∉ region) :
    parsePart auth ("Credential=".toList ++ credential accessKey date region) =
      .ok { auth with accessKey, date, region, service := "s3".toList } := by
  have whole : trim ("Credential=".toList ++ credential accessKey date region) =
      "Credential".toList ++ '=' :: credential accessKey date region := by
    apply trim_of_ends
    · intro char head
      cases head
      decide
    · intro char last
      simp [credential, List.getLast?_append, List.getLast?_cons] at last
      subst last
      decide
  have fields : (credential accessKey date region).splitOn '/' =
      [accessKey, date, region, "s3".toList, "aws4_request".toList] := by
    rw [credential, List.splitOn_append_cons_self_of_not_mem accessKeyPlain,
      List.splitOn_append_cons_self_of_not_mem datePlain,
      List.splitOn_append_cons_self_of_not_mem regionPlain]
    rfl
  rw [parsePart, whole, span_separator (by decide)]
  simp only [fields]
  rfl

def signedHeaderNames : List (List Char) :=
  ["host".toList, "x-amz-content-sha256".toList, "x-amz-date".toList]

theorem parsePart_signedHeaders (auth : ParsedAuth) :
    parsePart auth (" SignedHeaders=".toList ++ join ';' signedHeaderNames) =
      .ok { auth with signedHeaders := signedHeaderNames } := by
  rfl

theorem parsePart_signature {auth : ParsedAuth} {signature : List Char}
    (plain : ∀ char ∈ signature, char.isWhitespace = false) :
    parsePart auth (" Signature=".toList ++ signature) = .ok { auth with signature } := by
  have whole : trim (" Signature=".toList ++ signature) =
      "Signature".toList ++ '=' :: signature := by
    change trim (' ' :: ("Signature=".toList ++ signature)) = _
    rw [trim_space]
    apply trim_of_ends
    · intro char head
      cases head
      decide
    · intro char last
      have member := List.mem_of_getLast? last
      rcases List.mem_append.mp member with inName | inSignature
      · have none : ∀ char ∈ "Signature=".toList, char.isWhitespace = false :=
          Text.forall_mem_of_all (by decide)
        exact none char inName
      · exact plain char inSignature
  rw [parsePart, whole, span_separator (by decide)]
  rfl

theorem mem_hexLower {bytes : List UInt8} {char : Char} (member : char ∈ hexLower bytes) :
    char.isAlphanum = true := by
  obtain ⟨byte, _, inByte⟩ := List.mem_flatMap.mp member
  exact Uuid.mem_hexText inByte

theorem credentialStart_eq : "AWS4-HMAC-SHA256 Credential=".toList =
    algorithm ++ [' '] ++ "Credential=".toList := by decide

theorem namesStart_eq : ", SignedHeaders=".toList = ',' :: " SignedHeaders=".toList := by
  decide

theorem signatureStart_eq : ", Signature=".toList = ',' :: " Signature=".toList := by
  decide

/-- The header the client writes, read by the server. -/
theorem parseAuthz_authorizationHeader {accessKey region date : List Char} {signature : List UInt8}
    (accessKeyPlain : ',' ∉ accessKey ∧ '/' ∉ accessKey)
    (regionPlain : ',' ∉ region ∧ '/' ∉ region) (datePlain : ',' ∉ date ∧ '/' ∉ date)
    (signed : signature ≠ []) :
    parseAuthz (authorizationHeader accessKey region "s3".toList date (join ';' signedHeaderNames)
        (hexLower signature)) =
      if accessKey = [] then .error (.badRequest "incomplete auth header")
      else .ok
        { algorithm := algorithm
          accessKey := accessKey
          date := date
          region := region
          service := "s3".toList
          signedHeaders := signedHeaderNames
          signature := hexLower signature } := by
  have nonempty : hexLower signature ≠ [] := by
    intro empty
    exact signed (hexLower_injective empty)
  have plain : ∀ char ∈ hexLower signature, char.isWhitespace = false ∧ char ≠ ',' := by
    intro char member
    have alphanum := mem_hexLower member
    have implied : (!char.isAlphanum || (!char.isWhitespace && char != ',')) = true :=
      ascii_all (fun char => !char.isAlphanum || (!char.isWhitespace && char != ','))
        (by decide) (ascii_of_isAlphanum alphanum)
    simpa [alphanum] using implied
  have written : authorizationHeader accessKey region "s3".toList date
      (join ';' signedHeaderNames) (hexLower signature) = (algorithm ++ [' ']) ++
        (("Credential=".toList ++ credential accessKey date region) ++ ',' ::
          ((" SignedHeaders=".toList ++ join ';' signedHeaderNames) ++ ',' ::
            (" Signature=".toList ++ hexLower signature))) := by
    unfold authorizationHeader credential
    simp only [credentialStart_eq, namesStart_eq, signatureStart_eq]
    simp only [List.append_assoc, List.cons_append]
  have parts : (("Credential=".toList ++ credential accessKey date region) ++ ',' ::
      ((" SignedHeaders=".toList ++ join ';' signedHeaderNames) ++ ',' ::
        (" Signature=".toList ++ hexLower signature))).splitOn ',' =
      ["Credential=".toList ++ credential accessKey date region,
        " SignedHeaders=".toList ++ join ';' signedHeaderNames,
        " Signature=".toList ++ hexLower signature] := by
    rw [List.splitOn_append_cons_self_of_not_mem, List.splitOn_append_cons_self_of_not_mem,
      List.splitOn_eq_singleton]
    · intro comma
      rcases List.mem_append.mp comma with impossible | inSignature
      · exact absurd impossible (by decide)
      · exact (plain ',' inSignature).2 rfl
    · decide
    · simp [credential, accessKeyPlain.1, regionPlain.1, datePlain.1]
  rw [parseAuthz, written, if_pos (List.isPrefixOf_iff_prefix.mpr (List.prefix_append _ _)),
    List.drop_left' (by decide), parts]
  simp only [List.foldlM_cons, List.foldlM_nil,
    parsePart_credential accessKeyPlain.2 datePlain.2 regionPlain.2, parsePart_signedHeaders,
    parsePart_signature fun char member => (plain char member).1, Except.bind, bind, pure,
    Except.pure, nonempty, or_false]

end Authorization

end S3Driver

end Picroom
