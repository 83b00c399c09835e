import Picroom.Domain.Key
import Picroom.Web.Url

/-!
# The URL of an object

`S3Driver::object_url` percent-encodes the segments of a key and appends them to the endpoint
and the bucket, or to the bucket's host, and parses the text.  The parser removes `.`
segments, so two keys can have one URL; `objectUrl_eq_iff` says when.
-/

namespace Picroom

open Text Web

structure S3Config where
  bucket : List Char
  region : List Char
  endpoint : Option (List Char)
  accessKeyId : List Char
  secretAccessKey : List Char
  pathStyle : Bool

structure S3Driver where
  config : S3Config
  baseUrl : Url

namespace S3Driver

/-- The endpoint, or the regional one of AWS. -/
def resolveBaseUrl (parseAuthority : List Char → List Char → Option Authority)
    (config : S3Config) : Option Url :=
  match config.endpoint with
  | some endpoint => parse parseAuthority endpoint
  | none => parse parseAuthority ("https://s3.".toList ++ config.region ++ ".amazonaws.com".toList)

def new (parseAuthority : List Char → List Char → Option Authority) (config : S3Config) :
    Option S3Driver :=
  (resolveBaseUrl parseAuthority config).map fun baseUrl => ⟨config, baseUrl⟩

def unreserved (char : Char) : Bool :=
  char.isAlphanum || char == '-' || char == '.' || char == '_' || char == '~'

def percentEncodeSegment (text : List Char) : List Char := percentEncode unreserved text

/-- `trim_end_matches('/')`. -/
def trimEnd (text : List Char) : List Char := (text.reverse.dropWhile (· == '/')).reverse

def keyPath (key : List Char) : List Char :=
  ['/'].intercalate ((StorageKey.segments key).map percentEncodeSegment)

def urlText (driver : S3Driver) (bucket key : List Char) : List Char :=
  if driver.config.pathStyle then
    let base := trimEnd driver.baseUrl.asStr
    if keyPath key = [] then base ++ '/' :: (percentEncodeSegment bucket ++ ['/'])
    else base ++ '/' :: (percentEncodeSegment bucket ++ '/' :: keyPath key)
  else
    let host := driver.baseUrl.authority.host
    if keyPath key = [] then
      driver.baseUrl.scheme ++ ':' :: '/' :: '/' :: (bucket ++ '.' :: (host ++ ['/']))
    else
      driver.baseUrl.scheme ++ ':' :: '/' :: '/' :: (bucket ++ '.' :: (host ++ '/' :: keyPath key))

def objectUrl (parseAuthority : List Char → List Char → Option Authority) (driver : S3Driver)
    (bucket key : List Char) : Option Url :=
  parse parseAuthority (urlText driver bucket key)

section Encoding

theorem safeChar_of_unreserved {char : Char} (keeps : unreserved char = true) :
    safeChar char = true := by
  have ascii : char.toNat < 128 := by
    simp only [unreserved, Bool.or_eq_true, beq_iff_eq] at keeps
    rcases keeps with (((alphanum | rfl) | rfl) | rfl) | rfl
    · exact ascii_of_isAlphanum alphanum
    all_goals decide
  have implied : (!unreserved char || safeChar char) = true :=
    ascii_all (fun char => !unreserved char || safeChar char) (by decide) ascii
  simpa [keeps] using implied

theorem safeChar_hexDigit {value : Nat} (digit : value < 16) :
    safeChar (hexDigit value) = true := by
  interval_cases value <;> decide

theorem safeChar_percentEncodeSegment (text : List Char) :
    ∀ char ∈ percentEncodeSegment text, safeChar char = true :=
  percentEncode_all (fun _ => safeChar_of_unreserved) (by decide) fun _ => safeChar_hexDigit

theorem percentEncodeSegment_injective : Function.Injective percentEncodeSegment :=
  percentEncode_injective (by decide) (by decide)

theorem formDecode_percentEncodeSegment (text : List Char) :
    formDecode (percentEncodeSegment text) = asBytes text :=
  formDecode_percentEncode (by decide) (by decide) text

/-- A text that reads as dots is the encoding of dots only. -/
theorem eq_of_percentEncodeSegment {text dotted plain : List Char}
    (encoded : percentEncodeSegment text = dotted) (reads : formDecode dotted = asBytes plain) :
    text = plain := by
  apply asBytes_injective
  rw [← formDecode_percentEncodeSegment text, encoded, reads]

theorem eq_dot_of_isSingleDot {text : List Char}
    (dot : isSingleDot (percentEncodeSegment text) = true) : text = ['.'] := by
  simp only [isSingleDot, dots, List.contains_iff_mem, List.mem_cons, List.not_mem_nil,
    or_false] at dot
  rcases dot with encoded | encoded | encoded
  all_goals exact eq_of_percentEncodeSegment encoded (by decide)

theorem eq_dots_of_isDoubleDot {text : List Char}
    (climbs : isDoubleDot (percentEncodeSegment text) = true) : text = ['.', '.'] := by
  have reads : ∀ dotted ∈ dots.flatMap fun first => dots.map fun second => first ++ second,
      formDecode dotted = asBytes ['.', '.'] := by decide
  rw [isDoubleDot, List.contains_iff_mem] at climbs
  exact eq_of_percentEncodeSegment rfl (reads _ climbs)

theorem isSingleDot_percentEncodeSegment {text : List Char} (plain : '%' ∉ text) :
    isSingleDot (percentEncodeSegment text) = isSingleDot text := by
  rw [Bool.eq_iff_iff]
  constructor
  · intro dot
    rw [eq_dot_of_isSingleDot dot]
    decide
  · intro dot
    simp only [isSingleDot, dots, List.contains_iff_mem, List.mem_cons, List.not_mem_nil,
      or_false] at dot
    rcases dot with rfl | rfl | rfl
    · decide
    · exact absurd (by decide) plain
    · exact absurd (by decide) plain

end Encoding

section Trim

theorem trimEnd_append {first : List Char} {last : Char} (different : last ≠ '/')
    (second : List Char) : trimEnd (first ++ last :: second) = first ++ last :: trimEnd second := by
  rw [trimEnd, List.reverse_append, List.reverse_cons, List.append_assoc, List.singleton_append,
    dropWhile_append_stop (by simpa using different), List.reverse_append, List.reverse_cons,
    List.reverse_reverse, List.append_assoc, List.singleton_append]
  rfl

theorem any_dropWhile {drops ends : Char → Bool}
    (kept : ∀ char, ends char = true → drops char = false) (text : List Char) :
    (text.dropWhile drops).any ends = text.any ends := by
  induction text with
  | nil => rfl
  | cons char rest inductionHypothesis =>
      rw [List.dropWhile_cons]
      split
      next dropped =>
        have ordinary : ends char = false := by
          by_contra isEnd
          rw [kept char (by simpa using isEnd)] at dropped
          cases dropped
        rw [inductionHypothesis, List.any_cons, ordinary, Bool.false_or]
      next => rfl

theorem any_trimEnd (text : List Char) : (trimEnd text).any endsPath = text.any endsPath := by
  rw [trimEnd, List.any_reverse, any_dropWhile, List.any_reverse]
  intro char ends
  by_contra slash
  simp only [Bool.not_eq_false, beq_iff_eq] at slash
  subst slash
  cases ends

end Trim

/-- What stands between the scheme and the path of a key. -/
def front (driver : S3Driver) (bucket : List Char) : List Char :=
  if driver.config.pathStyle then
    driver.baseUrl.authority.text ++ (trimEnd (driver.baseUrl.path ++
      ((driver.baseUrl.query.map ('?' :: ·)).getD [] ++
        (driver.baseUrl.fragment.map ('#' :: ·)).getD [])) ++ '/' :: percentEncodeSegment bucket)
  else bucket ++ '.' :: driver.baseUrl.authority.host

/-- The path of a key comes behind a query or fragment of the endpoint, or of the bucket's name. -/
def behindQuery (driver : S3Driver) (bucket : List Char) : Bool :=
  if driver.config.pathStyle then
    driver.baseUrl.query.isSome || driver.baseUrl.fragment.isSome
  else bucket.any endsPath

theorem trimEnd_asStr (url : Url) :
    trimEnd url.asStr = url.scheme ++ ':' :: '/' :: '/' :: (url.authority.text ++
      trimEnd (url.path ++ ((url.query.map ('?' :: ·)).getD [] ++
        (url.fragment.map ('#' :: ·)).getD []))) := by
  obtain ⟨start, last, split⟩ :=
    (List.eq_nil_or_concat url.authority.text).resolve_left url.authority.nonempty
  have notSlash : last ≠ '/' := by
    rintro rfl
    have plain := url.authority.plain '/' (by simp [split])
    cases plain.2.1
  have whole : url.asStr = (url.scheme ++ ':' :: '/' :: '/' :: start) ++ last ::
      (url.path ++ ((url.query.map ('?' :: ·)).getD [] ++
        (url.fragment.map ('#' :: ·)).getD [])) := by
    simp [Url.asStr, split]
  rw [whole, trimEnd_append notSlash]
  simp [split]

theorem urlText_eq (driver : S3Driver) (bucket key : List Char) :
    urlText driver bucket key =
      driver.baseUrl.scheme ++
        ':' :: '/' :: '/' :: (front driver bucket ++ '/' :: keyPath key) := by
  unfold urlText front
  cases driver.config.pathStyle with
  | true =>
      simp only [if_true, trimEnd_asStr]
      split
      next empty => simp [empty]
      next => simp
  | false =>
      simp only [Bool.false_eq_true, if_false]
      split
      next empty => simp [empty]
      next => simp

theorem trunk_front_ne_nil (driver : S3Driver) (bucket : List Char) :
    trunk (front driver bucket) ≠ [] := by
  have holds : ∃ char ∈ front driver bucket, isSlash char = false ∧ isBreak char = false := by
    unfold front
    split
    next =>
      obtain ⟨first, rest, split⟩ :=
        List.exists_cons_of_ne_nil driver.baseUrl.authority.nonempty
      obtain ⟨isPrintable, slash, _⟩ := driver.baseUrl.authority.plain first (by simp [split])
      exact ⟨first, by simp [split], slash, (isControl_of_printable isPrintable).2⟩
    next => exact ⟨'.', by simp, by decide, by decide⟩
  obtain ⟨char, member, slash, noBreak⟩ := holds
  intro empty
  have dropped := List.dropWhile_eq_nil_iff.mp empty char
    (List.mem_filter.mpr ⟨member, by simp [noBreak]⟩)
  rw [slash] at dropped
  cases dropped

theorem any_trunk (text : List Char) :
    ((trunk text).dropWhile (!endsAuthority ·)).any endsPath = text.any endsPath := by
  have ordinary : ∀ char, endsPath char = true →
      isSlash char = false ∧ isBreak char = false ∧ endsAuthority char = true := by
    intro char ends
    simp only [endsPath, Bool.or_eq_true, beq_iff_eq] at ends
    rcases ends with rfl | rfl <;> decide
  rw [any_dropWhile fun char ends => by simp [(ordinary char ends).2.2], trunk,
    any_dropWhile fun char ends => (ordinary char ends).1, List.any_filter]
  congr 1
  funext char
  cases ends : endsPath char with
  | true => simp [(ordinary char ends).2.1]
  | false => simp

theorem any_front (driver : S3Driver) (bucket : List Char) :
    (front driver bucket).any endsPath = behindQuery driver bucket := by
  have none : ∀ text : List Char, (∀ char ∈ text, endsPath char = false) →
      text.any endsPath = false := by
    intro text plain
    rw [List.any_eq_false]
    intro char member
    simp [plain char member]
  unfold front behindQuery
  split
  next =>
    have authority := none _ fun char member => (driver.baseUrl.authority.plain char member).2.2
    have path := none _ fun char member => (driver.baseUrl.pathPlain char member).2
    have encoded := none _ fun char member =>
      (of_safeChar (safeChar_percentEncodeSegment bucket char member)).2.2.2.2.1
    have slash : endsPath '/' = false := by decide
    simp only [List.any_append, List.any_cons, any_trimEnd, authority, path, encoded, slash,
      Bool.false_or, Bool.or_false]
    cases driver.baseUrl.query <;> cases driver.baseUrl.fragment <;> simp [endsPath]
  next =>
    have host := none _ fun char member => (driver.baseUrl.authority.hostPlain char member).2.2
    have point : endsPath '.' = false := by decide
    simp only [List.any_append, List.any_cons, host, point, Bool.or_false]

section Keys

/-- The segments of a key. -/
def keySegments (key : StorageKey) : List (List Char) := StorageKey.segments key.text.toList

theorem keySegments_ne_nil (key : StorageKey) : keySegments key ≠ [] :=
  List.splitOn_ne_nil '/' key.text.toList

theorem keySegments_injective : Function.Injective keySegments := by
  intro first second same
  apply StorageKey.ext
  apply String.toList_injective
  have joined := congrArg (['/'].intercalate ·) same
  simpa only [keySegments, StorageKey.segments, List.intercalate_splitOn] using joined

theorem percent_not_mem_segment {key : StorageKey} {segment : List Char}
    (member : segment ∈ keySegments key) : '%' ∉ segment := by
  intro percent
  obtain ⟨_, _, _, _, chars⟩ := StorageKey.validate_eq_ok_iff.mp key.valid
  have valid := chars '%' (mem_of_mem_splitOnP member '%' percent).1
  cases valid

theorem safeSegment_encoded {key : StorageKey} :
    ∀ segment ∈ (keySegments key).map percentEncodeSegment, SafeSegment segment := by
  intro encoded member
  obtain ⟨segment, present, rfl⟩ := List.mem_map.mp member
  refine ⟨?_, safeChar_percentEncodeSegment segment⟩
  by_contra climbs
  obtain ⟨_, _, _, noClimb, _⟩ := StorageKey.validate_eq_ok_iff.mp key.valid
  rw [Bool.not_eq_false] at climbs
  rw [eq_dots_of_isDoubleDot climbs] at present
  exact noClimb present

variable {parseAuthority : List Char → List Char → Option Authority}

theorem objectUrl_eq_keyPath (driver : S3Driver) (bucket key : List Char) :
    objectUrl parseAuthority driver bucket key =
      (parseAuthority driver.baseUrl.scheme
          ((trunk (front driver bucket)).takeWhile (!endsAuthority ·))).map fun authority =>
        parseRest driver.baseUrl.scheme driver.baseUrl.special authority
          ((trunk (front driver bucket)).dropWhile (!endsAuthority ·) ++ '/' :: keyPath key) := by
  rw [objectUrl, urlText_eq]
  apply parse_append driver.baseUrl.special (trunk_front_ne_nil driver bucket)
  intro char member
  rcases mem_of_mem_intercalate member with rfl | ⟨segment, present, inSegment⟩
  · decide
  · obtain ⟨original, _, rfl⟩ := List.mem_map.mp present
    exact (of_safeChar (safeChar_percentEncodeSegment original char inSegment)).2.2.2.2.2

theorem objectUrl_eq (driver : S3Driver) (bucket : List Char) (key : StorageKey) :
    objectUrl parseAuthority driver bucket key.text.toList =
      (parseAuthority driver.baseUrl.scheme
          ((trunk (front driver bucket)).takeWhile (!endsAuthority ·))).map fun authority =>
        parseRest driver.baseUrl.scheme driver.baseUrl.special authority
          ((trunk (front driver bucket)).dropWhile (!endsAuthority ·) ++
            '/' :: ['/'].intercalate ((keySegments key).map percentEncodeSegment)) :=
  objectUrl_eq_keyPath driver bucket key.text.toList

theorem settle_encoded_eq_iff {first second : StorageKey} :
    settle ((keySegments first).map percentEncodeSegment) =
        settle ((keySegments second).map percentEncodeSegment) ↔
      settle (keySegments first) = settle (keySegments second) := by
  have settled : ∀ key : StorageKey, settle ((keySegments key).map percentEncodeSegment) =
      (settle (keySegments key)).map percentEncodeSegment := by
    intro key
    apply settle_map _ rfl
    intro segment member
    exact isSingleDot_percentEncodeSegment (percent_not_mem_segment member)
  rw [settled first, settled second]
  exact (List.map_injective_iff.mpr percentEncodeSegment_injective).eq_iff

/-- When two keys have one URL: their paths differ in dot segments only, and the path is not
behind a query. -/
theorem objectUrl_eq_iff {driver : S3Driver} {bucket : List Char} {first second : StorageKey}
    {url : Url} (built : objectUrl parseAuthority driver bucket first.text.toList = some url) :
    objectUrl parseAuthority driver bucket first.text.toList =
        objectUrl parseAuthority driver bucket second.text.toList ↔
      first = second ∨ behindQuery driver bucket = false ∧
        settle (keySegments first) = settle (keySegments second) := by
  rw [objectUrl_eq] at built ⊢
  rw [objectUrl_eq]
  obtain ⟨authority, parsed, _⟩ := Option.map_eq_some_iff.mp built
  rw [parsed, Option.map_some, Option.map_some, Option.some.injEq,
    parseRest_append_eq_iff (by simpa using keySegments_ne_nil first)
      (by simpa using keySegments_ne_nil second) safeSegment_encoded safeSegment_encoded,
    any_trunk, any_front, settle_encoded_eq_iff,
    (List.map_injective_iff.mpr percentEncodeSegment_injective).eq_iff,
    keySegments_injective.eq_iff]

end Keys

end S3Driver

end Picroom
