import Picroom.S3.Agreement
import Picroom.Storage.S3List

/-!
# Addresses of a bucket and of its objects

`object_url` writes the address of an object behind the endpoint's text, or behind the host with
the bucket in front of it; `list` replaces the path of the endpoint.  The bucket's root is one URL
only where the endpoint is addressed by path, has no path, query or fragment of its own, and the
name of the bucket is written alike by both.
-/

namespace Picroom.S3Driver

open Text Web SigV4

variable {parseAuthority : List Char → List Char → Option Authority}

/-- What the URL parser does with authorities: it reads back what it wrote, and a label in front
of a host makes another host. -/
structure AuthorityParser (parseAuthority : List Char → List Char → Option Authority) : Prop where
  reads : ∀ scheme text authority, parseAuthority scheme text = some authority →
    parseAuthority scheme authority.text = some authority
  labels : ∀ scheme label host authority,
    parseAuthority scheme (label ++ '.' :: host) = some authority → authority.host ≠ host

def withoutQuery (url : Url) : Url :=
  { url with
    query := none
    queryPrintable := by
      intro text impossible
      cases impossible }

/-- Every page of a listing is requested from the bucket's root, and every object's URL keeps
the scheme and the port of the endpoint. -/
structure AddressesAgree (parseAuthority : List Char → List Char → Option Authority)
    (driver : S3Driver) : Prop where
  root : ∀ start token, objectUrl parseAuthority driver driver.config.bucket [] =
    some (withoutQuery (pageUrl driver start token))
  origin : ∀ key url, objectUrl parseAuthority driver driver.config.bucket key = some url →
    url.scheme = driver.baseUrl.scheme ∧ url.authority.port = driver.baseUrl.authority.port

/-- The parser drops the character, or keeps it where the driver escapes it. -/
def spelledAlike (char : Char) : Bool :=
  !isBreak char && (!keepsPath char || unreserved char)

/-- The segments of the endpoint's path. -/
def endpointSegments (driver : S3Driver) : List (List Char) :=
  (stem (trimEnd driver.baseUrl.path)).foldl stepInner []

/-- The endpoint is addressed by path and has none of its own, up to one segment that a bucket
named `..` climbs out of. -/
structure PlainRoot (driver : S3Driver) : Prop where
  style : driver.config.pathStyle = true
  query : driver.baseUrl.query = none
  fragment : driver.baseUrl.fragment = none
  spelled : ∀ char ∈ driver.config.bucket, spelledAlike char = true
  path : endpointSegments driver = [] ∨
    driver.config.bucket = ['.', '.'] ∧ (endpointSegments driver).length ≤ 1

section Listing

theorem withoutQuery_pageUrl (driver : S3Driver) (start : Option StorageKey)
    (token : Option (List Char)) :
    withoutQuery (pageUrl driver start token) =
      withoutQuery (driver.baseUrl.setPath ('/' :: (driver.config.bucket ++ ['/']))) := by
  cases start <;> cases token <;> rfl

/-- The segments of the path that `list` sets. -/
def listedSegments (bucket : List Char) : List (List Char) :=
  ((bucket.filter (!isBreak ·)).splitOnP isSlash).foldl stepInner []

theorem path_setPath (url : Url) (bucket : List Char) :
    (url.setPath ('/' :: (bucket ++ ['/']))).path = renderPath (listedSegments bucket ++ [[]]) := by
  have filtered : ('/' :: (bucket ++ ['/'])).filter (!isBreak ·) =
      '/' :: (bucket.filter (!isBreak ·) ++ ['/']) := by
    rw [List.filter_cons_of_pos (by decide), List.filter_append]
    rfl
  have parts : pathParts ('/' :: (bucket.filter (!isBreak ·) ++ ['/'])) =
      (bucket.filter (!isBreak ·)).splitOnP isSlash ++ [[]] :=
    List.splitOnP_append_cons _ [] (by decide)
  change normalizePath (('/' :: (bucket ++ ['/'])).filter (!isBreak ·)) = _
  rw [filtered, normalizePath, parts, walkPath_closed]
  rfl

end Listing

section PathStyle

variable {driver : S3Driver}

/-- What follows the authority in front of a key, where the bucket is part of the path. -/
def behindAuthority (driver : S3Driver) (bucket : List Char) : List Char :=
  trimEnd (driver.baseUrl.path ++ ((driver.baseUrl.query.map ('?' :: ·)).getD [] ++
    (driver.baseUrl.fragment.map ('#' :: ·)).getD [])) ++ '/' :: percentEncodeSegment bucket

theorem filter_breaks_of_printable {text : List Char}
    (plain : ∀ char ∈ text, printable char = true) : text.filter (!isBreak ·) = text := by
  apply List.filter_eq_self.mpr
  intro char member
  simp [(isControl_of_printable (plain char member)).2]

theorem head_trimEnd_append {text : List Char} (rooted : text.head? = some '/')
    (rest : List Char) : (trimEnd text ++ '/' :: rest).head? = some '/' := by
  cases trimmed : trimEnd text with
  | nil => rfl
  | cons first others =>
      have start : trimEnd text <+: text := by
        have ending := List.dropWhile_suffix (l := text.reverse) (· == '/')
        exact List.reverse_suffix.mp (by simpa [trimEnd] using ending)
      rw [trimmed] at start
      obtain ⟨later, rfl⟩ := start
      exact rooted

/-- The authority of the endpoint ends where its path begins. -/
theorem trunk_front (style : driver.config.pathStyle = true) (bucket : List Char) :
    ∃ rest, (behindAuthority driver bucket).filter (!isBreak ·) = '/' :: rest ∧
      trunk (front driver bucket) = driver.baseUrl.authority.text ++ '/' :: rest := by
  have rooted : (behindAuthority driver bucket).head? = some '/' := by
    apply head_trimEnd_append
    rw [List.head?_append, driver.baseUrl.absolute]
    rfl
  obtain ⟨tail, split⟩ := List.head?_eq_some_iff.mp rooted
  refine ⟨tail.filter (!isBreak ·), by rw [split]; rfl, ?_⟩
  have authority := driver.baseUrl.authority.plain
  have kept := filter_breaks_of_printable fun char member => (authority char member).1
  obtain ⟨first, others, text⟩ := List.exists_cons_of_ne_nil driver.baseUrl.authority.nonempty
  have notSlash : isSlash first = false := (authority first (by simp [text])).2.1
  have written : front driver bucket =
      driver.baseUrl.authority.text ++ behindAuthority driver bucket := by
    rw [front, if_pos style]
    rfl
  rw [trunk, written, List.filter_append, kept, split, text, List.cons_append,
    List.dropWhile_cons_of_neg (by simp [notSlash])]
  rfl

/-- A path-style address: the endpoint's authority, and the rest behind it. -/
theorem objectUrl_of_pathStyle (style : driver.config.pathStyle = true)
    (bucket key : List Char) :
    objectUrl parseAuthority driver bucket key =
      (parseAuthority driver.baseUrl.scheme driver.baseUrl.authority.text).map fun authority =>
        parseRest driver.baseUrl.scheme driver.baseUrl.special authority
          ((behindAuthority driver bucket).filter (!isBreak ·) ++ '/' :: keyPath key) := by
  obtain ⟨rest, filtered, split⟩ := trunk_front style bucket
  have authority : ∀ char ∈ driver.baseUrl.authority.text, (!endsAuthority char) = true := by
    intro char member
    obtain ⟨_, slash, ends⟩ := driver.baseUrl.authority.plain char member
    simp [endsAuthority, slash, ends]
  rw [objectUrl_eq_keyPath, split, takeWhile_append_stop (by decide),
    dropWhile_append_stop (by decide), List.takeWhile_eq_self_iff.mpr authority,
    List.dropWhile_eq_nil_iff.mpr authority, filtered]
  rfl

end PathStyle

section Root

variable {driver : S3Driver}

/-- The segments of an object's path in front of its key. -/
def rootSegments (driver : S3Driver) : List (List Char) :=
  stepInner (endpointSegments driver) (percentEncodeSegment driver.config.bucket)

theorem behindAuthority_plain (query : driver.baseUrl.query = none)
    (fragment : driver.baseUrl.fragment = none) (bucket : List Char) :
    (behindAuthority driver bucket).filter (!isBreak ·) =
      trimEnd driver.baseUrl.path ++ '/' :: percentEncodeSegment bucket := by
  have written : behindAuthority driver bucket =
      trimEnd driver.baseUrl.path ++ '/' :: percentEncodeSegment bucket := by
    simp [behindAuthority, query, fragment]
  rw [written]
  apply filter_breaks_of_printable
  intro char member
  rcases List.mem_append.mp member with inPath | later
  · have start : char ∈ driver.baseUrl.path := by
      have trimmed := List.mem_reverse.mp inPath
      exact List.mem_reverse.mp (List.dropWhile_subset _ trimmed)
    exact (driver.baseUrl.pathPlain char start).1
  · rcases List.mem_cons.mp later with rfl | inBucket
    · decide
    · exact (of_safeChar (safeChar_percentEncodeSegment bucket char inBucket)).2.2.2.2.2

theorem not_ended (driver : S3Driver) (bucket : List Char) :
    (trimEnd driver.baseUrl.path ++ '/' :: percentEncodeSegment bucket).any endsPath = false := by
  have path : (trimEnd driver.baseUrl.path).any endsPath = false := by
    rw [any_trimEnd, List.any_eq_false]
    intro char member
    simp [(driver.baseUrl.pathPlain char member).2]
  have encoded : (percentEncodeSegment bucket).any endsPath = false := by
    rw [List.any_eq_false]
    intro char member
    simp [(of_safeChar (safeChar_percentEncodeSegment bucket char member)).2.2.2.2.1]
  have slash : endsPath '/' = false := by decide
  rw [List.any_append, List.any_cons, path, slash, encoded]
  rfl

theorem normalizePath_root (driver : S3Driver) :
    normalizePath (trimEnd driver.baseUrl.path ++
        '/' :: (percentEncodeSegment driver.config.bucket ++ ['/'])) =
      renderPath (rootSegments driver ++ [[]]) := by
  have plain : ∀ char ∈ percentEncodeSegment driver.config.bucket, isSlash char = false :=
    fun char member => (of_safeChar (safeChar_percentEncodeSegment _ char member)).2.2.2.1
  have parts : (percentEncodeSegment driver.config.bucket ++ ['/']).splitOnP isSlash =
      [percentEncodeSegment driver.config.bucket] ++ [[]] := by
    rw [List.splitOnP_append_cons_of_forall_mem plain '/' (by decide)]
    rfl
  rw [normalizePath, pathParts_append, parts, ← List.append_assoc, walkPath_closed,
    List.foldl_append]
  rfl

/-- The root of the bucket, as the objects are addressed. -/
theorem objectUrl_root (style : driver.config.pathStyle = true)
    (query : driver.baseUrl.query = none) (fragment : driver.baseUrl.fragment = none)
    (authority : parseAuthority driver.baseUrl.scheme driver.baseUrl.authority.text =
      some driver.baseUrl.authority) :
    ∃ url, objectUrl parseAuthority driver driver.config.bucket [] = some url ∧
      url.scheme = driver.baseUrl.scheme ∧ url.authority = driver.baseUrl.authority ∧
      url.path = renderPath (rootSegments driver ++ [[]]) ∧ url.query = none ∧
      url.fragment = none := by
  have safe : ∀ segment ∈ [([] : List Char)], SafeSegment segment := by
    intro segment member
    rw [List.mem_singleton.mp member]
    exact ⟨by decide, by simp⟩
  obtain ⟨path, noQuery, noFragment⟩ := @parseRest_append [[]] driver.baseUrl.scheme _
    driver.baseUrl.special driver.baseUrl.authority safe (not_ended driver driver.config.bucket)
  rw [objectUrl_of_pathStyle style, authority, behindAuthority_plain query fragment]
  refine ⟨_, rfl, rfl, rfl, ?_, noQuery, noFragment⟩
  rw [← normalizePath_root]
  refine Eq.trans path ?_
  simp

end Root

section Spelling

theorem keepsPath_of_unreserved (char : Char) (keeps : unreserved char = true) :
    keepsPath char = true := (of_safeChar (safeChar_of_unreserved keeps)).1

/-- Where both write the bucket alike, they write it the same. -/
theorem percentEncode_spelledAlike {bucket : List Char}
    (spelled : ∀ char ∈ bucket, spelledAlike char = true) :
    percentEncode keepsPath bucket = percentEncodeSegment bucket ∧
      bucket.filter (!isBreak ·) = bucket ∧ ∀ char ∈ bucket, isSlash char = false := by
  have cases : ∀ char ∈ bucket, isBreak char = false ∧
      (keepsPath char = false ∨ unreserved char = true) := by
    intro char member
    simpa [spelledAlike] using spelled char member
  refine ⟨?_, ?_, ?_⟩
  · apply percentEncode_congr
    intro char member _
    rcases (cases char member).2 with escaped | keeps
    · cases keeps : unreserved char with
      | false => exact escaped
      | true => exact absurd (keepsPath_of_unreserved char keeps) (by simp [escaped])
    · rw [keeps, keepsPath_of_unreserved char keeps]
  · apply List.filter_eq_self.mpr
    intro char member
    simp [(cases char member).1]
  · intro char member
    by_contra slash
    simp only [Bool.not_eq_false, isSlash, Bool.or_eq_true, beq_iff_eq] at slash
    have both := (cases char member).2
    rcases slash with rfl | rfl
    · revert both
      decide
    · revert both
      decide

/-- A listed segment that is the encoded bucket is the whole bucket, written alike. -/
theorem spelledAlike_of_listed {bucket segment : List Char}
    (listed : segment ∈ listedSegments bucket) (same : segment = percentEncodeSegment bucket) :
    ∀ char ∈ bucket, spelledAlike char = true := by
  rcases mem_foldl_stepInner listed with impossible | ⟨piece, present, rfl⟩
  · cases impossible
  · intro char member
    by_contra differs
    have within : piece.Sublist bucket :=
      (sublist_of_mem_splitOnP present).trans List.filter_sublist
    have shorter :
        (percentEncode keepsPath piece).length < (percentEncodeSegment bucket).length := by
      apply length_percentEncode_lt keepsPath_of_unreserved within member
      simp only [spelledAlike, Bool.and_eq_true, Bool.not_eq_true', Bool.or_eq_true, not_and_or,
        not_or, Bool.not_eq_false, Bool.not_eq_true] at differs
      rcases differs with breaks | ⟨kept, escaped⟩
      · apply Or.inl
        intro inPiece
        have unbroken := List.mem_filter.mp ((mem_of_mem_splitOnP present) char inPiece).1
        simp [breaks] at unbroken
      · exact Or.inr ⟨ascii_of_printable (plain_of_keepsPath kept).1, kept, escaped⟩
    rw [same] at shorter
    exact Nat.lt_irrefl _ shorter

end Spelling

section Segments

theorem percentEncode_encoded (bucket : List Char) :
    percentEncode keepsPath (percentEncodeSegment bucket) = percentEncodeSegment bucket := by
  apply percentEncode_of_kept
  intro char member
  obtain ⟨kept, _, _, _, _, isPrintable⟩ :=
    of_safeChar (safeChar_percentEncodeSegment _ char member)
  exact ⟨ascii_of_printable isPrintable, kept⟩

theorem isDoubleDot_percentEncodeSegment {text : List Char} (plain : '%' ∉ text) :
    isDoubleDot (percentEncodeSegment text) = isDoubleDot text := by
  have escapes : ∀ dotted ∈ dots.flatMap fun first => dots.map fun second => first ++ second,
      dotted = ['.', '.'] ∨ '%' ∈ dotted := by decide
  rw [Bool.eq_iff_iff]
  constructor
  · intro climbs
    rw [eq_dots_of_isDoubleDot climbs]
    decide
  · intro climbs
    rw [isDoubleDot, List.contains_iff_mem] at climbs
    rw [(escapes text climbs).resolve_right plain]
    decide

/-- A bucket that both write alike takes the same step in either path. -/
theorem listedSegments_of_spelled {bucket : List Char}
    (spelled : ∀ char ∈ bucket, spelledAlike char = true) :
    listedSegments bucket = stepInner [] (percentEncodeSegment bucket) := by
  obtain ⟨same, unbroken, slashes⟩ := percentEncode_spelledAlike spelled
  have plain : '%' ∉ bucket := by
    intro percent
    have impossible := spelled '%' percent
    revert impossible
    decide
  rw [listedSegments, unbroken, List.splitOnP_eq_singleton slashes, List.foldl_cons, List.foldl_nil,
    stepInner, stepInner, isDoubleDot_percentEncodeSegment plain,
    isSingleDot_percentEncodeSegment plain, percentEncode_encoded, same]

theorem stepInner_eq_iff {bucket : List Char} (path : List (List Char)) :
    stepInner [] (percentEncodeSegment bucket) = stepInner path (percentEncodeSegment bucket) ↔
      path = [] ∨ bucket = ['.', '.'] ∧ path.length ≤ 1 := by
  unfold stepInner
  split_ifs with climbs dot
  · rw [eq_dots_of_isDoubleDot climbs]
    cases path with
    | nil => simp
    | cons first rest => cases rest <;> simp
  · rw [eq_dot_of_isSingleDot dot]
    simp [eq_comm]
  · have ordinary : bucket ≠ ['.', '.'] := by
      rintro rfl
      exact climbs (by decide)
    simp [ordinary]

theorem spelled_of_dots {bucket : List Char} (dotted : bucket = ['.'] ∨ bucket = ['.', '.']) :
    ∀ char ∈ bucket, spelledAlike char = true := by
  rcases dotted with rfl | rfl
  · exact forall_mem_of_all (by decide)
  · exact forall_mem_of_all (by decide)

/-- The two paths to the root are one exactly for a bucket written alike behind no segments. -/
theorem segments_eq_iff (driver : S3Driver) :
    listedSegments driver.config.bucket = rootSegments driver ↔
      (∀ char ∈ driver.config.bucket, spelledAlike char = true) ∧
        (endpointSegments driver = [] ∨
          driver.config.bucket = ['.', '.'] ∧ (endpointSegments driver).length ≤ 1) := by
  constructor
  · intro same
    have spelled : ∀ char ∈ driver.config.bucket, spelledAlike char = true := by
      by_cases climbs : isDoubleDot (percentEncodeSegment driver.config.bucket) = true
      · exact spelled_of_dots (Or.inr (eq_dots_of_isDoubleDot climbs))
      · by_cases dot : isSingleDot (percentEncodeSegment driver.config.bucket) = true
        · exact spelled_of_dots (Or.inl (eq_dot_of_isSingleDot dot))
        · apply spelledAlike_of_listed _ rfl
          rw [same, rootSegments, stepInner, if_neg climbs, if_neg dot, percentEncode_encoded]
          simp
    refine ⟨spelled, (stepInner_eq_iff _).mp ?_⟩
    rw [← listedSegments_of_spelled spelled, same]
    rfl
  · rintro ⟨spelled, path⟩
    rw [listedSegments_of_spelled spelled, (stepInner_eq_iff _).mpr path]
    rfl

theorem slash_not_mem_of_walked {pieces : List (List Char)}
    (plain : ∀ piece ∈ pieces, ∀ char ∈ piece, isSlash char = false) :
    ∀ segment ∈ pieces.foldl stepInner [] ++ [[]], '/' ∉ segment := by
  intro segment member slash
  rcases List.mem_append.mp member with walked | last
  · rcases mem_foldl_stepInner walked with impossible | ⟨piece, present, rfl⟩
    · cases impossible
    · -- Without a slash to keep, the piece is written as if slashes were escaped.
      have escaped : percentEncode keepsPath piece =
          percentEncode (fun char => keepsPath char && char != '/') piece := by
        apply percentEncode_congr
        intro char inPiece _
        have ordinary : char ≠ '/' := by
          rintro rfl
          have impossible := plain piece present '/' inPiece
          revert impossible
          decide
        simp [ordinary]
      rw [escaped] at slash
      rcases mem_percentEncode slash with kept | percent | ⟨value, digit, same⟩
      · simp at kept
      · cases percent
      · interval_cases value <;> cases same
  · rw [List.mem_singleton.mp last] at slash
    cases slash

theorem plain_of_mem_splitOnP {text piece : List Char} (member : piece ∈ text.splitOnP isSlash) :
    ∀ char ∈ piece, isSlash char = false :=
  fun char inPiece => (mem_of_mem_splitOnP member char inPiece).2

/-- The two roots are one path exactly when their segments are the same. -/
theorem path_eq_iff (driver : S3Driver) :
    renderPath (rootSegments driver ++ [[]]) =
        renderPath (listedSegments driver.config.bucket ++ [[]]) ↔
      rootSegments driver = listedSegments driver.config.bucket := by
  have stemPlain : ∀ text, ∀ piece ∈ stem text, ∀ char ∈ piece, isSlash char = false := by
    intro text piece member
    cases text with
    | nil => cases member
    | cons first rest =>
        rw [stem, pathParts] at member
        split_ifs at member
        · exact plain_of_mem_splitOnP member
        · exact plain_of_mem_splitOnP member
  have encodedPlain : ∀ char ∈ percentEncodeSegment driver.config.bucket, isSlash char = false :=
    fun char member => (of_safeChar (safeChar_percentEncodeSegment _ char member)).2.2.2.1
  have rootPlain : ∀ segment ∈ rootSegments driver ++ [[]], '/' ∉ segment := by
    have walked : rootSegments driver = (stem (trimEnd driver.baseUrl.path) ++
        [percentEncodeSegment driver.config.bucket]).foldl stepInner [] := by
      rw [List.foldl_append]
      rfl
    rw [walked]
    apply slash_not_mem_of_walked
    intro piece member
    rcases List.mem_append.mp member with inStem | last
    · exact stemPlain _ piece inStem
    · rw [List.mem_singleton.mp last]
      exact encodedPlain
  have listedPlain := slash_not_mem_of_walked
    fun piece (member : piece ∈ (driver.config.bucket.filter (!isBreak ·)).splitOnP isSlash) =>
      plain_of_mem_splitOnP member
  constructor
  · intro same
    exact List.append_cancel_right (renderPath_inj (by simp) (by simp) rootPlain listedPlain same)
  · intro same
    rw [same]

end Segments

section Agreement

variable {driver : S3Driver}

/-- The endpoint's own query would come in front of the object. -/
theorem query_of_pathStyle (style : driver.config.pathStyle = true) {text : List Char}
    (query : driver.baseUrl.query = some text) {bucket key : List Char} {url : Url}
    (built : objectUrl parseAuthority driver bucket key = some url) : url.query ≠ none := by
  rw [objectUrl_of_pathStyle style] at built
  obtain ⟨authority, _, rfl⟩ := Option.map_eq_some_iff.mp built
  have split : ∃ rest, (behindAuthority driver bucket).filter (!isBreak ·) ++ '/' :: keyPath key =
      driver.baseUrl.path ++ '?' :: rest := by
    have kept := filter_breaks_of_printable fun char member =>
      (driver.baseUrl.pathPlain char member).1
    rw [behindAuthority, query, Option.map_some, Option.getD_some, List.cons_append,
      trimEnd_append (by decide), List.append_assoc, List.filter_append, kept, List.cons_append,
      List.filter_cons_of_pos (by decide), List.append_assoc, List.cons_append]
    exact ⟨_, rfl⟩
  obtain ⟨rest, split⟩ := split
  have plain : ∀ char ∈ driver.baseUrl.path, (!endsPath char) = true := by
    intro char member
    simp [(driver.baseUrl.pathPlain char member).2]
  rw [split, parseRest]
  dsimp only
  rw [dropWhile_append_stop (by decide), List.dropWhile_eq_nil_iff.mpr plain, List.nil_append,
    List.takeWhile_cons_of_pos (by decide)]
  simp

theorem addressesAgree_of_plainRoot
    (authority : parseAuthority driver.baseUrl.scheme driver.baseUrl.authority.text =
      some driver.baseUrl.authority) (plain : PlainRoot driver) :
    AddressesAgree parseAuthority driver := by
  constructor
  · intro start token
    obtain ⟨url, built, sameScheme, sameAuthority, path, noQuery, noFragment⟩ :=
      objectUrl_root plain.style plain.query plain.fragment authority
    rw [built, withoutQuery_pageUrl, Option.some.injEq]
    have same := ((segments_eq_iff driver).mpr ⟨plain.spelled, plain.path⟩).symm
    have samePath := path.trans (((path_eq_iff driver).mpr same).trans
      (path_setPath driver.baseUrl driver.config.bucket).symm)
    exact Url.ext_of_parts sameScheme sameAuthority samePath noQuery
      (noFragment.trans plain.fragment.symm)
  · intro key url built
    rw [objectUrl_of_pathStyle plain.style, authority] at built
    obtain ⟨_, same, rfl⟩ := Option.map_eq_some_iff.mp built
    cases same
    exact ⟨rfl, rfl⟩

/-- With the bucket in front of the host, the address is another host's. -/
theorem host_of_virtualHosted (labels : ∀ scheme label host authority,
      parseAuthority scheme (label ++ '.' :: host) = some authority → authority.host ≠ host)
    (style : driver.config.pathStyle = false) {bucket key : List Char}
    (plain : ∀ char ∈ bucket, endsAuthority char = false) {url : Url}
    (built : objectUrl parseAuthority driver bucket key = some url) :
    url.authority.host ≠ driver.baseUrl.authority.host := by
  have hostPlain := driver.baseUrl.authority.hostPlain
  have written : (trunk (front driver bucket)).takeWhile (!endsAuthority ·) =
      bucket.filter (!isBreak ·) ++ '.' :: driver.baseUrl.authority.host := by
    have kept := filter_breaks_of_printable fun char member => (hostPlain char member).1
    have front_eq : (front driver bucket).filter (!isBreak ·) =
        bucket.filter (!isBreak ·) ++ '.' :: driver.baseUrl.authority.host := by
      rw [front, if_neg (by simp [style]), List.filter_append,
        List.filter_cons_of_pos (by decide), kept]
    have whole : ∀ char ∈ bucket.filter (!isBreak ·) ++ '.' :: driver.baseUrl.authority.host,
        endsAuthority char = false := by
      intro char member
      rcases List.mem_append.mp member with inBucket | later
      · exact plain char (List.mem_of_mem_filter inBucket)
      · rcases List.mem_cons.mp later with rfl | inHost
        · decide
        · obtain ⟨_, slash, ends⟩ := hostPlain char inHost
          simp [endsAuthority, slash, ends]
    have undropped : (bucket.filter (!isBreak ·) ++
        '.' :: driver.baseUrl.authority.host).dropWhile isSlash =
          bucket.filter (!isBreak ·) ++ '.' :: driver.baseUrl.authority.host := by
      apply List.dropWhile_eq_self_iff.mpr
      intro nonempty slash
      have first := whole _ (List.getElem_mem nonempty)
      simp [endsAuthority, slash] at first
    rw [trunk, front_eq, undropped]
    apply List.takeWhile_eq_self_iff.mpr
    intro char member
    simp [whole char member]
  rw [objectUrl_eq_keyPath, written] at built
  obtain ⟨authority, parsed, rfl⟩ := Option.map_eq_some_iff.mp built
  exact labels _ _ _ _ parsed

theorem plainRoot_of_addressesAgree (parser : AuthorityParser parseAuthority)
    (authority : parseAuthority driver.baseUrl.scheme driver.baseUrl.authority.text =
      some driver.baseUrl.authority) (fragment : driver.baseUrl.fragment = none)
    (named : driver.config.pathStyle = true ∨
      ∀ char ∈ driver.config.bucket, endsAuthority char = false)
    (agree : AddressesAgree parseAuthority driver) : PlainRoot driver := by
  have root := agree.root none none
  rw [withoutQuery_pageUrl] at root
  have style : driver.config.pathStyle = true := by
    rcases named with style | plain
    · exact style
    · by_contra other
      exact host_of_virtualHosted parser.labels (by simpa using other) plain root rfl
  have query : driver.baseUrl.query = none := by
    cases own : driver.baseUrl.query with
    | none => rfl
    | some text => exact absurd rfl (query_of_pathStyle style own root)
  obtain ⟨url, built, _, _, path, _, _⟩ := objectUrl_root style query fragment authority
  rw [root, Option.some.injEq] at built
  subst built
  have same := (path_eq_iff driver).mp
    (path.symm.trans (path_setPath driver.baseUrl driver.config.bucket))
  obtain ⟨spelled, segments⟩ := (segments_eq_iff driver).mp same.symm
  exact ⟨style, query, fragment, spelled, segments⟩

end Agreement

section Result

theorem authority_of_parse {text : List Char} {url : Url}
    (parsed : parse parseAuthority text = some url) :
    ∃ written, parseAuthority url.scheme written = some url.authority := by
  unfold parse at parsed
  split at parsed
  next => cases parsed
  next =>
    unfold parseAfter at parsed
    split at parsed
    next =>
      obtain ⟨authority, found, rfl⟩ := Option.map_eq_some_iff.mp parsed
      exact ⟨_, found⟩
    next => cases parsed

theorem config_of_new {config : S3Config} {driver : S3Driver}
    (built : S3Driver.new parseAuthority config = some driver) :
    driver.config = config ∧
      ∃ written, parseAuthority driver.baseUrl.scheme written = some driver.baseUrl.authority := by
  obtain ⟨baseUrl, resolved, rfl⟩ := Option.map_eq_some_iff.mp built
  refine ⟨rfl, ?_⟩
  unfold resolveBaseUrl at resolved
  split at resolved
  next => exact authority_of_parse resolved
  next => exact authority_of_parse resolved

/-- For every configuration the addresses agree where the endpoint is a plain root.  They agree
nowhere else, as long as the endpoint has no fragment and, with the bucket in front of the host,
the bucket's name stays within the host. -/
theorem addresses_agree_iff (parseAuthority : List Char → List Char → Option Authority)
    (parser : AuthorityParser parseAuthority) (config : S3Config) (driver : S3Driver)
    (built : S3Driver.new parseAuthority config = some driver) :
    (PlainRoot driver → AddressesAgree parseAuthority driver) ∧
      (driver.baseUrl.fragment = none → (config.pathStyle = true ∨
          ∀ char ∈ config.bucket, endsAuthority char = false) →
        AddressesAgree parseAuthority driver → PlainRoot driver) := by
  obtain ⟨rfl, written, parsed⟩ := config_of_new built
  have authority := parser.reads _ _ _ parsed
  exact ⟨addressesAgree_of_plainRoot authority, plainRoot_of_addressesAgree parser authority⟩

theorem parser_parseSample : AuthorityParser parseSample := by
  constructor
  · intro scheme text authority parsed
    unfold parseSample at parsed
    split at parsed
    next =>
      cases parsed
      rfl
    next => cases parsed
  · intro scheme label host authority parsed
    unfold parseSample at parsed
    split at parsed
    next single =>
      have point : '.' ∈ ['h'] := by
        rw [← single]
        simp
      simp at point
    next => cases parsed

/-- One bucket behind `http://h`. -/
theorem addresses_agree_plain :
    S3Driver.new parseSample signerConfig = some signerDriver ∧
      AddressesAgree parseSample signerDriver := by
  have built : S3Driver.new parseSample signerConfig = some signerDriver := rfl
  refine ⟨built, (addresses_agree_iff parseSample parser_parseSample signerConfig signerDriver
    built).1 ?_⟩
  exact ⟨rfl, rfl, rfl, forall_mem_of_all (by decide), by decide⟩

/-- Behind `http://h/s3` the objects are under `/s3/b/` and the listing asks `/b/`. -/
theorem addresses_disagree :
    ¬ ∀ config driver, S3Driver.new parseSample config = some driver →
      AddressesAgree parseSample driver := by
  intro always
  obtain ⟨driver, built⟩ : ∃ driver, S3Driver.new parseSample
      { signerConfig with endpoint := some "http://h/s3".toList } = some driver :=
    Option.isSome_iff_exists.mp (by decide)
  have root := (always _ driver built).root none none
  have paths : ((S3Driver.new parseSample
      { signerConfig with endpoint := some "http://h/s3".toList }).bind fun driver =>
        (objectUrl parseSample driver driver.config.bucket []).map Url.path) ≠
      (S3Driver.new parseSample
        { signerConfig with endpoint := some "http://h/s3".toList }).map fun driver =>
          (withoutQuery (pageUrl driver none none)).path := by
    decide
  rw [built, Option.bind_some, root] at paths
  exact paths rfl

end Result

end Picroom.S3Driver
