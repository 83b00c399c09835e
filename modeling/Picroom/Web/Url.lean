import Mathlib.Data.List.TakeWhile
import Picroom.Text.Separated
import Picroom.Web.Percent

/-!
# URLs

The WHATWG parser for special schemes other than `file`: dot segments, percent-encode sets,
query and fragment.  What it makes of the authority is a parameter.  `parse_append` and
`parseRest_append_eq_iff` say what becomes of a path that is appended to the text of a URL.
-/

namespace Web

open Text

def printable (char : Char) : Bool := 32 < char.toNat && char.toNat < 127

/-- Both slashes separate segments. -/
def isSlash (char : Char) : Bool := char == '/' || char == '\\'

def endsPath (char : Char) : Bool := char == '?' || char == '#'

/-- What the parser makes of `user:password@host:port`. -/
structure Authority where
  text : List Char
  host : List Char
  port : Option Nat
  nonempty : text ≠ []
  plain : ∀ char ∈ text, printable char = true ∧ isSlash char = false ∧ endsPath char = false
  hostPlain : ∀ char ∈ host, printable char = true ∧ isSlash char = false ∧ endsPath char = false

/-- Characters outside the path percent-encode set. -/
def keepsPath (char : Char) : Bool :=
  printable char && !List.contains ['"', '#', '<', '>', '?', '^', '`', '{', '}'] char

/-- Characters outside the special-query percent-encode set. -/
def keepsQuery (char : Char) : Bool :=
  printable char && !List.contains ['"', '#', '<', '>', '\''] char

def keepsFragment (char : Char) : Bool :=
  printable char && !List.contains ['"', '<', '>', '`'] char

def dots : List (List Char) := [".".toList, "%2e".toList, "%2E".toList]

def isSingleDot (segment : List Char) : Bool := dots.contains segment

def isDoubleDot (segment : List Char) : Bool :=
  (dots.flatMap fun first => dots.map fun second => first ++ second).contains segment

/-- A segment that another one follows. -/
def stepInner (path : List (List Char)) (segment : List Char) : List (List Char) :=
  if isDoubleDot segment then path.dropLast
  else if isSingleDot segment then path
  else path ++ [percentEncode keepsPath segment]

/-- The last segment: a dot segment leaves an empty one. -/
def stepLast (path : List (List Char)) (segment : List Char) : List (List Char) :=
  if isDoubleDot segment then path.dropLast ++ [[]]
  else if isSingleDot segment then path ++ [[]]
  else path ++ [percentEncode keepsPath segment]

def walkPath : List (List Char) → List (List Char) → List (List Char)
  | path, [] => path
  | path, [last] => stepLast path last
  | path, segment :: next :: rest => walkPath (stepInner path segment) (next :: rest)

/-- The segments of a path; one slash at its start is not part of them. -/
def pathParts : List Char → List (List Char)
  | [] => [[]]
  | char :: rest =>
      if isSlash char then rest.splitOnP isSlash else (char :: rest).splitOnP isSlash

def renderPath (path : List (List Char)) : List Char := path.flatMap ('/' :: ·)

def normalizePath (text : List Char) : List Char := renderPath (walkPath [] (pathParts text))

def isSpecial (scheme : List Char) : Bool :=
  ["http".toList, "https".toList, "ws".toList, "wss".toList, "ftp".toList].contains scheme

structure Url where
  scheme : List Char
  authority : Authority
  path : List Char
  query : Option (List Char)
  fragment : Option (List Char)
  special : isSpecial scheme = true
  absolute : path.head? = some '/'
  pathPlain : ∀ char ∈ path, printable char = true ∧ endsPath char = false
  queryPrintable : ∀ text, query = some text → ∀ char ∈ text, printable char = true

def Url.asStr (url : Url) : List Char :=
  url.scheme ++ ':' :: '/' :: '/' :: (url.authority.text ++ (url.path ++
    ((url.query.map ('?' :: ·)).getD [] ++ (url.fragment.map ('#' :: ·)).getD [])))

def isControl (char : Char) : Bool := char.toNat ≤ 32

def isBreak (char : Char) : Bool := char == '\t' || char == '\n' || char == '\r'

/-- White space around the text, and tabs and line breaks in it, are dropped. -/
def clean (text : List Char) : List Char :=
  ((text.dropWhile isControl).reverse.dropWhile isControl).reverse.filter (!isBreak ·)

section Printable

/-- What holds of the kept characters, of `%` and of the hex digits holds of an encoded text. -/
theorem percentEncode_all {keeps holds : Char → Bool} {text : List Char}
    (kept : ∀ char, keeps char = true → holds char = true) (percent : holds '%' = true)
    (digits : ∀ value < 16, holds (hexDigit value) = true) :
    ∀ char ∈ percentEncode keeps text, holds char = true := by
  intro char member
  rcases mem_percentEncode member with keeps | rfl | ⟨value, digit, rfl⟩
  · exact kept char keeps
  · exact percent
  · exact digits value digit

theorem printable_hexDigit {value : Nat} (digit : value < 16) :
    printable (hexDigit value) = true := by
  interval_cases value <;> decide

theorem keepsPath_hexDigit {value : Nat} (digit : value < 16) :
    keepsPath (hexDigit value) = true := by
  interval_cases value <;> decide

theorem plain_of_keepsPath {char : Char} (keeps : keepsPath char = true) :
    printable char = true ∧ endsPath char = false := by
  obtain ⟨isPrintable, outside⟩ := Bool.and_eq_true_iff.mp keeps
  refine ⟨isPrintable, ?_⟩
  simp only [endsPath, Bool.or_eq_false_iff, beq_eq_false_iff_ne]
  constructor <;> rintro rfl <;> simp at outside

theorem printable_of_keepsQuery {char : Char} (keeps : keepsQuery char = true) :
    printable char = true := (Bool.and_eq_true_iff.mp keeps).1

/-- Every segment of a walked path was there before, is empty or was encoded. -/
theorem mem_walkPath {path segments : List (List Char)} {part : List Char}
    (member : part ∈ walkPath path segments) :
    part ∈ path ∨ part = [] ∨ ∃ segment ∈ segments, part = percentEncode keepsPath segment := by
  induction path, segments using walkPath.induct with
  | case1 path => exact Or.inl member
  | case2 path last =>
      rw [walkPath, stepLast] at member
      split_ifs at member
      · rcases List.mem_append.mp member with before | empty
        · exact Or.inl (List.dropLast_subset path before)
        · exact Or.inr (Or.inl (List.mem_singleton.mp empty))
      · rcases List.mem_append.mp member with before | empty
        · exact Or.inl before
        · exact Or.inr (Or.inl (List.mem_singleton.mp empty))
      · rcases List.mem_append.mp member with before | encoded
        · exact Or.inl before
        · exact Or.inr (Or.inr ⟨last, by simp, List.mem_singleton.mp encoded⟩)
  | case3 path segment next rest inductionHypothesis =>
      rw [walkPath] at member
      rcases inductionHypothesis member with before | empty | ⟨later, present, encoded⟩
      · unfold stepInner at before
        split_ifs at before
        · exact Or.inl (List.dropLast_subset path before)
        · exact Or.inl before
        · rcases List.mem_append.mp before with older | encoded
          · exact Or.inl older
          · exact Or.inr (Or.inr ⟨segment, by simp, List.mem_singleton.mp encoded⟩)
      · exact Or.inr (Or.inl empty)
      · exact Or.inr (Or.inr ⟨later, List.mem_cons_of_mem segment present, encoded⟩)

theorem walkPath_ne_nil (path : List (List Char)) {segments : List (List Char)}
    (nonempty : segments ≠ []) :
    walkPath path segments ≠ [] := by
  induction path, segments using walkPath.induct with
  | case1 => exact absurd rfl nonempty
  | case2 path last =>
      rw [walkPath, stepLast]
      split_ifs <;> simp
  | case3 path segment next rest inductionHypothesis =>
      rw [walkPath]
      exact inductionHypothesis (by simp)

theorem pathParts_ne_nil (text : List Char) : pathParts text ≠ [] := by
  cases text with
  | nil => simp [pathParts]
  | cons char rest =>
      rw [pathParts]
      split_ifs <;> exact List.splitOnP_ne_nil isSlash _

theorem head_normalizePath (text : List Char) : (normalizePath text).head? = some '/' := by
  have nonempty := walkPath_ne_nil [] (pathParts_ne_nil text)
  obtain ⟨first, rest, walked⟩ := List.exists_cons_of_ne_nil nonempty
  rw [normalizePath, walked, renderPath, List.flatMap_cons]
  rfl

theorem plain_normalizePath (text : List Char) :
    ∀ char ∈ normalizePath text, printable char = true ∧ endsPath char = false := by
  intro char member
  obtain ⟨part, present, inPart⟩ := List.mem_flatMap.mp member
  rcases List.mem_cons.mp inPart with rfl | inPart
  · decide
  · rcases mem_walkPath present with impossible | rfl | ⟨segment, _, rfl⟩
    · cases impossible
    · cases inPart
    · apply plain_of_keepsPath
      exact percentEncode_all (fun _ keeps => keeps) (by decide) (fun _ => keepsPath_hexDigit) char
        inPart

end Printable

/-- What follows the authority. -/
def parseRest (scheme : List Char) (special : isSpecial scheme = true) (authority : Authority)
    (rest : List Char) : Url where
  scheme := scheme
  authority := authority
  path := normalizePath (rest.takeWhile (!endsPath ·))
  query := ((rest.dropWhile (!endsPath ·)).takeWhile (· != '#')).head?.map fun _ =>
    percentEncode keepsQuery ((rest.dropWhile (!endsPath ·)).takeWhile (· != '#')).tail
  fragment := (rest.dropWhile (· != '#')).head?.map fun _ =>
    percentEncode keepsFragment (rest.dropWhile (· != '#')).tail
  special := special
  absolute := head_normalizePath _
  pathPlain := plain_normalizePath _
  queryPrintable := by
    intro text query
    obtain ⟨_, _, rfl⟩ := Option.map_eq_some_iff.mp query
    exact percentEncode_all (fun _ => printable_of_keepsQuery) (by decide)
      fun _ => printable_hexDigit

def endsAuthority (char : Char) : Bool := isSlash char || endsPath char

/-- What follows the scheme and its colon. -/
def parseAfter (parseAuthority : List Char → List Char → Option Authority) (scheme : List Char)
    (after : List Char) : Option Url :=
  if special : isSpecial scheme = true then
    let rest := after.dropWhile isSlash
    (parseAuthority scheme (rest.takeWhile (!endsAuthority ·))).map fun authority =>
      parseRest scheme special authority (rest.dropWhile (!endsAuthority ·))
  else none

/-- `Url::parse`. -/
def parse (parseAuthority : List Char → List Char → Option Authority) (text : List Char) :
    Option Url :=
  match (clean text).dropWhile (· != ':') with
  | [] => none
  | _ :: after =>
      parseAfter parseAuthority (((clean text).takeWhile (· != ':')).map Char.toLower) after

section Setters

/-- `set_path`: a `?` or `#` in the new path is encoded. -/
def Url.setPath (url : Url) (path : List Char) : Url :=
  { url with
    path := normalizePath (path.filter (!isBreak ·))
    absolute := head_normalizePath _
    pathPlain := plain_normalizePath _ }

def formPair (name value : List Char) : List Char := formEncode name ++ '=' :: formEncode value

def appendQuery (query : Option (List Char)) (pair : List Char) : List Char :=
  match query with
  | none => pair
  | some text => if text = [] then pair else text ++ '&' :: pair

theorem printable_formEncode (text : List Char) :
    ∀ char ∈ formEncode text, printable char = true := by
  intro char member
  obtain ⟨byte, _, inByte⟩ := List.mem_flatMap.mp member
  unfold formByte at inByte
  split at inByte
  next =>
    rw [List.mem_singleton.mp inByte]
    decide
  next =>
    have kept : ∀ char, formKeeps char = true → printable char = true := by
      intro char keeps
      have ascii : char.toNat < 128 := by
        simp only [formKeeps, Bool.or_eq_true, beq_iff_eq] at keeps
        rcases keeps with (((alphanum | rfl) | rfl) | rfl) | rfl
        · exact ascii_of_isAlphanum alphanum
        all_goals decide
      have implied : (!formKeeps char || printable char) = true :=
        ascii_all (fun char => !formKeeps char || printable char) (by decide) ascii
      simpa [keeps] using implied
    rcases mem_encodeByte inByte with keeps | rfl | ⟨value, digit, rfl⟩
    · exact kept char keeps
    · decide
    · exact printable_hexDigit digit

theorem printable_appendQuery {url : Url} (name value : List Char) :
    ∀ char ∈ appendQuery url.query (formPair name value), printable char = true := by
  have pair : ∀ char ∈ formPair name value, printable char = true := by
    intro char member
    rcases List.mem_append.mp member with inName | later
    · exact printable_formEncode name char inName
    · rcases List.mem_cons.mp later with rfl | inValue
      · decide
      · exact printable_formEncode value char inValue
  intro char member
  unfold appendQuery at member
  split at member
  next => exact pair char member
  next text query =>
    split at member
    next => exact pair char member
    next =>
      rcases List.mem_append.mp member with before | later
      · exact url.queryPrintable text query char before
      · rcases List.mem_cons.mp later with rfl | inPair
        · decide
        · exact pair char inPair

/-- `query_pairs_mut().append_pair`. -/
def Url.appendPair (url : Url) (name value : List Char) : Url :=
  { url with
    query := some (appendQuery url.query (formPair name value))
    queryPrintable := by
      rintro text query
      cases query
      exact printable_appendQuery name value }

end Setters

theorem special_cases {scheme : List Char} (special : isSpecial scheme = true) :
    scheme ≠ [] ∧ ∀ char ∈ scheme, isControl char = false ∧ isBreak char = false ∧ char ≠ ':' ∧
      char.toLower = char := by
  simp only [isSpecial, List.contains_iff_mem, List.mem_cons, List.not_mem_nil, or_false] at special
  rcases special with rfl | rfl | rfl | rfl | rfl <;>
    exact ⟨by decide, Text.forall_mem_of_all (by decide)⟩

theorem clean_of_ends {text : List Char}
    (head : ∀ char, text.head? = some char → isControl char = false)
    (last : ∀ char, text.getLast? = some char → isControl char = false) :
    clean text = text.filter (!isBreak ·) := by
  rw [clean, dropWhile_ends head last]

theorem isControl_of_printable {char : Char} (isPrintable : printable char = true) :
    isControl char = false ∧ isBreak char = false := by
  have code : 32 < char.toNat := by
    simp only [printable, Bool.and_eq_true, decide_eq_true_eq] at isPrintable
    exact isPrintable.1
  constructor
  · simpa [isControl] using code
  · simp only [isBreak, Bool.or_eq_false_iff, beq_eq_false_iff_ne]
    refine ⟨⟨?_, ?_⟩, ?_⟩ <;> rintro rfl <;> exact absurd code (by decide)

/-- The text between the scheme and the appended path, as the parser reads it. -/
def trunk (text : List Char) : List Char := (text.filter (!isBreak ·)).dropWhile isSlash

/-- Where the trunk is not empty, an appended path lands behind the authority. -/
theorem parse_append {parseAuthority : List Char → List Char → Option Authority}
    {scheme text tail : List Char} (special : isSpecial scheme = true) (rooted : trunk text ≠ [])
    (plain : ∀ char ∈ tail, printable char = true) :
    parse parseAuthority (scheme ++ ':' :: '/' :: '/' :: (text ++ '/' :: tail)) =
      (parseAuthority scheme ((trunk text).takeWhile (!endsAuthority ·))).map fun authority =>
        parseRest scheme special authority
          ((trunk text).dropWhile (!endsAuthority ·) ++ '/' :: tail) := by
  obtain ⟨nonempty, chars⟩ := special_cases special
  have schemeFilter : scheme.filter (!isBreak ·) = scheme := by
    apply List.filter_eq_self.mpr
    intro char member
    simp [(chars char member).2.1]
  have tailFilter : tail.filter (!isBreak ·) = tail := by
    apply List.filter_eq_self.mpr
    intro char member
    simp [(isControl_of_printable (plain char member)).2]
  have cleaned : clean (scheme ++ ':' :: '/' :: '/' :: (text ++ '/' :: tail)) =
      scheme ++ ':' :: '/' :: '/' :: (text.filter (!isBreak ·) ++ '/' :: tail) := by
    rw [clean_of_ends]
    · simp only [List.filter_append, List.filter_cons, schemeFilter, tailFilter]
      rfl
    · intro char head
      obtain ⟨first, rest, rfl⟩ := List.exists_cons_of_ne_nil nonempty
      cases head
      exact (chars char (by simp)).1
    · intro char last
      have member : char ∈ '/' :: tail := by
        have whole : scheme ++ ':' :: '/' :: '/' :: (text ++ '/' :: tail) =
            (scheme ++ ':' :: '/' :: '/' :: text) ++ '/' :: tail := by simp
        have nonempty : ('/' :: tail).getLast? = some (('/' :: tail).getLast (by simp)) :=
          List.getLast?_eq_some_getLast (by simp)
        rw [whole, List.getLast?_append, nonempty, Option.some_or] at last
        cases last
        exact List.getLast_mem _
      rcases List.mem_cons.mp member with rfl | inTail
      · decide
      · exact (isControl_of_printable (plain char inTail)).1
  have before : (scheme ++ ':' :: '/' :: '/' :: (text.filter (!isBreak ·) ++ '/' :: tail)).takeWhile
      (· != ':') = scheme := by
    rw [takeWhile_append_stop (by decide)]
    apply List.takeWhile_eq_self_iff.mpr
    intro char member
    simp [(chars char member).2.2.1]
  have after : (scheme ++ ':' :: '/' :: '/' :: (text.filter (!isBreak ·) ++ '/' :: tail)).dropWhile
      (· != ':') = ':' :: '/' :: '/' :: (text.filter (!isBreak ·) ++ '/' :: tail) := by
    have none : scheme.dropWhile (· != ':') = [] := by
      apply List.dropWhile_eq_nil_iff.mpr
      intro char member
      simp [(chars char member).2.2.1]
    rw [dropWhile_append_stop (by decide), none, List.nil_append]
  have lower : scheme.map Char.toLower = scheme := by
    apply (List.map_congr_left fun char member => (chars char member).2.2.2).trans
    exact List.map_id scheme
  have slashes : ('/' :: '/' :: (text.filter (!isBreak ·) ++ '/' :: tail)).dropWhile isSlash =
      trunk text ++ '/' :: tail := by
    rw [List.dropWhile_cons_of_pos (by decide), List.dropWhile_cons_of_pos (by decide),
      List.dropWhile_append, if_neg]
    · rfl
    · simpa [trunk] using rooted
  rw [parse, cleaned, after, before, lower]
  simp only [parseAfter, dif_pos special, slashes]
  rw [takeWhile_append_stop (by decide), dropWhile_append_stop (by decide)]

section Settle

/-- The segments of a path without its dot segments; a last one leaves an empty segment. -/
def settle : List (List Char) → List (List Char)
  | [] => []
  | [last] => if isSingleDot last then [[]] else [last]
  | segment :: next :: rest =>
      if isSingleDot segment then settle (next :: rest) else segment :: settle (next :: rest)

theorem walkPath_append {path before after : List (List Char)} (nonempty : after ≠ []) :
    walkPath path (before ++ after) = walkPath (before.foldl stepInner path) after := by
  induction before generalizing path with
  | nil => rfl
  | cons segment rest inductionHypothesis =>
      obtain ⟨next, others, joined⟩ :=
        List.exists_cons_of_ne_nil (List.append_ne_nil_of_right_ne_nil rest nonempty)
      rw [List.cons_append, joined, walkPath, ← joined, inductionHypothesis, List.foldl_cons]

theorem walkPath_closed (segments : List (List Char)) :
    walkPath [] (segments ++ [[]]) = segments.foldl stepInner [] ++ [[]] := by
  rw [walkPath_append (by simp)]
  rfl

theorem mem_foldl_stepInner {path segments : List (List Char)} {part : List Char}
    (member : part ∈ segments.foldl stepInner path) :
    part ∈ path ∨ ∃ segment ∈ segments, part = percentEncode keepsPath segment := by
  induction segments generalizing path with
  | nil => exact Or.inl member
  | cons segment rest inductionHypothesis =>
      rcases inductionHypothesis member with before | ⟨other, present, encoded⟩
      · unfold stepInner at before
        split_ifs at before
        · exact Or.inl (List.dropLast_subset path before)
        · exact Or.inl before
        · rcases List.mem_append.mp before with inPath | last
          · exact Or.inl inPath
          · exact Or.inr ⟨segment, by simp, List.mem_singleton.mp last⟩
      · exact Or.inr ⟨other, List.mem_cons_of_mem _ present, encoded⟩

/-- Segments that are kept and do not climb are appended as they are, but the dots. -/
theorem walkPath_eq_settle {path segments : List (List Char)}
    (plain : ∀ segment ∈ segments, isDoubleDot segment = false ∧
      percentEncode keepsPath segment = segment) :
    walkPath path segments = path ++ settle segments := by
  induction path, segments using walkPath.induct with
  | case1 path => simp [walkPath, settle]
  | case2 path last =>
      obtain ⟨climbs, kept⟩ := plain last (by simp)
      simp only [walkPath, stepLast, settle, climbs, kept, Bool.false_eq_true, if_false]
      split_ifs <;> rfl
  | case3 path segment next rest inductionHypothesis =>
      obtain ⟨climbs, kept⟩ := plain segment (by simp)
      rw [walkPath, inductionHypothesis fun other member =>
        plain other (List.mem_cons_of_mem segment member)]
      simp only [stepInner, settle, climbs, kept, Bool.false_eq_true, if_false]
      split_ifs
      · rfl
      · simp

theorem renderPath_append (first second : List (List Char)) :
    renderPath (first ++ second) = renderPath first ++ renderPath second := List.flatMap_append

theorem renderPath_eq_intercalate {path : List (List Char)} (nonempty : path ≠ []) :
    renderPath path = '/' :: ['/'].intercalate path := by
  induction path with
  | nil => exact absurd rfl nonempty
  | cons segment rest inductionHypothesis =>
      cases rest with
      | nil => simp [renderPath]
      | cons next others =>
          rw [renderPath, List.flatMap_cons, List.intercalate_cons_cons]
          change '/' :: (segment ++ renderPath (next :: others)) = _
          rw [inductionHypothesis (by simp)]
          simp

/-- Segments without a slash can be read back. -/
theorem renderPath_inj {first second : List (List Char)} (firstNonempty : first ≠ [])
    (secondNonempty : second ≠ []) (firstPlain : ∀ segment ∈ first, '/' ∉ segment)
    (secondPlain : ∀ segment ∈ second, '/' ∉ segment)
    (same : renderPath first = renderPath second) : first = second := by
  rw [renderPath_eq_intercalate firstNonempty, renderPath_eq_intercalate secondNonempty] at same
  have read := congrArg (List.splitOn '/') (List.cons.inj same).2
  rwa [List.splitOn_intercalate '/' firstPlain firstNonempty,
    List.splitOn_intercalate '/' secondPlain secondNonempty] at read

theorem settle_ne_nil {segments : List (List Char)} (nonempty : segments ≠ []) :
    settle segments ≠ [] := by
  induction segments using settle.induct with
  | case1 => exact absurd rfl nonempty
  | case2 last dot => simp [settle, dot]
  | case3 last ordinary => simp [settle, ordinary]
  | case4 segment next rest dot inductionHypothesis =>
      rw [settle, if_pos dot]
      exact inductionHypothesis (by simp)
  | case5 segment next rest ordinary inductionHypothesis =>
      rw [settle, if_neg ordinary]
      simp

theorem mem_settle {segments : List (List Char)} {part : List Char}
    (member : part ∈ settle segments) : part = [] ∨ part ∈ segments := by
  induction segments using settle.induct with
  | case1 => cases member
  | case2 last dot =>
      rw [settle, if_pos dot] at member
      exact Or.inl (List.mem_singleton.mp member)
  | case3 last ordinary =>
      rw [settle, if_neg ordinary] at member
      exact Or.inr member
  | case4 segment next rest dot inductionHypothesis =>
      rw [settle, if_pos dot] at member
      exact (inductionHypothesis member).imp_right (List.mem_cons_of_mem segment)
  | case5 segment next rest ordinary inductionHypothesis =>
      rw [settle, if_neg ordinary] at member
      rcases List.mem_cons.mp member with rfl | later
      · exact Or.inr List.mem_cons_self
      · exact (inductionHypothesis later).imp_right (List.mem_cons_of_mem segment)

/-- Settling commutes with a rewriting of segments that respects dots. -/
theorem settle_map {rewrite : List Char → List Char} {segments : List (List Char)}
    (dot : ∀ segment ∈ segments, isSingleDot (rewrite segment) = isSingleDot segment)
    (empty : rewrite [] = []) :
    settle (segments.map rewrite) = (settle segments).map rewrite := by
  induction segments using settle.induct with
  | case1 => rfl
  | case2 last isDot =>
      have same := dot last (by simp)
      simp [settle, same, isDot, empty]
  | case3 last ordinary =>
      have same := dot last (by simp)
      simp [settle, same, ordinary]
  | case4 segment next rest isDot inductionHypothesis =>
      have later := inductionHypothesis fun other member =>
        dot other (List.mem_cons_of_mem _ member)
      rw [List.map_cons] at later
      simp only [List.map_cons, settle, dot segment (by simp), if_pos isDot, later]
  | case5 segment next rest ordinary inductionHypothesis =>
      have later := inductionHypothesis fun other member =>
        dot other (List.mem_cons_of_mem _ member)
      rw [List.map_cons] at later
      simp only [List.map_cons, settle, dot segment (by simp), if_neg ordinary, later]

end Settle

section Appended

/-- Characters that are written as they are in a path, a query and a fragment. -/
def safeChar (char : Char) : Bool :=
  keepsPath char && keepsQuery char && keepsFragment char && !isSlash char && !endsPath char

/-- A segment of safe characters that does not climb. -/
def SafeSegment (segment : List Char) : Prop :=
  isDoubleDot segment = false ∧ ∀ char ∈ segment, safeChar char = true

theorem ascii_of_printable {char : Char} (isPrintable : printable char = true) :
    char.toNat < 128 := by
  simp only [printable, Bool.and_eq_true, decide_eq_true_eq] at isPrintable
  omega

theorem of_safeChar {char : Char} (safe : safeChar char = true) :
    keepsPath char = true ∧ keepsQuery char = true ∧ keepsFragment char = true ∧
      isSlash char = false ∧ endsPath char = false ∧ printable char = true := by
  simp only [safeChar, Bool.and_eq_true, Bool.not_eq_true'] at safe
  obtain ⟨⟨⟨⟨path, query⟩, fragment⟩, slash⟩, ends⟩ := safe
  exact ⟨path, query, fragment, slash, ends, (plain_of_keepsPath path).1⟩

theorem slash_not_mem_of_safe {segment : List Char} (safe : SafeSegment segment) :
    '/' ∉ segment := by
  intro member
  obtain ⟨_, _, _, slash, _, _⟩ := of_safeChar (safe.2 '/' member)
  cases slash

theorem splitOnP_intercalate {segments : List (List Char)} (nonempty : segments ≠ [])
    (plain : ∀ segment ∈ segments, ∀ char ∈ segment, isSlash char = false) :
    (['/'].intercalate segments).splitOnP isSlash = segments := by
  induction segments with
  | nil => exact absurd rfl nonempty
  | cons segment rest inductionHypothesis =>
      cases rest with
      | nil =>
          rw [List.intercalate_singleton]
          exact List.splitOnP_eq_singleton (plain segment (by simp))
      | cons next others =>
          have later := inductionHypothesis (by simp) fun other member =>
            plain other (List.mem_cons_of_mem segment member)
          rw [List.intercalate_cons_cons, List.append_assoc, List.singleton_append,
            List.splitOnP_append_cons_of_forall_mem (plain segment (by simp)) '/' (by decide),
            later]

/-- The segments in front of an appended path. -/
def stem : List Char → List (List Char)
  | [] => []
  | char :: rest => pathParts (char :: rest)

theorem pathParts_append (text tail : List Char) :
    pathParts (text ++ '/' :: tail) = stem text ++ tail.splitOnP isSlash := by
  cases text with
  | nil => rfl
  | cons char rest =>
      rw [List.cons_append, pathParts, stem, pathParts]
      split_ifs
      · exact List.splitOnP_append_cons rest tail (by decide)
      · exact List.splitOnP_append_cons (char :: rest) tail (by decide)

variable {segments others : List (List Char)}

theorem safe_of_mem_intercalate (safe : ∀ segment ∈ segments, SafeSegment segment) :
    ∀ char ∈ ['/'].intercalate segments, char = '/' ∨ safeChar char = true := by
  intro char member
  rcases mem_of_mem_intercalate member with slash | ⟨segment, present, inSegment⟩
  · exact Or.inl slash
  · exact Or.inr ((safe segment present).2 char inSegment)

/-- What holds of safe characters and the slash holds of a whole appended path. -/
theorem appended_all {holds : Char → Bool} (safe : ∀ segment ∈ segments, SafeSegment segment)
    (slash : holds '/' = true) (chars : ∀ char, safeChar char = true → holds char = true) :
    ∀ char ∈ '/' :: ['/'].intercalate segments, holds char = true := by
  intro char member
  rcases List.mem_cons.mp member with rfl | later
  · exact slash
  · rcases safe_of_mem_intercalate safe char later with rfl | isSafe
    · exact slash
    · exact chars char isSafe

theorem normalizePath_append (nonempty : segments ≠ [])
    (safe : ∀ segment ∈ segments, SafeSegment segment) (text : List Char) :
    normalizePath (text ++ '/' :: ['/'].intercalate segments) =
      renderPath ((stem text).foldl stepInner []) ++ renderPath (settle segments) := by
  have plain : ∀ segment ∈ segments, ∀ char ∈ segment, isSlash char = false := by
    intro segment member char inSegment
    exact (of_safeChar ((safe segment member).2 char inSegment)).2.2.2.1
  have kept : ∀ segment ∈ segments, isDoubleDot segment = false ∧
      percentEncode keepsPath segment = segment := by
    intro segment member
    refine ⟨(safe segment member).1, percentEncode_of_kept ?_⟩
    intro char inSegment
    obtain ⟨path, _, _, _, _, isPrintable⟩ := of_safeChar ((safe segment member).2 char inSegment)
    exact ⟨ascii_of_printable isPrintable, path⟩
  rw [normalizePath, pathParts_append, splitOnP_intercalate nonempty plain,
    walkPath_append nonempty, walkPath_eq_settle kept, renderPath_append]

/-- An encoded text with an appended path determines the path. -/
theorem percentEncode_append_inj {keeps : Char → Bool} (slash : keeps '/' = true)
    (chars : ∀ char, safeChar char = true → keeps char = true)
    (safe : ∀ segment ∈ segments, SafeSegment segment)
    (otherSafe : ∀ segment ∈ others, SafeSegment segment) {text : List Char}
    (same : percentEncode keeps (text ++ '/' :: ['/'].intercalate segments) =
      percentEncode keeps (text ++ '/' :: ['/'].intercalate others)) :
    ['/'].intercalate segments = ['/'].intercalate others := by
  have written : ∀ list : List (List Char), (∀ segment ∈ list, SafeSegment segment) →
      percentEncode keeps ('/' :: ['/'].intercalate list) = '/' :: ['/'].intercalate list := by
    intro list safe
    apply percentEncode_of_kept
    intro char member
    refine ⟨?_, appended_all safe slash chars char member⟩
    apply ascii_of_printable
    exact appended_all safe (by decide) (fun _ isSafe => (of_safeChar isSafe).2.2.2.2.2) char member
  rw [percentEncode_append, percentEncode_append, written segments safe,
    written others otherSafe] at same
  exact (List.cons.inj (List.append_cancel_left same)).2

variable {scheme text : List Char} {special : isSpecial scheme = true} {authority : Authority}

/-- Behind a `?` or `#` the appended path is part of the query or the fragment. -/
theorem intercalate_eq_of_parseRest (safe : ∀ segment ∈ segments, SafeSegment segment)
    (otherSafe : ∀ segment ∈ others, SafeSegment segment) (ended : text.any endsPath = true)
    (same : parseRest scheme special authority (text ++ '/' :: ['/'].intercalate segments) =
      parseRest scheme special authority (text ++ '/' :: ['/'].intercalate others)) :
    ['/'].intercalate segments = ['/'].intercalate others := by
  have dropped : ∀ (keeps : Char → Bool) (tail : List Char), text.dropWhile keeps ≠ [] →
      (text ++ tail).dropWhile keeps = text.dropWhile keeps ++ tail := by
    intro keeps tail nonempty
    rw [List.dropWhile_append, if_neg (by simpa using nonempty)]
  by_cases fragment : '#' ∈ text
  · have nonempty : text.dropWhile (· != '#') ≠ [] := by
      intro empty
      simpa using List.dropWhile_eq_nil_iff.mp empty '#' fragment
    obtain ⟨hash, rest, split⟩ := List.exists_cons_of_ne_nil nonempty
    have fragments := congrArg Url.fragment same
    simp only [parseRest, dropped _ _ nonempty, split, List.cons_append, List.head?_cons,
      Option.map_some, List.tail_cons, Option.some.injEq] at fragments
    exact percentEncode_append_inj (by decide) (fun _ isSafe => (of_safeChar isSafe).2.2.1) safe
      otherSafe fragments
  · have nonempty : text.dropWhile (!endsPath ·) ≠ [] := by
      intro empty
      obtain ⟨char, member, ends⟩ := List.any_eq_true.mp ended
      simpa [ends] using List.dropWhile_eq_nil_iff.mp empty char member
    have whole : ∀ list : List (List Char), (∀ segment ∈ list, SafeSegment segment) →
        (text.dropWhile (!endsPath ·) ++ '/' :: ['/'].intercalate list).takeWhile (· != '#') =
          text.dropWhile (!endsPath ·) ++ '/' :: ['/'].intercalate list := by
      intro list safe
      apply List.takeWhile_eq_self_iff.mpr
      intro char member
      rcases List.mem_append.mp member with inText | appended
      · have other : char ≠ '#' := by
          rintro rfl
          exact fragment (List.dropWhile_subset _ inText)
        simpa using other
      · apply appended_all safe (by decide) _ char appended
        intro char isSafe
        obtain ⟨_, _, _, _, ends, _⟩ := of_safeChar isSafe
        simp only [endsPath, Bool.or_eq_false_iff, beq_eq_false_iff_ne] at ends
        simpa using ends.2
    have queries := congrArg Url.query same
    simp only [parseRest, dropped _ _ nonempty, whole segments safe, whole others otherSafe]
      at queries
    obtain ⟨mark, rest, split⟩ := List.exists_cons_of_ne_nil nonempty
    simp only [split, List.cons_append, List.head?_cons, Option.map_some, List.tail_cons,
      Option.some.injEq] at queries
    exact percentEncode_append_inj (by decide) (fun _ isSafe => (of_safeChar isSafe).2.1) safe
      otherSafe queries

/-- Where no `?` or `#` comes before it, the appended path is part of the path. -/
theorem parseRest_append (safe : ∀ segment ∈ segments, SafeSegment segment)
    (ended : text.any endsPath = false) :
    (parseRest scheme special authority (text ++ '/' :: ['/'].intercalate segments)).path =
        normalizePath (text ++ '/' :: ['/'].intercalate segments) ∧
      (parseRest scheme special authority (text ++ '/' :: ['/'].intercalate segments)).query =
        none ∧
      (parseRest scheme special authority (text ++ '/' :: ['/'].intercalate segments)).fragment =
        none := by
  have plain : ∀ char ∈ text ++ '/' :: ['/'].intercalate segments, endsPath char = false := by
    intro char member
    rcases List.mem_append.mp member with inText | appended
    · simpa using List.any_eq_false.mp ended char inText
    · have kept : (!endsPath char) = true := by
        apply appended_all safe (by decide) _ char appended
        intro char isSafe
        simp [(of_safeChar isSafe).2.2.2.2.1]
      simpa using kept
  have noHash : ∀ char ∈ text ++ '/' :: ['/'].intercalate segments, (char != '#') = true := by
    intro char member
    have ends := plain char member
    simp only [endsPath, Bool.or_eq_false_iff, beq_eq_false_iff_ne] at ends
    simpa using ends.2
  have notEnding : ∀ char ∈ text ++ '/' :: ['/'].intercalate segments,
      (!endsPath char) = true := by
    intro char member
    simp [plain char member]
  refine ⟨?_, ?_, ?_⟩
  · simp only [parseRest]
    rw [List.takeWhile_eq_self_iff.mpr notEnding]
  · simp only [parseRest]
    rw [List.dropWhile_eq_nil_iff.mpr notEnding]
    rfl
  · simp only [parseRest]
    rw [List.dropWhile_eq_nil_iff.mpr noHash]
    rfl

theorem Url.ext_of_parts {first second : Url} (scheme : first.scheme = second.scheme)
    (authority : first.authority = second.authority) (path : first.path = second.path)
    (query : first.query = second.query) (fragment : first.fragment = second.fragment) :
    first = second := by
  cases first
  cases second
  cases scheme
  cases authority
  cases path
  cases query
  cases fragment
  rfl

/-- When two appended paths give the same URL. -/
theorem parseRest_append_eq_iff (nonempty : segments ≠ []) (otherNonempty : others ≠ [])
    (safe : ∀ segment ∈ segments, SafeSegment segment)
    (otherSafe : ∀ segment ∈ others, SafeSegment segment) :
    parseRest scheme special authority (text ++ '/' :: ['/'].intercalate segments) =
        parseRest scheme special authority (text ++ '/' :: ['/'].intercalate others) ↔
      segments = others ∨ text.any endsPath = false ∧ settle segments = settle others := by
  have settledPlain : ∀ list : List (List Char), (∀ segment ∈ list, SafeSegment segment) →
      ∀ segment ∈ settle list, '/' ∉ segment := by
    intro list safe segment member
    rcases mem_settle member with rfl | present
    · simp
    · exact slash_not_mem_of_safe (safe segment present)
  constructor
  · intro same
    cases ended : text.any endsPath with
    | true =>
        have joined := intercalate_eq_of_parseRest safe otherSafe ended same
        have read := congrArg (List.splitOn '/') joined
        rw [List.splitOn_intercalate '/' (fun _ member => slash_not_mem_of_safe (safe _ member))
            nonempty,
          List.splitOn_intercalate '/' (fun _ member => slash_not_mem_of_safe (otherSafe _ member))
            otherNonempty] at read
        exact Or.inl read
    | false =>
        have paths := congrArg Url.path same
        rw [(parseRest_append safe ended).1, (parseRest_append otherSafe ended).1,
          normalizePath_append nonempty safe, normalizePath_append otherNonempty otherSafe] at paths
        exact Or.inr ⟨rfl, renderPath_inj (settle_ne_nil nonempty) (settle_ne_nil otherNonempty)
          (settledPlain segments safe) (settledPlain others otherSafe)
          (List.append_cancel_left paths)⟩
  · rintro (rfl | ⟨ended, settled⟩)
    · rfl
    · apply Url.ext_of_parts
      · rfl
      · rfl
      · rw [(parseRest_append safe ended).1, (parseRest_append otherSafe ended).1,
          normalizePath_append nonempty safe, normalizePath_append otherNonempty otherSafe, settled]
      · rw [(parseRest_append safe ended).2.1, (parseRest_append otherSafe ended).2.1]
      · rw [(parseRest_append safe ended).2.2, (parseRest_append otherSafe ended).2.2]

end Appended

end Web
