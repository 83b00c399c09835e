import Picroom.S3.Listing
import Picroom.Storage.ListXml

/-!
# The XML of a listing

`list_objects_v2` writes its answer into a template, with the texts of the client escaped; the
driver of another deployment reads it back by searching.  What is read is what was written exactly
when no listed key has a space at an end.
-/

namespace Picroom

open Text

namespace ListBucketResult

def line (name : String) (text : List Char) : List Char := element name.toList text ++ ['\n']

def heading : List Char :=
  "<?xml version=\"1.0\" encoding=\"UTF-8\"?>\n".toList ++
    "<ListBucketResult xmlns=\"http://s3.amazonaws.com/doc/2006-03-01/\">\n".toList

def boolText (value : Bool) : List Char := if value then "true".toList else "false".toList

def blockText (entry : StorageKey × UInt64) : List Char :=
  element "Key".toList (xmlEscape entry.1.text.toList) ++
    element "Size".toList (Nat.toDigits 10 entry.2.toNat)

def contentsText (entry : StorageKey × UInt64) : List Char :=
  element "Contents".toList (blockText entry)

def nextText : Option String → List Char
  | some token => element "NextContinuationToken".toList (xmlEscape token.toList)
  | none => []

/-- The body of an answer. -/
def render (result : ListBucketResult) : List Char :=
  heading ++ (line "Name" (xmlEscape result.name.toList) ++
    (line "IsTruncated" (boolText result.truncated) ++
      (line "KeyCount" (Nat.toDigits 10 result.keyed.length) ++
        (line "MaxKeys" (Nat.toDigits 10 result.maxKeys) ++
          (line "Prefix" (xmlEscape result.keyPrefix.toList) ++
            (nextText result.nextToken ++ '\n' :: (['\n'].intercalate
              (result.keyed.map contentsText) ++ "\n</ListBucketResult>".toList)))))))

end ListBucketResult

namespace ListObjects

/-- The answer of the handler. -/
def respond : Except XmlResponse ListBucketResult → XmlResponse
  | .ok result => ⟨200, result.render⟩
  | .error response => response

end ListObjects

section Escape

theorem mem_replaceChar {old char : Char} {new text : List Char}
    (member : char ∈ replaceChar old new text) : char ∈ new ∨ (char ∈ text ∧ char ≠ old) := by
  obtain ⟨source, inText, inImage⟩ := List.mem_flatMap.mp member
  split at inImage
  next => exact Or.inl inImage
  next different =>
    rw [List.mem_singleton] at inImage
    subst inImage
    exact Or.inr ⟨inText, different⟩

theorem replaceChar_of_not_mem {old : Char} {new text : List Char} (absent : old ∉ text) :
    replaceChar old new text = text := by
  induction text with
  | nil => rfl
  | cons char rest inductionHypothesis =>
      rw [List.mem_cons, not_or] at absent
      have later := inductionHypothesis absent.2
      unfold replaceChar at later ⊢
      rw [List.flatMap_cons, if_neg (Ne.symm absent.1), later, List.singleton_append]

/-- No tag comes from an escaped text. -/
theorem plain_xmlEscape (text : List Char) : '<' ∉ xmlEscape text := by
  intro member
  rcases mem_replaceChar member with inEntity | ⟨inner, -⟩
  · exact absurd inEntity (by decide)
  · rcases mem_replaceChar inner with inEntity | ⟨-, different⟩
    · exact absurd inEntity (by decide)
    · exact different rfl

theorem not_mem_key {key : StorageKey} {char : Char} (special : StorageKey.validChar char = false) :
    char ∉ key.text.toList := by
  intro member
  have valid := (StorageKey.validate_eq_ok_iff.mp key.valid).2.2.2.2 char member
  rw [special] at valid
  cases valid

/-- Nothing in a key is escaped. -/
theorem xmlEscape_key (key : StorageKey) : xmlEscape key.text.toList = key.text.toList := by
  rw [xmlEscape, replaceChar_of_not_mem (not_mem_key (by decide)),
    replaceChar_of_not_mem (not_mem_key (by decide)),
    replaceChar_of_not_mem (not_mem_key (by decide))]

theorem plain_boolText (value : Bool) : '<' ∉ ListBucketResult.boolText value := by
  cases value <;> decide

end Escape

namespace ListBucketResult

section Search

variable {name : String}

theorem skipped_line {other : String} {text : List Char} (proper : '>' ∉ name.toList)
    (plain : '<' ∉ other.toList ∧ '>' ∉ other.toList)
    (different : other.toList ≠ name.toList ∧ '/' :: other.toList ≠ name.toList)
    (plainText : '<' ∉ text) : Skipped name.toList (line other text) :=
  ((skipped_of_plain plainText).element proper plain different).append proper
    (skipped_of_plain (by decide))

theorem skipped_blockText (proper : '>' ∉ name.toList)
    (key : "Key".toList ≠ name.toList ∧ "/Key".toList ≠ name.toList)
    (size : "Size".toList ≠ name.toList ∧ "/Size".toList ≠ name.toList)
    (entry : StorageKey × UInt64) : Skipped name.toList (blockText entry) := by
  apply Skipped.append proper
  · exact (skipped_of_plain (plain_xmlEscape _)).element proper (by decide) key
  · exact (skipped_of_plain (S3Driver.plain_toDigits _)).element proper (by decide) size

theorem skipped_intercalate {parts : List (List Char)} (proper : '>' ∉ name.toList)
    (all : ∀ part ∈ parts, Skipped name.toList part) :
    Skipped name.toList (['\n'].intercalate parts) := by
  induction parts with
  | nil => exact skipped_of_plain (by simp)
  | cons part rest inductionHypothesis =>
      have here := all part List.mem_cons_self
      cases rest with
      | nil => simpa using here
      | cons next others =>
          rw [List.intercalate_cons_cons]
          apply Skipped.append proper (here.append proper (skipped_of_plain (by decide)))
          exact inductionHypothesis fun other member => all other (List.mem_cons_of_mem _ member)

/-- The lines before the token and the entries. -/
def preface (result : ListBucketResult) : List Char :=
  heading ++ (line "Name" (xmlEscape result.name.toList) ++
    (line "IsTruncated" (boolText result.truncated) ++
      (line "KeyCount" (Nat.toDigits 10 result.keyed.length) ++
        (line "MaxKeys" (Nat.toDigits 10 result.maxKeys) ++
          line "Prefix" (xmlEscape result.keyPrefix.toList)))))

theorem render_eq (result : ListBucketResult) :
    result.render = result.preface ++ (nextText result.nextToken ++ '\n' :: (['\n'].intercalate
      (result.keyed.map contentsText) ++ '\n' :: "</ListBucketResult>".toList)) := by
  have ending : "\n</ListBucketResult>".toList = '\n' :: "</ListBucketResult>".toList := by decide
  simp only [render, preface, ending, List.append_assoc]

theorem skipped_preface (proper : '>' ∉ name.toList) (start : Skipped name.toList heading)
    (apart : ∀ other ∈ ["Name", "IsTruncated", "KeyCount", "MaxKeys", "Prefix"],
      other.toList ≠ name.toList ∧ '/' :: other.toList ≠ name.toList)
    (result : ListBucketResult) : Skipped name.toList result.preface := by
  simp only [List.mem_cons, List.not_mem_nil, or_false, forall_eq_or_imp, forall_eq] at apart
  obtain ⟨apartName, apartFlag, apartCount, apartMax, apartPrefix⟩ := apart
  apply start.append proper
  apply (skipped_line proper (by decide) apartName (plain_xmlEscape _)).append proper
  apply (skipped_line proper (by decide) apartFlag (plain_boolText _)).append proper
  apply (skipped_line proper (by decide) apartCount (S3Driver.plain_toDigits _)).append proper
  apply (skipped_line proper (by decide) apartMax (S3Driver.plain_toDigits _)).append proper
  exact skipped_line proper (by decide) apartPrefix (plain_xmlEscape _)

theorem flag_render (result : ListBucketResult) :
    S3Driver.xmlFlag result.render "IsTruncated" = result.truncated := by
  have before : Skipped "IsTruncated".toList
      (heading ++ line "Name" (xmlEscape result.name.toList)) := by
    apply Skipped.append (by decide) (by decide +kernel)
    exact skipped_line (by decide) (by decide) (by decide) (plain_xmlEscape _)
  have shape : ∃ rest, result.render = (heading ++ line "Name" (xmlEscape result.name.toList)) ++
      (element "IsTruncated".toList (boolText result.truncated) ++ rest) := by
    refine ⟨?_, ?_⟩
    rotate_left
    · simp only [render, line, List.append_assoc]
      rfl
  obtain ⟨rest, shape⟩ := shape
  rw [S3Driver.xmlFlag, shape, S3Driver.xmlValue_element (by decide) before (plain_boolText _)]
  cases result.truncated <;> decide

theorem token_render (result : ListBucketResult) :
    S3Driver.xmlValue result.render "NextContinuationToken" =
      result.nextToken.map fun token => trimmed (xmlEscape token.toList) := by
  have before : Skipped "NextContinuationToken".toList result.preface :=
    skipped_preface (by decide) (by decide +kernel) (by decide) result
  rw [render_eq]
  cases result.nextToken with
  | some token =>
      exact S3Driver.xmlValue_element (by decide) before (plain_xmlEscape _) _
  | none =>
      apply S3Driver.xmlValue_absent
      have entries : Skipped "NextContinuationToken".toList
          (['\n'].intercalate (result.keyed.map contentsText)) := by
        apply skipped_intercalate (by decide)
        intro part member
        obtain ⟨entry, -, rfl⟩ := List.mem_map.mp member
        exact (skipped_blockText (by decide) (by decide) (by decide) entry).element (by decide)
          (by decide) (by decide)
      have ending : Skipped "NextContinuationToken".toList
          ('\n' :: "</ListBucketResult>".toList) := by
        decide
      have newline : Skipped "NextContinuationToken".toList ['\n'] := skipped_of_plain (by decide)
      exact (before.append (by decide)
        (newline.append (by decide) (entries.append (by decide) ending))).2

end Search

section Entries

theorem readBlock_blockText (entry : StorageKey × UInt64) :
    S3Driver.readBlock (blockText entry) =
      match StorageKey.parse (String.ofList (trimmed entry.1.text.toList)) with
      | .error _ => none
      | .ok key => some (key, entry.2) := by
  have key : S3Driver.xmlValue (blockText entry) "Key" = some (trimmed entry.1.text.toList) := by
    have found := S3Driver.xmlValue_element (by decide)
      (skipped_of_plain (List.not_mem_nil) : Skipped "Key".toList [])
      (plain_xmlEscape entry.1.text.toList)
      (element "Size".toList (Nat.toDigits 10 entry.2.toNat))
    rw [List.nil_append] at found
    rw [blockText, found, xmlEscape_key]
  have size : (S3Driver.xmlValue (blockText entry) "Size").bind S3Driver.parseU64 =
      some entry.2 := by
    have before : Skipped "Size".toList
        (element "Key".toList (xmlEscape entry.1.text.toList)) :=
      (skipped_of_plain (plain_xmlEscape _)).element (by decide) (by decide) (by decide)
    have found := S3Driver.xmlValue_element (by decide) before
      (S3Driver.plain_toDigits entry.2.toNat) []
    rw [List.append_nil] at found
    rw [blockText, found, trimmed_eq (S3Driver.visible_toDigits _), Option.bind_some,
      S3Driver.parseU64_toDigits]
  cases parsed : StorageKey.parse (String.ofList (trimmed entry.1.text.toList)) with
  | error error => simp only [S3Driver.readBlock, key, parsed]
  | ok read => simp only [S3Driver.readBlock, key, size, parsed, Option.getD_some]

theorem framed_entries (entries : List (StorageKey × UInt64)) {front : List Char}
    (before : Skipped "Contents".toList front) :
    S3Driver.Framed
      (front ++ (entries.flatMap (fun entry => contentsText entry ++ ['\n']) ++
        "</ListBucketResult>".toList))
      (entries.map blockText) := by
  induction entries generalizing front with
  | nil =>
      apply S3Driver.Framed.done
      exact (before.append (by decide) (by decide)).2
  | cons entry rest inductionHypothesis =>
      have newline : Skipped "Contents".toList ['\n'] := skipped_of_plain (by decide)
      have later := inductionHypothesis newline
      have inside : Skipped "/Contents".toList (blockText entry) :=
        skipped_blockText (by decide) (by decide) (by decide) entry
      have framed := S3Driver.Framed.block before inside later
      rw [List.flatMap_cons, List.map_cons]
      simpa only [contentsText, List.append_assoc] using framed

theorem intercalate_newline {first : List Char} (parts : List (List Char)) (rest : List Char) :
    ['\n'].intercalate (first :: parts) ++ '\n' :: rest =
      (first :: parts).flatMap (· ++ ['\n']) ++ rest := by
  induction parts generalizing first with
  | nil => simp
  | cons next parts inductionHypothesis =>
      rw [List.intercalate_cons_cons, List.append_assoc, inductionHypothesis, List.flatMap_cons]
      simp

theorem framed_render (result : ListBucketResult) :
    S3Driver.Framed result.render (result.keyed.map blockText) := by
  have token : Skipped "Contents".toList (nextText result.nextToken) := by
    cases result.nextToken with
    | none => exact skipped_of_plain List.not_mem_nil
    | some token =>
        exact (skipped_of_plain (plain_xmlEscape _)).element (by decide) (by decide) (by decide)
  have before : Skipped "Contents".toList
      (result.preface ++ (nextText result.nextToken ++ ['\n'])) := by
    apply Skipped.append (by decide)
      (skipped_preface (by decide) (by decide +kernel) (by decide) result)
    exact token.append (by decide) (skipped_of_plain (by decide))
  have framed := framed_entries result.keyed before
  rw [render_eq]
  cases listed : result.keyed with
  | nil =>
      have ending : Skipped "Contents".toList ('\n' :: "</ListBucketResult>".toList) := by
        decide
      apply S3Driver.Framed.done
      have whole := (before.append (by decide) ending).2
      simpa [List.append_assoc] using whole
  | cons entry rest =>
      rw [List.map_cons, intercalate_newline]
      rw [listed] at framed
      simpa [List.flatMap_map] using framed

theorem scrapeEntries_render (result : ListBucketResult) :
    S3Driver.scrapeEntries result.render =
      result.keyed.filterMap fun entry => S3Driver.readBlock (blockText entry) := by
  have blocks := S3Driver.scrapeEntries_framed (framed_render result)
  rwa [List.filterMap_map, Function.comp_def] at blocks

theorem readBlock_visible {entry : StorageKey × UInt64} (visible : Trimmed entry.1.text.toList) :
    S3Driver.readBlock (blockText entry) = some entry := by
  rw [readBlock_blockText, trimmed_eq visible, String.ofList_toList, StorageKey.parse_text]

/-- A key that is read has no space at an end. -/
theorem visible_of_readBlock {entry read : StorageKey × UInt64}
    (found : S3Driver.readBlock (blockText entry) = some read) : Trimmed read.1.text.toList := by
  rw [readBlock_blockText] at found
  cases parsed : StorageKey.parse (String.ofList (trimmed entry.1.text.toList)) with
  | error error =>
      rw [parsed] at found
      cases found
  | ok key =>
      rw [parsed] at found
      cases found
      rw [StorageKey.text_of_parse parsed, String.toList_ofList]
      exact trimmed_visible _

end Entries

/-- The driver reads what the handler wrote. -/
def ReadBack (clock : Nat → Instant) (result : ListBucketResult) : Prop :=
  (S3Driver.scrapeContents clock result.render).map (fun object => (object.key, object.bytes)) =
      result.keyed.map (fun entry => (entry.1, entry.2.toNat)) ∧
    S3Driver.xmlFlag result.render "IsTruncated" = result.truncated ∧
    S3Driver.xmlValue result.render "NextContinuationToken" =
      result.nextToken.map String.toList

/-- Whatever the prefix is, exactly the spaces at the ends of keys are lost. -/
theorem readBack_iff (clock : Nat → Instant) (bucket keyPrefix : String) (maxKeys : Nat)
    (truncated : Bool) (keyed : List (StorageKey × UInt64)) :
    ReadBack clock (ListObjects.result bucket keyPrefix maxKeys truncated keyed) ↔
      ∀ entry ∈ keyed, Trimmed entry.1.text.toList := by
  simp only [ReadBack, S3Driver.map_scrapeContents, scrapeEntries_render, flag_render,
    token_render, ListObjects.result, true_and]
  constructor
  · rintro ⟨entries, -⟩ entry member
    have listed : (entry.1, entry.2.toNat) ∈ keyed.map fun entry => (entry.1, entry.2.toNat) :=
      List.mem_map_of_mem member
    rw [← entries] at listed
    obtain ⟨read, found, same⟩ := List.mem_map.mp listed
    obtain ⟨source, -, isRead⟩ := List.mem_filterMap.mp found
    have visible := visible_of_readBlock isRead
    rwa [(Prod.mk.inj same).1] at visible
  · intro visible
    constructor
    · have read : (keyed.filterMap fun entry => S3Driver.readBlock (blockText entry)) = keyed :=
        (List.filterMap_congr fun entry member => readBlock_visible (visible entry member)).trans
          List.filterMap_some
      exact congrArg _ read
    · cases truncated with
      | false => simp
      | true =>
          cases last : keyed.getLast? with
          | none => simp
          | some entry =>
              have atEnd := visible entry (List.mem_of_getLast? last)
              simp [xmlEscape_key, trimmed_eq atEnd]

theorem validate_spaced : StorageKey.validate " a" = .ok () := by decide

/-- A valid key that starts with a space. -/
def spacedKey : StorageKey := ⟨" a", validate_spaced⟩

theorem spaced_key_altered :
    ¬ ReadBack (fun _ => 0) (ListObjects.result "b" "" 1000 false [(spacedKey, 1)]) := by
  rintro ⟨entries, -⟩
  rw [S3Driver.map_scrapeContents] at entries
  exact absurd entries (by decide +kernel)

end ListBucketResult

end Picroom
