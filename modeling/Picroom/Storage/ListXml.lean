import Picroom.Storage.LocalDriver
import Picroom.Text.Bytes
import Picroom.Text.Markup

/-!
# Reading a listing

The driver searches the text of an answer for elements and does not parse it: `xml_value` takes the
text between the first `<name>` and the `</name>` behind it, and `scrape_contents` takes one object
from each `<Contents>` block.
-/

namespace Picroom

open Text

namespace S3Driver

/-- Returns the trimmed text between `<name>` and `</name>`. -/
def xmlValue (xml : List Char) (name : String) : Option (List Char) :=
  match splitOnce (tag name.toList) xml with
  | none => none
  | some (_, behind) =>
      match splitOnce (tag ('/' :: name.toList)) behind with
      | none => none
      | some (value, _) => some (trimmed value)

/-- `eq_ignore_ascii_case`. -/
def eqIgnoreAsciiCase (first second : List Char) : Bool :=
  first.map Char.toLower == second.map Char.toLower

/-- Whether an XML boolean element is `true`. -/
def xmlFlag (xml : List Char) (name : String) : Bool :=
  (xmlValue xml name).any (eqIgnoreAsciiCase · "true".toList)

/-- `str::parse::<u64>`: digits, perhaps behind a plus sign. -/
def parseU64 (text : List Char) : Option UInt64 :=
  let digits := if text.head? = some '+' then text.tail else text
  if digits = [] ∨ digits.all Char.isDigit = false then none
  else if Nat.ofDigitChars 10 digits 0 < 2 ^ 64 then
    some (UInt64.ofNat (Nat.ofDigitChars 10 digits 0))
  else none

/-- The texts between `<Contents>` and `</Contents>`, one after the other. -/
def contentsBlocks : Nat → List Char → List (List Char)
  | 0, _ => []
  | fuel + 1, rest =>
      match splitOnce (tag "Contents".toList) rest with
      | none => []
      | some (_, behind) =>
          match splitOnce (tag "/Contents".toList) behind with
          | none => []
          | some (block, rest) => block :: contentsBlocks fuel rest

/-- The key and the size of a block; a block without a valid key is passed over. -/
def readBlock (block : List Char) : Option (StorageKey × UInt64) :=
  match xmlValue block "Key" with
  | none => none
  | some rawKey =>
      match StorageKey.parse (String.ofList rawKey) with
      | .error _ => none
      | .ok key => some (key, ((xmlValue block "Size").bind parseU64).getD 0)

def scrapeEntries (xml : List Char) : List (StorageKey × UInt64) :=
  (contentsBlocks xml.length xml).filterMap readBlock

/-- Extracts one `ObjectMeta` per `<Contents>` block; `clock` gives the times of the entries. -/
def scrapeContents (clock : Nat → Instant) (xml : List Char) : List ObjectMeta :=
  (scrapeEntries xml).mapIdx fun index entry =>
    { key := entry.1, bytes := entry.2.toNat, lastModified := clock index, etag := none }

theorem parseU64_toDigits (value : UInt64) :
    parseU64 (Nat.toDigits 10 value.toNat) = some value := by
  have digits : ∀ char ∈ Nat.toDigits 10 value.toNat, char.isDigit = true := fun char member =>
    Nat.isDigit_of_mem_toDigits (by decide) (by decide) member
  have unsigned : (Nat.toDigits 10 value.toNat).head? ≠ some '+' := by
    intro plus
    exact absurd (digits '+' (List.mem_of_mem_head? plus)) (by decide)
  have allDigits : (Nat.toDigits 10 value.toNat).all Char.isDigit = true :=
    List.all_eq_true.mpr digits
  simp only [parseU64, if_neg unsigned, allDigits, Nat.ofDigitChars_ten_toDigits,
    Nat.toDigits_ne_nil, false_or, Bool.true_eq_false, if_false, if_pos value.toNat_lt,
    UInt64.ofNat_toNat]

theorem plain_toDigits (value : Nat) : '<' ∉ Nat.toDigits 10 value := by
  intro member
  exact absurd (Nat.isDigit_of_mem_toDigits (by decide) (by decide) member) (by decide)

theorem visible_toDigits (value : Nat) : Trimmed (Nat.toDigits 10 value) := by
  apply visible_of_all
  intro char member
  have digit : char.isDigit = true :=
    Nat.isDigit_of_mem_toDigits (by decide) (by decide) member
  have ascii : char.toNat < 128 := ascii_of_isAlphanum (by simp [Char.isAlphanum, digit])
  have both := ascii_all (fun char => !char.isDigit || !isWhitespace char) (by decide) ascii
  simpa [digit] using both

section Values

variable {front text : List Char} {name : String}

/-- The value of an element is the trimmed text in it. -/
theorem xmlValue_element (proper : '>' ∉ name.toList) (before : Skipped name.toList front)
    (plain : '<' ∉ text) (rest : List Char) :
    xmlValue (front ++ (element name.toList text ++ rest)) name = some (trimmed text) := by
  obtain ⟨opened, ended⟩ := splitOnce_element proper before (skipped_of_plain plain) rest
  simp only [xmlValue, opened, ended]

theorem xmlValue_absent {xml : List Char} (absent : splitOnce (tag name.toList) xml = none) :
    xmlValue xml name = none := by
  simp only [xmlValue, absent]

end Values

section Blocks

/-- A text with `Contents` elements around the blocks, and other text between them. -/
inductive Framed : List Char → List (List Char) → Prop where
  | done {text : List Char} (absent : splitOnce (tag "Contents".toList) text = none) :
      Framed text []
  | block {front block rest : List Char} {blocks : List (List Char)}
      (before : Skipped "Contents".toList front) (inside : Skipped "/Contents".toList block)
      (later : Framed rest blocks) :
      Framed (front ++ (element "Contents".toList block ++ rest)) (block :: blocks)

theorem contentsBlocks_framed {text : List Char} {blocks : List (List Char)}
    (framed : Framed text blocks) {fuel : Nat} (enough : text.length ≤ fuel) :
    contentsBlocks fuel text = blocks := by
  induction framed generalizing fuel with
  | done absent =>
      cases fuel with
      | zero => rfl
      | succ fuel => rw [contentsBlocks, absent]
  | @block front block rest blocks before inside later inductionHypothesis =>
      have closing : '/' :: "Contents".toList = "/Contents".toList := by decide
      obtain ⟨opened, ended⟩ := splitOnce_element (by decide) before inside rest
      have shorter := length_lt_of_splitOnce opened
      have shortest := length_lt_of_splitOnce ended
      cases fuel with
      | zero => omega
      | succ fuel =>
          rw [contentsBlocks, opened]
          rw [closing] at ended ⊢
          simp only [ended]
          rw [inductionHypothesis (by omega)]

theorem scrapeEntries_framed {text : List Char} {blocks : List (List Char)}
    (framed : Framed text blocks) : scrapeEntries text = blocks.filterMap readBlock := by
  rw [scrapeEntries, contentsBlocks_framed framed le_rfl]

/-- What the entries of a scraped text are. -/
theorem map_scrapeContents (clock : Nat → Instant) (xml : List Char) :
    (scrapeContents clock xml).map (fun object => (object.key, object.bytes)) =
      (scrapeEntries xml).map fun entry => (entry.1, entry.2.toNat) := by
  apply List.ext_getElem
  · simp [scrapeContents]
  · intro index _ _
    simp [scrapeContents]

end Blocks

end S3Driver

end Picroom
