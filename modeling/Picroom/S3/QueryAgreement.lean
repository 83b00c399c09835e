import Mathlib.Data.List.Pairwise
import Picroom.S3.Binding
import Picroom.Storage.Signer

/-!
# The two canonical queries

The client decodes the parameters of a query, encodes them again and sorts them as pairs; the
server sorts the parameters as they came.  The results are equal exactly when every parameter
is written as the client writes it and the two orders agree, which fails where a name is
another one followed by a character below `=`.
-/

namespace Picroom

open Text Web SigV4

namespace Middleware

theorem textLe_append (common first second : List Char) :
    textLe (common ++ first) (common ++ second) = textLe first second := by
  induction common with
  | nil => rfl
  | cons char rest inductionHypothesis =>
      simp [textLe, inductionHypothesis]

theorem textLe_cons_iff {char other : Char} {chars others : List Char} :
    textLe (char :: chars) (other :: others) = true ↔
      char.toNat < other.toNat ∨ char = other ∧ textLe chars others = true := by
  simp [textLe]

theorem textLe_total (first second : List Char) :
    textLe first second = true ∨ textLe second first = true := by
  induction first generalizing second with
  | nil => exact Or.inl rfl
  | cons char chars inductionHypothesis =>
      cases second with
      | nil => exact Or.inr rfl
      | cons other others =>
          rw [textLe_cons_iff, textLe_cons_iff]
          rcases Nat.lt_trichotomy char.toNat other.toNat with less | same | greater
          · exact Or.inl (Or.inl less)
          · have equal : char = other := Char.toNat_inj.mp same
            rcases inductionHypothesis others with smaller | larger
            · exact Or.inl (Or.inr ⟨equal, smaller⟩)
            · exact Or.inr (Or.inr ⟨equal.symm, larger⟩)
          · exact Or.inr (Or.inl greater)

theorem textLe_trans {first second third : List Char} (below : textLe first second = true)
    (above : textLe second third = true) : textLe first third = true := by
  induction first generalizing second third with
  | nil => rfl
  | cons char chars inductionHypothesis =>
      cases second with
      | nil => cases below
      | cons other others =>
          cases third with
          | nil => cases above
          | cons last rest =>
              rw [textLe_cons_iff] at below above ⊢
              rcases below with less | ⟨rfl, later⟩
              · rcases above with lessToo | ⟨rfl, _⟩
                · exact Or.inl (Nat.lt_trans less lessToo)
                · exact Or.inl less
              · rcases above with less | ⟨rfl, laterToo⟩
                · exact Or.inl less
                · exact Or.inr ⟨rfl, inductionHypothesis later laterToo⟩

theorem textLe_antisymm {first second : List Char} (below : textLe first second = true)
    (above : textLe second first = true) : first = second := by
  induction first generalizing second with
  | nil =>
      cases second with
      | nil => rfl
      | cons other others => cases above
  | cons char chars inductionHypothesis =>
      cases second with
      | nil => cases below
      | cons other others =>
          rw [textLe_cons_iff] at below above
          rcases below with less | ⟨rfl, later⟩
          · rcases above with greater | ⟨rfl, _⟩
            · omega
            · omega
          · rcases above with greater | ⟨_, laterToo⟩
            · omega
            · rw [inductionHypothesis later laterToo]

instance : Std.Total fun first second : List Char => textLe first second = true :=
  ⟨textLe_total⟩

instance : IsTrans (List Char) fun first second => textLe first second = true :=
  ⟨fun _ _ _ => textLe_trans⟩

theorem sortTexts_sorted (texts : List (List Char)) :
    (sortTexts texts).Pairwise fun first second => textLe first second = true :=
  List.pairwise_insertionSort _ texts

end Middleware

namespace S3Driver

open Middleware

theorem pairLe_iff {first second : List Char × List Char} :
    pairLe first second = true ↔
      (first.1 ≠ second.1 ∧ textLe first.1 second.1 = true) ∨
        (first.1 = second.1 ∧ textLe first.2 second.2 = true) := by
  simp [pairLe]

instance : Std.Total fun first second : List Char × List Char => pairLe first second = true := by
  constructor
  intro first second
  rw [pairLe_iff, pairLe_iff]
  by_cases same : first.1 = second.1
  · rcases textLe_total first.2 second.2 with below | above
    · exact Or.inl (Or.inr ⟨same, below⟩)
    · exact Or.inr (Or.inr ⟨same.symm, above⟩)
  · rcases textLe_total first.1 second.1 with below | above
    · exact Or.inl (Or.inl ⟨same, below⟩)
    · exact Or.inr (Or.inl ⟨Ne.symm same, above⟩)

instance : IsTrans (List Char × List Char) fun first second => pairLe first second = true := by
  constructor
  rintro ⟨name, value⟩ ⟨other, otherValue⟩ ⟨last, lastValue⟩ below above
  rw [pairLe_iff] at below above ⊢
  dsimp only at below above ⊢
  rcases below with ⟨different, below⟩ | ⟨rfl, below⟩
  · rcases above with ⟨_, above⟩ | ⟨rfl, _⟩
    · refine Or.inl ⟨?_, textLe_trans below above⟩
      rintro rfl
      exact different (textLe_antisymm below above)
    · exact Or.inl ⟨different, below⟩
  · rcases above with ⟨different, above⟩ | ⟨rfl, above⟩
    · exact Or.inl ⟨different, above⟩
    · exact Or.inr ⟨rfl, textLe_trans below above⟩

theorem not_mem_percentEncodeSegment {char : Char} (different : unreserved char = false)
    (percent : char ≠ '%') (digits : ∀ value < 16, char ≠ hexDigit value) (text : List Char) :
    char ∉ percentEncodeSegment text := by
  intro member
  rcases mem_percentEncode member with keeps | same | ⟨value, digit, same⟩
  · rw [different] at keeps
    cases keeps
  · exact percent same
  · exact digits value digit same

theorem equals_not_mem_percentEncodeSegment (text : List Char) :
    '=' ∉ percentEncodeSegment text := by
  apply not_mem_percentEncodeSegment (by decide) (by decide)
  intro value digit
  interval_cases value <;> decide

theorem separator_not_mem_percentEncodeSegment (text : List Char) :
    '&' ∉ percentEncodeSegment text := by
  apply not_mem_percentEncodeSegment (by decide) (by decide)
  intro value digit
  interval_cases value <;> decide

theorem writePair_inj {first second : List Char × List Char}
    (same : writePair (encodePair first) = writePair (encodePair second)) :
    encodePair first = encodePair second := by
  obtain ⟨names, values⟩ := append_separator_inj (equals_not_mem_percentEncodeSegment first.1)
    (equals_not_mem_percentEncodeSegment second.1) same
  exact Prod.ext names values

/-- Pairs in order are in order as texts, unless the second name is the first one followed by a
character below `=`. -/
theorem textLe_writePair {first second : List Char × List Char} (plain : '=' ∉ second.1)
    (ordered : ∀ char rest, second.1 = first.1 ++ char :: rest → '='.toNat < char.toNat)
    (below : pairLe first second = true) :
    textLe (writePair first) (writePair second) = true := by
  obtain ⟨name, value⟩ := first
  obtain ⟨other, otherValue⟩ := second
  rw [pairLe_iff] at below
  dsimp only at plain ordered below
  unfold writePair
  dsimp only
  induction name generalizing other with
  | nil =>
      cases other with
      | nil =>
          rcases below with ⟨different, _⟩ | ⟨_, below⟩
          · exact absurd rfl different
          · exact textLe_cons_iff.mpr (Or.inr ⟨rfl, below⟩)
      | cons char rest => exact textLe_cons_iff.mpr (Or.inl (ordered char rest rfl))
  | cons char chars inductionHypothesis =>
      cases other with
      | nil =>
          rcases below with ⟨_, impossible⟩ | ⟨impossible, _⟩
          · cases impossible
          · cases impossible
      | cons otherChar others =>
          rw [List.cons_append, List.cons_append, textLe_cons_iff]
          have later : char = otherChar → textLe (chars ++ '=' :: value)
              (others ++ '=' :: otherValue) = true := by
            rintro rfl
            apply inductionHypothesis others (fun member => plain (List.mem_cons_of_mem _ member))
            · intro next rest same
              exact ordered next rest (by rw [same]; rfl)
            · rcases below with ⟨different, below⟩ | ⟨same, below⟩
              · rcases textLe_cons_iff.mp below with less | ⟨_, below⟩
                · omega
                · exact Or.inl ⟨fun same => different (by rw [same]), below⟩
              · exact Or.inr ⟨(List.cons.inj same).2, below⟩
          rcases below with ⟨_, below⟩ | ⟨same, _⟩
          · rcases textLe_cons_iff.mp below with less | ⟨same, _⟩
            · exact Or.inl less
            · exact Or.inr ⟨same, later same⟩
          · exact Or.inr ⟨(List.cons.inj same).1, later (List.cons.inj same).1⟩

/-- What the client reads from one part of a query. -/
def readPart (part : List Char) : List Char × List Char :=
  (fromUtf8Lossy (formDecode (part.takeWhile (· != '='))),
    fromUtf8Lossy (formDecode (part.dropWhile (· != '=')).tail))

def queryParts (query : Option (List Char)) : List (List Char) :=
  ((query.getD []).splitOn '&').filter (· ≠ [])

theorem queryPairs_eq (query : Option (List Char)) :
    queryPairs query = (queryParts query).map readPart := rfl

theorem parameters_eq (query : Option (List Char)) :
    parameters query = (queryParts query).map canonicalPair := by
  cases query <;> rfl

/-- The client reads back what it would write. -/
theorem readPart_of_written {part : List Char} {pair : List Char × List Char}
    (written : canonicalPair part = writePair (encodePair pair)) : readPart part = pair := by
  have decoded : ∀ text : List Char,
      fromUtf8Lossy (formDecode (percentEncodeSegment text)) = text := by
    intro text
    rw [formDecode_percentEncodeSegment, fromUtf8Lossy_asBytes]
  have whole : ∀ text : List Char, '=' ∉ text → text.takeWhile (· != '=') = text ∧
      text.dropWhile (· != '=') = [] := by
    intro text plain
    have kept : ∀ char ∈ text, (char != '=') = true := by
      intro char member
      simp only [bne_iff_ne]
      rintro rfl
      exact plain member
    exact ⟨List.takeWhile_eq_self_iff.mpr kept, List.dropWhile_eq_nil_iff.mpr kept⟩
  have namePlain := equals_not_mem_percentEncodeSegment pair.1
  unfold canonicalPair at written
  split at written
  next =>
    change part = percentEncodeSegment pair.1 ++ '=' :: percentEncodeSegment pair.2 at written
    rw [readPart, written, takeWhile_append_stop (by decide), dropWhile_append_stop (by decide),
      (whole _ namePlain).1, (whole _ namePlain).2]
    exact Prod.ext (decoded pair.1) (decoded pair.2)
  next plain =>
    obtain ⟨sameName, sameValue⟩ := append_separator_inj plain namePlain written
    rw [readPart, (whole part plain).1, (whole part plain).2, sameName]
    have value := decoded pair.2
    change [] = percentEncodeSegment pair.2 at sameValue
    rw [← sameValue] at value
    exact Prod.ext (decoded pair.1) value

/-- Every parameter of a query is written as the client writes it, and no name is another one
followed by a character below `=`. -/
structure SelfEncoded (query : Option (List Char)) : Prop where
  written : ∀ parameter ∈ parameters query, ∃ pair, parameter = writePair (encodePair pair)
  ordered : ∀ first second, writePair (encodePair first) ∈ parameters query →
    writePair (encodePair second) ∈ parameters query → ∀ char rest,
      (encodePair second).1 = (encodePair first).1 ++ char :: rest → '='.toNat < char.toNat

theorem written_of_selfEncoded {query : Option (List Char)} (encoded : SelfEncoded query) :
    ((queryPairs query).map encodePair).map writePair = parameters query := by
  rw [queryPairs_eq, parameters_eq, List.map_map, List.map_map]
  apply List.map_congr_left
  intro part member
  obtain ⟨pair, written⟩ := encoded.written (canonicalPair part) (by
    rw [parameters_eq]
    exact List.mem_map_of_mem member)
  rw [Function.comp_apply, Function.comp_apply, readPart_of_written written, written]

def sortPairs (pairs : List (List Char × List Char)) : List (List Char × List Char) :=
  pairs.insertionSort fun first second => pairLe first second = true

theorem sortPairs_perm (pairs : List (List Char × List Char)) : (sortPairs pairs).Perm pairs :=
  List.perm_insertionSort _ pairs

theorem sortPairs_sorted (pairs : List (List Char × List Char)) :
    (sortPairs pairs).Pairwise fun first second => pairLe first second = true :=
  List.pairwise_insertionSort _ pairs

theorem canonicalQuery_eq_of_selfEncoded {query : Option (List Char)}
    (encoded : SelfEncoded query) : canonicalQuery query = canonicalQueryString query := by
  have written := written_of_selfEncoded encoded
  have permuted : ((sortPairs ((queryPairs query).map encodePair)).map writePair).Perm
      (parameters query) := by
    rw [← written]
    exact (sortPairs_perm _).map writePair
  have sorted : ((sortPairs ((queryPairs query).map encodePair)).map writePair).Pairwise
      fun first second => textLe first second = true := by
    rw [List.pairwise_map]
    apply List.Pairwise.imp_of_mem _ (sortPairs_sorted _)
    intro first second firstMember secondMember below
    have member : ∀ pair ∈ sortPairs ((queryPairs query).map encodePair),
        ∃ original, pair = encodePair original ∧ writePair pair ∈ parameters query := by
      intro pair present
      have inPairs := (sortPairs_perm _).mem_iff.mp present
      obtain ⟨original, _, rfl⟩ := List.mem_map.mp inPairs
      exact ⟨original, rfl, written ▸ List.mem_map_of_mem inPairs⟩
    obtain ⟨original, rfl, inQuery⟩ := member first firstMember
    obtain ⟨other, rfl, otherInQuery⟩ := member second secondMember
    exact textLe_writePair (equals_not_mem_percentEncodeSegment other.1)
      (encoded.ordered original other inQuery otherInQuery) below
  have same : (sortPairs ((queryPairs query).map encodePair)).map writePair =
      sortTexts (parameters query) := by
    apply List.Perm.eq_of_pairwise _ sorted (sortTexts_sorted _)
    · exact permuted.trans (sortTexts_perm _).symm
    · exact fun _ _ _ _ => textLe_antisymm
  rw [canonicalQuery, canonicalQueryString, ← same]
  rfl

theorem either_order {Item : Type} {related : Item → Item → Prop} {items : List Item}
    (pairwise : items.Pairwise related) {first second : Item} (firstMember : first ∈ items)
    (secondMember : second ∈ items) (different : first ≠ second) :
    related first second ∨ related second first := by
  have symmetric : Std.Symm fun first second => related first second ∨ related second first :=
    ⟨fun _ _ => Or.symm⟩
  have either : items.Pairwise fun first second => related first second ∨ related second first :=
    pairwise.imp fun ordered => Or.inl ordered
  exact either.forall firstMember secondMember different

/-- The parameters of either canonical query are not empty and hold no separator, so that the
lists can be read off the joined texts. -/
theorem plain_of_mem_client (query : Option (List Char)) :
    ∀ parameter ∈ (sortPairs ((queryPairs query).map encodePair)).map writePair,
      parameter ≠ [] ∧ '&' ∉ parameter := by
  intro parameter member
  obtain ⟨pair, present, rfl⟩ := List.mem_map.mp member
  obtain ⟨original, _, rfl⟩ := List.mem_map.mp ((sortPairs_perm _).mem_iff.mp present)
  refine ⟨by simp [writePair], ?_⟩
  intro separator
  rcases List.mem_append.mp separator with inName | later
  · exact separator_not_mem_percentEncodeSegment _ inName
  · rcases List.mem_cons.mp later with impossible | inValue
    · cases impossible
    · exact separator_not_mem_percentEncodeSegment _ inValue

theorem plain_of_mem_server (query : Option (List Char)) :
    ∀ parameter ∈ sortTexts (parameters query), parameter ≠ [] ∧ '&' ∉ parameter := by
  intro parameter member
  obtain ⟨nonempty, plain, _⟩ := plain_of_mem_parameters ((sortTexts_perm _).mem_iff.mp member)
  exact ⟨nonempty, plain⟩

theorem selfEncoded_of_canonicalQuery_eq {query : Option (List Char)}
    (same : canonicalQuery query = canonicalQueryString query) : SelfEncoded query := by
  have lists := intercalate_inj (plain_of_mem_client query) (plain_of_mem_server query) same
  have inSorted : ∀ parameter ∈ parameters query,
      ∃ pair, encodePair pair ∈ sortPairs ((queryPairs query).map encodePair) ∧
        parameter = writePair (encodePair pair) := by
    intro parameter member
    have present := (sortTexts_perm _).mem_iff.mpr member
    rw [← lists] at present
    obtain ⟨pair, inPairs, rfl⟩ := List.mem_map.mp present
    obtain ⟨original, _, rfl⟩ := List.mem_map.mp ((sortPairs_perm _).mem_iff.mp inPairs)
    exact ⟨original, inPairs, rfl⟩
  refine ⟨fun parameter member => (inSorted parameter member).imp fun _ found => found.2, ?_⟩
  intro first second firstMember secondMember char rest extended
  have present : ∀ pair, writePair (encodePair pair) ∈ parameters query →
      encodePair pair ∈ sortPairs ((queryPairs query).map encodePair) := by
    intro pair member
    obtain ⟨original, inPairs, same⟩ := inSorted _ member
    rw [writePair_inj same]
    exact inPairs
  have different : encodePair first ≠ encodePair second := by
    intro same
    rw [same] at extended
    have lengths := congrArg List.length extended
    simp at lengths
  -- In the common list the two pairs are in order both as pairs and as texts.
  have texts : (sortPairs ((queryPairs query).map encodePair)).Pairwise fun first second =>
      textLe (writePair first) (writePair second) = true := by
    have mapped := sortTexts_sorted (parameters query)
    rw [← lists, List.pairwise_map] at mapped
    exact mapped
  have inOrder := either_order ((sortPairs_sorted _).and texts) (present first firstMember)
    (present second secondMember) different
  have notEquals : char ≠ '=' := by
    rintro rfl
    apply equals_not_mem_percentEncodeSegment second.1
    change '=' ∈ (encodePair second).1
    rw [extended]
    simp
  rcases inOrder with ⟨_, inOrder⟩ | ⟨reversed, _⟩
  · rw [writePair, writePair, extended, List.append_assoc, textLe_append, List.cons_append,
      textLe_cons_iff] at inOrder
    rcases inOrder with less | ⟨same, _⟩
    · exact less
    · exact absurd same.symm notEquals
  · rw [pairLe_iff, extended] at reversed
    rcases reversed with ⟨_, impossible⟩ | ⟨same, _⟩
    · have shorter := textLe_append (encodePair first).1 (char :: rest) []
      rw [List.append_nil, impossible] at shorter
      cases shorter
    · have lengths := congrArg List.length same
      simp at lengths

/-- The client and the server agree on the canonical query exactly for queries that are
written as the client writes them. -/
theorem canonicalQuery_eq_iff {query : Option (List Char)} :
    canonicalQuery query = canonicalQueryString query ↔ SelfEncoded query :=
  ⟨selfEncoded_of_canonicalQuery_eq, canonicalQuery_eq_of_selfEncoded⟩

section Endpoint

/-- No parameter, no difference. -/
theorem selfEncoded_none : SelfEncoded none := by
  constructor
  · intro parameter member
    cases member
  · intro first second member
    cases member

/-- A parameter appended to a query that has some. -/
theorem parameters_append {text pair : List Char} (nonempty : pair ≠ []) (plain : '&' ∉ pair)
    (named : '=' ∈ pair) :
    parameters (some (text ++ '&' :: pair)) = parameters (some text) ++ [pair] := by
  simp only [parameters, List.splitOn_append_cons_self, List.splitOn_eq_singleton plain,
    List.filter_append, List.map_append]
  simp [nonempty, canonicalPair, named]

theorem formKeeps_cases {char : Char} (valid : StorageKey.validChar char = true)
    (noSpace : char ≠ ' ') : char.toNat < 128 ∧ formKeeps char = unreserved char := by
  have ascii : char.toNat < 128 := by
    simp only [StorageKey.validChar, Bool.or_eq_true, beq_iff_eq] at valid
    rcases valid with ((((alphanum | rfl) | rfl) | rfl) | rfl) | rfl
    · exact ascii_of_isAlphanum alphanum
    all_goals decide
  have implied : (!StorageKey.validChar char || char == ' ' ||
      formKeeps char == unreserved char) = true :=
    ascii_all (fun char => !StorageKey.validChar char || char == ' ' ||
      formKeeps char == unreserved char) (by decide) ascii
  refine ⟨ascii, ?_⟩
  simpa [valid, noSpace] using implied

/-- A key without spaces is form-encoded as it is percent-encoded. -/
theorem formEncode_eq_percentEncodeSegment {text : List Char}
    (valid : ∀ char ∈ text, StorageKey.validChar char = true) (noSpace : ' ' ∉ text) :
    formEncode text = percentEncodeSegment text := by
  induction text with
  | nil => rfl
  | cons char rest inductionHypothesis =>
      have notSpace : char ≠ ' ' := by
        rintro rfl
        exact noSpace (by simp)
      obtain ⟨ascii, sameKept⟩ := formKeeps_cases (valid char (by simp)) notSpace
      have later := inductionHypothesis
        (fun other member => valid other (List.mem_cons_of_mem _ member))
        fun space => noSpace (List.mem_cons_of_mem _ space)
      have byte : UInt8.ofNat char.toNat ≠ 32 := by
        intro same
        apply notSpace
        rw [← charOf_ofNat ascii, same]
        decide
      unfold formEncode percentEncodeSegment percentEncode at later ⊢
      rw [asBytes_cons_of_ascii ascii, List.flatMap_cons, List.flatMap_cons, later, formByte,
        if_neg byte, encodeByte, encodeByte, charOf_ofNat ascii, sameKept]

/-- A space is form-encoded as a plus sign. -/
theorem plus_mem_formEncode {text : List Char} (space : ' ' ∈ text) : '+' ∈ formEncode text := by
  obtain ⟨before, after, rfl⟩ := List.append_of_mem space
  have split : asBytes (before ++ ' ' :: after) = asBytes before ++ 32 :: asBytes after := by
    rw [asBytes_append, asBytes_cons_of_ascii (by decide)]
    rfl
  rw [formEncode, split, List.flatMap_append, List.flatMap_cons]
  apply List.mem_append_right
  apply List.mem_append_left
  decide

theorem plus_not_mem_percentEncodeSegment (text : List Char) : '+' ∉ percentEncodeSegment text := by
  apply not_mem_percentEncodeSegment (by decide) (by decide)
  intro value digit
  interval_cases value <;> decide

theorem mem_formEncode {text : List Char} {char : Char} (member : char ∈ formEncode text) :
    char = '+' ∨ formKeeps char = true ∨ char = '%' ∨ ∃ value < 16, char = hexDigit value := by
  obtain ⟨byte, _, inByte⟩ := List.mem_flatMap.mp member
  unfold formByte at inByte
  split at inByte
  next => exact Or.inl (List.mem_singleton.mp inByte)
  next => exact Or.inr (mem_encodeByte inByte)

theorem separator_not_mem_formPair (name value : List Char) : '&' ∉ formPair name value := by
  have plain : ∀ text, '&' ∉ formEncode text := by
    intro text member
    rcases mem_formEncode member with plus | keeps | percent | ⟨value, digit, same⟩
    · cases plus
    · cases keeps
    · cases percent
    · interval_cases value <;> cases same
  intro member
  rcases List.mem_append.mp member with inName | later
  · exact plain name inName
  · rcases List.mem_cons.mp later with equals | inValue
    · cases equals
    · exact plain value inValue

/-- One more parameter on a URL with a query. -/
theorem appendPair_query {url : Url} {text : List Char} (query : url.query = some text)
    (nonempty : text ≠ []) (name value : List Char) :
    (url.appendPair name value).query = some (text ++ '&' :: formPair name value) := by
  simp [Url.appendPair, appendQuery, query, nonempty]

def optionalPair (name : List Char) : Option StorageKey → List (List Char)
  | none => []
  | some key => [formPair name key.text.toList]

theorem appendOptional_query {url : Url} {text : List Char} (query : url.query = some text)
    (nonempty : text ≠ []) (name : List Char) (key : Option StorageKey) :
    ∃ longer, (appendOptional url name key).query = some longer ∧ longer ≠ [] ∧
      parameters (some longer) = parameters (some text) ++ optionalPair name key := by
  cases key with
  | none => exact ⟨text, query, nonempty, by simp [optionalPair]⟩
  | some key =>
      refine ⟨_, appendPair_query query nonempty name key.text.toList, by simp, ?_⟩
      apply parameters_append (by simp [formPair]) (separator_not_mem_formPair _ _)
      simp [formPair]

/-- The parameters of a listing on an endpoint without a query. -/
theorem parameters_listUrl {driver : S3Driver} (noQuery : driver.baseUrl.query = none)
    (start token : Option StorageKey) :
    parameters (listUrl driver start token).query =
      [formPair "list-type".toList "2".toList, formPair "max-keys".toList "1000".toList] ++
        optionalPair "prefix".toList start ++ optionalPair "continuation-token".toList token := by
  have first : (((driver.baseUrl.setPath ('/' :: (driver.config.bucket ++ ['/']))).appendPair
      "list-type".toList "2".toList)).query = some (formPair "list-type".toList "2".toList) := by
    simp [Url.appendPair, Url.setPath, appendQuery, noQuery]
  have second := appendPair_query first (by simp [formPair]) "max-keys".toList "1000".toList
  obtain ⟨third, thirdQuery, thirdNonempty, thirdParameters⟩ :=
    appendOptional_query second (by simp) "prefix".toList start
  obtain ⟨fourth, fourthQuery, _, fourthParameters⟩ :=
    appendOptional_query thirdQuery thirdNonempty "continuation-token".toList token
  have pairs : parameters (some (formPair "list-type".toList "2".toList ++
      '&' :: formPair "max-keys".toList "1000".toList)) =
      [formPair "list-type".toList "2".toList, formPair "max-keys".toList "1000".toList] := by
    decide
  unfold listUrl
  rw [fourthQuery, fourthParameters, thirdParameters, pairs]

theorem mem_optionalPair {name parameter : List Char} {key : Option StorageKey} :
    parameter ∈ optionalPair name key ↔
      ∃ present, key = some present ∧ parameter = formPair name present.text.toList := by
  cases key <;> simp [optionalPair]

/-- The names of the parameters of a listing; none of them is the start of another. -/
def listNames : List (List Char) :=
  ["list-type".toList, "max-keys".toList, "prefix".toList, "continuation-token".toList]

theorem formEncode_listNames : ∀ name ∈ listNames, formEncode name = name ∧ '=' ∉ name := by
  decide

theorem listNames_apart : ∀ name ∈ listNames, ∀ other ∈ listNames,
    name.length < other.length → other.take name.length ≠ name := by
  decide

theorem mem_parameters_listUrl {driver : S3Driver} (noQuery : driver.baseUrl.query = none)
    {start token : Option StorageKey} {parameter : List Char}
    (member : parameter ∈ parameters (listUrl driver start token).query) :
    ∃ name ∈ listNames, ∃ value, parameter = formPair name value := by
  rw [parameters_listUrl noQuery, List.mem_append, List.mem_append, mem_optionalPair,
    mem_optionalPair] at member
  rcases member with (fixed | ⟨key, _, rfl⟩) | ⟨key, _, rfl⟩
  · simp only [List.mem_cons, List.not_mem_nil, or_false] at fixed
    rcases fixed with rfl | rfl
    · exact ⟨"list-type".toList, by simp [listNames], _, rfl⟩
    · exact ⟨"max-keys".toList, by simp [listNames], _, rfl⟩
  · exact ⟨"prefix".toList, by simp [listNames], _, rfl⟩
  · exact ⟨"continuation-token".toList, by simp [listNames], _, rfl⟩

theorem name_of_written {driver : S3Driver} (noQuery : driver.baseUrl.query = none)
    {start token : Option StorageKey} {pair : List Char × List Char}
    (member : writePair (encodePair pair) ∈ parameters (listUrl driver start token).query) :
    (encodePair pair).1 ∈ listNames := by
  obtain ⟨name, known, value, same⟩ := mem_parameters_listUrl noQuery member
  obtain ⟨kept, plain⟩ := formEncode_listNames name known
  rw [formPair, kept] at same
  have sameName : (encodePair pair).1 = name :=
    (append_separator_inj (equals_not_mem_percentEncodeSegment pair.1) plain same).1
  rwa [sameName]

/-- The driver and the server agree on a listing exactly when neither key has a space. -/
theorem selfEncoded_listUrl_iff {driver : S3Driver} (noQuery : driver.baseUrl.query = none)
    {start token : Option StorageKey} :
    SelfEncoded (listUrl driver start token).query ↔
      ∀ key, start = some key ∨ token = some key → ' ' ∉ key.text.toList := by
  constructor
  · intro encoded key used space
    have found : ∃ name ∈ listNames, formPair name key.text.toList ∈
        parameters (listUrl driver start token).query := by
      rw [parameters_listUrl noQuery]
      rcases used with rfl | rfl
      · exact ⟨"prefix".toList, by simp [listNames], by simp [optionalPair]⟩
      · exact ⟨"continuation-token".toList, by simp [listNames], by simp [optionalPair]⟩
    obtain ⟨name, _, member⟩ := found
    obtain ⟨pair, written⟩ := encoded.written _ member
    have plus : '+' ∈ writePair (encodePair pair) := by
      rw [← written]
      exact List.mem_append_right _ (List.mem_cons_of_mem _ (plus_mem_formEncode space))
    rcases List.mem_append.mp plus with inName | later
    · exact plus_not_mem_percentEncodeSegment _ inName
    · rcases List.mem_cons.mp later with equals | inValue
      · cases equals
      · exact plus_not_mem_percentEncodeSegment _ inValue
  · intro spaceless
    have written : ∀ name ∈ listNames, ∀ key : StorageKey, ' ' ∉ key.text.toList →
        ∃ pair, formPair name key.text.toList = writePair (encodePair pair) := by
      intro name known key noSpace
      have same : percentEncodeSegment name = formEncode name := by
        revert name known
        decide
      obtain ⟨_, _, _, _, valid⟩ := StorageKey.validate_eq_ok_iff.mp key.valid
      refine ⟨(name, key.text.toList), ?_⟩
      rw [formPair, writePair, encodePair, same, formEncode_eq_percentEncodeSegment valid noSpace]
    refine ⟨?_, ?_⟩
    · intro parameter member
      rw [parameters_listUrl noQuery, List.mem_append, List.mem_append, mem_optionalPair,
        mem_optionalPair] at member
      rcases member with (fixed | ⟨key, present, rfl⟩) | ⟨key, present, rfl⟩
      · simp only [List.mem_cons, List.not_mem_nil, or_false] at fixed
        rcases fixed with rfl | rfl
        · exact ⟨("list-type".toList, "2".toList), by decide⟩
        · exact ⟨("max-keys".toList, "1000".toList), by decide⟩
      · exact written _ (by simp [listNames]) key (spaceless key (Or.inl present))
      · exact written _ (by simp [listNames]) key (spaceless key (Or.inr present))
    · intro first second firstMember secondMember char rest extended
      have apart := listNames_apart _ (name_of_written noQuery firstMember) _
        (name_of_written noQuery secondMember)
      rw [extended] at apart
      exact absurd List.take_left (apart (by simp))

/-- An object's request has no query on such an endpoint. -/
theorem selfEncoded_objectUrl {parseAuthority : List Char → List Char → Option Authority}
    {driver : S3Driver} {bucket : List Char} {key : StorageKey} {url : Url}
    (plain : behindQuery driver bucket = false)
    (built : objectUrl parseAuthority driver bucket key.text.toList = some url) :
    SelfEncoded url.query := by
  rw [objectUrl_eq] at built
  obtain ⟨authority, _, rfl⟩ := Option.map_eq_some_iff.mp built
  have ended := any_trunk (front driver bucket)
  rw [any_front, plain] at ended
  rw [(parseRest_append safeSegment_encoded ended).2.1]
  exact selfEncoded_none

end Endpoint

end S3Driver

end Picroom
