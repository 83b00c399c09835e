import Mathlib.Data.List.Perm.Basic
import Picroom.S3.QueryAgreement

/-!
# What a canonical query says

A canonical query is a multiset of parameters written in one order, so two queries have the
same one exactly when they carry the same parameters.  SigV4 orders parameters by name and then
by value; the server orders the written `name=value` texts, and the two orders part where a name
is another one followed by a character below `=`.
-/

namespace Picroom.S3Driver

open Text Web SigV4 Middleware

theorem encodePair_injective : Function.Injective encodePair := by
  intro first second same
  obtain ⟨names, values⟩ := Prod.ext_iff.mp same
  have injective : Function.Injective percentEncodeSegment :=
    percentEncode_injective (by decide) (by decide)
  exact Prod.ext (injective names) (injective values)

theorem pairLe_antisymm {first second : List Char × List Char} (below : pairLe first second = true)
    (above : pairLe second first = true) : first = second := by
  rw [pairLe_iff] at below above
  rcases below with ⟨different, below⟩ | ⟨same, below⟩
  · rcases above with ⟨_, above⟩ | ⟨same, _⟩
    · exact absurd (textLe_antisymm below above) different
    · exact absurd same.symm different
  · rcases above with ⟨different, _⟩ | ⟨_, above⟩
    · exact absurd same.symm different
    · exact Prod.ext same (textLe_antisymm below above)

theorem sortPairs_eq_of_perm {pairs others : List (List Char × List Char)}
    (permuted : pairs.Perm others) : sortPairs pairs = sortPairs others := by
  apply List.Perm.eq_of_pairwise _ (sortPairs_sorted _) (sortPairs_sorted _)
  · exact (sortPairs_perm _).trans (permuted.trans (sortPairs_perm _).symm)
  · exact fun _ _ _ _ => pairLe_antisymm

theorem sortTexts_eq_of_perm {texts others : List (List Char)} (permuted : texts.Perm others) :
    sortTexts texts = sortTexts others := by
  apply List.Perm.eq_of_pairwise _ (sortTexts_sorted _) (sortTexts_sorted _)
  · exact (sortTexts_perm _).trans (permuted.trans (sortTexts_perm _).symm)
  · exact fun _ _ _ _ => textLe_antisymm

theorem map_encodePair_perm {pairs others : List (List Char × List Char)} :
    (pairs.map encodePair).Perm (others.map encodePair) ↔ pairs.Perm others :=
  List.map_perm_map_iff encodePair_injective

/-- Encoded pairs are told apart by what is written. -/
theorem map_writePair_inj {pairs others : List (List Char × List Char)}
    (pairsEncoded : ∀ pair ∈ pairs, ∃ original, pair = encodePair original)
    (othersEncoded : ∀ pair ∈ others, ∃ original, pair = encodePair original)
    (same : pairs.map writePair = others.map writePair) : pairs = others := by
  induction pairs generalizing others with
  | nil =>
      cases others with
      | nil => rfl
      | cons other rest => cases same
  | cons pair pairs inductionHypothesis =>
      cases others with
      | nil => cases same
      | cons other others =>
          simp only [List.map_cons, List.cons.injEq] at same
          obtain ⟨first, rfl⟩ := pairsEncoded pair (by simp)
          obtain ⟨second, rfl⟩ := othersEncoded other (by simp)
          have later := inductionHypothesis
            (fun other member => pairsEncoded other (List.mem_cons_of_mem _ member))
            (fun other member => othersEncoded other (List.mem_cons_of_mem _ member)) same.2
          rw [writePair_inj same.1, later]

theorem encoded_of_mem_sortPairs {pairs : List (List Char × List Char)} :
    ∀ pair ∈ sortPairs (pairs.map encodePair), ∃ original, pair = encodePair original := by
  intro pair member
  obtain ⟨original, _, same⟩ := List.mem_map.mp ((sortPairs_perm _).mem_iff.mp member)
  exact ⟨original, same.symm⟩

theorem queryPairs_perm_of_canonicalQuery_eq {query other : Option (List Char)}
    (same : canonicalQuery query = canonicalQuery other) :
    (queryPairs query).Perm (queryPairs other) := by
  have written := intercalate_inj (plain_of_mem_client query) (plain_of_mem_client other) same
  have sorted := map_writePair_inj encoded_of_mem_sortPairs encoded_of_mem_sortPairs written
  have encoded : ((queryPairs query).map encodePair).Perm ((queryPairs other).map encodePair) := by
    refine (sortPairs_perm _).symm.trans ?_
    rw [sorted]
    exact sortPairs_perm _
  exact map_encodePair_perm.mp encoded

theorem parameters_perm_of_canonicalQueryString_eq {query other : Option (List Char)}
    (same : canonicalQueryString query = canonicalQueryString other) :
    (parameters query).Perm (parameters other) := by
  have sorted := intercalate_inj (plain_of_mem_server query) (plain_of_mem_server other) same
  refine (sortTexts_perm _).symm.trans ?_
  rw [sorted]
  exact sortTexts_perm _

/-- Either canonical query identifies the parameters up to their order: the decoded pairs for
the driver, the parts as they came for the server. -/
theorem canonical_query_identifies :
    (∀ url other : Url, canonicalQuery url.query = canonicalQuery other.query ↔
      (queryPairs url.query).Perm (queryPairs other.query)) ∧
    (∀ query other : Option (List Char),
      canonicalQueryString query = canonicalQueryString other ↔
        (parameters query).Perm (parameters other)) := by
  constructor
  · intro url other
    refine ⟨queryPairs_perm_of_canonicalQuery_eq, ?_⟩
    intro permuted
    have sorted := sortPairs_eq_of_perm (map_encodePair_perm.mpr permuted)
    unfold canonicalQuery
    exact congrArg (fun pairs => join '&' (pairs.map writePair)) sorted
  · intro query other
    refine ⟨parameters_perm_of_canonicalQueryString_eq, ?_⟩
    intro permuted
    rw [canonicalQueryString, canonicalQueryString, sortTexts_eq_of_perm permuted]

section Prescribed

/-- A parameter as it came; a bare name has an empty value. -/
def rawPair (part : List Char) : List Char × List Char :=
  (part.takeWhile (· != '='), (part.dropWhile (· != '=')).tail)

def rawPairs (query : Option (List Char)) : List (List Char × List Char) :=
  (queryParts query).map rawPair

/-- Names and values are written as SigV4 prescribes: the UTF-8 bytes of a text, all but the
unreserved characters as `%XX`. -/
def Prescribed (query : Option (List Char)) : Prop :=
  ∀ pair ∈ rawPairs query, ∃ original, pair = encodePair original

/-- The canonical query of SigV4: the pairs by encoded name and then by encoded value. -/
def prescribedQuery (query : Option (List Char)) : List Char :=
  join '&' ((sortPairs (rawPairs query)).map writePair)

/-- No name of the query is another of its names followed by a character below `=`. -/
def NamesApart (query : Option (List Char)) : Prop :=
  ∀ first ∈ rawPairs query, ∀ second ∈ rawPairs query, ∀ char rest,
    second.1 = first.1 ++ char :: rest → '='.toNat < char.toNat

theorem writePair_rawPair (part : List Char) : writePair (rawPair part) = canonicalPair part := by
  unfold writePair rawPair canonicalPair
  dsimp only
  induction part with
  | nil => rfl
  | cons char rest inductionHypothesis =>
      by_cases equals : char = '='
      · subst equals
        simp
      · simp only [List.takeWhile_cons_of_pos (p := (· != '=')) (bne_iff_ne.mpr equals),
          List.dropWhile_cons_of_pos (p := (· != '=')) (bne_iff_ne.mpr equals),
          List.cons_append, inductionHypothesis, List.mem_cons, Ne.symm equals, false_or]
        split <;> rfl

theorem parameters_eq_rawPairs (query : Option (List Char)) :
    parameters query = (rawPairs query).map writePair := by
  rw [parameters_eq, rawPairs, List.map_map]
  exact List.map_congr_left fun part _ => (writePair_rawPair part).symm

/-- On a prescribed query the driver decodes and encodes every pair to itself. -/
theorem rawPairs_of_prescribed {query : Option (List Char)} (prescribed : Prescribed query) :
    (queryPairs query).map encodePair = rawPairs query := by
  rw [queryPairs_eq, rawPairs, List.map_map]
  apply List.map_congr_left
  intro part member
  obtain ⟨original, encoded⟩ := prescribed (rawPair part) (List.mem_map_of_mem member)
  have written : canonicalPair part = writePair (encodePair original) := by
    rw [← writePair_rawPair, encoded]
  rw [Function.comp_apply, readPart_of_written written, encoded]

theorem canonicalQuery_of_prescribed {query : Option (List Char)}
    (prescribed : Prescribed query) : canonicalQuery query = prescribedQuery query := by
  rw [prescribedQuery, ← rawPairs_of_prescribed prescribed]
  rfl

theorem mem_rawPairs_iff {query : Option (List Char)} (prescribed : Prescribed query)
    (pair : List Char × List Char) :
    encodePair pair ∈ rawPairs query ↔ writePair (encodePair pair) ∈ parameters query := by
  rw [parameters_eq_rawPairs, List.mem_map]
  constructor
  · exact fun member => ⟨_, member, rfl⟩
  · rintro ⟨other, member, same⟩
    obtain ⟨original, rfl⟩ := prescribed other member
    rw [← writePair_inj same]
    exact member

theorem selfEncoded_iff_namesApart {query : Option (List Char)}
    (prescribed : Prescribed query) : SelfEncoded query ↔ NamesApart query := by
  constructor
  · intro encoded first firstMember second secondMember
    obtain ⟨firstPair, rfl⟩ := prescribed first firstMember
    obtain ⟨secondPair, rfl⟩ := prescribed second secondMember
    exact encoded.ordered firstPair secondPair ((mem_rawPairs_iff prescribed _).mp firstMember)
      ((mem_rawPairs_iff prescribed _).mp secondMember)
  · intro apart
    refine ⟨?_, ?_⟩
    · intro parameter member
      rw [parameters_eq_rawPairs] at member
      obtain ⟨pair, present, rfl⟩ := List.mem_map.mp member
      obtain ⟨original, rfl⟩ := prescribed pair present
      exact ⟨original, rfl⟩
    · intro first second firstMember secondMember
      exact apart _ ((mem_rawPairs_iff prescribed _).mpr firstMember) _
        ((mem_rawPairs_iff prescribed _).mpr secondMember)

/-- The server's canonical query is the one of SigV4, and the driver's, exactly when no name of
the query is another one followed by a character below `=`. -/
theorem canonicalQueryString_eq_prescribed_iff (query : Option (List Char))
    (prescribed : Prescribed query) :
    (canonicalQueryString query = prescribedQuery query ∧
      canonicalQuery query = prescribedQuery query) ↔ NamesApart query := by
  have driver := canonicalQuery_of_prescribed prescribed
  rw [← selfEncoded_iff_namesApart prescribed, ← canonicalQuery_eq_iff, driver]
  constructor
  · exact fun agreed => agreed.1.symm
  · exact fun agreed => ⟨agreed.symm, rfl⟩

/-- `prefix=x&uploads`: two names without a common start. -/
theorem canonicalQueryString_eq_prescribed_uploads :
    Prescribed (some "uploads&prefix=x".toList) ∧
      canonicalQueryString (some "uploads&prefix=x".toList) = "prefix=x&uploads=".toList ∧
      prescribedQuery (some "uploads&prefix=x".toList) = "prefix=x&uploads=".toList := by
  have prescribed : Prescribed (some "uploads&prefix=x".toList) := by
    intro pair member
    have known : pair = encodePair ("uploads".toList, []) ∨
        pair = encodePair ("prefix".toList, "x".toList) := by
      revert pair
      decide
    rcases known with rfl | rfl
    · exact ⟨_, rfl⟩
    · exact ⟨_, rfl⟩
  have unrelated : ∀ first ∈ rawPairs (some "uploads&prefix=x".toList),
      ∀ second ∈ rawPairs (some "uploads&prefix=x".toList),
        first.1.length < second.1.length → second.1.take first.1.length ≠ first.1 := by
    decide
  have apart : NamesApart (some "uploads&prefix=x".toList) := by
    intro first firstMember second secondMember char rest extended
    have different := unrelated first firstMember second secondMember
    rw [extended] at different
    exact absurd List.take_left (different (by simp))
  have agreed := (canonicalQueryString_eq_prescribed_iff _ prescribed).mpr apart
  have value : prescribedQuery (some "uploads&prefix=x".toList) = "prefix=x&uploads=".toList := by
    decide
  exact ⟨prescribed, agreed.1.trans value, value⟩

/-- `a=2&a-b=1`: by name `a` comes first, but `-` is below `=`. -/
theorem canonicalQueryString_misordered :
    ¬ ∀ query : Option (List Char), Prescribed query →
      canonicalQueryString query = prescribedQuery query ∧
        canonicalQuery query = prescribedQuery query := by
  intro always
  have prescribed : Prescribed (some "a=2&a-b=1".toList) := by
    intro pair member
    have known : pair = encodePair ("a".toList, "2".toList) ∨
        pair = encodePair ("a-b".toList, "1".toList) := by
      revert pair
      decide
    rcases known with rfl | rfl
    · exact ⟨_, rfl⟩
    · exact ⟨_, rfl⟩
  exact absurd (always _ prescribed).1 (by decide)

end Prescribed

end Picroom.S3Driver
