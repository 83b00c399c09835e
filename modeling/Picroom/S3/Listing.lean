import Mathlib.Data.List.Lex
import Mathlib.Data.Set.Finite.List
import Picroom.Relational.Keyset
import Picroom.Storage.LocalDriver
import Picroom.Text.Bytes

/-!
# Listing a bucket

`list_objects_v2` lists the whole store, keeps the keys with the prefix that come behind the
continuation token, sorts them and returns the first `max-keys` of them.  The token of the next
page is the last key of this one.
-/

namespace Picroom

open Text

/-- An answer with content type `application/xml`. -/
structure XmlResponse where
  status : Nat
  body : List Char
  deriving DecidableEq

/-- `s.replace(from, to)` for one character. -/
def replaceChar (old : Char) (new text : List Char) : List Char :=
  text.flatMap fun char => if char = old then new else [char]

/-- Minimal XML-escape for text content. -/
def xmlEscape (text : List Char) : List Char :=
  replaceChar '>' "&gt;".toList
    (replaceChar '<' "&lt;".toList (replaceChar '&' "&amp;".toList text))

def xmlError (status : Nat) (code message : String) : XmlResponse where
  status := status
  body := "<?xml version=\"1.0\" encoding=\"UTF-8\"?>\n<Error><Code>".toList ++ (code.toList ++
    ("</Code><Message>".toList ++ (xmlEscape message.toList ++ "</Message></Error>".toList)))

inductive BucketError where
  | empty
  | invalid (reason : String)
  deriving DecidableEq

/-- `BucketName::from_str`. -/
def checkBucketName (name : String) : Except BucketError Unit :=
  if name.toList = [] then .error .empty
  else if name.utf8ByteSize > 63 then .error (.invalid "too long")
  else if name.toList.all fun char =>
      char.isLower || char.isDigit || char == '-' || char == '.' then .ok ()
  else .error (.invalid "invalid characters")

/-- What one answer of `ListObjectsV2` says. -/
structure ListBucketResult where
  name : String
  truncated : Bool
  maxKeys : Nat
  keyPrefix : String
  nextToken : Option String
  keyed : List (StorageKey × UInt64)

namespace ListObjects

structure ListParams where
  listType : Option UInt32
  keyPrefix : Option String
  delimiter : Option String
  maxKeys : Option UInt32
  continuationToken : Option String

/-- Strings are compared byte by byte. -/
def byteRank (text : String) : List Nat := (asBytes text.toList).map UInt8.toNat

def pageSize (params : ListParams) : Nat :=
  min (max ((params.maxKeys.map UInt32.toNat).getD 1000) 1) 1000

/-- The objects with a prefix behind a token, in the order of their keys; `bytes` is a `u64`. -/
def keyed (keyPrefix token : String) (items : List ObjectMeta) : List (StorageKey × UInt64) :=
  ((((items.map fun item => (item.key, UInt64.ofNat item.bytes)).filter fun entry =>
    keyPrefix.toList.isPrefixOf entry.1.text.toList).filter fun entry =>
      token.toList.isEmpty || decide (byteRank token < byteRank entry.1.text)).mergeSort
        fun first second => decide (byteRank first.1.text ≤ byteRank second.1.text))

/-- The token of the next page is the last key of a truncated one. -/
def result (bucket keyPrefix : String) (maxKeys : Nat) (truncated : Bool)
    (keyed : List (StorageKey × UInt64)) : ListBucketResult where
  name := bucket
  truncated := truncated
  maxKeys := maxKeys
  keyPrefix := keyPrefix
  nextToken := if truncated then keyed.getLast?.map (·.1.text) else none
  keyed := keyed

def page (bucket : String) (params : ListParams) (items : List ObjectMeta) : ListBucketResult :=
  let maxKeys := pageSize params
  let matching := keyed (params.keyPrefix.getD "") (params.continuationToken.getD "") items
  let truncated := decide (maxKeys < matching.length)
  result bucket (params.keyPrefix.getD "") maxKeys truncated (matching.take maxKeys)

/-- What the handler answers with before it is written as XML. -/
def listObjectsV2 (expectedBucket : Option String) (bucket : String) (params : ListParams)
    (listed : Except StorageError (List ObjectMeta)) : Except XmlResponse ListBucketResult :=
  match checkBucketName bucket with
  | .error _ =>
      .error (xmlError 400 "InvalidBucketName" "The specified bucket is not valid.")
  | .ok () =>
      if expectedBucket.any (· != bucket) then
        .error (xmlError 404 "NoSuchBucket" ("The specified bucket does not exist: " ++ bucket))
      else
        match listed with
        | .ok items => .ok (page bucket params items)
        | .error _ => .error (xmlError 500 "InternalError" "An internal error occurred")

/-- The bucket is one that the handler answers for. -/
def Served (expectedBucket : Option String) (bucket : String) : Prop :=
  checkBucketName bucket = .ok () ∧ ∀ expected, expectedBucket = some expected → expected = bucket

/-- The objects of a store, in the order in which the driver finds them. -/
structure Store where
  objects : List ObjectMeta
  distinct : (objects.map ObjectMeta.key).Nodup

/-- The next page of a client that follows continuation tokens. -/
def request (expectedBucket : Option String) (bucket : String) (params : ListParams)
    (token : Option String) (store : Store) :
    Option (List (StorageKey × UInt64) × Option String) :=
  match listObjectsV2 expectedBucket bucket { params with continuationToken := token }
      (.ok store.objects) with
  | .ok result => some (result.keyed, result.nextToken)
  | .error _ => none

theorem byteRank_injective : Function.Injective byteRank := by
  intro first second same
  have bytes := List.map_injective_iff.mpr (fun _ _ => UInt8.toNat_inj.mp) same
  exact String.toList_inj.mp (asBytes_injective bytes)

theorem length_asBytes (chars : List Char) :
    (asBytes chars).length = (String.ofList chars).utf8ByteSize := by
  induction chars with
  | nil => simp [asBytes]
  | cons char rest inductionHypothesis =>
      have encoded : asBytes (char :: rest) = String.utf8EncodeChar char ++ asBytes rest := rfl
      rw [encoded, List.length_append, String.length_utf8EncodeChar, inductionHypothesis,
        String.ofList_cons, String.utf8ByteSize_append, String.utf8ByteSize_singleton]

/-- There are only finitely many keys: their length is bounded. -/
instance : Finite StorageKey := by
  have finiteBytes : Finite UInt8 := Finite.of_injective UInt8.toFin fun _ _ => UInt8.toFin_inj.mp
  have finiteTexts := List.finite_length_le UInt8 StorageKey.maxLen
  have _ := finiteTexts.to_subtype
  have short : ∀ key : StorageKey, (asBytes key.text.toList).length ≤ StorageKey.maxLen := by
    intro key
    rw [length_asBytes, String.ofList_toList]
    exact (StorageKey.validate_eq_ok_iff.mp key.valid).2.1
  apply Finite.of_injective fun key : StorageKey =>
    (⟨asBytes key.text.toList, short key⟩ : {bytes : List UInt8 | bytes.length ≤ StorageKey.maxLen})
  intro first second same
  have texts := asBytes_injective (Subtype.mk.inj same)
  exact StorageKey.ext (String.toList_inj.mp texts)

section Paging

/-- The entries of a store with a prefix. -/
def matching (keyPrefix : String) (store : Store) : List (StorageKey × UInt64) :=
  (store.objects.map fun item => (item.key, UInt64.ofNat item.bytes)).filter fun entry =>
    keyPrefix.toList.isPrefixOf entry.1.text.toList

def rank (entry : StorageKey × UInt64) : List Nat := byteRank entry.1.text

theorem distinct_matching (keyPrefix : String) (store : Store) :
    ((matching keyPrefix store).map rank).Nodup := by
  have ranks : Function.Injective fun key : StorageKey => byteRank key.text := by
    intro first second same
    exact StorageKey.ext (byteRank_injective same)
  have keys : ((matching keyPrefix store).map Prod.fst).Nodup := by
    have all := store.distinct
    have objects : (store.objects.map fun item => (item.key, UInt64.ofNat item.bytes)).map
        Prod.fst = store.objects.map ObjectMeta.key := by
      rw [List.map_map]
      rfl
    rw [← objects] at all
    exact all.sublist (List.filter_sublist.map Prod.fst)
  have composed : (matching keyPrefix store).map rank =
      ((matching keyPrefix store).map Prod.fst).map fun key => byteRank key.text := by
    rw [List.map_map]
    rfl
  rw [composed]
  exact keys.map ranks

theorem mem_keys_matching_iff {keyPrefix : String} {store : Store} {key : StorageKey} :
    key ∈ (matching keyPrefix store).map Prod.fst ↔
      key ∈ store.objects.map ObjectMeta.key ∧ keyPrefix.toList <+: key.text.toList := by
  simp only [matching, List.mem_map, List.mem_filter, List.isPrefixOf_iff_prefix]
  constructor
  · rintro ⟨_, ⟨⟨object, member, rfl⟩, starts⟩, rfl⟩
    exact ⟨⟨object, member, rfl⟩, starts⟩
  · rintro ⟨⟨object, member, rfl⟩, starts⟩
    exact ⟨_, ⟨⟨object, member, rfl⟩, starts⟩, rfl⟩

theorem keyed_eq (keyPrefix : String) {token : Option String} (proper : token ≠ some "")
    (store : Store) :
    keyed keyPrefix (token.getD "") store.objects =
      Relational.behind rank (matching keyPrefix) (token.map byteRank) store := by
  unfold keyed Relational.behind matching
  congr 1
  apply List.filter_congr
  rintro entry -
  cases token with
  | none => simp
  | some token =>
      have nonempty : token.toList.isEmpty = false := by
        rw [List.isEmpty_eq_false_iff]
        intro empty
        exact proper (congrArg some (String.toList_inj.mp empty))
      rw [Option.getD_some, nonempty, Bool.false_or]
      exact decide_eq_decide.mpr Iff.rfl

theorem pageSize_positive (params : ListParams) : 0 < pageSize params := by
  unfold pageSize
  omega

theorem request_eq {expectedBucket : Option String} {bucket : String}
    (served : Served expectedBucket bucket) (params : ListParams) {token : Option String}
    (proper : token ≠ some "") (store : Store) :
    request expectedBucket bucket params token store =
      let remaining := Relational.behind rank (matching (params.keyPrefix.getD ""))
        (token.map byteRank) store
      some (remaining.take (pageSize params),
        if pageSize params < remaining.length then
          (remaining.take (pageSize params)).getLast?.map (·.1.text)
        else none) := by
  have expected : expectedBucket.any (· != bucket) = false := by
    cases named : expectedBucket with
    | none => rfl
    | some name => simp [served.2 name named]
  have size : pageSize { params with continuationToken := token } = pageSize params := rfl
  simp only [request, listObjectsV2, served.1, expected, Bool.false_eq_true, if_false, page, result,
    keyed_eq _ proper, size, decide_eq_true_eq]

/-- A client that follows tokens sees the pages of the keyset walk. -/
theorem follow_request {expectedBucket : Option String} {bucket : String}
    (served : Served expectedBucket bucket) (params : ListParams) (stores : List Store) :
    Relational.follow (request expectedBucket bucket params) none stores =
      Relational.follow (Relational.keysetPage rank (matching (params.keyPrefix.getD ""))
        (pageSize params)) none stores := by
  have walk : Relational.follow (request expectedBucket bucket params) none stores =
      (Relational.follow (Relational.keysetPage rank (matching (params.keyPrefix.getD ""))
        (pageSize params)) none stores).map (List.map (List.map id)) := by
    apply Relational.follow_simulates
      (fun token position => token ≠ some "" ∧ position = token.map byteRank) (fun _ => True)
    · rintro token _ store ⟨proper, rfl⟩ -
      have answered := request_eq served params proper store
      rcases Relational.keysetPage_cases (pageSize_positive params) (token.map byteRank) store with
        ⟨short, answer⟩ | ⟨last, isLast, more, answer⟩
      · refine ⟨_, none, none, answer, ?_, by simp, by simp⟩
        rw [answered, List.map_id]
        simp only [if_neg (Nat.not_lt.mpr short), List.take_of_length_le short]
      · refine ⟨_, some _, some last.1.text, answer, ?_, by simp, ?_, rfl⟩
        · rw [answered, List.map_id]
          simp only [if_pos more, isLast, Option.map_some]
        · intro empty
          apply (StorageKey.validate_eq_ok_iff.mp last.1.valid).1
          rw [Option.some.inj empty]
          rfl
    · exact ⟨by simp, rfl⟩
    · simp
  rw [walk]
  simp

theorem behind_perm (keyPrefix : String) (store : Store) :
    List.Perm (Relational.behind rank (matching keyPrefix) none store)
      (matching keyPrefix store) := by
  unfold Relational.behind
  apply (List.mergeSort_perm _ _).trans
  simp

theorem length_matching_le (keyPrefix : String) (store : Store) :
    (matching keyPrefix store).length ≤ store.objects.length := by
  apply (List.length_filter_le _ _).trans
  rw [List.length_map]

/-- Following the tokens of an unchanged store ends, and the pages together are the entries with the
prefix, each once and in byte order.  When objects come and go between the pages the walk still
ends and repeats no key, and no key that stays is left out. -/
theorem listing_complete {expectedBucket : Option String} {bucket : String}
    (served : Served expectedBucket bucket) (params : ListParams) :
    (∀ store : Store, ∃ pages,
      Relational.follow (request expectedBucket bucket params) none
        (List.replicate (store.objects.length + 1) store) = some pages ∧
      (pages.flatten.map rank).Pairwise (· < ·) ∧
      List.Perm pages.flatten (matching (params.keyPrefix.getD "") store)) ∧
    (∀ stores : Nat → Store, ∃ requests,
      (Relational.follow (request expectedBucket bucket params) none
        ((List.range requests).map stores)).isSome = true) ∧
    ∀ (stores : List Store) (pages : List (List (StorageKey × UInt64))),
      Relational.follow (request expectedBucket bucket params) none stores = some pages →
      (pages.flatten.map rank).Pairwise (· < ·) ∧
      ∀ key : StorageKey, (params.keyPrefix.getD "").toList <+: key.text.toList →
        (∀ store ∈ stores, key ∈ store.objects.map ObjectMeta.key) →
        (pages.flatten.map Prod.fst).count key = 1 := by
  have positive := pageSize_positive params
  refine ⟨?_, ?_, ?_⟩
  · intro store
    have distinct := distinct_matching (params.keyPrefix.getD "") store
    have size : (Relational.behind rank (matching (params.keyPrefix.getD "")) none store).length <
        store.objects.length + 1 := by
      rw [(behind_perm _ store).length_eq]
      exact Nat.lt_succ_of_le (length_matching_le _ store)
    obtain ⟨pages, walked, joined⟩ := Relational.follow_replicate positive distinct size
    refine ⟨pages, (follow_request served params _).trans walked, ?_, ?_⟩
    · rw [joined]
      exact Relational.sorted_behind distinct
    · rw [joined]
      exact behind_perm _ store
  · intro stores
    have finite := Set.finite_range fun key : StorageKey => byteRank key.text
    have bounded : ∀ time, ∀ entry ∈ matching (params.keyPrefix.getD "") (stores time),
        rank entry ∈ finite.toFinset := by
      intro time entry _
      exact finite.mem_toFinset.mpr ⟨entry.1, rfl⟩
    obtain ⟨requests, done⟩ := Relational.follow_terminates positive stores bounded
    refine ⟨requests, ?_⟩
    rw [follow_request served]
    exact done
  · intro stores pages walked
    rw [follow_request served] at walked
    have increases := (Relational.follow_increases positive
      (fun store _ => distinct_matching _ store) walked).1
    refine ⟨increases, fun key starts throughout => ?_⟩
    have present : ∀ store ∈ stores,
        rank (key, 0) ∈ (matching (params.keyPrefix.getD "") store).map rank := by
      intro store member
      obtain ⟨entry, inStore, rfl⟩ := List.mem_map.mp
        (mem_keys_matching_iff.mpr ⟨throughout store member, starts⟩)
      exact List.mem_map.mpr ⟨entry, inStore, rfl⟩
    have listed := Relational.follow_complete positive
      (fun store _ => distinct_matching _ store) walked present (by simp)
    obtain ⟨entry, inPages, same⟩ := List.mem_map.mp listed
    have sameKey : entry.1 = key := StorageKey.ext (byteRank_injective same)
    apply List.count_eq_one_of_mem
    · rw [List.pairwise_map] at increases
      rw [List.Nodup, List.pairwise_map]
      apply increases.imp
      intro first second below equal
      rw [rank, equal] at below
      exact lt_irrefl _ below
    · exact List.mem_map.mpr ⟨entry, inPages, sameKey⟩

/-- A store of originals. -/
def storeOf (ids : List Uuid) (distinct : ids.Nodup) : Store where
  objects := ids.map fun id => ⟨originalKey id, 3, 0, none⟩
  distinct := by
    rw [List.map_map]
    exact distinct.map originalKey_injective

/-- While a client lists, the second image is uploaded and the first removed. -/
def changingStores : List Store :=
  [storeOf [⟨0⟩, ⟨2⟩] (by decide), storeOf [⟨0⟩, ⟨1⟩, ⟨2⟩] (by decide),
    storeOf [⟨1⟩, ⟨2⟩] (by decide)]

def oneByOne : ListParams := ⟨none, some "img/", none, some 1, none⟩

theorem checkBucketName_mybucket : checkBucketName "mybucket" = .ok () := by decide

theorem request_more {store : Store} {token : Option String} {entry : StorageKey × UInt64}
    (next : StorageKey × UInt64) (rest : List (StorageKey × UInt64))
    (found : keyed "img/" (token.getD "") store.objects = entry :: next :: rest) :
    request none "mybucket" oneByOne token store = some ([entry], some entry.1.text) := by
  simp only [request, listObjectsV2, checkBucketName_mybucket]
  simp [page, result, oneByOne, pageSize, found]

theorem request_last {store : Store} {token : Option String} {entry : StorageKey × UInt64}
    (found : keyed "img/" (token.getD "") store.objects = [entry]) :
    request none "mybucket" oneByOne token store = some ([entry], none) := by
  simp only [request, listObjectsV2, checkBucketName_mybucket]
  simp [page, result, oneByOne, pageSize, found]

/-- Three pages, from one token to the next. -/
theorem originals_listed :
    ∃ pages, Relational.follow (request none "mybucket" oneByOne) none changingStores =
        some pages ∧
      pages.map (·.map Prod.fst) = [[originalKey ⟨0⟩], [originalKey ⟨1⟩], [originalKey ⟨2⟩]] ∧
      (pages.flatten.map rank).Pairwise (· < ·) ∧
      (pages.flatten.map Prod.fst).count (originalKey ⟨2⟩) = 1 := by
  have served : Served none "mybucket" := ⟨checkBucketName_mybucket, by simp⟩
  have first : request none "mybucket" oneByOne none (storeOf [⟨0⟩, ⟨2⟩] (by decide)) =
      some ([(originalKey ⟨0⟩, 3)], some (originalKey ⟨0⟩).text) :=
    request_more (originalKey ⟨2⟩, 3) []
      ((List.mergeSort_of_pairwise (by decide +kernel)).trans (by decide +kernel))
  have second : request none "mybucket" oneByOne (some (originalKey ⟨0⟩).text)
      (storeOf [⟨0⟩, ⟨1⟩, ⟨2⟩] (by decide)) =
        some ([(originalKey ⟨1⟩, 3)], some (originalKey ⟨1⟩).text) :=
    request_more (originalKey ⟨2⟩, 3) []
      ((List.mergeSort_of_pairwise (by decide +kernel)).trans (by decide +kernel))
  have third : request none "mybucket" oneByOne (some (originalKey ⟨1⟩).text)
      (storeOf [⟨1⟩, ⟨2⟩] (by decide)) = some ([(originalKey ⟨2⟩, 3)], none) :=
    request_last ((List.mergeSort_of_pairwise (by decide +kernel)).trans (by decide +kernel))
  have walked : Relational.follow (request none "mybucket" oneByOne) none changingStores =
      some [[(originalKey ⟨0⟩, 3)], [(originalKey ⟨1⟩, 3)], [(originalKey ⟨2⟩, 3)]] := by
    rw [changingStores, Relational.follow_next first, Relational.follow_next second,
      Relational.follow_last third]
    rfl
  obtain ⟨sorted, once⟩ := (listing_complete served oneByOne).2.2 changingStores _ walked
  refine ⟨_, walked, rfl, sorted, once (originalKey ⟨2⟩) (by decide) ?_⟩
  simp [changingStores, storeOf]

end Paging

end ListObjects

end Picroom
