import Picroom.Storage.ListXml
import Picroom.Storage.Signer

/-!
# Listing a bucket through the driver

`S3Driver::list` asks for one page after the other until an answer is not truncated, has no token,
or repeats the token of its request, and at most `MAX_PAGES` times.  The server is any function of
the request and of its own state.
-/

namespace Picroom

open Text Web SigV4

structure ListRequest where
  url : Url
  headers : List (List Char × List Char)

/-- An answer; reading its text may fail. -/
structure ListAnswer where
  status : Nat
  text : Except String (List Char)

/-- The readings of the clock while a listing runs: when the request of an index is signed, and
when its entries are read. -/
structure ListClock where
  signed : Nat → OffsetDateTime
  read : Nat → Nat → Instant

/-- What the driver uses besides its configuration. -/
structure ListTools where
  digests : Digests
  clock : ListClock
  statusText : Nat → String

/-- A server and the network to it. -/
abbrev ListBackend (State : Type) := ListRequest → State → Except String ListAnswer × State

namespace S3Driver

def maxPages : Nat := 10000

def appendToken (url : Url) : Option (List Char) → Url
  | some token => url.appendPair "continuation-token".toList token
  | none => url

def pageUrl (driver : S3Driver) (start : Option StorageKey) (token : Option (List Char)) : Url :=
  let url := driver.baseUrl.setPath ('/' :: (driver.config.bucket ++ ['/']))
  let url := url.appendPair "list-type".toList "2".toList
  let url := url.appendPair "max-keys".toList "1000".toList
  appendToken (appendOptional url "prefix".toList start) token

theorem listUrl_eq (driver : S3Driver) (start token : Option StorageKey) :
    listUrl driver start token = pageUrl driver start (token.map fun key => key.text.toList) := by
  cases token <;> rfl

def listRequest (tools : ListTools) (driver : S3Driver) (start : Option StorageKey) (index : Nat)
    (token : Option (List Char)) : ListRequest :=
  let url := pageUrl driver start token
  ⟨url, signRequest tools.digests driver (tools.clock.signed index) "GET".toList url [] []⟩

/-- The text of an answer, if it is a success. -/
def readAnswer (tools : ListTools) (answer : ListAnswer) : Except StorageError (List Char) :=
  if 200 ≤ answer.status ∧ answer.status < 300 then
    match answer.text with
    | .ok body => .ok body
    | .error error => .error (.backend ("LIST body: " ++ error))
  else
    let body := match answer.text with
      | .ok body => String.ofList body
      | .error _ => ""
    .error (.backend ("LIST failed: " ++ tools.statusText answer.status ++ " - " ++ body))

/-- The token to go on with: the answer is truncated and has a token other than the last one. -/
def nextToken (body : List Char) (token : Option (List Char)) : Option (List Char) :=
  match xmlFlag body "IsTruncated", xmlValue body "NextContinuationToken" with
  | true, some next => if some next ≠ token then some next else none
  | _, _ => none

variable {State : Type} (tools : ListTools) (driver : S3Driver) (send : ListBackend State)
  (start : Option StorageKey)

/-- The loop of `list`, with the number of requests that may still be made. -/
def listPages : Nat → Nat → Option (List Char) → List ObjectMeta → State →
    Except StorageError (List ObjectMeta) × State
  | 0, _, _, items, state => (.ok items, state)
  | requests + 1, index, token, items, state =>
      match send (listRequest tools driver start index token) state with
      | (.error error, state) => (.error (.backend ("LIST: " ++ error)), state)
      | (.ok answer, state) =>
          match readAnswer tools answer with
          | .error error => (.error error, state)
          | .ok body =>
              let items := items ++ scrapeContents (tools.clock.read index) body
              match nextToken body token with
              | none => (.ok items, state)
              | some next => listPages requests (index + 1) (some next) items state

def list (state : State) : Except StorageError (Page ObjectMeta) × State :=
  match listPages tools driver send start maxPages 0 none [] state with
  | (.error error, state) => (.error error, state)
  | (.ok items, state) =>
      (.ok (Page.new items none ⟨UInt32.ofNat items.length, none⟩), state)

/-- The server together with a record of the requests it got. -/
def logged : ListBackend (State × List ListRequest) := fun request state =>
  let (answer, next) := send request state.1
  (answer, next, state.2 ++ [request])

section Documents

def Blank (text : List Char) : Prop := ∀ char ∈ text, isWhitespace char = true

/-- The first element of a name holds the value, perhaps between whitespace. -/
def Holds (xml : List Char) (name : String) (value : List Char) : Prop :=
  ∃ front before after rest, Skipped name.toList front ∧ Blank before ∧ Blank after ∧
    xml = front ++ (element name.toList (before ++ (value ++ after)) ++ rest)

/-- The block has the key and the size of an entry. -/
def Describes (block : List Char) (entry : StorageKey × UInt64) : Prop :=
  Holds block "Key" entry.1.text.toList ∧ Holds block "Size" (Nat.toDigits 10 entry.2.toNat)

/-- The document of a page: one `Contents` element for each entry, and `IsTruncated` is true when
there is a next page, whose token is given. -/
structure Renders (body : List Char) (entries : List (StorageKey × UInt64))
    (next : Option (List Char)) : Prop where
  contents : ∃ blocks, Framed body blocks ∧ List.Forall₂ Describes blocks entries
  truncated : ∀ token, next = some token →
    Holds body "IsTruncated" "true".toList ∧ Holds body "NextContinuationToken" token
  last : next = none →
    Holds body "IsTruncated" "false".toList ∨ splitOnce (tag "IsTruncated".toList) body = none

variable {xml body value : List Char} {name : String} {entries : List (StorageKey × UInt64)}
  {next token : Option (List Char)}

theorem plain_of_blank {text : List Char} (blank : Blank text) : '<' ∉ text := by
  intro member
  exact absurd (blank '<' member) (by decide)

theorem xmlValue_holds (proper : '>' ∉ name.toList) (holds : Holds xml name value)
    (plain : '<' ∉ value) (visible : Trimmed value) : xmlValue xml name = some value := by
  obtain ⟨front, before, after, rest, skipped, beforeBlank, afterBlank, rfl⟩ := holds
  have content : '<' ∉ before ++ (value ++ after) := by
    simp only [List.mem_append, not_or]
    exact ⟨plain_of_blank beforeBlank, plain, plain_of_blank afterBlank⟩
  rw [xmlValue_element proper skipped content, trimmed_surrounded beforeBlank afterBlank visible]

theorem plain_key (key : StorageKey) : '<' ∉ key.text.toList := by
  intro member
  have valid := (StorageKey.validate_eq_ok_iff.mp key.valid).2.2.2.2 '<' member
  exact absurd valid (by decide)

theorem readBlock_describes {block : List Char} {entry : StorageKey × UInt64}
    (describes : Describes block entry) (visible : Trimmed entry.1.text.toList) :
    readBlock block = some entry := by
  have key := xmlValue_holds (by decide) describes.1 (plain_key entry.1) visible
  have size := xmlValue_holds (by decide) describes.2 (plain_toDigits _) (visible_toDigits _)
  simp only [readBlock, key, String.ofList_toList, StorageKey.parse_text, size, Option.bind_some,
    parseU64_toDigits, Option.getD_some]

theorem scrapeEntries_renders (renders : Renders body entries next)
    (visible : ∀ entry ∈ entries, Trimmed entry.1.text.toList) :
    scrapeEntries body = entries := by
  obtain ⟨blocks, framed, described⟩ := renders.contents
  rw [scrapeEntries_framed framed]
  clear renders framed
  induction described with
  | nil => rfl
  | @cons block entry blocks entries here later inductionHypothesis =>
      rw [List.filterMap_cons, readBlock_describes here (visible entry List.mem_cons_self)]
      simp only
      rw [inductionHypothesis fun other member => visible other (List.mem_cons_of_mem _ member)]

theorem nextToken_renders (renders : Renders body entries next)
    (proper : ∀ text, next = some text → '<' ∉ text ∧ Trimmed text ∧ some text ≠ token) :
    nextToken body token = next := by
  cases next with
  | none =>
      have flag : xmlFlag body "IsTruncated" = false := by
        rcases renders.last rfl with holds | absent
        · rw [xmlFlag, xmlValue_holds (by decide) holds (by decide) (by decide)]
          decide
        · rw [xmlFlag, xmlValue_absent absent]
          rfl
      simp only [nextToken, flag]
  | some text =>
      obtain ⟨holds, holdsToken⟩ := renders.truncated text rfl
      obtain ⟨plain, visible, advances⟩ := proper text rfl
      have flag : xmlFlag body "IsTruncated" = true := by
        rw [xmlFlag, xmlValue_holds (by decide) holds (by decide) (by decide)]
        decide
      simp only [nextToken, flag, xmlValue_holds (by decide) holdsToken plain visible,
        if_pos advances]

end Documents

section Walk

/-- The server answers the request for a token with a document of the page. -/
def Serves (token : Option (List Char)) (entries : List (StorageKey × UInt64))
    (next : Option (List Char)) : Prop :=
  ∀ request state, request.url = pageUrl driver start token →
    ∃ status body, (send request state).1 = .ok ⟨status, .ok body⟩ ∧
      (200 ≤ status ∧ status < 300) ∧ Renders body entries next

/-- The token that leads to the page of an index. -/
def tokenAt (tokens : List (List Char)) : Nat → Option (List Char)
  | 0 => none
  | index + 1 => tokens[index]?

/-- A sequence of pages, each but the first behind its own token. -/
structure Chain (pages : List (List (StorageKey × UInt64))) (tokens : List (List Char)) : Prop where
  count : pages.length = tokens.length + 1
  distinct : tokens.Nodup
  plain : ∀ token ∈ tokens, ∀ char ∈ token, char ∉ "&<>\"'".toList
  visible : ∀ token ∈ tokens, Trimmed token
  keys : ∀ page ∈ pages, ∀ entry ∈ page, Trimmed entry.1.text.toList

variable {tools driver send start}
variable {pages : List (List (StorageKey × UInt64))} {tokens : List (List Char)}

/-- A token is none of those before it, so it advances. -/
theorem tokenAt_advances (distinct : tokens.Nodup) {index : Nat} {text : List Char}
    (here : tokens[index]? = some text) : some text ≠ tokenAt tokens index := by
  cases index with
  | zero => simp [tokenAt]
  | succ index =>
      intro same
      have bound := (List.getElem?_eq_some_iff.mp here).1
      have twice : tokens[index]? = tokens[index + 1]? := same.symm.trans here.symm
      have equal := (List.getElem?_inj (by omega) distinct).mp twice
      omega

/-- What one request adds, and how the loop goes on. -/
theorem listPages_step (tools : ListTools) (requests index : Nat) {token next : Option (List Char)}
    {entries : List (StorageKey × UInt64)} (serves : Serves driver send start token entries next)
    (visible : ∀ entry ∈ entries, Trimmed entry.1.text.toList)
    (proper : ∀ text, next = some text → '<' ∉ text ∧ Trimmed text ∧ some text ≠ token)
    (items : List ObjectMeta) (state : State) :
    ∃ added later, added.map (fun object => (object.key, object.bytes)) =
        entries.map (fun entry => (entry.1, entry.2.toNat)) ∧
      listPages tools driver send start (requests + 1) index token items state =
        match next with
        | none => (.ok (items ++ added), later)
        | some text =>
            listPages tools driver send start requests (index + 1) (some text) (items ++ added)
              later := by
  obtain ⟨status, body, answered, success, renders⟩ :=
    serves (listRequest tools driver start index token) state rfl
  have read : readAnswer tools ⟨status, .ok body⟩ = .ok body := by
    rw [readAnswer, if_pos success]
  refine ⟨scrapeContents (tools.clock.read index) body,
    (send (listRequest tools driver start index token) state).2, ?_, ?_⟩
  · rw [map_scrapeContents, scrapeEntries_renders renders visible]
  · rw [listPages]
    cases sent : send (listRequest tools driver start index token) state with
    | mk answer later =>
        rw [sent] at answered
        cases answered
        simp only [read, nextToken_renders renders proper]

theorem listPages_complete (tools : ListTools) (chain : Chain pages tokens)
    (serves : ∀ index entries, pages[index]? = some entries →
      Serves driver send start (tokenAt tokens index) entries tokens[index]?)
    (requests : Nat) {index : Nat} (inside : index < pages.length)
    (enough : pages.length ≤ index + requests) (items : List ObjectMeta) (state : State) :
    ∃ found, (listPages tools driver send start requests index (tokenAt tokens index) items
        state).1 = .ok found ∧
      found.map (fun object => (object.key, object.bytes)) =
        items.map (fun object => (object.key, object.bytes)) ++
          (pages.drop index).flatten.map (fun entry => (entry.1, entry.2.toNat)) := by
  induction requests generalizing index items state with
  | zero => omega
  | succ requests inductionHypothesis =>
      have here : pages[index]? = some pages[index] := List.getElem?_eq_getElem inside
      have visible := chain.keys pages[index] (List.getElem_mem inside)
      have proper : ∀ text, tokens[index]? = some text →
          '<' ∉ text ∧ Trimmed text ∧ some text ≠ tokenAt tokens index := by
        intro text isNext
        have member := List.mem_of_getElem? isNext
        refine ⟨fun special => ?_, chain.visible text member,
          tokenAt_advances chain.distinct isNext⟩
        exact chain.plain text member '<' special (by decide)
      obtain ⟨added, later, addedEntries, step⟩ :=
        listPages_step tools requests index (serves index _ here) visible proper items state
      rw [step, List.drop_eq_getElem_cons inside, List.flatten_cons, List.map_append,
        ← addedEntries]
      cases isNext : tokens[index]? with
      | none =>
          have atEnd : pages.drop (index + 1) = [] := by
            rw [List.getElem?_eq_none_iff] at isNext
            apply List.drop_eq_nil_of_le
            have count := chain.count
            omega
          refine ⟨_, rfl, ?_⟩
          rw [atEnd]
          simp
      | some text =>
          have bound := (List.getElem?_eq_some_iff.mp isNext).1
          have count := chain.count
          have further : index + 1 < pages.length := by omega
          obtain ⟨found, ended, foundEntries⟩ := inductionHypothesis further
            (by omega) (items ++ added) later
          rw [tokenAt, isNext] at ended
          refine ⟨found, ended, ?_⟩
          rw [foundEntries, List.map_append, List.append_assoc]

variable (tools driver send start) in
theorem length_log_le (requests index : Nat) (token : Option (List Char))
    (items : List ObjectMeta) (state : State × List ListRequest) :
    (listPages tools driver (logged send) start requests index token items state).2.2.length ≤
      state.2.length + requests := by
  induction requests generalizing index token items state with
  | zero => exact le_rfl
  | succ requests inductionHypothesis =>
      have one : (state.2 ++ [listRequest tools driver start index token]).length + requests =
          state.2.length + (requests + 1) := by
        rw [List.length_append, List.length_singleton]
        omega
      rw [listPages, ← one]
      cases sent : send (listRequest tools driver start index token) state.1 with
      | mk answer later =>
          simp only [logged, sent]
          cases answer with
          | error error => exact Nat.le_add_right _ _
          | ok answer =>
              cases read : readAnswer tools answer with
              | error error =>
                  simp only [read]
                  exact Nat.le_add_right _ _
              | ok body =>
                  cases following : nextToken body token with
                  | none =>
                      simp only [read, following]
                      exact Nat.le_add_right _ _
                  | some next =>
                      simp only [read, following]
                      exact inductionHypothesis _ _ _ _

/-- A chain of at most 10,000 pages is listed completely, in order and each entry once; and no
server gets more than 10,000 requests for one listing. -/
theorem list_complete (tools : ListTools) (driver : S3Driver) (start : Option StorageKey) :
    (∀ (State : Type) (send : ListBackend State) (pages : List (List (StorageKey × UInt64)))
        (tokens : List (List Char)), Chain pages tokens → pages.length ≤ 10000 →
      (∀ index entries, pages[index]? = some entries →
        Serves driver send start (tokenAt tokens index) entries tokens[index]?) →
      ∀ state, ∃ page, (list tools driver send start state).1 = .ok page ∧
        page.items.map (fun object => (object.key, object.bytes)) =
          pages.flatten.map (fun entry => (entry.1, entry.2.toNat))) ∧
    ∀ (State : Type) (send : ListBackend State) (state : State),
      (list tools driver (logged send) start (state, [])).2.2.length ≤ 10000 := by
  constructor
  · intro State send pages tokens chain short serves state
    have nonempty : 0 < pages.length := by
      have count := chain.count
      omega
    have enough : pages.length ≤ 0 + maxPages := by
      rw [maxPages]
      omega
    obtain ⟨found, ended, entries⟩ :=
      listPages_complete tools chain serves maxPages nonempty enough [] state
    have result : (list tools driver send start state).1 =
        .ok (Page.new found none ⟨UInt32.ofNat found.length, none⟩) := by
      rw [list]
      cases walked : listPages tools driver send start maxPages 0 none [] state with
      | mk answer later =>
          rw [tokenAt, walked] at ended
          cases ended
          rfl
    exact ⟨_, result, entries⟩
  · intro State send state
    have bound := length_log_le tools driver send start maxPages 0 none [] (state, [])
    rw [List.length_nil, Nat.zero_add] at bound
    rw [list]
    cases walked : listPages tools driver (logged send) start maxPages 0 none [] (state, []) with
    | mk answer later =>
        rw [walked] at bound
        cases answer <;> exact bound

end Walk

section Pages

theorem pagedHost_plain : ∀ char ∈ "h".toList,
    printable char = true ∧ isSlash char = false ∧ endsPath char = false :=
  Text.forall_mem_of_all (by decide)

theorem pagedScheme_special : isSpecial "https".toList = true := by decide

theorem pagedHost_nonempty : "h".toList ≠ [] := by decide

def pagedDriver : S3Driver where
  config := ⟨"b".toList, "r".toList, some "https://h".toList, [], [], true⟩
  baseUrl := parseRest "https".toList pagedScheme_special
    ⟨"h".toList, "h".toList, none, pagedHost_nonempty, pagedHost_plain, pagedHost_plain⟩ []

theorem pagedDate_valid : validDateTime 2026 1 1 0 0 0 = true := by decide

theorem pagedYear_le : 2026 ≤ 9999 := by decide

theorem pagedFraction_lt : 0 < 1000000000 := by decide

def pagedTools : ListTools where
  digests := tabulated [] []
  clock := ⟨fun _ => ⟨2026, 1, 1, 0, 0, 0, 0, pagedYear_le, pagedDate_valid, pagedFraction_lt⟩,
    fun _ _ => 0⟩
  statusText := fun _ => ""

/-- A document with one entry. -/
def pagedBody (flag token key size : List Char) : List Char :=
  "<ListBucketResult>".toList ++ (element "IsTruncated".toList flag ++ (token ++
    (element "Contents".toList (element "Key".toList key ++ element "Size".toList size) ++
      "</ListBucketResult>".toList)))

def pagedToken : List Char := "tok-1".toList

/-- Two pages: the second is behind the token. -/
def twoPages : ListBackend Unit := fun request _ =>
  (.ok ⟨200, .ok (if request.url.query = (pageUrl pagedDriver none none).query then
    pagedBody "true".toList (element "NextContinuationToken".toList pagedToken)
      (originalKey ⟨0⟩).text.toList "10".toList
  else pagedBody "false".toList [] (originalKey ⟨1⟩).text.toList "20".toList)⟩, ())

theorem holds_element {front : List Char} {name : String} (before : Skipped name.toList front)
    (value rest : List Char) : Holds (front ++ (element name.toList value ++ rest)) name value := by
  refine ⟨front, [], [], rest, before, by simp [Blank], by simp [Blank], ?_⟩
  rw [List.nil_append, List.append_nil]

theorem describes_elements (entry : StorageKey × UInt64) :
    Describes (element "Key".toList entry.1.text.toList ++
      element "Size".toList (Nat.toDigits 10 entry.2.toNat)) entry := by
  constructor
  · have before : Skipped "Key".toList [] := skipped_of_plain List.not_mem_nil
    have holds := holds_element before entry.1.text.toList
      (element "Size".toList (Nat.toDigits 10 entry.2.toNat))
    rwa [List.nil_append] at holds
  · have before : Skipped "Size".toList (element "Key".toList entry.1.text.toList) :=
      (skipped_of_plain (plain_key entry.1)).element (by decide) (by decide) (by decide)
    have holds := holds_element before (Nat.toDigits 10 entry.2.toNat) []
    rwa [List.append_nil] at holds

theorem framed_pagedBody {flag token : List Char} (entry : StorageKey × UInt64)
    (plain : '<' ∉ flag) (skipped : Skipped "Contents".toList token) :
    Framed (pagedBody flag token entry.1.text.toList (Nat.toDigits 10 entry.2.toNat))
      [element "Key".toList entry.1.text.toList ++
        element "Size".toList (Nat.toDigits 10 entry.2.toNat)] := by
  have front : Skipped "Contents".toList ("<ListBucketResult>".toList ++
      (element "IsTruncated".toList flag ++ token)) := by
    apply Skipped.append (by decide) (by decide)
    exact ((skipped_of_plain plain).element (by decide) (by decide) (by decide)).append (by decide)
      skipped
  have inside : Skipped "/Contents".toList (element "Key".toList entry.1.text.toList ++
      element "Size".toList (Nat.toDigits 10 entry.2.toNat)) := by
    apply Skipped.append (by decide)
    · exact (skipped_of_plain (plain_key _)).element (by decide) (by decide) (by decide)
    · exact (skipped_of_plain (plain_toDigits _)).element (by decide) (by decide) (by decide)
  have ending : Framed "</ListBucketResult>".toList [] := .done (by decide)
  have framed := Framed.block front inside ending
  rw [List.append_assoc, List.append_assoc] at framed
  exact framed

theorem holds_flag {flag token key size : List Char} :
    Holds (pagedBody flag token key size) "IsTruncated" flag :=
  holds_element (by decide) _ _

theorem renders_first (entry : StorageKey × UInt64) :
    Renders (pagedBody "true".toList (element "NextContinuationToken".toList pagedToken)
      entry.1.text.toList (Nat.toDigits 10 entry.2.toNat)) [entry] (some pagedToken) := by
  refine ⟨⟨_, framed_pagedBody entry (by decide) (by decide),
    .cons (describes_elements entry) .nil⟩, ?_, by simp⟩
  rintro _ ⟨⟩
  have before : Skipped "NextContinuationToken".toList ("<ListBucketResult>".toList ++
      element "IsTruncated".toList "true".toList) := by decide
  refine ⟨holds_flag, ?_⟩
  have holds := holds_element before pagedToken (element "Contents".toList
    (element "Key".toList entry.1.text.toList ++
      element "Size".toList (Nat.toDigits 10 entry.2.toNat)) ++ "</ListBucketResult>".toList)
  rwa [List.append_assoc] at holds

theorem renders_second (entry : StorageKey × UInt64) :
    Renders (pagedBody "false".toList [] entry.1.text.toList (Nat.toDigits 10 entry.2.toNat))
      [entry] none :=
  ⟨⟨_, framed_pagedBody entry (by decide) (by decide),
    .cons (describes_elements entry) .nil⟩, by simp, fun _ => Or.inl holds_flag⟩

theorem two_pages_listed :
    Chain [[(originalKey ⟨0⟩, 10)], [(originalKey ⟨1⟩, 20)]] [pagedToken] ∧
      (∃ page, (list pagedTools pagedDriver twoPages none ()).1 = .ok page ∧
        page.items.map (fun object => (object.key, object.bytes)) =
          [(originalKey ⟨0⟩, 10), (originalKey ⟨1⟩, 20)]) ∧
      (list pagedTools pagedDriver (logged twoPages) none ((), [])).2.2.length ≤ 10000 := by
  have chain : Chain [[(originalKey ⟨0⟩, 10)], [(originalKey ⟨1⟩, 20)]] [pagedToken] := by
    refine ⟨rfl, List.nodup_singleton _, ?_, by decide, by decide⟩
    intro token member
    rw [List.mem_singleton.mp member]
    exact Text.forall_mem_of_all (by decide)
  obtain ⟨complete, bounded⟩ := list_complete pagedTools pagedDriver none
  refine ⟨chain, ?_, bounded Unit twoPages ()⟩
  apply complete Unit twoPages _ _ chain (by decide)
  intro index entries here request state asked
  match index with
  | 0 =>
      cases here
      refine ⟨200, _, rfl, by decide, ?_⟩
      have query : request.url.query = (pageUrl pagedDriver none none).query :=
        congrArg Url.query asked
      rw [if_pos query]
      exact renders_first (originalKey ⟨0⟩, 10)
  | 1 =>
      cases here
      have other : (pageUrl pagedDriver none (some pagedToken)).query ≠
          (pageUrl pagedDriver none none).query := by decide
      refine ⟨200, _, rfl, by decide, ?_⟩
      rw [if_neg fun same => other ((congrArg Url.query asked).symm.trans same)]
      exact renders_second (originalKey ⟨1⟩, 20)
  | index + 2 => cases here

end Pages

end S3Driver

end Picroom
