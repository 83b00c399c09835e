import Picroom.S3.ListCodec
import Picroom.S3.Objects
import Picroom.Storage.Refinement

/-!
# The gateway over a directory

Any sequence of object requests is answered over the local driver as it is over a list of objects
in memory, byte for byte, as long as the keys in use can be kept side by side.
-/

namespace Picroom

open Files LocalDriver SigV4

/-- All that the object requests ask of a storage. -/
structure GatewayStorage (State : Type) extends ObjectStorage State where
  exists? : StorageKey → State → Except StorageError Bool × State
  list : State → Except StorageError (List ObjectMeta) × State

namespace Gateway

open Objects ListObjects

inductive ObjectRequest where
  | get (bucket key : String) (query : Option (List Char))
  | put (bucket key : String) (query : Option (List Char)) (body : List UInt8)
  | head (bucket key : String)
  | delete (bucket key : String) (query : Option (List Char))
  | list (bucket : String) (params : ListObjects.ListParams)

section Handlers

variable {State : Type} (digests : Digests) (printable : Char → Bool)
  (storage : GatewayStorage State) (expectedBucket : Option String)

def headObject (bucket key : String) (state : State) : ObjectResponse × State :=
  match bucketGuard expectedBucket bucket with
  | some failure => (failure, state)
  | none =>
      match StorageKey.parse key with
      | .error error => (invalidKey printable error, state)
      | .ok storageKey =>
          match storage.exists? storageKey state with
          | (.ok true, after) => (⟨200, [], []⟩, after)
          | (.ok false, after) => ((xmlError 404 "NoSuchKey" key).toObject, after)
          | (.error _, after) => (internalError, after)

/-- A bucket that is refused is answered before the storage is read. -/
def listBucket (bucket : String) (params : ListObjects.ListParams) (state : State) :
    ObjectResponse × State :=
  match bucketGuard expectedBucket bucket with
  | some _ => ((respond (listObjectsV2 expectedBucket bucket params (.ok []))).toObject, state)
  | none =>
      let (listed, after) := storage.list state
      ((respond (listObjectsV2 expectedBucket bucket params listed)).toObject, after)

def answer (state : State) : ObjectRequest → ObjectResponse × State
  | .get bucket key query =>
      getObject digests printable storage.toObjectStorage expectedBucket bucket key query state
  | .put bucket key query body =>
      putObject digests printable storage.toObjectStorage expectedBucket bucket key query body state
  | .head bucket key => headObject printable storage expectedBucket bucket key state
  | .delete bucket key query =>
      deleteObject printable storage.toObjectStorage expectedBucket bucket key query state
  | .list bucket params => listBucket storage expectedBucket bucket params state

end Handlers

/-- When a request is carried out, and the name it draws for a temporary file. -/
structure Stamp where
  now : Nat
  suffix : Uuid

/-- What a client is answered, request by request. -/
def answers {State : Type} (digests : Digests) (printable : Char → Bool)
    (storage : Stamp → GatewayStorage State) (expectedBucket : Option String) :
    State → List (ObjectRequest × Stamp) → List ObjectResponse
  | _, [] => []
  | state, (request, stamp) :: rest =>
      let (response, after) := answer digests printable (storage stamp) expectedBucket state request
      response :: answers digests printable storage expectedBucket after rest

/-- The objects in memory, with what listing tells about each. -/
def memoryStore : GatewayStorage (List (StorageKey × List UInt8)) where
  toObjectStorage := memory
  exists? key held := (.ok (held.find? (·.1 == key)).isSome, held)
  list held := (.ok (held.map fun entry => ⟨entry.1, entry.2.length, 0, none⟩), held)

/-- The local driver; `list` reads as many directories as there are nodes. -/
def directory (driver : LocalDriver) (machine : Machine) (order : Tree.Order FileName)
    (stamp : Stamp) : GatewayStorage LocalDriver.Store where
  get key := driver.get (driver.storage machine order stamp.now) machine.describe key
  put key bytes :=
    driver.put (driver.storage machine order stamp.now) machine.describe key bytes stamp.suffix
  delete key := driver.delete (driver.storage machine order stamp.now) machine.describe key
  exists? key tree :=
    let (present, after) := driver.exists? (driver.storage machine order stamp.now) key tree
    (.ok present, after)
  list tree :=
    let (page, after) := driver.list (driver.storage machine order stamp.now) none
      tree.nodes.keys.length tree
    (.ok page.items, after)

section Simulation

variable {First Second : Type}

/-- Two storages that answer alike on the keys in use, and go on answering alike. -/
structure Alike (written read : StorageKey → Prop) (related : First → Second → Prop)
    (first : GatewayStorage First) (second : GatewayStorage Second) : Prop where
  get : ∀ key left right, read key → related left right →
    (first.get key left).1 = (second.get key right).1 ∧
      related (first.get key left).2 (second.get key right).2
  put : ∀ key bytes left right, written key → related left right →
    (first.put key bytes left).1 = (second.put key bytes right).1 ∧
      related (first.put key bytes left).2 (second.put key bytes right).2
  delete : ∀ key left right, written key → related left right →
    (first.delete key left).1 = (second.delete key right).1 ∧
      related (first.delete key left).2 (second.delete key right).2
  exist : ∀ key left right, read key → related left right →
    (first.exists? key left).1 = (second.exists? key right).1 ∧
      related (first.exists? key left).2 (second.exists? key right).2
  list : ∀ left right, related left right →
    (∃ items others, (first.list left).1 = .ok items ∧ (second.list right).1 = .ok others ∧
      ∀ keyPrefix token, keyed keyPrefix token items = keyed keyPrefix token others) ∧
      related (first.list left).2 (second.list right).2

/-- The keys a request reads or writes. -/
def ObjectRequest.Uses (written read : StorageKey → Prop) : ObjectRequest → Prop
  | .get _ key _ | .head _ key =>
      ∀ storageKey, StorageKey.parse key = .ok storageKey → read storageKey
  | .put _ key _ _ | .delete _ key _ =>
      ∀ storageKey, StorageKey.parse key = .ok storageKey → written storageKey
  | .list _ _ => True

variable {written read : StorageKey → Prop} {related : First → Second → Prop}
  {first : GatewayStorage First} {second : GatewayStorage Second} {left : First} {right : Second}

theorem listObjectsV2_congr {items others : List ObjectMeta}
    (same : ∀ keyPrefix token, keyed keyPrefix token items = keyed keyPrefix token others)
    (expectedBucket : Option String) (bucket : String) (params : ListObjects.ListParams) :
    listObjectsV2 expectedBucket bucket params (.ok items) =
      listObjectsV2 expectedBucket bucket params (.ok others) := by
  unfold listObjectsV2 page
  simp only [same]

theorem of_alike {Value : Type} {one : Value × First} {two : Value × Second}
    (step : one.1 = two.1 ∧ related one.2 two.2) :
    ∃ value after other, one = (value, after) ∧ two = (value, other) ∧ related after other :=
  ⟨one.1, one.2, two.2, rfl, Prod.ext step.1.symm rfl, step.2⟩

/-- One request is answered alike. -/
theorem answer_alike (alike : Alike written read related first second) (digests : Digests)
    (printable : Char → Bool)
    (expectedBucket : Option String) {request : ObjectRequest} (uses : request.Uses written read)
    (start : related left right) :
    (answer digests printable first expectedBucket left request).1 =
        (answer digests printable second expectedBucket right request).1 ∧
      related (answer digests printable first expectedBucket left request).2
        (answer digests printable second expectedBucket right request).2 := by
  cases request with
  | get bucket key query =>
      simp only [answer, getObject]
      cases bucketGuard expectedBucket bucket with
      | some failure => exact ⟨rfl, start⟩
      | none =>
          cases multipartRejection query with
          | some rejection => exact ⟨rfl, start⟩
          | none =>
              cases parsed : StorageKey.parse key with
              | error error => exact ⟨rfl, start⟩
              | ok storageKey =>
                  obtain ⟨result, after, other, ran, ranToo, stays⟩ :=
                    of_alike (alike.get storageKey left right (uses _ parsed) start)
                  simp only [ran, ranToo]
                  cases result with
                  | ok bytes => exact ⟨rfl, stays⟩
                  | error error => cases error <;> exact ⟨rfl, stays⟩
  | put bucket key query body =>
      simp only [answer, putObject]
      cases multipartRejection query with
      | some rejection => exact ⟨rfl, start⟩
      | none =>
          cases bucketGuard expectedBucket bucket with
          | some failure => exact ⟨rfl, start⟩
          | none =>
              cases parsed : StorageKey.parse key with
              | error error => exact ⟨rfl, start⟩
              | ok storageKey =>
                  obtain ⟨result, after, other, ran, ranToo, stays⟩ :=
                    of_alike (alike.put storageKey body left right (uses _ parsed) start)
                  simp only [ran, ranToo]
                  cases result <;> exact ⟨rfl, stays⟩
  | head bucket key =>
      simp only [answer, headObject]
      cases bucketGuard expectedBucket bucket with
      | some failure => exact ⟨rfl, start⟩
      | none =>
          cases parsed : StorageKey.parse key with
          | error error => exact ⟨rfl, start⟩
          | ok storageKey =>
              obtain ⟨result, after, other, ran, ranToo, stays⟩ :=
                of_alike (alike.exist storageKey left right (uses _ parsed) start)
              simp only [ran, ranToo]
              cases result with
              | ok present => cases present <;> exact ⟨rfl, stays⟩
              | error error => exact ⟨rfl, stays⟩
  | delete bucket key query =>
      simp only [answer, deleteObject]
      cases multipartRejection query with
      | some rejection => exact ⟨rfl, start⟩
      | none =>
          cases bucketGuard expectedBucket bucket with
          | some failure => exact ⟨rfl, start⟩
          | none =>
              cases parsed : StorageKey.parse key with
              | error error => exact ⟨rfl, start⟩
              | ok storageKey =>
                  obtain ⟨result, after, other, ran, ranToo, stays⟩ :=
                    of_alike (alike.delete storageKey left right (uses _ parsed) start)
                  simp only [ran, ranToo]
                  cases result with
                  | ok done => exact ⟨rfl, stays⟩
                  | error error => cases error <;> exact ⟨rfl, stays⟩
  | list bucket params =>
      simp only [answer, listBucket]
      cases bucketGuard expectedBucket bucket with
      | some failure => exact ⟨rfl, start⟩
      | none =>
          obtain ⟨⟨items, others, found, found', same⟩, stays⟩ := alike.list left right start
          refine ⟨?_, stays⟩
          dsimp only
          rw [found, found', listObjectsV2_congr same]

/-- And so is every sequence of requests. -/
theorem answers_alike {first : Stamp → GatewayStorage First}
    {second : Stamp → GatewayStorage Second}
    (alike : ∀ stamp, Alike written read related (first stamp) (second stamp)) (digests : Digests)
    (printable : Char → Bool)
    (expectedBucket : Option String) {requests : List (ObjectRequest × Stamp)}
    (uses : ∀ request ∈ requests, request.1.Uses written read) (start : related left right) :
    answers digests printable first expectedBucket left requests =
      answers digests printable second expectedBucket right requests := by
  induction requests generalizing left right with
  | nil => rfl
  | cons request rest inductionHypothesis =>
      obtain ⟨same, stays⟩ := answer_alike (alike request.2) digests printable expectedBucket
        (uses request List.mem_cons_self) start
      have later := inductionHypothesis
        (fun request member => uses request (List.mem_cons_of_mem _ member)) stays
      simp only [answers]
      rw [same, later]

end Simulation

section Memory

variable {held : List (StorageKey × List UInt8)}

/-- What is held under a key. -/
def object (held : List (StorageKey × List UInt8)) : Contents := fun key =>
  (held.find? (·.1 == key)).map Prod.snd

theorem object_cons (key : StorageKey) (bytes : List UInt8) :
    object ((key, bytes) :: held) = Function.update (object held) key (some bytes) := by
  funext other
  unfold object
  by_cases same : other = key
  · subst same
    rw [Function.update_self, List.find?_cons_of_pos (by simp)]
    rfl
  · rw [Function.update_of_ne same, List.find?_cons_of_neg (by simpa using Ne.symm same)]

theorem object_filter (key : StorageKey) :
    object (held.filter (·.1 != key)) = Function.update (object held) key none := by
  induction held with
  | nil =>
      funext other
      by_cases same : other = key
      · subst same
        rw [Function.update_self]
        rfl
      · rw [Function.update_of_ne same]
        rfl
  | cons entry rest inductionHypothesis =>
      obtain ⟨name, bytes⟩ := entry
      by_cases same : name = key
      · subst same
        rw [List.filter_cons_of_neg (by simp), inductionHypothesis, object_cons,
          Function.update_idem]
      · rw [List.filter_cons_of_pos (by simpa using same), object_cons, object_cons,
          inductionHypothesis, Function.update_comm same]

theorem mem_of_object {key : StorageKey} {bytes : List UInt8}
    (present : object held key = some bytes) : (key, bytes) ∈ held := by
  obtain ⟨⟨name, found⟩, isFound, rfl⟩ := Option.map_eq_some_iff.mp present
  have same : name = key := by simpa using List.find?_some isFound
  subst same
  exact List.mem_of_find?_eq_some isFound

theorem memoryStore_get (key : StorageKey) :
    memoryStore.get key held =
      ((object held key).elim (.error (.notFound key.text)) .ok, held) := by
  change memory.get key held = _
  unfold memory object
  dsimp only
  cases held.find? (·.1 == key) <;> rfl

/-- No key is held twice. -/
def Once (held : List (StorageKey × List UInt8)) : Prop := (held.map Prod.fst).Nodup

theorem object_of_mem (once : Once held) {key : StorageKey} {bytes : List UInt8}
    (member : (key, bytes) ∈ held) : object held key = some bytes := by
  induction held with
  | nil => cases member
  | cons entry rest inductionHypothesis =>
      obtain ⟨name, first⟩ := entry
      obtain ⟨absent, later⟩ := List.nodup_cons.mp once
      rw [object_cons]
      rcases List.mem_cons.mp member with same | inRest
      · cases same
        exact Function.update_self ..
      · have different : key ≠ name := by
          rintro rfl
          exact absent (List.mem_map.mpr ⟨_, inRest, rfl⟩)
        rw [Function.update_of_ne different]
        exact inductionHypothesis later inRest

theorem once_filter (once : Once held) (key : StorageKey) :
    Once (held.filter (·.1 != key)) := once.sublist (List.filter_sublist.map Prod.fst)

theorem once_put (once : Once held) (key : StorageKey) (bytes : List UInt8) :
    Once ((key, bytes) :: held.filter (·.1 != key)) := by
  refine List.nodup_cons.mpr ⟨?_, once_filter once key⟩
  intro member
  obtain ⟨entry, inRest, same⟩ := List.mem_map.mp member
  simp [same] at inRest

theorem lists_memory (once : Once held) :
    ListsExactly (object held) (fun _ => True)
      (held.map fun entry => (⟨entry.1, entry.2.length, 0, none⟩ : ObjectMeta)) where
  once := by
    rw [List.map_map]
    exact once
  lengths key size := by
    constructor
    · rintro ⟨_, member, rfl, rfl⟩
      obtain ⟨⟨name, bytes⟩, isHeld, rfl⟩ := List.mem_map.mp member
      exact ⟨bytes, object_of_mem once isHeld, rfl, trivial⟩
    · rintro ⟨bytes, present, rfl, -⟩
      exact ⟨_, List.mem_map_of_mem (mem_of_object present), rfl, rfl⟩

theorem perm_of_lists {objects : Contents} {items others : List ObjectMeta}
    (first : ListsExactly objects (fun _ => True) items)
    (second : ListsExactly objects (fun _ => True) others) :
    List.Perm (items.map fun item => (item.key, UInt64.ofNat item.bytes))
      (others.map fun item => (item.key, UInt64.ofNat item.bytes)) := by
  have nodup : ∀ found : List ObjectMeta, (found.map (·.key)).Nodup →
      (found.map fun item => (item.key, UInt64.ofNat item.bytes)).Nodup := by
    intro found once
    rw [List.Nodup, List.pairwise_map] at once ⊢
    exact once.imp fun different same => different (congrArg Prod.fst same)
  rw [List.perm_ext_iff_of_nodup (nodup _ first.once) (nodup _ second.once)]
  rintro ⟨key, size⟩
  constructor
  · intro member
    obtain ⟨item, isItem, same⟩ := List.mem_map.mp member
    obtain ⟨other, isOther, sameKey, sameSize⟩ :=
      (second.lengths _ _).mpr ((first.lengths _ _).mp ⟨item, isItem, rfl, rfl⟩)
    exact List.mem_map.mpr ⟨other, isOther, by rw [sameKey, sameSize, same]⟩
  · intro member
    obtain ⟨item, isItem, same⟩ := List.mem_map.mp member
    obtain ⟨other, isOther, sameKey, sameSize⟩ :=
      (first.lengths _ _).mpr ((second.lengths _ _).mp ⟨item, isItem, rfl, rfl⟩)
    exact List.mem_map.mpr ⟨other, isOther, by rw [sameKey, sameSize, same]⟩

theorem size_of_keyed {objects : Contents} {items : List ObjectMeta} {keyPrefix token : String}
    {entry : StorageKey × UInt64} (listed : ListsExactly objects (fun _ => True) items)
    (member : entry ∈ keyed keyPrefix token items) :
    ∃ data, objects entry.1 = some data ∧ entry.2 = UInt64.ofNat data.length := by
  rw [keyed, List.mem_mergeSort] at member
  obtain ⟨item, isItem, rfl⟩ :=
    List.mem_map.mp (List.mem_of_mem_filter (List.mem_of_mem_filter member))
  obtain ⟨data, present, size, -⟩ := (listed.lengths _ _).mp ⟨item, isItem, rfl, rfl⟩
  exact ⟨data, present, by rw [size]⟩

/-- A listing is determined by the objects. -/
theorem keyed_of_lists {objects : Contents} {items others : List ObjectMeta}
    (first : ListsExactly objects (fun _ => True) items)
    (second : ListsExactly objects (fun _ => True) others) (keyPrefix token : String) :
    keyed keyPrefix token items = keyed keyPrefix token others := by
  have kept := ((perm_of_lists first second).filter fun entry =>
    keyPrefix.toList.isPrefixOf entry.1.text.toList).filter fun entry =>
      token.toList.isEmpty || decide (byteRank token < byteRank entry.1.text)
  have sorted : ∀ found : List (StorageKey × UInt64), (found.mergeSort fun first second =>
      decide (byteRank first.1.text ≤ byteRank second.1.text)).Pairwise fun first second =>
        decide (byteRank first.1.text ≤ byteRank second.1.text) = true := by
    intro found
    apply List.pairwise_mergeSort
    · intro first second third firstSecond secondThird
      rw [decide_eq_true_eq] at firstSecond secondThird ⊢
      exact firstSecond.trans secondThird
    · intro first second
      simpa using le_total (byteRank first.1.text) (byteRank second.1.text)
  have permuted : List.Perm (keyed keyPrefix token items) (keyed keyPrefix token others) :=
    ((List.mergeSort_perm _ _).trans kept).trans (List.mergeSort_perm _ _).symm
  apply permuted.eq_of_pairwise _ (sorted _) (sorted _)
  rintro ⟨key, size⟩ ⟨other, otherSize⟩ inItems inOthers below above
  have same : key = other := StorageKey.ext (byteRank_injective
    (le_antisymm (of_decide_eq_true below) (of_decide_eq_true above)))
  subst same
  obtain ⟨data, present, isSize⟩ := size_of_keyed first inItems
  obtain ⟨_, presentToo, isOther⟩ := size_of_keyed second inOthers
  rw [present] at presentToo
  cases presentToo
  exact Prod.ext rfl (isSize.trans isOther.symm)

end Memory

section Frame

variable {State : Type} {system : System State (List UInt8)}
  (metadata : ∀ path state, (system.metadata path state).2 = state)
  (readDir : ∀ path state, (system.readDir path state).2 = state)

include metadata

theorem readEntries_state (root : Path) (keyPrefix : List Char) (directory : Path)
    (found : List FileName) (state : State) :
    (readEntries system root keyPrefix directory found state).2 = state := by
  induction found generalizing state with
  | nil => rfl
  | cons name rest inductionHypothesis =>
      have here := metadata (directory.push name) state
      unfold readEntries
      dsimp only
      split
      next error after isError =>
        rw [isError] at here
        exact (inductionHypothesis after).trans here
      next present after isPresent =>
        rw [isPresent] at here
        split
        · exact (inductionHypothesis after).trans here
        · exact (inductionHypothesis after).trans here

include readDir

theorem collectRecursive_state (root : Path) (keyPrefix : List Char) (fuel : Nat)
    (stack : List Path) (state : State) :
    (collectRecursive system root keyPrefix fuel stack state).2 = state := by
  induction fuel generalizing stack state with
  | zero => rfl
  | succ fuel inductionHypothesis =>
      cases stack with
      | nil => rfl
      | cons directory stack =>
          have here := readDir directory state
          unfold collectRecursive
          split
          next error after isError =>
            rw [isError] at here
            exact (inductionHypothesis stack after).trans here
          next found after isFound =>
            rw [isFound] at here
            dsimp only
            rw [inductionHypothesis, readEntries_state metadata]
            exact here

/-- Listing leaves everything as it is. -/
theorem list_state (driver : LocalDriver) (keyPrefix : Option StorageKey) (fuel : Nat)
    (state : State) : (driver.list system keyPrefix fuel state).2 = state := by
  have here : (system.exists? (driver.base keyPrefix) state).2 = state := by
    have same := metadata (driver.base keyPrefix) state
    unfold System.exists?
    dsimp only
    split
    · exact same
    · exact same
  unfold list
  split
  next after missing =>
    rw [missing] at here
    exact here
  next after present =>
    rw [present] at here
    exact (collectRecursive_state metadata readDir _ _ _ _ _).trans here

end Frame

section Disk

variable {driver : LocalDriver} {machine : Machine} {order : Tree.Order FileName}
  {used : StorageKey → Prop} {objects : Contents} {tree : LocalDriver.Store} {key : StorageKey}

/-- Keys side by side with no name of a temporary file on the way to any of them. -/
structure Kept (used : StorageKey → Prop) : Prop extends Tidy used where
  noTemp : ∀ key, used key → ∀ name ∈ names key, isTemp name = false

theorem clear_of_used (tidy : Tidy used) (inUse : used key) : Clear used key where
  named := names_ne_nil_of_plain (tidy.plain key inUse)
  above other otherUsed isFront := (tidy.apart key other inUse otherUsed isFront).symm
  below other otherUsed isFront := tidy.apart other key otherUsed inUse isFront

theorem isDir_free (tidy : Tidy used) (inUse : used key)
    (represents : Represents used objects tree) : tree.isDir (names key) = false := by
  by_contra isDir
  rw [Bool.not_eq_false] at isDir
  rcases represents.dirs _ isDir with top | ⟨other, otherUsed, isFront, strict⟩
  · exact names_ne_nil_of_plain (tidy.plain key inUse) top
  · exact strict (congrArg names (tidy.apart key other inUse otherUsed isFront))

theorem isFile_free (tidy : Tidy used) (inUse : used key)
    (represents : Represents used objects tree)
    {above : List FileName} (isFront : above <+: names key) (strict : above ≠ names key) :
    tree.isFile above = false := by
  by_contra isFile
  rw [Bool.not_eq_false] at isFile
  obtain ⟨data, modified, found⟩ := Tree.isFile_iff.mp isFile
  obtain ⟨other, otherUsed, -, rfl⟩ := represents.files above data modified found
  exact strict (congrArg names (tidy.apart other key otherUsed inUse isFront))

theorem isDir_tmp (kept : Kept used) (represents : Represents used objects tree)
    {dir : List FileName} {path : Path} {suffix : Uuid} :
    tree.isDir (dir ++ [tmpName path suffix]) = false := by
  by_contra isDir
  rw [Bool.not_eq_false] at isDir
  rcases represents.dirs _ isDir with top | ⟨other, otherUsed, isFront, -⟩
  · simp at top
  · have member : tmpName path suffix ∈ names other :=
      isFront.subset (List.mem_append_right _ List.mem_cons_self)
    have notTemp := kept.noTemp other otherUsed _ member
    rw [isTemp_tmpName] at notTemp
    cases notTemp

theorem eq_of_isOk {State : Type} {result : Except StorageError Unit × State} {next : State}
    (done : (result.1.isOk, result.2) = (true, next)) : result = (.ok (), next) := by
  obtain ⟨outcome, after⟩ := result
  obtain ⟨succeeded, rfl⟩ := Prod.mk.inj done
  cases outcome with
  | ok value => rfl
  | error error => cases succeeded

/-- A `put` of a key in use goes through. -/
theorem putAt_ok (kept : Kept used) (inUse : used key) (represents : Represents used objects tree)
    {front : List FileName} {last : FileName} (split : names key = front ++ [last]) (path : Path)
    (suffix : Uuid) (bytes : List UInt8) (now : Nat) :
    ∃ next, putAt tree front (tmpName path suffix) (some last) bytes now = (true, next) := by
  have different : last ≠ tmpName path suffix := by
    rintro rfl
    have notTemp := kept.notTemp key inUse _ (by rw [split, List.getLast?_concat])
    rw [isTemp_tmpName] at notTemp
    cases notTemp
  obtain ⟨made, mkdirs⟩ := Tree.makeDirs_ok now front (Tree.isDir_nil tree) (by
    intro above isFront
    rw [List.nil_append] at isFront
    refine isFile_free kept.toTidy inUse represents
      (split ▸ isFront.trans (List.prefix_append _ _)) ?_
    rintro rfl
    have lengths := isFront.length_le
    rw [split, List.length_append, List.length_singleton] at lengths
    omega)
  obtain ⟨inside, changes⟩ := Tree.of_makeDirs mkdirs
  rw [List.nil_append] at inside
  have leaf : ∀ name, made.isDir (front ++ [name]) = tree.isDir (front ++ [name]) := by
    intro name
    rw [Tree.isDir, Tree.isDir, changes.same _ _ not_false]
    rintro ⟨-, isFront⟩
    have lengths := isFront.length_le
    rw [List.nil_append, List.length_append, List.length_singleton] at lengths
    omega
  obtain ⟨written, wrote⟩ := @Tree.write_ok _ _ _ made front (tmpName path suffix) bytes now
    (inside (Tree.isDir_nil tree)) ((leaf _).trans (isDir_tmp kept represents))
  obtain ⟨edited, -, present⟩ := Tree.of_write wrote
  have free : written.isDir (front ++ [last]) = false := by
    rw [Tree.isDir, edited.same _ (Tree.ne_append_singleton front last).symm]
    · exact (leaf last).trans (split ▸ isDir_free kept.toTidy inUse represents)
    · rintro name rfl same
      exact different (List.singleton_inj.mp (List.append_cancel_left same))
  obtain ⟨moved, renamed⟩ := Tree.rename_ok now present free
  refine ⟨moved, ?_⟩
  rw [putAt, mkdirs]
  dsimp only
  rw [wrote]
  dsimp only
  rw [renamed]

theorem deleteAt_ok (tidy : Tidy used) (inUse : used key)
    (represents : Represents used objects tree) (now : Nat) :
    ∃ next, deleteAt tree key now = (true, next) := by
  have looked := lookAt_of_represents tidy represents (clear_of_used tidy inUse)
  obtain ⟨front, last, split⟩ := (List.eq_nil_or_concat (names key)).resolve_left
    (names_ne_nil_of_plain (tidy.plain key inUse))
  rw [List.concat_eq_append] at split
  cases present : objects key with
  | none =>
      rw [present] at looked
      exact ⟨tree, by rw [deleteAt, looked]⟩
  | some data =>
      rw [present] at looked
      obtain ⟨modified, found⟩ := looked
      obtain ⟨isFile, -⟩ := lookup_of_lookAt key tree found
      rw [split] at isFile
      obtain ⟨next, removed⟩ := Tree.unlink_ok now isFile
      refine ⟨next, ?_⟩
      rw [deleteAt, found, split, List.getLast?_concat]
      dsimp only
      rw [List.dropLast_concat, removed]

variable (driver machine order) in
theorem put_of_kept (kept : Kept used) (inUse : used key)
    (represents : Represents used objects tree) (bytes : List UInt8) (suffix : Uuid) (now : Nat) :
    ∃ next, driver.put (driver.storage machine order now) machine.describe key bytes suffix tree =
        (.ok (), next) ∧
      Represents used (Function.update objects key (some bytes)) next := by
  obtain ⟨front, last, split, works, isTarget⟩ := place_of_plain driver (kept.plain key inUse)
  obtain ⟨next, stored⟩ := putAt_ok kept inUse represents split (driver.resolveUnchecked key)
    suffix bytes now
  have result := driver.put_storage machine order now key tree bytes suffix
  rw [works, isTarget] at result
  have done := eq_of_isOk (result.trans stored)
  have edited : edit driver machine order tree (.put key bytes suffix now) = some next := by
    rw [edit, done]
  exact ⟨next, done, represents_put kept.toTidy inUse represents edited⟩

variable (driver machine order) in
theorem delete_of_kept (kept : Kept used) (inUse : used key)
    (represents : Represents used objects tree) (now : Nat) :
    ∃ next, driver.delete (driver.storage machine order now) machine.describe key tree =
        (.ok (), next) ∧
      Represents used (Function.update objects key none) next := by
  obtain ⟨next, removed⟩ := deleteAt_ok kept.toTidy inUse represents now
  have done := eq_of_isOk ((driver.delete_storage machine order now key tree).trans removed)
  have edited : edit driver machine order tree (.delete key now) = some next := by rw [edit, done]
  exact ⟨next, done, represents_delete kept.toTidy inUse represents edited⟩

variable (driver machine order) in
/-- The directory answers as the objects in memory do. -/
theorem alike_directory (deep : driver.root.depth ≠ 0) (kept : Kept used) (stamp : Stamp) :
    Alike used (Clear used) (fun tree held => Represents used (object held) tree ∧ Once held)
      (directory driver machine order stamp) memoryStore where
  get key tree held clear start := by
    have read := (get_of_represents driver machine order stamp.now kept.toTidy start.1 clear).1
    have left : ((directory driver machine order stamp).get key tree).2 = tree := by
      change (driver.get (driver.storage machine order stamp.now) machine.describe key tree).2 =
        tree
      rw [get_storage]
    rw [left, memoryStore_get]
    refine ⟨read.trans ?_, start⟩
    cases object held key <;> rfl
  put key bytes tree held inUse start := by
    obtain ⟨next, done, represents⟩ :=
      put_of_kept driver machine order kept inUse start.1 bytes stamp.suffix stamp.now
    refine ⟨congrArg Prod.fst done, ?_, once_put start.2 key bytes⟩
    have after : ((directory driver machine order stamp).put key bytes tree).2 = next :=
      congrArg Prod.snd done
    have same : object (memoryStore.put key bytes held).2 =
        Function.update (object held) key (some bytes) := by
      change object ((key, bytes) :: held.filter (·.1 != key)) = _
      rw [object_cons, object_filter, Function.update_idem]
    rw [after, same]
    exact represents
  delete key tree held inUse start := by
    obtain ⟨next, done, represents⟩ :=
      delete_of_kept driver machine order kept inUse start.1 stamp.now
    refine ⟨congrArg Prod.fst done, ?_, once_filter start.2 key⟩
    have after : ((directory driver machine order stamp).delete key tree).2 = next :=
      congrArg Prod.snd done
    have same : object (memoryStore.delete key held).2 = Function.update (object held) key none :=
      object_filter key
    rw [after, same]
    exact represents
  exist key tree held clear start := by
    have read := (get_of_represents driver machine order stamp.now kept.toTidy start.1 clear).2
    have left : ((directory driver machine order stamp).exists? key tree).2 = tree := by
      change (driver.exists? (driver.storage machine order stamp.now) key tree).2 = tree
      rw [exists_storage]
    rw [left]
    refine ⟨?_, start⟩
    change Except.ok (driver.exists? (driver.storage machine order stamp.now) key tree).1 =
      Except.ok (held.find? (·.1 == key)).isSome
    rw [read, object, Option.isSome_map]
  list tree held start := by
    have below : ∀ key, used key → prefixText none <+: key.text.toList →
        top none <+: names key ∧ names key ≠ top none := by
      intro key inUse _
      exact ⟨List.nil_prefix, names_ne_nil_of_plain (kept.plain key inUse)⟩
    have listed := lists_of_represents machine order none stamp.now deep kept.toTidy start.1
      (fun _ impossible => by cases impossible) below le_rfl
    have whole : (fun key : StorageKey => prefixText none <+: key.text.toList) = fun _ => True :=
      funext fun key => eq_true List.nil_prefix
    rw [whole] at listed
    refine ⟨⟨_, _, rfl, rfl, keyed_of_lists listed (lists_memory start.2)⟩, ?_⟩
    have left : ((directory driver machine order stamp).list tree).2 = tree :=
      @list_state _ (driver.storage machine order stamp.now) (fun _ _ => rfl) (fun _ _ => rfl)
        driver none _ tree
    rw [left]
    exact start

end Disk

section Refusals

theorem status_of_guard {expectedBucket : Option String} {bucket : String}
    {failure : ObjectResponse} (refused : bucketGuard expectedBucket bucket = some failure) :
    failure.status = 400 ∨ failure.status = 404 := by
  unfold bucketGuard bucketInvalid at refused
  split at refused
  next =>
    rw [Option.none_or] at refused
    split at refused
    next =>
      cases refused
      exact Or.inr rfl
    next => cases refused
  next =>
    cases refused
    exact Or.inl rfl

theorem status_of_listObjectsV2 (expectedBucket : Option String) (bucket : String)
    (params : ListObjects.ListParams) (items : List ObjectMeta) :
    (respond (listObjectsV2 expectedBucket bucket params (.ok items))).toObject.status ∈
      [200, 400, 404] := by
  unfold listObjectsV2
  split
  next => exact List.mem_of_elem_eq_true rfl
  next =>
    split
    next => exact List.mem_of_elem_eq_true rfl
    next => exact List.mem_of_elem_eq_true rfl

/-- Over the memory no request fails. -/
theorem status_memory (digests : Digests) (printable : Char → Bool)
    (expectedBucket : Option String) (held : List (StorageKey × List UInt8))
    (request : ObjectRequest) :
    (answer digests printable memoryStore expectedBucket held request).1.status ≠ 500 := by
  have guarded : ∀ {bucket failure}, bucketGuard expectedBucket bucket = some failure →
      failure.status ≠ 500 := by
    intro bucket failure refused
    rcases status_of_guard refused with status | status <;> omega
  have rejected : ∀ {query rejection}, multipartRejection query = some rejection →
      rejection.status ≠ 500 := by
    intro query rejection written
    rw [(multipartRejection_eq_some_iff.mp written).2]
    change 501 ≠ 500
    decide
  have listed : ∀ bucket params items,
      (respond (listObjectsV2 expectedBucket bucket params (.ok items))).toObject.status ≠ 500 := by
    intro bucket params items failed
    have status := status_of_listObjectsV2 expectedBucket bucket params items
    rw [failed] at status
    exact absurd status (by decide)
  have invalid : ∀ error, (invalidKey printable error).status ≠ 500 :=
    fun _ failed => by cases failed
  cases request with
  | get bucket key query =>
      simp only [answer, getObject]
      split
      next failure refused => exact guarded refused
      next =>
        split
        next rejection written => exact rejected written
        next =>
          split
          next error _ => exact invalid error
          next storageKey _ =>
            rw [memoryStore_get]
            cases object held storageKey with
            | none =>
                intro failed
                cases failed
            | some bytes =>
                intro failed
                cases failed
  | put bucket key query body =>
      simp only [answer, putObject]
      split
      next rejection written => exact rejected written
      next =>
        split
        next failure refused => exact guarded refused
        next =>
          split
          next error _ => exact invalid error
          next =>
            intro failed
            cases failed
  | head bucket key =>
      simp only [answer, headObject]
      split
      next failure refused => exact guarded refused
      next =>
        split
        next error _ => exact invalid error
        next storageKey _ =>
          simp only [memoryStore]
          cases (held.find? (·.1 == storageKey)).isSome with
          | true =>
              intro failed
              cases failed
          | false =>
              intro failed
              cases failed
  | delete bucket key query =>
      simp only [answer, deleteObject]
      split
      next rejection written => exact rejected written
      next =>
        split
        next failure refused => exact guarded refused
        next =>
          split
          next error _ => exact invalid error
          next =>
            intro failed
            cases failed
  | list bucket params =>
      simp only [answer, listBucket]
      split
      next => exact listed bucket params []
      next => exact listed bucket params _

end Refusals

section History

/-- What an answer tells a client about the objects. -/
def acknowledge (objects : Contents) : ObjectRequest × ObjectResponse → Contents
  | (.put _ key _ body, response) =>
      match StorageKey.parse key with
      | .ok storageKey =>
          if response.status = 200 then Function.update objects storageKey (some body) else objects
      | .error _ => objects
  | (.delete _ key _, response) =>
      match StorageKey.parse key with
      | .ok storageKey =>
          if response.status = 204 then Function.update objects storageKey none else objects
      | .error _ => objects
  | _ => objects

/-- The objects as a client knows them from the answers he got. -/
def acknowledged (requests : List (ObjectRequest × Stamp)) (responses : List ObjectResponse) :
    Contents :=
  ((requests.map Prod.fst).zip responses).foldl acknowledge fun _ => none

def noSuchKey (key : String) : ObjectResponse := (xmlError 404 "NoSuchKey" key).toObject

/-- The answer to a request that is not refused, for the objects there are. -/
def Reflects (digests : Digests) (expectedBucket : Option String) (objects : Contents) :
    ObjectRequest → ObjectResponse → Prop
  | .get bucket key query, response =>
      bucketGuard expectedBucket bucket = none → multipartRejection query = none →
        ∀ storageKey, StorageKey.parse key = .ok storageKey →
          response = match objects storageKey with
            | some bytes => ⟨200, [("content-length", Nat.toDigits 10 bytes.length),
                ("content-type", (contentTypeOf key.toList).toList),
                ("etag", etagOf digests bytes)], bytes⟩
            | none => noSuchKey key
  | .put bucket key query body, response =>
      bucketGuard expectedBucket bucket = none → multipartRejection query = none →
        ∀ storageKey, StorageKey.parse key = .ok storageKey →
          response = ⟨200, [("etag", etagOf digests body)], []⟩
  | .head bucket key, response =>
      bucketGuard expectedBucket bucket = none →
        ∀ storageKey, StorageKey.parse key = .ok storageKey →
          response = if (objects storageKey).isSome then ⟨200, [], []⟩ else noSuchKey key
  | .delete bucket key query, response =>
      bucketGuard expectedBucket bucket = none → multipartRejection query = none →
        ∀ storageKey, StorageKey.parse key = .ok storageKey → response = ⟨204, [], []⟩
  | .list bucket params, response =>
      bucketGuard expectedBucket bucket = none →
        ∃ items, ListsExactly objects (fun _ => True) items ∧
          response = (respond (listObjectsV2 expectedBucket bucket params (.ok items))).toObject

variable {digests : Digests} {printable : Char → Bool} {expectedBucket : Option String}
  {held : List (StorageKey × List UInt8)}

theorem reflects_memory (once : Once held) (request : ObjectRequest) :
    Reflects digests expectedBucket (object held) request
      (answer digests printable memoryStore expectedBucket held request).1 := by
  cases request with
  | get bucket key query =>
      intro served single storageKey parsed
      simp only [answer, getObject, served, single, parsed]
      rw [memoryStore_get]
      cases object held storageKey <;> rfl
  | put bucket key query body =>
      intro served single storageKey parsed
      simp only [answer, putObject, served, single, parsed]
      rfl
  | head bucket key =>
      intro served storageKey parsed
      simp only [answer, headObject, served, parsed, memoryStore, object, Option.isSome_map]
      cases (held.find? (·.1 == storageKey)).isSome <;> rfl
  | delete bucket key query =>
      intro served single storageKey parsed
      simp only [answer, deleteObject, served, single, parsed]
      rfl
  | list bucket params =>
      intro served
      refine ⟨_, lists_memory once, ?_⟩
      simp only [answer, listBucket, served]
      rfl

theorem acknowledge_put {objects : Contents} {bucket key : String} {query : Option (List Char)}
    {body : List UInt8} {response : ObjectResponse} (refused : response.status ≠ 200) :
    acknowledge objects (.put bucket key query body, response) = objects := by
  simp only [acknowledge]
  split
  next => exact if_neg refused
  next => rfl

theorem acknowledge_delete {objects : Contents} {bucket key : String} {query : Option (List Char)}
    {response : ObjectResponse} (refused : response.status ≠ 204) :
    acknowledge objects (.delete bucket key query, response) = objects := by
  simp only [acknowledge]
  split
  next => exact if_neg refused
  next => rfl

/-- The memory holds what the answers say. -/
theorem object_of_answer (once : Once held) (request : ObjectRequest) :
    object (answer digests printable memoryStore expectedBucket held request).2 =
        acknowledge (object held)
          (request, (answer digests printable memoryStore expectedBucket held request).1) ∧
      Once (answer digests printable memoryStore expectedBucket held request).2 := by
  have rejected : ∀ {query rejection}, multipartRejection query = some rejection →
      rejection.status = 501 := fun written => by
    rw [(multipartRejection_eq_some_iff.mp written).2]
    rfl
  cases request with
  | get bucket key query =>
      have stays : (answer digests printable memoryStore expectedBucket held
          (.get bucket key query)).2 = held := by
        simp only [answer, getObject]
        split
        next => rfl
        next =>
          split
          next => rfl
          next =>
            split
            next => rfl
            next storageKey _ =>
              rw [memoryStore_get]
              cases object held storageKey <;> rfl
      rw [stays]
      exact ⟨rfl, once⟩
  | put bucket key query body =>
      simp only [answer, putObject]
      split
      next rejection written =>
        have status := rejected written
        refine ⟨(acknowledge_put ?_).symm, once⟩
        rw [status]
        decide
      next =>
        split
        next failure refused =>
          refine ⟨(acknowledge_put ?_).symm, once⟩
          rcases status_of_guard refused with status | status <;> rw [status] <;> decide
        next =>
          split
          next error parsed => exact ⟨by rw [acknowledge, parsed], once⟩
          next storageKey parsed =>
            refine ⟨?_, once_put once storageKey body⟩
            rw [acknowledge, parsed]
            change object ((storageKey, body) :: held.filter (·.1 != storageKey)) =
              Function.update (object held) storageKey (some body)
            rw [object_cons, object_filter, Function.update_idem]
  | head bucket key =>
      have stays : (answer digests printable memoryStore expectedBucket held (.head bucket key)).2 =
          held := by
        simp only [answer, headObject]
        split
        next => rfl
        next =>
          split
          next => rfl
          next storageKey _ =>
            simp only [memoryStore]
            cases (held.find? (·.1 == storageKey)).isSome <;> rfl
      rw [stays]
      exact ⟨rfl, once⟩
  | delete bucket key query =>
      simp only [answer, deleteObject]
      split
      next rejection written =>
        have status := rejected written
        refine ⟨(acknowledge_delete ?_).symm, once⟩
        rw [status]
        decide
      next =>
        split
        next failure refused =>
          refine ⟨(acknowledge_delete ?_).symm, once⟩
          rcases status_of_guard refused with status | status <;> rw [status] <;> decide
        next =>
          split
          next error parsed => exact ⟨by rw [acknowledge, parsed], once⟩
          next storageKey parsed =>
            refine ⟨?_, once_filter once storageKey⟩
            rw [acknowledge, parsed]
            exact object_filter storageKey
  | list bucket params =>
      have stays : (answer digests printable memoryStore expectedBucket held
          (.list bucket params)).2 = held := by
        simp only [answer, listBucket]
        split <;> rfl
      rw [stays]
      exact ⟨rfl, once⟩

/-- The last answer reflects what the answers before it say. -/
theorem reflects_last {objects : Contents} (once : Once held) (same : object held = objects)
    (before : List (ObjectRequest × Stamp)) (request : ObjectRequest) (stamp : Stamp) :
    ∃ earlier response, answers digests printable (fun _ => memoryStore) expectedBucket held
        (before ++ [(request, stamp)]) = earlier ++ [response] ∧
      earlier.length = before.length ∧
      Reflects digests expectedBucket
        (((before.map Prod.fst).zip earlier).foldl acknowledge objects) request response := by
  subst same
  induction before generalizing held with
  | nil => exact ⟨[], _, rfl, rfl, reflects_memory once request⟩
  | cons first rest inductionHypothesis =>
      obtain ⟨later, stays⟩ := object_of_answer once first.1
      obtain ⟨earlier, response, answered, sameLength, reflects⟩ := inductionHypothesis stays
      refine ⟨_ :: earlier, response, congrArg (List.cons _) answered, by simp [sameLength], ?_⟩
      rw [later] at reflects
      exact reflects

end History

section Folder

/-- The text of a key cut into its names. -/
theorem names_of_text {key : StorageKey} {path : List FileName} (nonempty : path ≠ [])
    (text : key.text.toList = ['/'].intercalate (path.map fun name => name.text)) :
    Plain key ∧ names key = path := by
  have texts : (keyPath key).map Segment.text = (path.map FileName.toSegment).map Segment.text := by
    rw [keyPath, Segment.map_text_split, text, List.map_map]
    apply List.splitOn_intercalate
    · intro part member
      obtain ⟨name, -, rfl⟩ := List.mem_map.mp member
      exact name.plain
    · simpa using nonempty
  have segments : keyPath key = path.map FileName.toSegment := by
    apply List.map_injective_iff.mpr _ texts
    rintro ⟨first, _⟩ ⟨second, _⟩ equal
    cases equal
    rfl
  have same : names key = path := by
    have steps := steps_keyPath key
    rw [segments, List.filterMap_map] at steps
    have components : path.filterMap (Segment.component ∘ FileName.toSegment) =
        path.map Component.normal := by
      rw [← List.filterMap_eq_map]
      exact List.filterMap_congr fun name _ => name.component
    rw [components] at steps
    exact (List.map_injective_iff.mpr (fun _ _ equal => Component.normal.inj equal) steps).symm
  exact ⟨by rw [Plain, segments, same], same⟩

/-- A key for an object in a folder, not called like a temporary file. -/
def InFolder (folder : FileName) (key : StorageKey) : Prop :=
  Plain key ∧ ∃ name, names key = [folder, name] ∧ isTemp name = false

theorem kept_folder {folder : FileName} (proper : isTemp folder = false) :
    Kept (InFolder folder) where
  plain _ inFolder := inFolder.1
  notTemp key inFolder last isLast := by
    obtain ⟨-, name, split, notTemp⟩ := inFolder
    rw [split] at isLast
    cases isLast
    exact notTemp
  apart key other inFolder otherInFolder isFront := by
    obtain ⟨plain, name, split, -⟩ := inFolder
    obtain ⟨otherPlain, otherName, otherSplit, -⟩ := otherInFolder
    have same : names key = names other := isFront.eq_of_length (by rw [split, otherSplit]; rfl)
    apply StorageKey.ext
    rw [← String.toList_inj, text_of_plain plain, text_of_plain otherPlain, same]
  noTemp key inFolder part member := by
    obtain ⟨-, name, split, notTemp⟩ := inFolder
    rw [split] at member
    rcases List.mem_cons.mp member with rfl | isName
    · exact proper
    · rw [List.mem_singleton.mp isName]
      exact notTemp

def imgName : FileName := ⟨⟨"img".toList, by decide⟩, by decide⟩

/-- The originals of the images are kept side by side. -/
theorem inFolder_originalKey (id : Uuid) : InFolder imgName (originalKey id) := by
  have plain : '/' ∉ id.toText.toList ++ ".bin".toList := by
    rw [List.mem_append]
    rintro (inId | inSuffix)
    · rcases Uuid.mem_toText inId with hyphen | alphanumeric
      · exact absurd hyphen (by decide)
      · exact absurd alphanumeric (by decide)
    · exact absurd inSuffix (by decide)
  have long : (id.toText.toList ++ ".bin".toList).length = 40 := by
    rw [List.length_append, Uuid.length_toText]
    rfl
  have proper : id.toText.toList ++ ".bin".toList ≠ [] ∧
      id.toText.toList ++ ".bin".toList ≠ ['.'] ∧
        id.toText.toList ++ ".bin".toList ≠ ['.', '.'] := by
    refine ⟨?_, ?_, ?_⟩
    all_goals
      intro same
      rw [same] at long
      cases long
  have text : (originalKey id).text.toList = ['/'].intercalate
      ([imgName, ⟨⟨_, plain⟩, proper⟩].map fun name => name.text) := by
    simp [originalKey, originalText, imgName]
  obtain ⟨spelled, split⟩ := names_of_text (by simp) text
  refine ⟨spelled, _, split, ?_⟩
  rw [isTemp, Bool.and_eq_false_iff]
  right
  rw [Bool.eq_false_iff, ne_eq, List.isSuffixOf_iff_suffix]
  rintro ⟨front, same⟩
  have last := congrArg List.getLast? same
  have tmp : ".tmp".toList.getLast? = some 'p' := by decide
  have bin : ".bin".toList.getLast? = some 'n' := by decide
  rw [List.getLast?_append, List.getLast?_append, tmp, bin, Option.some_or, Option.some_or] at last
  exact absurd (Option.some.inj last) (by decide)

end Folder

section Result

variable (digests : Digests) (printable : Char → Bool) (driver : LocalDriver)
  (machine : Machine) (order : Tree.Order FileName) (expectedBucket : Option String)

/-- On keys that can be kept side by side the gateway over a directory answers every sequence of
requests as if the objects were in memory, and none of them fails. -/
theorem directory_serves_objects (modified : Nat) (deep : driver.root.depth ≠ 0)
    {used : StorageKey → Prop} (kept : Kept used) (requests : List (ObjectRequest × Stamp))
    (uses : ∀ request ∈ requests, request.1.Uses used (Clear used)) :
    answers digests printable (directory driver machine order) expectedBucket (Tree.empty modified)
        requests =
        answers digests printable (fun _ => memoryStore) expectedBucket [] requests ∧
      ∀ response ∈ answers digests printable (directory driver machine order) expectedBucket
        (Tree.empty modified) requests, response.status ≠ 500 := by
  have start : Represents used (object []) (Tree.empty modified) ∧ Once [] :=
    ⟨represents_empty used modified, List.nodup_nil⟩
  have same := answers_alike (alike_directory driver machine order deep kept) digests printable
    expectedBucket uses start
  refine ⟨same, ?_⟩
  rw [same]
  clear same uses
  generalize ([] : List (StorageKey × List UInt8)) = held
  induction requests generalizing held with
  | nil =>
      intro response member
      cases member
  | cons request rest inductionHypothesis =>
      intro response member
      simp only [answers] at member
      rcases List.mem_cons.mp member with rfl | later
      · exact status_memory digests printable expectedBucket held request.1
      · exact inductionHypothesis _ response later

/-- Whatever was requested before, an answer reflects the objects as the answers before it tell. -/
theorem answers_reflect_history (modified : Nat) (deep : driver.root.depth ≠ 0)
    {used : StorageKey → Prop} (kept : Kept used) (before : List (ObjectRequest × Stamp))
    (request : ObjectRequest) (stamp : Stamp)
    (uses : ∀ call ∈ before ++ [(request, stamp)], call.1.Uses used (Clear used)) :
    ∃ earlier response, answers digests printable (directory driver machine order) expectedBucket
        (Tree.empty modified) (before ++ [(request, stamp)]) = earlier ++ [response] ∧
      earlier.length = before.length ∧
      Reflects digests expectedBucket (acknowledged before earlier) request response := by
  have start : Represents used (object []) (Tree.empty modified) ∧ Once [] :=
    ⟨represents_empty used modified, List.nodup_nil⟩
  rw [answers_alike (alike_directory driver machine order deep kept) digests printable
    expectedBucket uses start]
  exact reflects_last start.2 rfl before request stamp

def lengthDigests : Digests := ⟨fun data => [UInt8.ofNat data.length], fun _ _ => []⟩

def firstStamp : Stamp := ⟨0, Uuid.nil⟩

/-- An original is stored, looked for, listed and removed. -/
def originalRequests : List (ObjectRequest × Stamp) :=
  [(.put "pictures" (originalText ⟨5⟩) none [1, 2], firstStamp),
    (.get "pictures" (originalText ⟨5⟩) none, firstStamp),
    (.head "pictures" (originalText ⟨6⟩), firstStamp),
    (.list "pictures" ⟨none, none, none, none, none⟩, firstStamp),
    (.delete "pictures" (originalText ⟨5⟩) none, firstStamp)]

theorem uses_originalRequests : ∀ request ∈ originalRequests,
    request.1.Uses (InFolder imgName) (Clear (InFolder imgName)) := by
  have tidy : Tidy (InFolder imgName) := (kept_folder (by decide)).toTidy
  have written : ∀ id storageKey, StorageKey.parse (originalText id) = .ok storageKey →
      InFolder imgName storageKey := by
    intro id storageKey parsed
    rw [parse_originalText] at parsed
    cases parsed
    exact inFolder_originalKey id
  intro request member
  simp only [originalRequests, List.mem_cons, List.not_mem_nil, or_false] at member
  rcases member with rfl | rfl | rfl | rfl | rfl
  · exact written _
  · exact fun storageKey parsed => clear_of_used tidy (written _ storageKey parsed)
  · exact fun storageKey parsed => clear_of_used tidy (written _ storageKey parsed)
  · trivial
  · exact written _

theorem originals_served :
    (answers lengthDigests asciiPrintable (directory sampleDriver plainMachine readOrder) none
      (Tree.empty 0) originalRequests).map ObjectResponse.status = [200, 200, 404, 200, 204] := by
  rw [(directory_serves_objects lengthDigests asciiPrintable sampleDriver plainMachine readOrder
    none 0 (by decide) (kept_folder (by decide)) originalRequests uses_originalRequests).1]
  decide +kernel

theorem get_reflects_put :
    ∃ earlier response, answers lengthDigests asciiPrintable
        (directory sampleDriver plainMachine readOrder) none (Tree.empty 0)
        (originalRequests.take 1 ++
          [(.get "pictures" (originalText ⟨5⟩) none, firstStamp)]) = earlier ++ [response] ∧
      Reflects lengthDigests none (acknowledged (originalRequests.take 1) earlier)
        (.get "pictures" (originalText ⟨5⟩) none) response := by
  obtain ⟨earlier, response, answered, -, reflects⟩ := answers_reflect_history lengthDigests
    asciiPrintable sampleDriver plainMachine readOrder none 0 (by decide) (kept_folder (by decide))
    (originalRequests.take 1) (.get "pictures" (originalText ⟨5⟩) none) firstStamp
    (fun request member => uses_originalRequests request
      (List.mem_of_mem_take (show request ∈ originalRequests.take 2 from member)))
  exact ⟨earlier, response, answered, reflects⟩

end Result

end Gateway

end Picroom
