import Mathlib.Data.List.Nodup
import Mathlib.Data.List.Perm.Basic

/-!
# Keyed tables

A table is a list of rows whose keys are pairwise distinct; the list order
stands for the physical order in which the engine happens to scan the rows, and
`reorder` lets it change at any time.  The operations are the statements a
relational store executes on one table: lookup by key, `INSERT` that refuses or
ignores a duplicate key, an `UPDATE` that keeps keys, and `DELETE`.
-/

namespace Relational

universe u v

/-- Rows with pairwise distinct keys. -/
structure Table {Row : Type u} {Key : Type v} (key : Row → Key) where
  rows : List Row
  unique : (rows.map key).Nodup

namespace Table

variable {Row : Type u} {Key : Type v} {key : Row → Key}

instance : Membership Row (Table key) where
  mem table row := row ∈ table.rows

@[simp]
theorem mem_rows_iff {table : Table key} {row : Row} :
    row ∈ table.rows ↔ row ∈ table := Iff.rfl

def empty (key : Row → Key) : Table key := ⟨[], by simp⟩

@[simp]
theorem not_mem_empty (row : Row) : row ∉ empty key := by
  intro membership
  exact List.not_mem_nil membership

theorem eq_of_key_eq (table : Table key) {first second : Row}
    (firstMember : first ∈ table) (secondMember : second ∈ table)
    (sameKey : key first = key second) : first = second :=
  List.inj_on_of_nodup_map table.unique firstMember secondMember sameKey

def reorder (table : Table key) (rows : List Row)
    (permuted : rows.Perm table.rows) : Table key :=
  ⟨rows, (permuted.map key).nodup_iff.mpr table.unique⟩

@[simp]
theorem mem_reorder {table : Table key} {rows : List Row}
    {permuted : rows.Perm table.rows} {row : Row} :
    row ∈ table.reorder rows permuted ↔ row ∈ table := permuted.mem_iff

/-- `UPDATE … SET … WHERE …`, for assignments that keep the key. -/
def update (table : Table key) (condition : Row → Bool) (assign : Row → Row)
    (keepsKey : ∀ row, key (assign row) = key row) : Table key where
  rows := table.rows.map fun row => if condition row then assign row else row
  unique := by
    have keys : (table.rows.map fun row =>
        if condition row then assign row else row).map key = table.rows.map key := by
      rw [List.map_map]
      apply List.map_congr_left
      intro row _
      by_cases selected : condition row = true <;> simp [selected, keepsKey]
    rw [keys]
    exact table.unique

section Update

variable {table : Table key} {condition : Row → Bool} {assign : Row → Row}
  {keepsKey : ∀ row, key (assign row) = key row}

theorem mem_update {row : Row} :
    row ∈ table.update condition assign keepsKey ↔
      ∃ old ∈ table, row = if condition old then assign old else old := by
  change row ∈ table.rows.map _ ↔ _
  rw [List.mem_map]
  constructor
  · rintro ⟨old, member, rfl⟩
    exact ⟨old, member, rfl⟩
  · rintro ⟨old, member, rfl⟩
    exact ⟨old, member, rfl⟩

theorem mem_update_of_not {row : Row} (member : row ∈ table)
    (unselected : condition row = false) :
    row ∈ table.update condition assign keepsKey :=
  mem_update.mpr ⟨row, member, by simp [unselected]⟩

end Update

def delete (table : Table key) (condition : Row → Bool) : Table key where
  rows := table.rows.filter fun row => !condition row
  unique := (List.filter_sublist.map key).nodup table.unique

@[simp]
theorem mem_delete {table : Table key} {condition : Row → Bool} {row : Row} :
    row ∈ table.delete condition ↔ row ∈ table ∧ condition row = false := by
  change row ∈ table.rows.filter _ ↔ _
  simp

/-- The same rows in another encoding, for an encoding that keeps keys apart. -/
def map {Row' : Type u} {Key' : Type v} {key' : Row' → Key'} (table : Table key)
    (encode : Row → Row') (encodeKey : Key → Key') (apart : Function.Injective encodeKey)
    (keys : ∀ row, key' (encode row) = encodeKey (key row)) : Table key' where
  rows := table.rows.map encode
  unique := by
    have encoded : (table.rows.map encode).map key' = (table.rows.map key).map encodeKey := by
      rw [List.map_map, List.map_map]
      apply List.map_congr_left
      intro row _
      exact keys row
    rw [encoded]
    exact table.unique.map apart

section Map

variable {Row' : Type u} {Key' : Type v} {key' : Row' → Key'} {table : Table key}
  {encode : Row → Row'} {encodeKey : Key → Key'} {apart : Function.Injective encodeKey}
  {keys : ∀ row, key' (encode row) = encodeKey (key row)}

theorem ext_rows {first second : Table key} (same : first.rows = second.rows) :
    first = second := by
  cases first
  cases second
  cases same
  rfl

theorem delete_map {condition : Row → Bool} {condition' : Row' → Bool}
    (conditions : ∀ row, condition' (encode row) = condition row) :
    (table.map encode encodeKey apart keys).delete condition' =
      (table.delete condition).map encode encodeKey apart keys := by
  apply ext_rows
  change (table.rows.map encode).filter _ = (table.rows.filter _).map encode
  rw [List.filter_map]
  congr 1
  apply List.filter_congr
  intro row _
  rw [Function.comp_apply, conditions]

theorem update_map {condition : Row → Bool} {condition' : Row' → Bool} {assign : Row → Row}
    {assign' : Row' → Row'} {keepsKey : ∀ row, key (assign row) = key row}
    {keepsKey' : ∀ row, key' (assign' row) = key' row}
    (conditions : ∀ row, condition' (encode row) = condition row)
    (assigns : ∀ row, assign' (encode row) = encode (assign row)) :
    (table.map encode encodeKey apart keys).update condition' assign' keepsKey' =
      (table.update condition assign keepsKey).map encode encodeKey apart keys := by
  apply ext_rows
  change (table.rows.map encode).map _ = (table.rows.map _).map encode
  rw [List.map_map, List.map_map]
  apply List.map_congr_left
  intro row _
  simp only [Function.comp_apply, conditions, assigns]
  split <;> rfl

end Map

variable [DecidableEq Key]

def find? (table : Table key) (wanted : Key) : Option Row :=
  table.rows.find? fun row => key row = wanted

theorem find?_eq_some_iff {table : Table key} {wanted : Key} {row : Row} :
    table.find? wanted = some row ↔ row ∈ table ∧ key row = wanted := by
  constructor
  · intro found
    exact ⟨List.mem_of_find?_eq_some found, by simpa using List.find?_some found⟩
  · rintro ⟨member, rfl⟩
    cases found : table.find? (key row) with
    | none =>
        have missing := List.find?_eq_none.mp found row member
        simp at missing
    | some other =>
        have otherMember := List.mem_of_find?_eq_some found
        have otherKey : key other = key row := by simpa using List.find?_some found
        rw [table.eq_of_key_eq otherMember member otherKey]

theorem find?_eq_none_iff {table : Table key} {wanted : Key} :
    table.find? wanted = none ↔ ∀ row ∈ table, key row ≠ wanted := by
  simp [find?, List.find?_eq_none]

/-- Lookup depends on the rows only, not on their order. -/
@[simp]
theorem find?_reorder {table : Table key} {rows : List Row} {permuted : rows.Perm table.rows}
    {wanted : Key} : (table.reorder rows permuted).find? wanted = table.find? wanted := by
  cases found : table.find? wanted with
  | none =>
      rw [find?_eq_none_iff] at found ⊢
      intro row member
      exact found row (mem_reorder.mp member)
  | some row =>
      rw [find?_eq_some_iff] at found ⊢
      exact ⟨mem_reorder.mpr found.1, found.2⟩

theorem find?_update {table : Table key} {condition : Row → Bool} {assign : Row → Row}
    {keepsKey : ∀ row, key (assign row) = key row} {wanted : Key} :
    (table.update condition assign keepsKey).find? wanted =
      (table.find? wanted).map fun row => if condition row then assign row else row := by
  cases found : table.find? wanted with
  | none =>
      rw [find?_eq_none_iff] at found
      rw [Option.map_none, find?_eq_none_iff]
      intro row member
      obtain ⟨old, present, rfl⟩ := mem_update.mp member
      by_cases selected : condition old = true
      · simpa [selected, keepsKey] using found old present
      · simpa [selected] using found old present
  | some row =>
      obtain ⟨member, sameKey⟩ := find?_eq_some_iff.mp found
      rw [Option.map_some, find?_eq_some_iff]
      refine ⟨mem_update.mpr ⟨row, member, rfl⟩, ?_⟩
      by_cases selected : condition row = true
      · simpa [selected, keepsKey] using sameKey
      · simpa [selected] using sameKey

/-- `INSERT`, refused when a row with the same key is present. -/
def insert? (table : Table key) (row : Row) : Option (Table key) :=
  if fresh : key row ∈ table.rows.map key then none
  else some
    { rows := table.rows ++ [row]
      unique := by
        rw [List.map_append, List.map_singleton]
        exact List.Nodup.append table.unique (List.nodup_singleton _)
          (List.disjoint_singleton.mpr fresh) }

/-- `INSERT … ON CONFLICT DO NOTHING`. -/
def insertOrIgnore (table : Table key) (row : Row) : Table key :=
  (table.insert? row).getD table

theorem mem_of_insert?_eq_some {table inserted : Table key} {row : Row}
    (succeeded : table.insert? row = some inserted) :
    (∀ old ∈ table, key old ≠ key row) ∧
      ∀ other, other ∈ inserted ↔ other ∈ table ∨ other = row := by
  unfold insert? at succeeded
  split at succeeded
  next present => cases succeeded
  next fresh =>
    cases succeeded
    refine ⟨?_, ?_⟩
    · intro old member same
      exact fresh (List.mem_map.mpr ⟨old, member, same⟩)
    · intro other
      change other ∈ table.rows ++ [row] ↔ _
      simp

theorem rows_of_insert?_eq_some {table inserted : Table key} {row : Row}
    (succeeded : table.insert? row = some inserted) : inserted.rows = table.rows ++ [row] := by
  unfold insert? at succeeded
  split at succeeded
  next => cases succeeded
  next =>
    cases succeeded
    rfl

theorem insert?_eq_none_iff {table : Table key} {row : Row} :
    table.insert? row = none ↔ ∃ old ∈ table, key old = key row := by
  unfold insert?
  split
  next present => simpa using present
  next fresh => simpa using fresh

theorem insert?_map {Row' : Type u} {Key' : Type v} [DecidableEq Key'] {key' : Row' → Key'}
    {table : Table key} {encode : Row → Row'} {encodeKey : Key → Key'}
    {apart : Function.Injective encodeKey} {keys : ∀ row, key' (encode row) = encodeKey (key row)}
    (row : Row) :
    (table.map encode encodeKey apart keys).insert? (encode row) =
      (table.insert? row).map (·.map encode encodeKey apart keys) := by
  cases attempted : table.insert? row with
  | none =>
      obtain ⟨old, member, same⟩ := insert?_eq_none_iff.mp attempted
      rw [Option.map_none, insert?_eq_none_iff]
      refine ⟨encode old, List.mem_map_of_mem member, ?_⟩
      rw [keys, keys, same]
  | some inserted =>
      have rows := rows_of_insert?_eq_some attempted
      obtain ⟨fresh, -⟩ := mem_of_insert?_eq_some attempted
      cases copied : (table.map encode encodeKey apart keys).insert? (encode row) with
      | none =>
          obtain ⟨copy, member, same⟩ := insert?_eq_none_iff.mp copied
          obtain ⟨old, present, rfl⟩ := List.mem_map.mp member
          rw [keys, keys] at same
          exact absurd (apart same) (fresh old present)
      | some other =>
          rw [Option.map_some]
          congr 1
          apply ext_rows
          change other.rows = inserted.rows.map encode
          rw [rows_of_insert?_eq_some copied, rows, List.map_append, List.map_singleton]
          rfl

theorem insertOrIgnore_map {Row' : Type u} {Key' : Type v} [DecidableEq Key'] {key' : Row' → Key'}
    {table : Table key} {encode : Row → Row'} {encodeKey : Key → Key'}
    {apart : Function.Injective encodeKey} {keys : ∀ row, key' (encode row) = encodeKey (key row)}
    (row : Row) :
    (table.map encode encodeKey apart keys).insertOrIgnore (encode row) =
      (table.insertOrIgnore row).map encode encodeKey apart keys := by
  unfold insertOrIgnore
  rw [insert?_map]
  cases table.insert? row <;> rfl

theorem find?_map {Row' : Type u} {Key' : Type v} [DecidableEq Key'] {key' : Row' → Key'}
    {table : Table key} {encode : Row → Row'} {encodeKey : Key → Key'}
    {apart : Function.Injective encodeKey} {keys : ∀ row, key' (encode row) = encodeKey (key row)}
    (wanted : Key) :
    (table.map encode encodeKey apart keys).find? (encodeKey wanted) =
      (table.find? wanted).map encode := by
  unfold find?
  change (table.rows.map encode).find? _ = _
  rw [List.find?_map]
  congr 2
  funext row
  simp only [Function.comp_apply, keys, apart.eq_iff]

theorem mem_insertOrIgnore {table : Table key} {row other : Row} :
    other ∈ table.insertOrIgnore row ↔
      other ∈ table ∨ (other = row ∧ ∀ old ∈ table, key old ≠ key row) := by
  unfold insertOrIgnore
  cases attempted : table.insert? row with
  | none =>
      obtain ⟨old, member, same⟩ := insert?_eq_none_iff.mp attempted
      simp only [Option.getD_none]
      constructor
      · exact Or.inl
      · rintro (present | ⟨rfl, fresh⟩)
        · exact present
        · exact absurd same (fresh old member)
  | some inserted =>
      obtain ⟨fresh, members⟩ := mem_of_insert?_eq_some attempted
      simp only [Option.getD_some, members]
      constructor
      · rintro (present | rfl)
        · exact Or.inl present
        · exact Or.inr ⟨rfl, fresh⟩
      · rintro (present | ⟨rfl, _⟩)
        · exact Or.inl present
        · exact Or.inr rfl

theorem find?_insertOrIgnore {table : Table key} {row : Row} {wanted : Key} :
    (table.insertOrIgnore row).find? wanted =
      (table.find? wanted).or (if key row = wanted then some row else none) := by
  cases found : table.find? wanted with
  | some old =>
      obtain ⟨member, sameKey⟩ := find?_eq_some_iff.mp found
      rw [Option.some_or, find?_eq_some_iff]
      exact ⟨mem_insertOrIgnore.mpr (Or.inl member), sameKey⟩
  | none =>
      rw [find?_eq_none_iff] at found
      by_cases sameKey : key row = wanted
      · rw [Option.none_or, if_pos sameKey, find?_eq_some_iff]
        exact ⟨mem_insertOrIgnore.mpr (Or.inr ⟨rfl, sameKey ▸ found⟩), sameKey⟩
      · rw [Option.none_or, if_neg sameKey, find?_eq_none_iff]
        intro other member
        rcases mem_insertOrIgnore.mp member with old | ⟨rfl, _⟩
        · exact found other old
        · exact sameKey

/-- `INSERT … ON CONFLICT (key) DO UPDATE SET …`. -/
def upsert (table : Table key) (row : Row) (assign : Row → Row)
    (keepsKey : ∀ old, key (assign old) = key old) : Table key :=
  match table.insert? row with
  | some inserted => inserted
  | none => table.update (fun old => key old = key row) assign keepsKey

theorem mem_upsert {table : Table key} {row other : Row} {assign : Row → Row}
    {keepsKey : ∀ old, key (assign old) = key old} :
    other ∈ table.upsert row assign keepsKey ↔
      (∃ old ∈ table, other = if key old = key row then assign old else old) ∨
        (other = row ∧ ∀ old ∈ table, key old ≠ key row) := by
  unfold upsert
  cases attempted : table.insert? row with
  | none =>
      obtain ⟨present, member, same⟩ := insert?_eq_none_iff.mp attempted
      have taken : ¬ ∀ old ∈ table, key old ≠ key row := fun fresh => fresh present member same
      simp only [mem_update, decide_eq_true_eq, taken, and_false, or_false]
  | some inserted =>
      obtain ⟨fresh, members⟩ := mem_of_insert?_eq_some attempted
      simp only [members]
      constructor
      · rintro (member | rfl)
        · exact Or.inl ⟨other, member, by rw [if_neg (fresh other member)]⟩
        · exact Or.inr ⟨rfl, fresh⟩
      · rintro (⟨old, member, rfl⟩ | ⟨rfl, _⟩)
        · rw [if_neg (fresh old member)]
          exact Or.inl member
        · exact Or.inr rfl

theorem find?_upsert {table : Table key} {row : Row} {assign : Row → Row}
    {keepsKey : ∀ old, key (assign old) = key old} {wanted : Key} :
    (table.upsert row assign keepsKey).find? wanted =
      if key row = wanted then some ((table.find? wanted).elim row assign)
      else table.find? wanted := by
  by_cases same : key row = wanted
  · rw [if_pos same, find?_eq_some_iff, mem_upsert]
    cases found : table.find? wanted with
    | none =>
        refine ⟨Or.inr ⟨rfl, ?_⟩, same⟩
        intro old member
        rw [same]
        exact find?_eq_none_iff.mp found old member
    | some old =>
        obtain ⟨member, holds⟩ := find?_eq_some_iff.mp found
        refine ⟨Or.inl ⟨old, member, ?_⟩, ?_⟩
        · rw [if_pos (holds.trans same.symm)]
          rfl
        · exact (keepsKey old).trans holds
  · rw [if_neg same]
    apply Option.ext
    intro found
    rw [find?_eq_some_iff, find?_eq_some_iff, mem_upsert]
    constructor
    · rintro ⟨⟨old, member, rfl⟩ | ⟨rfl, _⟩, holds⟩
      · split at holds
        next taken => exact absurd (taken.symm.trans ((keepsKey old).symm.trans holds)) same
        next apart =>
          rw [if_neg apart]
          exact ⟨member, holds⟩
      · exact absurd holds same
    · rintro ⟨member, holds⟩
      refine ⟨Or.inl ⟨found, member, ?_⟩, holds⟩
      rw [if_neg fun taken => same (taken.symm.trans holds)]

theorem find?_delete {table : Table key} {condition : Row → Bool} {wanted : Key} :
    (table.delete condition).find? wanted =
      (table.find? wanted).filter fun row => !condition row := by
  apply Option.ext
  intro row
  rw [find?_eq_some_iff, mem_delete, Option.filter_eq_some_iff, find?_eq_some_iff]
  simp only [Bool.not_eq_true', and_right_comm]

theorem mem_upsert_of_key_ne {table : Table key} {row other : Row} {assign : Row → Row}
    {keepsKey : ∀ old, key (assign old) = key old} (different : key other ≠ key row)
    (member : other ∈ table.upsert row assign keepsKey) : other ∈ table := by
  unfold upsert at member
  cases attempted : table.insert? row with
  | some inserted =>
      simp only [attempted] at member
      rcases ((mem_of_insert?_eq_some attempted).2 other).mp member with present | rfl
      · exact present
      · exact absurd rfl different
  | none =>
      simp only [attempted] at member
      obtain ⟨old, present, rfl⟩ := mem_update.mp member
      by_cases same : key old = key row
      · exact absurd (by simpa [same] using keepsKey old) different
      · simpa [same] using present

end Table

end Relational
