import Mathlib.Data.List.Perm.Subperm
import Picroom.Relational.Ties

/-!
# Showing every row once

A reader who is given the newest rows again and again shows those it has not shown before.  Every
row is shown at most once, and is shown when at some time few enough rows are as new.
-/

namespace Relational

universe u v

section Newest

variable {Row : Type u} {Time : Type v} [LinearOrder Time] {time : Row → Time}
  {arrangement : Arrangement time} {rows : List Row} {row : Row} {limit : Nat}

/-- A row is among the first if few rows are as new, in whatever order ties come. -/
theorem mem_take_of_few (member : row ∈ rows)
    (few : rows.countP (fun other => time row ≤ time other) ≤ limit) :
    row ∈ (arrangement.arrange rows).take limit := by
  obtain ⟨front, back, split⟩ :=
    List.append_of_mem ((arrangement.perm rows).mem_iff.mpr member)
  have sorted := arrangement.sorted rows
  have count := (arrangement.perm rows).countP_eq fun other => decide (time row ≤ time other)
  rw [split] at sorted count ⊢
  have newer : front.countP (fun other => time row ≤ time other) = front.length := by
    rw [List.countP_eq_length]
    intro other inFront
    have above := (List.pairwise_append.mp sorted).2.2 other inFront row List.mem_cons_self
    simpa using above
  rw [List.countP_append, List.countP_cons_of_pos (by simp), newer] at count
  rw [List.take_append]
  apply List.mem_append_right
  have inside : limit - front.length = limit - front.length - 1 + 1 := by omega
  rw [inside, List.take_succ_cons]
  exact List.mem_cons_self

/-- Few rows are newer than one that is among the first. -/
theorem few_newer_of_mem_take (member : row ∈ (arrangement.arrange rows).take limit) :
    rows.countP (fun other => time row < time other) < limit := by
  obtain ⟨front, back, split⟩ := List.append_of_mem member
  have whole := List.take_append_drop limit (arrangement.arrange rows)
  rw [split, List.append_assoc] at whole
  have sorted := arrangement.sorted rows
  have count := (arrangement.perm rows).countP_eq fun other => decide (time row < time other)
  rw [← whole] at sorted count
  have none : (row :: back ++ (arrangement.arrange rows).drop limit).countP
      (fun other => time row < time other) = 0 := by
    rw [List.countP_eq_zero]
    intro other later newer
    have below := (List.pairwise_append.mp sorted).2.1
    rcases List.mem_cons.mp later with rfl | inBack
    · simp at newer
    · exact absurd (of_decide_eq_true newer) (not_lt.mpr (List.rel_of_pairwise_cons below inBack))
  rw [List.countP_append, none, Nat.add_zero] at count
  have bound :=
    List.countP_le_length (p := fun other => decide (time row < time other)) (l := front)
  have size : front.length < limit := by
    have taken := List.length_take_le limit (arrangement.arrange rows)
    rw [split, List.length_append, List.length_cons] at taken
    omega
  omega

/-- Where no two rows have one value, at most one row more is as new as it than newer. -/
theorem countP_le_of_distinct (distinct : (rows.map time).Nodup) (value : Time) :
    rows.countP (fun other => value ≤ time other) ≤
      rows.countP (fun other => value < time other) + 1 := by
  have split : rows.countP (fun other => value ≤ time other) =
      rows.countP (fun other => value < time other) + (rows.map time).count value := by
    clear distinct
    induction rows with
    | nil => rfl
    | cons first rest inductionHypothesis =>
        rw [List.countP_cons, List.countP_cons, List.map_cons, List.count_cons,
          inductionHypothesis]
        rcases lt_trichotomy value (time first) with less | same | greater
        · simp [less, less.le, less.ne']
          omega
        · simp [same]
          omega
        · simp [not_le.mpr greater, not_lt.mpr greater.le, greater.ne]
  have once := List.nodup_iff_count_le_one.mp distinct value
  omega

end Newest

section Stream

variable {Item : Type u} {Key : Type v} [DecidableEq Key] (key : Item → Key)

/-- The items whose key has not been seen, each once. -/
def unseen (seen : List Key) : List Item → List Item
  | [] => []
  | item :: rest =>
      if key item ∈ seen then unseen seen rest else item :: unseen (key item :: seen) rest

/-- What is shown of some batches. -/
def stream (seen : List Key) : List (List Item) → List Item
  | [] => []
  | batch :: rest => unseen key seen batch ++ stream (batch.map key ++ seen) rest

variable {key} {seen : List Key} {items batch : List Item} {batches : List (List Item)}
  {item : Item}

theorem unseen_sublist : (unseen key seen items).Sublist items := by
  induction items generalizing seen with
  | nil => exact List.Sublist.refl _
  | cons first rest inductionHypothesis =>
      rw [unseen]
      split
      next => exact inductionHypothesis.cons _
      next => exact inductionHypothesis.cons_cons _

theorem key_not_mem_of_unseen (member : item ∈ unseen key seen items) : key item ∉ seen := by
  induction items generalizing seen with
  | nil => cases member
  | cons first rest inductionHypothesis =>
      rw [unseen] at member
      split at member
      next => exact inductionHypothesis member
      next new =>
        rcases List.mem_cons.mp member with rfl | later
        · exact new
        · exact fun old => inductionHypothesis later (List.mem_cons_of_mem _ old)

theorem nodup_unseen : ((unseen key seen items).map key).Nodup := by
  induction items generalizing seen with
  | nil => exact List.nodup_nil
  | cons first rest inductionHypothesis =>
      rw [unseen]
      split
      next => exact inductionHypothesis
      next =>
        refine List.nodup_cons.mpr ⟨?_, inductionHypothesis⟩
        intro again
        obtain ⟨item, later, same⟩ := List.mem_map.mp again
        exact key_not_mem_of_unseen later (same ▸ List.mem_cons_self)

/-- What is not shown has a key that was shown or seen. -/
theorem shown_of_mem (member : item ∈ items) (new : key item ∉ seen) :
    ∃ shown ∈ unseen key seen items, key shown = key item := by
  induction items generalizing seen with
  | nil => cases member
  | cons first rest inductionHypothesis =>
      rw [unseen]
      by_cases same : key first = key item
      · rw [if_neg (same ▸ new)]
        exact ⟨first, List.mem_cons_self, same⟩
      · have later : item ∈ rest := by
          rcases List.mem_cons.mp member with rfl | later
          · exact absurd rfl same
          · exact later
        split
        next => exact inductionHypothesis later new
        next =>
          have stillNew : key item ∉ key first :: seen := by simpa [new] using Ne.symm same
          obtain ⟨shown, inRest, sameKey⟩ := inductionHypothesis later stillNew
          exact ⟨shown, List.mem_cons_of_mem _ inRest, sameKey⟩

theorem mem_of_stream (member : item ∈ stream key seen batches) :
    key item ∉ seen ∧ ∃ batch ∈ batches, item ∈ batch := by
  induction batches generalizing seen with
  | nil => cases member
  | cons batch rest inductionHypothesis =>
      rcases List.mem_append.mp member with first | later
      · exact ⟨key_not_mem_of_unseen first, batch, List.mem_cons_self, unseen_sublist.subset first⟩
      · obtain ⟨new, other, inRest, inside⟩ := inductionHypothesis later
        refine ⟨fun old => new (List.mem_append_right _ old), other, ?_, inside⟩
        exact List.mem_cons_of_mem _ inRest

theorem not_mem_of_stream_later (member : item ∈ stream key (batch.map key ++ seen) batches) :
    ∀ earlier ∈ batch, key earlier ≠ key item := by
  intro earlier inBatch same
  exact (mem_of_stream member).1
    (List.mem_append_left _ (List.mem_map.mpr ⟨earlier, inBatch, same⟩))

/-- Nothing is shown twice. -/
theorem nodup_stream : ((stream key seen batches).map key).Nodup := by
  induction batches generalizing seen with
  | nil => exact List.nodup_nil
  | cons batch rest inductionHypothesis =>
      rw [stream, List.map_append, List.nodup_append]
      refine ⟨nodup_unseen, inductionHypothesis, ?_⟩
      intro first inFirst later inLater same
      obtain ⟨earlier, shown, rfl⟩ := List.mem_map.mp inFirst
      obtain ⟨item, after, rfl⟩ := List.mem_map.mp inLater
      exact not_mem_of_stream_later after earlier (unseen_sublist.subset shown) same

/-- Every key of a batch that was not seen before is shown. -/
theorem shown_of_mem_batch (inBatches : batch ∈ batches) (member : item ∈ batch)
    (new : key item ∉ seen) : ∃ shown ∈ stream key seen batches, key shown = key item := by
  induction batches generalizing seen with
  | nil => cases inBatches
  | cons first rest inductionHypothesis =>
      rw [stream]
      by_cases already : key item ∈ first.map key
      · obtain ⟨other, inFirst, same⟩ := List.mem_map.mp already
        obtain ⟨shown, isShown, sameKey⟩ := shown_of_mem inFirst (same ▸ new)
        exact ⟨shown, List.mem_append_left _ isShown, sameKey.trans same⟩
      · have later : batch ∈ rest := by
          rcases List.mem_cons.mp inBatches with rfl | later
          · exact absurd (List.mem_map_of_mem member) already
          · exact later
        have stillNew : key item ∉ first.map key ++ seen := by simp [already, new]
        obtain ⟨shown, isShown, sameKey⟩ := inductionHypothesis later stillNew
        exact ⟨shown, List.mem_append_right _ isShown, sameKey⟩

/-- What is shown is in order when every batch is, and what a batch does not know comes after it. -/
theorem pairwise_stream {before : Item → Item → Prop}
    (within : ∀ batch ∈ batches, batch.Pairwise before)
    (across : batches.Pairwise fun earlier later => ∀ item ∈ later,
      (∀ known ∈ earlier, key known ≠ key item) → ∀ first ∈ earlier, before first item) :
    (stream key seen batches).Pairwise before := by
  induction batches generalizing seen with
  | nil => exact List.Pairwise.nil
  | cons batch rest inductionHypothesis =>
      obtain ⟨toRest, amongRest⟩ := List.pairwise_cons.mp across
      rw [stream, List.pairwise_append]
      refine ⟨(within batch List.mem_cons_self).sublist unseen_sublist,
        inductionHypothesis (fun other inRest => within other (List.mem_cons_of_mem _ inRest))
          amongRest, ?_⟩
      intro first shown item later
      obtain ⟨_, other, inRest, inside⟩ := mem_of_stream later
      exact toRest other inRest item inside (not_mem_of_stream_later later) first
        (unseen_sublist.subset shown)

end Stream

end Relational
