import Mathlib.Order.Nat
import Picroom.Transition.Run

/-!
# Infinite traces

A trace never stops; what it can do only so often it stops doing.  A counted step that raises a
potential below a bound is such a thing (`Trace.eventually_never`).
-/

namespace Transition

universe u v

variable {State : Type u} {Action : Type v}

structure Trace (step : State → Action → Option State) where
  state : Nat → State
  action : Nat → Action
  steps : ∀ time, step (state time) (action time) = some (state (time + 1))

namespace Trace

variable {step : State → Action → Option State} (trace : Trace step)

/-- The induction rule for traces, from any time on. -/
theorem invariant_from (invariant : State → Prop) {start : Nat}
    (preserved : ∀ time, start ≤ time → invariant (trace.state time) →
      invariant (trace.state (time + 1)))
    (initially : invariant (trace.state start)) {time : Nat} (later : start ≤ time) :
    invariant (trace.state time) := by
  induction time, later using Nat.le_induction with
  | base => exact initially
  | succ time after inductionHypothesis => exact preserved time after inductionHypothesis

/-- Finitely many things that each stop have stopped together. -/
theorem eventually_all_never {Item : Type*} (items : List Item)
    (happens : Item → State → Action → Prop)
    (stops : ∀ item ∈ items, ∃ quiet, ∀ time, quiet ≤ time →
      ¬ happens item (trace.state time) (trace.action time)) :
    ∃ quiet, ∀ time, quiet ≤ time → ∀ item ∈ items,
      ¬ happens item (trace.state time) (trace.action time) := by
  induction items with
  | nil => exact ⟨0, fun _ _ item member => by cases member⟩
  | cons first rest inductionHypothesis =>
      obtain ⟨early, never⟩ := stops first List.mem_cons_self
      obtain ⟨late, others⟩ :=
        inductionHypothesis fun item member => stops item (List.mem_cons_of_mem first member)
      refine ⟨max early late, ?_⟩
      intro time after item member
      rcases List.mem_cons.mp member with rfl | inRest
      · exact never time ((le_max_left early late).trans after)
      · exact others time ((le_max_right early late).trans after) item inRest

section Potential

variable {trace} {potential : State → Nat → Prop} {counted : State → Action → Prop} {bound : Nat}

/-- A potential that no step lowers is at least as high at every later time. -/
theorem potential_from
    (raised : ∀ time level, potential (trace.state time) level →
      ∃ higher, potential (trace.state (time + 1)) higher ∧ level ≤ higher ∧
        (counted (trace.state time) (trace.action time) → level < higher))
    {start level : Nat} (initially : potential (trace.state start) level) {time : Nat}
    (later : start ≤ time) :
    ∃ higher, potential (trace.state time) higher ∧ level ≤ higher := by
  induction time, later using Nat.le_induction with
  | base => exact ⟨level, initially, le_rfl⟩
  | succ time after inductionHypothesis =>
      obtain ⟨middle, reached, low⟩ := inductionHypothesis
      obtain ⟨higher, next, kept, _⟩ := raised time middle reached
      exact ⟨higher, next, low.trans kept⟩

/-- What raises a bounded potential happens finitely often. -/
theorem eventually_never (potential : State → Nat → Prop)
    (raised : ∀ time level, potential (trace.state time) level →
      ∃ higher, potential (trace.state (time + 1)) higher ∧ level ≤ higher ∧
        (counted (trace.state time) (trace.action time) → level < higher))
    (bounded : ∀ state level, potential state level → level ≤ bound)
    {start level : Nat} (initially : potential (trace.state start) level) :
    ∃ quiet, ∀ time, quiet ≤ time → ¬ counted (trace.state time) (trace.action time) := by
  -- each further counted step leaves less room below the bound
  induction room : bound - level using Nat.strongRecOn generalizing start level with
  | ind room inductionHypothesis =>
      by_cases again : ∃ time, start ≤ time ∧ counted (trace.state time) (trace.action time)
      · obtain ⟨time, after, happens⟩ := again
        obtain ⟨middle, reached, low⟩ := potential_from raised initially after
        obtain ⟨higher, next, _, strict⟩ := raised time middle reached
        have above := strict happens
        have below := bounded _ _ next
        exact inductionHypothesis (bound - higher) (by omega) next rfl
      · refine ⟨start, ?_⟩
        intro time after happens
        exact again ⟨time, after, happens⟩

end Potential

end Trace

end Transition
