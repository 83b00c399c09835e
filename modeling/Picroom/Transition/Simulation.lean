import Mathlib.Logic.Basic

/-!
# Machines that put out the same

A machine takes inputs and puts something out at each.  Where a view of its states commutes with
every step, one machine puts out what another does, over any sequence of inputs.
-/

namespace Transition

universe u v w z

variable {Concrete : Type u} {Abstract : Type v} {Input : Type w} {Output Shown : Type z}

/-- What a machine puts out, input by input. -/
def outputs (act : Concrete → Input → Concrete × Output) : Concrete → List Input → List Output
  | _, [] => []
  | state, input :: rest => (act state input).2 :: outputs act (act state input).1 rest

/-- A step of the one machine is, as it is viewed and shown, a step of the other. -/
structure Commutes (concrete : Concrete → Input → Concrete × Output)
    (abstract : Abstract → Input → Abstract × Shown) (view : Concrete → Abstract)
    (shown : Output → Shown) (invariant : Concrete → Prop) (input : Input) : Prop where
  kept : ∀ state, invariant state → invariant (concrete state input).1
  viewed : ∀ state, invariant state →
    (view (concrete state input).1, shown (concrete state input).2) = abstract (view state) input

theorem outputs_eq_of_commutes {concrete : Concrete → Input → Concrete × Output}
    {abstract : Abstract → Input → Abstract × Shown} {view : Concrete → Abstract}
    {shown : Output → Shown} {invariant : Concrete → Prop} {inputs : List Input}
    (commutes : ∀ input ∈ inputs, Commutes concrete abstract view shown invariant input)
    {state : Concrete} (initially : invariant state) :
    (outputs concrete state inputs).map shown = outputs abstract (view state) inputs := by
  induction inputs generalizing state with
  | nil => rfl
  | cons input rest inductionHypothesis =>
      have first := commutes input List.mem_cons_self
      have later := fun other member => commutes other (List.mem_cons_of_mem input member)
      rw [outputs, outputs, ← first.viewed state initially, List.map_cons,
        inductionHypothesis later (first.kept state initially)]

end Transition
