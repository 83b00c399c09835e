import Mathlib.Data.List.Induction

/-!
# Runs of an executable transition system

A system is given by a partial step function: `step state action = none` says
that the action is not enabled.  `run` executes a whole schedule, so a schedule
found by hand can be replayed by the kernel, and every safety statement about a
schedule reduces to one preservation lemma about `step`.

`Meets` restricts a schedule to steps that satisfy a condition on the state
they start from; `run_invariant_of_meets` is the corresponding induction rule,
`run_invariant_of_history` the one for what depends on the steps taken so far,
`always_iff_meets` the one for a condition that is also necessary,
`count_add_le_of_meets` the one for how often something happens, and
`exists_step_of_run` finds the step that brought something about.
-/

namespace Transition

universe u v

variable {State : Type u} {Action : Type v}

/-- Execute the actions from left to right, stopping at one that is not enabled. -/
def run (step : State → Action → Option State) : State → List Action → Option State
  | state, [] => some state
  | state, action :: rest => (step state action).bind fun next => run step next rest

variable {step : State → Action → Option State}

@[simp]
theorem run_nil (state : State) : run step state [] = some state := rfl

theorem run_cons_eq_some_iff
    {state last : State} {action : Action} {rest : List Action} :
    run step state (action :: rest) = some last ↔
      ∃ next, step state action = some next ∧ run step next rest = some last := by
  simp [run, Option.bind_eq_some_iff]

theorem exists_run (total : ∀ state action, ∃ next, step state action = some next)
    (state : State) (actions : List Action) : ∃ last, run step state actions = some last := by
  induction actions generalizing state with
  | nil => exact ⟨state, rfl⟩
  | cons action rest inductionHypothesis =>
      obtain ⟨next, stepped⟩ := total state action
      obtain ⟨last, reached⟩ := inductionHypothesis next
      exact ⟨last, run_cons_eq_some_iff.mpr ⟨next, stepped, reached⟩⟩

/-- Every step of the schedule starts in a state that satisfies `condition`. -/
def Meets (step : State → Action → Option State)
    (condition : State → Action → Prop) : State → List Action → Prop
  | _, [] => True
  | state, action :: rest =>
      condition state action ∧
        ∀ next, step state action = some next → Meets step condition next rest

instance decidableMeets {condition : State → Action → Prop}
    [∀ state action, Decidable (condition state action)] :
    (state : State) → (actions : List Action) → Decidable (Meets step condition state actions)
  | _, [] => isTrue trivial
  | state, action :: rest =>
      match enabled : step state action with
      | none => decidable_of_iff (condition state action) (by simp [Meets, enabled])
      | some next =>
          have : Decidable (Meets step condition next rest) := decidableMeets next rest
          decidable_of_iff (condition state action ∧ Meets step condition next rest)
            (by simp [Meets, enabled])

theorem meets_append {condition : State → Action → Prop}
    {state middle : State} {first second : List Action}
    (reached : run step state first = some middle)
    (meets : Meets step condition state (first ++ second)) :
    Meets step condition state first ∧ Meets step condition middle second := by
  induction first generalizing state with
  | nil =>
      simp only [run_nil, Option.some.injEq] at reached
      subst middle
      exact ⟨trivial, meets⟩
  | cons action rest inductionHypothesis =>
      obtain ⟨next, stepped, later⟩ := run_cons_eq_some_iff.mp reached
      have split := inductionHypothesis later (meets.2 next stepped)
      refine ⟨⟨meets.1, ?_⟩, split.2⟩
      intro other steppedOther
      rw [stepped] at steppedOther
      cases steppedOther
      exact split.1

/-- The induction rule for schedules whose steps all meet a condition. -/
theorem run_invariant_of_meets {condition : State → Action → Prop}
    (invariant : State → Prop)
    (preserved : ∀ state action next, condition state action → invariant state →
      step state action = some next → invariant next)
    {state last : State} {actions : List Action}
    (meets : Meets step condition state actions)
    (initially : invariant state)
    (reached : run step state actions = some last) :
    invariant last := by
  induction actions generalizing state with
  | nil =>
      simp only [run_nil, Option.some.injEq] at reached
      subst last
      exact initially
  | cons action rest inductionHypothesis =>
      obtain ⟨next, stepped, later⟩ := run_cons_eq_some_iff.mp reached
      exact inductionHypothesis (meets.2 next stepped)
        (preserved state action next meets.1 initially stepped) later

theorem exists_run_of_append {state last : State} {first second : List Action}
    (reached : run step state (first ++ second) = some last) :
    ∃ middle, run step state first = some middle ∧ run step middle second = some last := by
  induction first generalizing state with
  | nil => exact ⟨state, rfl, reached⟩
  | cons action rest inductionHypothesis =>
      obtain ⟨next, stepped, later⟩ := run_cons_eq_some_iff.mp reached
      obtain ⟨middle, earlier, after⟩ := inductionHypothesis later
      exact ⟨middle, run_cons_eq_some_iff.mpr ⟨next, stepped, earlier⟩, after⟩

/-- The induction rule for what depends on the steps taken so far. -/
theorem run_invariant_of_history {condition : State → Action → Prop} {start last : State}
    {actions : List Action} (invariant : List Action → State → Prop)
    (preserved : ∀ taken state action next, run step start taken = some state →
      condition state action → invariant taken state → step state action = some next →
      invariant (taken ++ [action]) next)
    (meets : Meets step condition start actions) (initially : invariant [] start)
    (reached : run step start actions = some last) : invariant actions last := by
  induction actions using List.reverseRecOn generalizing last with
  | nil =>
      simp only [run_nil, Option.some.injEq] at reached
      subst last
      exact initially
  | append_singleton taken action inductionHypothesis =>
      obtain ⟨middle, earlier, later⟩ := exists_run_of_append reached
      obtain ⟨next, stepped, finished⟩ := run_cons_eq_some_iff.mp later
      simp only [run_nil, Option.some.injEq] at finished
      subst next
      have conditions := meets_append earlier meets
      exact preserved taken middle action last earlier conditions.2.1
        (inductionHypothesis conditions.1 earlier) stepped

/-- A condition may use what the condition of the schedule keeps up. -/
theorem Meets.of_invariant {condition weaker : State → Action → Prop} (invariant : State → Prop)
    (preserved : ∀ state action next, condition state action → invariant state →
      step state action = some next → invariant next)
    (implied : ∀ state action, condition state action → invariant state → weaker state action)
    {state : State} {actions : List Action} (meets : Meets step condition state actions)
    (initially : invariant state) : Meets step weaker state actions := by
  induction actions generalizing state with
  | nil => trivial
  | cons action rest inductionHypothesis =>
      refine ⟨implied state action meets.1 initially, ?_⟩
      intro next stepped
      exact inductionHypothesis (meets.2 next stepped)
        (preserved state action next meets.1 initially stepped)

theorem meets_of_forall {condition : State → Action → Prop}
    {actions : List Action}
    (holds : ∀ action ∈ actions, ∀ state, condition state action)
    (state : State) : Meets step condition state actions := by
  induction actions generalizing state with
  | nil => trivial
  | cons action rest inductionHypothesis =>
      refine ⟨holds action (by simp) state, ?_⟩
      intro next _
      exact inductionHypothesis
        (fun later membership => holds later (by simp [membership])) next

theorem Meets.and {condition : State → Action → Prop} {allowed : Action → Prop}
    {state : State} {actions : List Action} (meets : Meets step condition state actions)
    (holds : ∀ action ∈ actions, allowed action) :
    Meets step (fun state action => condition state action ∧ allowed action) state actions := by
  induction actions generalizing state with
  | nil => trivial
  | cons action rest inductionHypothesis =>
      refine ⟨⟨meets.1, holds action (by simp)⟩, ?_⟩
      intro next stepped
      exact inductionHypothesis (meets.2 next stepped)
        (fun later membership => holds later (by simp [membership]))

/-- The unconditional induction rule: what every step preserves, every run preserves. -/
theorem run_invariant (invariant : State → Prop)
    (preserved : ∀ state action next, invariant state →
      step state action = some next → invariant next)
    {state last : State} {actions : List Action}
    (initially : invariant state)
    (reached : run step state actions = some last) :
    invariant last := by
  have unrestricted : Meets step (fun _ _ => True) state actions :=
    meets_of_forall (fun _ _ _ => trivial) state
  exact run_invariant_of_meets invariant
    (fun state action next _ => preserved state action next) unrestricted initially reached

/-- The property holds in every state the schedule goes through. -/
def Always (step : State → Action → Option State) (property : State → Prop) :
    State → List Action → Prop
  | state, [] => property state
  | state, action :: rest =>
      property state ∧ ∀ next, step state action = some next → Always step property next rest

theorem Always.initially {property : State → Prop} {state : State} {actions : List Action}
    (always : Always step property state actions) : property state := by
  cases actions with
  | nil => exact always
  | cons action rest => exact always.1

/-- A condition that is exact for one step is exact for a whole run. -/
theorem always_iff_meets {condition : State → Action → Prop} (invariant property : State → Prop)
    (preserved : ∀ state action next, invariant state → step state action = some next →
      invariant next)
    (exact : ∀ state action next, invariant state → property state →
      step state action = some next → (property next ↔ condition state action))
    {state last : State} {actions : List Action} (sound : invariant state)
    (initially : property state) (reached : run step state actions = some last) :
    Always step property state actions ↔ Meets step condition state actions := by
  induction actions generalizing state with
  | nil => exact iff_of_true initially trivial
  | cons action rest inductionHypothesis =>
      obtain ⟨next, stepped, later⟩ := run_cons_eq_some_iff.mp reached
      have soundNext := preserved state action next sound stepped
      have exactHere := exact state action next sound initially stepped
      constructor
      · rintro ⟨_, always⟩
        have holds := (always next stepped).initially
        refine ⟨exactHere.mp holds, ?_⟩
        intro other steppedOther
        cases stepped.symm.trans steppedOther
        exact (inductionHypothesis soundNext holds later).mp (always next stepped)
      · rintro ⟨holds, meets⟩
        refine ⟨initially, ?_⟩
        intro other steppedOther
        cases stepped.symm.trans steppedOther
        exact (inductionHypothesis soundNext (exactHere.mpr holds) later).mpr (meets next stepped)

/-- How often a counted action is executed. -/
def count (step : State → Action → Option State) (counted : State → Action → Bool) :
    State → List Action → Nat
  | _, [] => 0
  | state, action :: rest =>
      match step state action with
      | none => 0
      | some next => (if counted state action then 1 else 0) + count step counted next rest

/-- What every counted action raises, and an invariant bounds, bounds the count. -/
theorem count_add_le_of_meets {condition : State → Action → Prop}
    {counted : State → Action → Bool} (invariant : State → Prop) (level : State → Nat)
    {bound : Nat}
    (preserved : ∀ state action next, condition state action → invariant state →
      step state action = some next → invariant next ∧
        (if counted state action then 1 else 0) + level state ≤ level next)
    (bounded : ∀ state, invariant state → level state ≤ bound)
    {state : State} {actions : List Action}
    (meets : Meets step condition state actions) (initially : invariant state) :
    count step counted state actions + level state ≤ bound := by
  induction actions generalizing state with
  | nil => simpa [count] using bounded state initially
  | cons action rest inductionHypothesis =>
      cases enabled : step state action with
      | none => simpa [count, enabled] using bounded state initially
      | some next =>
          obtain ⟨later, raised⟩ := preserved state action next meets.1 initially enabled
          have remaining := inductionHypothesis (meets.2 next enabled) later
          simp only [count, enabled]
          omega

/-- What a run brings about, one of its steps brings about. -/
theorem exists_step_of_run (property : State → Prop) {state last : State}
    {actions : List Action} (reached : run step state actions = some last)
    (initially : ¬ property state) (brought : property last) :
    ∃ before action after middle next, actions = before ++ action :: after ∧
      run step state before = some middle ∧ step middle action = some next ∧
      run step next after = some last ∧ ¬ property middle ∧ property next := by
  induction actions generalizing state with
  | nil =>
      simp only [run_nil, Option.some.injEq] at reached
      subst last
      exact absurd brought initially
  | cons action rest inductionHypothesis =>
      obtain ⟨next, stepped, later⟩ := run_cons_eq_some_iff.mp reached
      by_cases already : property next
      · exact ⟨[], action, rest, state, next, rfl, rfl, stepped, later, initially, already⟩
      · obtain ⟨before, cause, after, middle, effect, split, earlier, caused⟩ :=
          inductionHypothesis later already
        refine ⟨action :: before, cause, after, middle, effect, ?_, ?_, caused⟩
        · rw [split, List.cons_append]
        · exact run_cons_eq_some_iff.mpr ⟨next, stepped, earlier⟩

end Transition
