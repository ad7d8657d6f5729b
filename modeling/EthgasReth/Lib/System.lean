import Mathlib

/-!
# Transition systems and their reachable states

A system is a set of initial states and a step relation.  Safety is proved by
one rule: a predicate that holds initially and is kept by every step taken from
a reachable state holds in every reachable state.  What happened earlier in the run is
said with `Once`, which every later step keeps.  Where a state has one next state at most,
what one run reaches at its end every run reaches.
-/

set_option autoImplicit false

namespace EthgasReth.Lib

universe u

structure System (State : Type u) where
  Init : State → Prop
  Step : State → State → Prop

namespace System

variable {State : Type u}

inductive Reachable (system : System State) : State → Prop
  | init {state : State} (initial : system.Init state) : Reachable system state
  | step {state next : State} (reached : Reachable system state)
      (taken : system.Step state next) : Reachable system next

/-- The invariant rule.  The step premise may use that its source is reachable,
so an invariant can rest on one proved before it. -/
theorem Reachable.invariant {system : System State} {Inv : State → Prop}
    (base : ∀ state, system.Init state → Inv state)
    (kept : ∀ state next, system.Reachable state → Inv state →
      system.Step state next → Inv next)
    {state : State} (reached : system.Reachable state) : Inv state := by
  induction reached with
  | init initial => exact base _ initial
  | step reached taken ih => exact kept _ _ reached ih taken

theorem Reachable.steps {system : System State} {state next : State}
    (reached : system.Reachable state) (leads : Relation.ReflTransGen system.Step state next) :
    system.Reachable next := by
  induction leads with
  | refl => exact reached
  | tail _ taken ih => exact .step ih taken

/-- In some state of the run up to here. -/
def Once (system : System State) (P : State → Prop) (state : State) : Prop :=
  ∃ earlier, system.Reachable earlier ∧ P earlier ∧
    Relation.ReflTransGen system.Step earlier state

section Once

variable {system : System State} {P Q : State → Prop} {state next : State}

theorem Once.now (reached : system.Reachable state) (holds : P state) : system.Once P state :=
  ⟨state, reached, holds, .refl⟩

theorem Once.step (once : system.Once P state) (taken : system.Step state next) :
    system.Once P next := by
  obtain ⟨earlier, reached, holds, leads⟩ := once
  exact ⟨earlier, reached, holds, leads.tail taken⟩

theorem Once.imp (implies : ∀ state, P state → Q state) (once : system.Once P state) :
    system.Once Q state := by
  obtain ⟨earlier, reached, holds, leads⟩ := once
  exact ⟨earlier, reached, implies earlier holds, leads⟩

end Once

end System

/-! ## Deterministic steps -/

section Deterministic

variable {State : Type u} {step : State → State → Prop} {start last : State}

/-- Every run goes on to the end of one of them. -/
theorem leads_to_end (deterministic : Relator.RightUnique step)
    (leads : Relation.ReflTransGen step start last) (ends : ∀ next, ¬ step last next)
    {state : State} (reached : Relation.ReflTransGen step start state) :
    Relation.ReflTransGen step state last := by
  rcases Relation.ReflTransGen.total_of_right_unique deterministic reached leads with
    onward | beyond
  · exact onward
  · cases Relation.ReflTransGen.cases_head beyond with
    | inl same => rw [same]
    | inr further =>
        obtain ⟨next, taken, -⟩ := further
        exact absurd taken (ends next)

theorem comes_to_rest (deterministic : Relator.RightUnique step)
    (leads : Relation.ReflTransGen step start last) (ends : ∀ next, ¬ step last next)
    (run : Nat → State) (begins : run 0 = start) : ∃ moment, ¬ step (run moment) (run (moment + 1)) := by
  induction leads using Relation.ReflTransGen.head_induction_on generalizing run with
  | refl =>
      refine ⟨0, ?_⟩
      rw [begins]
      exact ends _
  | head taken _ ih =>
      by_cases first : step (run 0) (run 1)
      · rw [begins] at first
        obtain ⟨moment, rests⟩ := ih (fun moment => run (moment + 1)) (deterministic first taken)
        exact ⟨moment + 1, rests⟩
      · exact ⟨0, first⟩

end Deterministic

end EthgasReth.Lib
