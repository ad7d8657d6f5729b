import Mathlib

/-!
# Runs with a log

A run takes labelled steps and keeps the labels, the latest last.  A property of logs and
states that every step keeps holds of every run, and a run can be cut at any of its labels.
-/

set_option autoImplicit false

namespace EthgasReth.Lib

universe u v

/-- A run from `start` that has taken the steps of `log`. -/
inductive Trace {State : Type u} {Label : Type v} (step : State → Label → State → Prop)
    (start : State) : List Label → State → Prop
  | nil : Trace step start [] start
  | snoc {log : List Label} {state next : State} {label : Label}
      (run : Trace step start log state) (taken : step state label next) :
      Trace step start (log ++ [label]) next

namespace Trace

variable {State : Type u} {Label : Type v} {step : State → Label → State → Prop} {start : State}

/-- The invariant rule. -/
theorem invariant {Inv : List Label → State → Prop} (base : Inv [] start)
    (kept : ∀ log state label next, Trace step start log state → Inv log state →
      step state label next → Inv (log ++ [label]) next)
    {log : List Label} {state : State} (run : Trace step start log state) : Inv log state := by
  induction run with
  | nil => exact base
  | snoc run taken ih => exact kept _ _ _ _ run ih taken

theorem of_append {before after : List Label} {state : State}
    (run : Trace step start (before ++ after) state) :
    ∃ middle, Trace step start before middle := by
  induction after using List.reverseRecOn generalizing state with
  | nil => exact ⟨state, by simpa using run⟩
  | append_singleton after label ih =>
      rw [← List.append_assoc] at run
      generalize isLog : before ++ after ++ [label] = log at run
      cases run with
      | nil => simp at isLog
      | snoc earlier taken =>
          obtain ⟨sameLog, -⟩ := List.append_inj' isLog rfl
          subst sameLog
          exact ih earlier

/-- The step that a label in the log stands for. -/
theorem cut {before after : List Label} {label : Label} {state : State}
    (run : Trace step start (before ++ label :: after) state) :
    ∃ state next, Trace step start before state ∧ step state label next := by
  have whole : before ++ label :: after = (before ++ [label]) ++ after := by simp
  rw [whole] at run
  obtain ⟨middle, reached⟩ := of_append run
  generalize isLog : before ++ [label] = log at reached
  cases reached with
  | nil => simp at isLog
  | snoc earlier taken =>
      obtain ⟨sameLog, sameLabel⟩ := List.append_inj' isLog rfl
      cases sameLabel
      subst sameLog
      exact ⟨_, _, earlier, taken⟩

end Trace

end EthgasReth.Lib
