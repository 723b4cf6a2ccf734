import Mathlib.Data.Int.Notation
import Mathlib.Tactic.Common
/-!
# Machines: steps, runs and what holds along them

A machine is a step function: an event takes a state to the next one, or
is not possible there. `guarded` restricts a machine to the events a
condition admits, so a result about `Reachable (guarded step ok)` is one
about the runs all of whose steps meet the condition.
-/

namespace Machine

universe u v

variable {S : Type u} {E : Type v} {step : S → E → Option S} {ok : S → E → Prop}
variable {s₀ s s' : S} {e : E}

/-- The states a machine can come to from `s₀`. -/
inductive Reachable (step : S → E → Option S) (s₀ : S) : S → Prop
  | start : Reachable step s₀ s₀
  | next {s s' : S} {e : E} : Reachable step s₀ s → step s e = some s' → Reachable step s₀ s'

/-- The state after a list of events, if each of them was possible. -/
def run (step : S → E → Option S) : S → List E → Option S
  | s, [] => some s
  | s, e :: es => (step s e).bind fun s' => run step s' es

/-- The machine with only the events that `ok` admits. -/
def guarded (step : S → E → Option S) (ok : S → E → Prop) [∀ s e, Decidable (ok s e)] :
    S → E → Option S :=
  fun s e => if ok s e then step s e else none

theorem guarded_eq_some [∀ s e, Decidable (ok s e)] :
    guarded step ok s e = some s' ↔ ok s e ∧ step s e = some s' := by
  unfold guarded
  split <;> simp_all

/-- **The invariant rule.** What holds at the start and is kept by every
step holds in every reachable state. -/
theorem Reachable.invariant {I : S → Prop} (h : Reachable step s₀ s) (h₀ : I s₀)
    (hstep : ∀ {s s' : S} {e : E}, I s → step s e = some s' → I s') : I s := by
  induction h with
  | start => exact h₀
  | next _ hs ih => exact hstep ih hs

theorem Reachable.trans (h : Reachable step s₀ s) (h' : Reachable step s s') :
    Reachable step s₀ s' := by
  induction h' with
  | start => exact h
  | next _ hs ih => exact ih.next hs

/-- A run ends in a reachable state. -/
theorem reachable_of_run {es : List E} (h : run step s es = some s') : Reachable step s s' := by
  induction es generalizing s with
  | nil =>
    cases h
    exact .start
  | cons e es ih =>
    obtain ⟨t, ht, hrun⟩ := Option.bind_eq_some_iff.mp h
    exact (Reachable.start.next ht).trans (ih hrun)

end Machine
