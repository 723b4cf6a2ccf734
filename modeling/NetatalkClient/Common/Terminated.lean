import Mathlib.Data.List.TakeWhile
/-!
# Terminated lists

Pieces with a terminator behind each, as lists of C strings are laid out
in memory. The first piece is what comes before the first terminator.
-/

namespace Terminated

universe u

variable {α : Type u} {stop : α} {c rest : List α} {cs ds : List (List α)}

/-- Every piece, with a terminator behind it. -/
def terminated (stop : α) (cs : List (List α)) : List α := cs.flatMap fun c => c ++ [stop]

@[simp] theorem terminated_nil : terminated stop ([] : List (List α)) = [] := rfl

theorem terminated_cons : terminated stop (c :: cs) = c ++ stop :: terminated stop cs := by
  simp [terminated]

theorem terminated_append :
    terminated stop (cs ++ ds) = terminated stop cs ++ terminated stop ds := by
  simp [terminated]

theorem terminated_concat : terminated stop (cs ++ [c]) = terminated stop cs ++ (c ++ [stop]) := by
  simp [terminated]

theorem terminated_eq_nil : terminated stop cs = [] ↔ cs = [] := by
  cases cs with
  | nil => simp
  | cons c cs => simp [terminated_cons]

/-- What follows the first piece. -/
theorem drop_terminated : (c ++ stop :: rest).drop (c.length + 1) = rest := by
  rw [← List.drop_drop, List.drop_left]
  rfl

variable [DecidableEq α]

/-- The first piece. -/
theorem takeWhile_terminated (hc : stop ∉ c) : (c ++ stop :: rest).takeWhile (· ≠ stop) = c := by
  have hall : ∀ a ∈ c, decide (a ≠ stop) = true := fun a ha =>
    decide_eq_true fun heq => hc (heq ▸ ha)
  rw [List.takeWhile_append_of_pos hall]
  simp

end Terminated
