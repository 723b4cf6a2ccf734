import Mathlib.Data.Int.Notation
import Mathlib.Data.List.TakeWhile
import Mathlib.Tactic.Common
/-!
# Separated lists

A list cut at a separator, and the searches for the first and the last
separator in it. `joined` puts a separator before every piece, as an
absolute path does; `pieces` takes such a list apart again. The searches
are stated on joined lists, so that a program which walks over separators
can be followed piece by piece.
-/

namespace Separated

open List

universe u

variable {α : Type u} {sep : α} {c l : List α} {cs ds : List (List α)}

/-- Every piece, with a separator before it. -/
def joined (sep : α) (cs : List (List α)) : List α := cs.flatMap fun c => sep :: c

/-- No piece holds a separator. -/
def Plain (sep : α) (cs : List (List α)) : Prop := ∀ c ∈ cs, sep ∉ c

/-! ## Joining -/

@[simp] theorem joined_nil : joined sep ([] : List (List α)) = [] := rfl

@[simp] theorem joined_cons : joined sep (c :: cs) = sep :: (c ++ joined sep cs) := by
  simp [joined]

theorem joined_append : joined sep (cs ++ ds) = joined sep cs ++ joined sep ds := by
  simp [joined]

theorem joined_concat : joined sep (cs ++ [c]) = joined sep cs ++ sep :: c := by
  simp [joined_append]

theorem cons_tail_joined : sep :: (joined sep (cs ++ [c])).tail = joined sep (cs ++ [c]) := by
  cases cs with
  | nil => rfl
  | cons d ds => rfl

theorem joined_ne_nil (h : cs ≠ []) : 0 < (joined sep cs).length := by
  cases cs with
  | nil => exact absurd rfl h
  | cons c cs => simp

theorem plain_append : Plain sep (cs ++ ds) ↔ Plain sep cs ∧ Plain sep ds := by
  simp only [Plain, mem_append]
  constructor
  · intro h
    exact ⟨fun c hc => h c (.inl hc), fun c hc => h c (.inr hc)⟩
  · rintro ⟨hcs, hds⟩ c (hc | hc)
    · exact hcs c hc
    · exact hds c hc

theorem Plain.take (h : Plain sep cs) (k : ℕ) : Plain sep (cs.take k) :=
  fun c hc => h c (mem_of_mem_take hc)

theorem Plain.drop (h : Plain sep cs) (k : ℕ) : Plain sep (cs.drop k) :=
  fun c hc => h c (mem_of_mem_drop hc)

/-! ## Taking apart -/

variable [DecidableEq α]

instance : Decidable (Plain sep cs) := inferInstanceAs (Decidable (∀ c ∈ cs, sep ∉ c))

/-- The pieces after each separator; what stands before the first is
left out. -/
def pieces (sep : α) : List α → List (List α)
  | [] => []
  | a :: l => if a = sep then l.takeWhile (· ≠ sep) :: pieces sep l else pieces sep l

/-- The offset of the first separator. -/
def firstIdx? (sep : α) : List α → Option ℕ
  | [] => none
  | a :: l => if a = sep then some 0 else (firstIdx? sep l).map (· + 1)

/-- The offset of the last separator. -/
def lastIdx? (sep : α) : List α → Option ℕ
  | [] => none
  | a :: l =>
      match lastIdx? sep l with
      | some i => some (i + 1)
      | none => if a = sep then some 0 else none

theorem pieces_append (hc : sep ∉ c) : pieces sep (c ++ l) = pieces sep l := by
  induction c with
  | nil => rfl
  | cons a c ih =>
    obtain ⟨ha, hc⟩ := not_or.mp (fun h => hc (mem_cons.mpr h))
    rw [cons_append, pieces, if_neg (Ne.symm ha), ih hc]

theorem takeWhile_piece (hc : sep ∉ c) : (c ++ joined sep cs).takeWhile (· ≠ sep) = c := by
  have hall : ∀ a ∈ c, decide (a ≠ sep) = true := fun a ha =>
    decide_eq_true fun heq => hc (heq ▸ ha)
  rw [takeWhile_append_of_pos hall]
  cases cs with
  | nil => simp
  | cons d ds => simp

theorem pieces_joined (h : Plain sep cs) : pieces sep (joined sep cs) = cs := by
  induction cs with
  | nil => rfl
  | cons c cs ih =>
    have hc : sep ∉ c := h c mem_cons_self
    have hcs : Plain sep cs := fun d hd => h d (mem_cons_of_mem c hd)
    rw [joined_cons, pieces, if_pos rfl, takeWhile_piece hc, pieces_append hc, ih hcs]

/-- Joined again, the pieces give everything from the first separator on. -/
theorem joined_pieces : joined sep (pieces sep l) = l.dropWhile (· ≠ sep) := by
  induction l with
  | nil => rfl
  | cons a l ih =>
    by_cases ha : a = sep
    · rw [pieces, if_pos ha, joined_cons, ih, takeWhile_append_dropWhile]
      simp [ha]
    · rw [pieces, if_neg ha, ih]
      simp [ha]

theorem plain_pieces : Plain sep (pieces sep l) := by
  induction l with
  | nil => exact fun c hc => absurd hc not_mem_nil
  | cons a l ih =>
    intro c hc
    rw [pieces] at hc
    split at hc
    · rcases mem_cons.mp hc with rfl | hc
      · intro hmem
        have hne := mem_takeWhile_imp hmem
        simp at hne
      · exact ih c hc
    · exact ih c hc

/-- A list that starts with a separator is its pieces joined. -/
theorem joined_pieces_of_head (h : l.head? = some sep) : joined sep (pieces sep l) = l := by
  cases l with
  | nil => cases h
  | cons a l =>
    have ha : a = sep := by simpa using h
    rw [joined_pieces]
    simp [ha]

/-! ## Searching -/

theorem firstIdx?_eq_none (hc : sep ∉ c) : firstIdx? sep c = none := by
  induction c with
  | nil => rfl
  | cons a c ih =>
    obtain ⟨ha, hc⟩ := not_or.mp (fun h => hc (mem_cons.mpr h))
    rw [firstIdx?, if_neg (Ne.symm ha), ih hc, Option.map_none]

theorem firstIdx?_append (hc : sep ∉ c) : firstIdx? sep (c ++ sep :: l) = some c.length := by
  induction c with
  | nil => simp [firstIdx?]
  | cons a c ih =>
    obtain ⟨ha, hc⟩ := not_or.mp (fun h => hc (mem_cons.mpr h))
    rw [cons_append, firstIdx?, if_neg (Ne.symm ha), ih hc]
    rfl

theorem lastIdx?_eq_none (hc : sep ∉ c) : lastIdx? sep c = none := by
  induction c with
  | nil => rfl
  | cons a c ih =>
    obtain ⟨ha, hc⟩ := not_or.mp (fun h => hc (mem_cons.mpr h))
    simp only [lastIdx?, ih hc]
    exact if_neg (Ne.symm ha)

theorem lastIdx?_append (hc : sep ∉ c) : lastIdx? sep (l ++ sep :: c) = some l.length := by
  induction l with
  | nil => simp [lastIdx?, lastIdx?_eq_none hc]
  | cons a l ih => simp [lastIdx?, ih]

/-- The last separator of a joined list stands before its last piece. -/
theorem lastIdx?_joined (hc : sep ∉ c) :
    lastIdx? sep (joined sep (cs ++ [c])) = some (joined sep cs).length := by
  rw [joined_concat, lastIdx?_append hc]

end Separated
