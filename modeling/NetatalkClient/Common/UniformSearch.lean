import Mathlib
/-!
# Uniform binary search

A search that keeps one index and moves it by a fixed list of distances,
up or down as the key at the index is too small or too large. What it
finds has the key it looked for, wherever it started. It finds every key
of an increasing table if the distances reach: none is larger by more than
one than those after it together, and the last is zero.
-/

namespace UniformSearch

variable {α : Type*} [LinearOrder α]

/-- The index with the key `needle`, starting at `i`. -/
def search (key : ℕ → α) (needle : α) : List ℕ → ℕ → Option ℕ
  | [], _ => none
  | d :: ds, i =>
      if needle < key i then search key needle ds (i - d)
      else if key i < needle then search key needle ds (i + d)
      else some i

/-- The distances leave no gap and end with a comparison. -/
def Reaching : List ℕ → Prop
  | [] => False
  | d :: ds => if ds = [] then d = 0 else d ≤ ds.sum + 1 ∧ Reaching ds

instance : ∀ ds, Decidable (Reaching ds)
  | [] => inferInstanceAs (Decidable False)
  | d :: ds =>
    have := instDecidableReaching ds
    inferInstanceAs (Decidable (if ds = [] then d = 0 else d ≤ ds.sum + 1 ∧ Reaching ds))

variable {key : ℕ → α} {needle : α} {ds : List ℕ} {i k : ℕ}

/-- What is found has the key, and lies no further than the distances
together. -/
theorem key_of_search (h : search key needle ds i = some k) :
    key k = needle ∧ i ≤ k + ds.sum ∧ k ≤ i + ds.sum := by
  induction ds generalizing i with
  | nil => cases h
  | cons d ds ih =>
    rw [List.sum_cons]
    unfold search at h
    split at h
    · obtain ⟨hkey, hlow, hhigh⟩ := ih h
      exact ⟨hkey, by omega, by omega⟩
    · next hle =>
      split at h
      · obtain ⟨hkey, hlow, hhigh⟩ := ih h
        exact ⟨hkey, by omega, by omega⟩
      · next hge =>
        cases h
        exact ⟨le_antisymm (not_lt.mp hle) (not_lt.mp hge), by omega, by omega⟩

/-- **Every key is found** that lies no further than the distances
together, in a table that increases as far as the index can go. -/
theorem search_key {lo hi : ℕ} (hmono : StrictMonoOn key (Set.Icc lo hi)) (hds : Reaching ds)
    (hk : k ∈ Set.Icc lo hi) (hlow : lo + ds.sum ≤ i) (hhigh : i + ds.sum ≤ hi)
    (hik : i ≤ k + ds.sum) (hki : k ≤ i + ds.sum) : search key (key k) ds i = some k := by
  induction ds generalizing i with
  | nil => exact hds.elim
  | cons d ds ih =>
    rw [List.sum_cons] at hlow hhigh hik hki
    have hi : i ∈ Set.Icc lo hi := ⟨by omega, by omega⟩
    -- past the last distance the index is where the key is
    have hlast : ds = [] → d = 0 := fun hnil => by
      rw [Reaching, if_pos hnil] at hds
      exact hds
    have hrest : ds ≠ [] → d ≤ ds.sum + 1 ∧ Reaching ds := fun hne => by
      rw [Reaching, if_neg hne] at hds
      exact hds
    rcases lt_trichotomy k i with hlt | rfl | hgt
    · have hne : ds ≠ [] := by
        intro hnil
        have hd := hlast hnil
        rw [hnil, List.sum_nil] at hik
        omega
      obtain ⟨hd, hreach⟩ := hrest hne
      rw [search, if_pos (hmono hk hi hlt)]
      exact ih hreach (by omega) (by omega) (by omega) (by omega)
    · rw [search, if_neg (lt_irrefl _), if_neg (lt_irrefl _)]
    · have hne : ds ≠ [] := by
        intro hnil
        have hd := hlast hnil
        rw [hnil, List.sum_nil] at hki
        omega
      obtain ⟨hd, hreach⟩ := hrest hne
      have hkey := hmono hi hk hgt
      rw [search, if_neg (lt_asymm hkey), if_pos hkey]
      exact ih hreach (by omega) (by omega) (by omega) (by omega)

end UniformSearch
