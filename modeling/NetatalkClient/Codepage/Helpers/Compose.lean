import NetatalkClient.Common.UniformSearch
import NetatalkClient.Codepage.Model.Compose
import NetatalkClient.Codepage.Helpers.Decompose
import Mathlib.Data.List.Nodup
import Mathlib.Data.Nat.Bitwise
/-!
# Code pages: composition against decomposition

The search of `UCS2precompose` is a uniform binary search. What it finds
is an entry of the table, and no two entries have the same precomposed
character, so `UCS2decompose` takes what was composed apart again.
-/

namespace NetatalkClient

open List UniformSearch

variable {a b c : ℕ} {cs : List ℕ} {prev : ℕ}

/-! ## The search -/

theorem precomposeFrom_eq {needle i : ℕ} {ds : List ℕ} (h : 0 ∉ ds.dropLast) :
    precomposeFrom needle ds i = (search patternAt needle ds.tail i).map precomposedAt := by
  induction ds generalizing i with
  | nil => rfl
  | cons d ds ih =>
    cases ds with
    | nil => rfl
    | cons d' ds =>
      rw [dropLast_cons_cons, mem_cons, not_or] at h
      rw [precomposeFrom, if_neg (Ne.symm h.1), tail_cons, search]
      split
      · exact ih h.2
      · split
        · exact ih h.2
        · rfl

theorem ucs2Precompose_eq : ucs2Precompose a b =
    (search patternAt (a <<< 16 ||| b) delta.tail 499).map precomposedAt := by
  rw [ucs2Precompose_def, precomposeFrom_eq (by decide)]

/-! ## The table -/

/-- No two of a list are the same, where `set` has those before. -/
def distinctFrom (set : ℕ) : List ℕ → Bool
  | [] => true
  | c :: cs => !set.testBit c && distinctFrom (set ||| 1 <<< c) cs

theorem distinctFrom_spec {set : ℕ} (h : distinctFrom set cs = true) :
    cs.Nodup ∧ ∀ c ∈ cs, set.testBit c = false := by
  induction cs generalizing set with
  | nil => exact ⟨nodup_nil, fun c hc => absurd hc not_mem_nil⟩
  | cons c cs ih =>
    simp only [distinctFrom, Bool.and_eq_true, Bool.not_eq_true'] at h
    obtain ⟨hnodup, hset⟩ := ih h.2
    simp only [Nat.testBit_or, Bool.or_eq_false_iff, Nat.one_shiftLeft] at hset
    refine ⟨nodup_cons.mpr ⟨fun hmem => ?_, hnodup⟩, ?_⟩
    · have hself := (hset c hmem).2
      rw [Nat.testBit_two_pow_self] at hself
      cases hself
    · intro d hd
      rcases mem_cons.mp hd with rfl | hd
      · exact h.1
      · exact (hset d hd).1

set_option maxRecDepth 10000 in
/-- The entries behind the dummy are of distinct characters of 16 bits, and
in the order of their patterns, which have two halves of 16 bits. -/
theorem table_checked : distinctFrom 0 (table.tail.map Prod.fst) = true ∧
    (table.tail.all fun e => 0 < e.1 && e.1 < 0x10000 && e.2 < 0x100000000) = true ∧
    table.length = 998 ∧ (table.map Prod.snd).IsChain (· < ·) := by
  decide +kernel

theorem range_table {e : ℕ × ℕ} (he : e ∈ table.tail) :
    (0 < e.1 ∧ e.1 < 0x10000) ∧ e.2 < 0x100000000 := by
  simpa using all_eq_true.mp table_checked.2.1 e he

theorem length_table : table.length = 998 := table_checked.2.2.1

/-- The entry that `UCS2decompose` finds for a character is the only one. -/
theorem ucs2Decompose_entry {e : ℕ × ℕ} (he : e ∈ table.tail) :
    ucs2Decompose e.1 = some ((e.2 >>> 16) &&& 0xFFFF, e.2 &&& 0xFFFF) := by
  obtain ⟨e', he'⟩ : ∃ e', table.tail.find? (fun e' => e'.1 = e.1) = some e' := by
    rw [← Option.isSome_iff_exists, find?_isSome]
    exact ⟨e, he, by simp⟩
  have hsame : e'.1 = e.1 := by simpa using find?_some he'
  have heq : e' = e := inj_on_of_nodup_map (distinctFrom_spec table_checked.1).1
    (mem_of_find?_eq_some he') he hsame
  rw [ucs2Decompose, he', heq, Option.map_some]

theorem getD_mem_tail {l : List (ℕ × ℕ)} {k : ℕ} (hk : 0 < k) (hlen : k < l.length) :
    l.getD k (0, 0) ∈ l.tail := by
  cases l with
  | nil => exact absurd hlen (Nat.not_lt_zero k)
  | cons e l =>
    obtain ⟨k, rfl⟩ : ∃ j, k = j + 1 := ⟨k - 1, by omega⟩
    rw [getD_cons_succ, getD_eq_getElem _ _ (Nat.lt_of_succ_lt_succ hlen)]
    exact getElem_mem _

/-! ## A pair -/

theorem pattern_halves (ha : a < 0x10000) (hb : b < 0x10000) :
    ((a <<< 16 ||| b) >>> 16) &&& 0xFFFF = a ∧ (a <<< 16 ||| b) &&& 0xFFFF = b := by
  rw [← Nat.shiftLeft_add_eq_or_of_lt hb, Nat.shiftLeft_eq, Nat.shiftRight_eq_div_pow,
    show 0xFFFF = 2 ^ 16 - 1 by rfl, Nat.and_two_pow_sub_one_eq_mod, Nat.and_two_pow_sub_one_eq_mod]
  omega

/-- **What is composed is taken apart again.** -/
theorem ucs2Decompose_of_precompose (ha : a < 0x10000) (hb : b < 0x10000)
    (h : ucs2Precompose a b = some c) : ucs2Decompose c = some (a, b) ∧ 0 < c ∧ c < 0x10000 := by
  rw [ucs2Precompose_eq, Option.map_eq_some_iff] at h
  obtain ⟨k, hk, rfl⟩ := h
  obtain ⟨hkey, hlow, hhigh⟩ := key_of_search hk
  have hsum : delta.tail.sum = 498 := by decide
  -- the index stays within the entries, past the dummy
  have hmem : table.getD k (0, 0) ∈ table.tail :=
    getD_mem_tail (by omega) (by rw [length_table]; omega)
  have hrow := ucs2Decompose_entry hmem
  rw [show (table.getD k (0, 0)).2 = a <<< 16 ||| b from hkey, (pattern_halves ha hb).1,
    (pattern_halves ha hb).2] at hrow
  exact ⟨hrow, (range_table hmem).1⟩

/-! ## Strings -/

/-- A string composed from the left, where `prev` is what the characters
before came to. -/
def compose (prev : ℕ) : List ℕ → List ℕ
  | [] => [prev]
  | c :: cs =>
      match ucs2Precompose prev c with
      | some comp => compose comp cs
      | none => prev :: compose c cs

/-- A string composed from its first character. -/
def composeAll : List ℕ → List ℕ
  | [] => []
  | c :: cs => compose c cs

/-- The loop from inside, where the string may have ended. -/
def composeRest (ucs2Len prev : ℕ) (p16dec : List ℕ) : List ℕ :=
  if p16dec = [] ∧ ucs2Len < 383 then [prev] else composeLoop ucs2Len prev p16dec

theorem composeRest_cons {ucs2Len : ℕ} (hlen : ucs2Len < 383)
    (hprev : 0 < prev) : composeRest ucs2Len prev (c :: cs) =
      match ucs2Precompose prev c with
      | some comp => composeRest ucs2Len comp cs
      | none => prev :: composeRest (ucs2Len + 1) c cs := by
  rw [composeRest, if_neg (by simp), composeLoop, if_neg (by omega), if_pos hprev]
  rfl

/-- Within its limit the loop composes the string. -/
theorem composeRest_eq {ucs2Len : ℕ} (hprev : 0 < prev ∧ prev < 0x10000)
    (hcs : IsUcs2 cs) (hlen : ucs2Len + cs.length < 383) :
    composeRest ucs2Len prev cs = compose prev cs := by
  induction cs generalizing ucs2Len prev with
  | nil =>
    rw [length_nil] at hlen
    rw [composeRest, if_pos ⟨rfl, by omega⟩, compose]
  | cons c cs ih =>
    obtain ⟨hc, hcs⟩ := isUcs2_cons.mp hcs
    rw [length_cons] at hlen
    rw [composeRest_cons (by omega) hprev.1, compose]
    cases hcomp : ucs2Precompose prev c with
    | some comp => exact ih (ucs2Decompose_of_precompose hprev.2 hc.2 hcomp).2 hcs (by omega)
    | none =>
      have hrest := ih hc hcs (by omega : ucs2Len + 1 + cs.length < 383)
      exact congrArg (prev :: ·) hrest

theorem composeLoop_eq (hcs : IsUcs2 cs) (hlen : cs.length ≤ 383) :
    composeLoop 0 0 cs = composeAll cs := by
  cases cs with
  | nil => rfl
  | cons c cs =>
    obtain ⟨hc, hcs⟩ := isUcs2_cons.mp hcs
    rw [length_cons] at hlen
    exact composeRest_eq hc hcs (by omega)

/-- Composing makes characters of 16 bits, and no more than there were. -/
theorem isUcs2_compose (hprev : 0 < prev ∧ prev < 0x10000)
    (hcs : IsUcs2 cs) : IsUcs2 (compose prev cs) := by
  induction cs generalizing prev with
  | nil => exact isUcs2_cons.mpr ⟨hprev, hcs⟩
  | cons c cs ih =>
    obtain ⟨hc, hcs⟩ := isUcs2_cons.mp hcs
    rw [compose]
    cases hcomp : ucs2Precompose prev c with
    | some comp => exact ih (ucs2Decompose_of_precompose hprev.2 hc.2 hcomp).2 hcs
    | none => exact isUcs2_cons.mpr ⟨hprev, ih hc hcs⟩

theorem compose_ne_nil (prev : ℕ) (cs : List ℕ) : compose prev cs ≠ [] := by
  induction cs generalizing prev with
  | nil => exact cons_ne_nil _ _
  | cons c cs ih =>
    rw [compose]
    split
    · exact ih _
    · exact cons_ne_nil _ _

/-- **Composing is undone by decomposing**, where no character of the
string has a decomposition of its own. -/
theorem decomposesTo_compose {l : List ℕ} (hprev : 0 < prev ∧ prev < 0x10000)
    (hl : Decomposes prev l) (hcs : IsUcs2 cs) (hplain : ∀ c ∈ cs, ucs2Decompose c = none) :
    DecomposesTo (compose prev cs) (l ++ cs) := by
  induction cs generalizing prev l with
  | nil => exact ⟨[l], .cons hl .nil, by simp⟩
  | cons c cs ih =>
    obtain ⟨hc, hcs⟩ := isUcs2_cons.mp hcs
    have hwhole : Decomposes c [c] := .whole (hplain c mem_cons_self)
    have hrest : ∀ d ∈ cs, ucs2Decompose d = none := fun d hd => hplain d (mem_cons_of_mem c hd)
    rw [compose]
    cases hcomp : ucs2Precompose prev c with
    | some comp =>
      obtain ⟨hdec, hcomp'⟩ := ucs2Decompose_of_precompose hprev.2 hc.2 hcomp
      have hparts := ih hcomp' (.parts hdec hl hwhole) hcs hrest
      rwa [append_assoc] at hparts
    | none =>
      obtain ⟨ls, hls, hflat⟩ := ih hc hwhole hcs hrest
      exact ⟨l :: ls, .cons hl hls, by rw [flatten_cons, ← hflat]; rfl⟩

end NetatalkClient
