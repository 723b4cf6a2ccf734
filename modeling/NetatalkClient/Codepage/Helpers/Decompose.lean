import NetatalkClient.Codepage.Helpers.Utf8
/-!
# Code pages: canonical decomposition

`Decomposes` is the decomposition of a character by the table, down to
characters the table does not take apart. `decompose_char` computes it:
its recursion ends because each half of an entry is less deep in the table
than the entry (`depth`). What is needed of the table is checked once, for
all its entries, and with `depth` read off bit sets, so that the check does
not search the table again.
-/

namespace NetatalkClient

open List

variable {c : ℕ} {cs l : List ℕ}

/-! ## Facts of the table -/

/-- A set of characters as a number. -/
def bitSet (cs : List ℕ) : ℕ := cs.foldl (fun set c => set ||| 1 <<< c) 0

/-- The precomposed characters. -/
def composed : ℕ := bitSet (table.tail.map Prod.fst)

/-- Those whose first half is precomposed. -/
def composedTwice : ℕ :=
  bitSet ((table.tail.filter fun e => composed.testBit (e.2 >>> 16)).map Prod.fst)

/-- Those whose first half has a precomposed first half. -/
def composedThrice : ℕ :=
  bitSet ((table.tail.filter fun e => composedTwice.testBit (e.2 >>> 16)).map Prod.fst)

/-- How often a character can be taken apart. -/
def depth (c : ℕ) : ℕ :=
  (composed.testBit c).toNat + (composedTwice.testBit c).toNat + (composedThrice.testBit c).toNat

/-- What is needed of an entry: both halves are characters, less deep
than the whole, and not shorter in UTF-8. -/
def soundEntry (precomposed first second : ℕ) : Bool :=
  depth first < depth precomposed && depth second < depth precomposed && 0 < first && 0 < second &&
    (utf8Char precomposed).length ≤ (utf8Char first).length + (utf8Char second).length

set_option maxRecDepth 10000 in
theorem soundEntry_table : (table.tail.all fun e =>
    soundEntry e.1 ((e.2 >>> 16) &&& 0xFFFF) (e.2 &&& 0xFFFF)) = true := by
  decide +kernel

theorem soundEntry_of_decompose {first second : ℕ} (h : ucs2Decompose c = some (first, second)) :
    soundEntry c first second = true ∧ first < 0x10000 ∧ second < 0x10000 := by
  obtain ⟨e, he, heq⟩ := Option.map_eq_some_iff.mp h
  cases heq
  have hc : e.1 = c := by simpa using find?_some he
  have hsound := all_eq_true.mp soundEntry_table e (mem_of_find?_eq_some he)
  refine ⟨hc ▸ hsound, ?_, ?_⟩
  · exact Nat.lt_of_le_of_lt Nat.and_le_right (by decide)
  · exact Nat.lt_of_le_of_lt Nat.and_le_right (by decide)

theorem depth_le (c : ℕ) : depth c ≤ decomposeDepth := by
  have h₁ := Bool.toNat_le (composed.testBit c)
  have h₂ := Bool.toNat_le (composedTwice.testBit c)
  have h₃ := Bool.toNat_le (composedThrice.testBit c)
  unfold depth decomposeDepth
  omega

/-! ## Decomposition -/

/-- The canonical decomposition of a character, by the table. -/
inductive Decomposes : ℕ → List ℕ → Prop
  | whole {c : ℕ} : ucs2Decompose c = none → Decomposes c [c]
  | parts {c first second : ℕ} {l l' : List ℕ} :
      ucs2Decompose c = some (first, second) → Decomposes first l → Decomposes second l' →
      Decomposes c (l ++ l')

theorem Decomposes.unique (h : Decomposes c l) {l' : List ℕ} (h' : Decomposes c l') : l = l' := by
  induction h generalizing l' with
  | whole hnone =>
    cases h' with
    | whole _ => rfl
    | parts hsome _ _ => cases hnone.symm.trans hsome
  | parts hsome _ _ ih₁ ih₂ =>
    cases h' with
    | whole hnone => cases hnone.symm.trans hsome
    | parts hsome' h₁ h₂ =>
      cases hsome.symm.trans hsome'
      rw [ih₁ h₁, ih₂ h₂]

/-- **The recursion ends.** With as many turns as the character is deep,
it is taken apart completely. -/
theorem decomposes_decomposeChar {n : ℕ} (h : depth c ≤ n) : Decomposes c (decomposeChar n c) := by
  induction n generalizing c with
  | zero =>
    cases hdec : ucs2Decompose c with
    | none => exact .whole hdec
    | some halves =>
      -- the halves of an entry are less deep, so its depth is not zero
      have hsound := (soundEntry_of_decompose hdec).1
      simp only [soundEntry, Bool.and_eq_true, decide_eq_true_eq] at hsound
      omega
  | succ n ih =>
    cases hdec : ucs2Decompose c with
    | none =>
      rw [decomposeChar, hdec]
      exact .whole hdec
    | some halves =>
      have hsound := (soundEntry_of_decompose hdec).1
      simp only [soundEntry, Bool.and_eq_true, decide_eq_true_eq] at hsound
      rw [decomposeChar, hdec]
      exact .parts hdec (ih (by omega)) (ih (by omega))

theorem Decomposes.eq_decomposeChar (h : Decomposes c l) : l = decomposeChar decomposeDepth c :=
  h.unique (decomposes_decomposeChar (depth_le c))

theorem Decomposes.isUcs2 (h : Decomposes c l) (hc : 0 < c ∧ c < 0x10000) : IsUcs2 l := by
  induction h with
  | whole _ => exact isUcs2_cons.mpr ⟨hc, fun _ hd => absurd hd not_mem_nil⟩
  | parts hdec _ _ ih₁ ih₂ =>
    obtain ⟨hsound, hfirst, hsecond⟩ := soundEntry_of_decompose hdec
    simp only [soundEntry, Bool.and_eq_true, decide_eq_true_eq] at hsound
    exact isUcs2_append.mpr ⟨ih₁ ⟨hsound.1.1.2, hfirst⟩, ih₂ ⟨hsound.1.2, hsecond⟩⟩

/-- Decomposition shortens nothing. -/
theorem Decomposes.length_le (h : Decomposes c l) : (utf8Char c).length ≤ (utf8 l).length := by
  induction h with
  | whole _ => simp
  | parts hdec _ _ ih₁ ih₂ =>
    have hsound := (soundEntry_of_decompose hdec).1
    simp only [soundEntry, Bool.and_eq_true, decide_eq_true_eq] at hsound
    rw [utf8_append, length_append]
    omega

/-! ## Strings -/

/-- A string, decomposed character by character. -/
def DecomposesTo (cs ds : List ℕ) : Prop := ∃ ls, List.Forall₂ Decomposes cs ls ∧ ds = ls.flatten

theorem DecomposesTo.eq_flatMap {ds : List ℕ} (h : DecomposesTo cs ds) :
    cs.flatMap (decomposeChar decomposeDepth) = ds := by
  obtain ⟨ls, hls, rfl⟩ := h
  induction hls with
  | nil => rfl
  | cons hc _ ih => rw [flatMap_cons, ih, flatten_cons, hc.eq_decomposeChar]

theorem DecomposesTo.isUcs2 {ds : List ℕ} (h : DecomposesTo cs ds) (hcs : IsUcs2 cs) :
    IsUcs2 ds := by
  obtain ⟨ls, hls, rfl⟩ := h
  induction hls with
  | nil => exact hcs
  | cons hc _ ih =>
    obtain ⟨hone, hrest⟩ := isUcs2_cons.mp hcs
    rw [flatten_cons]
    exact isUcs2_append.mpr ⟨hc.isUcs2 hone, ih hrest⟩

theorem DecomposesTo.length_le {ds : List ℕ} (h : DecomposesTo cs ds) :
    (utf8 cs).length ≤ (utf8 ds).length := by
  obtain ⟨ls, hls, rfl⟩ := h
  induction hls with
  | nil => exact Nat.le_refl _
  | cons hc _ ih =>
    rw [utf8_cons, flatten_cons, utf8_append, length_append, length_append]
    have hone := hc.length_le
    omega

/-- Every string has a decomposition. -/
theorem exists_decomposesTo (cs : List ℕ) : ∃ ds, DecomposesTo cs ds := by
  induction cs with
  | nil => exact ⟨[], [], .nil, rfl⟩
  | cons c cs ih =>
    obtain ⟨ds, ls, hls, rfl⟩ := ih
    exact ⟨_, _, .cons (decomposes_decomposeChar (depth_le c)) hls, rfl⟩

end NetatalkClient
