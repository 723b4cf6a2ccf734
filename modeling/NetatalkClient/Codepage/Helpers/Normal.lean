import NetatalkClient.Codepage.Helpers.Compose
import Mathlib.Data.List.Chain
import Mathlib.Data.List.TakeWhile
/-!
# Code pages: which strings composing leaves alone

A string that came out of the composer has no two neighbours that compose.
Taking it apart and composing again gives it back, but for one character:
U+0344 comes apart into U+0308 and U+0301, and the first of these may
compose with the character before, which U+0344 itself does not
(`compose_flatMap_iff`). No other half of an entry that is written first is
also written second, so nothing else can compose to the left of where it
came from.
-/

namespace NetatalkClient

open List Option

variable {a b c : ℕ} {l cs us : List ℕ}

/-! ## The search finds every entry -/

theorem strictMonoOn_patternAt : StrictMonoOn patternAt (Set.Icc 1 997) := by
  have hsorted := isChain_iff_pairwise.mp table_checked.2.2.2
  intro i hi j hj hij
  have hlen : (table.map Prod.snd).length = 998 := by rw [length_map, length_table]
  have hentry : ∀ k < 998, patternAt k = (table.map Prod.snd).getD k 0 := by
    intro k hk
    rw [patternAt, getD_eq_getElem _ _ (by rw [length_table]; exact hk),
      getD_eq_getElem _ _ (by rw [hlen]; exact hk), getElem_map]
  have hi' : i < (table.map Prod.snd).length := by rw [hlen]; exact Nat.lt_succ_of_le hi.2
  have hj' : j < (table.map Prod.snd).length := by rw [hlen]; exact Nat.lt_succ_of_le hj.2
  rw [hentry i (hlen ▸ hi'), hentry j (hlen ▸ hj'), getD_eq_getElem _ _ hi',
    getD_eq_getElem _ _ hj']
  exact pairwise_iff_getElem.mp hsorted i j hi' hj' hij

theorem pattern_of_halves {n : ℕ} (h : n < 0x100000000) :
    ((n >>> 16) &&& 0xFFFF) <<< 16 ||| (n &&& 0xFFFF) = n := by
  rw [show 0xFFFF = 2 ^ 16 - 1 by rfl, Nat.and_two_pow_sub_one_eq_mod,
    Nat.and_two_pow_sub_one_eq_mod, ← Nat.shiftLeft_add_eq_or_of_lt (Nat.mod_lt _ (by decide)),
    Nat.shiftLeft_eq, Nat.shiftRight_eq_div_pow]
  omega

/-- **What was taken apart is composed again.** -/
theorem ucs2Precompose_of_decompose (h : ucs2Decompose c = some (a, b)) :
    ucs2Precompose a b = some c := by
  obtain ⟨e, he, heq⟩ := map_eq_some_iff.mp h
  cases heq
  have hc : e.1 = c := by simpa using find?_some he
  have hmem := mem_of_find?_eq_some he
  have hrange : e.2 < 0x100000000 := (range_table hmem).2
  obtain ⟨k, hk, hek⟩ := getElem_of_mem hmem
  have hlen : k < 997 := by rwa [length_tail, length_table] at hk
  -- the entry is the one at k + 1 of the table with its dummy
  have hat : table.getD (k + 1) (0, 0) = e := by
    rw [getD_eq_getElem _ _ (by rw [length_table]; omega), ← getElem_tail]
    exact hek
  have hkey : patternAt (k + 1) = e.2 := by rw [patternAt, hat]
  have hsum : delta.tail.sum = 498 := by decide
  rw [ucs2Precompose_eq, pattern_of_halves hrange, ← hkey,
    UniformSearch.search_key strictMonoOn_patternAt (by decide) ⟨by omega, by omega⟩ (by omega)
      (by omega) (by omega) (by omega), map_some, precomposedAt, hat, hc]

/-! ## Halves -/

/-- The characters that are a second half. -/
def seconds : ℕ := bitSet (table.tail.map fun e => e.2 &&& 0xFFFF)

/-- What is needed of an entry: its second half is whole, and but for
U+0344 its first half is neither U+0344 nor a second half. -/
def steadyEntry (precomposed first second : ℕ) : Bool :=
  depth second == 0 && seconds.testBit second &&
    (precomposed == 0x344 || first != 0x344 && !seconds.testBit first)

set_option maxRecDepth 10000 in
theorem steadyEntry_table : (table.tail.all fun e =>
    steadyEntry e.1 ((e.2 >>> 16) &&& 0xFFFF) (e.2 &&& 0xFFFF)) = true := by
  decide +kernel

theorem steadyEntry_of_decompose (h : ucs2Decompose c = some (a, b)) :
    steadyEntry c a b = true := by
  obtain ⟨e, he, heq⟩ := map_eq_some_iff.mp h
  cases heq
  have hc : e.1 = c := by simpa using find?_some he
  exact hc ▸ all_eq_true.mp steadyEntry_table e (mem_of_find?_eq_some he)

/-- A second half is not taken apart. -/
theorem second_whole (h : ucs2Decompose c = some (a, b)) : ucs2Decompose b = none := by
  have hsteady := steadyEntry_of_decompose h
  simp only [steadyEntry, Bool.and_eq_true, beq_iff_eq] at hsteady
  by_contra hne
  obtain ⟨⟨x, y⟩, hxy⟩ := ne_none_iff_exists'.mp hne
  have hsound := (soundEntry_of_decompose hxy).1
  simp only [soundEntry, Bool.and_eq_true, decide_eq_true_eq] at hsound
  omega

/-- What is no second half composes with nothing before it. -/
theorem ucs2Precompose_eq_none (ha : a < 0x10000) (hb : b < 0x10000)
    (h : seconds.testBit b = false) : ucs2Precompose a b = none := by
  by_contra hne
  obtain ⟨c, hc⟩ := ne_none_iff_exists'.mp hne
  have hsteady := steadyEntry_of_decompose (ucs2Decompose_of_precompose ha hb hc).1
  simp only [steadyEntry, Bool.and_eq_true] at hsteady
  rw [h] at hsteady
  exact absurd hsteady.1.2 Bool.false_ne_true

theorem first_steady (h : ucs2Decompose c = some (a, b)) (hc : c ≠ 0x344) :
    a ≠ 0x344 ∧ seconds.testBit a = false := by
  have hsteady := steadyEntry_of_decompose h
  simp only [steadyEntry, Bool.and_eq_true, Bool.or_eq_true, beq_iff_eq, bne_iff_ne,
    Bool.not_eq_true'] at hsteady
  exact hsteady.2.resolve_left hc

/-! ## A character -/

/-- **A character taken apart composes to itself**, from its first part
on; and its first part is no second half, but for U+0344. -/
theorem Decomposes.head (h : Decomposes c l) :
    ∃ x t, l = x :: t ∧ (∀ rest, compose x (t ++ rest) = compose c rest) ∧
      (ucs2Decompose c ≠ none → c ≠ 0x344 → seconds.testBit x = false) := by
  induction h with
  | @whole c hnone => exact ⟨c, [], rfl, fun _ => rfl, fun hne => absurd hnone hne⟩
  | @parts c first second l l' hdec h₁ h₂ ih₁ _ =>
    obtain ⟨x, t, rfl, hcomp, hsteady⟩ := ih₁
    have hl' : l' = [second] := h₂.unique (.whole (second_whole hdec))
    subst hl'
    refine ⟨x, t ++ [second], rfl, fun rest => ?_, fun _ hc => ?_⟩
    · rw [append_assoc, hcomp, singleton_append, compose, ucs2Precompose_of_decompose hdec]
    · obtain ⟨hfirst, hbit⟩ := first_steady hdec hc
      by_cases hnone : ucs2Decompose first = none
      · cases h₁.unique (.whole hnone)
        exact hbit
      · exact hsteady hnone hfirst

/-- Composing only adds to the first character. -/
theorem compose_head {p : ℕ} (hp : 0 < p ∧ p < 0x10000) (hl : Decomposes p l) (hcs : IsUcs2 cs) :
    ∃ q rest l', compose p cs = q :: rest ∧ Decomposes q (l ++ l') := by
  induction cs generalizing p l with
  | nil => exact ⟨p, [], [], rfl, (append_nil l).symm ▸ hl⟩
  | cons c cs ih =>
    obtain ⟨hc, hcs⟩ := isUcs2_cons.mp hcs
    rw [compose]
    cases hcomp : ucs2Precompose p c with
    | none => exact ⟨p, compose c cs, [], rfl, (append_nil l).symm ▸ hl⟩
    | some comp =>
      obtain ⟨hdec, hrange⟩ := ucs2Decompose_of_precompose hp.2 hc.2 hcomp
      obtain ⟨q, rest, l', hq, hl'⟩ := ih hrange (.parts hdec hl (.whole (second_whole hdec))) hcs
      exact ⟨q, rest, [c] ++ l', hq, append_assoc l [c] l' ▸ hl'⟩

theorem decomposes_0344 : Decomposes 0x344 [0x308, 0x301] := by
  have hrows : ucs2Decompose 0x344 = some (0x308, 0x301) ∧ ucs2Decompose 0x308 = none := by
    decide +kernel
  exact .parts hrows.1 (.whole hrows.2) (.whole (second_whole hrows.1))

/-! ## Strings -/

/-- Neighbours that do not compose. -/
def Uncomposed (x y : ℕ) : Prop := ucs2Precompose x y = none

/-- Neighbours between which U+0344 does not come apart. -/
def Holds0344 (x y : ℕ) : Prop := y = 0x344 → ucs2Precompose x 0x308 = none

theorem isUcs2_flatMap (hus : IsUcs2 us) : IsUcs2 (us.flatMap (decomposeChar decomposeDepth)) := by
  intro d hd
  obtain ⟨u, hu, hdu⟩ := mem_flatMap.mp hd
  exact (decomposes_decomposeChar (depth_le u)).isUcs2 (hus u hu) d hdu

/-- Where the first part of a character composes to the left, and the
character does not, it is U+0344. -/
theorem eq_0344 {x : ℕ} {t : List ℕ} (ha : a < 0x10000) (hx : x < 0x10000)
    (hb : Decomposes b (x :: t)) (hun : Uncomposed a b) (hcomp : ucs2Precompose a x ≠ none) :
    b = 0x344 ∧ x = 0x308 := by
  have hne : ucs2Decompose b ≠ none := by
    intro hnone
    cases hb.unique (.whole hnone)
    exact hcomp hun
  have h0344 : b = 0x344 := by
    by_contra hb0344
    obtain ⟨x', t', heq, -, hsteady⟩ := hb.head
    obtain ⟨rfl, rfl⟩ := List.cons.inj heq
    exact hcomp (ucs2Precompose_eq_none ha hx (hsteady hne hb0344))
  subst h0344
  exact ⟨rfl, (List.cons.inj (hb.unique decomposes_0344)).1⟩

/-- **When a composed string comes back.** For every string with no two
neighbours that compose. -/
theorem compose_flatMap_iff (ha : 0 < a ∧ a < 0x10000) (hus : IsUcs2 us)
    (hun : (a :: us).IsChain Uncomposed) :
    compose a (us.flatMap (decomposeChar decomposeDepth)) = a :: us ↔
      (a :: us).IsChain Holds0344 := by
  induction us generalizing a with
  | nil => exact iff_of_true rfl (.singleton a)
  | cons b us ih =>
    obtain ⟨hb, htl⟩ := isUcs2_cons.mp hus
    obtain ⟨hab, hrest⟩ := isChain_cons_cons.mp hun
    have hdec := decomposes_decomposeChar (depth_le b)
    obtain ⟨x, t, hxt, hcomp, -⟩ := hdec.head
    have hx : x < 0x10000 := (hdec.isUcs2 hb x (by rw [hxt]; exact mem_cons_self)).2
    rw [flatMap_cons, hxt, cons_append, isChain_cons_cons]
    by_cases hstop : ucs2Precompose a x = none
    · have hholds : Holds0344 a b := by
        rintro rfl
        have heq := hdec.unique decomposes_0344
        rw [hxt] at heq
        rw [← (List.cons.inj heq).1]
        exact hstop
      rw [compose, hstop, hcomp]
      simp only [List.cons.injEq, true_and, hholds]
      exact ih hb htl hrest
    · -- the first part of U+0344 went to the character before
      rw [hxt] at hdec
      obtain ⟨rfl, rfl⟩ := eq_0344 ha.2 hx hdec hab hstop
      refine iff_of_false (fun heq => ?_) (fun hchain => hstop (hchain.1 rfl))
      obtain ⟨comp, hcompose⟩ := ne_none_iff_exists'.mp hstop
      obtain ⟨hpair, hrange⟩ := ucs2Decompose_of_precompose ha.2 hx hcompose
      have hla := decomposes_decomposeChar (depth_le a)
      have htail : IsUcs2 (t ++ us.flatMap (decomposeChar decomposeDepth)) :=
        isUcs2_append.mpr ⟨fun d hd => hdec.isUcs2 hb d (mem_cons_of_mem _ hd), isUcs2_flatMap htl⟩
      obtain ⟨q, rest, l', hq, hl'⟩ :=
        compose_head hrange (.parts hpair hla (.whole (second_whole hpair))) htail
      rw [compose, hcompose] at heq
      have hqa : q = a := (List.cons.inj (hq.symm.trans heq)).1
      have hlen := congrArg List.length ((hqa ▸ hl').unique hla)
      simp only [length_append, length_cons, length_nil] at hlen
      omega

/-- The same, from the first part of the first character. -/
theorem composeAll_flatMap_iff (hus : IsUcs2 us) (hun : us.IsChain Uncomposed) :
    composeAll (us.flatMap (decomposeChar decomposeDepth)) = us ↔ us.IsChain Holds0344 := by
  cases us with
  | nil => exact iff_of_true rfl .nil
  | cons a us =>
    obtain ⟨ha, htl⟩ := isUcs2_cons.mp hus
    obtain ⟨x, t, hxt, hcomp, -⟩ := (decomposes_decomposeChar (depth_le a)).head
    rw [flatMap_cons, hxt, cons_append, composeAll, hcomp]
    exact compose_flatMap_iff ha htl hun

/-! ## What the composer produces -/

/-- What the loop writes: characters of 16 bits, at most 383 with those
before, no two neighbours of which compose, and first the character it
started with or one that was composed. -/
structure Produced (ucs2Len prev : ℕ) (out : List ℕ) : Prop where
  isUcs2 : IsUcs2 out
  length_le : ucs2Len ≤ 383 → ucs2Len + out.length ≤ 383
  uncomposed : out.IsChain Uncomposed
  head : ∀ q ∈ out.head?, q = prev ∨ ucs2Decompose q ≠ none

theorem produced_nil (ucs2Len prev : ℕ) : Produced ucs2Len prev [] where
  isUcs2 := fun _ h => absurd h not_mem_nil
  length_le := fun h => h
  uncomposed := .nil
  head := by
    rintro q ⟨⟩

/-- A composed character is no second half. -/
theorem uncomposed_of_decompose (ha : a < 0x10000) (hb : b < 0x10000)
    (h : ucs2Decompose b ≠ none) : Uncomposed a b := by
  by_contra hne
  obtain ⟨c, hc⟩ := ne_none_iff_exists'.mp hne
  exact h (second_whole (ucs2Decompose_of_precompose ha hb hc).1)

theorem produced_composeRest {ucs2Len prev : ℕ} (hprev : 0 < prev ∧ prev < 0x10000)
    (hcs : IsUcs2 cs) : Produced ucs2Len prev (composeRest ucs2Len prev cs) := by
  induction cs generalizing ucs2Len prev with
  | nil =>
    unfold composeRest
    split
    · next h =>
      refine ⟨isUcs2_cons.mpr ⟨hprev, hcs⟩, fun _ => h.2, .singleton prev, ?_⟩
      rintro q ⟨⟩
      exact .inl rfl
    · exact produced_nil ucs2Len prev
  | cons c cs ih =>
    obtain ⟨hc, htl⟩ := isUcs2_cons.mp hcs
    rcases lt_or_ge ucs2Len 383 with hlt | hge
    · rw [composeRest_cons hlt hprev.1]
      cases hcomp : ucs2Precompose prev c with
      | some comp =>
        obtain ⟨hdec, hrange⟩ := ucs2Decompose_of_precompose hprev.2 hc.2 hcomp
        have hout : Produced ucs2Len comp (composeRest ucs2Len comp cs) := ih hrange htl
        refine ⟨hout.isUcs2, hout.length_le, hout.uncomposed, fun q hq => .inr ?_⟩
        rcases hout.head q hq with rfl | hq
        · rw [hdec]
          exact some_ne_none _
        · exact hq
      | none =>
        have hout : Produced (ucs2Len + 1) c (composeRest (ucs2Len + 1) c cs) := ih hc htl
        refine ⟨isUcs2_cons.mpr ⟨hprev, hout.isUcs2⟩, fun _ => ?_, ?_, ?_⟩
        · have hlen := hout.length_le hlt
          rw [length_cons]
          omega
        · refine hout.uncomposed.cons fun q hq => ?_
          rcases hout.head q hq with rfl | hdec
          · exact hcomp
          · have hmem : q ∈ composeRest (ucs2Len + 1) c cs := mem_of_mem_head? hq
            exact uncomposed_of_decompose hprev.2 (hout.isUcs2 q hmem).2 hdec
        · rintro q ⟨⟩
          exact .inl rfl
    · rw [composeRest, if_neg (by simp), composeLoop, if_pos hge]
      exact produced_nil ucs2Len prev

theorem produced_composeLoop (hcs : IsUcs2 cs) : ∃ prev, Produced 0 prev (composeLoop 0 0 cs) := by
  cases cs with
  | nil => exact ⟨0, produced_nil 0 0⟩
  | cons c cs =>
    obtain ⟨hc, htl⟩ := isUcs2_cons.mp hcs
    exact ⟨c, produced_composeRest hc htl⟩

/-! ## Any string of bytes -/

theorem decodeChar_lt (clen : ℕ) (p : Octets) : decodeChar clen p < 0x10000 := by
  have hsix : ∀ n, n &&& 0x3f ≤ 0x3f := fun n => Nat.and_le_right
  unfold decodeChar
  split
  · exact lt_trans (UInt8.toNat_lt _) (by decide)
  · have h₀ := hsix (p.getD 1 0).toNat
    have h₁ : (p.getD 0 0).toNat &&& 0x1f ≤ 0x1f := Nat.and_le_right
    dsimp only
    split
    · rw [Nat.shiftLeft_eq]
      omega
    · decide
  · have h₀ := hsix (p.getD 2 0).toNat
    have h₁ := hsix (p.getD 1 0).toNat
    have h₂ : (p.getD 0 0).toNat &&& 0xf ≤ 0xf := Nat.and_le_right
    dsimp only
    split
    · rw [Nat.shiftLeft_eq, Nat.shiftLeft_eq]
      omega
    · decide
  · decide

theorem mem_decodeChars {n : ℕ} {p : Octets} (h : c ∈ decodeChars n p) : c < 0x10000 := by
  induction n generalizing p with
  | zero => cases h
  | succ n ih =>
    unfold decodeChars at h
    split at h
    · cases h
    · next clen _ =>
      rcases mem_cons.mp h with rfl | h
      · exact decodeChar_lt clen p
      · exact ih h

/-- Whatever the bytes are, what is read up to a zero are characters of 16
bits. -/
theorem isUcs2_takeWhile (src : Octets) : IsUcs2 ((utf8toUCS2 src).takeWhile (· ≠ 0)) := by
  intro c hc
  have hne : c ≠ 0 := by simpa using mem_takeWhile_imp hc
  exact ⟨Nat.pos_of_ne_zero hne, mem_decodeChars ((takeWhile_sublist _).subset hc)⟩

theorem eq_utf8_of_ucs2toUTF8 {destLen used : ℕ} {dest : Octets} (hcs : IsUcs2 cs)
    (h : ucs2toUTF8 .little destLen used cs = some dest) : dest = utf8 cs := by
  induction cs generalizing used dest with
  | nil =>
    cases h
    rfl
  | cons c cs ih =>
    obtain ⟨hc, htl⟩ := isUcs2_cons.mp hcs
    rw [ucs2toUTF8, if_neg (Nat.ne_of_gt hc.1), encodeChar_little hc.2] at h
    dsimp only at h
    split at h
    · cases h
    · obtain ⟨dest', hdest', rfl⟩ := map_eq_some_iff.mp h
      rw [ih htl hdest', utf8_cons]

/-- **The form that the composer produces.** -/
theorem exists_produced {src name : Octets} {destLen : ℕ}
    (h : convertUtf8decToUtf8pre .little src destLen = (0, name)) :
    ∃ us, name = utf8 us ∧ IsUcs2 us ∧ us.length ≤ 383 ∧ us.IsChain Uncomposed := by
  unfold convertUtf8decToUtf8pre at h
  split at h
  · cases h
  · dsimp only at h
    obtain ⟨prev, hout⟩ := produced_composeLoop (isUcs2_takeWhile src)
    split at h
    · cases h
    · next dest hdest =>
      cases h
      refine ⟨_, eq_utf8_of_ucs2toUTF8 hout.isUcs2 hdest, hout.isUcs2, ?_, hout.uncomposed⟩
      have hlen := hout.length_le (by decide)
      omega

end NetatalkClient
