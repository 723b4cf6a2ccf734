import NetatalkClient.Codepage.Model.Wire
import NetatalkClient.Codepage.Helpers.Normal
/-!
# Code pages: the separators

A colon in a local name is a slash in the name on the wire. The bytes of
either occur in UTF-8 only as that character, and neither has a part in
the table, so exchanging them commutes with composing and decomposing.
-/

namespace NetatalkClient

open Octets List Option

variable {a b c : ℕ} {l cs us : List ℕ} {dest : Octets} {destLen : ℕ} {f : UInt8 → UInt8} {p : ℕ}
variable {host : ByteOrder}

/-! ## Lengths -/

theorem length_utf8_le (cs : List ℕ) : (utf8 cs).length ≤ 3 * cs.length := by
  induction cs with
  | nil => exact le_rfl
  | cons c cs ih =>
    have hc : (utf8Char c).length ≤ 3 := by
      rw [length_utf8Char]
      split_ifs <;> decide
    rw [utf8_cons, length_append, length_cons]
    omega

theorem length_compose_le (p : ℕ) (cs : List ℕ) : (compose p cs).length ≤ cs.length + 1 := by
  induction cs generalizing p with
  | nil => exact le_rfl
  | cons c cs ih =>
    rw [compose, length_cons]
    split
    · next comp _ =>
      have hrest := ih comp
      omega
    · have hrest := ih c
      rw [length_cons]
      omega

theorem Decomposes.length_le_depth (h : Decomposes c l) : l.length ≤ depth c + 1 := by
  induction h with
  | whole _ => exact Nat.succ_le_succ (Nat.zero_le _)
  | parts hdec _ h₂ ih₁ _ =>
    have hsound := (soundEntry_of_decompose hdec).1
    simp only [soundEntry, Bool.and_eq_true, decide_eq_true_eq] at hsound
    rw [h₂.unique (.whole (second_whole hdec)), length_append, length_singleton]
    omega

theorem length_flatMap_le (us : List ℕ) :
    (us.flatMap (decomposeChar decomposeDepth)).length ≤ 4 * us.length := by
  induction us with
  | nil => exact le_rfl
  | cons u us ih =>
    have hu := (decomposes_decomposeChar (depth_le u)).length_le_depth
    have hdepth : depth u ≤ 3 := depth_le u
    rw [flatMap_cons, length_append, length_cons]
    omega

/-! ## Separators -/

def colonToSlash (c : ℕ) : ℕ := if c = 0x3a then 0x2f else c

def slashToColon (c : ℕ) : ℕ := if c = 0x2f then 0x3a else c

theorem slashToColon_colonToSlash (h : c ≠ 0x2f) : slashToColon (colonToSlash c) = c := by
  unfold slashToColon colonToSlash
  split_ifs <;> simp_all

theorem isUcs2_colonToSlash (h : IsUcs2 cs) : IsUcs2 (cs.map colonToSlash) := by
  intro d hd
  obtain ⟨c, hc, rfl⟩ := mem_map.mp hd
  unfold colonToSlash
  split
  · decide
  · exact h c hc

theorem mem_utf8Char_high (h : 0x80 ≤ c) (hlt : c < 0x10000) {x : UInt8} (hx : x ∈ utf8Char c) :
    0x80 ≤ x.toNat := by
  unfold utf8Char at hx
  rw [if_neg (by omega)] at hx
  split_ifs at hx
  · simp only [mem_cons, not_mem_nil, or_false] at hx
    rcases hx with rfl | rfl
    · rw [toNat_ofNat (by omega)]
      omega
    · rw [toNat_ofNat (by omega)]
      omega
  · simp only [mem_cons, not_mem_nil, or_false] at hx
    rcases hx with rfl | rfl | rfl
    · rw [toNat_ofNat (by omega)]
      omega
    · rw [toNat_ofNat (by omega)]
      omega
    · rw [toNat_ofNat (by omega)]
      omega

theorem utf8Char_ascii : ∀ c < 0x80,
    (c ≠ 0x2f → (utf8Char c).map separatorToAfp = utf8Char (colonToSlash c)) ∧
      (utf8Char c).map separatorToUnix = utf8Char (slashToColon c) := by
  decide +kernel

/-- Where the bytes of each character change as the character does, so do
those of a string. -/
theorem utf8_map {g : ℕ → ℕ}
    (h : ∀ c ∈ cs, (utf8Char c).map f = utf8Char (g c)) : (utf8 cs).map f = utf8 (cs.map g) := by
  induction cs with
  | nil => rfl
  | cons c cs ih =>
    rw [utf8_cons, map_append, h c mem_cons_self,
      ih fun d hd => h d (mem_cons_of_mem c hd), map_cons, utf8_cons]

/-- A map that leaves high bytes alone leaves a character beyond ASCII. -/
theorem map_utf8Char_high (hf : ∀ x : UInt8, 0x80 ≤ x.toNat → f x = x)
    (h : 0x80 ≤ c) (hlt : c < 0x10000) : (utf8Char c).map f = utf8Char c := by
  conv_rhs => rw [← map_id (utf8Char c)]
  exact map_congr_left fun x hx => hf x (mem_utf8Char_high h hlt hx)

theorem separatorToAfp_high (x : UInt8) (h : 0x80 ≤ x.toNat) : separatorToAfp x = x := by
  unfold separatorToAfp
  split_ifs with h₁ h₂
  · rw [h₁] at h
    exact absurd h (by decide)
  · rw [h₂] at h
    exact absurd h (by decide)
  · rfl

theorem separatorToUnix_high (x : UInt8) (h : 0x80 ≤ x.toNat) : separatorToUnix x = x := by
  unfold separatorToUnix
  split_ifs with h₁
  · rw [h₁] at h
    exact absurd h (by decide)
  · rfl

theorem map_separatorToAfp (hcs : IsUcs2 cs) (h : 0x2f ∉ cs) :
    (utf8 cs).map separatorToAfp = utf8 (cs.map colonToSlash) := by
  refine utf8_map fun c hc => ?_
  rcases lt_or_ge c 0x80 with hlt | hge
  · exact (utf8Char_ascii c hlt).1 fun heq => h (heq ▸ hc)
  · rw [map_utf8Char_high separatorToAfp_high hge (hcs c hc).2, colonToSlash, if_neg (by omega)]

theorem map_separatorToUnix (hcs : IsUcs2 cs) :
    (utf8 cs).map separatorToUnix = utf8 (cs.map slashToColon) := by
  refine utf8_map fun c hc => ?_
  rcases lt_or_ge c 0x80 with hlt | hge
  · exact (utf8Char_ascii c hlt).2
  · rw [map_utf8Char_high separatorToUnix_high hge (hcs c hc).2, slashToColon, if_neg (by omega)]

theorem slash_mem_utf8 (h : 0x2f ∈ cs) : 0x2f ∈ utf8 cs := mem_flatMap.mpr ⟨0x2f, h, by decide⟩

/-! ## Separators and the table -/

/-- Neither an entry nor a half of one is a separator. -/
def isSeparator (c : ℕ) : Bool := c == 0x2f || c == 0x3a

set_option maxRecDepth 10000 in
theorem separators_table : (table.tail.all fun e => !isSeparator e.1 &&
    !isSeparator ((e.2 >>> 16) &&& 0xFFFF) && !isSeparator (e.2 &&& 0xFFFF)) = true := by
  decide +kernel

theorem not_separator_of_decompose (h : ucs2Decompose c = some (a, b)) :
    isSeparator c = false ∧ isSeparator a = false ∧ isSeparator b = false := by
  obtain ⟨e, he, heq⟩ := map_eq_some_iff.mp h
  cases heq
  have hc : e.1 = c := by simpa using find?_some he
  have hplain := all_eq_true.mp separators_table e (mem_of_find?_eq_some he)
  simp only [Bool.and_eq_true, Bool.not_eq_true'] at hplain
  exact ⟨hc ▸ hplain.1.1, hplain.1.2, hplain.2⟩

theorem colonToSlash_of_not_separator (h : isSeparator c = false) : colonToSlash c = c := by
  unfold colonToSlash
  split
  · next heq =>
    rw [heq] at h
    exact absurd h (by decide)
  · rfl

theorem isSeparator_colonToSlash : isSeparator (colonToSlash c) = isSeparator c := by
  unfold colonToSlash
  split
  · next heq =>
    rw [heq]
    rfl
  · rfl

theorem ucs2Precompose_separator (ha : a < 0x10000) (hb : b < 0x10000)
    (h : isSeparator a = true ∨ isSeparator b = true) : ucs2Precompose a b = none := by
  by_contra hne
  obtain ⟨c, hc⟩ := ne_none_iff_exists'.mp hne
  obtain ⟨-, h₁, h₂⟩ := not_separator_of_decompose (ucs2Decompose_of_precompose ha hb hc).1
  simp [h₁, h₂] at h

theorem ucs2Precompose_colonToSlash (ha : a < 0x10000) (hb : b < 0x10000) :
    ucs2Precompose (colonToSlash a) (colonToSlash b) = ucs2Precompose a b := by
  by_cases h : isSeparator a = true ∨ isSeparator b = true
  · have ha' : colonToSlash a < 0x10000 := by
      unfold colonToSlash
      split <;> omega
    have hb' : colonToSlash b < 0x10000 := by
      unfold colonToSlash
      split <;> omega
    rw [ucs2Precompose_separator ha hb h, ucs2Precompose_separator ha' hb'
      (by rw [isSeparator_colonToSlash, isSeparator_colonToSlash]; exact h)]
  · rw [not_or, Bool.not_eq_true, Bool.not_eq_true] at h
    rw [colonToSlash_of_not_separator h.1, colonToSlash_of_not_separator h.2]

/-- **Composing and exchanging the separators commute.** -/
theorem compose_colonToSlash (hp : 0 < p ∧ p < 0x10000) (hcs : IsUcs2 cs) :
    compose (colonToSlash p) (cs.map colonToSlash) = (compose p cs).map colonToSlash := by
  induction cs generalizing p with
  | nil => rfl
  | cons c cs ih =>
    obtain ⟨hc, htl⟩ := isUcs2_cons.mp hcs
    rw [map_cons, compose, ucs2Precompose_colonToSlash hp.2 hc.2, compose]
    cases hcomp : ucs2Precompose p c with
    | none => exact congrArg (colonToSlash p :: ·) (ih hc htl)
    | some comp =>
      obtain ⟨hdec, hrange⟩ := ucs2Decompose_of_precompose hp.2 hc.2 hcomp
      have hcomp' := ih hrange htl
      rwa [colonToSlash_of_not_separator (not_separator_of_decompose hdec).1] at hcomp'

theorem composeAll_colonToSlash (hcs : IsUcs2 cs) :
    composeAll (cs.map colonToSlash) = (composeAll cs).map colonToSlash := by
  cases cs with
  | nil => rfl
  | cons c cs =>
    obtain ⟨hc, htl⟩ := isUcs2_cons.mp hcs
    exact compose_colonToSlash hc htl

theorem slash_not_mem_compose (hp : 0 < p ∧ p < 0x10000) (hcs : IsUcs2 cs)
    (hne : p ≠ 0x2f) (h : 0x2f ∉ cs) : 0x2f ∉ compose p cs := by
  induction cs generalizing p with
  | nil => simpa [compose] using Ne.symm hne
  | cons c cs ih =>
    obtain ⟨hc, htl⟩ := isUcs2_cons.mp hcs
    rw [mem_cons, not_or] at h
    rw [compose]
    cases hcomp : ucs2Precompose p c with
    | none =>
      rw [mem_cons, not_or]
      exact ⟨Ne.symm hne, ih hc htl (Ne.symm h.1) h.2⟩
    | some comp =>
      obtain ⟨hdec, hrange⟩ := ucs2Decompose_of_precompose hp.2 hc.2 hcomp
      refine ih hrange htl (fun heq => ?_) h.2
      have hsep := (not_separator_of_decompose hdec).1
      rw [heq] at hsep
      exact absurd hsep (by decide)

theorem Decomposes.slash_not_mem (h : Decomposes c l) (hc : c ≠ 0x2f) : 0x2f ∉ l := by
  induction h with
  | whole _ => simpa using Ne.symm hc
  | parts hdec _ _ ih₁ ih₂ =>
    obtain ⟨-, hfirst, hsecond⟩ := not_separator_of_decompose hdec
    rw [mem_append, not_or]
    constructor
    · refine ih₁ fun heq => ?_
      rw [heq] at hfirst
      exact absurd hfirst (by decide)
    · refine ih₂ fun heq => ?_
      rw [heq] at hsecond
      exact absurd hsecond (by decide)

/-! ## The slash at the start of a path -/

/-- A path that starts with a slash, or has none. -/
def Rooted (path : Octets) : Prop := path.head? = some 0x2f ∨ 0x2f ∉ path

theorem rooted_nil : Rooted [] := .inr not_mem_nil

theorem utf8toUCS2_slash (src : Octets) : utf8toUCS2 (0x2f :: src) = 0x2f :: utf8toUCS2 src := by
  have hnext : nextLen (0x2f :: src) = some 1 := nextLen_cons (by decide) (by decide) (by simp)
  exact utf8toUCS2_next hnext

theorem decomposeChar_slash : decomposeChar decomposeDepth 0x2f = [0x2f] := by
  cases h : ucs2Decompose 0x2f with
  | none => rw [decomposeDepth, decomposeChar, h]
  | some ab => exact absurd (not_separator_of_decompose h).1 (by decide)

/-- On a big-endian host no character is taken for a slash, not even the
slash. -/
theorem slash_not_mem_encodeChar_big (c : ℕ) : 0x2f ∉ encodeChar .big c := by
  -- the bytes beyond ASCII have their highest bit
  have hhigh : ∀ n, 0x80 ≤ n → n < 256 → (0x2f : UInt8) ≠ UInt8.ofNat n := by
    intro n hn hlt h
    have heq : 47 = (UInt8.ofNat n).toNat := congrArg UInt8.toNat h
    rw [toNat_ofNat hlt] at heq
    omega
  rw [encodeChar_eq]
  dsimp only [char16Bytes]
  split_ifs with h₁ h₂
  · rw [Nat.div_eq_of_lt (by omega : c < 256)]
    decide
  · simp only [mem_cons, not_mem_nil, or_false, not_or]
    exact ⟨hhigh _ (by omega) (by omega), hhigh _ (by omega) (by omega)⟩
  · simp only [mem_cons, not_mem_nil, or_false, not_or]
    exact ⟨hhigh _ (by omega) (by omega), hhigh _ (by omega) (by omega),
      hhigh _ (by omega) (by omega)⟩

theorem slash_not_mem_ucs2toUTF8_big {used : ℕ}
    (h : ucs2toUTF8 .big destLen used cs = some dest) : 0x2f ∉ dest := by
  induction cs generalizing used dest with
  | nil =>
    cases h
    exact not_mem_nil
  | cons c cs ih =>
    rw [ucs2toUTF8] at h
    dsimp only at h
    split_ifs at h
    · cases h
      exact not_mem_nil
    · obtain ⟨rest, hrest, rfl⟩ := map_eq_some_iff.mp h
      rw [mem_append, not_or]
      exact ⟨slash_not_mem_encodeChar_big c, ih hrest⟩

/-- A string that starts with a slash, written as UTF-8. -/
theorem rooted_ucs2toUTF8
    (h : ucs2toUTF8 host destLen 0 (0x2f :: cs) = some dest) : Rooted dest := by
  cases host with
  | big => exact .inr (slash_not_mem_ucs2toUTF8_big h)
  | little =>
    rw [ucs2toUTF8, if_neg (by decide)] at h
    dsimp only at h
    split_ifs at h
    obtain ⟨rest, -, rfl⟩ := map_eq_some_iff.mp h
    exact .inl rfl

theorem rooted_macRomanBytes
    (h : macRomanBytes destLen 0 (0x2f :: cs) = some dest) : Rooted dest := by
  rw [macRomanBytes, if_neg (by decide), if_pos (by decide : (0x2f : ℕ) < 0x80)] at h
  split_ifs at h
  · cases h
    exact rooted_nil
  · obtain ⟨rest, -, rfl⟩ := map_eq_some_iff.mp h
    exact .inl rfl

/-- **A path from the root is converted to one, or to a path without a
slash.** -/
theorem rooted_convertPathToAfp {encoding : PathEncoding} {src : Octets}
    (hsrc : src.head? = some 0x2f) :
    Rooted (convertPathToAfp host convertUtf8ToMacRoman encoding src destLen).2 := by
  obtain ⟨rest, rfl⟩ : ∃ rest, src = 0x2f :: rest := by
    cases src with
    | nil => cases hsrc
    | cons b rest => exact ⟨rest, by rw [some.inj hsrc]⟩
  unfold convertPathToAfp
  split
  · exact rooted_nil
  next hlen =>
  obtain ⟨n, rfl⟩ := Nat.exists_eq_succ_of_ne_zero hlen
  obtain ⟨src', hsrc'⟩ : ∃ src', ((0x2f :: rest).take (n + 1)).takeWhile (· ≠ 0) = 0x2f :: src' :=
    ⟨_, by rw [take_succ_cons, takeWhile_cons_of_pos (by decide)]⟩
  simp only [Nat.succ_eq_add_one, hsrc']
  cases encoding with
  | other => exact rooted_nil
  | kFPUTF8Name =>
    have hcopy : Rooted (copyIfSupplementaryUtf8 (0x2f :: src') (n + 1)).2 := by
      unfold copyIfSupplementaryUtf8
      split_ifs
      · exact rooted_nil
      · exact rooted_nil
      · exact .inl rfl
    dsimp only
    split
    · exact hcopy
    split
    · rw [convertUtf8preToUtf8dec, if_neg (by simp), utf8toUCS2_slash]
      dsimp only
      rw [takeWhile_cons_of_pos (by decide), flatMap_cons, decomposeChar_slash]
      split
      · exact rooted_nil
      · next hdest => exact rooted_ucs2toUTF8 hdest
    · exact hcopy
  | kFPLongName =>
    have hbytes : Rooted (convertUtf8ToMacRoman (0x2f :: src') (n + 1)).2 := by
      rw [convertUtf8ToMacRoman, if_neg (by simp), utf8toUCS2_slash]
      split
      · exact rooted_nil
      · next hdest => exact rooted_macRomanBytes hdest
    dsimp only
    split
    · exact rooted_nil
    split
    · exact hbytes
    split
    · exact rooted_nil
    · exact hbytes

end NetatalkClient
