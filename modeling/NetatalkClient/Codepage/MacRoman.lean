import NetatalkClient.Codepage.Model.MacRoman
import NetatalkClient.Codepage.Helpers.Utf8
import Mathlib.Data.List.TakeWhile
/-!
# Mac Roman names, there and back

Every byte of a name has a character of 16 bits, and all but three of
these characters are found again in the page that covers them. U+222B,
U+2248 and U+2030 stand two places too early in theirs, so the places that
are read for them are empty, and a name with one of the bytes 0xBA, 0xC5
and 0xE4 cannot be sent back.
-/

namespace NetatalkClient

open List

variable {s : Octets} {c : UInt8} {destLen out : ℕ}

/-! ## A byte -/

/-- A byte whose character is misplaced in the pages. -/
def Misplaced (c : UInt8) : Prop := c = 0xBA ∨ c = 0xC5 ∨ c = 0xE4

instance (c : UInt8) : Decidable (Misplaced c) := inferInstanceAs (Decidable (_ ∨ _))

/-- **The pages against the table.** -/
theorem unicodeToMacRoman_table : ∀ n < 256, 0x80 ≤ n →
    unicodeToMacRoman (macRomanToUnicode (UInt8.ofNat n)) =
        (if Misplaced (UInt8.ofNat n) then 0 else UInt8.ofNat n) ∧
      0x80 ≤ macRomanToUnicode (UInt8.ofNat n) ∧ macRomanToUnicode (UInt8.ofNat n) < 0x10000 := by
  decide +kernel

theorem macRomanToUnicode_ascii (h : c.toNat < 0x80) : macRomanToUnicode c = c.toNat :=
  if_pos (UInt8.lt_iff_toNat_lt.mpr h)

/-- A byte from 0x80 has a character that is not ASCII, and which has that
byte unless it is misplaced. -/
theorem macRomanToUnicode_high (h : 0x80 ≤ c.toNat) :
    unicodeToMacRoman (macRomanToUnicode c) = (if Misplaced c then 0 else c) ∧
      0x80 ≤ macRomanToUnicode c ∧ macRomanToUnicode c < 0x10000 := by
  have hbyte := unicodeToMacRoman_table c.toNat c.toNat_lt h
  rwa [UInt8.ofNat_toNat] at hbyte

theorem not_misplaced_ascii (h : c.toNat < 0x80) : ¬ Misplaced c := by
  rintro (rfl | rfl | rfl)
  · exact absurd h (by decide)
  · exact absurd h (by decide)
  · exact absurd h (by decide)

/-! ## A name -/

theorem toNat_pos_of_mem (h : 0 ∉ s) (hc : c ∈ s) : 0 < c.toNat := by
  refine Nat.pos_of_ne_zero fun hz => h ?_
  have hzero : c = 0 := UInt8.toNat_inj.mp hz
  exact hzero ▸ hc

theorem isUcs2_macRoman (h : 0 ∉ s) : IsUcs2 (s.map macRomanToUnicode) := by
  intro u hu
  obtain ⟨c, hc, rfl⟩ := mem_map.mp hu
  have hpos := toNat_pos_of_mem h hc
  rcases lt_or_ge c.toNat 0x80 with hlt | hge
  · rw [macRomanToUnicode_ascii hlt]
    exact ⟨hpos, by omega⟩
  · obtain ⟨-, hlow, hbound⟩ := macRomanToUnicode_high hge
    exact ⟨by omega, hbound⟩

/-- The way back writes a byte, or gives up at a misplaced one. -/
theorem macRomanBytes_cons {us : List ℕ} (hc : 0 < c.toNat) (hroom : out + 1 < destLen) :
    macRomanBytes destLen out (macRomanToUnicode c :: us) =
      if Misplaced c then none else (macRomanBytes destLen (out + 1) us).map (c :: ·) := by
  rcases lt_or_ge c.toNat 0x80 with hlt | hge
  · rw [macRomanBytes, macRomanToUnicode_ascii hlt, if_neg (by omega), if_neg (by omega),
      if_pos hlt, UInt8.ofNat_toNat, if_neg (not_misplaced_ascii hlt)]
  · obtain ⟨hback, hlow, -⟩ := macRomanToUnicode_high hge
    have hne : c ≠ 0 := by
      rintro rfl
      exact lt_irrefl _ hc
    rw [macRomanBytes, if_neg (by omega), if_neg (by omega), if_neg (by omega), hback]
    by_cases hbad : Misplaced c
    · simp [hbad]
    · simp [hbad, hne]

theorem macRomanBytes_map (h : 0 ∉ s) (hroom : out + s.length < destLen) :
    macRomanBytes destLen out (s.map macRomanToUnicode) =
      if ∃ c ∈ s, Misplaced c then none else some s := by
  induction s generalizing out with
  | nil => simp [macRomanBytes]
  | cons c s ih =>
    rw [length_cons] at hroom
    have hs : 0 ∉ s := fun hmem => h (mem_cons_of_mem c hmem)
    rw [map_cons, macRomanBytes_cons (toNat_pos_of_mem h mem_cons_self) (by omega),
      ih hs (by omega)]
    by_cases hc : Misplaced c
    · rw [if_pos hc, if_pos ⟨c, mem_cons_self, hc⟩]
    · by_cases hbad : ∃ d ∈ s, Misplaced d
      · simp [hc, hbad]
      · simp [hc, hbad]

/-- A name comes out in UTF-8, given room for it. -/
theorem convertMacRomanToUtf8_eq (hne : s ≠ []) (hlen : s.length ≤ 255) (h : 0 ∉ s)
    (hroom : (utf8 (s.map macRomanToUnicode)).length < destLen) :
    convertMacRomanToUtf8 .little s destLen = (0, utf8 (s.map macRomanToUnicode)) := by
  have hwhole : s.takeWhile (· ≠ 0) = s :=
    takeWhile_eq_self_iff.mpr fun _ hb => decide_eq_true fun heq => h (heq ▸ hb)
  have hwritten : ucs2toUTF8 .little destLen 0 (s.map macRomanToUnicode) =
      some (utf8 (s.map macRomanToUnicode)) := ucs2toUTF8_little (isUcs2_macRoman h) (by omega)
  simp only [convertMacRomanToUtf8, if_neg (not_or.mpr ⟨hne, Nat.ne_zero_of_lt hroom⟩), hwhole,
    take_of_length_le hlen, hwritten]

/-- **When a Mac Roman name survives the round trip.** For every name of 1
to 255 bytes without NUL, given room for the UTF-8 and for the name: it
comes back if and only if it has none of the misplaced bytes. -/
theorem macRoman_roundTrip_iff (s : Octets) (hpos : 1 ≤ s.length) (hlen : s.length ≤ 255)
    (h : 0 ∉ s) (destLen destLen' : ℕ)
    (hroom : (utf8 (s.map macRomanToUnicode)).length < destLen) (hroom' : s.length < destLen') :
    (∃ u, convertMacRomanToUtf8 .little s destLen = (0, u) ∧
        convertUtf8ToMacRoman u destLen' = (0, s)) ↔
      ∀ c ∈ s, ¬ (c = 0xBA ∨ c = 0xC5 ∨ c = 0xE4) := by
  have hne : s ≠ [] := ne_nil_of_length_pos hpos
  have hback : convertUtf8ToMacRoman (utf8 (s.map macRomanToUnicode)) destLen' =
      if ∃ c ∈ s, Misplaced c then (-1, []) else (0, s) := by
    have hune : utf8 (s.map macRomanToUnicode) ≠ [] :=
      utf8_ne_nil fun hnil => hne (map_eq_nil_iff.mp hnil)
    rw [convertUtf8ToMacRoman, if_neg (not_or.mpr ⟨hune, Nat.ne_zero_of_lt hroom'⟩),
      utf8toUCS2_utf8 (isUcs2_macRoman h), macRomanBytes_map h (by omega)]
    by_cases hbad : ∃ c ∈ s, Misplaced c
    · simp only [if_pos hbad]
    · simp only [if_neg hbad]
  rw [convertMacRomanToUtf8_eq hne hlen h hroom]
  constructor
  · rintro ⟨u, hu, hs⟩ c hc hbad
    cases hu
    rw [hback, if_pos ⟨c, hc, hbad⟩] at hs
    cases hs
  · intro hgood
    refine ⟨_, rfl, ?_⟩
    rw [hback, if_neg]
    rintro ⟨c, hc, hbad⟩
    exact hgood c hc hbad

/-- The name `Ångström™`. -/
theorem macRoman_roundTrip_angstrom :
    ∃ u, convertMacRomanToUtf8 .little
        [0x81, 0x6e, 0x67, 0x73, 0x74, 0x72, 0x9a, 0x6d, 0xaa] 256 = (0, u) ∧
      convertUtf8ToMacRoman u 256 =
        (0, [0x81, 0x6e, 0x67, 0x73, 0x74, 0x72, 0x9a, 0x6d, 0xaa]) :=
  (macRoman_roundTrip_iff _ (by decide) (by decide) (by decide) 256 256 (by decide +kernel)
    (by decide)).mpr (by decide +kernel)

/-- The name `∫` comes out as U+222B and is not taken back. -/
theorem integral_not_taken_back :
    convertMacRomanToUtf8 .little [0xBA] 256 = (0, [0xE2, 0x88, 0xAB]) ∧
      convertUtf8ToMacRoman [0xE2, 0x88, 0xAB] 256 = (-1, []) := by
  decide +kernel

end NetatalkClient
