import NetatalkClient.Codepage.Helpers.Decompose
import Mathlib.Data.List.TakeWhile
/-!
# Paths on the way to the server

`convert_path_to_afp` sends a UTF-8 path out decomposed, unless it holds a
character beyond the 16 bits its normalizer works with: then it keeps the
path as it is, rather than write `~` for that character. Either way all of
the path is there, if it is well-formed and what comes out fits
(`convertPathToAfp_whole`).

Where the path is malformed, or its decomposition too long, the return
code of `convert_utf8pre_to_utf8dec` is not looked at, and 0 says nothing
about `dest`.
-/

namespace NetatalkClient

open List

variable {src : Octets} {destLen : ℕ} {convertUtf8ToMacRoman : Octets → ℕ → ℤ × Octets}
variable {cs ds : List ℕ}

theorem takeWhile_of_not_mem (h : 0 ∉ src) : src.takeWhile (· ≠ 0) = src :=
  takeWhile_eq_self_iff.mpr fun _ hb => decide_eq_true fun heq => h (heq ▸ hb)

/-- A path with a supplementary character is kept as it is, or refused. -/
theorem convertPathToAfp_supplementary (hsrc : 0 ∉ src)
    (h : containsSupplementaryUtf8 (src.take destLen) = true) :
    convertPathToAfp .little convertUtf8ToMacRoman .kFPUTF8Name src destLen =
      if src.length < destLen then (0, src) else (-1, []) := by
  have hzero : 0 ∉ src.take destLen := fun hmem => hsrc (mem_of_mem_take hmem)
  have hpos : destLen ≠ 0 := by
    rintro rfl
    cases h
  simp only [convertPathToAfp, if_neg hpos, takeWhile_of_not_mem hzero, copyIfSupplementaryUtf8, h]
  by_cases hlen : src.length < destLen
  · have htake : src.take destLen = src := take_of_length_le (le_of_lt hlen)
    have hne : src ≠ [] := by
      rintro rfl
      rw [take_nil] at h
      cases h
    have hroom : ¬ destLen ≤ src.length := not_le.mpr hlen
    simp [htake, hlen, hroom, hne]
  · have htake : (src.take destLen).length = destLen := by
      rw [length_take]
      omega
    simp [htake, hlen]

/-- The normalizer, on a string it can represent and with room for the
result. -/
theorem convertUtf8preToUtf8dec_utf8 (hcs : IsUcs2 cs) (hne : utf8 cs ≠ [])
    (hds : DecomposesTo cs ds) (hroom : (utf8 ds).length < destLen) :
    convertUtf8preToUtf8dec .little (utf8 cs) destLen = (0, utf8 ds) := by
  have hnonzero : cs.takeWhile (· ≠ 0) = cs :=
    takeWhile_eq_self_iff.mpr fun c hc => decide_eq_true (Nat.ne_of_gt (hcs c hc).1)
  have hwritten : ucs2toUTF8 .little destLen 0 ds = some (utf8 ds) :=
    ucs2toUTF8_little (hds.isUcs2 hcs) (by omega)
  have hpos : ¬ (utf8 cs = [] ∨ destLen = 0) := not_or.mpr ⟨hne, by omega⟩
  simp only [convertUtf8preToUtf8dec, if_neg hpos, utf8toUCS2_utf8 hcs, hnonzero, hds.eq_flatMap,
    hwritten]

/-- A path of 16-bit characters is sent decomposed. -/
theorem convertPathToAfp_decomposed (hcs : IsUcs2 cs) (hds : DecomposesTo cs ds)
    (hroom : (utf8 ds).length < destLen) :
    convertPathToAfp .little convertUtf8ToMacRoman .kFPUTF8Name (utf8 cs) destLen =
      (0, utf8 ds) := by
  -- the path is no longer than its decomposition, so all of it is looked at
  have hlen := hds.length_le
  have htake : (utf8 cs).take destLen = utf8 cs := take_of_length_le (by omega)
  have hzero : 0 ∉ utf8 cs := fun hmem => lt_irrefl _ (mem_utf8 hcs hmem).1
  have hnone : containsSupplementaryUtf8 (utf8 cs) = false :=
    containsSupplementaryUtf8_eq_false fun b hb => (mem_utf8 hcs hb).2
  have hpos : destLen ≠ 0 := by omega
  simp only [convertPathToAfp, if_neg hpos, htake, takeWhile_of_not_mem hzero,
    copyIfSupplementaryUtf8, hnone]
  by_cases hne : utf8 cs = []
  · -- an empty path stays empty
    have hempty : cs = [] := by
      cases cs with
      | nil => rfl
      | cons c cs =>
        rw [utf8_cons] at hne
        have hcne : 0 < (utf8Char c).length := length_utf8Char_pos
        rw [(append_eq_nil_iff.mp hne).1] at hcne
        cases hcne
    subst hempty
    have hnil : ds = [] := by rw [← hds.eq_flatMap, flatMap_nil]
    simp [hnil]
  · simp [hne, convertUtf8preToUtf8dec_utf8 hcs hne hds hroom]

/-- **All of the path is there.** For every path and every size of the
result: one with a supplementary character comes out unchanged, or is
refused if it does not fit; and one of 16-bit characters whose
decomposition fits comes out as that decomposition, character by
character. -/
theorem convertPathToAfp_whole (src : Octets) (hsrc : 0 ∉ src) (destLen : ℕ)
    (convertUtf8ToMacRoman : Octets → ℕ → ℤ × Octets) :
    (containsSupplementaryUtf8 (src.take destLen) = true →
      convertPathToAfp .little convertUtf8ToMacRoman .kFPUTF8Name src destLen =
        if src.length < destLen then (0, src) else (-1, [])) ∧
    ∀ cs ds, IsUcs2 cs → src = utf8 cs → DecomposesTo cs ds → (utf8 ds).length < destLen →
      convertPathToAfp .little convertUtf8ToMacRoman .kFPUTF8Name src destLen =
        (0, utf8 ds) := by
  refine ⟨convertPathToAfp_supplementary hsrc, ?_⟩
  rintro cs ds hcs rfl hds hroom
  exact convertPathToAfp_decomposed hcs hds hroom

/-- U+00E9 is U+0065 with U+0301. -/
theorem decomposesTo_eAcute : DecomposesTo [0xe9] [0x65, 0x301] := by
  have hrows : ucs2Decompose 0xe9 = some (0x65, 0x301) ∧ ucs2Decompose 0x65 = none ∧
      ucs2Decompose 0x301 = none := by
    decide +kernel
  exact ⟨[[0x65, 0x301]], .cons (.parts hrows.1 (.whole hrows.2.1) (.whole hrows.2.2)) .nil, rfl⟩

/-- The path `é`, and the path of one emoji. -/
theorem convertPathToAfp_whole_eAcute :
    convertPathToAfp .little (fun _ _ => (0, [])) .kFPUTF8Name [0xc3, 0xa9] 10 =
        (0, [0x65, 0xcc, 0x81]) ∧
      convertPathToAfp .little (fun _ _ => (0, [])) .kFPUTF8Name [0xf0, 0x9f, 0x98, 0x80] 10 =
        (0, [0xf0, 0x9f, 0x98, 0x80]) :=
  ⟨(convertPathToAfp_whole _ (by decide) 10 _).2 [0xe9] [0x65, 0x301] (by decide) (by decide)
      decomposesTo_eAcute (by decide),
    (convertPathToAfp_whole _ (by decide) 10 _).1 (by decide)⟩

/-- **Not decomposed.** The path `é` before an emoji comes out as it went
in, with `é` whole. -/
theorem eAcute_kept_before_emoji :
    convertPathToAfp .little (fun _ _ => (0, [])) .kFPUTF8Name
        [0xc3, 0xa9, 0xf0, 0x9f, 0x98, 0x80] 65536 =
      (0, [0xc3, 0xa9, 0xf0, 0x9f, 0x98, 0x80]) ∧
    DecomposesTo [0xe9] [0x65, 0x301] ∧ [0xc3, 0xa9] = utf8 [0xe9] ∧
    ¬ utf8 [0x65, 0x301] <+: [0xc3, 0xa9, 0xf0, 0x9f, 0x98, 0x80] :=
  ⟨convertPathToAfp_supplementary (by decide) (by decide), decomposesTo_eAcute, by decide,
    by decide⟩

end NetatalkClient
