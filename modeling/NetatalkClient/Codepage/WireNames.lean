import NetatalkClient.Codepage.Helpers.Separators
import NetatalkClient.Codepage.Decomposed
import NetatalkClient.Afp.Helpers.ReplyBlock
/-!
# Local names on the wire, and back

A name in the form the composer produces is decomposed, gets its header
and has its colons made slashes; the server lists it so, and what is read
from the reply is composed again, with its slashes made colons. The name
comes back unless U+0344 in it follows a character that composes with
U+0308 (`nameRoundTrip_iff`).
-/

namespace NetatalkClient

open Octets List

variable {cs us : List ℕ}

/-! ## On the way -/

/-- The header and the name, where the name fits its length field. -/
theorem unixpathToAfppath_copyPath {name : Octets} (h : name.length < 65536) :
    unixpathToAfppath .kFPUTF8Name (copyPath .kFPUTF8Name name name.length) =
      [3, 0x08, 0x00, 0x01, 0x03, UInt8.ofNat (name.length / 256),
        UInt8.ofNat (name.length % 256)] ++ name.map separatorToAfp := by
  have hwindow : name.window name.length = name := by simp [window]
  have hlen : min name.length 65535 = name.length := by omega
  have hhi : (UInt8.ofNat (name.length / 256)).toNat = name.length / 256 := toNat_ofNat (by omega)
  have hlo : (UInt8.ofNat (name.length % 256)).toNat = name.length % 256 := toNat_ofNat (by omega)
  have hfield : (copyPath .kFPUTF8Name name name.length).be16 5 = name.length := by
    simp only [copyPath, hlen, be16, byte, cons_append, getD_cons_succ, getD_cons_zero, hhi, hlo]
    omega
  rw [unixpathToAfppath, hfield]
  simp only [copyPath, hlen, hwindow, cons_append, nil_append, take_succ_cons,
    take_zero, drop_succ_cons, drop_zero, take_length, drop_length, append_nil]

theorem slash_not_mem_flatMap (hslash : 0x2f ∉ us) :
    0x2f ∉ us.flatMap (decomposeChar decomposeDepth) := by
  intro hmem
  obtain ⟨u, hu, hmem⟩ := mem_flatMap.mp hmem
  have hne : u ≠ 0x2f := fun heq => hslash (heq ▸ hu)
  exact (decomposes_decomposeChar (depth_le u)).slash_not_mem hne hmem

/-- What is converted is the decomposition. -/
theorem convertPathToAfp_flatMap (hus : IsUcs2 us) (hlen : us.length ≤ 383) :
    convertPathToAfp .little convertUtf8ToMacRoman .kFPUTF8Name (utf8 us) afpMaxUtf8PathStorage =
      (0, utf8 (us.flatMap (decomposeChar decomposeDepth))) := by
  obtain ⟨ds, hds⟩ := exists_decomposesTo us
  have hchars := length_flatMap_le us
  have hbytes := length_utf8_le (us.flatMap (decomposeChar decomposeDepth))
  rw [hds.eq_flatMap] at hchars hbytes ⊢
  exact convertPathToAfp_decomposed hus hds (by rw [afpMaxUtf8PathStorage]; omega)

/-- What is sent, with its length before it. -/
theorem sentPath_utf8 (hus : IsUcs2 us) (hslash : 0x2f ∉ us) (hlen : us.length ≤ 383) :
    ∃ hi lo : UInt8, hi.toNat * 256 + lo.toNat =
        (utf8 ((us.flatMap (decomposeChar decomposeDepth)).map colonToSlash)).length ∧
      sentPath .little (utf8 us) = [3, 0x08, 0x00, 0x01, 0x03, hi, lo] ++
        utf8 ((us.flatMap (decomposeChar decomposeDepth)).map colonToSlash) := by
  have hconv := convertPathToAfp_flatMap hus hlen
  have hchars := length_flatMap_le us
  have hucs := isUcs2_flatMap hus
  have hslash' := slash_not_mem_flatMap hslash
  generalize us.flatMap (decomposeChar decomposeDepth) = ds at hconv hchars hucs hslash' ⊢
  have hbytes := length_utf8_le ds
  have hlen' : (utf8 (ds.map colonToSlash)).length = (utf8 ds).length := by
    rw [← map_separatorToAfp hucs hslash', length_map]
  refine ⟨UInt8.ofNat ((utf8 ds).length / 256), UInt8.ofNat ((utf8 ds).length % 256), ?_, ?_⟩
  · rw [toNat_ofNat (by omega), toNat_ofNat (by omega), hlen']
    omega
  · rw [sentPath, hconv]
    dsimp only
    rw [unixpathToAfppath_copyPath (by omega), map_separatorToAfp hucs hslash']

/-! ## In a reply block -/

/-- A name in a block is found where it stands. -/
theorem copyAfpnameBounded_replyBlock {hint sent data : Octets} {hi lo : UInt8}
    (before after : Octets) (hhint : hint.length = 4) (hsent : sent.drop 5 = [hi, lo] ++ data)
    (hlen : hi.toNat * 256 + lo.toNat = data.length) (hfits : data.length < afpcMaxNameBytes) :
    copyAfpnameBounded afpcMaxNameBytes (replyBlock before hint sent after)
      (replyBlock before hint sent after).length before.length = some data := by
  have hfield : [hi, lo] = padded 2 data.length := eq_padded rfl (by simpa [value] using hlen)
  have hroom : afpcMaxNameBytes = 1021 := rfl
  refine copyAfpnameBounded_of_at ⟨before, hint, after, rfl, hhint, ?_⟩ (by omega)
  rw [replyBlock, hsent, hfield]
  simp

/-! ## On the way back -/

theorem separatorsToUnix_short {dest : Octets} {destLen : ℕ} (h : dest.length < destLen) :
    separatorsToUnix destLen dest = dest.map separatorToUnix := by
  rw [separatorsToUnix, take_of_length_le (by omega), drop_of_length_le (by omega), append_nil]

theorem isUcs2_composeAll (hcs : IsUcs2 cs) : IsUcs2 (composeAll cs) := by
  cases cs with
  | nil => exact hcs
  | cons c cs => exact isUcs2_compose (isUcs2_cons.mp hcs).1 (isUcs2_cons.mp hcs).2

theorem length_composeAll_le (cs : List ℕ) : (composeAll cs).length ≤ cs.length := by
  cases cs with
  | nil => exact le_rfl
  | cons c cs => exact length_compose_le c cs

/-- A name of at most 255 characters, as it is read from a reply. -/
theorem convertPathToUnix_utf8 (hcs : IsUcs2 cs) (hlen : cs.length ≤ 255) :
    convertPathToUnix .little .kFPUTF8Name (utf8 cs) afpcMaxNameBytes =
      (0, utf8 ((composeAll cs).map slashToColon)) := by
  have hbytes := length_utf8_le cs
  have hcomp := length_utf8_le (composeAll cs)
  have hcompLen := length_composeAll_le cs
  have hroom : afpcMaxNameBytes = 1021 := rfl
  have hwhole : ((utf8 cs).take afpcMaxNameBytes).takeWhile (· ≠ 0) = utf8 cs := by
    rw [take_of_length_le (by omega)]
    refine takeWhile_eq_self_iff.mpr fun b hb => decide_eq_true ?_
    rintro rfl
    exact lt_irrefl 0 (mem_utf8 hcs hb).1
  have hplain : copyIfSupplementaryUtf8 (utf8 cs) afpcMaxNameBytes = (0, []) := by
    rw [copyIfSupplementaryUtf8, containsSupplementaryUtf8_eq_false fun b hb => (mem_utf8 hcs hb).2]
    rfl
  have hdest : (if utf8 cs ≠ [] then
      (convertUtf8decToUtf8pre .little (utf8 cs) afpcMaxNameBytes).2 else []) =
      utf8 (composeAll cs) := by
    by_cases hne : cs = []
    · subst hne
      rfl
    · rw [if_pos (utf8_ne_nil hne), convertUtf8decToUtf8pre_utf8 hcs hne (by omega) (by omega)]
  rw [convertPathToUnix, if_neg (by decide), hwhole]
  simp only [hplain, true_and, hdest]
  rw [if_neg (by decide), separatorsToUnix_short (by omega),
    map_separatorToUnix (isUcs2_composeAll hcs)]

/-! ## There and back -/

/-- The slashes that came back were colons. -/
theorem map_slashToColon_composeAll (hcs : IsUcs2 cs) (hslash : 0x2f ∉ cs) :
    (composeAll (cs.map colonToSlash)).map slashToColon = composeAll cs := by
  have hcomp : 0x2f ∉ composeAll cs := by
    cases cs with
    | nil => exact not_mem_nil
    | cons c cs =>
      obtain ⟨hc, htl⟩ := isUcs2_cons.mp hcs
      obtain ⟨hne, hslash⟩ := not_or.mp (mem_cons.not.mp hslash)
      exact slash_not_mem_compose hc htl (Ne.symm hne) hslash
  rw [composeAll_colonToSlash hcs, map_map]
  refine (map_congr_left fun c hc => ?_).trans (map_id _)
  exact slashToColon_colonToSlash fun heq => hcomp (heq ▸ hc)

/-- A name comes back decomposed and composed. -/
theorem nameRoundTrip_utf8 {before hint after : Octets} (hus : IsUcs2 us) (hslash : 0x2f ∉ us)
    (hlen : us.length ≤ 383) (hhint : hint.length = 4)
    (hlimit : (us.flatMap (decomposeChar decomposeDepth)).length ≤ 255) :
    nameRoundTrip .little (utf8 us) before hint after =
      some (utf8 (composeAll (us.flatMap (decomposeChar decomposeDepth)))) := by
  obtain ⟨hi, lo, hfield, hsent⟩ := sentPath_utf8 hus hslash hlen
  have hucs := isUcs2_flatMap hus
  have hslash' := slash_not_mem_flatMap hslash
  generalize us.flatMap (decomposeChar decomposeDepth) = ds at hlimit hfield hsent hucs hslash' ⊢
  have hbytes := length_utf8_le (ds.map colonToSlash)
  rw [length_map] at hbytes
  have hread := copyAfpnameBounded_replyBlock before after hhint (congrArg (List.drop 5) hsent)
    hfield (by rw [afpcMaxNameBytes]; omega)
  have hback := convertPathToUnix_utf8 (isUcs2_colonToSlash hucs) (by rw [length_map]; omega)
  rw [map_slashToColon_composeAll hucs hslash'] at hback
  rw [nameRoundTrip, hread, Option.map_some, hback]

theorem utf8_inj {cs ds : List ℕ} (hcs : IsUcs2 cs) (hds : IsUcs2 ds) :
    utf8 cs = utf8 ds ↔ cs = ds := by
  refine ⟨fun h => ?_, congrArg utf8⟩
  rw [← utf8toUCS2_utf8 hcs, h, utf8toUCS2_utf8 hds]

/-- **When a local name survives the wire.** A name that the composer
produced, without a slash and within the limit for names, is sent to the
server and read from a reply block that has it as sent, wherever in the
block it stands. It comes back if and only if U+0344 never follows a
character in it that composes with U+0308. -/
theorem nameRoundTrip_iff (name before hint after : Octets)
    (hform : ∃ src destLen, convertUtf8decToUtf8pre .little src destLen = (0, name))
    (hslash : 0x2f ∉ name)
    (hlimit : invalidFilename (convertPathToAfp .little convertUtf8ToMacRoman .kFPUTF8Name name
      afpMaxUtf8PathStorage).2 = false)
    (hhint : hint.length = 4) :
    nameRoundTrip .little name before hint after = some name ↔
      (utf8toUCS2 name).IsChain Holds0344 := by
  obtain ⟨src, destLen, hform⟩ := hform
  obtain ⟨us, rfl, hus, hlen, hun⟩ := exists_produced hform
  have hslash' : 0x2f ∉ us := fun hmem => hslash (slash_mem_utf8 hmem)
  have hucs := isUcs2_flatMap hus
  have hlimit' : (us.flatMap (decomposeChar decomposeDepth)).length ≤ 255 := by
    rw [convertPathToAfp_flatMap hus hlen, invalidFilename, mbStrLen_utf8 hucs (le_rfl),
      afpMaxUtf8NameChars, decide_eq_false_iff_not] at hlimit
    omega
  rw [nameRoundTrip_utf8 hus hslash' hlen hhint hlimit', Option.some_inj,
    utf8_inj (isUcs2_composeAll hucs) hus, composeAll_flatMap_iff hus hun, utf8toUCS2_utf8 hus]

/-- A precomposed letter and a colon come back. -/
theorem nameRoundTrip_e_acute :
    nameRoundTrip .little [0xc3, 0xa9, 0x3a] [7] [8, 0, 1, 3] [] = some [0xc3, 0xa9, 0x3a] := by
  obtain ⟨hchars, hcomposed, hlimit⟩ : utf8toUCS2 [0xc3, 0xa9, 0x3a] = [0xe9, 0x3a] ∧
      convertUtf8decToUtf8pre .little [0x65, 0xcc, 0x81, 0x3a] 9 = (0, [0xc3, 0xa9, 0x3a]) ∧
      invalidFilename (convertPathToAfp .little convertUtf8ToMacRoman .kFPUTF8Name
        [0xc3, 0xa9, 0x3a] afpMaxUtf8PathStorage).2 = false := by
    decide +kernel
  refine (nameRoundTrip_iff [0xc3, 0xa9, 0x3a] [7] [8, 0, 1, 3] []
    ⟨[0x65, 0xcc, 0x81, 0x3a], 9, hcomposed⟩ (by decide) hlimit rfl).mpr ?_
  rw [hchars, isChain_pair]
  exact fun h => absurd h (by decide)

/-- "A" followed by U+0344, as the composer leaves it, comes back as
U+00C4 followed by U+0301. -/
theorem dialytika_tonos_comes_apart :
    convertUtf8decToUtf8pre .little [0x41, 0xcd, 0x84] 9 = (0, [0x41, 0xcd, 0x84]) ∧
      0x2f ∉ ([0x41, 0xcd, 0x84] : Octets) ∧
      invalidFilename (convertPathToAfp .little convertUtf8ToMacRoman .kFPUTF8Name
        [0x41, 0xcd, 0x84] afpMaxUtf8PathStorage).2 = false ∧
      nameRoundTrip .little [0x41, 0xcd, 0x84] [] [8, 0, 1, 3] [] =
        some [0xc3, 0x84, 0xcc, 0x81] := by
  decide +kernel

end NetatalkClient
