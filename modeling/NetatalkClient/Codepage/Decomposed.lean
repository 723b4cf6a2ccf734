import NetatalkClient.Codepage.Helpers.Compose
import NetatalkClient.Codepage.ToAfp
/-!
# Decomposed names, there and back

A name from the server is composed, greedily and from the left, and
decomposed when it is sent back. If the table takes none of its characters
apart, the name that is sent is the one that came
(`decomposed_roundTrip`). An empty name is refused.
-/

namespace NetatalkClient

open List

variable {cs : List ℕ} {destLen : ℕ}

/-- The characters that the table takes apart are those it composes to. -/
theorem ucs2Decompose_eq_none {c : ℕ} (h : c ∉ table.map Prod.fst) : ucs2Decompose c = none := by
  rw [ucs2Decompose, Option.map_eq_none_iff, find?_eq_none]
  intro e he heq
  refine h (mem_map.mpr ⟨e, mem_of_mem_tail he, ?_⟩)
  simpa using heq

/-- The normalizer on a string within its limit, with room for the
result. -/
theorem convertUtf8decToUtf8pre_utf8 (hcs : IsUcs2 cs) (hne : cs ≠ []) (hlen : cs.length ≤ 383)
    (hroom : (utf8 (composeAll cs)).length < destLen) :
    convertUtf8decToUtf8pre .little (utf8 cs) destLen = (0, utf8 (composeAll cs)) := by
  have hcomp : IsUcs2 (composeAll cs) := by
    obtain ⟨c, cs, rfl⟩ := exists_cons_of_ne_nil hne
    obtain ⟨hc, hcs⟩ := isUcs2_cons.mp hcs
    exact isUcs2_compose hc hcs
  have hnonzero : cs.takeWhile (· ≠ 0) = cs :=
    takeWhile_eq_self_iff.mpr fun c hc => decide_eq_true (Nat.ne_of_gt (hcs c hc).1)
  have hwritten : ucs2toUTF8 .little destLen 0 (composeAll cs) = some (utf8 (composeAll cs)) :=
    ucs2toUTF8_little hcomp (by omega)
  have hpos : ¬ (utf8 cs = [] ∨ destLen = 0) := not_or.mpr ⟨utf8_ne_nil hne, by omega⟩
  simp only [convertUtf8decToUtf8pre, if_neg hpos, utf8toUCS2_utf8 hcs, hnonzero,
    composeLoop_eq hcs hlen, hwritten]

/-- **Decomposed names survive the round trip.** For every non-empty
string of 16-bit characters, none of them precomposed in the table, of at
most 382 characters: composing it succeeds given room, and decomposing
what comes out gives it back. -/
theorem decomposed_roundTrip (d : List ℕ) (hne : d ≠ []) (hd : IsUcs2 d)
    (hplain : ∀ c ∈ d, c ∉ table.map Prod.fst) (hlen : d.length ≤ 382) :
    ∃ p, ∀ destLen destLen', p.length < destLen → (utf8 d).length < destLen' →
      convertUtf8decToUtf8pre .little (utf8 d) destLen = (0, p) ∧
        convertUtf8preToUtf8dec .little p destLen' = (0, utf8 d) := by
  refine ⟨utf8 (composeAll d), fun destLen destLen' hroom hroom' =>
    ⟨convertUtf8decToUtf8pre_utf8 hd hne (by omega) hroom, ?_⟩⟩
  obtain ⟨c, cs, rfl⟩ := exists_cons_of_ne_nil hne
  obtain ⟨hc, hcs⟩ := isUcs2_cons.mp hd
  have hwhole : Decomposes c [c] := .whole (ucs2Decompose_eq_none (hplain c mem_cons_self))
  have hrest : ∀ c' ∈ cs, ucs2Decompose c' = none := fun c' hc' =>
    ucs2Decompose_eq_none (hplain c' (mem_cons_of_mem c hc'))
  exact convertUtf8preToUtf8dec_utf8 (isUcs2_compose hc hcs) (utf8_ne_nil (compose_ne_nil c cs))
    (decomposesTo_compose hc hwhole hcs hrest) hroom'

/-- U+0075 with U+0308 and U+0304 is composed twice, to U+01D6. -/
theorem decomposed_roundTrip_twice :
    ∃ p, ∀ destLen destLen', p.length < destLen → (utf8 [0x75, 0x308, 0x304]).length < destLen' →
      convertUtf8decToUtf8pre .little (utf8 [0x75, 0x308, 0x304]) destLen = (0, p) ∧
        convertUtf8preToUtf8dec .little p destLen' = (0, utf8 [0x75, 0x308, 0x304]) :=
  decomposed_roundTrip [0x75, 0x308, 0x304] (by decide) (by decide) (by decide +kernel) (by decide)

/-- An empty string is refused, whatever the room. -/
theorem empty_name_refused :
    utf8 [] = [] ∧ ∀ destLen, convertUtf8decToUtf8pre .little [] destLen = (-1, []) :=
  ⟨rfl, fun _ => if_pos (.inl rfl)⟩

end NetatalkClient
