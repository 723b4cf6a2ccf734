import NetatalkClient.Common.Codes
import Mathlib.Data.List.TakeWhile
/-!
# Text made safe to show

`sanitize_text` of `utils.c` writes a text to a buffer, with escapes for
the control characters. Each kind of character has its own test of the
room that is left; `sanitizeLoop_cons` says that they are one test.
-/

namespace NetatalkClient

open List

/-! ## The code -/

/-- The table `hex`. -/
def hexDigit (n : UInt8) : UInt8 := (text "0123456789abcdef").getD n.toNat 0

/-- The loop of `sanitize_text`: what is written from `pos` on. -/
def sanitizeLoop (size : ℕ) : ℕ → Octets → Octets
  | _, [] => []
  | pos, ch :: rest =>
      if ch = 0 ∨ size ≤ pos + 1 then []
      else if ch = 0x0d ∨ ch = 0x0a ∨ ch = 0x09 then
        let escaped := if ch = 0x0d then 0x72 else if ch = 0x0a then 0x6e else 0x74
        if size ≤ pos + 2 then [] else 0x5c :: escaped :: sanitizeLoop size (pos + 2) rest
      else if ch < 0x20 ∨ ch = 0x7f then
        if size ≤ pos + 4 then []
        else
          0x5c :: 0x78 :: hexDigit (ch >>> 4) :: hexDigit (ch &&& 0x0f) ::
            sanitizeLoop size (pos + 4) rest
      else ch :: sanitizeLoop size (pos + 1) rest

/-- What `sanitize_text` writes to the start of a buffer. -/
def sanitizeText (text : Option Octets) (size : ℕ) : Octets :=
  if size = 0 then []
  else
    match text with
    | none => [0]
    | some text => sanitizeLoop size 0 text ++ [0]

/-! ## What it is for -/

/-- How a character is shown. -/
def shownAs (ch : UInt8) : Octets :=
  if ch = 0x0d then text "\\r"
  else if ch = 0x0a then text "\\n"
  else if ch = 0x09 then text "\\t"
  else if ch < 0x20 ∨ ch = 0x7f then text "\\x" ++ [hexDigit (ch >>> 4), hexDigit (ch &&& 0x0f)]
  else [ch]

theorem hexDigit_safe {n : UInt8} (h : n.toNat < 16) : ¬hexDigit n < 0x20 ∧ hexDigit n ≠ 0x7f := by
  have hall : ∀ i < 16, ¬(text "0123456789abcdef").getD i 0 < 0x20 ∧
      (text "0123456789abcdef").getD i 0 ≠ 0x7f := by decide
  exact hall n.toNat h

theorem shownAs_safe (ch : UInt8) : ∀ b ∈ shownAs ch, ¬b < 0x20 ∧ b ≠ 0x7f := by
  have hletter {letter : UInt8} (h : ¬letter < 0x20 ∧ letter ≠ 0x7f) :
      ∀ b ∈ [0x5c, letter], ¬b < 0x20 ∧ b ≠ 0x7f := by simpa using h
  unfold shownAs
  split_ifs with hr hn ht hcontrol
  · exact hletter (by decide)
  · exact hletter (by decide)
  · exact hletter (by decide)
  · refine forall_mem_append.mpr ⟨hletter (by decide), ?_⟩
    refine forall_mem_cons.mpr ⟨hexDigit_safe ?_, forall_mem_singleton.mpr (hexDigit_safe ?_)⟩
    · have hlt := ch.toNat_lt
      show ch.toNat >>> 4 < 16
      rw [Nat.shiftRight_eq_div_pow]
      omega
    · exact Nat.lt_succ_of_le Nat.and_le_right
  · exact forall_mem_singleton.mpr (not_or.mp hcontrol)

variable {size pos : ℕ} {ch : UInt8} {rest : Octets}

/-- **A turn of the loop**, whatever the character. -/
theorem sanitizeLoop_cons (hch : ch ≠ 0) :
    sanitizeLoop size pos (ch :: rest) =
      if pos + (shownAs ch).length < size then
        shownAs ch ++ sanitizeLoop size (pos + (shownAs ch).length) rest
      else [] := by
  have hroom {n : ℕ} {out : Octets} (hn : 1 ≤ n) :
      (if ch = 0 ∨ size ≤ pos + 1 then [] else if size ≤ pos + n then [] else out) =
        if pos + n < size then out else [] := by
    by_cases hfits : pos + n < size
    · rw [if_neg (not_or.mpr ⟨hch, by omega⟩), if_neg (by omega), if_pos hfits]
    · rw [if_neg hfits, if_pos (by omega : size ≤ pos + n), ite_self]
  rw [sanitizeLoop]
  by_cases hletter : ch = 0x0d ∨ ch = 0x0a ∨ ch = 0x09
  · rw [if_pos hletter, hroom (by decide)]
    rcases hletter with rfl | rfl | rfl
    all_goals rfl
  rw [if_neg hletter]
  simp only [not_or] at hletter
  unfold shownAs
  rw [if_neg hletter.1, if_neg hletter.2.1, if_neg hletter.2.2]
  by_cases hcontrol : ch < 0x20 ∨ ch = 0x7f
  · rw [if_pos hcontrol, hroom (by decide), if_pos hcontrol]
    rfl
  · rw [if_neg hcontrol, if_neg hcontrol, length_singleton]
    by_cases hfits : pos + 1 < size
    · rw [if_neg (not_or.mpr ⟨hch, by omega⟩), if_pos hfits]
      rfl
    · rw [if_pos (.inr (by omega)), if_neg hfits]

/-- The loop shows characters until one does not fit. -/
theorem exists_sanitizeLoop {string : Octets} (hstring : ∀ ch ∈ string, ch ≠ 0)
    (hpos : pos < size) :
    ∃ shown rest, string = shown ++ rest ∧
      sanitizeLoop size pos string = shown.flatMap shownAs ∧
      pos + (shown.flatMap shownAs).length < size ∧
      ∀ ch ∈ rest.head?, size ≤ pos + (shown.flatMap shownAs).length + (shownAs ch).length := by
  induction string generalizing pos with
  | nil => exact ⟨[], [], rfl, rfl, hpos, nofun⟩
  | cons ch string ih =>
    rw [sanitizeLoop_cons (hstring ch mem_cons_self)]
    split_ifs with hfits
    · obtain ⟨shown, rest, rfl, hout, hlen, hnext⟩ :=
        ih (fun ch' h => hstring ch' (mem_cons_of_mem _ h)) hfits
      refine ⟨ch :: shown, rest, rfl, by rw [hout, flatMap_cons], ?_⟩
      rw [flatMap_cons, length_append, ← Nat.add_assoc]
      exact ⟨hlen, hnext⟩
    · exact ⟨[], ch :: string, rfl, rfl, hpos, fun _ h => Option.some.inj h ▸ not_lt.mp hfits⟩

theorem sanitizeLoop_cString (string : Octets) :
    sanitizeLoop size pos string = sanitizeLoop size pos (cString string) := by
  induction string generalizing pos with
  | nil => rfl
  | cons ch string ih =>
    by_cases hch : ch = 0
    · subst hch
      rfl
    · have hstring : cString (ch :: string) = ch :: cString string :=
        takeWhile_cons_of_pos (decide_eq_true hch)
      rw [hstring, sanitizeLoop_cons hch, sanitizeLoop_cons hch, ih]

/-- **What is shown is safe, and a part of the text.** In a buffer of any
size that is not zero, what is written ends with a NUL inside it; before
this are no control characters, but the characters of a part of the text,
up to the first for which there is no room. -/
theorem sanitizeText_shows (string : Octets) (room : ℕ) :
    ∃ shown rest, cString string = shown ++ rest ∧
      sanitizeText (some string) (room + 1) = shown.flatMap shownAs ++ [0] ∧
      (sanitizeText (some string) (room + 1)).length ≤ room + 1 ∧
      (∀ b ∈ shown.flatMap shownAs, ¬b < 0x20 ∧ b ≠ 0x7f) ∧
      ∀ ch ∈ rest.head?, room + 1 < (shown.flatMap shownAs ++ shownAs ch ++ [0]).length := by
  obtain ⟨shown, rest, hparts, hout, hlen, hnext⟩ := exists_sanitizeLoop
    (fun ch (h : ch ∈ cString string) => by simpa using mem_takeWhile_imp h) room.succ_pos
  have heq : sanitizeText (some string) (room + 1) = shown.flatMap shownAs ++ [0] := by
    rw [← hout, ← sanitizeLoop_cString]
    rfl
  refine ⟨shown, rest, hparts, heq, ?_, fun b hb => ?_, fun ch hch => ?_⟩
  · rw [heq, length_append, length_singleton]
    omega
  · obtain ⟨ch, -, hb⟩ := mem_flatMap.mp hb
    exact shownAs_safe ch b hb
  · have hroom := hnext ch hch
    rw [length_append, length_append, length_singleton]
    omega

end NetatalkClient
