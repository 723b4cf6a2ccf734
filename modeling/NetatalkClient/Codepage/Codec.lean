import NetatalkClient.Codepage.Helpers.Separators
/-!
# Code pages: the codec both ways, and the room for a decomposition

`UTF8toUCS2` and `UCS2toUTF8` undo each other on a little-endian host. On a
big-endian host the two bytes of a character are taken for one another, and
only characters of two equal bytes come back. The buffer of
`convert_utf8pre_to_utf8dec` has four places for a character, and no
character of the table needs more.
-/

namespace NetatalkClient

open List Option

variable {c : ℕ} {cs : List ℕ} {n room : ℕ} {dest : List ℕ}

/-- `UTF8toUCS2`; `none` if it returns no string. -/
def utf8toUCS2Within (str : Octets) (maxBytes : ℕ) : Option (List ℕ) :=
  if maxBytes = 0 then none else some (utf8toUCS2 (str.take maxBytes))

/-! ## The codec -/

/-- The host's byte order does not matter to these characters. -/
def Unswapped (host : ByteOrder) (cs : List ℕ) : Prop :=
  host = .little ∨ ∀ c ∈ cs, c % 256 = c / 256

theorem cString_utf8 (h : IsUcs2 cs) : cString (utf8 cs) = utf8 cs := by
  refine takeWhile_eq_self_iff.mpr fun b hb => decide_eq_true fun h0 => ?_
  have hpos := (mem_utf8 h hb).1
  rw [h0] at hpos
  exact absurd hpos (by decide)

theorem flatMap_encodeChar (h : IsUcs2 cs) {host : ByteOrder} (hswap : Unswapped host cs) :
    cs.flatMap (encodeChar host) = utf8 cs := by
  rw [← flatMap_encodeChar_little h]
  rcases hswap with rfl | halike
  · rfl
  cases host with
  | little => rfl
  | big =>
    rw [flatMap_def, flatMap_def, map_congr_left fun c hc => ?_]
    rw [encodeChar_eq, encodeChar_eq, char16Bytes, char16Bytes, halike c hc]

theorem cString_cons (hpos : 0 < n) (hlt : n < 256) (p : Octets) :
    cString (UInt8.ofNat n :: p) = UInt8.ofNat n :: cString p := by
  refine takeWhile_cons_of_pos (decide_eq_true fun h0 => ?_)
  have hn : (UInt8.ofNat n).toNat = 0 := congrArg UInt8.toNat h0
  rw [toNat_ofNat hlt] at hn
  omega

/-- A character beyond ASCII is written without a NUL, and what is read in
its place is the character only if its bytes are equal. -/
theorem utf8toUCS2_encodeChar_big (h1 : ¬ c < 0x80) (hlt : c < 0x10000) (rest : Octets) :
    ∃ d, utf8toUCS2 (cString (encodeChar .big c ++ rest)) = d :: utf8toUCS2 (cString rest) ∧
      (d = c → c % 256 = c / 256) := by
  have hlo : c % 256 < 256 := Nat.mod_lt _ (by decide)
  have hsplit : c = c / 256 * 256 + c % 256 := by omega
  rw [encodeChar_eq]
  dsimp only [char16Bytes]
  rw [if_neg h1]
  split_ifs with h2
  · have hlead : c % 256 % 8 * 4 + c / 256 / 64 % 4 < 32 := by omega
    rw [cons_append, singleton_append, cString_cons (by omega) (by omega),
      cString_cons (by omega) (by omega), utf8toUCS2_next (nextLen_two hlead _ _),
      decodeChar_two hlead (by omega)]
    refine ⟨_, rfl, fun hd => ?_⟩
    split_ifs at hd
    · omega
    · omega
  · have hmiddle : c % 256 % 16 * 4 + c / 256 / 64 % 4 < 64 := by omega
    rw [cons_append, cons_append, singleton_append,
      cString_cons (by omega) (by omega), cString_cons (by omega) (by omega),
      cString_cons (by omega) (by omega), utf8toUCS2_next (nextLen_three (by omega) _ _ _),
      decodeChar_three (by omega) hmiddle (by omega)]
    refine ⟨_, rfl, fun hd => ?_⟩
    split_ifs at hd
    · omega
    · omega

/-- Characters that are read back have equal bytes: an ASCII character is
written as a NUL, which ends the string. -/
theorem alike_of_read (h : IsUcs2 cs)
    (hread : utf8toUCS2 (cString (cs.flatMap (encodeChar .big))) = cs) :
    ∀ c ∈ cs, c % 256 = c / 256 := by
  induction cs with
  | nil => simp
  | cons c cs ih =>
    obtain ⟨⟨hpos, hlt⟩, hcs⟩ := isUcs2_cons.mp h
    rw [flatMap_cons] at hread
    by_cases h1 : c < 0x80
    · rw [encodeChar, if_pos h1, char16Bytes, Nat.div_eq_of_lt (by omega : c < 256)] at hread
      cases hread
    obtain ⟨d, hd, halike⟩ := utf8toUCS2_encodeChar_big h1 hlt (cs.flatMap (encodeChar .big))
    rw [hd, List.cons.injEq] at hread
    exact forall_mem_cons.mpr ⟨halike hread.1, ih hcs hread.2⟩

/-- **The codec is exact but on a big-endian host.** What is written of the
characters read from a UTF-8 string, and what is read of the characters
written, are the same as before exactly if the host is little-endian or
every character has two equal bytes. -/
theorem codec_exact_iff (host : ByteOrder) (cs : List ℕ) (h : IsUcs2 cs) (maxBytes destLen : ℕ)
    (hmax : 0 < maxBytes) (hle : (utf8 cs).length ≤ maxBytes) (hroom : (utf8 cs).length < destLen) :
    (((utf8toUCS2Within (utf8 cs) maxBytes).bind (ucs2toUTF8 host destLen 0) = some (utf8 cs)) ↔
        Unswapped host cs) ∧
      ((((ucs2toUTF8 host destLen 0 cs).map cString).bind fun dest =>
        utf8toUCS2Within dest maxBytes) = some cs ↔ Unswapped host cs) := by
  have hread (dest : Octets) (hdest : dest.length ≤ maxBytes) :
      utf8toUCS2Within dest maxBytes = some (utf8toUCS2 dest) := by
    rw [utf8toUCS2Within, if_neg (Nat.ne_of_gt hmax), take_of_length_le hdest]
  have hlen : (cString (cs.flatMap (encodeChar host))).length ≤ maxBytes := by
    have heq : (cs.flatMap (encodeChar host)).length = (utf8 cs).length := by
      simp only [utf8, length_flatMap, length_encodeChar]
    have hcut := (takeWhile_sublist (l := cs.flatMap (encodeChar host)) (· ≠ 0)).length_le
    rw [cString]
    omega
  have hwrite : ucs2toUTF8 host destLen 0 cs = some (cs.flatMap (encodeChar host)) :=
    ucs2toUTF8_eq h (by omega)
  rw [hread _ hle, utf8toUCS2_utf8 h, bind_some, hwrite, map_some, bind_some,
    hread _ hlen, some.injEq, some.injEq]
  have hback : utf8toUCS2 (cString (cs.flatMap (encodeChar host))) = cs → Unswapped host cs := by
    intro heq
    cases host with
    | little => exact .inl rfl
    | big => exact .inr (alike_of_read h heq)
  refine ⟨⟨fun heq => hback ?_, flatMap_encodeChar h⟩, hback, fun hswap => ?_⟩
  · rw [heq, cString_utf8 h, utf8toUCS2_utf8 h]
  · rw [flatMap_encodeChar h hswap, cString_utf8 h, utf8toUCS2_utf8 h]

/-- Two characters on a little-endian host. -/
theorem codec_exact_little : Unswapped .little [0x41, 0xe9] ∧
    (utf8toUCS2Within (utf8 [0x41, 0xe9]) 8).bind (ucs2toUTF8 .little 8 0) =
      some (utf8 [0x41, 0xe9]) :=
  ⟨.inl rfl, (codec_exact_iff .little [0x41, 0xe9] (by decide) 8 8 (by decide) (by decide)
    (by decide)).1.mpr (.inl rfl)⟩

/-- **On a big-endian host even ASCII is lost**: a letter is written as a
NUL. -/
theorem ascii_lost_big_endian :
    (utf8toUCS2Within (utf8 [0x41]) 8).bind (ucs2toUTF8 .big 8 0) = some [0] ∧
      utf8 [0x41] ≠ [0] := by
  decide

/-! ## The room for a decomposition -/

/-- `decompose_char`, into a buffer for `room` characters that begins with
those of `dest`: `none` if a character is written past its end, or if the
recursion goes deeper than the second argument. -/
def decomposeCharInto (room : ℕ) : ℕ → ℕ → List ℕ → Option (List ℕ)
  | 0, _, _ => none
  | depth + 1, c, dest =>
      match ucs2Decompose c with
      | some (first, second) =>
          (decomposeCharInto room depth first dest).bind (decomposeCharInto room depth second)
      | none => if dest.length < room then some (dest ++ [c]) else none

/-- The loop of `convert_utf8pre_to_utf8dec`, and the zero after it. -/
def decomposeInto (room depth : ℕ) : List ℕ → List ℕ → Option (List ℕ)
  | [], dest => if dest.length < room then some dest else none
  | c :: p16pre, dest =>
      if c = 0 then if dest.length < room then some dest else none
      else (decomposeCharInto room depth c dest).bind (decomposeInto room depth p16pre)

def str16len (str16 : List ℕ) (maxLen : ℕ) : ℕ := ((str16.take maxLen).takeWhile (· ≠ 0)).length

theorem Decomposes.into {l : List ℕ} (h : Decomposes c l) (hdepth : depth c < n)
    (hroom : dest.length + l.length ≤ room) :
    decomposeCharInto room n c dest = some (dest ++ l) := by
  induction h generalizing dest n with
  | whole hwhole =>
    obtain ⟨n, rfl⟩ := Nat.exists_eq_add_one_of_ne_zero (Nat.ne_zero_of_lt hdepth)
    simp only [decomposeCharInto, hwhole]
    exact if_pos hroom
  | parts hdec _ _ ih₁ ih₂ =>
    obtain ⟨n, rfl⟩ := Nat.exists_eq_add_one_of_ne_zero (Nat.ne_zero_of_lt hdepth)
    have hsound := (soundEntry_of_decompose hdec).1
    simp only [soundEntry, Bool.and_eq_true, decide_eq_true_eq] at hsound
    rw [length_append] at hroom
    simp only [decomposeCharInto, hdec]
    rw [ih₁ (by omega) (by omega), bind_some, ih₂ (by omega)
      (by rw [length_append]; omega), append_assoc]

/-- A character needs four places at most, and the recursion for it four
levels. -/
theorem decomposeCharInto_eq (hn : decomposeDepth < n) (hroom : dest.length + 4 ≤ room) :
    decomposeCharInto room n c dest = some (dest ++ decomposeChar decomposeDepth c) := by
  have hdec := decomposes_decomposeChar (depth_le c)
  have hlen := hdec.length_le_depth
  have hdepth : depth c ≤ 3 := depth_le c
  exact hdec.into (lt_of_le_of_lt hdepth hn) (by omega)

theorem decomposeInto_eq (hn : decomposeDepth < n)
    (hroom : dest.length + 4 * (cs.takeWhile (· ≠ 0)).length < room) :
    decomposeInto room n cs dest =
      some (dest ++ (cs.takeWhile (· ≠ 0)).flatMap (decomposeChar decomposeDepth)) := by
  induction cs generalizing dest with
  | nil =>
    rw [decomposeInto, if_pos (by simpa using hroom)]
    simp
  | cons c cs ih =>
    rw [decomposeInto]
    by_cases h0 : c = 0
    · rw [takeWhile_cons_of_neg (by simpa using h0)] at hroom ⊢
      rw [if_pos h0, if_pos (by simpa using hroom)]
      simp
    · rw [takeWhile_cons_of_pos (by simpa using h0)] at hroom ⊢
      have hlen := (decomposes_decomposeChar (depth_le c)).length_le_depth
      have hdepth : depth c ≤ 3 := depth_le c
      rw [length_cons] at hroom
      rw [if_neg h0, decomposeCharInto_eq hn (by omega), bind_some,
        ih (by rw [length_append]; omega), flatMap_cons, append_assoc]

theorem length_utf8toUCS2_le (src : Octets) : (utf8toUCS2 src).length ≤ src.length := by
  have hlen : ∀ n p, (decodeChars n p).length ≤ n := by
    intro n
    induction n with
    | zero => exact fun _ => le_rfl
    | succ n ih =>
      intro p
      unfold decodeChars
      split
      · exact Nat.zero_le _
      · exact Nat.succ_le_succ (ih _)
  have hcount : ∀ n p, mbStrLen n p ≤ n := by
    intro n
    induction n with
    | zero => exact fun _ => le_rfl
    | succ n ih =>
      intro p
      unfold mbStrLen
      split
      · exact Nat.zero_le _
      · exact Nat.succ_le_succ (ih _)
  exact le_trans (hlen _ _) (hcount _ _)

/-- **A character decomposes into four at most, and the buffer suffices.**
The recursion ends within four levels and writes at most four characters,
whatever is in the buffer; so for every string the loop of
`convert_utf8pre_to_utf8dec` writes the decomposition of every character
and the zero at the end. -/
theorem decomposition_bounded :
    (∀ c, ∃ l : List ℕ, l.length ≤ 4 ∧ ∀ more room dest,
      decomposeCharInto (dest.length + 4 + room) (4 + more) c dest = some (dest ++ l)) ∧
    ∀ (src : Octets) (more : ℕ),
      decomposeInto (str16len (utf8toUCS2 src) src.length * 4 + 1) (4 + more) (utf8toUCS2 src) [] =
        some (((utf8toUCS2 src).takeWhile (· ≠ 0)).flatMap (decomposeChar decomposeDepth)) := by
  refine ⟨fun c => ⟨decomposeChar decomposeDepth c, ?_, ?_⟩, fun src more => ?_⟩
  · have hlen := (decomposes_decomposeChar (depth_le c)).length_le_depth
    have hdepth : depth c ≤ 3 := depth_le c
    omega
  · intro more room dest
    exact decomposeCharInto_eq (by unfold decomposeDepth; omega) (by omega)
  · rw [str16len, take_of_length_le (length_utf8toUCS2_le src)]
    exact decomposeInto_eq (by unfold decomposeDepth; omega) (by rw [length_nil]; omega)

end NetatalkClient
