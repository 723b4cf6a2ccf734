import NetatalkClient.Codepage.Model.Convert
/-!
# Code pages: the UTF-8 codec

`utf8` is the encoding of 16-bit characters in one to three bytes. On a
little-endian host `UCS2toUTF8` writes it, and `UTF8toUCS2` reads every
string of it back. Masks and shifts come down to remainders and quotients,
checked byte by byte.
-/

namespace NetatalkClient

open List

variable {c : ℕ} {cs ds : List ℕ} {p : Octets} {b clen a : ℕ}

/-- A character below 2¹⁶ in UTF-8. -/
def utf8Char (c : ℕ) : Octets :=
  if c < 0x80 then [UInt8.ofNat c]
  else if c < 0x800 then [UInt8.ofNat (0xc0 + c / 64), UInt8.ofNat (0x80 + c % 64)]
  else
    [UInt8.ofNat (0xe0 + c / 4096), UInt8.ofNat (0x80 + c / 64 % 64), UInt8.ofNat (0x80 + c % 64)]

def utf8 (cs : List ℕ) : Octets := cs.flatMap utf8Char

/-- The characters a `char16` string can hold before its zero. -/
def IsUcs2 (cs : List ℕ) : Prop := ∀ c ∈ cs, 0 < c ∧ c < 0x10000

instance : Decidable (IsUcs2 cs) := inferInstanceAs (Decidable (∀ c ∈ cs, 0 < c ∧ c < 0x10000))

@[simp] theorem utf8_nil : utf8 [] = [] := rfl

@[simp] theorem utf8_cons : utf8 (c :: cs) = utf8Char c ++ utf8 cs := by
  simp [utf8]

theorem utf8_append : utf8 (cs ++ ds) = utf8 cs ++ utf8 ds := by
  simp [utf8]

theorem isUcs2_cons : IsUcs2 (c :: cs) ↔ (0 < c ∧ c < 0x10000) ∧ IsUcs2 cs := by
  simp [IsUcs2]

theorem isUcs2_append : IsUcs2 (cs ++ ds) ↔ IsUcs2 cs ∧ IsUcs2 ds := by
  simp only [IsUcs2, mem_append]
  constructor
  · intro h
    exact ⟨fun c hc => h c (.inl hc), fun c hc => h c (.inr hc)⟩
  · rintro ⟨hcs, hds⟩ c (hc | hc)
    · exact hcs c hc
    · exact hds c hc

/-- The three lengths of a character. -/
theorem length_utf8Char :
    (utf8Char c).length = if c < 0x80 then 1 else if c < 0x800 then 2 else 3 := by
  unfold utf8Char
  split_ifs <;> rfl

theorem length_utf8Char_pos : 0 < (utf8Char c).length := by
  rw [length_utf8Char]
  split_ifs <;> decide

theorem utf8_ne_nil (h : cs ≠ []) : utf8 cs ≠ [] := by
  obtain ⟨d, ds, rfl⟩ := exists_cons_of_ne_nil h
  rw [utf8_cons]
  exact append_ne_nil_of_left_ne_nil (ne_nil_of_length_pos length_utf8Char_pos) _

/-! ## Bytes -/

theorem toNat_ofNat {n : ℕ} (h : n < 256) : (UInt8.ofNat n).toNat = n := by
  simpa using h

theorem mbCharLen_ofNat : ∀ n < 0xf0, mbCharLen (UInt8.ofNat n) =
    if n = 0 then 0 else if n < 0x80 then 1 else if n < 0xc0 then 0 else if n < 0xe0 then 2
    else 3 := by
  decide +kernel

theorem and_63 (x : ℕ) : x &&& 0x3f = x % 64 := Nat.and_two_pow_sub_one_eq_mod x 6

theorem and_31 (x : ℕ) : x &&& 0x1f = x % 32 := Nat.and_two_pow_sub_one_eq_mod x 5

theorem and_15 (x : ℕ) : x &&& 0xf = x % 16 := Nat.and_two_pow_sub_one_eq_mod x 4

theorem and_7 (x : ℕ) : x &&& 0x7 = x % 8 := Nat.and_two_pow_sub_one_eq_mod x 3

/-- The bits of a byte above a position. -/
theorem shiftRight_and_c0 (x : ℕ) : (x &&& 0xc0) >>> 6 = x / 64 % 4 := by
  rw [Nat.shiftRight_and_distrib, Nat.shiftRight_eq_div_pow]
  exact Nat.and_two_pow_sub_one_eq_mod (x / 64) 2

theorem shiftRight_and_f0 (x : ℕ) : (x &&& 0xf0) >>> 4 = x / 16 % 16 := by
  rw [Nat.shiftRight_and_distrib, Nat.shiftRight_eq_div_pow]
  exact and_15 (x / 16)

theorem tail_bits (x : ℕ) (h : x < 64) : (0x80 + x) &&& 0x3f = x ∧ (0x80 + x) &&& 0xC0 = 0x80 := by
  have hcont : ∀ x < 64, (0x80 + x) &&& 0xC0 = 0x80 := by decide
  rw [and_63]
  exact ⟨by omega, hcont x h⟩

theorem lead2_bits (x : ℕ) (h : x < 32) : (0xc0 + x) &&& 0x1f = x := by
  rw [and_31]
  omega

theorem lead3_bits (x : ℕ) (h : x < 16) : (0xe0 + x) &&& 0xf = x := by
  rw [and_15]
  omega

theorem shiftLeft_two_or (a : ℕ) (hb : b < 4) : a <<< 2 ||| b = a * 4 + b := by
  rw [Nat.shiftLeft_eq, Nat.mul_comm]
  exact (Nat.two_pow_add_eq_or_of_lt (i := 2) hb a).symm

theorem or_lead2 (a : ℕ) (ha : a < 8) (b : ℕ) (hb : b < 4) :
    0xc0 ||| (a <<< 2) ||| b = 0xc0 + (a * 4 + b) := by
  rw [Nat.or_assoc, shiftLeft_two_or a hb]
  exact (Nat.two_pow_add_eq_or_of_lt (i := 6) (by omega : a * 4 + b < 2 ^ 6) 3).symm

theorem or_lead3 (a : ℕ) (h : a < 16) : 0xe0 ||| a = 0xe0 + a :=
  (Nat.two_pow_add_eq_or_of_lt (i := 4) h 14).symm

theorem or_tail (a : ℕ) (h : a < 64) : 0x80 ||| a = 0x80 + a :=
  (Nat.two_pow_add_eq_or_of_lt (i := 6) h 2).symm

theorem or_middle (a : ℕ) (ha : a < 16) (b : ℕ) (hb : b < 4) :
    0x80 ||| (a <<< 2) ||| b = 0x80 + (a * 4 + b) := by
  rw [Nat.or_assoc, shiftLeft_two_or a hb]
  exact or_tail _ (by omega)

/-! ## Writing -/

/-- The bytes written, without masks and shifts. -/
theorem encodeChar_eq (host : ByteOrder) (c : ℕ) : encodeChar host c =
    let p := char16Bytes host c
    if c < 0x80 then [UInt8.ofNat p.1]
    else if c < 0x800 then
      [UInt8.ofNat (0xc0 + (p.2 % 8 * 4 + p.1 / 64 % 4)), UInt8.ofNat (0x80 + p.1 % 64)]
    else
      [UInt8.ofNat (0xe0 + p.2 / 16 % 16), UInt8.ofNat (0x80 + (p.2 % 16 * 4 + p.1 / 64 % 4)),
        UInt8.ofNat (0x80 + p.1 % 64)] := by
  simp only [encodeChar, shiftRight_and_c0, shiftRight_and_f0, and_63, and_15, and_7]
  rw [or_lead2 _ (by omega) _ (by omega), or_lead3 _ (by omega),
    or_middle _ (by omega) _ (by omega), or_tail _ (by omega)]

theorem length_encodeChar (host : ByteOrder) :
    (encodeChar host c).length = (utf8Char c).length := by
  rw [length_utf8Char]
  unfold encodeChar
  split_ifs <;> rfl

/-- **On a little-endian host the bytes written are UTF-8.** -/
theorem encodeChar_little (h : c < 0x10000) : encodeChar .little c = utf8Char c := by
  have hlead2 : c / 256 % 8 * 4 + c % 256 / 64 % 4 = c / 64 % 32 := by omega
  have hlead3 : c / 256 / 16 % 16 = c / 4096 := by omega
  have hmiddle : c / 256 % 16 * 4 + c % 256 / 64 % 4 = c / 64 % 64 := by omega
  have htail : c % 256 % 64 = c % 64 := by omega
  simp only [encodeChar_eq, char16Bytes, utf8Char, hlead2, hlead3, hmiddle, htail]
  by_cases h1 : c < 0x80
  · rw [if_pos h1, if_pos h1, Nat.mod_eq_of_lt (by omega : c < 256)]
  rw [if_neg h1, if_neg h1]
  by_cases h2 : c < 0x800
  · rw [if_pos h2, if_pos h2, Nat.mod_eq_of_lt (by omega : c / 64 < 32)]
  · rw [if_neg h2, if_neg h2]

/-- With room for all of it and a NUL, the whole string is written. -/
theorem ucs2toUTF8_eq {host : ByteOrder} {destLen used : ℕ} (h : IsUcs2 cs)
    (hroom : used + (utf8 cs).length < destLen) :
    ucs2toUTF8 host destLen used cs = some (cs.flatMap (encodeChar host)) := by
  induction cs generalizing used with
  | nil => rfl
  | cons c cs ih =>
    obtain ⟨⟨hpos, -⟩, hcs⟩ := isUcs2_cons.mp h
    rw [utf8_cons, length_append] at hroom
    rw [ucs2toUTF8, if_neg (Nat.ne_of_gt hpos)]
    dsimp only
    rw [length_encodeChar, if_neg (by omega), ih hcs (by omega), Option.map_some, flatMap_cons]

theorem flatMap_encodeChar_little (h : IsUcs2 cs) : cs.flatMap (encodeChar .little) = utf8 cs := by
  rw [utf8, flatMap_def, flatMap_def, map_congr_left fun c hc => encodeChar_little (h c hc).2]

theorem ucs2toUTF8_little {destLen used : ℕ} (h : IsUcs2 cs)
    (hroom : used + (utf8 cs).length < destLen) :
    ucs2toUTF8 .little destLen used cs = some (utf8 cs) := by
  rw [ucs2toUTF8_eq h hroom, flatMap_encodeChar_little h]

/-! ## Reading -/

theorem nextLen_cons {b : UInt8} (hlen : mbCharLen b = clen) (hpos : clen ≠ 0)
    (hle : clen ≤ (b :: p).length) : nextLen (b :: p) = some clen := by
  rw [nextLen, hlen, if_neg (not_or.mpr ⟨hpos, Nat.not_lt.mpr hle⟩)]

theorem nextLen_two (h : a < 32) (b : UInt8) (p : Octets) :
    nextLen (UInt8.ofNat (0xc0 + a) :: b :: p) = some 2 := by
  have hlen := mbCharLen_ofNat (0xc0 + a) (by omega)
  rw [if_neg (by omega), if_neg (by omega), if_neg (by omega), if_pos (by omega)] at hlen
  exact nextLen_cons hlen (by decide) (by simp)

theorem nextLen_three (h : a < 16) (b d : UInt8) (p : Octets) :
    nextLen (UInt8.ofNat (0xe0 + a) :: b :: d :: p) = some 3 := by
  have hlen := mbCharLen_ofNat (0xe0 + a) (by omega)
  rw [if_neg (by omega), if_neg (by omega), if_neg (by omega), if_neg (by omega)] at hlen
  exact nextLen_cons hlen (by decide) (by simp)

theorem nextLen_utf8Char (hpos : 0 < c) (hlt : c < 0x10000) :
    nextLen (utf8Char c ++ p) = some (utf8Char c).length := by
  rw [length_utf8Char]
  unfold utf8Char
  split_ifs with h1 h2
  · have hlen := mbCharLen_ofNat c (by omega)
    rw [if_neg (by omega), if_pos h1] at hlen
    exact nextLen_cons hlen (by decide) (by simp)
  · exact nextLen_two (by omega) _ _
  · exact nextLen_three (by omega) _ _ _

theorem decodeChar_two (ha : a < 32) (hb : b < 64) (p : Octets) :
    decodeChar 2 (UInt8.ofNat (0xc0 + a) :: UInt8.ofNat (0x80 + b) :: p) =
      if a * 64 + b > 0x7f then a * 64 + b else 0x2a := by
  obtain ⟨htail, hcont⟩ := tail_bits b hb
  simp only [decodeChar, getD_cons_zero, getD_cons_succ,
    toNat_ofNat (show 0xc0 + a < 256 by omega), toNat_ofNat (show 0x80 + b < 256 by omega),
    lead2_bits a ha, htail, hcont, Nat.shiftLeft_eq, and_true]
  rw [show b + a * 2 ^ 6 = a * 64 + b by omega]

theorem decodeChar_three {d : ℕ} (ha : a < 16) (hb : b < 64) (hd : d < 64) (p : Octets) :
    decodeChar 3 (UInt8.ofNat (0xe0 + a) :: UInt8.ofNat (0x80 + b) :: UInt8.ofNat (0x80 + d) :: p) =
      if a * 4096 + b * 64 + d > 0x7ff then a * 4096 + b * 64 + d else 0x2a := by
  obtain ⟨hmiddle, hcont₁⟩ := tail_bits b hb
  obtain ⟨htail, hcont₂⟩ := tail_bits d hd
  simp only [decodeChar, getD_cons_zero, getD_cons_succ,
    toNat_ofNat (show 0xe0 + a < 256 by omega), toNat_ofNat (show 0x80 + b < 256 by omega),
    toNat_ofNat (show 0x80 + d < 256 by omega), lead3_bits a ha, hmiddle, hcont₁, htail, hcont₂,
    Nat.shiftLeft_eq, and_true]
  rw [show d + b * 2 ^ 6 + a * 2 ^ 12 = a * 4096 + b * 64 + d by omega]

theorem decodeChar_utf8Char (hlt : c < 0x10000) :
    decodeChar (utf8Char c).length (utf8Char c ++ p) = c := by
  rw [length_utf8Char]
  unfold utf8Char
  split_ifs with h1 h2
  · simp only [decodeChar, singleton_append, getD_cons_zero]
    exact toNat_ofNat (by omega)
  · refine (decodeChar_two (by omega) (by omega) p).trans ?_
    rw [show c / 64 * 64 + c % 64 = c by omega, if_pos (by omega)]
  · refine (decodeChar_three (by omega) (by omega) (by omega) p).trans ?_
    rw [show c / 4096 * 4096 + c / 64 % 64 * 64 + c % 64 = c by omega, if_pos (by omega)]

theorem mbStrLen_utf8 {fuel : ℕ} (h : IsUcs2 cs) (hfuel : (utf8 cs).length ≤ fuel) :
    mbStrLen fuel (utf8 cs) = cs.length := by
  induction cs generalizing fuel with
  | nil =>
    cases fuel with
    | zero => rfl
    | succ fuel => rfl
  | cons c cs ih =>
    obtain ⟨⟨hpos, hlt⟩, hcs⟩ := isUcs2_cons.mp h
    have hlen : 0 < (utf8Char c).length := length_utf8Char_pos
    rw [utf8_cons, length_append] at hfuel
    obtain ⟨fuel, rfl⟩ : ∃ f, fuel = f + 1 := ⟨fuel - 1, by omega⟩
    simp only [mbStrLen, utf8_cons, nextLen_utf8Char hpos hlt, drop_left]
    rw [ih hcs (by omega), length_cons]

theorem nextLen_pos (h : nextLen p = some clen) : 0 < clen ∧ clen ≤ p.length := by
  cases p with
  | nil => cases h
  | cons b p =>
    rw [nextLen] at h
    split_ifs at h with hlen
    cases h
    exact ⟨Nat.pos_of_ne_zero fun h0 => hlen (.inl h0), Nat.le_of_not_lt fun hlt => hlen (.inr hlt)⟩

/-- The turns allowed make no difference, where there are enough. -/
theorem mbStrLen_fuel {m n : ℕ} (hm : p.length ≤ m) (hn : p.length ≤ n) :
    mbStrLen m p = mbStrLen n p := by
  induction m generalizing n p with
  | zero =>
    obtain rfl : p = [] := length_eq_zero_iff.mp (Nat.le_zero.mp hm)
    cases n <;> rfl
  | succ m ih =>
    cases n with
    | zero =>
      obtain rfl : p = [] := length_eq_zero_iff.mp (Nat.le_zero.mp hn)
      rfl
    | succ n =>
      cases hnext : nextLen p with
      | none => simp only [mbStrLen, hnext]
      | some clen =>
        have hclen := nextLen_pos hnext
        have hdrop := length_drop (i := clen) (l := p)
        simp only [mbStrLen, hnext]
        exact congrArg (· + 1) (ih (by omega) (by omega))

/-- **A character is read, then the rest.** -/
theorem utf8toUCS2_next (h : nextLen p = some clen) :
    utf8toUCS2 p = decodeChar clen p :: utf8toUCS2 (p.drop clen) := by
  have hclen := nextLen_pos h
  obtain ⟨n, hn⟩ : ∃ n, p.length = n + 1 := ⟨p.length - 1, by omega⟩
  unfold utf8toUCS2
  rw [hn, mbStrLen, h]
  dsimp only
  rw [decodeChars, h, mbStrLen_fuel (n := (p.drop clen).length) (by rw [length_drop]; omega)
    (Nat.le_refl _)]

/-- **All of a UTF-8 string is read.** -/
theorem utf8toUCS2_utf8 (h : IsUcs2 cs) : utf8toUCS2 (utf8 cs) = cs := by
  induction cs with
  | nil => rfl
  | cons c cs ih =>
    obtain ⟨⟨hpos, hlt⟩, hcs⟩ := isUcs2_cons.mp h
    rw [utf8_cons, utf8toUCS2_next (nextLen_utf8Char hpos hlt), decodeChar_utf8Char hlt,
      drop_left, ih hcs]

/-! ## Bytes that do not occur -/

theorem mem_utf8Char (hpos : 0 < c) (hlt : c < 0x10000) {b : UInt8} (hb : b ∈ utf8Char c) :
    0 < b.toNat ∧ b.toNat < 0xf0 := by
  unfold utf8Char at hb
  split_ifs at hb with h1 h2
  · rw [mem_singleton.mp hb, toNat_ofNat (by omega)]
    omega
  · simp only [mem_cons, not_mem_nil, or_false] at hb
    rcases hb with rfl | rfl
    · rw [toNat_ofNat (by omega)]
      omega
    · rw [toNat_ofNat (by omega)]
      omega
  · simp only [mem_cons, not_mem_nil, or_false] at hb
    rcases hb with rfl | rfl | rfl
    · rw [toNat_ofNat (by omega)]
      omega
    · rw [toNat_ofNat (by omega)]
      omega
    · rw [toNat_ofNat (by omega)]
      omega

theorem mem_utf8 (h : IsUcs2 cs) {b : UInt8} (hb : b ∈ utf8 cs) : 0 < b.toNat ∧ b.toNat < 0xf0 := by
  obtain ⟨c, hc, hbc⟩ := mem_flatMap.mp hb
  exact mem_utf8Char (h c hc).1 (h c hc).2 hbc

/-- A string without high lead bytes has no supplementary character. -/
theorem containsSupplementaryUtf8_eq_false (h : ∀ b ∈ p, b.toNat < 0xf0) :
    containsSupplementaryUtf8 p = false := by
  induction p with
  | nil => rfl
  | cons b p ih =>
    have hb : (decide (0xf0 ≤ b)) = false :=
      decide_eq_false fun hle => absurd (h b mem_cons_self)
        (Nat.not_lt.mpr (UInt8.le_iff_toNat_le.mp hle))
    unfold containsSupplementaryUtf8
    simp only [hb, Bool.false_and, Bool.false_or]
    exact ih fun c hc => h c (mem_cons_of_mem b hc)

end NetatalkClient
