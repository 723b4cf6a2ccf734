import NetatalkClient.Codepage.Model.Convert
/-!
# Code pages: Mac Roman

The tables of `mac_roman.h` and the conversions of `codepage.c` between a
Mac Roman name, which is what a volume without UTF-8 names has, and UTF-8.
The way there reads one table; the way back looks a character up in seven
pages, or among five characters that have no page.
-/

namespace NetatalkClient

/-! ## `mac_roman.h` -/

/-- The characters of the bytes from 0x80. -/
def macRoman2uni : List ℕ := [
  0x00C4, 0x00C5, 0x00C7, 0x00C9, 0x00D1, 0x00D6, 0x00DC, 0x00E1,
  0x00E0, 0x00E2, 0x00E4, 0x00E3, 0x00E5, 0x00E7, 0x00E9, 0x00E8,
  0x00EA, 0x00EB, 0x00ED, 0x00EC, 0x00EE, 0x00EF, 0x00F1, 0x00F3,
  0x00F2, 0x00F4, 0x00F6, 0x00F5, 0x00FA, 0x00F9, 0x00FB, 0x00FC,
  0x2020, 0x00B0, 0x00A2, 0x00A3, 0x00A7, 0x2022, 0x00B6, 0x00DF,
  0x00AE, 0x00A9, 0x2122, 0x00B4, 0x00A8, 0x2260, 0x00C6, 0x00D8,
  0x221E, 0x00B1, 0x2264, 0x2265, 0x00A5, 0x00B5, 0x2202, 0x2211,
  0x220F, 0x03C0, 0x222B, 0x00AA, 0x00BA, 0x2126, 0x00E6, 0x00F8,
  0x00BF, 0x00A1, 0x00AC, 0x221A, 0x0192, 0x2248, 0x2206, 0x00AB,
  0x00BB, 0x2026, 0x00A0, 0x00C0, 0x00C3, 0x00D5, 0x0152, 0x0153,
  0x2013, 0x2014, 0x201C, 0x201D, 0x2018, 0x2019, 0x00F7, 0x25CA,
  0x00FF, 0x0178, 0x2044, 0x20AC, 0x2039, 0x203A, 0xFB01, 0xFB02,
  0x2021, 0x00B7, 0x201A, 0x201E, 0x2030, 0x00C2, 0x00CA, 0x00C1,
  0x00CB, 0x00C8, 0x00CD, 0x00CE, 0x00CF, 0x00CC, 0x00D3, 0x00D4,
  0xF8FF, 0x00D2, 0x00DA, 0x00DB, 0x00D9, 0x0131, 0x02C6, 0x02DC,
  0x00AF, 0x02D8, 0x02D9, 0x02DA, 0x00B8, 0x02DD, 0x02DB, 0x02C7]

/-- U+00A0 to U+00FF. -/
def macRomanPage00 : List UInt8 := [
  0xCA, 0xC1, 0xA2, 0xA3, 0, 0xB4, 0, 0xA4, 0xAC, 0xA9, 0xBB, 0xC7,
  0xC2, 0, 0xA8, 0xF8, 0xA1, 0xB1, 0, 0, 0xAB, 0xB5, 0xA6, 0xE1,
  0xFC, 0, 0xBC, 0xC8, 0, 0, 0, 0xC0, 0xCB, 0xE7, 0xE5, 0xCC,
  0x80, 0x81, 0xAE, 0x82, 0xE9, 0x83, 0xE6, 0xE8, 0xED, 0xEA, 0xEB, 0xEC,
  0, 0x84, 0xF1, 0xEE, 0xEF, 0xCD, 0x85, 0, 0xAF, 0xF4, 0xF2, 0xF3,
  0x86, 0, 0, 0xA7, 0x88, 0x87, 0x89, 0x8B, 0x8A, 0x8C, 0xBE, 0x8D,
  0x8F, 0x8E, 0x90, 0x91, 0x93, 0x92, 0x94, 0x95, 0, 0x96, 0x98, 0x97,
  0x99, 0x9B, 0x9A, 0xD6, 0xBF, 0x9D, 0x9C, 0x9E, 0x9F, 0, 0, 0xD8]

/-- U+0131 to U+0192. -/
def macRomanPage01 : List UInt8 := [
  0xF5, 0, 0, 0, 0, 0, 0, 0, 0, 0, 0, 0,
  0, 0, 0, 0, 0, 0, 0, 0, 0, 0, 0, 0,
  0, 0, 0, 0, 0, 0, 0, 0, 0, 0xCE, 0xCF, 0,
  0, 0, 0, 0, 0, 0, 0, 0, 0, 0, 0, 0,
  0, 0, 0, 0, 0, 0, 0, 0, 0, 0, 0, 0,
  0, 0, 0, 0, 0, 0, 0, 0, 0, 0, 0, 0xD9,
  0, 0, 0, 0, 0, 0, 0, 0, 0, 0, 0, 0,
  0, 0, 0, 0, 0, 0, 0, 0, 0, 0, 0, 0,
  0, 0xC4]

/-- U+02C6 to U+02DD. -/
def macRomanPage02 : List UInt8 := [
  0xF6, 0xFF, 0, 0, 0, 0, 0, 0, 0, 0, 0, 0,
  0, 0, 0, 0, 0, 0, 0xF9, 0xFA, 0xFB, 0xFE, 0xF7, 0xFD]

/-- U+2013 to U+2044. -/
def macRomanPage20 : List UInt8 := [
  0xD0, 0xD1, 0, 0, 0, 0xD4, 0xD5, 0xE2, 0, 0xD2, 0xD3, 0xE3,
  0, 0xA0, 0xE0, 0xA5, 0, 0, 0, 0xC9, 0, 0, 0, 0,
  0, 0, 0, 0xE4, 0, 0, 0, 0, 0, 0, 0, 0,
  0, 0, 0xDC, 0xDD, 0, 0, 0, 0, 0, 0, 0, 0,
  0, 0xDA]

/-- U+2122 to U+2126. -/
def macRomanPage21 : List UInt8 := [
  0xAA, 0, 0, 0, 0xBD]

/-- U+2202 to U+2265. -/
def macRomanPage22 : List UInt8 := [
  0xB6, 0, 0, 0, 0xC6, 0, 0, 0, 0, 0, 0, 0,
  0, 0xB8, 0, 0xB7, 0, 0, 0, 0, 0, 0, 0, 0,
  0xC3, 0, 0, 0, 0xB0, 0, 0, 0, 0, 0, 0, 0,
  0, 0, 0, 0xBA, 0, 0, 0, 0, 0, 0, 0, 0,
  0, 0, 0, 0, 0, 0, 0, 0, 0, 0, 0, 0,
  0, 0, 0, 0, 0, 0, 0, 0, 0xC5, 0, 0, 0,
  0, 0, 0, 0, 0, 0, 0, 0, 0, 0, 0, 0,
  0, 0, 0, 0, 0, 0, 0, 0, 0, 0, 0xAD, 0,
  0, 0, 0xB2, 0xB3]

/-- U+FB01 and U+FB02. -/
def macRomanPagefb : List UInt8 := [0xDE, 0xDF]

/-! ## `codepage.c` -/

/-- The character of a byte, as `convert_mac_roman_to_utf8` looks it up. -/
def macRomanToUnicode (c : UInt8) : ℕ :=
  if c < 0x80 then c.toNat else macRoman2uni.getD (c.toNat - 0x80) 0

/-- `convert_mac_roman_to_utf8`: what it returns, and `dest`. At most 255
characters are taken. -/
def convertMacRomanToUtf8 (host : ByteOrder) (src : Octets) (destLen : ℕ) : ℤ × Octets :=
  if src = [] ∨ destLen = 0 then (-1, [])
  else
    let ucs2buf := ((src.takeWhile (· ≠ 0)).take 255).map macRomanToUnicode
    match ucs2toUTF8 host destLen 0 ucs2buf with
    | none => (-1, [])
    | some dest => (0, dest)

/-- `unicode_to_mac_roman`; 0 if the character has no byte. -/
def unicodeToMacRoman (uc : ℕ) : UInt8 :=
  if 0x00A0 ≤ uc ∧ uc ≤ 0x00FF then macRomanPage00.getD (uc - 0x00A0) 0
  else if 0x0131 ≤ uc ∧ uc ≤ 0x0192 then macRomanPage01.getD (uc - 0x0131) 0
  else if 0x02C6 ≤ uc ∧ uc ≤ 0x02DD then macRomanPage02.getD (uc - 0x02C6) 0
  else if uc = 0x03C0 then 0xB9
  else if 0x2013 ≤ uc ∧ uc ≤ 0x2044 then macRomanPage20.getD (uc - 0x2013) 0
  else if uc = 0x20AC then 0xDB
  else if 0x2122 ≤ uc ∧ uc ≤ 0x2126 then macRomanPage21.getD (uc - 0x2122) 0
  else if 0x2202 ≤ uc ∧ uc ≤ 0x2265 then macRomanPage22.getD (uc - 0x2202) 0
  else if uc = 0x25CA then 0xD7
  else if uc = 0xF8FF then 0xF0
  else if 0xFB01 ≤ uc ∧ uc ≤ 0xFB02 then macRomanPagefb.getD (uc - 0xFB01) 0
  else 0

/-- The loop of `convert_utf8_to_mac_roman`, with `out` bytes written;
`none` is its exit at a character without a byte. -/
def macRomanBytes (destLen : ℕ) : ℕ → List ℕ → Option Octets
  | _, [] => some []
  | out, c :: ucs2 =>
      if c = 0 then some []
      else if destLen - 1 ≤ out then some []
      else if c < 0x80 then (macRomanBytes destLen (out + 1) ucs2).map (UInt8.ofNat c :: ·)
      else
        let mr := unicodeToMacRoman c
        if mr = 0 then none else (macRomanBytes destLen (out + 1) ucs2).map (mr :: ·)

/-- `convert_utf8_to_mac_roman`: what it returns, and `dest`. -/
def convertUtf8ToMacRoman (src : Octets) (destLen : ℕ) : ℤ × Octets :=
  if src = [] ∨ destLen = 0 then (-1, [])
  else
    match macRomanBytes destLen 0 (utf8toUCS2 src) with
    | none => (-1, [])
    | some dest => (0, dest)

end NetatalkClient
