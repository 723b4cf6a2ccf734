import NetatalkClient.Common.Octets
import NetatalkClient.Codepage.Model.Table
/-!
# Code pages: UTF-8, UCS-2 and the path conversion

The functions of `unicode.c` that take UTF-8 to 16-bit characters and back,
and those of `codepage.c` that convert a path for the server. A C string is
the bytes before its NUL, a string of `char16` the characters before its
zero. `UCS2toUTF8` reads a character byte by byte, so its result depends on
the byte order of the host. Allocations succeed.
-/

namespace NetatalkClient

inductive ByteOrder where
  | little
  | big
  deriving DecidableEq, Repr

/-! ## `unicode.c` -/

/-- The loop of `mbCharLen` over the bits of a byte, from the highest. -/
def leadingOnes (c : ℕ) : ℕ :=
  ([0x80, 0x40, 0x20, 0x10, 0x08, 0x04, 0x02, 0x01].takeWhile fun mask => c &&& mask ≠ 0).length

/-- `mbCharLen`, by the byte pointed to. -/
def mbCharLen (c : UInt8) : ℕ :=
  if c = 0 then 0
  else
    match leadingOnes c.toNat with
    | 0 => 1
    | 1 => 0
    | count => count

/-- The length of the next character, where there is a whole one before
the end of the string. -/
def nextLen (p : Octets) : Option ℕ :=
  match p with
  | [] => none
  | c :: _ =>
      if mbCharLen c = 0 ∨ p.length < mbCharLen c then none else some (mbCharLen c)

/-- `mbStrLen`; the first argument bounds the turns, each of which moves
past a byte at least. -/
def mbStrLen : ℕ → Octets → ℕ
  | 0, _ => 0
  | fuel + 1, p =>
      match nextLen p with
      | none => 0
      | some clen => mbStrLen fuel (p.drop clen) + 1

/-- The character of `clen` bytes at `p`, as `UTF8toUCS2` decodes it. -/
def decodeChar (clen : ℕ) (p : Octets) : ℕ :=
  let p := fun i => (p.getD i 0).toNat
  match clen with
  | 1 => p 0
  | 2 =>
      let c16 := (p 1 &&& 0x3f) + ((p 0 &&& 0x1f) <<< 6)
      if c16 > 0x7f ∧ p 1 &&& 0xC0 = 0x80 then c16 else 0x2a
  | 3 =>
      let c16 := (p 2 &&& 0x3f) + ((p 1 &&& 0x3f) <<< 6) + ((p 0 &&& 0xf) <<< 12)
      if c16 > 0x7ff ∧ p 1 &&& 0xC0 = 0x80 ∧ p 2 &&& 0xC0 = 0x80 then c16 else 0x2a
  | _ => 0x7e

/-- The second loop of `UTF8toUCS2`, for as many characters as were
counted. -/
def decodeChars : ℕ → Octets → List ℕ
  | 0, _ => []
  | n + 1, p =>
      match nextLen p with
      | none => []
      | some clen => decodeChar clen p :: decodeChars n (p.drop clen)

def utf8toUCS2 (str : Octets) : List ℕ := decodeChars (mbStrLen str.length str) str

/-- `p[0]` and `p[1]`, where `p` points to a 16-bit character. -/
def char16Bytes (host : ByteOrder) (c : ℕ) : ℕ × ℕ :=
  match host with
  | .little => (c % 256, c / 256)
  | .big => (c / 256, c % 256)

/-- The bytes `UCS2toUTF8` writes for a character. -/
def encodeChar (host : ByteOrder) (c : ℕ) : Octets :=
  let p := char16Bytes host c
  if c < 0x0080 then [UInt8.ofNat p.1]
  else if c < 0x0800 then
    [UInt8.ofNat (0xc0 ||| ((p.2 &&& 0x7) <<< 2) ||| ((p.1 &&& 0xc0) >>> 6)),
      UInt8.ofNat (0x80 ||| (p.1 &&& 0x3f))]
  else
    [UInt8.ofNat (0xe0 ||| ((p.2 &&& 0xf0) >>> 4)),
      UInt8.ofNat (0x80 ||| ((p.2 &&& 0xf) <<< 2) ||| ((p.1 &&& 0xc0) >>> 6)),
      UInt8.ofNat (0x80 ||| (p.1 &&& 0x3f))]

/-- `UCS2toUTF8`, with `used` bytes written; `none` if there is no room. -/
def ucs2toUTF8 (host : ByteOrder) (destLen : ℕ) : ℕ → List ℕ → Option Octets
  | _, [] => some []
  | used, c :: str16 =>
      if c = 0 then some []
      else
        let bytes := encodeChar host c
        if used + bytes.length + 1 > destLen then none
        else (ucs2toUTF8 host destLen (used + bytes.length) str16).map (bytes ++ ·)

/-- `UCS2decompose`: a linear search that leaves out the dummy entry. -/
def ucs2Decompose (c : ℕ) : Option (ℕ × ℕ) :=
  (table.tail.find? fun e => e.1 = c).map fun e => ((e.2 >>> 16) &&& 0xFFFF, e.2 &&& 0xFFFF)

/-! ## `codepage.c` -/

def isContinuation (c : UInt8) : Bool := c &&& 0xc0 = 0x80

def containsSupplementaryUtf8 : Octets → Bool
  | [] => false
  | c :: src =>
      (0xf0 ≤ c && c ≤ 0xf4 &&
        match src with
        | c₁ :: c₂ :: c₃ :: _ => isContinuation c₁ && isContinuation c₂ && isContinuation c₃
        | _ => false) ||
      containsSupplementaryUtf8 src

/-- `copy_if_supplementary_utf8`: what it returns, and `dest`, which was
empty. -/
def copyIfSupplementaryUtf8 (src : Octets) (destLen : ℕ) : ℤ × Octets :=
  if !containsSupplementaryUtf8 src then (0, [])
  else if destLen ≤ src.length then (-1, [])
  else (1, src)

/-- `decompose_char`. The first argument bounds the depth of the
recursion. -/
def decomposeChar : ℕ → ℕ → List ℕ
  | 0, c => [c]
  | depth + 1, c =>
      match ucs2Decompose c with
      | some (first, second) => decomposeChar depth first ++ decomposeChar depth second
      | none => [c]

/-- No character of the table is deeper. -/
def decomposeDepth : ℕ := 3

def convertUtf8preToUtf8dec (host : ByteOrder) (src : Octets) (destLen : ℕ) : ℤ × Octets :=
  if src = [] ∨ destLen = 0 then (-1, [])
  else
    let path16pre := utf8toUCS2 src
    let path16dec := (path16pre.takeWhile (· ≠ 0)).flatMap (decomposeChar decomposeDepth)
    match ucs2toUTF8 host destLen 0 path16dec with
    | none => (-1, [])
    | some dest => (0, dest)

inductive PathEncoding where
  | kFPLongName
  | kFPUTF8Name
  | other
  deriving DecidableEq, Repr

/-- `convert_path_to_afp`: what it returns, and `dest`. The conversion to
Mac Roman is a parameter. -/
def convertPathToAfp (host : ByteOrder) (convertUtf8ToMacRoman : Octets → ℕ → ℤ × Octets)
    (encoding : PathEncoding) (src : Octets) (destLen : ℕ) : ℤ × Octets :=
  if destLen = 0 then (-1, [])
  else
    -- as far as `strnlen` goes
    let src := (src.take destLen).takeWhile (· ≠ 0)
    match encoding with
    | .kFPUTF8Name =>
        let (copied, dest) := copyIfSupplementaryUtf8 src destLen
        if copied < 0 then (-1, dest)
        else if dest = [] ∧ src ≠ [] then (0, (convertUtf8preToUtf8dec host src destLen).2)
        else (0, dest)
    | .kFPLongName =>
        if containsSupplementaryUtf8 src then (-1, [])
        else
          let (ret, dest) := convertUtf8ToMacRoman src destLen
          if ret < 0 then (-1, dest)
          else if 255 < dest.length then (-1, [])
          else (0, dest)
    | .other => (-1, [])

end NetatalkClient
