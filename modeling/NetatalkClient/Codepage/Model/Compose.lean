import NetatalkClient.Codepage.Model.Convert
/-!
# Code pages: composition

The functions that take a name from the server to its precomposed form:
`UCS2precompose`, a binary search in the table, and the greedy loop of
`convert_utf8dec_to_utf8pre`, which composes a character with what the
last ones came to.
-/

namespace NetatalkClient

/-- `delta[]`: where the search starts, and how far it moves then. -/
def delta : List ℕ := [499, 249, 125, 62, 31, 16, 8, 4, 2, 1, 0]

def precomposedAt (i : ℕ) : ℕ := (table.getD i (0, 0)).1

def patternAt (i : ℕ) : ℕ := (table.getD i (0, 0)).2

/-- The loop of `UCS2precompose` at `i`, with `delta` from `j`. -/
def precomposeFrom (needle : ℕ) : List ℕ → ℕ → Option ℕ
  | d :: d' :: ds, i =>
      if d = 0 then none
      else if needle < patternAt i then precomposeFrom needle (d' :: ds) (i - d')
      else if patternAt i < needle then precomposeFrom needle (d' :: ds) (i + d')
      else some (precomposedAt i)
  | _, _ => none

/-- `UCS2precompose`; `none` is -1. -/
def ucs2Precompose (first second : ℕ) : Option ℕ :=
  precomposeFrom ((first <<< 16) ||| second) delta (delta.headD 0)

theorem ucs2Precompose_def (first second : ℕ) : ucs2Precompose first second =
    precomposeFrom ((first <<< 16) ||| second) delta 499 := rfl

-- the search is not unfolded into the table where it is not evaluated
attribute [irreducible] ucs2Precompose

/-- The loop of `convert_utf8dec_to_utf8pre`, with `ucs2Len` characters
written: what it writes from there. -/
def composeLoop (ucs2Len prev : ℕ) : List ℕ → List ℕ
  | [] => []
  | c :: p16dec =>
      -- the character after which the string ends is written with it
      let last := fun ucs2Len prev =>
        if p16dec = [] ∧ ucs2Len < 383 then [prev] else composeLoop ucs2Len prev p16dec
      if 383 ≤ ucs2Len then []
      else if 0 < prev then
        match ucs2Precompose prev c with
        | some comp => last ucs2Len comp
        | none => prev :: last (ucs2Len + 1) c
      else last ucs2Len c

/-- `convert_utf8dec_to_utf8pre`: what it returns, and `dest`. -/
def convertUtf8decToUtf8pre (host : ByteOrder) (src : Octets) (destLen : ℕ) : ℤ × Octets :=
  if src = [] ∨ destLen = 0 then (-1, [])
  else
    let path16dec := utf8toUCS2 src
    let path16pre := composeLoop 0 0 (path16dec.takeWhile (· ≠ 0))
    match ucs2toUTF8 host destLen 0 path16pre with
    | none => (-1, [])
    | some dest => (0, dest)

end NetatalkClient
