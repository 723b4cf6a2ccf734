import NetatalkClient.Common.Codes
/-!
# Cmdline: the arguments of a command

How `cmdline_afp.c` reads arguments, with `escape_paths_alloc` and with
`parse_command_words_alloc`, and how it writes them: `quote_copy_argument`
for commands of its own, `escape_spaces` where a name is completed.
Allocations are taken to succeed.
-/

namespace NetatalkClient.Cmdline

def quote : UInt8 := 34
def backslash : UInt8 := 92
def blank : UInt8 := 32

/-- `isspace` of the C locale. -/
def isspace (c : UInt8) : Bool := c = blank ∨ (9 ≤ c ∧ c ≤ 13)

/-! ## Reading -/

/-- A character before what is read after it. -/
def onto {α : Type} (ch : UInt8) (r : Bool × Octets × α) : Bool × Octets × α :=
  (r.1, ch :: r.2.1, r.2.2)

/-- The loop of `escape_paths_alloc` over one path, with `inquote` and
`inescape`: whether a quote stays open, the path, and what follows the blank
that ends it. -/
def readPath : Bool → Bool → Octets → Bool × Octets × Option Octets
  | inquote, _, [] => (inquote, [], none)
  | inquote, inescape, ch :: rest =>
      if ch = quote ∧ ¬inescape then readPath (!inquote) false rest
      else if ch = blank ∧ ¬inescape ∧ ¬inquote then (false, [], some rest)
      else if ch = backslash ∧ ¬inescape then readPath inquote true rest
      else onto ch (readPath inquote false rest)

/-- `escape_paths_alloc`, for one path or for two. -/
def escapePathsAlloc (two : Bool) (incoming : Octets) : Option (List Octets) :=
  if incoming = [] then none
  else
    match two, readPath false false incoming with
    | false, (inquote, first, _) => if inquote then none else some [first]
    | true, (_, _, none) => none
    | true, (_, first, some rest) =>
        let (inquote, second, _) := readPath false false rest
        if inquote then none else some [first, second]

/-- The loop of `parse_command_words_alloc` over one word: whether a quote
stays open, the word, and what follows it. -/
def readWord : Bool → Octets → Bool × Octets × Octets
  | quoted, [] => (quoted, [], [])
  | quoted, ch :: rest =>
      if ¬quoted ∧ isspace ch then (quoted, [], ch :: rest)
      else if ch = quote then readWord (!quoted) rest
      else if ch = backslash then
        match rest with
        | [] => (quoted, [ch], [])
        | next :: rest => onto next (readWord quoted rest)
      else onto ch (readWord quoted rest)

/-- The loop over the words, of which this many may follow. -/
def readWords : ℕ → Octets → Except ℤ (List Octets)
  | 0, input => if input.dropWhile isspace = [] then .ok [] else .error (-e2big)
  | n + 1, input =>
      if input.dropWhile isspace = [] then .ok []
      else
        let (quoted, word, rest) := readWord false (input.dropWhile isspace)
        if quoted then .error (-einval) else (readWords n rest).map (word :: ·)

def parseCommandWordsAlloc (input : Octets) (maxWords : ℕ) : Except ℤ (List Octets) :=
  if maxWords = 0 then .error (-einval) else readWords maxWords input

/-! ## Writing -/

/-- The loop of `quote_copy_argument`. -/
def escaped (path : Octets) : Octets :=
  path.flatMap fun c => if c = quote ∨ c = backslash then [backslash, c] else [c]

def quoteCopyArgument (path : Octets) : Option Octets :=
  if afpcMaxUtf8PathBytes < path.length then none else some (quote :: escaped path ++ [quote])

/-- The loop of `escape_spaces`; a text without blanks is copied as well. -/
def spaced (str : Octets) : Octets := str.flatMap fun c => if c = blank then [backslash, c] else [c]

def escapeSpaces (str : Octets) : Option Octets :=
  if afpcMaxUtf8PathBytes < str.length then none else some (spaced str)

end NetatalkClient.Cmdline
