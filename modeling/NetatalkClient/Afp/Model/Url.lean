import NetatalkClient.Common.Codes
import NetatalkClient.Common.Separated
/-!
# Taking a URL apart

`parse_url` with the functions it calls. `none` stands for a run that
reads outside the text or is not done after so many turns, `some none`
for a refused text. `check_servername` is left out: it looks for a slash,
and the authority ends at the first one.
-/

namespace NetatalkClient

open Separated

/-- `strstr`, for a needle that is not empty. -/
def strstr (needle : Octets) : Octets → Option ℕ
  | [] => none
  | b :: rest =>
      if needle.isPrefixOf (b :: rest) then some 0 else (strstr needle rest).map (· + 1)

/-- `strlcpy` into an array. -/
def strlcpy (size : ℕ) (s : Octets) : Octets := s.take (size - 1)

def strtol (s : Octets) : ℤ :=
  let number (s : Octets) : ℕ :=
    (s.takeWhile fun b => 0x30 ≤ b && b ≤ 0x39).foldl (fun n b => 10 * n + (b.toNat - 0x30)) 0
  match s.dropWhile fun b => b == 0x20 || 9 ≤ b && b ≤ 13 with
  | [] => 0
  | sign :: s => if sign = 0x2d then -number s else number (if sign = 0x2b then s else sign :: s)

/-- The first separator that is not doubled. -/
def escapeStrchr (c : UInt8) : Octets → Option ℕ
  | [] => none
  | [b] => if b = c then some 0 else none
  | b :: d :: rest =>
      if b ≠ c then (escapeStrchr c (d :: rest)).map (· + 1)
      else if d ≠ c then some 0
      else (escapeStrchr c rest).map (· + 2)

/-- `escape_strrchr` on the part of `s` from `haystack` on. -/
def escapeStrrchr (c : UInt8) (s : Octets) : ℕ → ℕ → Option (Option ℕ)
  | 0, _ => none
  | turns + 1, haystack =>
      match lastIdx? c (s.drop haystack) with
      | none => some none
      | some i =>
          let p := haystack + i
          if i = 0 ∨ s.getD (p - 1) 0 ≠ c then some (some p)
          else if p < 2 then none
          else escapeStrrchr c s turns (p - 2)

/-- `escape_string`, from a point on. -/
def escapeString (c : UInt8) (inescape : Bool) : Octets → Octets
  | [] => []
  | d :: s =>
      if inescape ∧ d = c then escapeString c false s
      else d :: escapeString c (inescape || d == c) s

/-- What stands before a separator, and what after it. -/
def cutAt (s : Octets) : Option ℕ → Octets × Option Octets
  | none => (s, none)
  | some i => (s.take i, some (s.drop (i + 1)))

/-- The server name and the port. -/
def parseServer (p : Octets) : Option (Octets × Option ℤ) :=
  let cutPort (s : Octets) := cutAt s (firstIdx? 0x3a s)
  let (servername, q) :=
    match if p.head? = some 0x5b then firstIdx? 0x5d p else none with
    | some i => ((p.take i).tail, (cutPort (p.drop (i + 1))).2)
    | none => cutPort p
  match q with
  | none => some (servername, none)
  | some q =>
      -- `check_port`, and no port zero
      if strtol q < 0 ∨ 32767 < strtol q ∨ strtol q = 0 then none
      else some (servername, some (strtol q))

structure UrlParts where
  (user secondpart : Option Octets)
  servername : Octets
  /-- Left as it was where the text has none. -/
  port : Option ℤ

/-- `parse_url` up to the user part. -/
def splitUrl (toparse : Octets) : Option (Option UrlParts) :=
  match strstr (text "://") toparse with
  | none => some none
  | some p =>
      -- the scheme is compared from three characters before
      if p < 3 then none
      else if (toparse.drop (p - 3)).take 3 ≠ text "afp" then some none
      else
        let p := toparse.drop (p + 3)
        let (firstpart, secondpart) := cutAt p (firstIdx? 0x2f p)
        some <|
          if 255 ≤ firstpart.length then none
          else
            let (user, server) :=
              match cutAt firstpart (escapeStrchr 0x40 firstpart) with
              | (server, none) => (none, server)
              | (user, some server) => (some user, server)
            (parseServer server).map fun (servername, port) =>
              { user, secondpart, servername, port }

structure Url where
  (username uamname password servername volumename path : Octets)
  port : Option ℤ

/-- The user name, the method and the password. -/
def parseUser (uamStringToBitmap : Octets → ℕ) (user : Octets) (sep : Option ℕ) :
    Option (Octets × Octets × Octets) :=
  let (p, password) := cutAt user sep
  match strstr (text ";AUTH=") p with
  | none => some (p, [], password.getD [])
  | some q =>
      let uamname := strlcpy 50 (p.drop (q + 6))
      if uamStringToBitmap uamname = 0 then none
      else some (p.take q, uamname, password.getD [])

/-- From `parse_secondpart` on. -/
def parseSecondpart (parts : UrlParts) (user : Octets × Octets × Octets) : Option Url :=
  let s := parts.secondpart.getD []
  let s := if s.getLast? = some 0x2f then s.dropLast else s
  let (volumename, q) := cutAt s (firstIdx? 0x2f s)
  if q.any fun q => afpcMaxUtf8PathBytes < q.length + 1 then none
  else
    some
      { username := escapeString 0x3a false (strlcpy 127 user.1)
        uamname := user.2.1
        password := escapeString 0x40 false (strlcpy 127 user.2.2)
        servername := strlcpy 255 parts.servername
        volumename := strlcpy 255 volumename
        path := (q.map (0x2f :: ·)).getD []
        port := parts.port }

def parseUrl (uamStringToBitmap : Octets → ℕ) (turns : ℕ) (toparse : Octets) :
    Option (Option Url) :=
  match splitUrl toparse with
  | none => none
  | some none => some none
  | some (some parts) =>
      match parts.user with
      | none => some (parseSecondpart parts ([], [], []))
      | some user =>
          (escapeStrrchr 0x3a user turns 0).map fun sep =>
            (parseUser uamStringToBitmap user sep).bind (parseSecondpart parts)

end NetatalkClient
