import NetatalkClient.Codepage.Model.Compose
import NetatalkClient.Codepage.Model.MacRoman
import NetatalkClient.Afp.Model.ReplyBlock
/-!
# Code pages: names on the wire

What is done to a name between its two forms: `copy_path` puts a header
with its length before it, `unixpath_to_afppath` exchanges the characters
that separate path components, and `convert_path_to_unix` takes a name
from a reply back.
-/

namespace NetatalkClient

open Octets

/-- `AFP_MAX_UTF8_PATH_STORAGE`. -/
def afpMaxUtf8PathStorage : ℕ := 65536

/-- `AFP_MAX_UTF8_NAME_CHARS`. -/
def afpMaxUtf8NameChars : ℕ := 255

/-- `copy_path`: what it writes to `dest`. -/
def copyPath (encoding : PathEncoding) (pathname : Octets) (len : ℕ) : Octets :=
  match encoding with
  | .kFPUTF8Name =>
      let len := min len 65535
      [3, 0x08, 0x00, 0x01, 0x03, UInt8.ofNat (len / 256), UInt8.ofNat (len % 256)] ++
        pathname.window len
  | .kFPLongName =>
      let len := min len 255
      [2, UInt8.ofNat len] ++ pathname.window len
  | .other => []

/-- A byte of a path, on the way to the server. -/
def separatorToAfp (c : UInt8) : UInt8 :=
  if c = 0x2f then 0 else if c = 0x3a then 0x2f else c

/-- `unixpath_to_afppath`: the path with its header, as `copy_path` wrote
it. -/
def unixpathToAfppath (encoding : PathEncoding) (buf : Octets) : Octets :=
  match encoding with
  | .kFPUTF8Name => buf.take 7 ++ ((buf.drop 7).take (buf.be16 5)).map separatorToAfp ++
      (buf.drop 7).drop (buf.be16 5)
  | .kFPLongName => buf.take 2 ++ ((buf.drop 2).take (buf.byte 1)).map separatorToAfp ++
      (buf.drop 2).drop (buf.byte 1)
  | .other => buf

/-- A byte of a name, on the way back. -/
def separatorToUnix (c : UInt8) : UInt8 := if c = 0x2f then 0x3a else c

/-- The loop at the end of `convert_path_to_unix`. -/
def separatorsToUnix (destLen : ℕ) (dest : Octets) : Octets :=
  (dest.take (destLen - 1)).map separatorToUnix ++ dest.drop (destLen - 1)

/-- `convert_path_to_unix`: what it returns, and `dest`. -/
def convertPathToUnix (host : ByteOrder) (encoding : PathEncoding) (src : Octets)
    (destLen : ℕ) : ℤ × Octets :=
  if destLen = 0 then (-1, [])
  else
    -- as far as `strnlen` goes
    let src := (src.take destLen).takeWhile (· ≠ 0)
    match encoding with
    | .kFPUTF8Name =>
        let (copied, dest) := copyIfSupplementaryUtf8 src destLen
        if copied < 0 then (-1, dest)
        else
          let dest := if dest = [] ∧ src ≠ [] then (convertUtf8decToUtf8pre host src destLen).2
            else dest
          (0, separatorsToUnix destLen dest)
    | .kFPLongName => (0, separatorsToUnix destLen (convertMacRomanToUtf8 host src destLen).2)
    | .other => (-1, [])

/-- The path of one name as it is sent, with its header. -/
def sentPath (host : ByteOrder) (name : Octets) : Octets :=
  let converted :=
    (convertPathToAfp host convertUtf8ToMacRoman .kFPUTF8Name name afpMaxUtf8PathStorage).2
  unixpathToAfppath .kFPUTF8Name (copyPath .kFPUTF8Name converted converted.length)

/-- The check of `invalid_filename` on a converted name, with AFP 3.0 or
later. -/
def invalidFilename (converted : Octets) : Bool :=
  afpMaxUtf8NameChars < mbStrLen converted.length converted

/-- `invalid_filename`, of a whole path: a component is too long. -/
def invalidPath (avNumber : ℕ) (encoding : PathEncoding) (filename : Octets) : Bool :=
  if filename = [0x2f] then false
  else
    let maxlen := if avNumber < 30 then 31 else 255
    (filename.splitOn 0x2f).any fun component =>
      if encoding = .kFPUTF8Name ∧ 30 ≤ avNumber then
        maxlen < mbStrLen component.length component
      else maxlen < component.length

/-- A name as a reply gives it: the length and the octets that were sent,
behind a hint, somewhere in a block. -/
def replyBlock (before hint sent after : Octets) : Octets := before ++ hint ++ sent.drop 5 ++ after

/-- A name sent, and taken out of a reply block that has it as sent. -/
def nameRoundTrip (host : ByteOrder) (name before hint after : Octets) : Option Octets :=
  let block := replyBlock before hint (sentPath host name) after
  (copyAfpnameBounded afpcMaxNameBytes block block.length before.length).map fun stored =>
    (convertPathToUnix host .kFPUTF8Name stored afpcMaxNameBytes).2

end NetatalkClient
