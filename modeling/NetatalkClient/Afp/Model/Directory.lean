import NetatalkClient.Afp.Model.ReplyBlock
import NetatalkClient.Dsi.Model.Server
/-!
# AFP: directory replies

The replies to FPEnumerate and its extensions hold one block for each file
or directory, with its size before it; the reply to FPGetFileDirParms
holds one block.
-/

namespace NetatalkClient

open Octets

/-- The two forms of an entry: `reply_entry` and `ext2_reply_entry`. -/
inductive EntryForm where
  | replyEntry
  | ext2ReplyEntry
  deriving DecidableEq, Repr

namespace EntryForm

/-- The `sizeof` of the form. -/
def sizeof : EntryForm → ℕ
  | replyEntry => 2
  | ext2ReplyEntry => 4

/-- The member `size` of an entry, in host order. -/
def size : EntryForm → Octets → ℕ
  | replyEntry, entry => entry.byte 0
  | ext2ReplyEntry, entry => entry.be16 0

/-- The member `isdir` of an entry. -/
def isdir : EntryForm → Octets → ℕ
  | replyEntry, entry => entry.byte 1
  | ext2ReplyEntry, entry => entry.byte 2

end EntryForm

/-- The return code of a reply as it stands in the buffer: the handlers do
not bring it into host order. The host is little-endian. -/
def returnCode (buf : Octets) : ℤ := toInt (buf.le32 4)

/-- The loop over the entries, from `p` on. -/
def enumerateEntries (form : EntryForm) (server : Option AfpClock) (buf : Octets)
    (size filebitmap dirbitmap : ℕ) : ℕ → ℕ → Option (List AfpFileInfo)
  | 0, _ => some []
  | i + 1, p =>
      let entry := buf.drop p
      let entrySize := form.size entry
      if size - p < form.sizeof then none
      else if entrySize < form.sizeof ∨ size - p < entrySize then none
      else
        match parseReplyBlock server (entry.drop form.sizeof) (entrySize - form.sizeof)
          (form.isdir entry) filebitmap dirbitmap with
        | .error _ => none
        | .ok filecur =>
            (enumerateEntries form server buf size filebitmap dirbitmap i (p + entrySize)).map
              (filecur :: ·)

/-- What the two functions do alike: the return value, and what is stored
through `other`. -/
def enumerateReply (form : EntryForm) (server : Option AfpClock) (buf : Octets) (size : ℕ) :
    ℤ × Option (List AfpFileInfo) :=
  if size < headerSize then (-1, none)
  else if returnCode buf ≠ 0 then (returnCode buf, none)
  else if size < headerSize + 6 then (-1, none)
  else
    match enumerateEntries form server buf size (buf.be16 16) (buf.be16 18) (buf.be16 20) 22 with
    | none => (-1, none)
    | some filebase => (0, some filebase)

/-- `afp_enumerate_reply`. -/
def afpEnumerateReply : Option AfpClock → Octets → ℕ → ℤ × Option (List AfpFileInfo) :=
  enumerateReply .replyEntry

/-- `afp_enumerateext2_reply`. -/
def afpEnumerateext2Reply : Option AfpClock → Octets → ℕ → ℤ × Option (List AfpFileInfo) :=
  enumerateReply .ext2ReplyEntry

/-- `afp_enumerateext_reply`. -/
def afpEnumerateextReply : Option AfpClock → Octets → ℕ → ℤ × Option (List AfpFileInfo) :=
  afpEnumerateext2Reply

/-- `afp_getfiledirparms_reply`: the return value, and `filecur` as it is
left. -/
def afpGetfiledirparmsReply (server : Option AfpClock) (buf : Octets) (size : ℕ)
    (filecur : AfpFileInfo) : ℤ × AfpFileInfo :=
  if size < headerSize + 6 then (-1, filecur)
  else if returnCode buf ≠ 0 then (returnCode buf, filecur)
  else
    match parseReplyBlock server (buf.drop 22) (size - 22) (buf.byte 20) (buf.be16 16)
      (buf.be16 18) with
    | .error filecur => (-1, filecur)
    | .ok filecur => (0, { filecur with isdir := buf.byte 20 })

end NetatalkClient
