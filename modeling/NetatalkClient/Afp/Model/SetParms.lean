import NetatalkClient.Codepage.Model.Wire
/-!
# AFP: setting parameters

`FPSetFileParms`, `FPSetDirParms` and `FPSetFileDirParms` are built by one
function: a header, the path, and at the next even position the fields
that a bitmap announces. A server takes such a request apart by the same
layout, with the fields as wide as `parse_reply_block` has them.
-/

namespace NetatalkClient

open Octets

/-- What `afp_setparms_lowlevel` reads of the volume and its server. -/
structure SetparmsVolume where
  volid : UInt16
  pathEncoding : PathEncoding
  server : Option AfpClock

/-- `sizeof_path_header`. -/
def sizeofPathHeader : PathEncoding → ℕ
  | .kFPUTF8Name => 7
  | .kFPLongName => 2
  | .other => 0

/-- The length of the packed structure before the path. -/
def setparmsHeaderSize : ℕ := 26

/-- `htons`. -/
def htons (host : ByteOrder) (n : ℕ) : ℕ :=
  match host with
  | .little => n % 256 * 256 + n / 256 % 256
  | .big => n % 65536

/-- `*p = htons(fp->attributes)` and `p += 2`. The store goes through a
`char *`: it is of one octet, and the next is as `memset` left it. -/
def storedAttributes (host : ByteOrder) (attributes : ℕ) : Octets :=
  [UInt8.ofNat (htons host attributes), 0]

/-- The fields behind the path. -/
def setparmsFields (host : ByteOrder) (server : Option AfpClock) (bitmap : ℕ) (fp : AfpFileInfo) :
    Octets :=
  (if bitmap &&& kFPAttributeBit ≠ 0 then storedAttributes host fp.attributes else []) ++
  (if bitmap &&& kFPCreateDateBit ≠ 0 then padded 4 (afpDateFromUnix server fp.creationDate)
    else []) ++
  (if bitmap &&& kFPModDateBit ≠ 0 then padded 4 (afpDateFromUnix server fp.modificationDate)
    else []) ++
  (if bitmap &&& kFPBackupDateBit ≠ 0 then padded 4 (afpDateFromUnix server fp.backupDate)
    else []) ++
  (if bitmap &&& kFPFinderInfoBit ≠ 0 then fp.finderinfo else []) ++
  (if bitmap &&& kFPUnixPrivsBit ≠ 0 then
    padded 4 fp.unixprivs.uid ++ padded 4 fp.unixprivs.gid ++ padded 4 fp.unixprivs.permissions ++
      padded 4 fp.unixprivs.uaPermissions
    else [])

/-- The packed structure at the front of the packet. `dsiHeader` is what
`afpc_dsi_setup_header` made. -/
def setparmsHeader (dsiHeader : Vector UInt8 16) (command : UInt8) (volid : UInt16)
    (dirid : UInt32) (bitmap : UInt16) : Octets :=
  dsiHeader.toList ++ ([command, 0] ++ (padded 2 volid.toNat ++ (padded 4 dirid.toNat ++
    padded 2 bitmap.toNat)))

/-- `afp_setparms_lowlevel`: the packet it sends. -/
def afpSetparmsLowlevel (host : ByteOrder) (volume : SetparmsVolume) (dsiHeader : Vector UInt8 16)
    (dirid : UInt32) (pathname : Octets) (bitmap : UInt16) (fp : AfpFileInfo) (command : UInt8) :
    Octets :=
  let encoding := volume.pathEncoding
  let pathlen := sizeofPathHeader encoding + pathname.length
  let path := unixpathToAfppath encoding (copyPath encoding pathname pathname.length)
  -- the buffer is cleared, and the octet before an even position stays so
  setparmsHeader dsiHeader command volume.volid dirid bitmap ++ (path.window pathlen ++
    (List.replicate ((setparmsHeaderSize + pathlen) % 2) 0 ++
      setparmsFields host volume.server bitmap.toNat fp))

/-! ## What a server reads -/

/-- What such a request asks for. -/
structure SetparmsRequest where
  command : ℕ
  volid : ℕ
  dirid : ℕ
  bitmap : ℕ
  pathname : Octets
  filecur : AfpFileInfo

/-- A byte of a path, back from the wire. -/
def separatorFromAfp (c : UInt8) : UInt8 :=
  if c = 0 then 0x2f else if c = 0x2f then 0x3a else c

/-- The path at the front of `buf`, and how much of `buf` it takes. -/
def readPath (buf : Octets) : Option (Octets × ℕ) :=
  let header := if buf.byte 0 = 3 then 7 else 2
  let len := if buf.byte 0 = 3 then buf.be16 5 else buf.byte 1
  if (buf.byte 0 = 3 ∨ buf.byte 0 = 2) ∧ header + len ≤ buf.length then
    some ((octetsAt buf header len).map separatorFromAfp, header + len)
  else none

/-- The request in a packet, about a file or a directory. The fields start
at an even position. -/
def readSetparms (server : Option AfpClock) (isdir : Bool) (packet : Octets) :
    Option SetparmsRequest :=
  let bitmap := packet.be16 24
  let flag := if isdir then 0x80 else 0
  match readPath (packet.drop setparmsHeaderSize) with
  | none => none
  | some (pathname, used) =>
      let p := setparmsHeaderSize + used + (setparmsHeaderSize + used) % 2
      match parseReplyBlock server (packet.drop p) (packet.length - p) flag bitmap bitmap with
      | .error _ => none
      | .ok filecur =>
          some ⟨packet.byte 16, packet.be16 18, packet.be32 20, bitmap, pathname, filecur⟩

end NetatalkClient
