import NetatalkClient.Afp.Model.Directory
import NetatalkClient.Afp.Model.Volume
import NetatalkClient.Codepage.Model.Wire
import NetatalkClient.Did.Model.Cache
/-!
# AFP: listing a directory

`ll_readdir` asks for the entries of a directory in batches, each from the
index behind the last entry it has, until the server has no more of them;
then it brings the names into the form of the host.

A server answers each request with a packet, or the exchange fails with a
code. What it answers may depend on how many requests it had before.
-/

namespace NetatalkClient

open Octets

/-! ## Requests -/

def afpEnumerate : ℕ := 9
def afpEnumerateExt : ℕ := 66
def afpEnumerateExt2 : ℕ := 68

/-- `VOLUME_EXTRA_FLAGS_VOL_SUPPORTS_UNIX`. -/
def volumeExtraFlagsVolSupportsUnix : ℕ := 0x08

/-- `AFP_ENUMERATE_MAX_REPLY_SIZE`. -/
def afpEnumerateMaxReplySize : ℕ := 32767

/-- The part of `struct afp_volume` and of its server that a listing
reads. -/
structure ReaddirVolume where
  volid : ℕ
  extraFlags : ℕ
  attributes : ℕ
  pathEncoding : PathEncoding
  avNumber : ℕ
  timeOffset : ℤ
  connectTime : ℤ
  bufsize : ℕ
  deriving DecidableEq, Repr

/-- The fields of a request to enumerate a directory, as they are sent. -/
structure EnumerateRequest where
  command : ℕ
  volid : ℕ
  dirid : ℕ
  filebitmap : ℕ
  dirbitmap : ℕ
  reqcount : ℕ
  startindex : ℕ
  maxreplysize : ℕ
  path : Octets
  deriving DecidableEq, Repr

/-- What comes of sending a request, by how many were sent before: a reply,
or the code that `afpc_dsi_send` returns without one. -/
abbrev EnumerateServer := ℕ → EnumerateRequest → Except ℤ Octets

namespace ReaddirVolume

variable (volume : ReaddirVolume)

/-- What replies are read with. -/
def clock : Option AfpClock := some ⟨some volume.avNumber, volume.timeOffset⟩

/-- `enumerate_max_reply_size`. -/
def enumerateMaxReplySize : ℕ :=
  if volume.bufsize ≤ headerSize then 0
  else min afpEnumerateMaxReplySize (volume.bufsize - headerSize)

/-- The bits that both bitmaps of `ll_readdir` have. -/
def commonBitmap : ℕ :=
  kFPAttributeBit ||| kFPParentDirIDBit ||| kFPCreateDateBit ||| kFPModDateBit |||
    kFPBackupDateBit ||| kFPNodeIDBit |||
    (if volume.extraFlags &&& volumeExtraFlagsVolSupportsUnix ≠ 0 then kFPUnixPrivsBit else 0) |||
    (if volume.attributes &&& kSupportsUTF8Names ≠ 0 then kFPUTF8NameBit
      else kFPLongNameBit ||| kFPShortNameBit)

def dirbitmap : ℕ :=
  volume.commonBitmap ||| kFPOffspringCountBit ||| kFPOwnerIDBit ||| kFPGroupIDBit

def filebitmap (resource : Bool) : ℕ :=
  volume.commonBitmap |||
    (if resource then kFPRsrcForkLenBit
      else if volume.avNumber < 30 then kFPDataForkLenBit
      else kFPExtDataForkLenBit)

/-- The command of the version, and how its requests give an index: in 16
bits before AFP 3.1, in 32 bits since. -/
def enumerateCommand : ℕ × ℕ :=
  if volume.avNumber < 30 then (afpEnumerate, 65536)
  else if volume.avNumber = 30 then (afpEnumerateExt, 65536)
  else (afpEnumerateExt2, 4294967296)

/-- The request of `afp_enumerate`, `afp_enumerateext` and
`afp_enumerateext2`. -/
def enumerateRequest (dirid filebitmap dirbitmap reqcount startindex : ℕ) (pathname : Octets) :
    EnumerateRequest where
  command := volume.enumerateCommand.1
  volid := volume.volid
  dirid := dirid
  filebitmap := filebitmap
  dirbitmap := dirbitmap
  reqcount := reqcount
  startindex := startindex % volume.enumerateCommand.2
  maxreplysize := volume.enumerateMaxReplySize
  path := unixpathToAfppath volume.pathEncoding
    (copyPath volume.pathEncoding pathname pathname.length)

/-- What `afpc_dsi_send` returns and what the handler of the reply stores:
the code of the reply, or what the handler returns if that is zero. -/
def enumerateResult (answer : Except ℤ Octets) : ℤ × List AfpFileInfo :=
  match answer with
  | .error rc => (rc, [])
  | .ok reply =>
      let (ret, files) :=
        if volume.avNumber < 30 then afpEnumerateReply volume.clock reply reply.length
        else if volume.avNumber = 30 then afpEnumerateextReply volume.clock reply reply.length
        else afpEnumerateext2Reply volume.clock reply reply.length
      (if toInt (reply.be32 4) = 0 then ret else toInt (reply.be32 4), files.getD [])

end ReaddirVolume

/-! ## The listing -/

/-- `reqcount` in `ll_readdir`. -/
def readdirReqcount : ℕ := 256

/-- The codes with which `ll_readdir` returns -`EIO`, other than -1. -/
def readdirFailures : List ℤ :=
  [kFPBitmapErr, kFPMiscErr, kFPObjectTypeErr, kFPParamErr, kFPCallNotSupported]

/-- The loop of `ll_readdir`, with the entries it has and the number of
requests it has sent: the error it returns, or the entries it leaves with.
A code it does not know makes it ask again. The first argument bounds the
turns; `none` if there are more. -/
def llReaddirLoop (volume : ReaddirVolume) (send : EnumerateServer) (dirid : ℕ)
    (basename : Octets) (resource : Bool) :
    ℕ → ℕ → ℕ → List AfpFileInfo → Option (Except ℤ (List AfpFileInfo))
  | 0, _, _, _ => none
  | turns + 1, sent, startindex, filebase =>
      let request := volume.enumerateRequest dirid (volume.filebitmap resource) volume.dirbitmap
        readdirReqcount startindex basename
      let (rc, base) := volume.enumerateResult (send sent request)
      if rc = -1 then some (.error (-eio))
      else if rc = 0 ∨ rc = kFPObjectNotFound then
        if base = [] ∨ rc = kFPObjectNotFound then some (.ok (filebase ++ base))
        else llReaddirLoop volume send dirid basename resource turns (sent + 1)
          (startindex + base.length) (filebase ++ base)
      else if rc = kFPAccessDenied then some (.error (-eacces))
      else if rc = kFPDirNotFound then some (.ok filebase)
      else if rc ∈ readdirFailures then some (.error (-eio))
      else llReaddirLoop volume send dirid basename resource turns (sent + 1) startindex filebase

/-- The name of an entry in the form of the host. It is printed over the
old one, whose octets stay behind its end. -/
def toUnixName (host : ByteOrder) (volume : ReaddirVolume) (p : AfpFileInfo) : AfpFileInfo :=
  let converted := cString (convertPathToUnix host volume.pathEncoding p.name afpcMaxNameBytes).2
  let printed := overwrite p.name 0 (converted.take (afpcMaxNameBytes - 1) ++ [0])
  { p with name := overwrite printed (afpcMaxNameBytes - 1) [0] }

/-- `set_nonunix_perms`. -/
def setNonunixPerms (fp : AfpFileInfo) : ℕ :=
  if fp.isdir ≠ 0 then 0o700 ||| 0o040000 else 0o600 ||| 0o100000

/-- What an entry is given before AFP 3.0: permissions, and for a directory
the time of the connection where it has no date. -/
def fillNonunix (volume : ReaddirVolume) (p : AfpFileInfo) : AfpFileInfo :=
  { p with
    unixprivs := { p.unixprivs with permissions := setNonunixPerms p }
    creationDate :=
      if p.isdir ≠ 0 ∧ p.creationDateIsUnset then volume.connectTime else p.creationDate
    modificationDate :=
      if p.isdir ≠ 0 ∧ p.modificationDateIsUnset then volume.connectTime
      else p.modificationDate }

/-- `ll_readdir`: what it returns, and what it stores in `fb`; `none` if it
asks more than `turns` times. -/
def llReaddir (host : ByteOrder) (volume : ReaddirVolume) (tree : Catalog) (cache : Volume)
    (send : EnumerateServer) (turns : ℕ) (path : Octets) (resource : Bool) :
    Option (ℤ × Option (List AfpFileInfo)) :=
  if invalidPath volume.avNumber volume.pathEncoding path then some (-enametoolong, none)
  else
    match (cache.getDirid tree path).2 with
    | ⟨ret, some dirid, some basename⟩ =>
        if ret < 0 then some (-enoent, none)
        else
          (llReaddirLoop volume send dirid basename resource turns 0 1 []).map fun
            | .error ret => (ret, none)
            | .ok filebase =>
                let filebase := filebase.map (toUnixName host volume)
                (0, some (if volume.avNumber < 30 then filebase.map (fillNonunix volume)
                  else filebase))
    | _ => some (-enoent, none)

end NetatalkClient
