import NetatalkClient.Common.Codes
import NetatalkClient.Common.Settled
import NetatalkClient.Afp.Model.Dates
import NetatalkClient.Codepage.Model.Compose
import NetatalkClient.Codepage.Model.MacRoman
/-!
# AFP: volumes

The replies to FPOpenVol and FPGetVolParms hold a bitmap and, behind it,
the parameters of a volume that the bitmap announces. Nothing compares
where a parameter lies with the size of the reply.
-/

namespace NetatalkClient

open Octets

/-! ## Bits -/

def kFPVolAttributeBit : ℕ := 0x1
def kFPVolSignatureBit : ℕ := 0x2
def kFPVolCreateDateBit : ℕ := 0x4
def kFPVolModDateBit : ℕ := 0x8
def kFPVolBackupDateBit : ℕ := 0x10
def kFPVolIDBit : ℕ := 0x20
def kFPVolBytesFreeBit : ℕ := 0x40
def kFPVolBytesTotalBit : ℕ := 0x80
def kFPVolNameBit : ℕ := 0x100
def kFPVolExtBytesFreeBit : ℕ := 0x200
def kFPVolExtBytesTotalBit : ℕ := 0x400
def kFPVolBlockSizeBit : ℕ := 0x800

/-- A volume attribute. -/
def kSupportsUTF8Names : ℕ := 0x40

/-- `AFP_VOLUME_NAME_UTF8_LEN`. -/
def afpVolumeNameUtf8Len : ℕ := 255

/-! ## What is read -/

/-- The part of `struct afp_volume` that the replies set or look at. The
name is the whole array, the printable name a string. -/
structure AfpVolume where
  volid : ℕ
  flags : ℕ
  attributes : ℕ
  signature : ℕ
  creationDate : ℤ
  modificationDate : ℤ
  backupDate : ℤ
  bfree : ℕ
  blocks : ℕ
  bsize : ℕ
  volumeName : Octets
  volumeNamePrintable : Octets
  deriving DecidableEq, Repr

/-- The name of a volume for users, from its name on the wire. Without a
name `convert_mac_roman_to_utf8` leaves its `dest` as it is. -/
def printableVolumeName (host : ByteOrder) (utf8 : Bool) (name old : Octets) : Octets :=
  let src := cString name
  if utf8 then (convertUtf8decToUtf8pre host src afpVolumeNameUtf8Len).2
  else if src = [] then old
  else (convertMacRomanToUtf8 host src afpVolumeNameUtf8Len).2

/-! ## The parameters -/

/-- The one parameter with a check. It asks whether the parameter begins
behind the end, and `size` is where the reply ends. -/
def volAttributeField : Octets.Field AfpVolume where
  bit := kFPVolAttributeBit
  width := 2
  read buf size p tmpvol :=
    if size < p then none else some { tmpvol with attributes := (buf.octetsAt p 2).value }

/-- The other parameters, in their order. -/
def volOtherFields (server : Option AfpClock) : List (Octets.Field AfpVolume) :=
  [.unbounded kFPVolSignatureBit 2 fun n tmpvol => { tmpvol with signature := n },
    .unbounded kFPVolCreateDateBit 4 fun n tmpvol =>
      { tmpvol with creationDate := afpDateToUnix server n },
    .unbounded kFPVolModDateBit 4 fun n tmpvol =>
      { tmpvol with modificationDate := afpDateToUnix server n },
    .unbounded kFPVolBackupDateBit 4 fun n tmpvol =>
      { tmpvol with backupDate := afpDateToUnix server n },
    .unbounded kFPVolIDBit 2 fun n tmpvol => { tmpvol with volid := n },
    .unbounded kFPVolBytesFreeBit 4 fun n tmpvol => { tmpvol with bfree := n },
    .unbounded kFPVolBytesTotalBit 4 fun n tmpvol => { tmpvol with blocks := n },
    .skipped kFPVolNameBit 2,
    .unbounded kFPVolExtBytesFreeBit 8 fun n tmpvol => { tmpvol with bfree := n },
    .unbounded kFPVolExtBytesTotalBit 8 fun n tmpvol => { tmpvol with blocks := n },
    .unbounded kFPVolBlockSizeBit 4 fun n tmpvol => { tmpvol with bsize := n }]

def volFields (server : Option AfpClock) : List (Octets.Field AfpVolume) :=
  volAttributeField :: volOtherFields server

/-- `parse_volbitmap_reply`, of the parameters at `msg`: what it returns,
and `tmpvol`. -/
def parseVolbitmapReply (server : Option AfpClock) (tmpvol : AfpVolume) (bitmap : ℕ)
    (buf : Octets) (msg size : ℕ) : ℤ × AfpVolume :=
  match walk bitmap buf (msg + size) (volFields server) msg tmpvol with
  | .error tmpvol => (-1, tmpvol)
  | .ok tmpvol => (0, tmpvol)

/-! ## The replies -/

/-- The header and the bitmap before the parameters. -/
def volReplySize : ℕ := 18

/-- `afp_volopen_reply`: what it returns, and the volume. -/
def afpVolopenReply (host : ByteOrder) (server : Option AfpClock) (volume : AfpVolume)
    (buf : Octets) (size : ℕ) : ℤ × AfpVolume :=
  if size < volReplySize then (-1, volume)
  else
    let (ret, volume) := parseVolbitmapReply server volume (buf.be16 16) buf volReplySize
      (size - volReplySize)
    if ret ≠ 0 then (-1, volume)
    else
      let utf8 := decide (volume.attributes &&& kSupportsUTF8Names ≠ 0)
      (0, { volume with volumeNamePrintable :=
        printableVolumeName host utf8 volume.volumeName volume.volumeNamePrintable })

/-- `afp_getvolparms_reply`: what it returns, and the volume, which may be
`NULL`. -/
def afpGetvolparmsReply (server : Option AfpClock) (volume : Option AfpVolume) (buf : Octets)
    (size : ℕ) : ℤ × Option AfpVolume :=
  if size < volReplySize then (-1, volume)
  else
    match volume with
    | none => (-1, none)
    | some volume =>
        let (ret, volume) := parseVolbitmapReply server volume (buf.be16 16) buf volReplySize
          (size - volReplySize)
        (if ret ≠ 0 then -1 else 0, some volume)

end NetatalkClient
