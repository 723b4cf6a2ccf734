import NetatalkClient.Common.Codes
import NetatalkClient.Common.Fields
import NetatalkClient.Afp.Model.Dates
/-!
# AFP: reply blocks

A block is `size` octets of a buffer, from where `buf` starts; what lies
behind them is whatever was received before. It describes one file or
directory: the fields that a bitmap announces, in the order of their bits.
A name stands anywhere in the block, at an offset that its field gives,
with its length before it.
-/

namespace NetatalkClient

open Octets

/-- `copy_pascal_bounded`: what it copies to `dest`, or `none` for -1. -/
def copyPascalBounded (destLen : ℕ) (buf : Octets) (size offset : ℕ) : Option Octets :=
  if size ≤ offset then none
  else
    let len := buf.byte offset
    if size - (offset + 1) < len then none
    else if destLen = 0 then some []
    else if destLen ≤ len then none
    else some (octetsAt buf (offset + 1) len)

/-- `copy_afpname_bounded`: what it copies to `dest`, or `none` for -1. -/
def copyAfpnameBounded (destLen : ℕ) (buf : Octets) (size offset : ℕ) : Option Octets :=
  if size < offset ∨ size - offset < 6 then none
  else
    let len := buf.be16 (offset + 4)
    if size - (offset + 6) < len then none
    else if destLen = 0 then some []
    else if destLen ≤ len then none
    else some (octetsAt buf (offset + 6) len)

/-! ## Bits -/

def kFPAttributeBit : ℕ := 0x1
def kFPParentDirIDBit : ℕ := 0x2
def kFPCreateDateBit : ℕ := 0x4
def kFPModDateBit : ℕ := 0x8
def kFPBackupDateBit : ℕ := 0x10
def kFPFinderInfoBit : ℕ := 0x20
def kFPLongNameBit : ℕ := 0x40
def kFPShortNameBit : ℕ := 0x80
def kFPNodeIDBit : ℕ := 0x100
def kFPUTF8NameBit : ℕ := 0x2000
def kFPExtRsrcForkLenBit : ℕ := 0x4000
def kFPUnixPrivsBit : ℕ := 0x8000

/-! Of directories. -/

def kFPOffspringCountBit : ℕ := 0x200
def kFPOwnerIDBit : ℕ := 0x400
def kFPGroupIDBit : ℕ := 0x800
def kFPAccessRightsBit : ℕ := 0x1000

/-! Of files. -/

def kFPDataForkLenBit : ℕ := 0x200
def kFPRsrcForkLenBit : ℕ := 0x400
def kFPExtDataForkLenBit : ℕ := 0x800
def kFPLaunchLimitBit : ℕ := 0x1000

/-! ## What is read -/

/-- `struct afpc_unix_privileges`. -/
structure AfpcUnixPrivileges where
  uid : ℕ
  gid : ℕ
  permissions : ℕ
  uaPermissions : ℕ
  deriving DecidableEq, Repr

/-- The part of `struct afp_file_info` that replies set. -/
structure AfpFileInfo where
  attributes : ℕ
  did : ℕ
  creationDate : ℤ
  modificationDate : ℤ
  backupDate : ℤ
  creationDateIsUnset : Bool
  modificationDateIsUnset : Bool
  backupDateIsUnset : Bool
  fileid : ℕ
  offspring : ℕ
  finderinfo : Octets
  name : Octets
  unixprivs : AfpcUnixPrivileges
  accessrights : ℕ
  isdir : ℕ
  size : ℕ
  resourcesize : ℕ
  deriving DecidableEq, Repr

/-- A `struct afp_file_info` of zeros. -/
def AfpFileInfo.zero : AfpFileInfo where
  attributes := 0
  did := 0
  creationDate := 0
  modificationDate := 0
  backupDate := 0
  creationDateIsUnset := false
  modificationDateIsUnset := false
  backupDateIsUnset := false
  fileid := 0
  offspring := 0
  finderinfo := List.replicate 32 0
  name := List.replicate afpcMaxNameBytes 0
  unixprivs := ⟨0, 0, 0, 0⟩
  accessrights := 0
  isdir := 0
  size := 0
  resourcesize := 0

/-! ## Fields -/

/-- A field whose own octets say all there is to know. -/
def plainField (bit width : ℕ) (store : Octets → AfpFileInfo → AfpFileInfo) :
    Octets.Field AfpFileInfo :=
  .bounded bit width fun _ _ own filecur => some (store own filecur)

/-- A big-endian number. -/
def numberField (bit width : ℕ) (store : ℕ → AfpFileInfo → AfpFileInfo) :
    Octets.Field AfpFileInfo :=
  plainField bit width fun own => store own.value

/-- The offset of a name, and whatever else is in the field. -/
def nameField (bit width : ℕ) (copy : ℕ → Octets → ℕ → ℕ → Option Octets) :
    Octets.Field AfpFileInfo :=
  .bounded bit width fun buf size own filecur =>
    (copy afpcMaxNameBytes buf size (own.be16 0)).map fun name =>
      { filecur with name := name.window afpcMaxNameBytes }

/-- The fields that come first, of files and of directories. -/
def firstFields (server : Option AfpClock) : List (Octets.Field AfpFileInfo) :=
  [numberField kFPAttributeBit 2 fun n filecur => { filecur with attributes := n },
    numberField kFPParentDirIDBit 4 fun n filecur => { filecur with did := n },
    numberField kFPCreateDateBit 4 fun n filecur =>
      { filecur with creationDate := afpDateToUnix server n, creationDateIsUnset := n = unsetDate },
    numberField kFPModDateBit 4 fun n filecur =>
      { filecur with
        modificationDate := afpDateToUnix server n
        modificationDateIsUnset := n = unsetDate },
    numberField kFPBackupDateBit 4 fun n filecur =>
      { filecur with backupDate := afpDateToUnix server n, backupDateIsUnset := n = unsetDate },
    plainField kFPFinderInfoBit 32 fun own filecur => { filecur with finderinfo := own },
    nameField kFPLongNameBit 2 copyPascalBounded,
    plainField kFPShortNameBit 2 fun _ filecur => filecur,
    numberField kFPNodeIDBit 4 fun n filecur => { filecur with fileid := n }]

/-- The fields of directories only. -/
def dirFields : List (Octets.Field AfpFileInfo) :=
  [numberField kFPOffspringCountBit 2 fun n filecur => { filecur with offspring := n },
    numberField kFPOwnerIDBit 4 fun n filecur =>
      { filecur with unixprivs := { filecur.unixprivs with uid := n } },
    numberField kFPGroupIDBit 4 fun n filecur =>
      { filecur with unixprivs := { filecur.unixprivs with gid := n } },
    numberField kFPAccessRightsBit 4 fun n filecur => { filecur with accessrights := n }]

/-- The fields of files only. -/
def fileFields : List (Octets.Field AfpFileInfo) :=
  [numberField kFPDataForkLenBit 4 fun n filecur => { filecur with size := n },
    numberField kFPRsrcForkLenBit 4 fun n filecur => { filecur with resourcesize := n },
    numberField kFPExtDataForkLenBit 8 fun n filecur => { filecur with size := n },
    plainField kFPLaunchLimitBit 2 fun _ filecur => filecur]

/-- The fields that come last, of files and of directories. -/
def lastFields : List (Octets.Field AfpFileInfo) :=
  [nameField kFPUTF8NameBit 6 copyAfpnameBounded,
    numberField kFPExtRsrcForkLenBit 8 fun n filecur => { filecur with resourcesize := n },
    plainField kFPUnixPrivsBit 16 fun own filecur =>
      { filecur with unixprivs := ⟨own.be32 0, own.be32 4, own.be32 8, own.be32 12⟩ }]

/-- The fields of a block, in the order in which they are looked for. -/
def blockFields (server : Option AfpClock) (isdir : ℕ) : List (Octets.Field AfpFileInfo) :=
  firstFields server ++ (if isdir ≠ 0 then dirFields else fileFields) ++ lastFields

/-- `parse_reply_block`: `filecur` as it is left, with an error for -1. -/
def parseReplyBlock (server : Option AfpClock) (buf : Octets)
    (size isdir filebitmap dirbitmap : ℕ) : Except AfpFileInfo AfpFileInfo :=
  let bitmap := if isdir ≠ 0 then dirbitmap else filebitmap
  walk bitmap buf size (blockFields server isdir) 0 { AfpFileInfo.zero with isdir := isdir }

end NetatalkClient
