import NetatalkClient.Codepage.Model.Wire
import NetatalkClient.Dsi.Model.Server
import NetatalkClient.Metadata.Model.EaSidecar
/-!
# Metadata of a remote file: FinderInfo, resource fork, extended attributes

The calls of `midlevel.c` on the metadata of a file, over the calls of
AFP and the parts of `lowlevel.c` and `resource.c` they use. What an AFP
call does to the server and to the client's own tables is a parameter: it
takes a state of type `σ` to its result and the state after it. A call
that fails answers with a code and may do anything to the state.

A buffer that a call fills is what is written to it from its start on;
`value` says whether the caller has one. Host names are those of Linux.
-/

namespace NetatalkClient

open Octets

/-! ## Constants -/

def kSupportsExtAttrs : ℕ := 0x400

def kXAttrCreate : ℕ := 0x2
def kXAttrReplace : ℕ := 0x4

/-- `AFP_EXTATTR_DATA_MAX`. -/
def afpExtattrDataMax : ℕ := 4096

/-- `AFP_EXTATTR_LIST_MAX`. -/
def afpExtattrListMax : ℕ := 64 * 1024

/-! ## The calls below -/

/-- `struct afp_extattr_info`, with the octets that were copied. -/
structure AfpExtattrInfo where
  size : UInt32
  data : Octets
  deriving DecidableEq, Repr

/-- An `int` that is zero or a negative error number. -/
def IsStatus (ret : ℤ) : Prop := -(intMax : ℤ) - 1 ≤ ret ∧ ret ≤ 0

instance (ret : ℤ) : Decidable (IsStatus ret) := inferInstanceAs (Decidable (_ ∧ _))

/-- What a function returns that returns zero or a negative error number. -/
def Status : Type := { ret : ℤ // IsStatus ret }

/-- The part of `struct afp_volume` and its server that metadata calls
read. -/
structure MetadataVolume where
  attributes : ℕ
  readonly : Bool
  pathEncoding : PathEncoding
  avNumber : ℕ
  rxQuantum : ℕ
  txQuantum : ℕ
  deriving DecidableEq, Repr

/-- The AFP calls on a volume, and what stands between them and the
functions here. -/
structure AfpCalls (σ : Type) where
  /-- Of a path: the result, the parent's ID and the last component. The
  result of a lookup that has timed out is positive. -/
  getDirid : Octets → StateM σ (ℤ × ℕ × Octets)
  /-- Of a converted path, about the resource fork: the result and
  `st_size`. -/
  llGetattr : Octets → StateM σ (Status × ℕ)
  /-- Of a resource fork: the result and the number of the fork. -/
  llOpen : ℕ → Octets → Bool → StateM σ (Status × ℕ)
  /-- Whether a range could not be locked. -/
  llHandleLocking : ℕ → ℤ → ℕ → StateM σ Bool
  llHandleUnlocking : ℕ → ℤ → ℕ → StateM σ Bool
  flushDirtyForksForFile : ℕ → StateM σ Unit
  afpRead : ℕ → ℕ → ℕ → StateM σ (ℤ × Octets)
  /-- With the offset that the reply gives. -/
  afpWrite : ℕ → ℕ → Octets → StateM σ (ℤ × ℕ)
  afpFlushfork : ℕ → StateM σ ℤ
  afpClosefork : ℕ → StateM σ ℤ
  afpSetforkparms : ℕ → ℕ → StateM σ ℤ
  /-- FPGetFileDirParms and FPSetFileDirParms, for the FinderInfo. -/
  afpGetfiledirparms : ℕ → Octets → StateM σ (ℤ × Octets)
  afpSetfiledirparms : ℕ → Octets → Octets → StateM σ ℤ
  afpGetextattr : ℕ → Octets → Octets → StateM σ (ℤ × AfpExtattrInfo)
  afpSetextattr : ℕ → ℕ → Octets → Octets → Octets → StateM σ ℤ
  afpListextattr : ℕ → Octets → StateM σ (ℤ × AfpExtattrInfo)
  afpRemoveextattr : ℕ → Octets → Octets → StateM σ ℤ

/-- `convert_path_to_afp_alloc`. -/
def convertPathToAfpAlloc (host : ByteOrder) (encoding : PathEncoding) (path : Octets) :
    Except ℤ Octets :=
  if afpcMaxUtf8PathBytes < path.length then .error (-enametoolong)
  else
    let (ret, converted) :=
      convertPathToAfp host convertUtf8ToMacRoman encoding path afpMaxUtf8PathStorage
    if ret ≠ 0 then .error (-einval)
    else if afpcMaxUtf8PathBytes < converted.length then .error (-enametoolong)
    else .ok converted

namespace AfpCalls

variable {σ : Type} (afp : AfpCalls σ) (volume : MetadataVolume) (host : ByteOrder)

/-! ## `lowlevel.c` -/

/-- How `ll_zero_file` and `ll_setfork_size` take the code of
FPSetForkParms. A code they do not know counts as success. -/
def forkParmsErrno (rc : ℤ) : ℤ :=
  if rc = kFPAccessDenied then eacces
  else if rc = kFPVolLocked ∨ rc = kFPLockErr then ebusy
  else if rc = kFPDiskFull then enospc
  else if rc = kFPBitmapErr ∨ rc = kFPMiscErr ∨ rc = kFPParamErr then eio
  else 0

/-- `ll_setfork_size`. -/
def llSetforkSize (forkid size : ℕ) : StateM σ ℤ := do
  let rc ← afp.afpSetforkparms forkid size
  return forkParmsErrno rc

/-- `ll_zero_file`. -/
def llZeroFile (forkid : ℕ) : StateM σ ℤ := afp.llSetforkSize forkid 0

/-- The loop of `ll_read`, with what has been read: an error, or what was
read in all and whether that was the end. A turn that brings nothing is
the last, so `size` turns are enough. -/
def llReadLoop (forkid size offset : ℕ) : ℕ → Octets → StateM σ (Except ℤ (Octets × Bool))
  | 0, got => return .ok (got, false)
  | turns + 1, got => do
      if size ≤ got.length then return .ok (got, false)
      let chunksize := min volume.rxQuantum (size - got.length)
      if volume.avNumber < 30 ∧ uintMax < offset + got.length then return .error efbig
      let (rc, data) ← afp.afpRead forkid (offset + got.length) chunksize
      -- no more than `maxsize` octets are stored
      let data := data.take chunksize
      if rc = kFPAccessDenied then return .error eacces
      if rc = kFPLockErr then return .error ebusy
      if rc = kFPMiscErr ∨ rc = kFPParamErr then return .error eio
      if rc = kFPEOFErr then return .ok (got ++ data, true)
      if data = [] then return .ok (got, false)
      llReadLoop forkid size offset turns (got ++ data)

/-- `ll_read`: its result, what it reads, and `eof`. -/
def llRead (forkid size : ℕ) (offset : ℤ) : StateM σ (ℤ × Octets × Bool) := do
  if size = 0 then return (0, [], false)
  let size := min size intMax
  if offset < 0 then return (-einval, [], false)
  afp.flushDirtyForksForFile forkid
  if volume.rxQuantum = 0 then return (-eio, [], false)
  if ← afp.llHandleLocking forkid offset size then return (-ebusy, [], false)
  match ← afp.llReadLoop volume forkid size offset.toNat size [] with
  | .error ret =>
      let _ ← afp.llHandleUnlocking forkid offset size
      return (-ret, [], false)
  | .ok (got, eof) =>
      if ← afp.llHandleUnlocking forkid offset size then
        let _ ← afp.llHandleUnlocking forkid offset size
        return (-eio, [], eof)
      return (got.length, got, eof)

/-- A fork offset on its way to `afp_write` or `afp_writeext`, and back. The
first has 32 bits for it, the other 64. -/
def wireOffset (offset : ℕ) : ℕ :=
  if volume.avNumber < 30 then offset % 0x100000000 else offset % 0x10000000000000000

/-- The loop of `ll_write`, from `offset` as an unsigned number: the error
number or 0, and `totalwritten`. Each turn writes an octet at least, so
`data.length` turns are enough. -/
def llWriteLoop (forkid : ℕ) (data : Octets) (offset : ℕ) : ℕ → ℕ → StateM σ (ℤ × ℕ)
  | 0, total => return (0, total)
  | turns + 1, total => do
      if data.length ≤ total then return (0, total)
      let sizetowrite := min volume.txQuantum (data.length - total)
      let writeOffset := (offset + total) % 0x10000000000000000
      let (rc, reply) ← afp.afpWrite forkid (wireOffset volume writeOffset)
        ((data.drop total).take sizetowrite)
      if rc = kFPAccessDenied then return (eacces, total)
      if rc = kFPDiskFull then return (enospc, total)
      if rc = kFPLockErr ∨ rc = kFPMiscErr ∨ rc = kFPParamErr then return (einval, total)
      if rc ≠ 0 then return (eio, total)
      let replyOffset := wireOffset volume reply
      if replyOffset < writeOffset then return (eio, total)
      let written := replyOffset - writeOffset
      if written = 0 ∨ sizetowrite < written then return (eio, total)
      llWriteLoop forkid data offset turns (total + written)

/-- `ll_write`: its result, `totalwritten`, and whether the fork is dirty
now. -/
def llWrite (forkid : ℕ) (data : Octets) (offset : ℤ) : StateM σ (ℤ × ℕ × Bool) := do
  if volume.txQuantum = 0 then return (-eio, 0, false)
  if ← afp.llHandleLocking forkid offset data.length then return (-ebusy, 0, false)
  let (err, total) ← afp.llWriteLoop volume forkid data (offset % 0x10000000000000000).toNat
    data.length 0
  if err ≠ 0 then
    let _ ← afp.llHandleUnlocking forkid offset data.length
    return (-err, total, false)
  if ← afp.llHandleUnlocking forkid offset data.length then
    let _ ← afp.llHandleUnlocking forkid offset data.length
    return (-eio, total, 0 < total)
  return (0, total, 0 < total)

/-! ## `resource.c` -/

/-- How the codes of FPGetFileDirParms and FPSetFileDirParms are taken. -/
def fileDirParmsErrno (rc : ℤ) : ℤ :=
  if rc = 0 then 0
  else if rc = kFPAccessDenied then -eacces
  else if rc = kFPObjectNotFound then -enoent
  else -eio

/-- The flush of `appledouble_close`. -/
def flushResource (forkid : ℕ) (dirty : Bool) : StateM σ ℤ :=
  if dirty then afp.afpFlushfork forkid else return 0

/-- `appledouble_close` of a resource fork. -/
def closeResource (forkid : ℕ) (dirty : Bool) : StateM σ ℤ := do
  let ret ← afp.flushResource forkid dirty
  let rc ← afp.afpClosefork forkid
  if rc ≠ 0 then return -eio
  return if ret = 0 then 0 else -eio

/-- `appledouble_read` of the FinderInfo, of all its 32 octets. -/
def readFinderinfo (did : ℕ) (basename : Octets) : StateM σ (ℤ × Octets) := do
  let (rc, finderinfo) ← afp.afpGetfiledirparms did basename
  if fileDirParmsErrno rc < 0 then return (fileDirParmsErrno rc, [])
  return (1, finderinfo.window 32)

/-- `appledouble_write` of the FinderInfo, from its start on. -/
def writeFinderinfo (did : ℕ) (basename data : Octets) : StateM σ (ℤ × ℕ) := do
  let towrite := min data.length 32
  let (rc, previous) ← afp.afpGetfiledirparms did basename
  if fileDirParmsErrno rc < 0 then return (fileDirParmsErrno rc, 0)
  let rc ← afp.afpSetfiledirparms did basename
    ((previous.window 32).overwrite 0 (data.take towrite))
  if fileDirParmsErrno rc < 0 then return (fileDirParmsErrno rc, 0)
  return (1, towrite)

/-! ## `midlevel.c` -/

/-- `open_appledouble_meta`, as far as the parent and the last component of
the converted path. -/
def openMeta (path : Octets) : StateM σ (Except ℤ (ℕ × Octets)) := do
  match convertPathToAfpAlloc host volume.pathEncoding path with
  | .error ret => return .error ret
  | .ok converted =>
      if invalidPath volume.avNumber volume.pathEncoding converted then
        return .error (-enametoolong)
      let (ret, did, basename) ← afp.getDirid converted
      if ret < 0 then return .error (-enoent)
      return .ok (did, basename)

/-- `open_appledouble_meta` of a resource fork: the number of the fork. -/
def openResource (path : Octets) (write : Bool) : StateM σ (Except ℤ ℕ) := do
  match ← afp.openMeta volume host path with
  | .error ret => return .error ret
  | .ok (did, basename) =>
      let (ret, forkid) ← afp.llOpen did basename write
      if ret.val < 0 then return .error ret.val
      return .ok forkid

/-- `validate_special_xattr_flags`. -/
def validateSpecialXattrFlags (flags : ℕ) (existsRet : ℤ) : ℤ :=
  let present := 0 ≤ existsRet ∨ existsRet = -efbig
  if flags &&& kXAttrCreate ≠ 0 ∧ flags &&& kXAttrReplace ≠ 0 then -einval
  else if existsRet < 0 ∧ existsRet ≠ -enoattr ∧ existsRet ≠ -efbig then existsRet
  else if flags &&& kXAttrCreate ≠ 0 ∧ present then -eexist
  else if flags &&& kXAttrReplace ≠ 0 ∧ ¬present then -enoattr
  else 0

/-- `validate_xattr_flags`. -/
def validateXattrFlags (flags : ℕ) : ℤ :=
  if flags ∉ [0, kXAttrCreate, kXAttrReplace] then -einval else 0

/-- The check that a call with flags makes of an attribute of its own kind,
which `get` asks for. -/
def checkSpecialFlags (flags : ℕ) (get : StateM σ (ℤ × Octets)) : StateM σ ℤ :=
  if flags &&& (kXAttrCreate ||| kXAttrReplace) ≠ 0 then do
    let (ret, _) ← get
    return validateSpecialXattrFlags flags ret
  else return 0

/-- The loop of `ml_getresourcefork`, with what has been read. -/
def getResourceLoop (forkid size position remaining : ℕ) :
    ℕ → Octets → StateM σ (Except ℤ Octets)
  | 0, got => return .ok got
  | turns + 1, got => do
      if size ≤ got.length ∨ remaining ≤ got.length then return .ok got
      let chunk := min (size - got.length) (remaining - got.length)
      let (ret, data, eof) ← afp.llRead volume forkid chunk (position + got.length)
      if ret < 0 then return .error ret
      if data = [] then return .ok got
      if eof then return .ok (got ++ data)
      getResourceLoop forkid size position remaining turns (got ++ data)

/-- `ml_getresourcefork`. -/
def mlGetresourcefork (path : Octets) (value : Bool) (size : ℕ) (position : ℤ) :
    StateM σ (ℤ × Octets) := do
  if ¬value ∧ 0 < size then return (-einval, [])
  match convertPathToAfpAlloc host volume.pathEncoding path with
  | .error ret => return (ret, [])
  | .ok converted =>
      let (ret, stSize) ← afp.llGetattr converted
      if ret.val < 0 ∧ ret.val ≠ -efbig then return (ret.val, [])
      if stSize = 0 then return (-enoattr, [])
      if size = 0 then
        if intMax < stSize then return (-efbig, [])
        return (stSize, [])
      if position < 0 ∨ (stSize : ℤ) ≤ position then return (0, [])
      match ← afp.openResource volume host path false with
      | .error ret => return (ret, [])
      | .ok forkid =>
          match ← afp.getResourceLoop volume forkid size position.toNat
            (stSize - position.toNat) size [] with
          | .error ret =>
              let _ ← afp.closeResource forkid false
              return (ret, [])
          | .ok got =>
              let _ ← afp.closeResource forkid false
              if intMax < got.length then return (-efbig, got)
              return (got.length, got)

/-- The truncation of `ml_setresourcefork`, which an empty value at the
start asks for. -/
def zeroResource (forkid : ℕ) (value : Octets) (position : ℤ) : StateM σ ℤ :=
  if position = 0 ∧ value = [] then afp.llZeroFile forkid else return 0

/-- `ml_setresourcefork`, of a value that is there. -/
def mlSetresourcefork (path value : Octets) (position : ℤ) : StateM σ ℤ := do
  if position < 0 then return -einval
  if (intMax : ℤ) < position ∨ intMax - position.toNat < value.length then return -efbig
  if volume.readonly then return -eacces
  match ← afp.openResource volume host path true with
  | .error ret => return ret
  | .ok forkid =>
      let ret ← afp.zeroResource forkid value position
      if ret ≠ 0 then
        let _ ← afp.closeResource forkid false
        return -ret
      if value = [] then afp.closeResource forkid false
      else
        let (ret, written, dirty) ← afp.llWrite volume forkid value position
        if ret < 0 then
          let _ ← afp.closeResource forkid dirty
          return ret
        if written ≠ value.length then
          let _ ← afp.closeResource forkid dirty
          return -eio
        afp.closeResource forkid dirty

/-- `ml_setresourcefork_flags`. -/
def mlSetresourceforkFlags (path value : Octets) (position : ℤ) (flags : ℕ) : StateM σ ℤ := do
  if validateXattrFlags flags < 0 then return validateXattrFlags flags
  let ret ← checkSpecialFlags flags (afp.mlGetresourcefork volume host path false 0 0)
  if ret < 0 then return ret
  afp.mlSetresourcefork volume host path value position

/-- `ml_truncateresourcefork`. -/
def mlTruncateresourcefork (path : Octets) (size : ℕ) : StateM σ ℤ := do
  if intMax < size then return -efbig
  if volume.readonly then return -eacces
  match ← afp.openResource volume host path true with
  | .error ret => return ret
  | .ok forkid =>
      let ret ← afp.llSetforkSize forkid size
      let closeRet ← afp.closeResource forkid false
      if ret ≠ 0 then return -ret
      return if closeRet < 0 then closeRet else 0

/-- `ml_removeresourcefork`. -/
def mlRemoveresourcefork (path : Octets) : StateM σ ℤ := do
  let (ret, _) ← afp.mlGetresourcefork volume host path false 0 0
  if ret < 0 ∧ ret ≠ -efbig then return ret
  afp.mlSetresourcefork volume host path [] 0

/-- `ml_getfinderinfo`. -/
def mlGetfinderinfo (path : Octets) (value : Bool) (size : ℕ) : StateM σ (ℤ × Octets) := do
  match ← afp.openMeta volume host path with
  | .error ret => return (ret, [])
  | .ok (did, basename) =>
      let (ret, finderinfo) ← afp.readFinderinfo did basename
      if ret < 0 then return (ret, [])
      if finderinfo = List.replicate 32 0 then return (-enoattr, [])
      if size = 0 then return (32, [])
      if ¬value ∨ size < 32 then return (-erange, [])
      return (32, finderinfo)

/-- `ml_setfinderinfo`. -/
def mlSetfinderinfo (path value : Octets) : StateM σ ℤ := do
  if value.length ≠ 32 then return -einval
  if volume.readonly then return -eacces
  match ← afp.openMeta volume host path with
  | .error ret => return ret
  | .ok (did, basename) =>
      let (ret, written) ← afp.writeFinderinfo did basename value
      if ret < 0 then return ret
      if written ≠ value.length then return -eio
      return 0

/-- `ml_setfinderinfo_flags`. -/
def mlSetfinderinfoFlags (path value : Octets) (flags : ℕ) : StateM σ ℤ := do
  if validateXattrFlags flags < 0 then return validateXattrFlags flags
  let ret ← checkSpecialFlags flags (afp.mlGetfinderinfo volume host path false 0)
  if ret < 0 then return ret
  afp.mlSetfinderinfo volume host path value

/-- `ml_removefinderinfo`. -/
def mlRemovefinderinfo (path : Octets) : StateM σ ℤ :=
  afp.mlSetfinderinfo volume host path (List.replicate 32 0)

/-- `is_resourcefork_xattr`. -/
def isResourceforkXattr (name : Octets) : Bool :=
  afpXattrStripUserPrefix name = text "com.apple.ResourceFork"

/-- `is_finderinfo_xattr`. -/
def isFinderinfoXattr (name : Octets) : Bool :=
  afpXattrStripUserPrefix name = text "com.apple.FinderInfo"

/-- `IS_INTERNAL_SERVER_XATTR`. -/
def isInternalServerXattr (name : Octets) : Bool :=
  (text "org.netatalk.Metadata").isPrefixOf name

/-- The name that is sent, of `normalize_xattr_name`. -/
def normalizeXattrName (name : Octets) : Except ℤ Octets :=
  if afpXattrNameMax < name.length then .error (-enametoolong)
  else .ok (afpXattrStripUserPrefix name)

/-- The parent's ID, the last component and the name that is sent, for the
calls on extended attributes. -/
def extattrTarget (path name : Octets) : StateM σ (Except ℤ (ℕ × Octets × Octets)) := do
  match normalizeXattrName name with
  | .error ret => return .error ret
  | .ok afpName =>
      let (ret, dirid, basename) ← afp.getDirid path
      if ret ≠ 0 then return .error ret
      return .ok (dirid, basename, afpName)

/-- How the codes of FPGetExtAttr and FPRemoveExtAttr are taken: a missing
attribute is reported in three ways. -/
def extattrErrno (rc : ℤ) : ℤ :=
  if rc = 0 then 0
  else if rc = kFPItemNotFound ∨ rc = kFPMiscErr ∨ rc = kFPParamErr then -enoattr
  else if rc = kFPAccessDenied then -eacces
  else if rc = kFPObjectNotFound then -enoent
  else -eio

/-- How the codes of FPSetExtAttr are taken. -/
def setExtattrErrno (rc : ℤ) : ℤ :=
  if rc = 0 then 0
  else if rc = kFPAccessDenied then -eacces
  else if rc = kFPObjectNotFound then -enoent
  else if rc = kFPObjectExists then -eexist
  else if rc = kFPItemNotFound then -enoattr
  else -eio

/-- The root directory. -/
def rootPath : Octets := text "/"

/-- `ml_getxattr`. -/
def mlGetxattr (path name : Octets) (value : Bool) (size : ℕ) : StateM σ (ℤ × Octets) := do
  if isResourceforkXattr name then afp.mlGetresourcefork volume host path value size 0
  else if isFinderinfoXattr name then afp.mlGetfinderinfo volume host path value size
  else if volume.attributes &&& kSupportsExtAttrs = 0 then return (-enoattr, [])
  else if isInternalServerXattr name then return (-enoattr, [])
  else if path = rootPath then return (-enoattr, [])
  else
    match ← afp.extattrTarget path name with
    | .error ret => return (ret, [])
    | .ok (dirid, basename, afpName) =>
        let (rc, info) ← afp.afpGetextattr dirid basename afpName
        if extattrErrno rc < 0 then return (extattrErrno rc, [])
        if size = 0 then return (toInt info.size.toNat, [])
        if size < info.size.toNat then return (-erange, [])
        -- no more than `maxsize` octets were copied
        let data := info.data.take afpExtattrDataMax
        if data.length < info.size.toNat then return (-erange, [])
        return (toInt info.size.toNat, if value then data.take info.size.toNat else [])

/-- `ml_setxattr`. -/
def mlSetxattr (path name value : Octets) (flags : ℕ) : StateM σ ℤ := do
  if validateXattrFlags flags < 0 then return validateXattrFlags flags
  if isResourceforkXattr name then afp.mlSetresourceforkFlags volume host path value 0 flags
  else if isFinderinfoXattr name then afp.mlSetfinderinfoFlags volume host path value flags
  else if volume.attributes &&& kSupportsExtAttrs = 0 then return 0
  else if isInternalServerXattr name then return 0
  else if path = rootPath then return 0
  else
    match ← afp.extattrTarget path name with
    | .error ret => return ret
    | .ok (dirid, basename, afpName) =>
        let rc ← afp.afpSetextattr dirid flags basename afpName value
        return setExtattrErrno rc

/-- The loop of `ml_listxattr` over the names that came, with the list it
has made of them. Each turn takes an octet at least. -/
def listNames (value : Bool) (size : ℕ) : ℕ → Octets → Octets → Except ℤ Octets
  | 0, _, list => .ok list
  | turns + 1, src, list =>
      let name := src.takeWhile (· ≠ 0)
      if name = [] then .ok list
      else if name.length = src.length then .error (-eio)
      else
        let rest := src.drop (name.length + 1)
        if isInternalServerXattr name then listNames value size turns rest list
        else if afpXattrNameMax < name.length then .error (-enametoolong)
        else
          let list' := list ++ (afpXattrUserPrefix ++ name ++ [0])
          if value ∧ 0 < size ∧ size < list'.length then .error (-erange)
          else listNames value size turns rest list'

/-- The list from the names that came, `append_listed_xattr_name` for each. -/
def listedXattrs (info : AfpExtattrInfo) (value : Bool) (size : ℕ) : ℤ × Octets :=
  let data := info.data.take afpExtattrListMax
  if data.length < info.size.toNat then (-e2big, [])
  else
    match listNames value size data.length data [] with
    | .error ret => (ret, [])
    | .ok list =>
        if intMax < list.length then (-e2big, [])
        else (list.length, if value ∧ 0 < size then list else [])

/-- `ml_listxattr`. -/
def mlListxattr (path : Octets) (value : Bool) (size : ℕ) : StateM σ (ℤ × Octets) := do
  if volume.attributes &&& kSupportsExtAttrs ≠ 0 ∧ path ≠ rootPath then
    let (ret, dirid, basename) ← afp.getDirid path
    if ret ≠ 0 then return (ret, [])
    let (rc, info) ← afp.afpListextattr dirid basename
    if rc = 0 then return listedXattrs info value size
    if rc = kFPAccessDenied then return (-eacces, [])
    if rc = kFPObjectNotFound then return (-enoent, [])
    -- taken for an empty list
    if rc = kFPParamErr then return listedXattrs { info with size := 0 } value size
    return (-eio, [])
  else return listedXattrs ⟨0, []⟩ value size

/-- `ml_removexattr`. -/
def mlRemovexattr (path name : Octets) : StateM σ ℤ := do
  if isResourceforkXattr name then afp.mlRemoveresourcefork volume host path
  else if isFinderinfoXattr name then afp.mlRemovefinderinfo volume host path
  else if volume.attributes &&& kSupportsExtAttrs = 0 then return -enoattr
  else if isInternalServerXattr name then return -eacces
  else if path = rootPath then return -eacces
  else
    match ← afp.extattrTarget path name with
    | .error ret => return ret
    | .ok (dirid, basename, afpName) =>
        let rc ← afp.afpRemoveextattr dirid basename afpName
        return extattrErrno rc

end AfpCalls

end NetatalkClient
