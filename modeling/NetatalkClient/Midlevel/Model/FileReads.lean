import NetatalkClient.Midlevel.Model.Requests
/-!
# `ml_read`

A read of an open file. Most files are forks, and `ll_read` reads them.
The files that stand for metadata are read by `appledouble_read`: a
FinderInfo and a server's icon out of memory, a comment with FPGetComment.
-/

namespace NetatalkClient

open Octets

/-- `fp->resource`, `AFP_META_...`. -/
inductive MetaKind where
  | none | resource | appledouble | finderinfo | comment | serverIcon
  deriving DecidableEq, Repr

/-- What a read looks at of the `struct afp_file_info` of an open file. -/
structure OpenedFile where
  forkid : ℕ
  did : ℕ
  basename : Octets
  resource : MetaKind
  deriving DecidableEq, Repr

/-- What a read asks the server, and the member `eof` of the file. -/
structure FileCalls (σ : Type) extends AfpCalls σ where
  /-- FPGetComment: the reply, or the code of a request without one. -/
  sendGetcomment : ℕ → Octets → StateM σ (Except ℤ Octets)
  fpEof : OpenedFile → StateM σ Bool
  setFpEof : OpenedFile → StateM σ Unit

/-- `afp_getcomment_reply`, where there is room for `maxsize` octets: the
comment, or the code that is returned. -/
def afpGetcommentReply (allocated : Bool) (maxsize : ℕ) (buf : Octets) : Except ℤ Octets :=
  if !allocated ∨ buf.length < 17 then .error (-1)
  else if toInt (buf.be32 4) ≠ 0 then .error (toInt (buf.be32 4))
  else
    let len := buf.byte 16
    if buf.length - 17 < len ∨ maxsize < len then .error (-1)
    else .ok ((buf.drop 17).take len)

/-- The error for a code of FPGetComment. -/
def getcommentErrno (rc : ℤ) : ℤ :=
  if rc = kFPAccessDenied then -eacces
  else if rc = kFPMiscErr ∨ rc = kFPParamErr then -eio
  else -enoent

namespace FileCalls

variable {σ : Type} (afp : FileCalls σ) (volume : MetadataVolume) (host : ByteOrder)
variable (malloc : ℕ → Bool) (icon : Octets)

/-- `appledouble_read`: its result, what it has put into the buffer, and
`eof`. What is read is 1 in the result's place; 0 leaves the read to the
caller. `icon` is the icon of the server. -/
def appledoubleRead (fp : OpenedFile) (size : ℕ) (offset : ℤ) : StateM σ (ℤ × Octets × ℕ) :=
  match fp.resource with
  | .none => return (0, [], 0)
  | .resource => do
      let (ret, data, eof) ← afp.toAfpCalls.llRead volume fp.forkid size offset
      if ret < 0 then return (ret, [], eof.toNat)
      return (1, data, eof.toNat)
  | .appledouble => return (-ebadf, [], 0)
  | .finderinfo => do
      if offset < 0 ∨ 32 < offset then return (-efault, [], 0)
      let (rc, finderinfo) ← afp.afpGetfiledirparms fp.did fp.basename
      if AfpCalls.fileDirParmsErrno rc ≠ 0 then return (AfpCalls.fileDirParmsErrno rc, [], 0)
      let tocopy := min size (32 - offset.toNat)
      return (1, window (finderinfo.drop offset.toNat) tocopy,
        if offset.toNat + tocopy = 32 then 1 else 0)
  | .comment => do
      if 0 < size ∧ !malloc size then return (-enomem, [], 0)
      if ← afp.fpEof fp then return (1, [], 0)
      match (← afp.sendGetcomment fp.did fp.basename) with
      | .error rc => return (getcommentErrno rc, [], 0)
      | .ok reply =>
          match afpGetcommentReply (malloc size) size reply with
          | .error rc => return (getcommentErrno rc, [], 0)
          | .ok comment => do
              afp.setFpEof fp
              return (1, comment, 1)
  | .serverIcon => do
      if offset < 0 ∨ (Client.afpServerIconLen : ℤ) < offset then return (-efault, [], 0)
      afp.setFpEof fp
      let tocopy := min size (Client.afpServerIconLen - offset.toNat)
      return (1, window (icon.drop offset.toNat) tocopy, 1)

/-- `ml_read`: its result, what it has put into the buffer, and `eof`. -/
def mlRead (path : Option Octets) (fp : OpenedFile) (size : ℕ) (offset : ℤ) :
    StateM σ (ℤ × Octets × ℕ) := do
  match path.map (convertPathToAfpAlloc host volume.pathEncoding) with
  | some (.error ret) => return (ret, [], 0)
  | _ =>
      let (ret, data, eof) ← afp.appledoubleRead volume malloc icon fp size offset
      if ret < 0 then return (ret, [], eof)
      if ret = 1 then return (data.length, data, eof)
      let (ret, data, eof) ← afp.toAfpCalls.llRead volume fp.forkid size offset
      return (ret, data, eof.toNat)

end FileCalls

end NetatalkClient
