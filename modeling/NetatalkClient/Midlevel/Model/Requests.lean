import NetatalkClient.Midlevel.Helpers.Metadata
import NetatalkClient.Midlevel.Model.Namespace
/-!
# Midlevel: the calls by path, request by request

The calls of `midlevel.c` that take a path, as what they send to the
server. What the server does with a request is a parameter: `serve` takes
a state of the server to its reply and the state after it, and nothing is
assumed of either. A code that is not from the server is in the reply as
well: the -1 and -EIO of the transport, and the positive `ETIMEDOUT` of a
request that was not answered in time.

A client keeps a journal, newest first, of what `get_dirid` has stored and
of every request with its reply. It is no part of the program.
-/

namespace NetatalkClient

open Volume AfpCalls Separated

/-! ## Requests and replies -/

structure UnixPrivs where
  uid : ℕ
  gid : ℕ
  permissions : ℕ
  deriving DecidableEq, Repr

/-- What a FPGetFileDirParms asks for, by the call that sends it. -/
inductive Parameters where
  /-- The node ID: `get_dirid`. -/
  | nodeId
  /-- No parameters, only whether it is a directory: `is_dir` and
  `ml_rename`. -/
  | nothing
  /-- `get_unixprivs`. -/
  | unixPrivs
  /-- `ll_getattr`. -/
  | attributes
  /-- The parent, the node ID and the length of a fork: `ll_open`. -/
  | forkLength
  /-- `appledouble_read` and `appledouble_write`. -/
  | finderInfo
  deriving DecidableEq, Repr

/-- What FPSetFileParms, FPSetDirParms and FPSetFileDirParms set. -/
inductive Setting where
  | modDate (time : ℤ)
  | unixPrivs (privs : UnixPrivs)
  | finderInfo (data : Octets)
  deriving DecidableEq, Repr

/-- A request. An object is addressed by a directory ID and a name in that
directory; the empty name stands for the directory itself. -/
inductive AfpRequest where
  | getfiledirparms (what : Parameters) (did : ℕ) (name : Octets)
  | createfile (hard : Bool) (did : ℕ) (name : Octets)
  | createdir (did : ℕ) (name : Octets)
  | delete (did : ℕ) (name : Octets)
  | moveandrename (srcDid dstDid : ℕ) (srcPath dstPath newName : Octets)
  | exchangefiles (srcDid dstDid : ℕ) (srcPath dstPath : Octets)
  | setdirparms (did : ℕ) (name : Octets) (setting : Setting)
  | setfileparms (did : ℕ) (name : Octets) (setting : Setting)
  | setfiledirparms (did : ℕ) (name : Octets) (setting : Setting)
  | openfork (resource write : Bool) (did : ℕ) (name : Octets)
  | setforkparms (forkid size : ℕ)
  | read (forkid offset count : ℕ)
  | write (forkid offset : ℕ) (data : Octets)
  | byterangelock (unlock : Bool) (forkid : ℕ) (offset : ℤ) (size : ℕ)
  | flushfork (forkid : ℕ)
  | closefork (forkid : ℕ)
  | getextattr (did : ℕ) (name attr : Octets)
  | setextattr (did bitmap : ℕ) (name attr value : Octets)
  | listextattr (did : ℕ) (name : Octets)
  | removeextattr (did : ℕ) (name attr : Octets)
  deriving DecidableEq, Repr

/-- The directory IDs that a request carries. -/
def AfpRequest.dirids : AfpRequest → List ℕ
  | .getfiledirparms _ did _ | .createfile _ did _ | .createdir did _ | .delete did _ => [did]
  | .moveandrename srcDid dstDid _ _ _ | .exchangefiles srcDid dstDid _ _ => [srcDid, dstDid]
  | .setdirparms did _ _ | .setfileparms did _ _ | .setfiledirparms did _ _ => [did]
  | .openfork _ _ did _ => [did]
  | .setforkparms _ _ | .read _ _ _ | .write _ _ _ | .byterangelock _ _ _ _ => []
  | .flushfork _ | .closefork _ => []
  | .getextattr did _ _ | .setextattr did _ _ _ _ | .listextattr did _ => [did]
  | .removeextattr did _ _ => [did]

/-- What comes of a request: the result of the call that sends it, and what
it may have stored. -/
structure AfpReply where
  rc : ℤ
  isdir : Bool
  fileid : ℕ
  parentdid : ℕ
  unixprivs : UnixPrivs
  offspring : ℕ
  /-- The length of a fork, the offset after a write, or the size of an
  extended attribute. -/
  size : ℕ
  forkid : ℕ
  /-- What was read: of a fork, the FinderInfo or an extended attribute. -/
  data : Octets
  deriving DecidableEq, Repr

/-- A reply with nothing but its code. -/
def AfpReply.ofCode (rc : ℤ) : AfpReply := ⟨rc, false, 0, 0, ⟨0, 0, 0⟩, 0, 0, 0, []⟩

/-! ## The client -/

/-- An entry of the journal. -/
inductive Event where
  /-- A lookup of `get_dirid`, by its result. -/
  | lookup (rc : ℤ)
  /-- `get_dirid` has stored an ID for this path, and returns 0. -/
  | resolved (path : Octets) (dirid : ℕ)
  /-- A request of any other function. It is about these paths: one for each
  directory ID that it carries. -/
  | request (about : List Octets) (r : AfpRequest) (reply : AfpReply)
  deriving DecidableEq, Repr

/-- A volume, its server, and the journal. -/
structure Client (σ : Type) where
  volume : Volume
  server : σ
  journal : List Event

/-- What local variables hold before they are set. -/
structure Locals where
  dirid : ℕ
  basename : Octets
  deriving DecidableEq, Repr

/-- What `extra_translate` takes a path for, with the path it makes of it. -/
inductive ExtraName where
  | none
  | resource (newpath : Octets)
  | appledouble
  | finderinfo (newpath : Octets)
  | comment (newpath : Octets)
  | serverIcon
  deriving DecidableEq, Repr

/-- What the calls consult on their way. -/
structure MidlevelConfig extends NamespaceConfig where
  extraTranslate : Octets → ExtraName
  convertPathToUnix : Octets → ℕ → Octets
  avNumber : ℕ
  volumeName : Octets
  /-- `VOLUME_EXTRA_FLAGS_VOL_SUPPORTS_UNIX`. -/
  supportsUnix : Bool
  /-- `VOLUME_EXTRA_FLAGS_IGNORE_UNIXPRIVS`. -/
  ignoreUnixprivs : Bool
  /-- `VOLUME_EXTRA_FLAGS_NO_LOCKING`. -/
  noLocking : Bool
  translateUidgidToClient : ℕ → ℕ → Option (ℕ × ℕ)
  getgid : ℕ
  geteuid : ℕ
  /-- The other forks of the file that are open and dirty. -/
  dirtyForks : ℕ → List ℕ
  locals : Locals
  /-- The second pair of `ml_rename`. -/
  localsTo : Locals

/-- `dirid` and `basename` after `get_dirid`. -/
def Volume.Dirid.stored (got : Dirid) (before : Locals) : ℕ × Octets :=
  (got.dirid.getD before.dirid, got.basename.getD before.basename)

/-- The result of an emulated AppleDouble file, for the calls that such a
file refuses. -/
def NamespaceConfig.emulated (cfg : NamespaceConfig) (path : Octets) : Option ℤ :=
  if cfg.appledouble path < 0 then some (cfg.appledouble path)
  else if cfg.appledouble path = 1 then some 0
  else none

namespace Client

variable {σ : Type} (serve : AfpRequest → StateM σ AfpReply)

/-- A request is sent, and its reply awaited. -/
def ask (about : List Octets) (r : AfpRequest) : StateM (Client σ) AfpReply := fun c =>
  let (reply, server) := (serve r).run c.server
  (reply, { c with server, journal := .request about r reply :: c.journal })

/-- A lookup in the volume's cache. -/
def onVolume {α : Type} (f : Volume → α × Volume) : StateM (Client σ) α := fun c =>
  let (a, volume) := f c.volume
  (a, { c with volume })

def setVolume (f : Volume → Volume) : StateM (Client σ) Unit := fun c =>
  ((), { c with volume := f c.volume })

/-- An entry of the journal that is not about a request. -/
def note (e : Event) : StateM (Client σ) Unit := fun c => ((), { c with journal := e :: c.journal })

/-! ## `did.c` -/

/-- The lookup of a component, by `get_dirid`. -/
def lookup (did : ℕ) (name : Octets) : StateM (Client σ) AfpReply := fun c =>
  let (reply, server) := (serve (.getfiledirparms .nodeId did name)).run c.server
  (reply, { c with volume := c.volume.countMiss, server, journal := .lookup reply.rc :: c.journal })

/-- The loop of `get_dirid` that looks the components up. -/
def findComponents : ℕ → Octets → Octets → ℕ → StateM (Client σ) (Except ℤ ℕ)
  | 0, _, _, parentDid => return .ok parentDid
  | fuel + 1, before, component, parentDid =>
      match firstIdx? slash component with
      | none => return .ok parentDid
      | some componentLen => do
          let name := component.take componentLen
          let reply ← lookup serve parentDid name
          if reply.rc ≠ 0 then return .error reply.rc
          if !reply.isdir then return .ok parentDid
          let fullParent := before ++ name
          setVolume fun v => v.addDidCacheEntry parentDid reply.fileid fullParent name
          findComponents fuel (fullParent ++ [slash]) (component.drop (componentLen + 1))
            reply.fileid

/-- Where `get_dirid` starts to look components up: below the nearest parent
in the cache. -/
structure Start where
  before : Octets
  component : Octets
  parentDid : ℕ

/-- `get_dirid` as far as the cache takes it: what it returns and stores, or
where the lookups start. -/
def startDirid (path : Octets) (v : Volume) : (Dirid ⊕ Octets × Start) × Volume :=
  match lastIdx? slash path with
  | none => (.inl ⟨-1, none, none⟩, v)
  | some lastSlash =>
      let basename := path.drop (lastSlash + 1)
      if afpcMaxNameBytes ≤ basename.length then (.inl ⟨-enametoolong, none, none⟩, v)
      else if lastSlash = 0 then (.inl ⟨0, some afpRootDid, some basename⟩, v)
      else
        let parent := path.take lastSlash
        let (newdid, v) := v.findDiridByFullname parent
        if newdid ≠ 0 then (.inl ⟨0, some newdid, some basename⟩, v)
        else
          let (v, parentDid, knownParentLen) := findKnownParent parent.length v parent afpRootDid
          let before := path.take knownParentLen
          let component := path.drop knownParentLen
          if component.head? = some slash then
            (.inr (basename, ⟨before ++ [slash], component.tail, parentDid⟩), v)
          else (.inr (basename, ⟨before, component, parentDid⟩), v)

/-- The end of `get_dirid`, with the result of the lookups. -/
def storeDirid (path basename : Octets) : Except ℤ ℕ → StateM (Client σ) Dirid
  | .error ret => return ⟨ret, none, some basename⟩
  | .ok dirid => do
      note (.resolved path dirid)
      return ⟨0, some dirid, some basename⟩

def getDirid (path : Octets) : StateM (Client σ) Dirid := do
  match ← onVolume (startDirid path) with
  | .inl got =>
      match got.dirid with
      | some dirid => storeDirid path (got.basename.getD []) (.ok dirid)
      | none => return got
  | .inr (basename, start) =>
      let found ← findComponents serve start.component.length start.before start.component
        start.parentDid
      storeDirid path basename found

def isDir (about : List Octets) (parentdid : ℕ) (path : Octets) : StateM (Client σ) Bool := do
  let did ← onVolume fun v => v.findCachedDirectory parentdid path
  if did ≠ 0 then return true
  setVolume countMiss
  let reply ← ask serve about (.getfiledirparms .nothing parentdid path)
  if reply.rc ≠ 0 then return false
  return reply.isdir

/-! ## `lowlevel.c` -/

variable (cfg : MidlevelConfig)

/-- `S_IFDIR`. -/
def sIfdir : ℕ := 0o040000

/-- `st_mode` in `ll_getattr`. -/
def statMode (reply : AfpReply) : ℕ :=
  if 30 ≤ cfg.avNumber ∧ reply.unixprivs.permissions ≠ 0 then reply.unixprivs.permissions
  else if reply.isdir then 0o040700
  else 0o100600

/-- `st_size` in `ll_getattr`. -/
def statSize (resource : Bool) (reply : AfpReply) : ℕ :=
  if statMode cfg reply &&& sIfdir ≠ 0 then if resource then 0 else reply.offspring * 34 + 24
  else reply.size

/-- The object that `ll_getattr` asks about. On a server before AFP 3.0 the
root is a file with the name of the volume. -/
def attributesOf (path : Octets) (got : Dirid) : ℕ × Octets :=
  if cfg.avNumber < 30 ∧ path = rootPath then (1, cfg.volumeName) else got.stored cfg.locals

/-- `ll_getattr`: its result and `st_size`. -/
def llGetattr (path : Octets) (resource : Bool) : StateM (Client σ) (Status × ℕ) := do
  if cfg.invalidFilename path then return (⟨-enametoolong, isStatus_neg_enametoolong⟩, 0)
  let got ← getDirid serve path
  if got.ret < 0 then return (⟨-enoent, isStatus_neg_enoent⟩, 0)
  let (dirid, basename) := attributesOf cfg path got
  let reply ← ask serve [path] (.getfiledirparms .attributes dirid basename)
  if fileDirParmsErrno reply.rc < 0 then
    return (⟨fileDirParmsErrno reply.rc, isStatus_fileDirParmsErrno reply.rc⟩, 0)
  match cfg.translateUidgidToClient reply.unixprivs.uid reply.unixprivs.gid with
  | none => return (⟨-eio, isStatus_neg_eio⟩, 0)
  | some _ => return (⟨0, isStatus_zero⟩, statSize cfg resource reply)

/-- `ll_setfork_size`. -/
def llSetforkSize (forkid size : ℕ) : StateM (Client σ) ℤ := do
  let reply ← ask serve [] (.setforkparms forkid size)
  return forkParmsErrno reply.rc

/-- `ll_zero_file`. -/
def llZeroFile (forkid : ℕ) : StateM (Client σ) ℤ := llSetforkSize serve forkid 0

/-- The flags of `open` that are looked at. -/
structure OpenFlags where
  /-- `O_WRONLY` or `O_RDWR`. -/
  write : Bool
  creat : Bool
  excl : Bool
  trunc : Bool
  append : Bool
  deriving DecidableEq, Repr

/-- `O_RDONLY`. -/
def oRdonly : OpenFlags := ⟨false, false, false, false, false⟩

/-- `O_WRONLY` and `O_RDWR`, which are treated alike. -/
def oRdwr : OpenFlags := { oRdonly with write := true }

/-- The errors of FPOpenFork in `ll_open`. -/
def openforkErrno (rc : ℤ) : ℤ :=
  if rc = 0 then 0
  else if rc = kFPAccessDenied then eacces
  else if rc = kFPObjectNotFound then enoent
  else if rc = kFPObjectLocked then erofs
  else if rc = kFPObjectTypeErr then eisdir
  else if rc = kFPParamErr then eacces
  else if rc = kFPTooManyFilesOpen then emfile
  else efault

/-- `AFP_MAX_AFP2_FILESIZE`. -/
def afpMaxAfp2Filesize : ℕ := 4294967296

/-- The part of `struct afp_file_info` that `ll_open` reads and sets. -/
structure OpenFile where
  did : ℕ
  basename : Octets
  resource : Bool
  forkid : ℕ
  size : ℕ
  deriving DecidableEq, Repr

/-- The file that `ll_open` creates if it is told to. -/
def createForOpen (about : List Octets) (fp : OpenFile) (flags : OpenFlags) :
    StateM (Client σ) ℤ := do
  if !(flags.creat && flags.write) then return 0
  let reply ← ask serve about (.createfile flags.excl fp.did fp.basename)
  if reply.rc = 0 then return 0
  if reply.rc = kFPObjectExists then return if flags.excl then eexist else 0
  return eio

/-- What the reply to the lookup of `ll_open` leaves in `fp`: the reply
clears all of it but the name. -/
def OpenFile.parsed (fp : OpenFile) (reply : AfpReply) : OpenFile :=
  { fp with
    did := if reply.isdir then 0 else reply.parentdid
    size := if reply.isdir then 0 else reply.size }

/-- The lookup of `ll_open`, on a server before AFP 3.0. -/
def lookupForOpen (about : List Octets) (fp : OpenFile) :
    StateM (Client σ) (Except ℤ OpenFile) := do
  if 30 ≤ cfg.avNumber then return .ok fp
  let reply ← ask serve about (.getfiledirparms .forkLength fp.did fp.basename)
  if fileDirParmsErrno reply.rc < 0 then return .error (-fileDirParmsErrno reply.rc)
  if afpMaxAfp2Filesize - 1 ≤ (fp.parsed reply).size then return .error eoverflow
  return .ok (fp.parsed reply)

/-- The truncation of `ll_open`. -/
def truncateForOpen (forkid : ℕ) (flags : OpenFlags) : StateM (Client σ) ℤ :=
  if flags.trunc && !flags.creat then llZeroFile serve forkid else return 0

/-- `ll_open`: what it returns, as a positive number, or the open file. -/
def llOpen (about : List Octets) (fp : OpenFile) (flags : OpenFlags) :
    StateM (Client σ) (Except ℤ OpenFile) := do
  if flags.write && cfg.volumeIsReadonly then return .error eperm
  let ret ← createForOpen serve about fp flags
  if ret ≠ 0 then return .error ret
  match ← lookupForOpen serve cfg about fp with
  | .error ret => return .error ret
  | .ok fp =>
      let reply ← ask serve about (.openfork fp.resource flags.write fp.did fp.basename)
      if openforkErrno reply.rc ≠ 0 then return .error (openforkErrno reply.rc)
      let ret ← truncateForOpen serve reply.forkid flags
      if ret ≠ 0 then return .error ret
      return .ok { fp with forkid := reply.forkid }

/-- The loop of `ll_handle_locking`. After the last try the range counts as
locked. -/
def tryLock (forkid : ℕ) (offset : ℤ) (size : ℕ) : ℕ → StateM (Client σ) Bool
  | 0 => return false
  | tries + 1 => do
      let reply ← ask serve [] (.byterangelock false forkid offset size)
      if reply.rc = 0 then return false
      if reply.rc = kFPNoMoreLocks ∨ reply.rc = kFPLockErr then tryLock forkid offset size tries
      else return true

/-- Whether `ll_handle_locking` fails. -/
def llHandleLocking (forkid : ℕ) (offset : ℤ) (size : ℕ) : StateM (Client σ) Bool :=
  if cfg.noLocking then return false else tryLock serve forkid offset size 10

/-- Whether `ll_handle_unlocking` fails. -/
def llHandleUnlocking (forkid : ℕ) (offset : ℤ) (size : ℕ) : StateM (Client σ) Bool := do
  if cfg.noLocking then return false
  let reply ← ask serve [] (.byterangelock true forkid offset size)
  return reply.rc ≠ 0

/-- The requests of `flush_dirty_forks_for_file`. -/
def flushForks : List ℕ → StateM (Client σ) Unit
  | [] => return ()
  | forkid :: forks => do
      let _ ← ask serve [] (.flushfork forkid)
      flushForks forks

/-! ## The metadata of a file

The calls under `midlevel.c`'s functions on metadata, for a path and what
it is converted to. -/

/-- An error number as it is returned. None is out of range. -/
def errorStatus (err : ℤ) : Status :=
  if h : IsStatus (-err) then ⟨-err, h⟩ else ⟨-eio, isStatus_neg_eio⟩

/-- `ll_open` of a resource fork. -/
def llOpenResource (about : List Octets) (did : ℕ) (basename : Octets) (write : Bool) :
    StateM (Client σ) (Status × ℕ) := do
  match ← llOpen serve cfg about ⟨did, basename, true, 0, 0⟩ { oRdonly with write } with
  | .error ret => return (errorStatus ret, 0)
  | .ok fp => return (⟨0, isStatus_zero⟩, fp.forkid)

def calls (path converted : Octets) : AfpCalls (Client σ) where
  getDirid p := do
    let got ← getDirid serve p
    return (got.ret, got.stored ⟨0, []⟩)
  llGetattr p := llGetattr serve cfg p true
  llOpen did basename write := llOpenResource serve cfg [converted] did basename write
  llHandleLocking := llHandleLocking serve cfg
  llHandleUnlocking := llHandleUnlocking serve cfg
  flushDirtyForksForFile forkid := flushForks serve (cfg.dirtyForks forkid)
  afpRead forkid offset count := do
    let reply ← ask serve [] (.read forkid offset count)
    return (reply.rc, reply.data)
  afpWrite forkid offset data := do
    let reply ← ask serve [] (.write forkid offset data)
    return (reply.rc, reply.size)
  afpFlushfork forkid := do
    let reply ← ask serve [] (.flushfork forkid)
    return reply.rc
  afpClosefork forkid := do
    let reply ← ask serve [] (.closefork forkid)
    return reply.rc
  afpSetforkparms forkid size := do
    let reply ← ask serve [] (.setforkparms forkid size)
    return reply.rc
  afpGetfiledirparms did name := do
    let reply ← ask serve [converted] (.getfiledirparms .finderInfo did name)
    return (reply.rc, reply.data)
  afpSetfiledirparms did name data := do
    let reply ← ask serve [converted] (.setfiledirparms did name (.finderInfo data))
    return reply.rc
  afpGetextattr did name attr := do
    let reply ← ask serve [path] (.getextattr did name attr)
    return (reply.rc, ⟨UInt32.ofNat reply.size, reply.data⟩)
  afpSetextattr did bitmap name attr value := do
    let reply ← ask serve [path] (.setextattr did bitmap name attr value)
    return reply.rc
  afpListextattr did name := do
    let reply ← ask serve [path] (.listextattr did name)
    return (reply.rc, ⟨UInt32.ofNat reply.size, reply.data⟩)
  afpRemoveextattr did name attr := do
    let reply ← ask serve [path] (.removeextattr did name attr)
    return reply.rc

/-! ## `midlevel.c` -/

/-- The checks of `ml_mkdir`: its result if it ends there, or the converted
path. -/
def mkdirChecks (path : Octets) : Except ℤ Octets :=
  match cfg.convertPathToAfpAlloc path with
  | .error ret => .error ret
  | .ok convertedPath =>
      if cfg.invalidFilename path then .error (-enametoolong)
      else if cfg.volumeIsReadonly then .error (-eacces)
      else
        match cfg.emulated path with
        | some ret => .error ret
        | none => .ok convertedPath

def mlMkdir (path : Octets) : StateM (Client σ) ℤ :=
  match mkdirChecks cfg path with
  | .error ret => return ret
  | .ok convertedPath => do
      let got ← getDirid serve convertedPath
      let (dirid, basename) := got.stored cfg.locals
      let reply ← ask serve [convertedPath] (.createdir dirid basename)
      return -mkdirErrno reply.rc

/-- The checks of `ml_unlink` before it resolves the path. -/
def unlinkChecks (path : Octets) : Except ℤ Octets :=
  match cfg.convertPathToAfpAlloc path with
  | .error ret => .error ret
  | .ok convertedPath =>
      if cfg.volumeIsReadonly then .error (-eacces)
      else
        match cfg.emulated path with
        | some ret => .error ret
        | none => .ok convertedPath

/-- `ml_unlink`, after `get_dirid`. -/
def unlinkObject (convertedPath : Octets) (dirid : ℕ) (basename : Octets) :
    StateM (Client σ) ℤ := do
  if ← isDir serve [convertedPath] dirid basename then return -eisdir
  if cfg.invalidFilename convertedPath then return -enametoolong
  let reply ← ask serve [convertedPath] (.delete dirid basename)
  match unlinkErrno reply.rc with
  | some err => return -err
  | none =>
      setVolume fun v => v.removeDidEntry convertedPath
      return 0

def mlUnlink (path : Octets) : StateM (Client σ) ℤ :=
  match unlinkChecks cfg path with
  | .error ret => return ret
  | .ok convertedPath => do
      let got ← getDirid serve convertedPath
      let (dirid, basename) := got.stored cfg.locals
      unlinkObject serve cfg convertedPath dirid basename

/-- The checks of `ml_rmdir`. -/
def rmdirChecks (path : Octets) : Except ℤ Octets :=
  if cfg.invalidFilename path then .error (-enametoolong) else unlinkChecks cfg path

def mlRmdir (path : Octets) : StateM (Client σ) ℤ :=
  match rmdirChecks cfg path with
  | .error ret => return ret
  | .ok convertedPath => do
      let got ← getDirid serve convertedPath
      let (dirid, basename) := got.stored cfg.locals
      let dir ← isDir serve [convertedPath] dirid basename
      if !dir then return -enotdir
      let reply ← ask serve [convertedPath] (.delete dirid basename)
      match rmdirErrno reply.rc with
      | some err => return -err
      | none =>
          setVolume fun v => v.removeDidEntry convertedPath
          return 0

/-- `get_unixprivs`: its result and the reply. -/
def getUnixprivs (about : List Octets) (dirid : ℕ) (basename : Octets) :
    StateM (Client σ) (ℤ × AfpReply) := do
  let reply ← ask serve about (.getfiledirparms .unixPrivs dirid basename)
  return (fileDirParmsErrno reply.rc, reply)

/-- The errors of `set_unixprivs`. -/
def setUnixprivsErrno (rc : ℤ) : ℤ :=
  if rc = kFPAccessDenied then eperm
  else if rc = kFPBitmapErr then enosys
  else if rc = kFPObjectNotFound then enoent
  else if rc = 0 then 0
  else eio

/-- `set_unixprivs`, where the volume has Unix privileges. -/
def setUnixprivs (about : List Octets) (dirid : ℕ) (basename : Octets) (isdir : Bool)
    (privs : UnixPrivs) : StateM (Client σ) ℤ := do
  let reply ← ask serve about (if isdir then .setdirparms dirid basename (.unixPrivs privs)
    else .setfiledirparms dirid basename (.unixPrivs privs))
  return -setUnixprivsErrno reply.rc

/-- `ml_chmod` and `ml_chown` on a volume without Unix privileges. -/
def withoutUnixprivs (convertedPath : Octets) : StateM (Client σ) ℤ := do
  if !cfg.ignoreUnixprivs then return -enosys
  let (ret, _) ← llGetattr serve cfg convertedPath false
  return ret.val

/-- The checks of `ml_chmod` on any volume. -/
def chmodChecks (path : Octets) : Except ℤ Octets :=
  if cfg.invalidFilename path then .error (-enametoolong)
  else if cfg.volumeIsReadonly then .error (-eacces)
  else cfg.convertPathToAfpAlloc path

/-- A mode without `S_IFDIR`. -/
def withoutIfdir (mode : ℕ) : ℕ := mode - (mode &&& sIfdir)

/-- `ml_chmod`, once the permissions are known. -/
def changeMode (about : List Octets) (dirid : ℕ) (basename : Octets) (mode : ℕ)
    (reply : AfpReply) : StateM (Client σ) ℤ := do
  let privs := reply.unixprivs
  if withoutIfdir privs.permissions = withoutIfdir mode then return 0
  match cfg.translateUidgidToClient privs.uid privs.gid with
  | none => return -eio
  | some (uid, gid) =>
      if gid ≠ cfg.getgid ∧ uid ≠ cfg.geteuid then return -eperm
      setUnixprivs serve about dirid basename reply.isdir
        { privs with permissions := withoutIfdir mode }

def mlChmod (path : Octets) (mode : ℕ) : StateM (Client σ) ℤ :=
  match chmodChecks cfg path with
  | .error ret => return ret
  | .ok convertedPath => do
      if !cfg.supportsUnix then withoutUnixprivs serve cfg convertedPath
      else
        match cfg.emulated path with
        | some ret => return ret
        | none =>
            let got ← getDirid serve convertedPath
            let (dirid, basename) := got.stored cfg.locals
            let (rc, reply) ← getUnixprivs serve [convertedPath] dirid basename
            if rc ≠ 0 then return rc
            changeMode serve cfg [convertedPath] dirid basename mode reply

/-- The checks of `ml_chown`. -/
def chownChecks (path : Octets) : Except ℤ Octets :=
  match cfg.convertPathToAfpAlloc path with
  | .error ret => .error ret
  | .ok convertedPath =>
      if cfg.invalidFilename convertedPath then .error (-enametoolong)
      else if cfg.volumeIsReadonly then .error (-eacces)
      else
        match cfg.emulated path with
        | some ret => .error ret
        | none => .ok convertedPath

/-- `ml_chown`. The new owner is not sent. -/
def mlChown (path : Octets) : StateM (Client σ) ℤ :=
  match chownChecks cfg path with
  | .error ret => return ret
  | .ok convertedPath => do
      if !cfg.supportsUnix then withoutUnixprivs serve cfg convertedPath
      else
        let got ← getDirid serve convertedPath
        let (dirid, basename) := got.stored cfg.locals
        let (rc, reply) ← getUnixprivs serve [convertedPath] dirid basename
        if rc ≠ 0 then return rc
        let rc ← setUnixprivs serve [convertedPath] dirid basename reply.isdir reply.unixprivs
        -- the codes it compares with are those of AFP, and `rc` is none of them
        if rc = -enosys then return -enosys
        if rc = kFPAccessDenied then return -eacces
        if rc = kFPObjectNotFound then return -enoent
        return 0

/-- The checks of `ml_utime`. -/
def utimeChecks (path : Octets) : Except ℤ Octets :=
  if cfg.volumeIsReadonly then .error (-eacces)
  else if cfg.invalidFilename path then .error (-enametoolong)
  else
    match cfg.convertPathToAfpAlloc path with
    | .error ret => .error ret
    | .ok convertedPath =>
        match cfg.emulated path with
        | some ret => .error ret
        | none => .ok convertedPath

/-- The errors of `ml_utime`; any other code counts as success. -/
def utimeErrno (rc : ℤ) : ℤ :=
  if rc = kFPAccessDenied then eacces
  else if rc = kFPObjectNotFound then enoent
  else 0

def mlUtime (path : Octets) (modtime : ℤ) : StateM (Client σ) ℤ :=
  match utimeChecks cfg path with
  | .error ret => return ret
  | .ok convertedPath => do
      let got ← getDirid serve convertedPath
      let (dirid, basename) := got.stored cfg.locals
      let dir ← isDir serve [convertedPath] dirid basename
      let reply ← ask serve [convertedPath]
        (if dir then .setdirparms dirid basename (.modDate modtime)
          else .setfileparms dirid basename (.modDate modtime))
      return -utimeErrno reply.rc

/-- The errors of FPOpenFork in `ml_readlink`; four codes count as success. -/
def readlinkOpenErrno (rc : ℤ) : ℤ :=
  if rc ∈ [kFPVolLocked, kFPDenyConflict, kFPMiscErr, kFPBitmapErr] then 0 else openforkErrno rc

/-- The errors of FPRead in `ml_readlink`; any other code counts as
success. -/
def readlinkReadErrno (rc : ℤ) : ℤ :=
  if rc = kFPAccessDenied then eacces
  else if rc = kFPLockErr then ebusy
  else if rc = kFPMiscErr ∨ rc = kFPParamErr then eio
  else 0

/-- The checks of `ml_readlink`. -/
def readlinkChecks (path : Octets) (size : ℕ) : Except ℤ Octets :=
  if intMax < size then .error (-enametoolong) else cfg.convertPathToAfpAlloc path

/-- `ml_readlink`: its result and what it stores. -/
def mlReadlink (path : Octets) (size : ℕ) : StateM (Client σ) (ℤ × Octets) :=
  match readlinkChecks cfg path size with
  | .error ret => return (ret, [])
  | .ok convertedPath => do
      let got ← getDirid serve convertedPath
      let (dirid, basename) := got.stored cfg.locals
      let opened ← ask serve [convertedPath] (.openfork false true dirid basename)
      if readlinkOpenErrno opened.rc ≠ 0 then return (-readlinkOpenErrno opened.rc, [])
      let reply ← ask serve [] (.read opened.forkid 0 size)
      let closed ← ask serve [] (.closefork opened.forkid)
      if readlinkReadErrno reply.rc ≠ 0 then return (-readlinkReadErrno reply.rc, [])
      if closed.rc ≠ 0 then return (-eio, [])
      return (0, cfg.convertPathToUnix (cString (reply.data.take size)) size)

/-- The checks of `ml_rename`: both paths, converted. -/
def renameChecks (pathFrom pathTo : Octets) : Except ℤ (Octets × Octets) :=
  match cfg.convertPathToAfpAlloc pathFrom with
  | .error ret => .error ret
  | .ok convertedPathFrom =>
      match cfg.convertPathToAfpAlloc pathTo with
      | .error ret => .error ret
      | .ok convertedPathTo =>
          if cfg.volumeIsReadonly then .error (-eacces)
          else .ok (convertedPathFrom, convertedPathTo)

/-- What `ml_rename` renames: two paths, and what they were resolved to. -/
structure Renaming where
  pathFrom : Octets
  pathTo : Octets
  diridFrom : ℕ
  diridTo : ℕ
  basenameFrom : Octets
  basenameTo : Octets

/-- The end of `ml_rename`, after a move has returned `rc`. -/
def renamed (n : Renaming) (rc : ℤ) : StateM (Client σ) ℤ := do
  if rc ∈ [kFPObjectLocked, kFPAccessDenied] then return -eacces
  if rc = kFPCantRename then return -erofs
  if rc = kFPObjectExists then
    let _ ← ask serve [n.pathTo] (.delete n.diridTo n.basenameTo)
    let reply ← ask serve [n.pathFrom, n.pathTo]
      (.moveandrename n.diridFrom n.diridTo n.basenameFrom [] n.basenameTo)
    return -renameAgainErrno reply.rc
  if rc = kFPObjectNotFound then return -enoent
  if rc = 0 then return 0
  return -eio

/-- The exchange of `ml_rename` with an existing file: whether it was
done. -/
def exchanged (n : Renaming) (found : AfpReply) : StateM (Client σ) Bool := do
  if !(found.rc = 0 && !cfg.noExchangeFiles) then return false
  let reply ← ask serve [n.pathFrom, n.pathTo]
    (.exchangefiles n.diridFrom n.diridTo n.basenameFrom n.basenameTo)
  return reply.rc = 0

/-- The requests of `ml_rename`. -/
def rename (n : Renaming) : StateM (Client σ) ℤ := do
  let found ← ask serve [n.pathTo] (.getfiledirparms .nothing n.diridTo n.basenameTo)
  if found.rc = 0 ∧ found.isdir then
    let reply ← ask serve [n.pathFrom, n.pathTo]
      (.moveandrename n.diridFrom n.diridTo n.basenameFrom n.basenameTo n.basenameFrom)
    renamed serve n reply.rc
  else if ← exchanged serve cfg n found then
    let _ ← ask serve [n.pathFrom] (.delete n.diridFrom n.basenameFrom)
    return 0
  else
    let reply ← ask serve [n.pathFrom, n.pathTo]
      (.moveandrename n.diridFrom n.diridTo n.basenameFrom [] n.basenameTo)
    renamed serve n reply.rc

def mlRename (pathFrom pathTo : Octets) : StateM (Client σ) ℤ :=
  match renameChecks cfg pathFrom pathTo with
  | .error ret => return ret
  | .ok (convertedPathFrom, convertedPathTo) => do
      let gotFrom ← getDirid serve convertedPathFrom
      if gotFrom.ret < 0 then return gotFrom.ret
      let gotTo ← getDirid serve convertedPathTo
      if gotTo.ret < 0 then return gotTo.ret
      let (diridFrom, basenameFrom) := gotFrom.stored cfg.locals
      let (diridTo, basenameTo) := gotTo.stored cfg.localsTo
      rename serve cfg
        ⟨convertedPathFrom, convertedPathTo, diridFrom, diridTo, basenameFrom, basenameTo⟩

/-! ## Opening and truncating by path -/

/-- The errors of FPOpenFork in `appledouble_truncate`. -/
def truncateOpenErrno (rc : ℤ) : ℤ :=
  if rc = kFPAccessDenied then eacces
  else if rc = kFPObjectNotFound then enoent
  else if rc ∈ [kFPObjectLocked, kFPVolLocked, kFPDenyConflict] then ebusy
  else eio

/-- `appledouble_truncate` of a resource fork. -/
def truncateResource (newpath : Octets) : StateM (Client σ) ℤ := do
  let got ← getDirid serve newpath
  if got.ret < 0 then return got.ret
  let (dirid, basename) := got.stored cfg.locals
  let opened ← ask serve [newpath] (.openfork true true dirid basename)
  if opened.rc ≠ 0 then return -truncateOpenErrno opened.rc
  let ret ← llZeroFile serve opened.forkid
  let _ ← ask serve [] (.closefork opened.forkid)
  if ret ≠ 0 then return -ret
  return 1

def appledoubleTruncate (path : Octets) : StateM (Client σ) ℤ :=
  match cfg.extraTranslate path with
  | .resource newpath => truncateResource serve cfg newpath
  | .appledouble => return -eisdir
  | .finderinfo _ | .comment _ => return 1
  | .serverIcon => return -eperm
  | .none => return 0

/-- The checks of `ml_open`. -/
def openChecks (path : Octets) (flags : OpenFlags) : Except ℤ Octets :=
  match cfg.convertPathToAfpAlloc path with
  | .error ret => .error ret
  | .ok convertedPath =>
      if cfg.invalidFilename convertedPath then .error (-enametoolong)
      else if cfg.volumeIsReadonly && (flags.write || flags.trunc || flags.append || flags.creat)
        then .error (-eacces)
      else .ok convertedPath

/-- `ml_open` of a path that is no emulated AppleDouble file. -/
def mlOpen (path : Octets) (flags : OpenFlags) : StateM (Client σ) (Except ℤ OpenFile) :=
  match openChecks cfg path flags with
  | .error ret => return .error ret
  | .ok convertedPath => do
      let got ← getDirid serve convertedPath
      if got.ret < 0 then return .error (-enoent)
      -- the name goes into `fp`, which is zeroed, and the ID into a local variable
      let dirid := got.dirid.getD cfg.locals.dirid
      match ← llOpen serve cfg [convertedPath] ⟨dirid, got.basename.getD [], false, 0, 0⟩ flags with
      | .error ret => return .error (-ret)
      | .ok fp => return .ok fp

/-- The checks of `ml_truncate`. -/
def truncateChecks (path : Octets) : Except ℤ Octets :=
  match cfg.convertPathToAfpAlloc path with
  | .error ret => .error ret
  | .ok convertedPath =>
      if cfg.invalidFilename convertedPath then .error (-enametoolong)
      else if cfg.volumeIsReadonly then .error (-eacces)
      else .ok convertedPath

/-- `ml_truncate`. The length asked for is not looked at. -/
def mlTruncate (path : Octets) (_offset : ℤ) : StateM (Client σ) ℤ :=
  match truncateChecks cfg path with
  | .error ret => return ret
  | .ok _ => do
      let ret ← appledoubleTruncate serve cfg path
      if ret < 0 then return ret
      if ret = 1 then return 0
      match ← mlOpen serve cfg path oRdwr with
      | .error _ => return 0
      | .ok fp =>
          let ret ← llZeroFile serve fp.forkid
          -- the fork stays open
          if ret ≠ 0 then return -ret
          let _ ← ask serve [] (.closefork fp.forkid)
          return 0

/-! ## `ml_getattr` -/

/-- `AFP_SERVER_ICON_LEN`. -/
def afpServerIconLen : ℕ := 256

/-- `appledouble_getattr`: its result and `st_size`. What `get_comment_size`
returns is a parameter. -/
def appledoubleGetattr (getCommentSize : Octets → ℕ → ℤ) (path : Octets) :
    StateM (Client σ) (ℤ × ℕ) :=
  match cfg.extraTranslate path with
  | .resource newpath => do
      let (_, stSize) ← llGetattr serve cfg newpath true
      return (1, stSize)
  | .appledouble => return (1, 0)
  | .finderinfo newpath => do
      let _ ← llGetattr serve cfg newpath false
      return (1, 32)
  | .comment newpath => do
      let (ret, stSize) ← llGetattr serve cfg newpath false
      if ret.val < 0 then return (ret.val, stSize)
      let got ← getDirid serve newpath
      if got.ret < 0 then return (got.ret, stSize)
      let (did, basename) := got.stored cfg.locals
      let size := getCommentSize basename did
      if size < 0 then return (size, stSize)
      return (1, size.toNat)
  | .serverIcon => return (1, afpServerIconLen)
  | .none => return (0, 0)

/-- `ml_getattr`: its result and `st_size`. -/
def mlGetattr (getCommentSize : Octets → ℕ → ℤ) (path : Octets) : StateM (Client σ) (ℤ × ℕ) :=
  match cfg.convertPathToAfpAlloc path with
  | .error ret => return (ret, 0)
  | .ok convertedPath => do
      let (ret, stSize) ← appledoubleGetattr serve cfg getCommentSize convertedPath
      if ret < 0 then return (ret, stSize)
      if 0 < ret then return (0, stSize)
      let (ret, stSize) ← llGetattr serve cfg convertedPath false
      return (ret.val, stSize)

end Client

end NetatalkClient
