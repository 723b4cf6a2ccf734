import NetatalkClient.Common.Machine
import NetatalkClient.Did.Model.Cache
/-!
# Midlevel: the calls that change names

`ml_mkdir`, `ml_unlink`, `ml_rmdir` and `ml_rename`, on a volume and the
tree its server keeps, and the machine whose steps are these calls and
`get_dirid`. Three of them do not look at what `get_dirid` returns, and go
on with whatever their local variables held if it has stored nothing: a
`Moment` says what that is, along with the clock and the server's part in
the call.
-/

namespace NetatalkClient

open Volume

/-- What the calls consult on their way, of the volume and of the path
functions. Nothing here touches the tree or the cache. -/
structure NamespaceConfig where
  convertPathToAfpAlloc : Octets → Except ℤ Octets
  invalidFilename : Octets → Bool
  volumeIsReadonly : Bool
  /-- `appledouble_mkdir`, `appledouble_unlink` and `appledouble_rmdir`. -/
  appledouble : Octets → ℤ
  /-- `kNoExchangeFiles` in the volume's attributes. -/
  noExchangeFiles : Bool

/-- The circumstances of a call. -/
structure Moment where
  clock : ℕ → ℕ
  /-- The code the server refuses the call's first, second, … change with. -/
  refuse : ℕ → ℤ
  /-- The ID the server would give a new directory. -/
  newid : ℕ
  /-- What `dirid` and `basename` hold before they are set. -/
  dirid : ℕ
  basename : Octets

/-- A mounted volume, and the server's tree. -/
structure Mount where
  catalog : Catalog
  volume : Volume

def mkdirErrno (rc : ℤ) : ℤ :=
  if rc = kFPAccessDenied then eacces
  else if rc = kFPDiskFull then enospc
  else if rc = kFPObjectNotFound then enoent
  else if rc = kFPObjectExists then eexist
  else if rc = kFPVolLocked then ebusy
  else if rc ∈ [kFPFlatVol, kFPMiscErr, kFPParamErr, -1] then efault
  else 0

/-- The errors of `ml_unlink`; any other code counts as success. -/
def unlinkErrno (rc : ℤ) : Option ℤ :=
  if rc = kFPAccessDenied then some eacces
  else if rc = kFPObjectLocked then some ebusy
  else if rc = kFPObjectNotFound then some enoent
  else if rc = kFPVolLocked then some eacces
  else if rc ∈ [kFPObjectTypeErr, kFPDirNotEmpty, kFPMiscErr, kFPParamErr, -1] then some einval
  else none

/-- The errors of `ml_rmdir`; any other code counts as success. -/
def rmdirErrno (rc : ℤ) : Option ℤ :=
  if rc = kFPAccessDenied then some eacces
  else if rc = kFPObjectLocked then some ebusy
  else if rc = kFPObjectNotFound then some enoent
  else if rc = kFPVolLocked then some eacces
  else if rc = kFPDirNotEmpty then some enotempty
  else if rc ∈ [kFPObjectTypeErr, kFPMiscErr, kFPParamErr, -1] then some einval
  else none

/-- The result of `ml_rename`'s second attempt. -/
def renameAgainErrno (rc : ℤ) : ℤ :=
  if rc ∈ [kFPObjectLocked, kFPAccessDenied] then eacces
  else if rc = kFPCantRename then erofs
  else if rc ∈ [kFPObjectExists, kFPObjectNotFound] then enoent
  else if rc ∈ [kFPParamErr, kFPMiscErr] then eio
  else 0

namespace Mount

variable (cfg : NamespaceConfig) (now : Moment) (m : Mount) (path : Octets)

def mlMkdir : ℤ × Mount :=
  match cfg.convertPathToAfpAlloc path with
  | .error ret => (ret, m)
  | .ok convertedPath =>
      if cfg.invalidFilename path then (-enametoolong, m)
      else if cfg.volumeIsReadonly then (-eacces, m)
      else if cfg.appledouble path < 0 then (cfg.appledouble path, m)
      else if cfg.appledouble path = 1 then (0, m)
      else
        let (volume, got) := getDirid m.catalog m.volume convertedPath
        let (rc, catalog) := m.catalog.createdir (now.refuse 0) now.newid
          (got.dirid.getD now.dirid) (got.basename.getD now.basename)
        (-mkdirErrno rc, ⟨catalog, volume⟩)

def mlUnlink : ℤ × Mount :=
  match cfg.convertPathToAfpAlloc path with
  | .error ret => (ret, m)
  | .ok convertedPath =>
      if cfg.volumeIsReadonly then (-eacces, m)
      else if cfg.appledouble path < 0 then (cfg.appledouble path, m)
      else if cfg.appledouble path = 1 then (0, m)
      else
        let (volume, got) := getDirid m.catalog m.volume convertedPath
        let dirid := got.dirid.getD now.dirid
        let basename := got.basename.getD now.basename
        let (dir, volume) := isDir m.catalog volume dirid basename
        if dir then (-eisdir, { m with volume })
        else if cfg.invalidFilename convertedPath then (-enametoolong, { m with volume })
        else
          let (rc, catalog) := m.catalog.delete (now.refuse 0) dirid basename
          match unlinkErrno rc with
          | some err => (-err, ⟨catalog, volume⟩)
          | none => (0, ⟨catalog, volume.removeDidEntry convertedPath⟩)

def mlRmdir : ℤ × Mount :=
  if cfg.invalidFilename path then (-enametoolong, m)
  else
    match cfg.convertPathToAfpAlloc path with
    | .error ret => (ret, m)
    | .ok convertedPath =>
        if cfg.volumeIsReadonly then (-eacces, m)
        else if cfg.appledouble path < 0 then (cfg.appledouble path, m)
        else if cfg.appledouble path = 1 then (0, m)
        else
          let (volume, got) := getDirid m.catalog m.volume convertedPath
          let dirid := got.dirid.getD now.dirid
          let basename := got.basename.getD now.basename
          let (dir, volume) := isDir m.catalog volume dirid basename
          if !dir then (-enotdir, { m with volume })
          else
            let (rc, catalog) := m.catalog.delete (now.refuse 0) dirid basename
            match rmdirErrno rc with
            | some err => (-err, ⟨catalog, volume⟩)
            | none => (0, ⟨catalog, volume.removeDidEntry convertedPath⟩)

/-- The end of `ml_rename`, after the move has returned `rc`. If the new
name is taken, what has it is deleted and the move tried again. -/
def renamed (rc : ℤ) (didFrom didTo : ℕ) (basenameFrom basenameTo : Octets) : ℤ × Mount :=
  if rc ∈ [kFPObjectLocked, kFPAccessDenied] then (-eacces, m)
  else if rc = kFPCantRename then (-erofs, m)
  else if rc = kFPObjectExists then
    let (_, catalog) := m.catalog.delete (now.refuse 2) didTo basenameTo
    let (rc, catalog) := catalog.moveandrename (now.refuse 3) didFrom didTo basenameFrom []
      basenameTo
    (-renameAgainErrno rc, { m with catalog })
  else if rc = kFPObjectNotFound then (-enoent, m)
  else if rc = 0 then (0, m)
  else (-eio, m)

/-- The requests of `ml_rename`, once both paths are resolved. -/
def rename (didFrom didTo : ℕ) (basenameFrom basenameTo : Octets) : ℤ × Mount :=
  match m.catalog.getfiledirparms didTo basenameTo with
  | .ok ⟨_, true⟩ =>
      let (rc, catalog) := m.catalog.moveandrename (now.refuse 0) didFrom didTo basenameFrom
        basenameTo basenameFrom
      renamed now { m with catalog } rc didFrom didTo basenameFrom basenameTo
  | found =>
      if found.isOk ∧ !cfg.noExchangeFiles ∧
          m.catalog.exchangefiles (now.refuse 0) didFrom didTo basenameFrom basenameTo = 0 then
        let (_, catalog) := m.catalog.delete (now.refuse 1) didFrom basenameFrom
        (0, { m with catalog })
      else
        let (rc, catalog) := m.catalog.moveandrename (now.refuse 1) didFrom didTo basenameFrom []
          basenameTo
        renamed now { m with catalog } rc didFrom didTo basenameFrom basenameTo

def mlRename (pathFrom pathTo : Octets) : ℤ × Mount :=
  match cfg.convertPathToAfpAlloc pathFrom with
  | .error ret => (ret, m)
  | .ok convertedPathFrom =>
      match cfg.convertPathToAfpAlloc pathTo with
      | .error ret => (ret, m)
      | .ok convertedPathTo =>
          if cfg.volumeIsReadonly then (-eacces, m)
          else
            let (volume, gotFrom) := getDirid m.catalog m.volume convertedPathFrom
            if gotFrom.ret < 0 then (gotFrom.ret, { m with volume })
            else
              let (volume, gotTo) := getDirid m.catalog volume convertedPathTo
              if gotTo.ret < 0 then (gotTo.ret, { m with volume })
              else
                rename cfg now { m with volume } (gotFrom.dirid.getD now.dirid)
                  (gotTo.dirid.getD now.dirid) (gotFrom.basename.getD now.basename)
                  (gotTo.basename.getD now.basename)

end Mount

/-! ## The machine -/

inductive NamespaceCall where
  /-- A call of `get_dirid` itself, with a path in the server's encoding. -/
  | getDirid (path : Octets)
  | mkdir (path : Octets)
  | unlink (path : Octets)
  | rmdir (path : Octets)
  | rename (pathFrom pathTo : Octets)
  deriving DecidableEq, Repr

namespace Mount

/-- One call, at some moment. -/
def step (cfg : NamespaceConfig) (m : Mount) (e : Moment × NamespaceCall) : Option Mount :=
  let m := { m with volume := { m.volume with clock := e.1.clock } }
  match e.2 with
  | .getDirid path => some { m with volume := (getDirid m.catalog m.volume path).1 }
  | .mkdir path => some (m.mlMkdir cfg e.1 path).2
  | .unlink path => some (m.mlUnlink cfg e.1 path).2
  | .rmdir path => some (m.mlRmdir cfg e.1 path).2
  | .rename pathFrom pathTo => some (m.mlRename cfg e.1 pathFrom pathTo).2

end Mount

end NetatalkClient
