import NetatalkClient.Lowlevel.Model.ForkList
import NetatalkClient.Midlevel.Model.Requests
/-!
# Midlevel: opening forks, with the list of those that are open

`ll_open`, `ml_open` and `ml_truncate` once more, with the list that
`forklist.c` keeps of the open forks, and with the emulated AppleDouble
files. The first two do to the client what they do without the list
(`erases_llOpen`, `erases_mlOpen`).
-/

namespace NetatalkClient

open Client

/-- A client with its list of open forks. -/
structure ForkClient (σ : Type) where
  client : Client σ
  openForks : List OpenFork

/-- What `ll_open` of a comment looks at: `dtrefnum`, and what `afp_opendt`
returns. -/
structure Desktop where
  dtrefnum : ℕ
  opendt : ℤ

/-- `AFP_META_RESOURCE`. -/
def afpMetaResource : ℕ := 1

namespace ForkClient

variable {σ : Type} (serve : AfpRequest → StateM σ AfpReply) (cfg : MidlevelConfig)

/-- A call that leaves the list as it is. -/
def onClient {α : Type} (m : StateM (Client σ) α) : StateM (ForkClient σ) α := fun c =>
  let (a, client) := m.run c.client
  (a, { c with client })

def onForks (f : List OpenFork → List OpenFork) : StateM (ForkClient σ) Unit := fun c =>
  ((), { c with openForks := f c.openForks })

/-- The entry of a file that `ll_open` has opened. -/
def entry (address : ℕ) (fp : OpenFile) (write : Bool) : OpenFork :=
  ⟨address, fp.forkid, fp.did, fp.basename, if fp.resource then afpMetaResource else 0, write,
    false⟩

/-- `ll_open`, until the fork is open. -/
def openFork (about : List Octets) (fp : OpenFile) (flags : OpenFlags) :
    StateM (Client σ) (Except ℤ OpenFile) := do
  if flags.write && cfg.volumeIsReadonly then return .error eperm
  let ret ← createForOpen serve about fp flags
  if ret ≠ 0 then return .error ret
  match ← lookupForOpen serve cfg about fp with
  | .error ret => return .error ret
  | .ok fp =>
      let reply ← ask serve about (.openfork fp.resource flags.write fp.did fp.basename)
      if openforkErrno reply.rc ≠ 0 then return .error (openforkErrno reply.rc)
      return .ok { fp with forkid := reply.forkid }

/-- `ll_open` of an `fp` at this address. A fork whose truncation fails stays
open, and in the list. -/
def llOpen (address : ℕ) (about : List Octets) (fp : OpenFile) (flags : OpenFlags) :
    StateM (ForkClient σ) (Except ℤ OpenFile) := do
  match ← onClient (openFork serve cfg about fp flags) with
  | .error ret => return .error ret
  | .ok fp =>
      onForks fun forks => OpenFork.addOpenedFork forks (entry address fp flags.write)
      let ret ← onClient (truncateForOpen serve fp.forkid flags)
      if ret ≠ 0 then return .error ret
      return .ok fp

/-- Without the list, this is `ll_open`. -/
theorem clientLlOpen_eq (about : List Octets) (fp : OpenFile) (flags : OpenFlags) :
    Client.llOpen serve cfg about fp flags = (do
      match ← openFork serve cfg about fp flags with
      | .error ret => return .error ret
      | .ok fp =>
          let ret ← truncateForOpen serve fp.forkid flags
          if ret ≠ 0 then return .error ret
          return .ok fp) := by
  unfold Client.llOpen openFork
  split
  · rfl
  rw [bind_assoc]
  refine bind_congr fun ret => ?_
  split
  · rfl
  rw [bind_assoc]
  refine bind_congr ?_
  rintro (ret | fp)
  · rfl
  dsimp only
  rw [bind_assoc]
  refine bind_congr fun reply => ?_
  split
  · rfl
  · rfl

/-- The errors of `afp_opendt` in `appledouble_open`. -/
def opendtErrno (desktop : Desktop) : ℤ :=
  if desktop.dtrefnum = 0 ∧ (desktop.opendt = kFPParamErr ∨ desktop.opendt = kFPMiscErr) then eio
  else 0

/-- `appledouble_open`: an error, or the open file if the path is an emulated
one. -/
def appledoubleOpen (desktop : Desktop) (address : ℕ) (path : Octets) (flags : OpenFlags) :
    StateM (ForkClient σ) (Except ℤ (Option OpenFile)) :=
  match cfg.extraTranslate path with
  | .resource newpath => do
      let got ← onClient (getDirid serve newpath)
      if got.ret < 0 then return .error (-enoent)
      let (did, basename) := got.stored ⟨0, []⟩
      match ← llOpen serve cfg address [newpath] ⟨did, basename, true, 0, 0⟩ flags with
      | .error ret => return .error (-ret)
      | .ok fp => return .ok (some fp)
  | .appledouble => return .error (-eisdir)
  | .finderinfo newpath => do
      let got ← onClient (getDirid serve newpath)
      if got.ret < 0 then return .error (-enoent)
      let (did, basename) := got.stored ⟨0, []⟩
      return .ok (some ⟨did, basename, true, 0, 0⟩)
  | .comment newpath => do
      let got ← onClient (getDirid serve newpath)
      if got.ret < 0 then return .error (-enoent)
      if opendtErrno desktop ≠ 0 then return .error (-opendtErrno desktop)
      let (did, basename) := got.stored ⟨0, []⟩
      return .ok (some ⟨did, basename, true, 0, 0⟩)
  | .serverIcon => return .ok (some ⟨0, [], true, 0, 0⟩)
  | .none => return .ok none

/-- `ml_open`, with an `fp` that is allocated at this address. -/
def mlOpen (desktop : Desktop) (address : ℕ) (path : Octets) (flags : OpenFlags) :
    StateM (ForkClient σ) (Except ℤ OpenFile) :=
  match openChecks cfg path flags with
  | .error ret => return .error ret
  | .ok convertedPath => do
      match ← appledoubleOpen serve cfg desktop address path flags with
      | .error ret => return .error ret
      | .ok (some fp) => return .ok fp
      | .ok none =>
          let got ← onClient (getDirid serve convertedPath)
          if got.ret < 0 then return .error (-enoent)
          let dirid := got.dirid.getD cfg.locals.dirid
          match ← llOpen serve cfg address [convertedPath]
              ⟨dirid, got.basename.getD [], false, 0, 0⟩ flags with
          | .error ret => return .error (-ret)
          | .ok fp => return .ok fp

/-- `appledouble_truncate` of a resource fork, with its local variable `fp`,
of which only `forkid` is set. -/
def truncateResource (fp : OpenFork) (newpath : Octets) : StateM (ForkClient σ) ℤ := do
  let got ← onClient (getDirid serve newpath)
  if got.ret < 0 then return got.ret
  let (dirid, basename) := got.stored cfg.locals
  let opened ← onClient (ask serve [newpath] (.openfork true true dirid basename))
  if opened.rc ≠ 0 then return -truncateOpenErrno opened.rc
  onForks fun forks => OpenFork.addOpenedFork forks { fp with forkid := opened.forkid }
  let ret ← onClient (llZeroFile serve opened.forkid)
  let _ ← onClient (ask serve [] (.closefork opened.forkid))
  onForks fun forks => OpenFork.removeOpenedFork forks { fp with forkid := opened.forkid }
  if ret ≠ 0 then return -ret
  return 1

def appledoubleTruncate (fp : OpenFork) (path : Octets) : StateM (ForkClient σ) ℤ :=
  match cfg.extraTranslate path with
  | .resource newpath => truncateResource serve cfg fp newpath
  | .appledouble => return -eisdir
  | .finderinfo _ | .comment _ => return 1
  | .serverIcon => return -eperm
  | .none => return 0

/-- `ml_truncate`. -/
def mlTruncate (desktop : Desktop) (address : ℕ) (fp : OpenFork) (path : Octets) (_offset : ℤ) :
    StateM (ForkClient σ) ℤ :=
  match truncateChecks cfg path with
  | .error ret => return ret
  | .ok _ => do
      let ret ← appledoubleTruncate serve cfg fp path
      if ret < 0 then return ret
      if ret = 1 then return 0
      match ← mlOpen serve cfg desktop address path oRdwr with
      | .error _ => return 0
      | .ok opened =>
          let ret ← onClient (llZeroFile serve opened.forkid)
          -- the fork stays open, and in the list
          if ret ≠ 0 then return -ret
          let _ ← onClient (ask serve [] (.closefork opened.forkid))
          onForks fun forks => OpenFork.removeOpenedFork forks (entry address opened true)
          return 0

/-! ## Without the list -/

/-- The two calls do the same, the list apart. -/
def Erases {α : Type} (m : StateM (ForkClient σ) α) (m' : StateM (Client σ) α) : Prop :=
  ∀ c, (m.run c).1 = (m'.run c.client).1 ∧ (m.run c).2.client = (m'.run c.client).2

section Erasure

variable {serve cfg} {α β : Type} {m : StateM (ForkClient σ) α} {m' : StateM (Client σ) α}

theorem erases_pure (a : α) : Erases (σ := σ) (pure a) (pure a) := fun _ => ⟨rfl, rfl⟩

theorem erases_onClient (m : StateM (Client σ) α) : Erases (onClient m) m := fun _ => ⟨rfl, rfl⟩

theorem Erases.bind
    {f : α → StateM (ForkClient σ) β} {f' : α → StateM (Client σ) β} (hm : Erases m m')
    (hf : ∀ a, Erases (f a) (f' a)) : Erases (m >>= f) (m' >>= f') := by
  intro c
  obtain ⟨hresult, hclient⟩ := hm c
  have hnext := hf (m.run c).1 (m.run c).2
  rw [hclient] at hnext
  rw [run_bind, run_bind, ← hresult]
  exact hnext

theorem Erases.onForks (hm : Erases m m') (f : List OpenFork → List OpenFork) :
    Erases (do ForkClient.onForks f; m) m' := fun c => hm { c with openForks := f c.openForks }

theorem Erases.ite {p : Prop} [Decidable p] {n : StateM (ForkClient σ) α}
    {n' : StateM (Client σ) α} (hm : Erases m m') (hn : Erases n n') :
    Erases (if p then m else n) (if p then m' else n') := by
  split
  · exact hm
  · exact hn

theorem erases_llOpen (address : ℕ) (about : List Octets) (fp : OpenFile) (flags : OpenFlags) :
    Erases (llOpen serve cfg address about fp flags) (Client.llOpen serve cfg about fp flags) := by
  rw [clientLlOpen_eq]
  refine .bind (erases_onClient _) ?_
  rintro (ret | fp)
  · exact erases_pure _
  · refine Erases.onForks (.bind (erases_onClient _) fun ret => ?_) _
    exact .ite (erases_pure _) (erases_pure _)

theorem erases_mlOpen (desktop : Desktop) (address : ℕ) {path : Octets} (flags : OpenFlags)
    (hpath : cfg.extraTranslate path = .none) :
    Erases (mlOpen serve cfg desktop address path flags) (Client.mlOpen serve cfg path flags) := by
  unfold mlOpen Client.mlOpen appledoubleOpen
  rw [hpath]
  cases openChecks cfg path flags with
  | error ret => exact erases_pure _
  | ok convertedPath =>
    dsimp only
    rw [pure_bind]
    refine .bind (erases_onClient _) fun got => .ite (erases_pure _) ?_
    refine .bind (erases_llOpen _ _ _ _) ?_
    rintro (ret | fp)
    · exact erases_pure _
    · exact erases_pure _

end Erasure

end ForkClient

end NetatalkClient
