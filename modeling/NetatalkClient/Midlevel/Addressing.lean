import NetatalkClient.Did.Resolve
import NetatalkClient.Midlevel.Helpers.MetadataAddressing
/-!
# Midlevel: which requests are addressed

`get_dirid` fails with a number below 0, or with the positive number of a
lookup that has timed out, and its callers look at its result in three
ways: not at all, for a number below 0, and for any number but 0. For every
call, every path, every server and every state of the cache: each request
carries an ID that was stored for the path it is about exactly if the
resolution came to an end that the caller can tell from a success.
-/

namespace NetatalkClient

open Volume AfpCalls Client

/-! ## What `get_dirid` needs -/

/-- **When `get_dirid` succeeds**: the path has a parent, and every lookup is
answered with success. -/
theorem getDirid_eq_zero_iff {σ : Type} {serve : AfpRequest → StateM σ AfpReply} {path : Octets}
    {c : Client σ} (hc : c.journal = []) :
    ((getDirid serve path).run c).1.ret = 0 ↔
      HasParent path ∧ ∀ rc, .lookup rc ∈ ((getDirid serve path).run c).2.journal → rc = 0 := by
  have hres : Resolution path [] ((getDirid serve path).run c).1
      ((getDirid serve path).run c).2.journal := resolution_getDirid path c hc
  generalize (getDirid serve path).run c = r at hres
  obtain ⟨got, c'⟩ := r
  dsimp only at hres ⊢
  generalize c'.journal = j at hres
  cases hres with
  | @resolved ls dirid basename hparent hls =>
    refine iff_of_true rfl ⟨hparent, fun rc hrc => ?_⟩
    rcases List.mem_cons.mp hrc with h | h
    · cases h
    · rw [List.append_nil] at h
      exact Event.lookup.inj (hls _ h)
  | noParent hparent hret => exact iff_of_false (ne_of_lt hret) fun h => hparent h.1
  | unanswered _ _ hret => exact iff_of_false hret fun h => hret (h.2 _ List.mem_cons_self)

/-! ## The calls -/

/-- The calls that resolve a path to send a request for it. -/
inductive ResolvingCall where
  | chmod (path : Octets) (mode : ℕ)
  | unlink (path : Octets)
  | mkdir (path : Octets)
  | rmdir (path : Octets)
  | chown (path : Octets)
  | utime (path : Octets) (modtime : ℤ)
  | rename (pathFrom pathTo : Octets)
  | readlink (path : Octets) (size : ℕ)
  | getxattr (path name : Octets) (value : Bool) (size : ℕ)
  | setxattr (path name value : Octets) (flags : ℕ)
  | listxattr (path : Octets) (value : Bool) (size : ℕ)
  | removexattr (path name : Octets)
  deriving DecidableEq, Repr

/-- What a volume's own records say of it. -/
def MidlevelConfig.on (cfg : MidlevelConfig) (volume : MetadataVolume) (host : ByteOrder) :
    MidlevelConfig :=
  { cfg with
    convertPathToAfpAlloc := convertPathToAfpAlloc host volume.pathEncoding
    invalidFilename := invalidPath volume.avNumber volume.pathEncoding
    volumeIsReadonly := volume.readonly
    avNumber := volume.avNumber }

/-- A path as it is sent, if it can be. -/
def MidlevelConfig.converted (cfg : MidlevelConfig) (path : Octets) : Octets :=
  match cfg.convertPathToAfpAlloc path with
  | .ok converted => converted
  | .error _ => path

/-- The calls below the functions on metadata, for a path. -/
def Client.callsFor {σ : Type} (serve : AfpRequest → StateM σ AfpReply) (cfg : MidlevelConfig)
    (path : Octets) : AfpCalls (Client σ) := Client.calls serve cfg path (cfg.converted path)

namespace ResolvingCall

variable {σ : Type} (serve : AfpRequest → StateM σ AfpReply)

/-- A call on a volume; what it returns is left out. -/
def run (cfg : MidlevelConfig) (volume : MetadataVolume) (host : ByteOrder) :
    ResolvingCall → StateM (Client σ) Unit
  | chmod path mode => do let _ ← mlChmod serve cfg path mode
  | unlink path => do let _ ← mlUnlink serve cfg path
  | mkdir path => do let _ ← mlMkdir serve cfg path
  | rmdir path => do let _ ← mlRmdir serve cfg path
  | chown path => do let _ ← mlChown serve cfg path
  | utime path modtime => do let _ ← mlUtime serve cfg path modtime
  | rename pathFrom pathTo => do let _ ← mlRename serve cfg pathFrom pathTo
  | readlink path size => do let _ ← mlReadlink serve cfg path size
  | getxattr path name value size => do
      let _ ← (callsFor serve cfg path).mlGetxattr volume host path name value size
  | setxattr path name value flags => do
      let _ ← (callsFor serve cfg path).mlSetxattr volume host path name value flags
  | listxattr path value size => do
      let _ ← (callsFor serve cfg path).mlListxattr volume path value size
  | removexattr path name => do
      let _ ← (callsFor serve cfg path).mlRemovexattr volume host path name

/-- The resolution of a call came to an end that the call can tell from a
success: what `get_dirid` returns in the state `c`, or the replies in the
journal of the call. -/
def Resolves (cfg : MidlevelConfig) (c : Client σ) (journal : List Event) : ResolvingCall → Prop
  | chmod path _ => ∀ q, chmodChecks cfg path = .ok q →
      if cfg.supportsUnix then
        cfg.emulated path = none → ((getDirid serve q).run c).1.ret = 0
      else Cleared cfg q journal
  | unlink path => ∀ q, unlinkChecks cfg path = .ok q →
      ((getDirid serve q).run c).1.ret = 0 ∨
        (((getDirid serve q).run c).2.volume.findCachedDirectory
          (((getDirid serve q).run c).1.stored cfg.locals).1
          (((getDirid serve q).run c).1.stored cfg.locals).2).1 ≠ 0
  | mkdir path => ∀ q, mkdirChecks cfg path = .ok q → ((getDirid serve q).run c).1.ret = 0
  | rmdir path => ∀ q, rmdirChecks cfg path = .ok q → ((getDirid serve q).run c).1.ret = 0
  | chown path => ∀ q, chownChecks cfg path = .ok q →
      if cfg.supportsUnix then ((getDirid serve q).run c).1.ret = 0 else Cleared cfg q journal
  | utime path _ => ∀ q, utimeChecks cfg path = .ok q → ((getDirid serve q).run c).1.ret = 0
  | rename pathFrom pathTo => ∀ pq, renameChecks cfg pathFrom pathTo = .ok pq →
      let from' := (getDirid serve pq.1).run c
      let to' := (getDirid serve pq.2).run from'.2
      from'.1.ret < 0 ∨ to'.1.ret < 0 ∨
        (from'.1.ret = 0 ∨ .resolved pq.1 cfg.locals.dirid ∈ to'.2.journal) ∧
          (to'.1.ret = 0 ∨ .resolved pq.2 cfg.localsTo.dirid ∈ to'.2.journal)
  | readlink path size => ∀ q, readlinkChecks cfg path size = .ok q →
      ((getDirid serve q).run c).1.ret = 0
  | getxattr path name _ _ | setxattr path name _ _ | removexattr path name =>
      isSpecialXattr name = true → Cleared cfg (cfg.converted path) journal
  | listxattr _ _ _ => True

end ResolvingCall

/-! ## The calls on extended attributes -/

section Xattr

variable {σ : Type} {serve : AfpRequest → StateM σ AfpReply} {cfg : MidlevelConfig}
variable {volume : MetadataVolume} {host : ByteOrder} {path name : Octets}

theorem eq_converted (cfg : MidlevelConfig) (p : Octets)
    (h : convertPathToAfpAlloc host volume.pathEncoding path = .ok p) :
    p = (cfg.on volume host).converted path := by
  unfold MidlevelConfig.converted
  rw [show (cfg.on volume host).convertPathToAfpAlloc path = .ok p from h]

/-- A special name is settled by the replies; any other is addressed. -/
theorem addressed_xattr_iff {j : List Event} {special : Bool} {q : Octets}
    (hspecial : special = true → Settled cfg q j) (hother : special = false → Addressed j) :
    Addressed j ↔ (special = true → Cleared cfg q j) := by
  cases special with
  | true => exact (hspecial rfl).trans ⟨fun h _ => h, fun h => h rfl⟩
  | false => exact iff_of_true (hother rfl) nofun

end Xattr

/-! ## All calls -/

/-- A call that ends in its checks, or goes on with what they give. -/
theorem iff_checked {α : Type} {A : Prop} {checks : Except ℤ α} {P : α → Prop}
    (herror : ∀ ret, checks = .error ret → A) (hok : ∀ a, checks = .ok a → (A ↔ P a)) :
    A ↔ ∀ a, checks = .ok a → P a := by
  cases checks with
  | error ret => exact iff_of_true (herror ret rfl) nofun
  | ok a => exact (hok a rfl).trans ⟨fun h b hb => Except.ok.inj hb ▸ h, fun h => h a rfl⟩

section Volumes

variable {σ : Type} {serve : AfpRequest → StateM σ AfpReply} {cfg : MidlevelConfig}
variable {c : Client σ} {path : Octets}

theorem settled_withoutUnixprivs {q : Octets} :
    Ensures (fun c => c.journal = []) (withoutUnixprivs serve cfg q) fun _ c =>
      Settled cfg q c.journal := by
  refine .orPure (fun _ hc => hc ▸ settled_nil) <| .bind settled_llGetattr ?_
  rintro ⟨ret, size⟩
  exact .kept

theorem addressed_chmod_iff {mode : ℕ} (hc : c.journal = []) :
    Addressed ((mlChmod serve cfg path mode).run c).2.journal ↔
      (ResolvingCall.chmod path mode).Resolves serve cfg c
        ((mlChmod serve cfg path mode).run c).2.journal := by
  refine iff_checked (fun ret h => ?_) fun q hq => ?_
  · rw [mlChmod, h]
    exact hc ▸ trivial
  cases hunix : cfg.supportsUnix with
  | false =>
    rw [if_neg nofun]
    have hrun : mlChmod serve cfg path mode = withoutUnixprivs serve cfg q := by
      rw [mlChmod, hq, hunix]
      rfl
    rw [hrun]
    exact settled_withoutUnixprivs c hc
  | true =>
    rw [if_pos rfl]
    cases hplain : cfg.emulated path with
    | none => exact (addressed_chmod hq hunix hplain hc).trans ⟨fun h _ => h, fun h => h rfl⟩
    | some ret =>
      refine iff_of_true ?_ nofun
      rw [mlChmod, hq, hunix, hplain]
      exact hc ▸ trivial

theorem addressed_chown_iff (hc : c.journal = []) :
    Addressed ((mlChown serve cfg path).run c).2.journal ↔
      (ResolvingCall.chown path).Resolves serve cfg c
        ((mlChown serve cfg path).run c).2.journal := by
  refine iff_checked (fun ret h => ?_) fun q hq => ?_
  · rw [mlChown, h]
    exact hc ▸ trivial
  cases hunix : cfg.supportsUnix with
  | false =>
    rw [if_neg nofun]
    have hrun : mlChown serve cfg path = withoutUnixprivs serve cfg q := by
      rw [mlChown, hq, hunix]
      rfl
    rw [hrun]
    exact settled_withoutUnixprivs c hc
  | true =>
    rw [if_pos rfl]
    exact addressed_chown hq hunix hc

end Volumes

/-- **Requests are addressed exactly if the call can tell that the path was
resolved.** For every call, every server, every volume and every path. -/
theorem requests_addressed_iff {σ : Type} (call : ResolvingCall)
    (serve : AfpRequest → StateM σ AfpReply) (cfg : MidlevelConfig) (volume : MetadataVolume)
    (host : ByteOrder) (cache : Volume) (server : σ) :
    Addressed ((call.run serve (cfg.on volume host) volume host).run
        (.fresh cache server)).2.journal ↔
      call.Resolves serve (cfg.on volume host) (.fresh cache server)
        ((call.run serve (cfg.on volume host) volume host).run
          (.fresh cache server)).2.journal := by
  cases call with
  | chmod path mode => exact addressed_chmod_iff rfl
  | unlink path =>
    refine iff_checked (fun ret h => ?_) fun q hq => addressed_unlink hq rfl
    show Addressed ((mlUnlink _ _ _).run _).2.journal
    rw [mlUnlink, h]
    trivial
  | mkdir path =>
    refine iff_checked (fun ret h => ?_) fun q hq => addressed_mkdir hq rfl
    show Addressed ((mlMkdir _ _ _).run _).2.journal
    rw [mlMkdir, h]
    trivial
  | rmdir path =>
    refine iff_checked (fun ret h => ?_) fun q hq => addressed_rmdir hq rfl
    show Addressed ((mlRmdir _ _ _).run _).2.journal
    rw [mlRmdir, h]
    trivial
  | chown path => exact addressed_chown_iff rfl
  | utime path modtime =>
    refine iff_checked (fun ret h => ?_) fun q hq => addressed_utime hq rfl
    show Addressed ((mlUtime _ _ _ _).run _).2.journal
    rw [mlUtime, h]
    trivial
  | rename pathFrom pathTo =>
    refine iff_checked (fun ret h => ?_) fun pq hpq => addressed_rename hpq rfl
    show Addressed ((mlRename _ _ _ _).run _).2.journal
    rw [mlRename, h]
    trivial
  | readlink path size =>
    refine iff_checked (fun ret h => ?_) fun q hq => addressed_readlink hq rfl
    show Addressed ((mlReadlink _ _ _ _).run _).2.journal
    rw [mlReadlink, h]
    trivial
  | getxattr path name value size =>
    exact addressed_xattr_iff
      (fun h => (asksSpecial_settled (eq_converted cfg) rfl).mlGetxattr h _ rfl)
      fun h => asksOwn_addressed.mlGetxattr h _ rfl
  | setxattr path name value flags =>
    exact addressed_xattr_iff
      (fun h => (asksSpecial_settled (eq_converted cfg) rfl).mlSetxattr h _ rfl)
      fun h => asksOwn_addressed.mlSetxattr h _ rfl
  | listxattr path value size =>
    have hlist : Ensures (fun c => c.journal = [])
        ((callsFor serve (cfg.on volume host) path).mlListxattr volume path value size) fun _ c =>
          Addressed c.journal :=
      ensures_mlListxattr (fun did _ c => Addressed c.journal ∧ .resolved path did ∈ c.journal)
        (fun _ hc => hc ▸ trivial) (fun _ _ => addressed_getDirid)
        fun _ _ => .bind (addressed_ask rfl) fun _ => .kept
    exact iff_of_true (hlist _ rfl) trivial
  | removexattr path name =>
    exact addressed_xattr_iff
      (fun h => (asksSpecial_settled (eq_converted cfg) rfl).mlRemovexattr h _ rfl)
      fun h => asksOwn_addressed.mlRemovexattr h _ rfl

/-- The lookup of a parent times out: `ml_unlink` goes on to delete an object
of that name in a directory that nothing has stored, and `ml_rename` to move
one. -/
theorem unresolved_requests_sent :
    ¬Addressed (((ResolvingCall.unlink (text "/a/f")).run (answering etimedout) plainConfig
        plainVolume .little).run (.fresh Volume.mounted ())).2.journal ∧
      ¬Addressed (((ResolvingCall.rename (text "/a/f") (text "/b/f")).run (answering etimedout)
        plainConfig plainVolume .little).run (.fresh Volume.mounted ())).2.journal := by
  constructor
  · intro h
    have hmem := (carries_one rfl).mp h.1
    exact absurd hmem (by decide)
  · intro h
    have hmem := (carries_two rfl).mp h.1
    exact absurd hmem.1 (by decide)

end NetatalkClient
