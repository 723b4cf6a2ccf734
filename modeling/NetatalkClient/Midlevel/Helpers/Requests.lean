import NetatalkClient.Midlevel.Model.Requests
/-!
# Helpers: what a call leaves in the journal

What `get_dirid` returns and notes, for any server: it resolves the path,
the path has no parent to resolve, or a lookup is not answered with
success. And what the calls on an open fork keep, from what its requests
keep.
-/

namespace NetatalkClient

open Volume Separated List

/-- A path that `get_dirid` can look up: it has a slash, and its last
component fits. -/
def HasParent (path : Octets) : Prop :=
  ∃ i, lastIdx? slash path = some i ∧ (path.drop (i + 1)).length < afpcMaxNameBytes

namespace Client

variable {σ : Type} {serve : AfpRequest → StateM σ AfpReply} {path : Octets} {j : List Event}

/-! ## Lookups -/

/-- Lookups that were all answered with success. -/
def Found (ls : List Event) : Prop := ∀ e ∈ ls, e = .lookup 0

theorem found_nil : Found [] := fun _ h => absurd h not_mem_nil

/-- What the lookups of components leave, with their result. -/
inductive Walked (j : List Event) : Except ℤ ℕ → List Event → Prop
  | found {ls : List Event} {did : ℕ} (hls : Found ls) : Walked j (.ok did) (ls ++ j)
  | unanswered {ls : List Event} {ret : ℤ} (hls : Found ls) (hret : ret ≠ 0) :
      Walked j (.error ret) (.lookup ret :: (ls ++ j))

theorem walked_here (did : ℕ) : Walked j (.ok did) j := .found found_nil

/-- One lookup more in front. -/
theorem Walked.cons {j' : List Event} {r : Except ℤ ℕ} (h : Walked (.lookup 0 :: j) r j') :
    Walked j r j' := by
  have hone : ∀ {ls : List Event}, Found ls → Found (ls ++ [.lookup 0]) := fun hls e he => by
    rcases mem_append.mp he with he | he
    · exact hls e he
    · exact mem_singleton.mp he
  cases h with
  | @found ls did hls =>
    rw [append_cons]
    exact .found (hone hls)
  | @unanswered ls ret hls hret =>
    rw [append_cons]
    exact .unanswered (hone hls) hret

theorem ensures_lookup (did : ℕ) (name : Octets) :
    Ensures (fun c : Client σ => c.journal = j) (lookup serve did name) fun reply c =>
      c.journal = .lookup reply.rc :: j := fun _ hc => congrArg _ hc

theorem ensures_setVolume (f : Volume → Volume) :
    Keeps (fun c : Client σ => c.journal = j) (setVolume f) := fun _ hc => hc

theorem walked_findComponents (fuel : ℕ) (before component : Octets) (parentDid : ℕ) :
    Ensures (fun c : Client σ => c.journal = j)
      (findComponents serve fuel before component parentDid) fun r c => Walked j r c.journal := by
  induction fuel generalizing before component parentDid j with
  | zero => exact .pure fun c hc => hc ▸ walked_here parentDid
  | succ fuel ih =>
    unfold findComponents
    split
    · exact .pure fun c hc => hc ▸ walked_here parentDid
    refine .bind (ensures_lookup _ _) fun reply => ?_
    refine .ite (fun hrc => .pure fun c hc => ?_) fun hrc => ?_
    · rw [hc]
      exact .unanswered found_nil hrc
    · rw [not_not.mp hrc]
      refine .ite (fun _ => .pure fun c hc => ?_) fun _ => ?_
      · rw [hc]
        exact (walked_here parentDid).cons
      · refine .bind (ensures_setVolume _) fun _ => ?_
        exact (ih _ _ _).mono (fun _ hc => hc) fun r c h => h.cons

/-! ## `get_dirid` -/

/-- What `get_dirid` returns and leaves, from a journal. -/
inductive Resolution (path : Octets) (j : List Event) : Dirid → List Event → Prop
  | resolved {ls : List Event} {dirid : ℕ} {basename : Octets} (hparent : HasParent path)
      (hls : Found ls) :
      Resolution path j ⟨0, some dirid, some basename⟩ (.resolved path dirid :: (ls ++ j))
  | noParent {ret : ℤ} (hparent : ¬HasParent path) (hret : ret < 0) :
      Resolution path j ⟨ret, none, none⟩ j
  | unanswered {ls : List Event} {ret : ℤ} {basename : Octets} (hparent : HasParent path)
      (hls : Found ls) (hret : ret ≠ 0) :
      Resolution path j ⟨ret, none, some basename⟩ (.lookup ret :: (ls ++ j))

/-- What the cache gives, before any lookup. -/
inductive Started (path : Octets) : Dirid ⊕ Octets × Start → Prop
  | stored {dirid : ℕ} {basename : Octets} (hparent : HasParent path) :
      Started path (.inl ⟨0, some dirid, some basename⟩)
  | noParent {ret : ℤ} (hparent : ¬HasParent path) (hret : ret < 0) :
      Started path (.inl ⟨ret, none, none⟩)
  | below {basename : Octets} {start : Start} (hparent : HasParent path) :
      Started path (.inr (basename, start))

theorem started_startDirid (path : Octets) (v : Volume) : Started path (startDirid path v).1 := by
  unfold startDirid
  split
  · next hnone =>
    refine .noParent (fun ⟨i, hi, _⟩ => ?_) (by decide)
    rw [hnone] at hi
    cases hi
  · next lastSlash hsome =>
    dsimp only
    split
    · next hlong =>
      refine .noParent (fun ⟨i, hi, hshort⟩ => ?_) (by decide)
      obtain rfl := Option.some.inj (hsome.symm.trans hi)
      exact absurd hshort (not_lt.mpr hlong)
    · next hshort =>
      have hparent : HasParent path := ⟨lastSlash, hsome, Nat.lt_of_not_le hshort⟩
      split
      · exact .stored hparent
      split
      · exact .stored hparent
      split
      · exact .below hparent
      · exact .below hparent

theorem ensures_startDirid (path : Octets) :
    Ensures (fun c : Client σ => c.journal = j) (onVolume (startDirid path)) fun r c =>
      c.journal = j ∧ Started path r := fun c hc => ⟨hc, started_startDirid path c.volume⟩

theorem resolution_storeDirid {basename : Octets} (hparent : HasParent path) (r : Except ℤ ℕ) :
    Ensures (fun c : Client σ => Walked j r c.journal) (storeDirid path basename r) fun got c =>
      Resolution path j got c.journal := by
  intro c hwalk
  generalize hj : c.journal = j' at hwalk
  cases hwalk with
  | found hls =>
    show Resolution path j _ (.resolved path _ :: c.journal)
    rw [hj]
    exact .resolved hparent hls
  | unanswered hls hret =>
    show Resolution path j _ c.journal
    rw [hj]
    exact .unanswered hparent hls hret

/-- **What `get_dirid` does**, for any server and any cache. -/
theorem resolution_getDirid (path : Octets) :
    Ensures (fun c : Client σ => c.journal = j) (getDirid serve path) fun got c =>
      Resolution path j got c.journal := by
  unfold getDirid
  refine .bind (ensures_startDirid path) ?_
  rintro (got | ⟨basename, start⟩)
  · rintro c ⟨hc, hstart⟩
    cases hstart with
    | stored hparent =>
      show Resolution path j _ (.resolved path _ :: c.journal)
      rw [hc]
      exact .resolved hparent found_nil
    | noParent hparent hret =>
      show Resolution path j _ c.journal
      rw [hc]
      exact .noParent hparent hret
  · rintro c ⟨hc, hstart⟩
    cases hstart with
    | below hparent =>
      exact Ensures.bind (walked_findComponents _ _ _ _) (resolution_storeDirid hparent) c hc

section Keeps

variable {P : Client σ → Prop}

/-- What `get_dirid` does on its way keeps `P`: lookups, entries in the journal
and whatever happens to the cache. -/
structure LookupsKeep (serve : AfpRequest → StateM σ AfpReply) (P : Client σ → Prop) : Prop where
  lookup : ∀ did name, Ensures P (Client.lookup serve did name) fun _ => P
  note : ∀ p dirid, Ensures P (Client.note (.resolved p dirid)) fun _ => P
  volume : ∀ c volume, P c → P { c with volume }

namespace LookupsKeep

variable (h : LookupsKeep serve P)

include h

theorem findComponents (fuel : ℕ) (before component : Octets) (parentDid : ℕ) :
    Keeps P (Client.findComponents serve fuel before component parentDid) := by
  induction fuel generalizing before component parentDid with
  | zero => exact .kept
  | succ fuel ih =>
    unfold Client.findComponents
    split
    · exact .kept
    refine .bind (h.lookup _ _) fun reply => .orKept ?_
    refine .orKept <| .bind (fun c hc => h.volume c _ hc) fun _ => ih _ _ _

theorem storeDirid (path basename : Octets) (r : Except ℤ ℕ) :
    Keeps P (Client.storeDirid path basename r) := by
  cases r with
  | error ret => exact .kept
  | ok dirid => exact .bind (h.note _ _) fun _ => .kept

theorem getDirid (path : Octets) : Keeps P (Client.getDirid serve path) := by
  have hstart : Keeps P (onVolume (startDirid path)) := fun c hc => h.volume c _ hc
  unfold Client.getDirid
  refine .bind hstart ?_
  rintro (got | ⟨basename, start⟩)
  · dsimp only
    split
    · exact h.storeDirid _ _ _
    · exact .kept
  · exact .bind (h.findComponents _ _ _ _) fun found => h.storeDirid _ _ _

end LookupsKeep

/-- What is kept by every entry that `get_dirid` makes, it keeps. -/
theorem keeps_getDirid {P : List Event → Prop} (hlookup : ∀ rc j, P j → P (.lookup rc :: j))
    (hresolved : ∀ p dirid j, P j → P (.resolved p dirid :: j)) (path : Octets) :
    Keeps (fun c : Client σ => P c.journal) (getDirid serve path) :=
  LookupsKeep.getDirid ⟨fun _ _ c hc => hlookup _ c.journal hc,
    fun _ _ c hc => hresolved _ _ c.journal hc, fun _ _ hc => hc⟩ path

end Keeps

/-! ## Requests on a fork -/

theorem openforkErrno_eq_zero {rc : ℤ} : openforkErrno rc = 0 ↔ rc = 0 := by
  unfold openforkErrno
  split_ifs with h
  · exact ⟨fun _ => h, fun _ => rfl⟩
  all_goals exact ⟨fun h' => absurd h' (by decide), fun h' => absurd h' h⟩

theorem truncateOpenErrno_pos (rc : ℤ) : 0 < truncateOpenErrno rc := by
  unfold truncateOpenErrno
  split_ifs
  all_goals decide

section Forks

variable {cfg : MidlevelConfig} {q : Octets} {P : Client σ → Prop}

/-- Requests that are about no path keep `P`. -/
def ForkRequestsKeep (serve : AfpRequest → StateM σ AfpReply) (P : Client σ → Prop) : Prop :=
  ∀ r : AfpRequest, r.dirids = [] → Ensures P (ask serve [] r) fun _ => P

/-- What every event keeps is kept by requests. -/
theorem forkRequestsKeep_of_cons {P : List Event → Prop} (h : ∀ e j, P j → P (e :: j)) :
    ForkRequestsKeep serve fun c : Client σ => P c.journal := fun _ _ c hc => h _ c.journal hc

theorem keeps_tryLock {forkid size tries : ℕ} {offset : ℤ}
    (h : Keeps P (ask serve [] (.byterangelock false forkid offset size))) :
    Keeps P (Client.tryLock serve forkid offset size tries) := by
  induction tries with
  | zero => exact .kept
  | succ tries ih =>
    refine .bind h fun reply => .orKept ?_
    exact .ite (fun _ => ih) fun _ => .kept

theorem keeps_flushForks {forks : List ℕ}
    (h : ∀ forkid, Keeps P (ask serve [] (.flushfork forkid))) :
    Keeps P (Client.flushForks serve forks) := by
  induction forks with
  | nil => exact .kept
  | cons forkid forks ih => exact .bind (h forkid) fun _ => ih

/-- The calls on a fork send nothing else. -/
theorem ForkRequestsKeep.calls (h : ForkRequestsKeep serve P) :
    AfpCalls.ForkCallsKeep (Client.calls serve cfg path q) P where
  lock _ _ _ := .orKept <| keeps_tryLock (h _ rfl)
  unlock _ _ _ := .orKept <| .bind (h _ rfl) fun _ => .kept
  flushDirty _ := keeps_flushForks fun _ => h _ rfl
  read _ _ _ := .bind (h _ rfl) fun _ => .kept
  write _ _ _ := .bind (h _ rfl) fun _ => .kept
  flush _ := .bind (h _ rfl) fun _ => .kept
  close _ := .bind (h _ rfl) fun _ => .kept
  setforkparms _ _ := .bind (h _ rfl) fun _ => .kept

end Forks

/-! ## `ll_open` of a resource fork -/

section OpenResource

variable {cfg : MidlevelConfig} {about : List Octets} {fp : OpenFile} {write : Bool}
variable {pre : Client σ → Prop} {ready : OpenFile → Client σ → Prop}

/-- The lookup of `ll_open` before AFP 3.0 leads to a file to open, or fails. -/
def LooksUp (serve : AfpRequest → StateM σ AfpReply) (about : List Octets) (fp : OpenFile)
    (pre : Client σ → Prop) (failed : ℤ → Client σ → Prop) (ready : OpenFile → Client σ → Prop) :
    Prop :=
  Ensures pre (ask serve about (.getfiledirparms .forkLength fp.did fp.basename)) fun reply c =>
    if AfpCalls.fileDirParmsErrno reply.rc < 0 then failed (-AfpCalls.fileDirParmsErrno reply.rc) c
    else if afpMaxAfp2Filesize - 1 ≤ (fp.parsed reply).size then failed eoverflow c
    else ready (fp.parsed reply) c

theorem ensures_lookupForOpen {failed : ℤ → Client σ → Prop}
    (hnew : 30 ≤ cfg.avNumber → ∀ c, pre c → ready fp c)
    (hold : cfg.avNumber < 30 → LooksUp serve about fp pre failed ready) :
    Ensures pre (lookupForOpen serve cfg about fp) fun r c =>
      match r with
      | .error ret => failed ret c
      | .ok fp => ready fp c := by
  refine .ite (fun hav => .pure (hnew hav)) fun hav => .bind (hold (Nat.lt_of_not_le hav)) ?_
  intro reply
  refine .ite (fun hneg => .pure fun c hc => ?_) fun hneg => ?_
  · rwa [if_pos hneg] at hc
  refine .ite (fun hbig => .pure fun c hc => ?_) fun hsmall => .pure fun c hc => ?_
  · rwa [if_neg hneg, if_pos hbig] at hc
  · rwa [if_neg hneg, if_neg hsmall] at hc

/-- The fork is refused, or it is looked up before AFP 3.0, and opened. -/
theorem ensures_llOpen {post : Except ℤ OpenFile → Client σ → Prop}
    (hrefused : write = true → cfg.volumeIsReadonly = true → ∀ c, pre c → post (.error eperm) c)
    (hnew : 30 ≤ cfg.avNumber → ∀ c, pre c → ready fp c)
    (hold : cfg.avNumber < 30 → LooksUp serve about fp pre (fun ret => post (.error ret)) ready)
    (hopen : ∀ fp, Ensures (ready fp)
      (ask serve about (.openfork fp.resource write fp.did fp.basename)) fun reply =>
        post (if openforkErrno reply.rc ≠ 0 then .error (openforkErrno reply.rc)
          else .ok { fp with forkid := reply.forkid })) :
    Ensures pre (llOpen serve cfg about fp { oRdonly with write }) post := by
  unfold llOpen
  refine .ite (fun hro => .pure ?_) fun _ => ?_
  · obtain ⟨hwrite, hro⟩ := (Bool.and_eq_true _ _).mp hro
    exact hrefused hwrite hro
  rw [show createForOpen serve about fp { oRdonly with write } = pure 0 from rfl, pure_bind,
    if_neg (not_not.mpr rfl)]
  refine .bind (ensures_lookupForOpen hnew hold) ?_
  rintro (ret | fp)
  · exact .pure fun _ hc => hc
  refine .bind (hopen fp) fun reply => .ite (fun hrc => .pure fun c hc => ?_) fun hrc => ?_
  · rwa [if_pos hrc] at hc
  rw [show truncateForOpen serve reply.forkid { oRdonly with write } = pure 0 from rfl, pure_bind,
    if_neg (not_not.mpr rfl)]
  refine .pure fun c hc => ?_
  rwa [if_neg hrc] at hc

/-- Whatever comes of it, the state is as `post` says. -/
theorem ensures_llOpenResource {did : ℕ} {name : Octets} {post : Client σ → Prop}
    (hrefused : write = true → cfg.volumeIsReadonly = true → ∀ c, pre c → post c)
    (hnew : 30 ≤ cfg.avNumber → ∀ c, pre c → ready ⟨did, name, true, 0, 0⟩ c)
    (hold : cfg.avNumber < 30 →
      LooksUp serve about ⟨did, name, true, 0, 0⟩ pre (fun _ => post) ready)
    (hopen : ∀ fp, Ensures (ready fp)
      (ask serve about (.openfork fp.resource write fp.did fp.basename)) fun _ => post) :
    Ensures pre (llOpenResource serve cfg about did name write) fun _ => post := by
  have hpost : Ensures pre (llOpen serve cfg about ⟨did, name, true, 0, 0⟩
      { oRdonly with write }) fun _ => post := ensures_llOpen hrefused hnew hold hopen
  refine .bind hpost ?_
  rintro (ret | fp)
  · exact .kept
  · exact .kept

end OpenResource

/-! ## A client and a server to start with -/

/-- A client that has sent nothing yet. -/
def fresh (volume : Volume) (server : σ) : Client σ := ⟨volume, server, []⟩

end Client

/-- A volume without restrictions, on a server of AFP 3.1. -/
def plainConfig : MidlevelConfig where
  convertPathToAfpAlloc := .ok
  invalidFilename _ := false
  volumeIsReadonly := false
  appledouble _ := 0
  noExchangeFiles := false
  extraTranslate _ := .none
  convertPathToUnix name _ := name
  avNumber := 31
  volumeName := text "volume"
  supportsUnix := true
  ignoreUnixprivs := false
  noLocking := false
  translateUidgidToClient uid gid := some (uid, gid)
  getgid := 0
  geteuid := 0
  dirtyForks _ := []
  locals := ⟨0, []⟩
  localsTo := ⟨0, []⟩

/-- A volume without extended attributes, on a server of AFP 3.1. -/
def plainVolume : MetadataVolume := ⟨0, false, .kFPUTF8Name, 31, 1024, 1024⟩

/-- A volume with extended attributes, on a server of AFP 3.2. -/
def attributeVolume : MetadataVolume :=
  ⟨kSupportsExtAttrs, false, .kFPUTF8Name, 32, 1024, 1024⟩

/-- A server that answers every request with this code. -/
def answering (rc : ℤ) : AfpRequest → StateM Unit AfpReply := fun _ => return .ofCode rc

end NetatalkClient
