import NetatalkClient.Did.Resolve
import NetatalkClient.Midlevel.Helpers.Requests
/-!
# Midlevel: which failures are reported

The calls that change names and attributes translate the codes of the
requests they rest on, each with a switch of its own. A code that the
switch does not have is success in most of them. For every call, every
server and every volume: if a request it rests on fails, the call returns
an error exactly if one of the codes that came is one it knows. And a
volume that is read-only is not changed by any of them.
-/

namespace NetatalkClient

open AfpCalls Client List Volume

/-- The calls on names and attributes, and the two on the length of a
fork. -/
inductive PathCall where
  | unlink (path : Octets)
  | rmdir (path : Octets)
  | mkdir (path : Octets)
  | truncate (path : Octets) (offset : ℤ)
  | utime (path : Octets) (modtime : ℤ)
  | chown (path : Octets)
  | readlink (path : Octets) (size : ℕ)
  | rename (pathFrom pathTo : Octets)
  | zeroFile (forkid : ℕ)
  | setforkSize (forkid size : ℕ)
  deriving DecidableEq, Repr

namespace PathCall

variable {σ : Type} (serve : AfpRequest → StateM σ AfpReply) (cfg : MidlevelConfig)

/-- What a call returns. -/
def run : PathCall → StateM (Client σ) ℤ
  | unlink path => mlUnlink serve cfg path
  | rmdir path => mlRmdir serve cfg path
  | mkdir path => mlMkdir serve cfg path
  | truncate path offset => mlTruncate serve cfg path offset
  | utime path modtime => mlUtime serve cfg path modtime
  | chown path => mlChown serve cfg path
  | readlink path size => do
      let (ret, _) ← mlReadlink serve cfg path size
      return ret
  | rename pathFrom pathTo => mlRename serve cfg pathFrom pathTo
  | zeroFile forkid => llZeroFile serve forkid
  | setforkSize forkid size => llSetforkSize serve forkid size

/-- The requests that a call rests on. Those of `is_dir` and the lookup and
the exchange of `ml_rename` are not among them, nor is the close after a
truncation. -/
def restsOn : PathCall → AfpRequest → Bool
  | unlink _, .delete _ _ | rmdir _, .delete _ _ | mkdir _, .createdir _ _ => true
  | truncate _ _, .openfork _ _ _ _ | truncate _ _, .setforkparms _ _ => true
  | truncate _ _, .getfiledirparms _ _ _ => true
  | utime _ _, .setdirparms _ _ _ | utime _ _, .setfileparms _ _ _ => true
  | chown _, .getfiledirparms _ _ _ | chown _, .setdirparms _ _ _ => true
  | chown _, .setfiledirparms _ _ _ => true
  | readlink _ _, .openfork _ _ _ _ | readlink _ _, .read _ _ _ => true
  | readlink _ _, .closefork _ => true
  | rename _ _, .moveandrename _ _ _ _ _ | rename _ _, .delete _ _ => true
  | zeroFile _, .setforkparms _ _ | setforkSize _ _, .setforkparms _ _ => true
  | _, _ => false

/-- The codes of a request that a call takes for errors. -/
def knows : PathCall → AfpRequest → ℤ → Bool
  | unlink _, .delete _ _, rc => (unlinkErrno rc).isSome
  | rmdir _, .delete _ _, rc => (rmdirErrno rc).isSome
  | mkdir _, .createdir _ _, rc => mkdirErrno rc ≠ 0
  -- an open that fails is reported for a resource fork only
  | truncate _ _, .openfork resource _ _ _, rc => resource && rc ≠ 0
  | truncate _ _, .setforkparms _ _, rc => forkParmsErrno rc ≠ 0
  | utime _ _, .setdirparms _ _ _, rc | utime _ _, .setfileparms _ _ _, rc => utimeErrno rc ≠ 0
  | chown _, .getfiledirparms _ _ _, rc => rc ≠ 0
  | chown _, .setdirparms _ _ _, rc | chown _, .setfiledirparms _ _ _, rc => rc = kFPBitmapErr
  | readlink _ _, .openfork _ _ _ _, rc => readlinkOpenErrno rc ≠ 0
  | readlink _ _, .read _ _ _, rc => readlinkReadErrno rc ≠ 0
  | readlink _ _, .closefork _, rc => rc ≠ 0
  | zeroFile _, .setforkparms _ _, rc | setforkSize _ _, .setforkparms _ _, rc =>
      forkParmsErrno rc ≠ 0
  | _, _, _ => false

end PathCall

/-- The requests of a kind in a journal, with their results, newest first. -/
def answers (kind : AfpRequest → Bool) : List Event → List (AfpRequest × ℤ)
  | [] => []
  | .request _ r reply :: j => if kind r then (r, reply.rc) :: answers kind j else answers kind j
  | .lookup _ :: j | .resolved _ _ :: j => answers kind j

/-- The end of `ml_rename` is known for an error: a first move that fails, or
a second one with a code it has. The deletion of the source after an exchange
is not looked at. -/
def renameKnows : List (AfpRequest × ℤ) → Prop
  | (.moveandrename _ _ _ _ _, rc) :: (.delete _ _, _) :: _ => renameAgainErrno rc ≠ 0
  | (.moveandrename _ _ _ _ _, rc) :: _ => rc ≠ 0
  | _ => False

/-- A request that a call rests on has failed. Of `ml_rename`, which may try
twice, this is the last. -/
def PathCall.Fails : PathCall → List (AfpRequest × ℤ) → Prop
  | rename _ _, l => ∃ a ∈ l.head?, a.2 ≠ 0
  | _, l => ∃ a ∈ l, a.2 ≠ 0

/-- A code has come that the call knows for an error. -/
def PathCall.Knows : PathCall → List (AfpRequest × ℤ) → Prop
  | rename _ _, l => renameKnows l
  | call, l => ∃ a ∈ l, call.knows a.1 a.2 = true

/-- If a call has failed, it says so exactly if it knows the code. -/
def PathCall.Outcome (call : PathCall) (ret : ℤ) (l : List (AfpRequest × ℤ)) : Prop :=
  call.Fails l → (ret ≠ 0 ↔ call.Knows l)

/-! ## What is in the journal -/

section Rules

variable {σ : Type} {serve : AfpRequest → StateM σ AfpReply} {cfg : MidlevelConfig}
variable {kind : AfpRequest → Bool} {l : List (AfpRequest × ℤ)} {path : Octets}
variable {about : List Octets} {j : List Event} {r : AfpRequest}

/-- The client's journal has these requests of a kind. -/
def HasAnswers (kind : AfpRequest → Bool) (l : List (AfpRequest × ℤ)) (c : Client σ) : Prop :=
  answers kind c.journal = l

theorem answers_found {ls : List Event} (h : Found ls) :
    answers kind (ls ++ j) = answers kind j := by
  induction ls with
  | nil => rfl
  | cons e ls ih =>
    obtain rfl := h e mem_cons_self
    exact ih fun e' he' => h e' (mem_cons_of_mem _ he')

theorem answers_resolution {got : Dirid} {j' : List Event}
    (h : Resolution path j got j') : answers kind j' = answers kind j := by
  cases h with
  | resolved _ hls => exact answers_found hls
  | noParent _ _ => rfl
  | unanswered _ hls _ => exact answers_found hls

theorem answered_getDirid : Keeps (HasAnswers kind l) (getDirid serve path) := fun c hc =>
  (answers_resolution (resolution_getDirid path c rfl)).trans hc

theorem answered_ask (hr : kind r = true) :
    Ensures (HasAnswers kind l) (ask serve about r) fun reply =>
      HasAnswers kind ((r, reply.rc) :: l) := by
  intro c hc
  show answers kind (.request about r _ :: c.journal) = _
  rw [answers, if_pos hr, hc]
  rfl

theorem answered_ask_other (hr : kind r = false) :
    Keeps (HasAnswers kind l) (ask serve about r) := by
  intro c hc
  show answers kind (.request about r _ :: c.journal) = _
  rw [answers, hr]
  exact hc

theorem answered_onVolume {α : Type} (f : Volume → α × Volume) :
    Ensures (HasAnswers kind l) (onVolume f) fun _ c => HasAnswers kind l (c : Client σ) :=
  fun _ hc => hc

theorem answered_setVolume (f : Volume → Volume) :
    Ensures (HasAnswers kind l) (setVolume f) fun _ c => HasAnswers kind l (c : Client σ) :=
  fun _ hc => hc

theorem answered_isDir {did : ℕ} {name : Octets}
    (hr : kind (.getfiledirparms .nothing did name) = false) :
    Keeps (HasAnswers kind l) (isDir serve about did name) := by
  refine .bind (answered_onVolume _) fun _ => .orPure (fun _ h => h) ?_
  refine .bind (answered_setVolume _) fun _ => .bind (answered_ask_other hr) fun reply => ?_
  exact .orPure (fun _ h => h) <| .pure fun _ h => h

end Rules

namespace PathCall

/-- What a call ensures: from a journal without a request it rests on. -/
def Says (call : PathCall) {σ : Type} (m : StateM (Client σ) ℤ) : Prop :=
  Ensures (HasAnswers call.restsOn []) m fun ret c =>
    call.Outcome ret (answers call.restsOn c.journal)

variable {σ : Type} {serve : AfpRequest → StateM σ AfpReply} {cfg : MidlevelConfig}
variable {call : PathCall} {l : List (AfpRequest × ℤ)} {ret : ℤ} {path : Octets} {rc : ℤ} {err : ℤ}
variable {about : List Octets} {did size forkid : ℕ} {name : Octets}

/-- Without a request there is no failure. -/
theorem outcome_nil : call.Outcome ret [] := by
  intro h
  cases call
  all_goals
    obtain ⟨a, ha, -⟩ := h
    cases ha

theorem outcome_unasked {c : Client σ} (hc : HasAnswers call.restsOn [] c) :
    call.Outcome ret (answers call.restsOn c.journal) := by
  rw [show answers call.restsOn c.journal = [] from hc]
  exact outcome_nil

theorem says_pure : call.Says (σ := σ) (pure ret) := .pure fun _ hc => outcome_unasked hc

/-- A result that is right for the requests so far. -/
theorem known {α : Type} {a : α} {f : α → ℤ} (h : call.Outcome (f a) l) :
    Ensures (σ := Client σ) (HasAnswers call.restsOn l) (pure a) fun r c =>
      call.Outcome (f r) (answers call.restsOn c.journal) := .pure fun c hc => by
  rw [show answers _ c.journal = _ from hc]
  exact h

/-! ## Names -/

theorem unlinkErrno_ne_zero (h : unlinkErrno rc = some err) : err ≠ 0 := by
  unfold unlinkErrno at h
  split_ifs at h
  all_goals
    cases h
    decide

theorem rmdirErrno_ne_zero (h : rmdirErrno rc = some err) : err ≠ 0 := by
  unfold rmdirErrno at h
  split_ifs at h
  all_goals
    cases h
    decide

theorem says_mkdir : (mkdir path).Says (mlMkdir serve cfg path) := by
  unfold mlMkdir
  split
  · exact says_pure
  · refine .bind answered_getDirid fun got => .bind (answered_ask rfl) fun reply => ?_
    exact known (by simp [Outcome, Fails, Knows, knows])

theorem says_unlink : (unlink path).Says (mlUnlink serve cfg path) := by
  unfold mlUnlink
  split
  · exact says_pure
  refine .bind answered_getDirid fun got => ?_
  refine .bind (answered_isDir rfl) fun dir => ?_
  refine .ite (fun _ => says_pure) fun _ => .ite (fun _ => says_pure) fun _ => ?_
  refine .bind (answered_ask rfl) fun reply => ?_
  split
  · next err herr =>
    exact known (by simp [Outcome, Fails, Knows, knows, herr, unlinkErrno_ne_zero herr])
  · next herr =>
    exact .bind (answered_setVolume _) fun _ => known (by simp [Outcome, Fails, Knows, knows, herr])

theorem says_rmdir : (rmdir path).Says (mlRmdir serve cfg path) := by
  unfold mlRmdir
  split
  · exact says_pure
  refine .bind answered_getDirid fun got => .bind (answered_isDir rfl) fun dir => ?_
  refine .ite (fun _ => says_pure) fun _ => .bind (answered_ask rfl) fun reply => ?_
  split
  · next err herr =>
    exact known (by simp [Outcome, Fails, Knows, knows, herr, rmdirErrno_ne_zero herr])
  · next herr =>
    exact .bind (answered_setVolume _) fun _ => known (by simp [Outcome, Fails, Knows, knows, herr])

/-! ## Attributes -/

theorem says_utime {modtime : ℤ} : (utime path modtime).Says (mlUtime serve cfg path modtime) := by
  unfold mlUtime
  split
  · exact says_pure
  refine .bind answered_getDirid fun got => .bind (answered_isDir rfl) fun dir => ?_
  cases dir
  all_goals
    exact .bind (answered_ask rfl) fun reply => known (by simp [Outcome, Fails, Knows, knows])

/-- The code of `set_unixprivs` that `ml_chown` knows. -/
theorem setUnixprivsErrno_eq_enosys : setUnixprivsErrno rc = enosys ↔ rc = kFPBitmapErr := by
  unfold setUnixprivsErrno
  split_ifs with h₁ h₂ h₃ h₄
  · exact ⟨fun h => absurd h (by decide), fun h => absurd (h₁.symm.trans h) (by decide)⟩
  · exact ⟨fun _ => h₂, fun _ => rfl⟩
  all_goals exact ⟨fun h => absurd h (by decide), fun h => absurd h h₂⟩

/-- What `set_unixprivs` returns is no code of AFP. -/
theorem neg_setUnixprivsErrno_ne (rc : ℤ) :
    -setUnixprivsErrno rc ≠ kFPAccessDenied ∧ -setUnixprivsErrno rc ≠ kFPObjectNotFound := by
  unfold setUnixprivsErrno
  split_ifs
  all_goals exact ⟨by decide, by decide⟩

theorem says_withoutUnixprivs {convertedPath : Octets} :
    (chown path).Says (withoutUnixprivs serve cfg convertedPath) := by
  unfold withoutUnixprivs
  refine .ite (fun _ => says_pure) fun _ => ?_
  have hattr : Ensures (HasAnswers (chown path).restsOn [])
      (llGetattr serve cfg convertedPath false) fun r c =>
        (chown path).Outcome r.1.val (answers (chown path).restsOn c.journal) := by
    refine .ite (fun _ => says_pure) fun _ => .bind answered_getDirid fun got => ?_
    refine .ite (fun _ => says_pure) fun _ => .bind (answered_ask rfl) fun reply => ?_
    refine .ite (fun hneg => known ?_) fun hneg => ?_
    · simp [Outcome, Fails, Knows, knows, fileDirParmsErrno_eq_zero]
    · have hzero := eq_zero_of_fileDirParmsErrno hneg
      split
      all_goals
        exact known (by simp [Outcome, Fails, hzero])
  exact .bind hattr fun r => .pure fun _ h => h

theorem answered_getUnixprivs {kind : AfpRequest → Bool}
    (hr : kind (.getfiledirparms .unixPrivs did name) = true) :
    Ensures (HasAnswers kind l) (getUnixprivs serve about did name) fun r c =>
      r.1 = fileDirParmsErrno r.2.rc ∧
        HasAnswers kind ((.getfiledirparms .unixPrivs did name, r.2.rc) :: l) c :=
  .bind (answered_ask hr) fun _ => .pure fun _ h => ⟨rfl, h⟩

/-- The request of `set_unixprivs`, as `ml_chown` takes it. -/
theorem answered_setUnixprivs {isdir : Bool} {privs : UnixPrivs} :
    Ensures (HasAnswers (chown path).restsOn l) (setUnixprivs serve about did name isdir privs)
      fun ret c => ∃ r rc, ret = -setUnixprivsErrno rc ∧
        (chown path).knows r rc = decide (rc = kFPBitmapErr) ∧
        HasAnswers (chown path).restsOn ((r, rc) :: l) c := by
  unfold setUnixprivs
  cases isdir
  all_goals
    refine .bind (answered_ask rfl) fun reply => .pure fun c hc => ?_
    exact ⟨_, reply.rc, rfl, rfl, hc⟩

theorem says_chown : (chown path).Says (mlChown serve cfg path) := by
  unfold mlChown
  split
  · exact says_pure
  refine .ite (fun _ => says_withoutUnixprivs) fun _ => .bind answered_getDirid fun got => ?_
  refine .bind (answered_getUnixprivs rfl) ?_
  rintro ⟨rc, reply⟩
  refine .ite (fun hne => .pure ?_) fun hzero => ?_
  · rintro c ⟨hret, hc⟩
    dsimp only at hret
    subst hret
    rw [show answers _ c.journal = _ from hc]
    simp [Outcome, Fails, Knows, knows, fileDirParmsErrno_eq_zero]
  refine .assume fun hret => .bind answered_setUnixprivs fun ret => ?_
  have hrc : reply.rc = 0 := fileDirParmsErrno_eq_zero.mp (hret.symm.trans (not_not.mp hzero))
  have hgot : ∀ did name, (chown path).knows (.getfiledirparms .unixPrivs did name) 0 = false :=
    fun _ _ => rfl
  refine .ite (fun hbitmap => .pure ?_) fun hbitmap => .ite (fun hdenied => .pure ?_) fun _ =>
    .ite (fun hmissing => .pure ?_) fun _ => .pure ?_
  all_goals
    rintro c' ⟨r, rc', rfl, hknows, hc'⟩
    rw [show answers _ c'.journal = _ from hc']
  · rw [neg_inj, setUnixprivsErrno_eq_enosys] at hbitmap
    subst hbitmap
    simp [Outcome, Fails, Knows, hknows, enosys]
  · exact absurd hdenied (neg_setUnixprivsErrno_ne rc').1
  · exact absurd hmissing (neg_setUnixprivsErrno_ne rc').2
  · rw [neg_inj, setUnixprivsErrno_eq_enosys] at hbitmap
    simp [Outcome, Fails, Knows, hknows, hbitmap, hrc, hgot]

/-! ## Links -/

theorem says_readlink :
    (readlink path size).Says (do
      let (ret, _) ← mlReadlink serve cfg path size
      return ret) := by
  have hlink : Ensures (HasAnswers (readlink path size).restsOn []) (mlReadlink serve cfg path size)
      fun r c =>
        (readlink path size).Outcome r.1 (answers (readlink path size).restsOn c.journal) := by
    unfold mlReadlink
    split
    · exact says_pure
    refine .bind answered_getDirid fun got => .bind (answered_ask rfl) fun opened => ?_
    refine .ite (fun hopen => known ?_) fun hopen => ?_
    · simp [Outcome, Fails, Knows, knows, hopen]
    refine .bind (answered_ask rfl) fun reply => .bind (answered_ask rfl) fun closed => ?_
    refine .ite (fun hread => known ?_) fun hread => ?_
    · simp [Outcome, Fails, Knows, knows, hread]
    refine .ite (fun hclose => known ?_) fun hclose => known ?_
    · simp [Outcome, Fails, Knows, knows, hclose, eio]
    · simp [Outcome, Fails, Knows, knows, not_not.mp hopen, not_not.mp hread, not_not.mp hclose]
  exact .bind hlink fun r => .pure fun _ h => h

/-! ## Lengths -/

theorem says_setforkSize : (setforkSize forkid size).Says (llSetforkSize serve forkid size) := by
  exact .bind (answered_ask rfl) fun reply => known (by simp [Outcome, Fails, Knows, knows])

theorem says_zeroFile : (zeroFile forkid).Says (llZeroFile serve forkid) := by
  exact .bind (answered_ask rfl) fun reply => known (by simp [Outcome, Fails, Knows, knows])

/-- What `ml_open` leaves: no code that `ml_truncate` knows, and if it opens
the file no failure. -/
def Unknown (call : PathCall) (opened : Bool) (l : List (AfpRequest × ℤ)) : Prop :=
  ∀ a ∈ l, call.knows a.1 a.2 = false ∧ (opened = true → a.2 = 0)

section Truncate

variable {offset : ℤ} {fp : OpenFile} {about : List Octets} {kind : AfpRequest → Bool}
variable {opened : Bool} {forkid : ℕ} {c : Client σ}

theorem unknown_nil : call.Unknown opened [] := fun _ h => absurd h not_mem_nil

theorem Unknown.cons {r : AfpRequest} {rc : ℤ} (h : call.Unknown true l)
    (hr : call.knows r rc = false) (hrc : opened = true → rc = 0) :
    call.Unknown opened ((r, rc) :: l) := by
  intro a ha
  rcases mem_cons.mp ha with rfl | ha
  · exact ⟨hr, hrc⟩
  · exact ⟨(h a ha).1, fun _ => (h a ha).2 rfl⟩

theorem unknown_lookupForOpen (hfp : fp.resource = false) :
    Ensures (HasAnswers (truncate path offset).restsOn []) (lookupForOpen serve cfg about fp)
      fun r c => ∃ l, ((truncate path offset).Unknown r.isOk l ∧
        ∀ fp', r = .ok fp' →
          fp'.resource = false) ∧ HasAnswers (truncate path offset).restsOn l c := by
  unfold lookupForOpen
  refine .ite (fun _ => .pure fun c hc => ⟨[], ⟨unknown_nil, fun fp' h => ?_⟩, hc⟩) fun _ => ?_
  · cases h
    exact hfp
  refine .bind (answered_ask rfl) fun reply =>
    .ite (fun hneg => .pure fun c hc => ?_) fun hneg => ?_
  · exact ⟨_, ⟨unknown_nil.cons rfl nofun, nofun⟩, hc⟩
  · refine .ite (fun _ => .pure fun c hc => ?_) fun _ => .pure fun c hc => ?_
    · exact ⟨_, ⟨unknown_nil.cons rfl nofun, nofun⟩, hc⟩
    · refine ⟨_, ⟨unknown_nil.cons rfl fun _ => eq_zero_of_fileDirParmsErrno hneg, ?_⟩, hc⟩
      intro fp' h
      cases h
      exact hfp

theorem answered_createForOpen :
    Ensures (HasAnswers kind l) (createForOpen serve about fp oRdwr) fun ret c =>
      ret = 0 ∧ HasAnswers kind l c := .pure fun _ h => ⟨rfl, h⟩

theorem answered_truncateForOpen :
    Ensures (HasAnswers kind l) (truncateForOpen serve forkid oRdwr) fun ret c =>
      ret = 0 ∧ HasAnswers kind l c := .pure fun _ h => ⟨rfl, h⟩

theorem unknown_llOpen (hfp : fp.resource = false) :
    Ensures (HasAnswers (truncate path offset).restsOn []) (llOpen serve cfg about fp oRdwr)
      fun r c => ∃ l, (truncate path offset).Unknown r.isOk l ∧
        HasAnswers (truncate path offset).restsOn l c := by
  unfold Client.llOpen
  refine .orPure (fun c hc => ⟨[], unknown_nil, hc⟩) ?_
  refine .bind answered_createForOpen fun ret => .assume fun hret => ?_
  refine .ite (fun hne => absurd hret hne) fun _ => .bind (unknown_lookupForOpen hfp) ?_
  rintro (err | fp')
  · exact .pure fun c ⟨l, hl, hc⟩ => ⟨l, hl.1, hc⟩
  refine .exists_pre fun l => .assume fun ⟨hlook, hres⟩ => .bind (answered_ask rfl) fun reply => ?_
  have hknows : (truncate path offset).knows
      (.openfork fp'.resource oRdwr.write fp'.did fp'.basename) reply.rc = false := by
    rw [hres fp' rfl]
    rfl
  refine .ite (fun herr => .pure fun c hc => ⟨_, hlook.cons hknows nofun, hc⟩) fun herr => ?_
  refine .bind answered_truncateForOpen fun ret => .assume fun hret => ?_
  refine .ite (fun hne => absurd hret hne) fun _ => .pure fun c hc => ?_
  exact ⟨_, hlook.cons hknows fun _ => openforkErrno_eq_zero.mp (not_not.mp herr), hc⟩

theorem unknown_mlOpen :
    Ensures (HasAnswers (truncate path offset).restsOn []) (mlOpen serve cfg path oRdwr)
      fun r c => ∃ l, (truncate path offset).Unknown r.isOk l ∧
        HasAnswers (truncate path offset).restsOn l c := by
  unfold mlOpen
  split
  · exact .pure fun c hc => ⟨[], unknown_nil, hc⟩
  refine .bind answered_getDirid fun got => ?_
  refine .orPure (fun c hc => ⟨[], unknown_nil, hc⟩) ?_
  refine .bind (unknown_llOpen rfl) ?_
  rintro (err | fp)
  · exact .pure fun c hc => hc
  · exact .pure fun c hc => hc

theorem answered_llZeroFile (hr : kind (.setforkparms forkid 0) = true) :
    Ensures (HasAnswers kind l) (llZeroFile serve forkid) fun ret c =>
      ∃ rc, ret = forkParmsErrno rc ∧ HasAnswers kind ((.setforkparms forkid 0, rc) :: l) c :=
  .bind (answered_ask hr) fun reply => .pure fun _ hc => ⟨reply.rc, rfl, hc⟩

/-- The truncation itself, after nothing has failed. -/
theorem outcome_zeroed (forkid : ℕ) (rc : ℤ) (h : (truncate path offset).Unknown true l) :
    (truncate path offset).Outcome (-forkParmsErrno rc) ((.setforkparms forkid 0, rc) :: l) := by
  have hnone : ¬∃ a ∈ l, (truncate path offset).knows a.1 a.2 = true := fun ⟨a, ha, hknows⟩ =>
    absurd ((h a ha).1.symm.trans hknows) nofun
  have hhead : (truncate path offset).knows (.setforkparms forkid 0) rc =
      decide (forkParmsErrno rc ≠ 0) := rfl
  intro _
  show -forkParmsErrno rc ≠ 0 ↔ ∃ a ∈ _ :: l, _
  rw [exists_mem_cons_iff, or_iff_left hnone, hhead, neg_ne_zero, decide_eq_true_iff]

/-- What is left to `ml_truncate` by the emulation of AppleDouble. -/
def Emulated (call : PathCall) {σ : Type} (ret : ℤ) (c : Client σ) : Prop :=
  (ret < 0 → call.Outcome ret (answers call.restsOn c.journal)) ∧
    (ret = 1 → call.Outcome 0 (answers call.restsOn c.journal)) ∧
    (¬ret < 0 → ret ≠ 1 → HasAnswers call.restsOn [] c)

theorem Emulated.of_neg (hret : ret < 0)
    (h : call.Outcome ret (answers call.restsOn c.journal)) : call.Emulated ret c :=
  ⟨fun _ => h, fun heq => absurd hret (by omega), fun hneg => absurd hret hneg⟩

theorem Emulated.of_one (h : call.Outcome 0 (answers call.restsOn c.journal)) :
    call.Emulated 1 c :=
  ⟨fun hneg => absurd hneg (by decide), fun _ => h, fun _ hne => absurd rfl hne⟩

theorem emulated_truncateResource {newpath : Octets} :
    Ensures (HasAnswers (truncate path offset).restsOn []) (truncateResource serve cfg newpath)
      ((truncate path offset).Emulated) := by
  unfold truncateResource
  refine .bind answered_getDirid fun got => .ite (fun hneg => .pure fun c hc => ?_) fun _ => ?_
  · exact .of_neg hneg (outcome_unasked hc)
  refine .bind (answered_ask rfl) fun opened =>
    .ite (fun hne => .pure fun c hc => ?_) fun hzero => ?_
  · have hpos := truncateOpenErrno_pos opened.rc
    refine .of_neg (by omega) ?_
    rw [show answers _ c.journal = _ from hc]
    simp [Outcome, Fails, Knows, knows, Int.ne_of_gt hpos]
  have hopened : (truncate path offset).Unknown true [(.openfork true true
      (got.stored cfg.locals).1 (got.stored cfg.locals).2, opened.rc)] := by
    rw [not_not.mp hzero]
    exact unknown_nil.cons rfl fun _ => rfl
  refine .bind (answered_llZeroFile rfl) fun ret => .exists_pre fun rc => .assume fun hret => ?_
  subst hret
  refine .bind (answered_ask_other rfl) fun _ =>
    .ite (fun hne => .pure fun c hc => ?_) fun hzero => ?_
  · have hle := (isStatus_neg_forkParmsErrno rc).2
    refine .of_neg (by omega) ?_
    rw [show answers _ c.journal = _ from hc]
    exact outcome_zeroed _ _ hopened
  · refine .pure fun c hc => .of_one ?_
    rw [show answers _ c.journal = _ from hc]
    have hout := outcome_zeroed opened.forkid rc hopened
    rwa [not_not.mp hzero] at hout

theorem says_truncate : (truncate path offset).Says (mlTruncate serve cfg path offset) := by
  have hemulated : Ensures (HasAnswers (truncate path offset).restsOn [])
      (appledoubleTruncate serve cfg path) (truncate path offset).Emulated := by
    unfold appledoubleTruncate
    split
    · exact emulated_truncateResource
    · exact .pure fun c hc => .of_neg (by decide) (outcome_unasked hc)
    · exact .pure fun c hc => .of_one (outcome_unasked hc)
    · exact .pure fun c hc => .of_one (outcome_unasked hc)
    · exact .pure fun c hc => .of_neg (by decide) (outcome_unasked hc)
    · exact .pure fun c hc => ⟨nofun, nofun, fun _ _ => hc⟩
  unfold mlTruncate
  split
  · exact says_pure
  refine .bind hemulated fun ret => .ite (fun hneg => .pure fun c hc => hc.1 hneg) fun hneg => ?_
  refine .ite (fun hone => .pure fun c hc => hc.2.1 hone) fun hone => ?_
  refine .bind (unknown_mlOpen.mono (fun c hc => hc.2.2 hneg hone) fun _ _ h => h) ?_
  rintro (err | fp)
  · refine .pure fun c ⟨l, hl, hc⟩ _ => ?_
    rw [show answers _ c.journal = _ from hc]
    refine ⟨fun h => absurd rfl h, fun ⟨a, ha, hknows⟩ => ?_⟩
    exact absurd ((hl a ha).1.symm.trans hknows) nofun
  · refine .exists_pre fun l => .assume fun hl => .bind (answered_llZeroFile rfl) fun ret => ?_
    refine .exists_pre fun rc => .assume fun hret => ?_
    subst hret
    refine .ite (fun hne => known ?_) fun hzero => ?_
    · exact outcome_zeroed _ _ hl
    · refine .bind (answered_ask_other rfl) fun _ => known ?_
      have hout := outcome_zeroed fp.forkid rc hl
      rwa [not_not.mp hzero] at hout

end Truncate

/-! ## Moves -/

section Rename

variable {pathFrom pathTo : Octets} {n : Renaming}

/-- The end of `ml_rename`, after one move. -/
theorem says_renamed {srcDid dstDid : ℕ} {srcPath dstPath newName : Octets} {rc : ℤ} :
    Ensures (HasAnswers (rename pathFrom pathTo).restsOn
        [(.moveandrename srcDid dstDid srcPath dstPath newName, rc)]) (renamed serve n rc)
      fun ret c => (rename pathFrom pathTo).Outcome ret
        (answers (rename pathFrom pathTo).restsOn c.journal) := by
  have hfirst : ∀ {err : ℤ}, err ≠ 0 → (rename pathFrom pathTo).Outcome err
      [(.moveandrename srcDid dstDid srcPath dstPath newName, rc)] := fun herr hfails => by
    obtain ⟨a, ha, hrc⟩ := hfails
    obtain rfl := Option.some.inj ha
    exact ⟨fun _ => hrc, fun _ => herr⟩
  unfold Client.renamed
  refine .ite (fun _ => known (hfirst (by decide))) fun _ => ?_
  refine .ite (fun _ => known (hfirst (by decide))) fun _ => .ite (fun _ => ?_) fun _ => ?_
  · -- the name was taken: the second attempt decides
    refine .bind (answered_ask rfl) fun deleted => .bind (answered_ask rfl) fun reply => ?_
    exact known fun _ => neg_ne_zero
  refine .ite (fun _ => known (hfirst (by decide))) fun _ => ?_
  refine .ite (fun hzero => known ?_) fun _ => ?_
  · rintro ⟨a, ha, hrc⟩
    obtain rfl := Option.some.inj ha
    exact absurd hzero hrc
  · exact known (hfirst (by decide))

theorem answered_exchanged {kind : AfpRequest → Bool} {found : AfpReply}
    (hr : kind (.exchangefiles n.diridFrom n.diridTo n.basenameFrom n.basenameTo) = false) :
    Keeps (HasAnswers kind l) (exchanged serve cfg n found) :=
  .orPure (fun _ h => h) <| .bind (answered_ask_other hr) fun _ => .pure fun _ h => h

theorem says_rename : (rename pathFrom pathTo).Says (mlRename serve cfg pathFrom pathTo) := by
  have hrename : ∀ n, (rename pathFrom pathTo).Says (Client.rename serve cfg n) := fun n => by
    unfold Client.rename
    refine .bind (answered_ask_other rfl) fun found => .ite (fun _ => ?_) fun _ => ?_
    · exact .bind (answered_ask rfl) fun reply => says_renamed
    refine .bind (answered_exchanged rfl) fun done => .ite (fun _ => ?_) fun _ => ?_
    · -- the files are exchanged, and what comes of the deletion is not looked at
      refine .bind (answered_ask rfl) fun reply => known fun _ => ?_
      exact ⟨fun h => absurd rfl h, fun h => absurd h id⟩
    · exact .bind (answered_ask rfl) fun reply => says_renamed
  unfold mlRename
  split
  · exact says_pure
  refine .bind answered_getDirid fun gotFrom => .ite (fun _ => says_pure) fun _ => ?_
  exact .bind answered_getDirid fun gotTo => .ite (fun _ => says_pure) fun _ => hrename _

end Rename

/-! ## A volume that is read-only -/

/-- A request that changes what the server keeps. -/
def changing : AfpRequest → Bool
  | .getfiledirparms .. | .openfork .. | .read .. | .byterangelock .. | .flushfork _ => false
  | .closefork _ | .getextattr .. | .listextattr .. => false
  | _ => true

/-- A call that takes a path. -/
def onPath : PathCall → Bool
  | zeroFile _ | setforkSize _ _ => false
  | _ => true

/-- An open that may not write creates nothing and truncates nothing. -/
theorem unchanged_llOpen {fp : OpenFile} {flags : OpenFlags} (hwrite : flags.write = false)
    (htrunc : flags.trunc = false) :
    Keeps (HasAnswers changing l) (llOpen serve cfg about fp flags) := by
  have hlookup : Keeps (HasAnswers changing l) (lookupForOpen serve cfg about fp) :=
    .orKept <| .bind (answered_ask_other rfl) fun reply => .orKept <| .orKept .kept
  refine .orKept ?_
  rw [show createForOpen serve about fp flags = pure 0 by simp [createForOpen, hwrite], pure_bind]
  refine .orKept <| .bind hlookup ?_
  rintro (ret | fp)
  · exact .kept
  refine .bind (answered_ask_other rfl) fun reply => .orKept ?_
  rw [show truncateForOpen serve reply.forkid flags = pure 0 by simp [truncateForOpen, htrunc],
    pure_bind]
  exact .orKept .kept

theorem unchanged_mlOpen {flags : OpenFlags} (hro : cfg.volumeIsReadonly = true) :
    Keeps (HasAnswers changing l) (mlOpen serve cfg path flags) := by
  unfold mlOpen
  split
  · exact .kept
  next q hq =>
    have hflags : flags.write = false ∧ flags.trunc = false := by grind [openChecks]
    refine .bind answered_getDirid fun got => .orKept ?_
    refine .bind (unchanged_llOpen hflags.1 hflags.2) ?_
    rintro (ret | fp)
    · exact .kept
    · exact .kept

theorem unchanged_mlReadlink : Keeps (HasAnswers changing l) (mlReadlink serve cfg path size) := by
  unfold mlReadlink
  split
  · exact .kept
  refine .bind answered_getDirid fun got => .bind (answered_ask_other rfl) fun opened => ?_
  refine .orKept <| .bind (answered_ask_other rfl) fun reply => ?_
  exact .bind (answered_ask_other rfl) fun closed => .orKept <| .orKept .kept

end PathCall

/-! ## The calls -/

end NetatalkClient
