import NetatalkClient.Did.Resolve
import NetatalkClient.Midlevel.Helpers.Requests
import NetatalkClient.Midlevel.Model.OpenForks
/-!
# What a failed open leaves behind

`ll_open` truncates a fork after it has opened it and put it into the list
of open forks, and has nothing to take these back with. Neither have its
callers, nor has `ml_truncate` for the fork that it truncates itself. So an
open that fails leaves a fork open exactly if that truncation is what
failed (`failed_open_leaves_nothing_iff`).
-/

namespace NetatalkClient

open Client Volume List

/-! ## Forks in a journal -/

namespace Event

/-- The fork that an event opens. -/
def opens : Event → Option ℕ
  | .request _ (.openfork _ _ _ _) reply => if reply.rc = 0 then some reply.forkid else none
  | _ => none

/-- The fork that an event sends a close to. -/
def closes : Event → Option ℕ
  | .request _ (.closefork forkid) _ => some forkid
  | _ => none

/-- A fork is not given the length that was asked for, and the code says so. -/
def RefusesLength : Event → Prop
  | .request _ (.setforkparms _ _) reply => AfpCalls.forkParmsErrno reply.rc ≠ 0
  | _ => False

end Event

/-- Every fork that is opened is sent a close later, or is one of these. -/
def ClosedLater : List ℕ → List Event → Prop
  | _, [] => True
  | closed, e :: j =>
      (∀ forkid, e.opens = some forkid → forkid ∈ closed) ∧
        ClosedLater (e.closes.toList ++ closed) j

/-- Every fork that is opened is sent a close. -/
def AllClosed (j : List Event) : Prop := ClosedLater [] j

/-- Some fork is not given its length. -/
def LengthRefused (j : List Event) : Prop := ∃ e ∈ j, e.RefusesLength

/-- No fork is opened, and none is refused its length. -/
def Quiet (j : List Event) : Prop := ∀ e ∈ j, e.opens = none ∧ ¬e.RefusesLength

variable {e : Event} {j : List Event}

theorem quiet_nil : Quiet [] := fun _ h => absurd h not_mem_nil

theorem Quiet.cons (hopens : e.opens = none) (hrefuses : ¬e.RefusesLength) (h : Quiet j) :
    Quiet (e :: j) := by
  intro e' he'
  rcases mem_cons.mp he' with rfl | he'
  · exact ⟨hopens, hrefuses⟩
  · exact h e' he'

theorem Quiet.closedLater (h : Quiet j) (closed : List ℕ) : ClosedLater closed j := by
  induction j generalizing closed with
  | nil => trivial
  | cons e j ih =>
    refine ⟨fun forkid hopens => ?_, ih (fun e' he' => h e' (mem_cons_of_mem e he')) _⟩
    rw [(h e mem_cons_self).1] at hopens
    cases hopens

theorem Quiet.not_lengthRefused (h : Quiet j) : ¬LengthRefused j := fun ⟨e, he, hrefuses⟩ =>
  (h e he).2 hrefuses

theorem not_lengthRefused_cons (he : ¬e.RefusesLength) (h : ¬LengthRefused j) :
    ¬LengthRefused (e :: j) := by
  rintro ⟨e', he', hrefuses⟩
  rcases mem_cons.mp he' with rfl | he'
  · exact he hrefuses
  · exact h ⟨e', he', hrefuses⟩

/-! ## What is sent before a fork is open -/

namespace Client

variable {σ : Type} {serve : AfpRequest → StateM σ AfpReply} {cfg : MidlevelConfig}
variable {about : List Octets} {fp : OpenFile} {forkid : ℕ} {ret : ℤ} {flags : OpenFlags}
variable {reply : AfpReply}

theorem quiet_getDirid (path : Octets) :
    Keeps (fun c : Client σ => Quiet c.journal) (getDirid serve path) :=
  keeps_getDirid (fun _ _ => Quiet.cons rfl id) (fun _ _ _ => Quiet.cons rfl id) path

theorem quiet_ask {r : AfpRequest} (hopens : ∀ reply, (Event.request about r reply).opens = none)
    (hrefuses : ∀ reply, ¬(Event.request about r reply).RefusesLength) :
    Keeps (fun c : Client σ => Quiet c.journal) (ask serve about r) :=
  fun _ hc => hc.cons (hopens _) (hrefuses _)

theorem quiet_createForOpen :
    Keeps (fun c : Client σ => Quiet c.journal) (createForOpen serve about fp flags) := by
  refine .orKept <| .bind (quiet_ask (fun _ => rfl) fun _ => id) fun reply => ?_
  exact .orKept <| .orKept <| .kept

theorem quiet_lookupForOpen :
    Keeps (fun c : Client σ => Quiet c.journal) (lookupForOpen serve cfg about fp) := by
  refine .orKept <| .bind (quiet_ask (fun _ => rfl) fun _ => id) fun reply => ?_
  exact .orKept <| .orKept <| .kept

/-- A fork has been opened, and nothing was sent after that. -/
inductive Opening (forkid : ℕ) : List Event → Prop
  | intro {about : List Octets} {resource write : Bool} {did : ℕ} {name : Octets}
      {reply : AfpReply} {j : List Event} (hrc : reply.rc = 0) (hforkid : reply.forkid = forkid)
      (hquiet : Quiet j) :
      Opening forkid (.request about (.openfork resource write did name) reply :: j)

theorem Opening.not_lengthRefused (h : Opening forkid j) : ¬LengthRefused j := by
  obtain ⟨-, -, hquiet⟩ := h
  exact not_lengthRefused_cons id hquiet.not_lengthRefused

/-- A fork that is open is not closed by what is sent to set its length. -/
theorem Opening.not_allClosed {size : ℕ} (h : Opening forkid j) :
    ¬AllClosed (.request about (.setforkparms forkid size) reply :: j) := by
  obtain ⟨hrc, hforkid, -⟩ := h
  rintro ⟨-, hclosed, -⟩
  exact absurd (hclosed forkid (by rw [Event.opens, if_pos hrc, hforkid])) not_mem_nil

theorem quiet_or_opening {resource write : Bool} {did : ℕ} {name : Octets} :
    Ensures (fun c : Client σ => Quiet c.journal)
      (ask serve about (.openfork resource write did name)) fun reply c =>
        if reply.rc = 0 then Opening reply.forkid c.journal else Quiet c.journal := by
  intro c hc
  split
  · next hrc => exact .intro hrc rfl hc
  · next hrc => exact hc.cons (if_neg hrc) id

theorem quiet_openFork :
    Ensures (fun c : Client σ => Quiet c.journal)
      (ForkClient.openFork serve cfg about fp flags) fun r c =>
        match r with
        | .error _ => Quiet c.journal
        | .ok fp => Opening fp.forkid c.journal := by
  unfold ForkClient.openFork
  refine .orPure (fun _ hc => hc) <| .bind quiet_createForOpen fun ret => ?_
  refine .orPure (fun _ hc => hc) <| .bind quiet_lookupForOpen ?_
  rintro (ret | fp)
  · exact .kept
  refine .bind quiet_or_opening fun reply => .ite (fun herr => .pure ?_) fun herr => .pure ?_
  · intro c hc
    rwa [if_neg fun hrc => herr (openforkErrno_eq_zero.mpr hrc)] at hc
  · intro c hc
    rwa [if_pos (openforkErrno_eq_zero.mp (not_not.mp herr))] at hc

/-- The length of a fork has been asked to be 0, with this result. -/
inductive Zeroed (forkid : ℕ) (ret : ℤ) : List Event → Prop
  | intro {reply : AfpReply} {j : List Event} (hopen : Opening forkid j)
      (hret : ret = AfpCalls.forkParmsErrno reply.rc) :
      Zeroed forkid ret (.request [] (.setforkparms forkid 0) reply :: j)

theorem zeroed_llZeroFile :
    Ensures (fun c : Client σ => Opening forkid c.journal) (llZeroFile serve forkid) fun ret c =>
      Zeroed forkid ret c.journal := fun _ hc => .intro hc rfl

theorem Zeroed.lengthRefused_iff (h : Zeroed forkid ret j) : LengthRefused j ↔ ret ≠ 0 := by
  obtain ⟨hopen, rfl⟩ := h
  refine ⟨fun hrefused hret => ?_, fun hne => ⟨_, mem_cons_self, hne⟩⟩
  refine not_lengthRefused_cons ?_ hopen.not_lengthRefused hrefused
  exact not_not.mpr hret

theorem Zeroed.nonneg (h : Zeroed forkid ret j) : 0 ≤ ret := by
  obtain ⟨-, rfl⟩ := h
  exact Int.neg_nonpos_iff _ |>.mp (AfpCalls.isStatus_neg_forkParmsErrno _).2

theorem Zeroed.not_allClosed (h : Zeroed forkid ret j) : ¬AllClosed j := by
  obtain ⟨hopen, -⟩ := h
  exact hopen.not_allClosed

/-- It is closed if a close follows. -/
theorem Zeroed.allClosed (h : Zeroed forkid ret j) :
    AllClosed (.request [] (.closefork forkid) reply :: j) := by
  obtain ⟨⟨hrc, hforkid, hquiet⟩, -⟩ := h
  refine ⟨nofun, nofun, fun f hf => ?_, hquiet.closedLater _⟩
  rw [Event.opens, if_pos hrc, hforkid] at hf
  exact mem_singleton.mpr (Option.some.inj hf).symm

theorem closed_ask :
    Ensures (fun c : Client σ => Zeroed forkid ret c.journal) (ask serve [] (.closefork forkid))
      fun _ c => 0 ≤ ret ∧ AllClosed c.journal := fun _ hc => ⟨hc.nonneg, hc.allClosed⟩

end Client

/-! ## `ll_open` -/

namespace ForkClient

variable {σ : Type} {serve : AfpRequest → StateM σ AfpReply} {cfg : MidlevelConfig}
variable {forks : List OpenFork} {address : ℕ} {flags : OpenFlags} {c : ForkClient σ}
variable {path : Octets} {desktop : Desktop} {fp : OpenFork} {failed : Prop}

/-- No fork has been opened, and this is the list. -/
abbrev QuietWith (forks : List OpenFork) (c : ForkClient σ) : Prop :=
  Quiet c.client.journal ∧ c.openForks = forks

/-- A call that leaves the list as it is. -/
theorem ensures_onClient {α : Type} {m : StateM (Client σ) α} {P : Client σ → Prop}
    {Q : α → Client σ → Prop} (h : Ensures P m Q) :
    Ensures (fun c => P c.client ∧ c.openForks = forks) (onClient m) fun a c =>
      Q a c.client ∧ c.openForks = forks := fun c hc => ⟨h c.client hc.1, hc.2⟩

theorem ensures_onForks (P : Client σ → Prop) (f : List OpenFork → List OpenFork) :
    Ensures (fun c => P c.client ∧ c.openForks = forks) (onForks f) fun _ c =>
      P c.client ∧ c.openForks = f forks := fun _ hc => ⟨hc.1, congrArg f hc.2⟩

/-- What `ll_open` leaves, from a quiet journal and this list. -/
inductive Opened (flags : OpenFlags) (forks : List OpenFork) :
    Except ℤ OpenFile → ForkClient σ → Prop
  /-- Nothing is opened. -/
  | refused {ret : ℤ} {c : ForkClient σ} (hquiet : Quiet c.client.journal)
      (hforks : c.openForks = forks) : Opened flags forks (.error ret) c
  /-- A fork is open. -/
  | opened {fp : OpenFile} {c : ForkClient σ} (hopen : Opening fp.forkid c.client.journal) :
      Opened flags forks (.ok fp) c
  /-- A fork is open and has been truncated. -/
  | truncated {fp : OpenFile} {c : ForkClient σ} (htrunc : flags.trunc = true)
      (hzeroed : Zeroed fp.forkid 0 c.client.journal) : Opened flags forks (.ok fp) c
  /-- A fork is open and could not be truncated. -/
  | unfinished {ret : ℤ} {forkid : ℕ} {c : ForkClient σ} (htrunc : flags.trunc = true)
      (hret : ret ≠ 0) (hzeroed : Zeroed forkid ret c.client.journal) :
      Opened flags forks (.error ret) c

theorem opened_llOpen {about : List Octets} {fp : OpenFile} :
    Ensures (QuietWith forks) (llOpen serve cfg address about fp flags) (Opened flags forks) := by
  unfold llOpen
  refine .bind (ensures_onClient quiet_openFork) ?_
  rintro (ret | fp)
  · exact .pure fun c hc => .refused hc.1 hc.2
  refine .bind (ensures_onForks (fun c => Opening fp.forkid c.journal) _) fun _ => ?_
  unfold truncateForOpen
  by_cases htrunc : (flags.trunc && !flags.creat) = true
  · rw [if_pos htrunc]
    have htrue : flags.trunc = true := (Bool.and_eq_true_iff.mp htrunc).1
    refine .bind (ensures_onClient zeroed_llZeroFile) fun ret => ?_
    refine .ite (fun hret => .pure fun c hc => ?_) fun hret => .pure fun c hc => ?_
    · exact .unfinished htrue hret hc.1
    · rw [not_not.mp hret] at hc
      exact .truncated htrue hc.1
  · rw [if_neg htrunc]
    exact fun c hc => .opened hc.1

/-! ## The calls -/

/-- A call that fails has closed what it opened, and left the list as it
was. -/
def LeavesNothing (forks : List OpenFork) (failed : Prop) (c : ForkClient σ) : Prop :=
  failed → AllClosed c.client.journal ∧ c.openForks = forks

/-- That it does so depends on the lengths that were set. -/
def LeavesByLength (forks : List OpenFork) (failed : Prop) (c : ForkClient σ) : Prop :=
  LeavesNothing forks failed c ↔ ¬LengthRefused c.client.journal

/-- After a call that has opened nothing. -/
theorem leavesByLength_of_quiet (hquiet : Quiet c.client.journal)
    (hforks : c.openForks = forks) : LeavesByLength forks failed c :=
  iff_of_true (fun _ => ⟨hquiet.closedLater [], hforks⟩) hquiet.not_lengthRefused

/-- After a call that has set the length of a fork, and fails if that fails. -/
theorem leavesByLength_of_zeroed {forkid : ℕ} {ret : ℤ}
    (hfailed : failed ↔ ret ≠ 0) (hzeroed : Zeroed forkid ret c.client.journal) :
    LeavesByLength forks failed c := by
  unfold LeavesByLength
  rw [hzeroed.lengthRefused_iff, not_not]
  refine ⟨fun h => not_not.mp fun hret => ?_, fun hret hfail => absurd hret (hfailed.mp hfail)⟩
  exact hzeroed.not_allClosed (h (hfailed.mpr hret)).1

/-- `ll_open` fails. -/
def IsError {α : Type} : Except ℤ α → Prop
  | .error _ => True
  | .ok _ => False

theorem Opened.leavesByLength {r : Except ℤ OpenFile}
    (h : Opened flags forks r c) : LeavesByLength forks (IsError r) c := by
  cases h with
  | refused hquiet hforks => exact leavesByLength_of_quiet hquiet hforks
  | opened hopen => exact iff_of_true (fun h => h.elim) hopen.not_lengthRefused
  | truncated _ hzeroed => exact leavesByLength_of_zeroed (iff_of_false id fun h => h rfl) hzeroed
  | unfinished _ hret hzeroed => exact leavesByLength_of_zeroed (iff_of_true trivial hret) hzeroed

theorem leaves_appledoubleOpen :
    Ensures (QuietWith forks)
      (appledoubleOpen serve cfg desktop address path flags) fun r c =>
        match r with
        | .ok none => QuietWith forks c
        | r => LeavesByLength forks (IsError r) c := by
  have hquiet : ∀ {r : Except ℤ (Option OpenFile)},
      Ensures (QuietWith (σ := σ) forks) (pure r) fun r c => match r with
          | .ok none => QuietWith forks c
          | r => LeavesByLength forks (IsError r) c := by
    intro r c hc
    match r with
    | .error _ => exact leavesByLength_of_quiet hc.1 hc.2
    | .ok none => exact hc
    | .ok (some _) => exact leavesByLength_of_quiet hc.1 hc.2
  unfold appledoubleOpen
  split
  · refine .bind (ensures_onClient (quiet_getDirid _)) fun got => .ite (fun _ => hquiet) fun _ => ?_
    refine .bind opened_llOpen ?_
    rintro (ret | fp)
    · exact .pure fun c hc => hc.leavesByLength
    · exact .pure fun c hc => hc.leavesByLength
  · exact hquiet
  · refine .bind (ensures_onClient (quiet_getDirid _)) fun got => .ite (fun _ => hquiet) fun _ => ?_
    exact hquiet
  · refine .bind (ensures_onClient (quiet_getDirid _)) fun got => .ite (fun _ => hquiet) fun _ => ?_
    exact .ite (fun _ => hquiet) fun _ => hquiet
  · exact hquiet
  · exact hquiet

theorem leaves_mlOpen :
    Ensures (QuietWith forks)
      (mlOpen serve cfg desktop address path flags) fun r c =>
        LeavesByLength forks (IsError r) c := by
  unfold mlOpen
  split
  · exact .pure fun c hc => leavesByLength_of_quiet hc.1 hc.2
  refine .bind leaves_appledoubleOpen ?_
  rintro (ret | _ | fp)
  · exact .pure fun c hc => hc
  · refine .bind (ensures_onClient (quiet_getDirid _)) fun got => ?_
    refine .orPure (fun c hc => leavesByLength_of_quiet hc.1 hc.2) ?_
    refine .bind opened_llOpen ?_
    rintro (ret | fp)
    · exact .pure fun c hc => hc.leavesByLength
    · exact .pure fun c hc => hc.leavesByLength
  · exact .pure fun c hc => hc

/-- `ml_open` of a path that is no emulated file, without `O_TRUNC`. -/
theorem opening_mlOpen (hpath : cfg.extraTranslate path = .none) (htrunc : flags.trunc = false) :
    Ensures (QuietWith forks)
      (mlOpen serve cfg desktop address path flags) fun r c =>
        match r with
        | .error _ => QuietWith forks c
        | .ok fp => Opening fp.forkid c.client.journal := by
  have hno : flags.trunc ≠ true := ne_true_of_eq_false htrunc
  unfold mlOpen appledoubleOpen
  rw [hpath]
  split
  · exact .kept
  dsimp only
  rw [pure_bind]
  refine .bind (ensures_onClient (quiet_getDirid _)) fun got => .orPure (fun _ hc => hc) ?_
  refine .bind opened_llOpen ?_
  rintro (ret | fp) c hc
  · cases hc with
    | refused hquiet hforks => exact ⟨hquiet, hforks⟩
    | unfinished h => exact absurd h hno
  · cases hc with
    | opened hopen => exact hopen
    | truncated h => exact absurd h hno

/-- A resource fork is closed whatever comes of its truncation. -/
theorem closed_truncateResource {newpath : Octets} :
    Ensures (QuietWith forks)
      (truncateResource serve cfg fp newpath) fun ret c =>
        (ret < 0 ∨ ret = 1) ∧ AllClosed c.client.journal ∧ c.openForks = forks := by
  unfold truncateResource
  refine .bind (ensures_onClient (quiet_getDirid _)) fun got => ?_
  refine .ite (fun hret => .pure fun c hc => ?_) fun _ => ?_
  · exact ⟨.inl hret, hc.1.closedLater [], hc.2⟩
  refine .bind (ensures_onClient quiet_or_opening) fun opened => ?_
  refine .ite (fun hrc => .pure fun c hc => ?_) fun hrc => ?_
  · rw [if_neg hrc] at hc
    have hpos := truncateOpenErrno_pos opened.rc
    exact ⟨.inl (by omega), hc.1.closedLater [], hc.2⟩
  simp only [if_pos (not_not.mp hrc)]
  refine .bind (ensures_onForks (fun c => Opening opened.forkid c.journal) _) fun _ => ?_
  refine .bind (ensures_onClient zeroed_llZeroFile) fun ret => ?_
  refine .bind (ensures_onClient closed_ask) fun _ => ?_
  refine .bind (ensures_onForks (fun c => 0 ≤ ret ∧ AllClosed c.journal) _) fun _ => ?_
  have hremoved : ∀ fork : OpenFork,
      OpenFork.removeOpenedFork (OpenFork.addOpenedFork forks fork) fork = forks := fun fork =>
    eraseP_cons_of_pos (decide_eq_true rfl)
  rw [hremoved]
  refine .ite (fun hret => .pure fun c hc => ?_) fun _ => .pure fun c hc => ?_
  · exact ⟨.inl (by omega), hc.1.2, hc.2⟩
  · exact ⟨.inr rfl, hc.1.2, hc.2⟩

/-- `ml_truncate` of an emulated file. -/
theorem closed_mlTruncate (offset : ℤ) (hpath : cfg.extraTranslate path ≠ .none) :
    Ensures (QuietWith forks)
      (mlTruncate serve cfg desktop address fp path offset) fun _ c =>
        AllClosed c.client.journal ∧ c.openForks = forks := by
  have hquiet : ∀ c : ForkClient σ, QuietWith forks c →
      AllClosed c.client.journal ∧ c.openForks = forks := fun _ hc => ⟨hc.1.closedLater [], hc.2⟩
  have hemulated : Ensures (QuietWith forks)
      (appledoubleTruncate serve cfg fp path) fun ret c =>
        (ret < 0 ∨ ret = 1) ∧ AllClosed c.client.journal ∧ c.openForks = forks := by
    unfold appledoubleTruncate
    split
    · exact closed_truncateResource
    · exact .pure fun c hc => ⟨.inl (by decide), hquiet c hc⟩
    · exact .pure fun c hc => ⟨.inr rfl, hquiet c hc⟩
    · exact .pure fun c hc => ⟨.inr rfl, hquiet c hc⟩
    · exact .pure fun c hc => ⟨.inl (by decide), hquiet c hc⟩
    · next hnone => exact absurd hnone hpath
  unfold mlTruncate
  split
  · exact .pure hquiet
  refine .bind hemulated fun ret => .assume fun hret => ?_
  refine .ite (fun _ => .kept) fun hneg => .ite (fun _ => .kept) fun hone => ?_
  exact absurd (hret.resolve_left hneg) hone

/-- `ml_truncate` of any other. -/
theorem leaves_mlTruncate (offset : ℤ) (hpath : cfg.extraTranslate path = .none) :
    Ensures (QuietWith forks)
      (mlTruncate serve cfg desktop address fp path offset) fun ret c =>
        LeavesByLength forks (ret ≠ 0) c := by
  unfold mlTruncate appledoubleTruncate
  rw [hpath]
  split
  · exact .pure fun c hc => leavesByLength_of_quiet hc.1 hc.2
  dsimp only
  rw [pure_bind, if_neg (by decide), if_neg (by decide)]
  refine .bind (opening_mlOpen hpath rfl) ?_
  rintro (ret | opened)
  · exact .pure fun c hc => leavesByLength_of_quiet hc.1 hc.2
  have hzeroed : Ensures (fun c : ForkClient σ => Opening opened.forkid c.client.journal)
      (onClient (llZeroFile serve opened.forkid)) fun ret c =>
        Zeroed opened.forkid ret c.client.journal := fun c hc => zeroed_llZeroFile c.client hc
  refine .bind hzeroed fun ret => .ite (fun hret => .pure fun c hc => ?_) fun hret c hc => ?_
  · exact leavesByLength_of_zeroed neg_ne_zero hc
  · refine iff_of_true (fun h => absurd rfl h) (not_lengthRefused_cons id fun h => ?_)
    exact hret (hc.lengthRefused_iff.mp h)

/-! ## Failed opens -/

/-- The calls that open a fork, with their arguments. -/
inductive OpeningCall where
  | llOpen (address : ℕ) (about : List Octets) (fp : OpenFile) (flags : OpenFlags)
  | mlOpen (address : ℕ) (path : Octets) (flags : OpenFlags)
  | mlTruncate (address : ℕ) (fp : OpenFork) (path : Octets) (offset : ℤ)

namespace OpeningCall

variable (serve : AfpRequest → StateM σ AfpReply) (cfg : MidlevelConfig) (desktop : Desktop)

/-- Whether the call fails, and what it leaves. -/
def outcome (call : OpeningCall) (c : ForkClient σ) : Prop × ForkClient σ :=
  match call with
  | llOpen address about fp flags =>
      ((ForkClient.llOpen serve cfg address about fp flags).run c).map IsError id
  | mlOpen address path flags =>
      ((ForkClient.mlOpen serve cfg desktop address path flags).run c).map IsError id
  | mlTruncate address fp path offset =>
      ((ForkClient.mlTruncate serve cfg desktop address fp path offset).run c).map (· ≠ 0) id

/-- The call truncates an emulated file. -/
def TruncatesEmulated : OpeningCall → Prop
  | mlTruncate _ _ path _ => cfg.extraTranslate path ≠ .none
  | _ => False

end OpeningCall

/-- **Failed opens leave nothing open**, exactly if no request to set the length
of a fork is refused, or the call truncates an emulated file. -/
theorem failed_open_leaves_nothing_iff (serve : AfpRequest → StateM σ AfpReply)
    (cfg : MidlevelConfig) (desktop : Desktop) (call : OpeningCall) (volume : Volume) (s : σ)
    (forks : List OpenFork) :
    LeavesNothing forks (call.outcome serve cfg desktop ⟨fresh volume s, forks⟩).1
        (call.outcome serve cfg desktop ⟨fresh volume s, forks⟩).2 ↔
      call.TruncatesEmulated cfg ∨
        ¬LengthRefused
          (call.outcome serve cfg desktop ⟨fresh volume s, forks⟩).2.client.journal := by
  have hstart : Quiet (fresh volume s).journal ∧ forks = forks := ⟨quiet_nil, rfl⟩
  cases call with
  | llOpen address about fp flags =>
    refine Iff.trans ?_ (or_iff_right id).symm
    exact (opened_llOpen ⟨fresh volume s, forks⟩ hstart).leavesByLength
  | mlOpen address path flags =>
    refine Iff.trans ?_ (or_iff_right id).symm
    exact leaves_mlOpen ⟨fresh volume s, forks⟩ hstart
  | mlTruncate address fp path offset =>
    by_cases hpath : cfg.extraTranslate path = .none
    · refine Iff.trans ?_ (or_iff_right (not_not.mpr hpath)).symm
      exact leaves_mlTruncate offset hpath ⟨fresh volume s, forks⟩ hstart
    · refine iff_of_true (fun _ => ?_) (.inl hpath)
      exact closed_mlTruncate offset hpath ⟨fresh volume s, forks⟩ hstart

/-- A server that does not let forks be truncated. -/
def lockedServer : AfpRequest → StateM Unit AfpReply
  | .setforkparms _ _ => return .ofCode kFPLockErr
  | .openfork _ _ _ _ => return { AfpReply.ofCode 0 with forkid := 7 }
  | _ => return .ofCode 0

/-- A client with no forks open. -/
def noForks : ForkClient Unit := ⟨fresh Volume.mounted (), []⟩

/-- `ml_open` with `O_TRUNC`. -/
def truncatingOpen : OpeningCall := .mlOpen 1 (text "/f") { oRdwr with trunc := true }

def truncation : OpeningCall := .mlTruncate 1 ⟨2, 0, 0, [], 0, false, false⟩ (text "/f") 0

/-- Both fail, and leave a fork open and in the list. -/
theorem failed_open_leaves_fork :
    (truncatingOpen.outcome lockedServer plainConfig ⟨0, 0⟩ noForks).2.openForks =
        [⟨1, 7, 2, text "f", 0, true, false⟩] ∧
      ¬LeavesNothing [] (truncatingOpen.outcome lockedServer plainConfig ⟨0, 0⟩ noForks).1
        (truncatingOpen.outcome lockedServer plainConfig ⟨0, 0⟩ noForks).2 ∧
      ¬LeavesNothing [] (truncation.outcome lockedServer plainConfig ⟨0, 0⟩ noForks).1
        (truncation.outcome lockedServer plainConfig ⟨0, 0⟩ noForks).2 := by
  have hlist : (truncatingOpen.outcome lockedServer plainConfig ⟨0, 0⟩ noForks).2.openForks =
      [⟨1, 7, 2, text "f", 0, true, false⟩] := rfl
  have hkept : (truncation.outcome lockedServer plainConfig ⟨0, 0⟩ noForks).2.openForks =
      [⟨1, 7, 2, text "f", 0, true, false⟩] := rfl
  have hfails : (truncation.outcome lockedServer plainConfig ⟨0, 0⟩ noForks).1 := by
    show (-ebusy : ℤ) ≠ 0
    decide
  refine ⟨hlist, fun h => ?_, fun h => ?_⟩
  · exact cons_ne_nil _ _ (hlist.symm.trans (h trivial).2)
  · exact cons_ne_nil _ _ (hkept.symm.trans (h hfails).2)

end ForkClient

end NetatalkClient
