import NetatalkClient.Did.Resolve
import NetatalkClient.Midlevel.Helpers.Requests
/-!
# When a range is locked

`ll_handle_locking` asks for a lock ten times at most, and takes the range
for locked when the last of them has met a conflict as well. `ll_read` and
`ll_write` go on from there. So a chunk may go out without a lock, and this
happens exactly if all ten requests are answered with a conflict, or if the
request for the lock is of AFP 2 and has no room for the range
(`chunks_locked_iff`).
-/

namespace NetatalkClient

open Client List

/-! ## Locks -/

/-- The codes after which the lock is asked for again. -/
def IsConflict (rc : ℤ) : Prop := rc = kFPNoMoreLocks ∨ rc = kFPLockErr

instance (rc : ℤ) : Decidable (IsConflict rc) := inferInstanceAs (Decidable (_ ∨ _))

theorem IsConflict.ne_zero {rc : ℤ} (h : IsConflict rc) : rc ≠ 0 := by
  rintro rfl
  revert h
  decide

/-- The range that `ll_handle_locking` is given, as unsigned numbers. -/
def askedRange (offset : ℤ) (size : ℕ) : ℕ × ℕ :=
  ((offset % 0x10000000000000000).toNat, size % 0x10000000000000000)

/-- The range that its request carries: `afp_byterangelock` has 32 bits for
each number, `afp_byterangelockext` has 64. -/
def wireRange (avNumber : ℕ) (offset : ℤ) (size : ℕ) : ℕ × ℕ :=
  if avNumber < 30 then ((askedRange offset size).1 % 0x100000000,
    (askedRange offset size).2 % 0x100000000)
  else askedRange offset size

/-- A lock on a range of a fork. -/
structure Lock where
  avNumber : ℕ
  forkid : ℕ
  offset : ℤ
  size : ℕ

namespace Lock

def request (l : Lock) : AfpRequest := .byterangelock false l.forkid l.offset l.size

/-- The request has room for the range. -/
def Fits (l : Lock) : Prop := wireRange l.avNumber l.offset l.size = askedRange l.offset l.size

instance (l : Lock) : Decidable l.Fits := inferInstanceAs (Decidable (_ = _))

/-- This event grants the lock. -/
def GrantedBy (l : Lock) : Event → Prop
  | .request _ (.byterangelock false forkid offset size) reply =>
      reply.rc = 0 ∧ forkid = l.forkid ∧
        wireRange l.avNumber offset size = askedRange l.offset l.size
  | _ => False

/-- The lock has been granted. -/
def Granted (l : Lock) (j : List Event) : Prop := ∃ e ∈ j, l.GrantedBy e

end Lock

/-- An event that transfers a chunk. -/
def IsChunk : Event → Prop
  | .request _ (.read _ _ _) _ => True
  | .request _ (.write _ _ _) _ => True
  | _ => False

/-- Before every chunk in a journal the lock has been granted. -/
def ChunksLocked (l : Lock) : List Event → Prop
  | [] => True
  | e :: j => (IsChunk e → l.Granted j) ∧ ChunksLocked l j

variable {l : Lock} {e : Event} {j : List Event}

theorem Lock.granted_cons (h : l.Granted j) : l.Granted (e :: j) := by
  obtain ⟨g, hg, hgrant⟩ := h
  exact ⟨g, mem_cons_of_mem e hg, hgrant⟩

theorem Lock.not_granted_cons (he : ¬l.GrantedBy e) (h : ¬l.Granted j) : ¬l.Granted (e :: j) := by
  rintro ⟨g, hg, hgrant⟩
  rcases mem_cons.mp hg with rfl | hg
  · exact he hgrant
  · exact h ⟨g, hg, hgrant⟩

theorem Lock.grantedBy_request {about : List Octets} {reply : AfpReply} :
    l.GrantedBy (.request about l.request reply) ↔ reply.rc = 0 ∧ l.Fits :=
  ⟨fun h => ⟨h.1, h.2.2⟩, fun h => ⟨h.1, rfl, h.2⟩⟩

theorem chunksLocked_cons (he : ¬IsChunk e) (h : ChunksLocked l j) : ChunksLocked l (e :: j) :=
  ⟨fun hchunk => absurd hchunk he, h⟩

/-! ## Asking for a lock -/

section Answers

variable {σ : Type} (serve : AfpRequest → StateM σ AfpReply)

/-- The first answer to a request that is no conflict, among so many. -/
def lockAnswer (r : AfpRequest) : ℕ → σ → Option ℤ
  | 0, _ => none
  | tries + 1, s =>
      if IsConflict ((serve r).run s).1.rc then lockAnswer r tries ((serve r).run s).2
      else some ((serve r).run s).1.rc

/-- The server after it has been told to flush these forks. -/
def serverAfterFlush : List ℕ → σ → σ
  | [], s => s
  | forkid :: forks, s => serverAfterFlush forks ((serve (.flushfork forkid)).run s).2

/-- The lock is granted, or refused for good: what `ll_handle_locking` counts
on. -/
def LockSettled (l : Lock) (s : σ) : Prop :=
  ∃ rc, lockAnswer serve l.request 10 s = some rc ∧ (rc = 0 → l.Fits)

instance (l : Lock) (s : σ) : Decidable (LockSettled serve l s) :=
  match h : lockAnswer serve l.request 10 s with
  | none => .isFalse fun ⟨rc, hrc, _⟩ => by
      rw [h] at hrc
      cases hrc
  | some rc =>
    decidable_of_iff (rc = 0 → l.Fits) ⟨fun hfits => ⟨rc, h, hfits⟩, fun ⟨rc', hrc, hfits⟩ =>
      Option.some.inj (h.symm.trans hrc) ▸ hfits⟩

end Answers

namespace Client

variable {σ : Type} {serve : AfpRequest → StateM σ AfpReply} {cfg : MidlevelConfig} {s : σ}
variable {j' : List Event}

/-- What the tries leave, with the answer: nothing but conflicts, or these and
an answer that is none. -/
inductive Tried (r : AfpRequest) (j : List Event) : Option ℤ → List Event → Prop
  | start : Tried r j none j
  | conflict {j' : List Event} {reply : AfpReply} (h : Tried r j none j')
      (hrc : IsConflict reply.rc) : Tried r j none (.request [] r reply :: j')
  | answered {j' : List Event} {reply : AfpReply} (h : Tried r j none j')
      (hrc : ¬IsConflict reply.rc) : Tried r j (some reply.rc) (.request [] r reply :: j')

/-- A request, with the server it goes to. -/
theorem ensures_ask {about : List Octets} {r : AfpRequest} :
    Ensures (fun c : Client σ => c.server = s ∧ c.journal = j) (ask serve about r) fun reply c =>
      reply = ((serve r).run s).1 ∧ c.server = ((serve r).run s).2 ∧
        c.journal = .request about r reply :: j := by
  rintro c ⟨rfl, rfl⟩
  exact ⟨rfl, rfl, rfl⟩

/-- **The tries.** Whether they fail is decided by the first answer that is no
conflict; if there is none, they do not. -/
theorem tried_tryLock {tries : ℕ} (hj : Tried l.request j none j') :
    Ensures (fun c : Client σ => c.server = s ∧ c.journal = j')
      (tryLock serve l.forkid l.offset l.size tries) fun failed c =>
        Tried l.request j (lockAnswer serve l.request tries s) c.journal ∧
          (failed = true ↔ ∃ rc, lockAnswer serve l.request tries s = some rc ∧ rc ≠ 0) := by
  induction tries generalizing s j' with
  | zero =>
    rintro c ⟨-, rfl⟩
    refine ⟨hj, fun h => Bool.noConfusion h, ?_⟩
    rintro ⟨rc, hrc, -⟩
    exact Option.noConfusion rfl (heq_of_eq hrc)
  | succ tries ih =>
    refine .bind ensures_ask fun reply => .assume fun hreply => ?_
    rw [lockAnswer, show ((serve l.request).run s).1 = reply from hreply.symm]
    refine .ite (fun hzero => .pure ?_) fun hzero => .ite ?_ ?_
    · rintro c ⟨-, hc⟩
      have hnone : ¬IsConflict reply.rc := fun h => h.ne_zero hzero
      rw [hc, if_neg hnone]
      refine ⟨.answered hj hnone, fun h => Bool.noConfusion h, ?_⟩
      rintro ⟨rc, hrc, hne⟩
      exact absurd ((Option.some.inj hrc).symm.trans hzero) hne
    · intro (hconflict : IsConflict reply.rc)
      rw [if_pos hconflict]
      exact ih (.conflict hj hconflict)
    · intro (hother : ¬IsConflict reply.rc)
      refine .pure ?_
      rintro c ⟨-, hc⟩
      rw [hc, if_neg hother]
      exact ⟨.answered hj hother, fun _ => ⟨reply.rc, rfl, hzero⟩, fun _ => rfl⟩

/-! ### What the journal says after the tries -/

theorem Tried.chunksLocked {answer : Option ℤ} (h : Tried l.request j answer j')
    (hj : ChunksLocked l j) : ChunksLocked l j' := by
  induction h with
  | start => exact hj
  | conflict _ _ ih => exact chunksLocked_cons id ih
  | answered _ _ ih => exact chunksLocked_cons id ih

theorem Tried.granted (h : Tried l.request j (some 0) j') (hfits : l.Fits) : l.Granted j' := by
  generalize hanswer : some (0 : ℤ) = answer at h
  cases h with
  | start => cases hanswer
  | conflict => cases hanswer
  | answered _ _ =>
    have hzero := (Option.some.inj hanswer).symm
    exact ⟨_, mem_cons_self, Lock.grantedBy_request.mpr ⟨hzero, hfits⟩⟩

theorem Tried.not_granted {answer : Option ℤ} (h : Tried l.request j answer j')
    (hj : ¬l.Granted j) (hanswer : ¬(answer = some 0 ∧ l.Fits)) : ¬l.Granted j' := by
  induction h with
  | start => exact hj
  | conflict _ hrc ih =>
    refine Lock.not_granted_cons (fun h => hrc.ne_zero (Lock.grantedBy_request.mp h).1) ?_
    exact ih fun h => Option.noConfusion rfl (heq_of_eq h.1)
  | answered _ _ ih =>
    refine Lock.not_granted_cons (fun h => hanswer ?_) ?_
    · obtain ⟨hzero, hfits⟩ := Lock.grantedBy_request.mp h
      exact ⟨congrArg some hzero, hfits⟩
    · exact ih fun h => Option.noConfusion rfl (heq_of_eq h.1)

/-- Neither a chunk nor a lock so far, on a server in this state. -/
def Untouched (l : Lock) (s : σ) (c : Client σ) : Prop :=
  c.server = s ∧ ChunksLocked l c.journal ∧ ¬l.Granted c.journal

theorem untouched_fresh {volume : Volume} : Untouched l s (fresh volume s) :=
  ⟨rfl, trivial, fun ⟨_, he, _⟩ => absurd he not_mem_nil⟩

theorem untouched_flushForks {forks : List ℕ} :
    Ensures (Untouched l s) (flushForks serve forks) fun _ c =>
      Untouched l (serverAfterFlush serve forks s) c := by
  induction forks generalizing s with
  | nil => exact .kept
  | cons forkid forks ih =>
    have hask : Ensures (Untouched l s) (ask serve [] (.flushfork forkid)) fun _ =>
        Untouched l ((serve (.flushfork forkid)).run s).2 := by
      rintro c ⟨rfl, hchunks, hgrant⟩
      exact ⟨rfl, chunksLocked_cons id hchunks, Lock.not_granted_cons id hgrant⟩
    exact .bind hask fun _ => ih

/-- **What `ll_handle_locking` leaves**, where locking is not disabled. -/
theorem locked_llHandleLocking (hlocking : cfg.noLocking = false) :
    Ensures (Untouched l s) (llHandleLocking serve cfg l.forkid l.offset l.size) fun failed c =>
      ChunksLocked l c.journal ∧
        if failed then LockSettled serve l s
        else (LockSettled serve l s ↔ l.Granted c.journal) := by
  rintro c ⟨rfl, hchunks, hgrant⟩
  unfold llHandleLocking
  rw [hlocking, if_neg Bool.false_ne_true]
  have htries : Ensures (fun c' : Client σ => c'.server = c.server ∧ c'.journal = c.journal)
      (tryLock serve l.forkid l.offset l.size 10) _ := tried_tryLock .start
  obtain ⟨htried, hfailed⟩ := htries c ⟨rfl, rfl⟩
  refine ⟨htried.chunksLocked hchunks, ?_⟩
  split
  · next hfail =>
    obtain ⟨rc, hrc, hne⟩ := hfailed.mp hfail
    exact ⟨rc, hrc, fun hzero => absurd hzero hne⟩
  · next hfail =>
    constructor
    · rintro ⟨rc, hrc, hfits⟩
      have hzero : rc = 0 := not_not.mp fun hne => hfail (hfailed.mpr ⟨rc, hrc, hne⟩)
      rw [hrc, hzero] at htried
      exact htried.granted (hfits hzero)
    · intro hgranted
      by_contra hunsettled
      refine htried.not_granted hgrant ?_ hgranted
      exact fun h => hunsettled ⟨0, h.1, fun _ => h.2⟩

/-- It returns 0 only with the lock, exactly if the answers settle it. -/
theorem granted_llHandleLocking (hlocking : cfg.noLocking = false) :
    Ensures (Untouched l s) (llHandleLocking serve cfg l.forkid l.offset l.size) fun failed c =>
      (failed = false → l.Granted c.journal) ↔ LockSettled serve l s := by
  refine (locked_llHandleLocking hlocking).mono (fun _ h => h) ?_
  rintro failed c ⟨-, h⟩
  cases failed with
  | false => exact ⟨fun hgranted => h.mpr (hgranted rfl), fun hsettled _ => h.mp hsettled⟩
  | true => exact iff_of_true (fun hfalse => Bool.noConfusion hfalse) h

/-! ## Chunks -/

/-- After the first chunk: the lock was granted and every chunk is locked, or
neither. -/
def Shown (l : Lock) (settled : Prop) (j : List Event) : Prop :=
  (settled → l.Granted j ∧ ChunksLocked l j) ∧ (¬settled → ¬ChunksLocked l j)

variable {settled : Prop}

theorem Shown.chunksLocked_iff (h : Shown l settled j) : ChunksLocked l j ↔ settled :=
  ⟨fun hj => not_not.mp fun hnot => h.2 hnot hj, fun hsettled => (h.1 hsettled).2⟩

theorem Shown.cons (e : Event) (j : List Event) (h : Shown l settled j) :
    Shown l settled (e :: j) := by
  refine ⟨fun hsettled => ?_, fun hnot hj => h.2 hnot hj.2⟩
  obtain ⟨hgranted, hchunks⟩ := h.1 hsettled
  exact ⟨Lock.granted_cons hgranted, fun _ => hgranted, hchunks⟩

theorem shown_chunk (he : IsChunk e) (hchunks : ChunksLocked l j)
    (hgranted : settled ↔ l.Granted j) : Shown l settled (e :: j) := by
  refine ⟨fun hsettled => ?_, fun hnot hj => hnot (hgranted.mpr (hj.1 he))⟩
  exact ⟨Lock.granted_cons (hgranted.mp hsettled), fun _ => hgranted.mp hsettled, hchunks⟩

/-- Before it. -/
abbrev LockTried (l : Lock) (settled : Prop) (c : Client σ) : Prop :=
  ChunksLocked l c.journal ∧ (settled ↔ l.Granted c.journal)

theorem shown_ask {r : AfpRequest} (hr : ∀ reply, IsChunk (.request [] r reply)) :
    Ensures (LockTried (σ := σ) l settled) (ask serve [] r) fun _ c => Shown l settled c.journal :=
  fun _ hc => shown_chunk (hr _) hc.1 hc.2

/-- What `ll_read` and `ll_write` keep from their loop on: no chunk was to be
sent and all are locked, or the first one has shown whether they are. -/
inductive Transferred (l : Lock) (sends settled : Prop) (j : List Event) : Prop
  | nothing (hsends : ¬sends) (hchunks : ChunksLocked l j)
  | shown (hsends : sends) (hshown : Shown l settled j)

variable {sends : Prop}

theorem Transferred.chunksLocked_iff (h : Transferred l sends settled j) :
    ChunksLocked l j ↔ (sends → settled) := by
  cases h with
  | nothing hsends hchunks => exact iff_of_true hchunks fun h => absurd h hsends
  | shown hsends hshown =>
    exact hshown.chunksLocked_iff.trans ⟨fun h _ => h, fun h => h hsends⟩

theorem transferred_llHandleUnlocking {forkid size : ℕ} {offset : ℤ} :
    Keeps (fun c : Client σ => Transferred l sends settled c.journal)
      (llHandleUnlocking serve cfg forkid offset size) := by
  refine .orKept <| .bind (fun c hc => ?_) fun _ => .kept
  cases hc with
  | nothing hsends hchunks => exact .nothing hsends (chunksLocked_cons id hchunks)
  | shown hsends hshown => exact .shown hsends (hshown.cons _ _)

section Transfers

variable {volume : MetadataVolume} {path q : Octets} {forkid size : ℕ} {s : σ} {offset : ℕ}
variable {data : Octets}

theorem shown_calls :
    AfpCalls.ForkCallsKeep (Client.calls serve cfg path q) fun c => Shown l settled c.journal :=
  ForkRequestsKeep.calls (forkRequestsKeep_of_cons Shown.cons)

/-- The first turn of `ll_read` sends a chunk. -/
theorem shown_llReadLoop (hsize : size ≠ 0) (hoffset : ¬(volume.avNumber < 30 ∧ uintMax < offset)) :
    Ensures (LockTried l settled)
      ((Client.calls serve cfg path q).llReadLoop volume forkid size offset size []) fun _ c =>
        Shown l settled c.journal := by
  obtain ⟨turns, rfl⟩ := Nat.exists_eq_succ_of_ne_zero hsize
  unfold AfpCalls.llReadLoop
  refine .skip (Nat.not_succ_le_zero turns) ?_
  refine .skip hoffset ?_
  refine .bind (.bind (shown_ask fun _ => trivial) fun _ => .kept) ?_
  rintro ⟨rc, data⟩
  refine .orKept <| .orKept ?_
  refine .orKept <| .orKept ?_
  exact .orKept <| shown_calls.llReadLoop

/-- The first turn of `ll_write` sends a chunk. -/
theorem shown_llWriteLoop (hdata : data ≠ []) :
    Ensures (LockTried l settled)
      ((Client.calls serve cfg path q).llWriteLoop volume forkid data offset data.length 0)
      fun _ c => Shown l settled c.journal := by
  obtain ⟨b, data, rfl⟩ := exists_cons_of_ne_nil hdata
  unfold AfpCalls.llWriteLoop
  refine .skip (Nat.not_succ_le_zero _) ?_
  refine .bind (.bind (shown_ask fun _ => trivial) fun _ => .kept) ?_
  rintro ⟨rc, reply⟩
  refine .orKept <| .orKept ?_
  refine .orKept <| .orKept ?_
  refine .orKept ?_
  exact .orKept <| shown_calls.llWriteLoop

/-- The lock of `ll_read`. -/
def readLock (volume : MetadataVolume) (forkid size : ℕ) (offset : ℤ) : Lock :=
  ⟨volume.avNumber, forkid, offset, min size intMax⟩

/-- The lock of `ll_write`. -/
def writeLock (volume : MetadataVolume) (forkid : ℕ) (data : Octets) (offset : ℤ) : Lock :=
  ⟨volume.avNumber, forkid, offset, data.length⟩

/-- `ll_read` gets as far as a chunk, if its lock does not fail. -/
def ReadSends (volume : MetadataVolume) (size : ℕ) (offset : ℤ) : Prop :=
  size ≠ 0 ∧ 0 ≤ offset ∧ volume.rxQuantum ≠ 0 ∧ ¬(volume.avNumber < 30 ∧ (uintMax : ℤ) < offset)

/-- `ll_write` gets as far as a chunk, if its lock does not fail. -/
def WriteSends (volume : MetadataVolume) (data : Octets) : Prop :=
  volume.txQuantum ≠ 0 ∧ data ≠ []

theorem transferred_llReadLoop (hsize : size ≠ 0)
    (hsends : sends ↔ ¬(volume.avNumber < 30 ∧ uintMax < offset)) :
    Ensures (LockTried l settled)
      ((Client.calls serve cfg path q).llReadLoop volume forkid size offset size []) fun _ c =>
        Transferred l sends settled c.journal := by
  by_cases hbig : volume.avNumber < 30 ∧ uintMax < offset
  · obtain ⟨turns, rfl⟩ := Nat.exists_eq_succ_of_ne_zero hsize
    unfold AfpCalls.llReadLoop
    refine .skip (Nat.not_succ_le_zero turns) ?_
    refine .ite (fun _ => .pure fun c hc => ?_) fun hsmall => absurd hbig hsmall
    exact .nothing (fun h => hsends.mp h hbig) hc.1
  · exact (shown_llReadLoop hsize hbig).mono (fun _ h => h) fun _ _ h => .shown (hsends.mpr hbig) h

theorem transferred_llWriteLoop (hquantum : volume.txQuantum ≠ 0) :
    Ensures (LockTried l settled)
      ((Client.calls serve cfg path q).llWriteLoop volume forkid data offset data.length 0)
      fun _ c => Transferred l (WriteSends volume data) settled c.journal := by
  by_cases hdata : data = []
  · rw [hdata]
    exact .pure fun c hc => .nothing (fun hsends => hsends.2 rfl) hc.1
  · exact (shown_llWriteLoop hdata).mono (fun _ h => h) fun _ _ h => .shown ⟨hquantum, hdata⟩ h

/-- **The chunks of `ll_write`.** -/
theorem chunksLocked_llWrite {offset : ℤ} (hlocking : cfg.noLocking = false) :
    Ensures (Untouched (writeLock volume forkid data offset) s)
      ((Client.calls serve cfg path q).llWrite volume forkid data offset) fun _ c =>
        ChunksLocked (writeLock volume forkid data offset) c.journal ↔
          (WriteSends volume data → LockSettled serve (writeLock volume forkid data offset) s) := by
  unfold AfpCalls.llWrite
  refine .ite (fun hquantum => .pure fun c hc => ?_) fun hquantum => ?_
  · exact iff_of_true hc.2.1 fun hsends => absurd hquantum hsends.1
  refine .bind (locked_llHandleLocking hlocking) fun failed => .ite (fun hfail => .pure ?_) ?_
  · intro c hc
    rw [if_pos hfail] at hc
    exact iff_of_true hc.1 fun _ => hc.2
  intro hfail
  simp only [if_neg hfail]
  refine Ensures.mono (.bind (transferred_llWriteLoop hquantum) ?_) (fun _ h => h) fun _ _ =>
    Transferred.chunksLocked_iff
  rintro ⟨err, total⟩
  refine .ite (fun _ => .bind transferred_llHandleUnlocking fun _ => .kept) fun _ => ?_
  refine .bind transferred_llHandleUnlocking fun _ => .ite (fun _ => ?_) fun _ => .kept
  exact .bind transferred_llHandleUnlocking fun _ => .kept

/-- **The chunks of `ll_read`.** The lock is asked for after the dirty forks
of the file have been flushed. -/
theorem chunksLocked_llRead {offset : ℤ} (hlocking : cfg.noLocking = false) :
    Ensures (Untouched (readLock volume forkid size offset) s)
      ((Client.calls serve cfg path q).llRead volume forkid size offset) fun _ c =>
        ChunksLocked (readLock volume forkid size offset) c.journal ↔
          (ReadSends volume size offset → LockSettled serve (readLock volume forkid size offset)
            (serverAfterFlush serve (cfg.dirtyForks forkid) s)) := by
  unfold AfpCalls.llRead
  refine .ite (fun hsize => .pure fun c hc => ?_) fun hsize => ?_
  · exact iff_of_true hc.2.1 fun hsends => absurd hsize hsends.1
  refine .ite (fun hneg => .pure fun c hc => ?_) fun hneg => ?_
  · exact iff_of_true hc.2.1 fun hsends => absurd hneg (not_lt.mpr hsends.2.1)
  refine .bind untouched_flushForks fun _ => .ite (fun hquantum => .pure fun c hc => ?_) ?_
  · exact iff_of_true hc.2.1 fun hsends => absurd hquantum hsends.2.2.1
  intro hquantum
  refine .bind (locked_llHandleLocking hlocking) fun failed => .ite (fun hfail => .pure ?_) ?_
  · intro c hc
    rw [if_pos hfail] at hc
    exact iff_of_true hc.1 fun _ => hc.2
  intro hfail
  simp only [if_neg hfail]
  have hmin : min size intMax ≠ 0 := by
    have : intMax ≠ 0 := by decide
    omega
  have hsends : ReadSends volume size offset ↔
      ¬(volume.avNumber < 30 ∧ uintMax < offset.toNat) := by
    have hoffset : uintMax < offset.toNat ↔ (uintMax : ℤ) < offset := by omega
    rw [hoffset]
    exact ⟨fun h => h.2.2.2, fun h => ⟨hsize, not_lt.mp hneg, hquantum, h⟩⟩
  refine Ensures.mono (.bind (transferred_llReadLoop hmin hsends) ?_) (fun _ h => h) fun _ _ =>
    Transferred.chunksLocked_iff
  rintro (err | ⟨got, eof⟩)
  · exact .bind transferred_llHandleUnlocking fun _ => .kept
  · refine .bind transferred_llHandleUnlocking fun _ => .ite (fun _ => ?_) fun _ => .kept
    exact .bind transferred_llHandleUnlocking fun _ => .kept

end Transfers

end Client

/-! ## The calls that lock -/

/-- The functions that ask for a lock, with their arguments. -/
inductive LockingCall where
  | llHandleLocking (offset : ℤ) (size : ℕ)
  | llRead (size : ℕ) (offset : ℤ)
  | llWrite (data : Octets) (offset : ℤ)

namespace LockingCall

variable {σ : Type} (serve : AfpRequest → StateM σ AfpReply) (cfg : MidlevelConfig)
variable (volume : MetadataVolume) (path q : Octets) (forkid : ℕ) (start : Volume) (s : σ)

/-- The lock that a call asks for. -/
def lock : LockingCall → Lock
  | llHandleLocking offset size => ⟨volume.avNumber, forkid, offset, size⟩
  | llRead size offset => readLock volume forkid size offset
  | llWrite data offset => writeLock volume forkid data offset

/-- Locked means locked: `ll_handle_locking` returns 0 only with the lock, and
no chunk goes out without it. -/
def Locked (call : LockingCall) : Prop :=
  cfg.noLocking = true ∨
    match call with
    | llHandleLocking offset size =>
        let (failed, c) :=
          (Client.llHandleLocking serve cfg forkid offset size).run (fresh start s)
        failed = false → (call.lock volume forkid).Granted c.journal
    | llRead size offset =>
        ChunksLocked (call.lock volume forkid) (((Client.calls serve cfg path q).llRead volume
          forkid size offset).run (fresh start s)).2.journal
    | llWrite data offset =>
        ChunksLocked (call.lock volume forkid) (((Client.calls serve cfg path q).llWrite volume
          forkid data offset).run (fresh start s)).2.journal

/-- The call asks for a lock and goes on from there. -/
def Sends : LockingCall → Prop
  | llHandleLocking _ _ => True
  | llRead size offset => ReadSends volume size offset
  | llWrite data _ => WriteSends volume data

/-- The server that the lock is asked of. -/
def asked : LockingCall → σ
  | llRead _ _ => serverAfterFlush serve (cfg.dirtyForks forkid) s
  | _ => s

end LockingCall

section Results

variable {σ : Type} (serve : AfpRequest → StateM σ AfpReply) (cfg : MidlevelConfig)
variable (volume : MetadataVolume) (path q : Octets) (forkid : ℕ) (start : Volume) (s : σ)

/-- **Locked means locked**, except after ten conflicts: this holds exactly if
locking is disabled, no chunk is to be sent, or one of ten requests for the
lock is answered with something else than a conflict, and has room for the
range if it is granted. -/
theorem chunks_locked_iff (call : LockingCall) :
    call.Locked serve cfg volume path q forkid start s ↔
      (cfg.noLocking = true ∨ (call.Sends volume →
        LockSettled serve (call.lock volume forkid) (call.asked serve cfg forkid s))) := by
  by_cases hlocking : cfg.noLocking = true
  · exact iff_of_true (.inl hlocking) (.inl hlocking)
  refine or_congr_right ?_
  have hoff : cfg.noLocking = false := Bool.eq_false_of_not_eq_true hlocking
  cases call with
  | llHandleLocking offset size =>
    refine Iff.trans ?_ true_imp_iff.symm
    exact granted_llHandleLocking (l := ⟨volume.avNumber, forkid, offset, size⟩) hoff _
      untouched_fresh
  | llRead size offset => exact chunksLocked_llRead hoff _ untouched_fresh
  | llWrite data offset => exact chunksLocked_llWrite hoff _ untouched_fresh

end Results

/-- A server on which the range is locked by another user, and which writes
all the same. -/
def conflicting : AfpRequest → StateM Unit AfpReply
  | .byterangelock false _ _ _ => return .ofCode kFPLockErr
  | .write _ offset data => return { AfpReply.ofCode 0 with size := offset + data.length }
  | _ => return .ofCode 0

/-- Ten conflicts: `ll_handle_locking` returns 0, and `ll_write` writes without
a lock. -/
theorem written_without_lock :
    (((Client.calls conflicting plainConfig [] []).llWrite plainVolume 7 [1] 0).run
        (fresh Volume.mounted ())).1 = (0, 1, true) ∧
      ¬(LockingCall.llHandleLocking 0 1).Locked conflicting plainConfig plainVolume [] [] 7
        Volume.mounted () ∧
      ¬(LockingCall.llWrite [1] 0).Locked conflicting plainConfig plainVolume [] [] 7
        Volume.mounted () := by
  have hsettled : ¬LockSettled conflicting (writeLock plainVolume 7 [1] 0) () := by decide
  refine ⟨by decide, ?_, ?_⟩
  · rintro (hoff | hlocked)
    · cases hoff
    · have hgranted : Ensures (Untouched (writeLock plainVolume 7 [1] 0) ())
          (llHandleLocking conflicting plainConfig 7 0 1) _ := granted_llHandleLocking rfl
      exact hsettled ((hgranted _ untouched_fresh).mp hlocked)
  · rintro (hoff | hlocked)
    · cases hoff
    · refine hsettled ((chunksLocked_llWrite rfl _ untouched_fresh).mp hlocked ?_)
      exact ⟨by decide, cons_ne_nil _ _⟩

end NetatalkClient
