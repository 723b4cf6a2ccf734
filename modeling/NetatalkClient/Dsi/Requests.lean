import NetatalkClient.Dsi.Model.Requests
/-!
# A request object has a single life

A request is released by its sender at the end of the call, or after a
flush by the same sender, who then finds `ignore_replies` set. Two steps
break this. The sender may release a request whose pointer the receiver
still holds between two of its sections; and the receiver releases a
request it finds nobody waiting for, while the sender has yet to come to
its own removal. `careful` excludes the two, and `single_life` says that
nothing else can go wrong, in any interleaving. No sender is left waiting
for ever: `waiting_wakes`.
-/

namespace NetatalkClient

open List Function ReceiverAt

namespace Requests

open Machine

variable {s s' : Requests} {r : ℕ} {pos : SenderAt}

/-- The condition on a step: a sender that is about to release a request
does not do so while the receiver has a pointer to it, and the receiver
does not come to the end of a packet for a request nobody waits for (one
sent without waiting, or answered before). -/
def careful (s : Requests) : RequestEvent → Bool
  | .remove r | .testIgnored r => s.receiver.holds != some r
  | .testAnswered => s.receiver.holds.all fun r => (s.object r).wait != 0
  | _ => true

/-- The machine all of whose steps are careful. -/
def carefulStep : Requests → RequestEvent → Option Requests :=
  guarded step fun s e => s.careful e = true

/-! ## The invariant -/

/-- What a careful run keeps: a request is released by its sender's
return and by nothing else, one that left the queue before that was
flushed, and the receiver holds only requests still in use. -/
structure Inv (s : Requests) : Prop where
  nodup : s.queue.Nodup
  queued : ∀ r ∈ s.queue, r < s.made ∧ s.sender r ≠ .returned ∧ s.sender r ≠ .unqueued
  released : ∀ r < s.made, s.released r = if s.sender r = .returned then 1 else 0
  flushed : ∀ r < s.made, r ∉ s.queue → s.sender r ≠ .returned →
    (s.object r).ignoreReplies = true
  held : ∀ r, s.receiver.holds = some r → r < s.made ∧ s.sender r ≠ .returned
  answered : ∀ r, s.receiver ≠ .removing r ∧ s.receiver ≠ .unqueued r

theorem inv_init : init.Inv where
  nodup := nodup_nil
  queued r hr := by cases hr
  released r hr := by cases hr
  flushed r hr := by cases hr
  held r hr := by cases hr
  answered r := ⟨by simp [init], by simp [init]⟩

/-- A sender moves on, without releasing anything. -/
theorem Inv.setSender (h : s.Inv) (hr : r < s.made) (hlive : s.sender r ≠ .returned)
    (hpos : pos ≠ .returned) (hqueue : r ∈ s.queue → pos ≠ .unqueued) :
    (s.setSender r pos).Inv where
  nodup := h.nodup
  queued q hq := by
    obtain ⟨hmade, hret, hun⟩ := h.queued q hq
    by_cases hqr : q = r
    · subst hqr
      simp [Requests.setSender, hmade, hpos, hqueue hq]
    · simpa [Requests.setSender, hqr] using ⟨hmade, hret, hun⟩
  released q hq := by
    by_cases hqr : q = r
    · subst hqr
      simpa [Requests.setSender, hpos, hlive] using h.released q hq
    · simpa [Requests.setSender, hqr] using h.released q hq
  flushed q hq hnot hret := by
    by_cases hqr : q = r
    · subst hqr
      exact h.flushed q hq hnot hlive
    · exact h.flushed q hq hnot (by simpa [Requests.setSender, hqr] using hret)
  held q hq := by
    obtain ⟨hmade, hret⟩ := h.held q hq
    by_cases hqr : q = r
    · subst hqr
      simp [Requests.setSender, hmade, hpos]
    · simpa [Requests.setSender, hqr] using ⟨hmade, hret⟩
  answered := h.answered

/-- Stores that leave `ignore_replies` set where it was are no concern of
the invariant. -/
theorem Inv.setObjects (h : s.Inv) {object : ℕ → DsiRequest}
    (hkeep : ∀ q, (s.object q).ignoreReplies = true → (object q).ignoreReplies = true) :
    Inv { s with object } where
  nodup := h.nodup
  queued := h.queued
  released := h.released
  flushed q hq hnot hret := hkeep q (h.flushed q hq hnot hret)
  held := h.held
  answered := h.answered

theorem Inv.setObject (h : s.Inv) (r : ℕ) {f : DsiRequest → DsiRequest}
    (hf : ∀ p, (f p).ignoreReplies = p.ignoreReplies) : (s.setObject r f).Inv := by
  refine h.setObjects fun q hq => ?_
  by_cases hqr : q = r
  · subst hqr
    simpa [hf] using hq
  · simpa [hqr] using hq

theorem Inv.setQueued (h : s.Inv) {f : DsiRequest → DsiRequest}
    (hf : ∀ p, p.ignoreReplies = true → (f p).ignoreReplies = true) : (s.setQueued f).Inv := by
  refine h.setObjects fun q hq => ?_
  split
  · exact hf _ hq
  · exact hq

/-- The receiver takes a pointer. -/
theorem Inv.setReceiver (h : s.Inv) {pos : ReceiverAt}
    (hheld : ∀ q, pos.holds = some q → q < s.made ∧ s.sender q ≠ .returned)
    (hpos : ∀ q, pos ≠ .removing q ∧ pos ≠ .unqueued q) : (s.setReceiver pos).Inv where
  nodup := h.nodup
  queued := h.queued
  released := h.released
  flushed := h.flushed
  held := hheld
  answered := hpos

/-- The receiver moves on with the pointer it has, or lets go of it. -/
theorem Inv.advance (h : s.Inv) {pos : ReceiverAt}
    (hheld : ∀ q, pos.holds = some q → s.receiver.holds = some q)
    (hpos : ∀ q, pos ≠ .removing q ∧ pos ≠ .unqueued q) : (s.setReceiver pos).Inv :=
  h.setReceiver (fun q hq => h.held q (hheld q hq)) hpos

/-- **The release.** A sender that holds the last pointer to a request
off the queue, or takes it off, releases it and returns. -/
theorem Inv.release (h : s.Inv) (hr : r < s.made) (hlive : s.sender r ≠ .returned)
    (hheld : s.receiver.holds ≠ some r) {queue : List ℕ} {object : ℕ → DsiRequest}
    (hqueue : queue = s.queue.erase r) (hobject : ∀ q, q ≠ r → object q = s.object q) :
    Inv { s with
      queue, object
      released := update s.released r (s.released r + 1)
      sender := update s.sender r .returned } where
  nodup := by
    rw [hqueue]
    exact h.nodup.erase r
  queued q hq := by
    rw [hqueue] at hq
    have hqr : q ≠ r := (h.nodup.mem_erase_iff.mp hq).1
    simpa [hqr] using h.queued q (mem_of_mem_erase hq)
  released q hq := by
    by_cases hqr : q = r
    · subst hqr
      have hzero := h.released q hq
      rw [if_neg hlive] at hzero
      simp [hzero]
    · simpa [hqr] using h.released q hq
  flushed q hq hnot hret := by
    by_cases hqr : q = r
    · subst hqr
      simp at hret
    · have hnot' : q ∉ s.queue := by
        intro hmem
        rw [hqueue] at hnot
        exact hnot ((mem_erase_of_ne hqr).mpr hmem)
      have hret' : s.sender q ≠ .returned := by simpa [hqr] using hret
      have hflag := h.flushed q hq hnot' hret'
      rwa [← hobject q hqr] at hflag
  held q hq := by
    have hqr : q ≠ r := by
      rintro rfl
      exact hheld hq
    simpa [hqr] using h.held q hq
  answered := h.answered

/-- The flush takes everything off the queue and marks it. -/
theorem Inv.flush (h : s.Inv) (hs : s.step .flush = some s') : s'.Inv := by
  cases hs
  refine ⟨nodup_nil, by simp, h.released, fun q hq _ hret => ?_, h.held, h.answered⟩
  simp only [Requests.setQueued]
  split
  · rfl
  · next hnot => exact h.flushed q hq hnot hret

/-! ## One step -/

theorem senderStep_eq_some {next : Requests} :
    s.senderStep r pos next = some s' ↔ r < s.made ∧ s.sender r = pos ∧ next = s' := by
  unfold senderStep
  split
  · next h => simp [h]
  · next h =>
    simp only [reduceCtorEq, false_iff]
    tauto

/-- A step in which a sender only moves on. -/
theorem inv_move (h : s.Inv) {after : SenderAt}
    (hs : s.senderStep r pos (s.setSender r after) = some s') (hpos : pos ≠ .returned)
    (hafter : after ≠ .returned ∧ after ≠ .unqueued) : s'.Inv := by
  obtain ⟨hr, hat, rfl⟩ := senderStep_eq_some.mp hs
  exact h.setSender hr (hat ▸ hpos) hafter.1 fun _ => hafter.2

/-- A new request joins the queue. -/
theorem inv_send (h : s.Inv) {requestid subcommand : ℕ} {wait : ℤ}
    (hs : s.step (.send requestid subcommand wait) = some s') : s'.Inv := by
  cases hs
  have hfresh : ∀ q ∈ s.queue, q ≠ s.made := fun q hq => (Nat.ne_of_lt (h.queued q hq).1)
  have hold : ∀ q, q < s.made + 1 → q ≠ s.made → q < s.made := by
    intro q hq hne
    omega
  constructor
  · refine nodup_append.mpr ⟨h.nodup, by simp, ?_⟩
    simpa using hfresh
  · intro q hq
    rcases mem_append.mp hq with hq | hq
    · obtain ⟨hmade, hret, hun⟩ := h.queued q hq
      have hne := hfresh q hq
      refine ⟨Nat.lt_succ_of_lt hmade, ?_⟩
      simpa [hne] using And.intro hret hun
    · obtain rfl := mem_singleton.mp hq
      simp
  · intro q hq
    by_cases hne : q = s.made
    · simp [hne]
    · simpa [hne] using h.released q (hold q hq hne)
  · intro q hq hnot hret
    have hne : q ≠ s.made := by
      rintro rfl
      exact hnot (mem_append_right _ (mem_singleton.mpr rfl))
    have hflag := h.flushed q (hold q hq hne) (fun hmem => hnot (mem_append_left _ hmem))
      (by simpa [hne] using hret)
    simpa [hne] using hflag
  · intro q hq
    obtain ⟨hmade, hret⟩ := h.held q hq
    have hne : q ≠ s.made := Nat.ne_of_lt hmade
    refine ⟨Nat.lt_succ_of_lt hmade, ?_⟩
    simpa [hne] using hret
  · exact h.answered

/-- The two steps in which a sender can release its request. -/
theorem inv_remove (h : s.Inv) (hheld : s.receiver.holds ≠ some r)
    (hs : s.step (.remove r) = some s') : s'.Inv := by
  obtain ⟨hr, hat, rfl⟩ := senderStep_eq_some.mp hs
  have hlive : s.sender r ≠ .returned := by simp [hat]
  split
  · exact h.release hr hlive hheld rfl fun q hq => update_of_ne hq _ _
  · next hnot => exact h.setSender hr hlive (by decide) fun hmem => absurd hmem hnot

theorem inv_testIgnored (h : s.Inv) (hheld : s.receiver.holds ≠ some r)
    (hs : s.step (.testIgnored r) = some s') : s'.Inv := by
  obtain ⟨hr, hat, rfl⟩ := senderStep_eq_some.mp hs
  have hlive : s.sender r ≠ .returned := by simp [hat]
  have hnot : r ∉ s.queue := fun hmem => (h.queued r hmem).2.2 hat
  -- off the queue and not returned: it was flushed
  rw [if_pos (h.flushed r hr hnot hlive)]
  exact h.release hr hlive hheld (erase_of_not_mem hnot).symm fun _ _ => rfl

theorem mem_queue_of_find {requestid : ℕ} (hf : s.find requestid = some r) : r ∈ s.queue :=
  mem_of_find?_eq_some hf

/-- **One careful step keeps the invariant**, by cases on the event. -/
theorem inv_step {e : RequestEvent} (h : s.Inv) (hs : carefulStep s e = some s') : s'.Inv := by
  obtain ⟨hcareful, hstep⟩ := guarded_eq_some.mp hs
  cases e with
  | send requestid subcommand wait => exact inv_send h hstep
  | write r => exact inv_move h hstep (by decide) (by decide)
  | writeError r =>
    obtain ⟨hr, hat, rfl⟩ := senderStep_eq_some.mp hstep
    apply Inv.setSender
    · exact h.setObject r fun _ => rfl
    · exact hr
    · exact fun hret => absurd (hat.symm.trans hret) (by decide)
    · decide
    · exact fun _ => by decide
  | testWait r =>
    refine inv_move h hstep (by decide) ?_
    split
    · decide
    · decide
  | wake r =>
    simp only [step] at hstep
    split at hstep
    · exact inv_move h hstep (by decide) (by decide)
    · cases hstep
  | giveUp r => exact inv_move h hstep (by decide) (by decide)
  | readReturnCode r => exact inv_move h hstep (by decide) (by decide)
  | remove r => exact inv_remove h (by simpa [careful] using hcareful) hstep
  | testIgnored r => exact inv_testIgnored h (by simpa [careful] using hcareful) hstep
  | findRequest requestid =>
    simp only [step] at hstep
    split at hstep
    · next r hidle hf =>
      cases hstep
      refine h.setReceiver (fun q hq => ?_) fun q => ⟨by simp, by simp⟩
      cases hq
      obtain ⟨hmade, hret, -⟩ := h.queued _ (mem_queue_of_find hf)
      exact ⟨hmade, hret⟩
    · cases hstep
      exact h
    · cases hstep
  | compareGeneration =>
    simp only [step] at hstep
    split at hstep
    · next r hat =>
      cases hstep
      split
      · exact h.advance (by simp [hat, holds]) (by simp)
      · exact h.advance (by simp [holds]) (by simp)
    · cases hstep
  | storeReturnCode code =>
    simp only [step] at hstep
    split at hstep
    · next r hat =>
      cases hstep
      apply Inv.advance
      · exact h.setObject r fun _ => rfl
      · simp [Requests.setObject, hat, holds]
      · simp
    · cases hstep
  | returnEarly =>
    simp only [step] at hstep
    split at hstep
    · cases hstep
      exact h.advance (by simp [holds]) (by simp)
    · cases hstep
  | handle result =>
    simp only [step] at hstep
    split at hstep
    · next r hat =>
      cases hstep
      apply Inv.advance
      · refine h.setObject r fun p => ?_
        split <;> rfl
      · simp [Requests.setObject, hat, holds]
      · simp
    · cases hstep
  | testAnswered =>
    simp only [step] at hstep
    split at hstep
    · next r hat =>
      cases hstep
      -- somebody waits, so the receiver goes on to wake them
      have hwait : (s.object r).wait ≠ 0 := by
        simpa [careful, hat, holds] using hcareful
      rw [if_pos hwait]
      exact h.advance (by simp [hat, holds]) (by simp)
    · cases hstep
  | signal =>
    simp only [step] at hstep
    split at hstep
    · next r hat =>
      cases hstep
      apply Inv.advance
      · exact h.setObject r fun _ => rfl
      · simp [holds]
      · simp
    · cases hstep
  | removeAnswered =>
    simp only [step] at hstep
    split at hstep
    · next r hat => exact absurd hat (h.answered r).1
    · cases hstep
  | testAnsweredIgnored =>
    simp only [step] at hstep
    split at hstep
    · next r hat => exact absurd hat (h.answered r).2
    · cases hstep
  | flush =>
    cases hstep
    exact h.flush rfl
  | fail error =>
    cases hstep
    exact h.setQueued fun _ hp => hp
  | nextConnection =>
    cases hstep
    exact ⟨h.nodup, h.queued, h.released, h.flushed, h.held, h.answered⟩

/-! ## Whole runs -/

theorem inv_of_reachable (h : Reachable carefulStep init s) : s.Inv := h.invariant inv_init inv_step

/-- A request whose sender has not returned is there. -/
theorem Inv.released_eq_zero (h : s.Inv) (hr : r < s.made) (hlive : s.sender r ≠ .returned) :
    s.released r = 0 := by
  rw [h.released r hr, if_neg hlive]

theorem Inv.queued_live (h : s.Inv) : ∀ r ∈ s.queue, s.released r = 0 := by
  intro r hr
  obtain ⟨hmade, hret, -⟩ := h.queued r hr
  exact h.released_eq_zero hmade hret

theorem Inv.held_live (h : s.Inv) : ∀ r ∈ s.receiver.holds.toList, s.released r = 0 := by
  intro r hr
  obtain ⟨hmade, hret⟩ := h.held r (Option.mem_toList.mp hr)
  exact h.released_eq_zero hmade hret

/-- No step touches a request that was released, whether it is careful or
not: a careless one only makes the next touch possible. -/
theorem Inv.touches_live (h : s.Inv) {e : RequestEvent} (hs : s.step e = some s') :
    ∀ r ∈ s.touches e, s.released r = 0 := by
  -- a sender's step is at a place before its return
  have hsender : ∀ {q pos next}, s.senderStep q pos next = some s' → pos ≠ .returned →
      ∀ r ∈ [q], s.released r = 0 := by
    intro q pos next hq hpos r hr
    obtain ⟨hmade, hat, -⟩ := senderStep_eq_some.mp hq
    obtain rfl := mem_singleton.mp hr
    exact h.released_eq_zero hmade (hat ▸ hpos)
  cases e with
  | send _ _ _ => exact h.queued_live
  | findRequest _ => exact h.queued_live
  | flush => exact h.queued_live
  | fail _ => exact h.queued_live
  | remove _ => exact h.queued_live
  | removeAnswered => exact h.queued_live
  | write _ => exact fun r hr => by cases hr
  | returnEarly => exact fun r hr => by cases hr
  | nextConnection => exact fun r hr => by cases hr
  | writeError q => exact hsender hs (by decide)
  | testWait q => exact hsender hs (by decide)
  | wake q =>
    simp only [step] at hs
    split at hs
    · exact hsender hs (by decide)
    · cases hs
  | giveUp q => exact hsender hs (by decide)
  | readReturnCode q => exact hsender hs (by decide)
  | testIgnored q => exact hsender hs (by decide)
  | compareGeneration => exact h.held_live
  | storeReturnCode _ => exact h.held_live
  | handle _ => exact h.held_live
  | testAnswered => exact h.held_live
  | signal => exact h.held_live
  | testAnsweredIgnored => exact h.held_live

/-- **A request object has a single life.** In every state of every run
whose steps are careful, a request has been released once if its sender
has returned and not at all before that, and no step that is possible
reads or writes a released request. -/
theorem single_life (h : Reachable carefulStep init s) :
    (∀ r < s.made, s.released r = if s.sender r = .returned then 1 else 0) ∧
      ∀ e s', s.step e = some s' → ∀ r ∈ s.touches e, s.released r = 0 :=
  ⟨(inv_of_reachable h).released, fun _ _ hs => (inv_of_reachable h).touches_live hs⟩

/-- A request answered, and one flushed while its sender waits. -/
def answeredAndFlushed : List RequestEvent :=
  [.send 1 8 5, .send 2 8 5, .write 0, .write 1, .testWait 0, .testWait 1,
    .findRequest 1, .compareGeneration, .storeReturnCode 0, .handle 0, .testAnswered, .signal,
    .wake 0, .readReturnCode 0, .remove 0,
    .flush, .wake 1, .readReturnCode 1, .remove 1, .testIgnored 1]

theorem single_life_answeredAndFlushed :
    ∃ s, run carefulStep init answeredAndFlushed = some s ∧ s.released 0 = 1 ∧
      s.released 1 = 1 := by
  have hsome : (run carefulStep init answeredAndFlushed).isSome = true := by decide
  obtain ⟨s, hs⟩ := Option.isSome_iff_exists.mp hsome
  have hret : (run carefulStep init answeredAndFlushed).map
      (fun s => (s.made, s.sender 0, s.sender 1)) = some (2, .returned, .returned) := by decide
  simp only [hs, Option.map_some, Option.some.injEq, Prod.mk.injEq] at hret
  obtain ⟨hmade, h0, h1⟩ := hret
  obtain ⟨hreleased, -⟩ := single_life (reachable_of_run hs)
  refine ⟨s, hs, ?_, ?_⟩
  · rw [hreleased 0 (by omega), if_pos h0]
  · rw [hreleased 1 (by omega), if_pos h1]

/-- **A reply that meets a timeout.** The receiver has found the request,
its sender times out and releases it, and the receiver goes on to read its
generation. -/
theorem released_under_receiver :
    ∃ s, run step init [.send 1 8 5, .write 0, .testWait 0, .findRequest 1, .giveUp 0, .remove 0] =
        some s ∧
      (s.step .compareGeneration).isSome = true ∧
      ∃ r ∈ s.touches .compareGeneration, s.released r = 1 :=
  ⟨_, rfl, rfl, 0, by decide, rfl⟩

/-! ## Waiting -/

/-- What is off the queue has been signalled. -/
def Signalled (s : Requests) : Prop :=
  ∀ r < s.made, r ∉ s.queue → (s.object r).doneWaiting = true

/-- A store through a pointer takes no signal back. -/
theorem update_doneWaiting {object : ℕ → DsiRequest} {p : DsiRequest} {q : ℕ}
    (hp : (object r).doneWaiting = true → p.doneWaiting = true)
    (hq : (object q).doneWaiting = true) : (update object r p q).doneWaiting = true := by
  by_cases hqr : q = r
  · rw [hqr, update_self]
    exact hp (hqr ▸ hq)
  · rwa [update_of_ne hqr]

/-- Whoever takes a request off the queue signals it in the same section. -/
theorem Signalled.unlink (h : s.Signalled) : (s.unlink r).Signalled := by
  intro q hq hnot
  show (update s.object r (s.object r).signal q).doneWaiting = true
  by_cases hqr : q = r
  · rw [hqr, update_self]
    rfl
  · rw [update_of_ne hqr]
    exact h q hq fun hmem => hnot ((mem_erase_of_ne hqr).mpr hmem)

theorem signalled_sender {next : Requests} (hs : s.senderStep r pos next = some s')
    (h : next.Signalled) : s'.Signalled := by
  obtain ⟨-, -, rfl⟩ := senderStep_eq_some.mp hs
  exact h

/-- **One step of any thread keeps it**, a careless one as well. -/
theorem signalled_step {e : RequestEvent} (h : s.Signalled) (hs : s.step e = some s') :
    s'.Signalled := by
  cases e with
  | send requestid subcommand wait =>
    cases hs
    intro q (hq : q < s.made + 1) hnot
    have hne : q ≠ s.made := by
      rintro rfl
      simp at hnot
    simpa [hne] using h q (by omega) fun hmem => hnot (mem_append_left _ hmem)
  | write r | testWait r | giveUp r | readReturnCode r => exact signalled_sender hs h
  | writeError r =>
    exact signalled_sender hs fun q hq hnot => update_doneWaiting id (h q hq hnot)
  | wake r =>
    simp only [step] at hs
    split at hs
    · exact signalled_sender hs h
    · cases hs
  | remove r =>
    refine signalled_sender hs ?_
    split
    · exact h.unlink
    · exact h
  | testIgnored r =>
    refine signalled_sender hs ?_
    split <;> exact h
  | findRequest _ | compareGeneration | returnEarly | testAnswered =>
    simp only [step] at hs
    split at hs <;> cases hs <;> exact h
  | storeReturnCode _ | handle _ | signal =>
    simp only [step] at hs
    split at hs <;> cases hs
    refine fun q hq hnot => update_doneWaiting (fun hp => ?_) (h q hq hnot)
    grind [DsiRequest.signal]
  | removeAnswered =>
    simp only [step] at hs
    split at hs <;> cases hs
    split
    · exact h.unlink
    · exact h
  | testAnsweredIgnored =>
    simp only [step] at hs
    split at hs <;> cases hs
    split <;> exact h
  | flush =>
    cases hs
    intro q hq _
    simp only [setQueued]
    split
    · rfl
    · next hnot => exact h q hq hnot
  | fail error =>
    cases hs
    intro q hq hnot
    simpa [setQueued, show q ∉ s.queue from hnot] using h q hq hnot
  | nextConnection =>
    cases hs
    exact h

/-- **No sender is left waiting.** In every state of every run, careful or
not, a sender that waits has been signalled, or its request is on the queue
for a reply to find; and once the queue is flushed or failed, it can go on. -/
theorem waiting_wakes (h : Reachable step init s) (hr : r < s.made)
    (hwait : s.sender r = .waiting) :
    ((s.object r).doneWaiting = true ∨ r ∈ s.queue) ∧
      ∀ s' error, s.step .flush = some s' ∨ s.step (.fail error) = some s' →
        (s'.step (.wake r)).isSome = true := by
  have hdone : r ∉ s.queue → (s.object r).doneWaiting = true :=
    h.invariant (fun q hq => absurd hq q.not_lt_zero) signalled_step r hr
  refine ⟨(em (r ∈ s.queue)).elim .inr fun hnot => .inl (hdone hnot), ?_⟩
  rintro s' error (hs | hs)
  all_goals
    cases hs
    by_cases hqueue : r ∈ s.queue
    · simp [step, setQueued, hqueue, DsiRequest.signal, senderStep, hr, hwait]
    · simp [step, setQueued, hqueue, hdone hqueue, senderStep, hr, hwait]

theorem waiting_wakes_flush : ∃ s s', run step init [.send 1 8 5, .write 0, .testWait 0] = some s ∧
    s.step .flush = some s' ∧ (s'.step (.wake 0)).isSome = true := by
  obtain ⟨s, hs, hmade, hwait⟩ : ∃ s, run step init [.send 1 8 5, .write 0, .testWait 0] = some s ∧
      0 < s.made ∧ s.sender 0 = .waiting := ⟨_, rfl, by decide, rfl⟩
  exact ⟨s, _, hs, rfl,
    (waiting_wakes (reachable_of_run hs) hmade hwait).2 _ 0 (.inl rfl)⟩

end Requests

end NetatalkClient
