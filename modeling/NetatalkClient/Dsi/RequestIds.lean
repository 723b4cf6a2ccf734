import NetatalkClient.Dsi.Model.RequestIds
/-!
# Request ids identify requests

Two requests with one id can be queued at once in two ways. A header may
be drawn before the counter restarts and queued after it, because the send
itself reconnects in between. And a request may be queued before the
restart and still be there after it. `inEpoch` excludes both; with fewer
than 65535 headers drawn while a request is on its way, the ids of all
queued requests then differ (`queued_ids_distinct`).
-/

namespace NetatalkClient

open List

namespace RequestIds

open Machine

variable {s s' : RequestIds} {k : ℕ} {e : RequestIdEvent} {last a d : ℕ} {pos : HeaderAt}

/-- Fewer than 65535 headers are set up from a request's own header to its
removal from the queue. The count is taken when a header is set up and
when a request joins the queue. -/
def inWindow (s : RequestIds) : RequestIdEvent → Bool
  | .setupHeader => s.queue.all fun k => s.drawn - k < 65535
  | .append k => s.drawn - (k + 1) < 65535
  | _ => true

/-- The condition: a request is queued under the numbering its header was
drawn from, and the numbering starts again only with an empty queue. -/
def inEpoch (s : RequestIds) : RequestIdEvent → Bool
  | .append k => s.epochOf k == s.epoch
  | .establish => s.supportsReplayCache || s.queue.isEmpty
  | _ => true

/-- The machine all of whose steps meet both. -/
def stepInEpoch : RequestIds → RequestIdEvent → Option RequestIds :=
  guarded step fun s e => s.inWindow e = true ∧ s.inEpoch e = true

/-! ## The numbering -/

/-- `last` is `d` ids after `a`, perhaps over the end of the range, from
which the numbering goes on with 0 or with 1. -/
def After (a last d : ℕ) : Prop :=
  last = a + d ∨ last + 65536 = a + d ∨ last + 65535 = a + d

/-- One more id drawn. Within 65534 ids the range ends at most once. -/
theorem After.next (h : After a last d) (ha : a ≤ 65535) (hd : d + 1 < 65535)
    (cache : Bool) : After a (nextRequestid cache last) (d + 1) := by
  unfold After nextRequestid at *
  split
  · split <;> omega
  · omega

/-- Within 65534 ids the first does not come again. -/
theorem After.ne (h : After a last d) (h0 : 0 < d) (hd : d < 65535) : last ≠ a := by
  unfold After at h
  omega

/-- The ids drawn since the counter last started are consecutive. -/
structure Numbered (s : RequestIds) : Prop where
  last : s.lastrequestid ≤ 65535
  bound : ∀ i < s.drawn, s.requestid i ≤ 65535
  after : ∀ i < s.drawn, s.epochOf i = s.epoch → s.drawn - (i + 1) < 65535 →
    After (s.requestid i) s.lastrequestid (s.drawn - (i + 1))
  distinct : ∀ i j, i < j → j < s.drawn → s.epochOf i = s.epochOf j → j - i < 65535 →
    s.requestid i ≠ s.requestid j
  past : ∀ i < s.drawn, s.epochOf i ≤ s.epoch

theorem nextRequestid_le (h : last ≤ 65535) (cache : Bool) : nextRequestid cache last ≤ 65535 := by
  unfold nextRequestid
  split
  · split <;> omega
  · omega

theorem numbered_setupHeader (h : s.Numbered) (hs : s.step .setupHeader = some s') :
    s'.Numbered := by
  cases hs
  have hnew : ∀ i < s.drawn, s.epochOf i = s.epoch → s.drawn - i < 65535 →
      After (s.requestid i) (nextRequestid s.supportsReplayCache s.lastrequestid)
        (s.drawn - i) := by
    intro i hi hepoch hd
    have hprev := (h.after i hi hepoch (by omega)).next (h.bound i hi) (by omega)
      s.supportsReplayCache
    rwa [show s.drawn - (i + 1) + 1 = s.drawn - i by omega] at hprev
  have hold : ∀ i, i < s.drawn + 1 → i ≠ s.drawn → i < s.drawn := by
    intro i hi hne
    omega
  constructor
  · exact nextRequestid_le h.last _
  · intro i hi
    by_cases hik : i = s.drawn
    · subst hik
      simpa using nextRequestid_le h.last _
    · simpa [hik] using h.bound i (hold i hi hik)
  · intro i hi hepoch hd
    by_cases hik : i = s.drawn
    · subst hik
      simp [After]
    · have hepoch' : s.epochOf i = s.epoch := by simpa [hik] using hepoch
      have hd' : s.drawn - i < 65535 := by
        have : s.drawn + 1 - (i + 1) < 65535 := hd
        omega
      simpa [hik] using hnew i (hold i hi hik) hepoch' hd'
  · intro i j hij hj hepoch hd
    have hi : i ≠ s.drawn := by
      have : j < s.drawn + 1 := hj
      omega
    by_cases hjk : j = s.drawn
    · subst hjk
      have hepoch' : s.epochOf i = s.epoch := by simpa [hi] using hepoch
      have hne := (hnew i hij hepoch' hd).ne (by omega) hd
      simpa [hi] using hne.symm
    · have hepoch' : s.epochOf i = s.epochOf j := by simpa [hi, hjk] using hepoch
      simpa [hi, hjk] using h.distinct i j hij (hold j hj hjk) hepoch' hd
  · intro i hi
    by_cases hik : i = s.drawn
    · subst hik
      simp
    · simpa [hik] using h.past i (hold i hi hik)

/-- A step that leaves the counter and the headers alone. -/
theorem Numbered.congr (h : s.Numbered) (hlast : s'.lastrequestid = s.lastrequestid)
    (hdrawn : s'.drawn = s.drawn) (hid : s'.requestid = s.requestid)
    (hof : s'.epochOf = s.epochOf) (hepoch : s'.epoch = s.epoch) : s'.Numbered := by
  refine ⟨?_, ?_, ?_, ?_, ?_⟩
  · rw [hlast]
    exact h.last
  · rw [hdrawn, hid]
    exact h.bound
  · rw [hdrawn, hof, hepoch, hid, hlast]
    exact h.after
  · rw [hdrawn, hof, hid]
    exact h.distinct
  · rw [hdrawn, hof, hepoch]
    exact h.past

/-- The counter starts again: nothing has been drawn from it yet. -/
theorem Numbered.restart (h : s.Numbered) (hlast : s'.lastrequestid = 0)
    (hdrawn : s'.drawn = s.drawn) (hid : s'.requestid = s.requestid)
    (hof : s'.epochOf = s.epochOf) (hepoch : s'.epoch = s.epoch + 1) : s'.Numbered := by
  refine ⟨?_, ?_, ?_, ?_, ?_⟩
  · rw [hlast]
    exact Nat.zero_le _
  · rw [hdrawn, hid]
    exact h.bound
  · intro i hi hcur
    rw [hdrawn] at hi
    rw [hof, hepoch] at hcur
    have := h.past i hi
    omega
  · rw [hdrawn, hof, hid]
    exact h.distinct
  · intro i hi
    rw [hdrawn] at hi
    rw [hof, hepoch]
    exact Nat.le_succ_of_le (h.past i hi)

/-! ## The queue -/

/-- Queued requests were drawn from the present numbering, not long ago,
and a sender in the middle of a reconnect has not queued its own. -/
structure Queued (s : RequestIds) : Prop where
  nodup : s.queue.Nodup
  position : ∀ k ∈ s.queue, k < s.drawn ∧ ∃ g, s.position k = .queued g
  epoch : ∀ k ∈ s.queue, s.epochOf k = s.epoch
  window : ∀ k ∈ s.queue, s.drawn - (k + 1) < 65535
  sender : ∀ k pos, s.reconnect = some (some k, pos) → k < s.drawn ∧ s.position k = .drawn

theorem reconnecting_iff : s.reconnecting k = true ↔ ∃ pos, s.reconnect = some (some k, pos) := by
  unfold reconnecting
  cases s.reconnect with
  | none => simp
  | some p => simp [Prod.ext_iff]

theorem Queued.not_mem (h : s.Queued) (hk : ∀ g, s.position k ≠ .queued g) : k ∉ s.queue := by
  intro hmem
  obtain ⟨-, g, hg⟩ := h.position k hmem
  exact hk g hg

/-- A header off the queue moves on. -/
theorem Queued.move (h : s.Queued) (hk : k ∉ s.queue)
    (hsender : s.reconnecting k = false) : (s.move k pos).Queued where
  nodup := h.nodup
  position q hq := by
    have hne : q ≠ k := fun heq => hk (heq ▸ hq)
    simpa [RequestIds.move, hne] using h.position q hq
  epoch := h.epoch
  window := h.window
  sender q at' hq := by
    have hne : q ≠ k := by
      rintro rfl
      have hrec : s.reconnecting q = true := reconnecting_iff.mpr ⟨at', hq⟩
      rw [hrec] at hsender
      cases hsender
    simpa [RequestIds.move, hne] using h.sender q at' hq

/-- The request joins the queue. -/
theorem queued_append (h : s.Queued) (hok : s.inWindow (.append k) = true ∧
    s.inEpoch (.append k) = true) (hs : s.step (.append k) = some s') : s'.Queued := by
  simp only [step] at hs
  split at hs
  · next g hat =>
    split at hs
    · next hk =>
      cases hs
      have hnot : k ∉ s.queue := h.not_mem (by simp [hat])
      refine ⟨?_, ?_, ?_, ?_, ?_⟩
      · refine nodup_append.mpr ⟨h.nodup, by simp, ?_⟩
        simp only [mem_singleton, forall_eq]
        exact fun q hq heq => hnot (heq ▸ hq)
      · intro q hq
        rcases mem_append.mp hq with hq | hq
        · have hne : q ≠ k := fun heq => hnot (heq ▸ hq)
          simpa [RequestIds.move, hne] using h.position q hq
        · obtain rfl := mem_singleton.mp hq
          simpa [RequestIds.move] using hk
      · intro q hq
        rcases mem_append.mp hq with hq | hq
        · exact h.epoch q hq
        · obtain rfl := mem_singleton.mp hq
          simpa [inEpoch, RequestIds.move] using hok.2
      · intro q hq
        rcases mem_append.mp hq with hq | hq
        · exact h.window q hq
        · obtain rfl := mem_singleton.mp hq
          simpa [inWindow, RequestIds.move] using hok.1
      · intro q pos hq
        obtain ⟨hlt, hdrawn⟩ := h.sender q pos hq
        have hne : q ≠ k := by
          rintro rfl
          rw [hat] at hdrawn
          cases hdrawn
        simpa [RequestIds.move, hne] using ⟨hlt, hdrawn⟩
    · cases hs
  · cases hs

theorem queued_remove (h : s.Queued) (hs : s.step (.remove k) = some s') : s'.Queued := by
  simp only [step] at hs
  split at hs
  · next hk =>
    cases hs
    have hmem : ∀ q ∈ s.queue.erase k, q ≠ k ∧ q ∈ s.queue := fun q hq =>
      h.nodup.mem_erase_iff.mp hq
    refine ⟨h.nodup.erase k, ?_, ?_, ?_, ?_⟩
    · intro q hq
      obtain ⟨hne, hq'⟩ := hmem q hq
      simpa [RequestIds.move, hne] using h.position q hq'
    · exact fun q hq => h.epoch q (hmem q hq).2
    · exact fun q hq => h.window q (hmem q hq).2
    · intro q pos hq
      obtain ⟨hlt, hdrawn⟩ := h.sender q pos hq
      have hne : q ≠ k := by
        rintro rfl
        obtain ⟨-, g, hg⟩ := h.position _ hk
        rw [hdrawn] at hg
        cases hg
      simpa [RequestIds.move, hne] using ⟨hlt, hdrawn⟩
  · cases hs

theorem queued_setupHeader (h : s.Queued) (hok : s.inWindow .setupHeader = true)
    (hs : s.step .setupHeader = some s') : s'.Queued := by
  cases hs
  have hfresh : ∀ q, q < s.drawn → q ≠ s.drawn := fun q hq => Nat.ne_of_lt hq
  refine ⟨h.nodup, ?_, ?_, ?_, ?_⟩
  · intro q hq
    obtain ⟨hlt, hpos⟩ := h.position q hq
    refine ⟨Nat.lt_succ_of_lt hlt, ?_⟩
    simpa [hfresh q hlt] using hpos
  · intro q hq
    simpa [hfresh q (h.position q hq).1] using h.epoch q hq
  · intro q hq
    simp only [inWindow, all_eq_true, decide_eq_true_eq] at hok
    have := hok q hq
    change s.drawn + 1 - (q + 1) < 65535
    omega
  · intro q pos hq
    obtain ⟨hlt, hdrawn⟩ := h.sender q pos hq
    refine ⟨Nat.lt_succ_of_lt hlt, ?_⟩
    simpa [hfresh q hlt] using hdrawn

/-! ## One step -/

structure Inv (s : RequestIds) : Prop where
  numbered : s.Numbered
  queued : s.Queued

theorem inv_init : init.Inv := by
  refine ⟨⟨Nat.zero_le _, ?_, ?_, ?_, ?_⟩, nodup_nil, ?_, ?_, ?_, ?_⟩
  all_goals simp [init]

theorem Inv.move (h : s.Inv) (hk : ∀ g, s.position k ≠ .queued g)
    (hsender : s.reconnecting k = false) : (s.move k pos).Inv where
  numbered := h.numbered.congr rfl rfl rfl rfl rfl
  queued := h.queued.move (h.queued.not_mem hk) hsender

/-- Steps of the connection leave the headers alone, as long as a sender
that reconnects has not queued its own. -/
theorem Inv.connection (h : s.Inv) {supportsReplayCache : Bool} {connectionGeneration : ℕ}
    {connectState : ConnectState} {reconnect : Option (Option ℕ × ReconnectAt)}
    (hsender : ∀ k pos, reconnect = some (some k, pos) → k < s.drawn ∧ s.position k = .drawn) :
    Inv { s with supportsReplayCache, connectionGeneration, connectState, reconnect } where
  numbered := h.numbered.congr rfl rfl rfl rfl rfl
  queued := ⟨h.queued.nodup, h.queued.position, h.queued.epoch, h.queued.window, hsender⟩

/-- The flush at the start of a reconnect empties the queue. -/
theorem inv_beginReconnect (h : s.Inv) {sender : Option ℕ}
    (hs : s.step (.beginReconnect sender) = some s') : s'.Inv := by
  simp only [step] at hs
  split at hs
  · next hcond =>
    cases hs
    refine ⟨h.numbered.congr rfl rfl rfl rfl rfl, nodup_nil, by simp, by simp, by simp, ?_⟩
    intro k pos hk
    simp only [Option.some.injEq, Prod.mk.injEq] at hk
    obtain ⟨hlt, hdrawn, -⟩ := hcond.2 k hk.1
    have hnot : k ∉ s.queue := h.queued.not_mem (by simp [hdrawn])
    exact ⟨hlt, by simpa [hnot] using hdrawn⟩
  · cases hs

/-- The new connection restarts the counter, with nothing queued, unless
ids persist. -/
theorem inv_establish (h : s.Inv) (hok : s.inEpoch .establish = true)
    (hs : s.step .establish = some s') : s'.Inv := by
  simp only [step] at hs
  split at hs
  · next sender hrec =>
    have hsender : ∀ k pos, some (sender, ReconnectAt.opening) = some (some k, pos) →
        k < s.drawn ∧ s.position k = .drawn := by
      intro k pos hk
      simp only [Option.some.injEq, Prod.mk.injEq] at hk
      exact h.queued.sender k .numbered (by rw [hrec, hk.1])
    split at hs
    · cases hs
      exact h.connection hsender
    · next hcache =>
      cases hs
      have hempty : s.queue = [] := by simpa [inEpoch, hcache] using hok
      refine ⟨h.numbered.restart rfl rfl rfl rfl rfl, h.queued.nodup, h.queued.position, ?_,
        h.queued.window, hsender⟩
      intro k hk
      have hk' : k ∈ s.queue := hk
      rw [hempty] at hk'
      cases hk'
  · cases hs

/-- The sender that reconnected goes on with its own request, or gives it
up. -/
theorem inv_finishReconnect (h : s.Inv) {success : Bool}
    (hs : s.step (.finishReconnect success) = some s') : s'.Inv := by
  simp only [step] at hs
  split at hs
  · next sender pos hrec =>
    split at hs
    · cases hs
    · cases hs
      have hidle : Inv { s with
          connectState := if success = true then .connected else .disconnected
          reconnect := none } := h.connection (by simp)
      cases sender with
      | none => exact hidle
      | some k =>
        refine hidle.move (fun g hg => ?_) rfl
        have hdrawn := (h.queued.sender k pos hrec).2
        rw [hdrawn] at hg
        cases hg
  · cases hs

/-- **One step that meets the conditions keeps the invariant.** -/
theorem inv_step (h : s.Inv) (hs : stepInEpoch s e = some s') : s'.Inv := by
  obtain ⟨hok, hstep⟩ := guarded_eq_some.mp hs
  cases e with
  | setupHeader =>
    exact ⟨numbered_setupHeader h.numbered hstep, queued_setupHeader h.queued hok.1 hstep⟩
  | lose =>
    cases hstep
    exact h.connection h.queued.sender
  | enter k =>
    simp only [step] at hstep
    split at hstep
    · next hcond =>
      cases hstep
      exact h.move (by simp [hcond.2.1]) (by simpa using hcond.2.2.1)
    · cases hstep
  | refuse k =>
    simp only [step] at hstep
    split at hstep
    · next hcond =>
      cases hstep
      refine h.move (fun g hg => ?_) (by simpa using hcond.2.2)
      rcases hcond.2.1 with hat | hat <;> rw [hat] at hg <;> cases hg
    · cases hstep
  | beginReconnect sender => exact inv_beginReconnect h hstep
  | nextGeneration =>
    simp only [step] at hstep
    split at hstep
    · next sender hrec =>
      cases hstep
      refine h.connection fun k pos hk => ?_
      simp only [Option.some.injEq, Prod.mk.injEq] at hk
      exact h.queued.sender k .begun (by rw [hrec, hk.1])
    · cases hstep
  | establish => exact inv_establish h hok.2 hstep
  | finishReconnect success => exact inv_finishReconnect h hstep
  | announceReplayCache =>
    cases hstep
    exact h.connection h.queued.sender
  | stamp k =>
    simp only [step] at hstep
    split at hstep
    · next hcond =>
      cases hstep
      refine h.move (by simp [hcond.2]) ?_
      -- a sender in a reconnect has not got this far
      rw [← Bool.not_eq_true]
      intro hrec
      obtain ⟨pos, hpos⟩ := reconnecting_iff.mp hrec
      have hdrawn := (h.queued.sender k pos hpos).2
      rw [hcond.2] at hdrawn
      cases hdrawn
    · cases hstep
  | append k =>
    have hq := queued_append h.queued hok hstep
    refine ⟨?_, hq⟩
    simp only [step] at hstep
    split at hstep
    · split at hstep
      · cases hstep
        exact h.numbered.congr rfl rfl rfl rfl rfl
      · cases hstep
    · cases hstep
  | remove k =>
    have hq := queued_remove h.queued hstep
    refine ⟨?_, hq⟩
    simp only [step] at hstep
    split at hstep
    · cases hstep
      exact h.numbered.congr rfl rfl rfl rfl rfl
    · cases hstep

/-! ## Whole runs -/

theorem inv_of_reachable (h : Reachable stepInEpoch init s) : s.Inv := h.invariant inv_init inv_step

theorem Inv.ids_distinct (h : s.Inv) {i j : ℕ} (hi : i ∈ s.queue) (hj : j ∈ s.queue)
    (hlt : i < j) : s.requestid i ≠ s.requestid j := by
  have hwindow := h.queued.window i hi
  have hdrawn := (h.queued.position j hj).1
  refine h.numbered.distinct i j hlt hdrawn ?_ (by omega)
  rw [h.queued.epoch i hi, h.queued.epoch j hj]

/-- **Request ids identify requests.** In every run whose steps meet the
two conditions, whatever the threads, losses and reconnects: no two
requests on the queue have the same id, of this connection or of any
other, and a reply with the id of a queued request finds that request. -/
theorem queued_ids_distinct (h : Reachable stepInEpoch init s) :
    (∀ i ∈ s.queue, ∀ j ∈ s.queue, i ≠ j → s.requestid i ≠ s.requestid j) ∧
      ∀ k ∈ s.queue, s.find (s.requestid k) = some k := by
  have hinv := inv_of_reachable h
  have hdistinct : ∀ i ∈ s.queue, ∀ j ∈ s.queue, i ≠ j → s.requestid i ≠ s.requestid j := by
    intro i hi j hj hne
    rcases Nat.lt_or_gt_of_ne hne with hlt | hgt
    · exact hinv.ids_distinct hi hj hlt
    · exact (hinv.ids_distinct hj hi hgt).symm
  refine ⟨hdistinct, fun k hk => ?_⟩
  cases hf : s.find (s.requestid k) with
  | none =>
    have := find?_eq_none.mp hf k hk
    simp at this
  | some q =>
    have hq : q ∈ s.queue := mem_of_find?_eq_some hf
    have hid : s.requestid k = s.requestid q := by simpa using find?_some hf
    by_contra hne
    have hne' : k ≠ q := fun heq => hne (by rw [heq])
    exact hdistinct k hk q hq hne' hid

/-- A request from its header to its removal. -/
def served (k : ℕ) : List RequestIdEvent :=
  [.setupHeader, .enter k, .stamp k, .append k, .remove k]

/-- Two requests on the queue of the second connection. -/
def twoQueued : List RequestIdEvent :=
  served 0 ++ [.lose, .beginReconnect none, .nextGeneration, .establish] ++ served 1 ++
    [.finishReconnect true, .setupHeader, .enter 2, .stamp 2, .append 2,
      .setupHeader, .enter 3, .stamp 3, .append 3]

theorem queued_ids_distinct_twoQueued :
    ∃ s, run stepInEpoch init twoQueued = some s ∧ s.queue = [2, 3] ∧
      s.requestid 2 ≠ s.requestid 3 := by
  have hrun : (run stepInEpoch init twoQueued).map (·.queue) = some [2, 3] := by decide
  obtain ⟨s, hs, hqueue⟩ := Option.map_eq_some_iff.mp hrun
  refine ⟨s, hs, hqueue, ?_⟩
  exact (queued_ids_distinct (reachable_of_run hs)).1 2 (by simp [hqueue]) 3 (by simp [hqueue])
    (by decide)

/-- Three requests are served and the fourth header is drawn when the
connection is lost. Its sender reconnects, which restarts the counter and
draws ids for three messages of its own; then the request is queued, and
another thread draws and queues the next. -/
def reconnectInSend : List RequestIdEvent :=
  served 0 ++ served 1 ++ served 2 ++
    [.setupHeader, .lose, .beginReconnect (some 3), .nextGeneration, .establish] ++
    served 4 ++ served 5 ++ served 6 ++
    [.finishReconnect true, .stamp 3, .append 3, .setupHeader, .enter 7, .stamp 7, .append 7]

/-- **One id for two requests.** The fourth request is queued on the new
connection under the id 4 of the old numbering, and the next thread draws
id 4 from the new: a reply to its request finds the other. -/
theorem one_id_for_two :
    ∃ s, run (guarded step fun s e => s.inWindow e = true) init reconnectInSend = some s ∧
      s.queue = [3, 7] ∧
      s.position 3 = .queued s.connectionGeneration ∧
      s.position 7 = .queued s.connectionGeneration ∧
      s.requestid 3 = s.requestid 7 ∧ s.find (s.requestid 7) = some 3 := by
  have hrun : (run (guarded step fun s e => s.inWindow e = true) init reconnectInSend).map
      (fun s => (s.queue, s.position 3, s.position 7, s.connectionGeneration, s.requestid 3,
        s.requestid 7, s.find 4)) = some ([3, 7], .queued 2, .queued 2, 2, 4, 4, some 3) := rfl
  obtain ⟨s, hs, heq⟩ := Option.map_eq_some_iff.mp hrun
  simp only [Prod.mk.injEq] at heq
  obtain ⟨hqueue, h3, h7, hgen, hid3, hid7, hfind⟩ := heq
  exact ⟨s, hs, hqueue, by rw [h3, hgen], by rw [h7, hgen], by rw [hid3, hid7], by rw [hid7, hfind]⟩

end RequestIds

end NetatalkClient
