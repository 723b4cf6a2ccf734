import NetatalkClient.Daemon.IpcStream
import NetatalkClient.Daemon.Model.Response
/-!
# IPC frames and the pieces they come in

A request is collected over as many calls of `process_command` as its
pieces need, whatever comes behind it: a call asks for no more than is
missing of the header or of the packet. The client asks for as much as its
buffer holds instead, so it takes a response for what it is when a piece
ends where the response ends, and refuses it when a read brings octets of
what follows.
-/

namespace NetatalkClient

open Octets List Wakeup Option Response DaemonClient

/-! ## Requests -/

/-- The connection after `n` calls of `process_command`, reads that were
interrupted being tried again and memory being there. -/
def calls (n : ℕ) (c : DaemonClient) : Option DaemonClient :=
  Machine.run ipcStep c (replicate n (.ready true true))

/-- The packet is dispatched by the `n`th call and by no call before it,
when it is complete; the thread that has it is the only one that goes on,
and leaves what follows for the next request. -/
structure DispatchedAt (packet later : Octets) (c : DaemonClient) (n : ℕ) : Prop where
  before : ∀ k < n, ∃ d, calls k c = some d ∧ d.phase = .reading ∧ d.served = c.served ∧
    d.taken.length < packet.length
  at_last : ∃ d, calls n c = some d ∧ d.phase = .processing ∧ d.served = c.served ++ [packet] ∧
    d.completePacket = some packet ∧ d.fd.pending = later ∧
    (∀ again malloc, ipcStep d (.ready again malloc) = none) ∧
    ∀ env d', ipcStep d (.handled env) = some d' → d'.served = d.served ∧
      (d'.phase = .closed ∨ d'.Idle ∧ d'.fd.pending = later)

section Requests

variable {packet later : Octets} {c c' : DaemonClient}

/-- Less than the packet has been taken while it is gathered. -/
theorem IpcFrame.taken_lt (hf : IpcFrame packet) (hg : c.Gathering)
    (hpend : c.taken ++ c.fd.pending = packet ++ later) : c.taken.length < packet.length := by
  unfold Gathering at hg
  unfold taken at hpend ⊢
  split at hg
  · next hnone =>
    have := hf.header_le
    rw [hnone, getD_none]
    omega
  · next p hp =>
    rw [hp, getD_some] at hpend ⊢
    rw [hf.len_of_prefix hpend hg.1] at hg
    exact hg.2

/-- A packet that has been gathered is the request. -/
theorem IpcFrame.eq_of_gathered (hf : IpcFrame packet) (hg : c.Gathered)
    (hpend : c.taken ++ c.fd.pending = packet ++ later) :
    c.completePacket = some packet ∧ c.fd.pending = later := by
  obtain ⟨p, hp, hhead, hlen⟩ := hg
  rw [taken, hp, getD_some] at hpend
  rw [hf.len_of_prefix hpend hhead] at hlen
  obtain ⟨rfl, hrest⟩ := append_inj hpend hlen
  exact ⟨hp, hrest⟩

/-- **One call** waits for more of the request, with less left to read, or
dispatches it. -/
theorem ready_step (hf : IpcFrame packet) (hphase : c.phase = .reading) (hg : c.Gathering)
    (halive : c.fd.Alive) (hpend : c.taken ++ c.fd.pending = packet ++ later) :
    ∃ c', ipcStep c (.ready true true) = some c' ∧
      (c'.phase = .reading ∧ c'.served = c.served ∧ c'.Gathering ∧ c'.fd.Alive ∧
          c'.taken ++ c'.fd.pending = packet ++ later ∧ c'.fd.weight < c.fd.weight ∨
        c'.phase = .processing ∧ c'.served = c.served ++ [packet] ∧
          c'.completePacket = some packet ∧ c'.fd.pending = later) := by
  obtain ⟨hserved, hphase', htaken, houtcome⟩ := processCommand_called true true hg
  obtain ⟨hret, halive', hweight⟩ := processCommand_progress hf hg halive hpend
  rw [hpend] at htaken
  simp only [ipcStep, hphase]
  rw [if_neg (Int.not_lt.mpr hret)]
  rcases houtcome with hlost | ⟨hwaits, hg'⟩ | ⟨hdone, hg'⟩
  · omega
  · rw [if_neg (by omega)]
    exact ⟨_, rfl, .inl ⟨hphase'.trans hphase, hserved, hg', halive', htaken, hweight⟩⟩
  · rw [if_pos hdone]
    obtain ⟨hp, hrest⟩ := hf.eq_of_gathered hg' htaken
    refine ⟨_, rfl, .inr ⟨rfl, ?_, hp, hrest⟩⟩
    simp only [hserved, hp, toList_some]

theorem calls_zero (c : DaemonClient) : calls 0 c = some c := rfl

theorem calls_succ (h : ipcStep c (.ready true true) = some c') (n : ℕ) :
    calls (n + 1) c = calls n c' := by
  rw [calls, replicate_succ, Machine.run, h]
  rfl

/-- A handler of a request without file data leaves what follows. -/
theorem handled_without_payload {d d' : DaemonClient} {env : Surroundings}
    (hpay : payloadSize packet = 0) (hp : d.completePacket = some packet)
    (hphase : d.phase = .processing) (h : ipcStep d (.handled env) = some d') :
    d'.served = d.served ∧ (d'.phase = .closed ∨ d'.Idle ∧ d'.fd.pending = d.fd.pending) := by
  have hstep : processCommandThread env packet d = d' := by
    simpa only [ipcStep, hphase, hp, some.injEq] using h
  obtain ⟨hserved, hend⟩ := processCommandThread_cases env packet d
  rw [hstep] at hserved hend
  refine ⟨hserved, hend.imp_right ?_⟩
  rintro ⟨hidle, -, -, hfd⟩
  refine ⟨hidle, ?_⟩
  rw [hfd]
  split
  · next hcmd =>
    by_cases hsize : ipcWriteSize ≤ packet.length
    · rw [payloadSize, if_pos ⟨hcmd, hsize⟩] at hpay
      obtain ⟨got, hgot, hle, -⟩ := processWrite_pending env d.fd hsize
      rw [hpay] at hle
      rw [hgot, length_eq_zero_iff.mp (Nat.le_zero.mp hle), nil_append]
    · rw [processWrite, if_pos (Nat.lt_of_not_le hsize)]
  · rfl

/-- **The run lemma of the requests**, by induction on what is left of the
descriptor. -/
theorem exists_dispatchedAt (hf : IpcFrame packet) (hpay : payloadSize packet = 0)
    (hphase : c.phase = .reading) (hg : c.Gathering) (halive : c.fd.Alive)
    (hpend : c.taken ++ c.fd.pending = packet ++ later) : ∃ n, DispatchedAt packet later c n := by
  induction hw : c.fd.weight using Nat.strong_induction_on generalizing c with
  | h w ih =>
    subst hw
    obtain ⟨c', hstep, hwaits | hdone⟩ := ready_step hf hphase hg halive hpend
    · obtain ⟨hphase', hserved, hg', halive', hpend', hweight⟩ := hwaits
      obtain ⟨n, hbefore, hlast⟩ := ih _ hweight hphase' hg' halive' hpend' rfl
      refine ⟨n + 1, ?_, ?_⟩
      · intro k hk
        cases k with
        | zero => exact ⟨c, calls_zero c, hphase, rfl, hf.taken_lt hg hpend⟩
        | succ k =>
          rw [calls_succ hstep, ← hserved]
          exact hbefore k (by omega)
      · rw [calls_succ hstep, ← hserved]
        exact hlast
    · obtain ⟨hphase', hserved, hp, hrest⟩ := hdone
      refine ⟨1, ?_, c', ?_, hphase', hserved, hp, hrest, ?_, ?_⟩
      · intro k hk
        obtain rfl : k = 0 := by omega
        exact ⟨c, calls_zero c, hphase, rfl, hf.taken_lt hg hpend⟩
      · rw [calls_succ hstep, calls_zero]
      · intro again malloc
        simp only [ipcStep, hphase']
      · intro env d' hd'
        rw [← hrest]
        exact handled_without_payload hpay hp hphase' hd'

end Requests

/-! ## Responses -/

/-- A response as it is framed. -/
structure ResponseFrame (r : Octets) : Prop where
  header_le : ipcResponseHeaderSize + ipcLogFooterSize ≤ r.length
  len_eq : len r = r.length

/-- A round that brings octets or is interrupted. -/
def Wakeup.GoesOn : Wakeup → Prop
  | .timeout => False
  | .selectFailed interrupted => interrupted = true
  | .readFailed interrupted => interrupted = true
  | .ready run => run ≠ []

instance (w : Wakeup) : Decidable w.GoesOn := by
  cases w <;> unfold GoesOn <;> exact inferInstance

/-- A piece ends where `r` does. -/
def EndsWith (r : Octets) (ws : List Wakeup) : Prop :=
  ∃ ws₁ ws₂, ws = ws₁ ++ ws₂ ∧ pending ws₁ = r

section Responses

variable {r data more later run : Octets} {ws : List Wakeup} {capacity : ℕ}

theorem Wakeup.pending_append (ws₁ ws₂ : List Wakeup) :
    pending (ws₁ ++ ws₂) = pending ws₁ ++ pending ws₂ := by
  induction ws₁ with
  | nil => rfl
  | cons w ws₁ ih => cases w <;> simp [pending, ih]

/-- A round that brings nothing does not matter to where the pieces end. -/
theorem endsWith_cons_quiet {w : Wakeup} (hw : pending [w] = []) (hmore : more ≠ []) :
    EndsWith more (w :: ws) ↔ EndsWith more ws := by
  have hcons : ∀ ws', pending (w :: ws') = pending ws' := by
    intro ws'
    rw [← singleton_append, pending_append, hw, nil_append]
  constructor
  · rintro ⟨ws₁, ws₂, heq, hp⟩
    cases ws₁ with
    | nil => exact absurd hp.symm hmore
    | cons w' ws₁ =>
      obtain ⟨rfl, rfl⟩ := List.cons.inj heq
      exact ⟨ws₁, ws₂, rfl, (hcons ws₁).symm.trans hp⟩
  · rintro ⟨ws₁, ws₂, rfl, hp⟩
    exact ⟨w :: ws₁, ws₂, rfl, (hcons ws₁).trans hp⟩

/-- Behind a piece, the rest has to end with a piece. -/
theorem endsWith_cons_ready (hrun : run ≠ []) :
    EndsWith (run ++ more) (.ready run :: ws) ↔ EndsWith more ws := by
  constructor
  · rintro ⟨ws₁, ws₂, heq, hp⟩
    cases ws₁ with
    | nil => exact absurd (append_eq_nil_iff.mp hp.symm).1 hrun
    | cons w' ws₁ =>
      obtain ⟨rfl, rfl⟩ := List.cons.inj heq
      exact ⟨ws₁, ws₂, rfl, append_cancel_left hp⟩
  · rintro ⟨ws₁, ws₂, rfl, hp⟩
    exact ⟨.ready run :: ws₁, ws₂, rfl, by rw [pending, hp]⟩

/-- A piece that goes past the end leaves no piece that ends there. -/
theorem not_endsWith_of_long (hmore : more ≠ []) (hlong : more.length < run.length) :
    ¬ EndsWith more (.ready run :: ws) := by
  rintro ⟨ws₁, ws₂, heq, hp⟩
  cases ws₁ with
  | nil => exact absurd hp.symm hmore
  | cons w' ws₁ =>
    obtain ⟨rfl, rfl⟩ := List.cons.inj heq
    have := congrArg List.length hp
    rw [pending, length_append] at this
    omega

/-- `expected_len` while less than the response has come. -/
def expectedLen (r data : Octets) : ℕ :=
  if data.length < ipcResponseHeaderSize then 0 else r.length

/-- **The checks behind one read**: the frame is awaited, complete or
refused as what has come is shorter than the response, as long, or
longer. -/
theorem frameState_eq {x : Octets} (hr : ResponseFrame r) (hfit : r.length ≤ capacity)
    (hgrown : data.length < (data ++ run).length) (hx : data ++ run ++ x = r ++ later) :
    frameState capacity (expectedLen r data) (data ++ run) =
      if (data ++ run).length < r.length then .awaited (expectedLen r (data ++ run))
      else if (data ++ run).length = r.length then .complete else .refused := by
  generalize hd : data ++ run = d at hgrown hx ⊢
  have hhead := hr.header_le
  simp only [ipcResponseHeaderSize, ipcLogFooterSize] at hhead
  unfold frameState
  by_cases hshort : d.length < 8
  · -- the header has not come, so no length is known
    have hdata : expectedLen r data = 0 := if_pos (by simp only [ipcResponseHeaderSize]; omega)
    have hno : ¬ ipcResponseHeaderSize ≤ d.length := by simp only [ipcResponseHeaderSize]; omega
    have hexp : expectedLen r d = 0 := if_pos (Nat.lt_of_not_le hno)
    simp only [hdata, hno, false_and, if_false, Nat.not_lt_zero, hexp, lt_irrefl]
    rw [if_neg (by omega), if_pos (by omega)]
  · have hexp : expectedLen r d = r.length := if_neg (by simpa [ipcResponseHeaderSize] using hshort)
    have hlen : len d = r.length := by
      rw [← hr.len_eq, len, len, ← le32_append (c := x) (by omega), hx, le32_append (by omega)]
    have hnow : (if ipcResponseHeaderSize ≤ d.length ∧ expectedLen r data = 0 then len d
        else expectedLen r data) = r.length := by
      split
      · exact hlen
      · next hknown =>
        unfold expectedLen at hknown ⊢
        split
        · next hlt =>
          exact absurd ⟨by simpa [ipcResponseHeaderSize] using hshort, if_pos hlt⟩ hknown
        · rfl
    simp only [hnow, hexp]
    rw [if_neg (fun h => absurd h.2
        (by simp only [ipcResponseHeaderSize, ipcLogFooterSize]; omega)), if_neg (by omega)]
    rcases lt_trichotomy d.length r.length with hlt | heq | hgt
    · rw [if_neg (by omega), if_neg (by omega), if_pos hlt]
    · rw [if_pos heq, if_neg (by omega), if_pos heq]
    · rw [if_neg (by omega), if_pos (by omega), if_neg (by omega), if_neg (by omega)]

/-- What the loop comes to: the response, with what follows unread, or a
refusal. -/
def Answered (r later : Octets) (ends : Prop) (res : FramedResponse) : Prop :=
  (ends → ∃ rest, res = ⟨0, r, r.length, rest⟩ ∧ pending rest = later) ∧
    (¬ ends → res.ret = -1)

/-- **The run lemma of the responses**, by induction on the rounds: `more`
is what has not come of the response. -/
theorem readFramedLoop_answered (hr : ResponseFrame r) (hfit : r.length ≤ capacity)
    (hdata : r = data ++ more) (hmore : more ≠ []) (hgo : ∀ w ∈ ws, w.GoesOn)
    (hpend : pending ws = more ++ later) :
    Answered r later (EndsWith more ws ∨ r.length = capacity)
      (readFramedLoop capacity (expectedLen r data) data ws) := by
  have hroom : ∀ {data more : Octets}, r = data ++ more → more ≠ [] → data.length < capacity := by
    intro data more hdata hmore
    have := congrArg List.length hdata
    have := length_pos_iff.mpr hmore
    rw [length_append] at *
    omega
  induction ws generalizing data more with
  | nil => exact absurd (append_eq_nil_iff.mp hpend.symm).1 hmore
  | cons w ws ih =>
    have hgo' : ∀ w ∈ ws, w.GoesOn := fun w hw => hgo w (mem_cons_of_mem _ hw)
    have hw := hgo w mem_cons_self
    have hlt := hroom hdata hmore
    rw [readFramedLoop.eq_def]
    cases w with
    | timeout => exact absurd hw id
    | selectFailed interrupted =>
      obtain rfl : interrupted = true := hw
      rw [endsWith_cons_quiet rfl hmore]
      exact ih hdata hmore hgo' hpend
    | readFailed interrupted =>
      obtain rfl : interrupted = true := hw
      rw [endsWith_cons_quiet rfl hmore]
      dsimp only
      rw [if_neg (by omega)]
      exact ih hdata hmore hgo' hpend
    | ready run =>
      have hrun : run ≠ [] := hw
      have hpos := length_pos_iff.mpr hrun
      have hlens := congrArg List.length hdata
      rw [pending] at hpend
      rw [length_append] at hlens
      dsimp only
      rw [dif_neg (by omega), if_neg hrun]
      split
      · next hle =>
        -- the whole piece is read
        rw [take_of_length_le hle]
        have hwhole : data ++ run ++ pending ws = r ++ later := by
          rw [append_assoc, hpend, hdata, append_assoc]
        rw [frameState_eq hr hfit (by rw [length_append]; omega) hwhole]
        rcases lt_trichotomy run.length more.length with hshort | heq | hlong
        · obtain ⟨more', rfl⟩ : run <+: more :=
            prefix_of_prefix_length_le ⟨_, hpend⟩ ⟨later, rfl⟩ (le_of_lt hshort)
          rw [append_assoc, append_cancel_left_eq] at hpend
          rw [length_append] at hshort hlens
          rw [if_pos (by rw [length_append]; omega), endsWith_cons_ready hrun]
          exact ih (by rw [hdata, append_assoc]) (length_pos_iff.mp (by omega)) hgo' hpend
        · obtain ⟨rfl, hrest⟩ := append_inj hpend heq
          rw [if_neg (by rw [length_append]; omega), if_pos (by rw [length_append]; omega)]
          refine ⟨fun _ => ⟨ws, by rw [hdata], hrest⟩, fun hnot => absurd (.inl ?_) hnot⟩
          exact ⟨[.ready run], ws, rfl, by rw [pending, pending, append_nil]⟩
        · rw [if_neg (by rw [length_append]; omega),
            if_neg (by rw [length_append]; omega)]
          refine ⟨fun hends => ?_, fun _ => rfl⟩
          rcases hends with hends | hfull
          · exact absurd hends (not_endsWith_of_long hmore hlong)
          · omega
      · next hgt =>
        -- the buffer is full before the piece is at its end
        have htake : (run.take (capacity - data.length)).length = capacity - data.length := by
          rw [length_take]
          omega
        have hwhole : data ++ run.take (capacity - data.length) ++
            (run.drop (capacity - data.length) ++ pending ws) = r ++ later := by
          rw [append_assoc, ← append_assoc (run.take _), take_append_drop, hpend,
            hdata, append_assoc]
        rw [frameState_eq hr hfit (by rw [length_append]; omega) hwhole]
        rw [if_neg (by rw [length_append]; omega)]
        by_cases hfull : r.length = capacity
        · rw [if_pos (by rw [length_append]; omega)]
          rw [← take_append_drop (capacity - data.length) run, append_assoc] at hpend
          obtain ⟨htook, hrest⟩ := append_inj hpend (by omega)
          refine ⟨fun _ => ⟨_, by rw [htook, ← hdata], ?_⟩, fun hnot => absurd (.inr hfull) hnot⟩
          rw [pending, hrest]
        · rw [if_neg (by rw [length_append]; omega)]
          refine ⟨fun hends => ?_, fun _ => rfl⟩
          rcases hends with hends | hcap
          · exact absurd hends (not_endsWith_of_long hmore (by omega))
          · exact absurd hcap hfull

/-- A response is read for what it is exactly when the reads stop where it
ends. -/
theorem readFramedResponse_answered {fd : ℤ} (h0 : 0 ≤ fd) (hset : fd < fdSetsize)
    (hr : ResponseFrame r) (hfit : r.length ≤ capacity) (hgo : ∀ w ∈ ws, w.GoesOn)
    (hpend : pending ws = r ++ later) :
    Answered r later (EndsWith r ws ∨ r.length = capacity) (readFramedResponse fd capacity ws) := by
  have hlen := hr.header_le
  have hne : r ≠ [] := by
    rintro rfl
    exact absurd hlen (by decide)
  unfold readFramedResponse
  rw [if_neg (by omega)]
  have hdata : r = [] ++ r := rfl
  exact readFramedLoop_answered hr hfit hdata hne hgo hpend

end Responses

/-! ## Whatever the pieces -/

/-- **Framing does not depend on the pieces**, but for the end of a
response. A framed request without file data is dispatched once, when it
is complete, with its octets. A response that fits is read with its octets
and what follows is left unread if a piece ends where it ends or it fills
the buffer; it is refused otherwise. -/
theorem ipc_framing_pieces :
    (∀ (packet later : Octets) (c : DaemonClient), IpcFrame packet → payloadSize packet = 0 →
      c.Idle → c.fd.Alive → c.fd.pending = packet ++ later →
      ∃ n, DispatchedAt packet later c n) ∧
    ∀ (fd : ℤ) (capacity : ℕ) (r later : Octets) (ws : List Wakeup), 0 ≤ fd → fd < fdSetsize →
      ResponseFrame r → r.length ≤ capacity → (∀ w ∈ ws, w.GoesOn) →
      pending ws = r ++ later →
      (EndsWith r ws ∨ r.length = capacity →
        ∃ rest, readFramedResponse fd capacity ws = ⟨0, r, r.length, rest⟩ ∧
          pending rest = later) ∧
      (¬ (EndsWith r ws ∨ r.length = capacity) → (readFramedResponse fd capacity ws).ret = -1) := by
  refine ⟨fun packet later c hf hpay hidle halive hpend => ?_,
    fun fd capacity r later ws h0 hset hr hfit hgo hpend =>
      readFramedResponse_answered h0 hset hr hfit hgo hpend⟩
  obtain ⟨hphase, hhead, hnone⟩ := hidle
  refine exists_dispatchedAt hf hpay hphase ?_ halive ?_
  · simp only [Gathering, hnone, hhead, length_nil]
    decide
  · rw [taken, hnone, getD_none, hhead, nil_append, hpend]

/-- A STATUS request of twelve octets. -/
def statusRequest : Octets := [4, 0, 0, 0, 12, 0, 0, 0, 0, 0, 0, 0]

/-- A response of a header and a footer. -/
def emptyResponse : Octets := [0, 0, 0, 0, 16, 0, 0, 0, 0x4c, 0x50, 0x46, 0x41, 0, 0, 0, 0]

/-- A request and a response, each cut inside its length field. -/
theorem ipc_framing_pieces_status :
    (∃ n, DispatchedAt statusRequest [9] (.accepted [.data (statusRequest.take 5), .failed,
      .data (statusRequest.drop 5 ++ [9])]) n) ∧
    ∃ rest, readFramedResponse 3 64 [.ready (emptyResponse.take 6), .readFailed true,
        .ready (emptyResponse.drop 6), .ready [7]] = ⟨0, emptyResponse, 16, rest⟩ ∧
      pending rest = [7] :=
  ⟨ipc_framing_pieces.1 statusRequest [9] _ ⟨by decide, by decide, by decide⟩ (by decide)
      ⟨rfl, rfl, rfl⟩ (by simp [accepted, Source.Alive, statusRequest]) rfl,
    (ipc_framing_pieces.2 3 64 emptyResponse [7] _ (by decide) (by decide)
      ⟨by decide, by decide⟩ (by decide) (by decide) rfl).1
      (.inl ⟨[.ready (emptyResponse.take 6), .readFailed true, .ready (emptyResponse.drop 6)],
        [.ready [7]], rfl, rfl⟩)⟩

/-- A response that fits, with an octet behind it in the same piece: the
read takes both, and the response is refused. -/
theorem response_refused_with_next :
    ResponseFrame emptyResponse ∧ emptyResponse.length ≤ 64 ∧
      readFramedResponse 3 64 [.ready (emptyResponse ++ [7])] =
        ⟨-1, emptyResponse ++ [7], 0, []⟩ := by
  refine ⟨⟨by decide, by decide⟩, by decide, ?_⟩
  rw [readFramedResponse, if_neg (by decide), readFramedLoop.eq_def]
  rfl

end NetatalkClient
