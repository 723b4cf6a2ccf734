import NetatalkClient.Dsi.Helpers.Recv
/-!
# A runt and the session

A runt is a reply to nothing, or anything that matches a request of an
earlier connection. With a payload it is dropped once the payload is in.
An empty one goes straight to the command switch, and there only the arm
for reply handlers looks at the runt flag: `ActsOnEmpty` lists what the
other arms do. `runt_sameSession_iff` says that this is all.
-/

namespace NetatalkClient

open AfpServer List

variable {σ : Type} {env : Env σ} {s s' s'' : AfpServer σ} {src : Source}

/-! ## The frame -/

namespace AfpServer

/-- Nothing has changed but the two statistics a runt may touch,
`data_read` and the incoming buffer. The queue is part of this, with every
request's signals, so no request has been signalled either. -/
def SameSession (s s' : AfpServer σ) : Prop :=
  s' = { s with
    incomingBuffer := s'.incomingBuffer
    dataRead := s'.dataRead
    stats := { s.stats with
      runtPackets := s'.stats.runtPackets
      rxBytes := s'.stats.rxBytes } }

namespace SameSession

theorem refl (s : AfpServer σ) : SameSession s s := rfl

theorem symm (h : SameSession s s') : SameSession s' s := by
  unfold SameSession at h ⊢
  rw [h]

theorem trans (h : SameSession s s') (h' : SameSession s' s'') : SameSession s s'' := by
  unfold SameSession at h h' ⊢
  rw [h', h]

theorem commandRequests (h : SameSession s s') : s'.commandRequests = s.commandRequests := by
  rw [h]

theorem connectionGeneration (h : SameSession s s') :
    s'.connectionGeneration = s.connectionGeneration := by
  rw [h]

theorem connectState (h : SameSession s s') : s'.connectState = s.connectState := by
  rw [h]

theorem txQuantum (h : SameSession s s') : s'.txQuantum = s.txQuantum := by
  rw [h]

theorem isRunt (h : SameSession s s') (hdr : DsiHeader) : s'.isRunt hdr = s.isRunt hdr := by
  rw [AfpServer.isRunt, AfpServer.isRunt, h.commandRequests, h.connectionGeneration]

end SameSession

theorem sameSession_receive (s : AfpServer σ) (got : Octets) : SameSession s (s.receive got) := rfl

theorem sameSession_seen {h : DsiHeader} (hr : s.isRunt h = true) : SameSession s (s.seen h) := by
  unfold seen
  rw [if_pos hr]
  rfl

end AfpServer

/-! ## What the switch does with an empty runt -/

/-- What the command switch does with an empty packet for which it has no
request: it closes the session, forgets the quantum the server asked for,
answers, or starts a thread. -/
def ActsOnEmpty (env : Env σ) (s : AfpServer σ) (command : ℕ) : Prop :=
  (command = dsiCloseSession ∧ (s.connectState = .connected ∨ s.connectState = .connecting)) ∨
  (command = dsiOpenSession ∧ s.txQuantum ≠ dsiDefaultTxQuantum) ∨
  command = dsiTickle ∨
  (command = dsiAttention ∧ env.malloc = true ∧ env.pthreadCreate = true)

theorem actsOnEmpty_congr (h : SameSession s s') (command : ℕ) :
    ActsOnEmpty env s' command ↔ ActsOnEmpty env s command := by
  rw [ActsOnEmpty, ActsOnEmpty, h.connectState, h.txQuantum]

theorem opensessionReply_empty (h : s.dataRead = headerSize) :
    s.opensessionReply = { s with txQuantum := dsiDefaultTxQuantum } := by
  have hnil : s.received.drop headerSize = [] :=
    drop_eq_nil_of_le (Nat.le_of_eq (length_received.trans h))
  unfold opensessionReply
  rw [hnil]
  have hnone : ∀ fuel (t : AfpServer σ), opensessionOptions fuel [] t = t := by
    intro fuel t
    cases fuel <;> rfl
  rw [hnone]
  rfl

namespace AfpServer

/-- The two counters a reply could be told apart by. -/
def counters (s : AfpServer σ) : ℕ × ℕ := (s.lastrequestid, s.connectionGeneration)

theorem counters_removeFromRequestQueue (s : AfpServer σ) (addr : ℕ) :
    (s.removeFromRequestQueue addr).counters = s.counters := by
  unfold removeFromRequestQueue
  split <;> rfl

theorem counters_transmit (env : Env σ) (s : AfpServer σ) (size requestid subcommand : ℕ) :
    (s.transmit env size requestid subcommand).counters = s.counters := by
  unfold transmit
  split
  · rfl
  · rw [counters_removeFromRequestQueue]
    unfold written
    split <;> rfl

theorem counters_reconnect_ne (env : Env σ) {id generation : ℕ} (h : s.lastrequestid ≠ id)
    (hgen : s.connectionGeneration = generation) :
    (env.reconnect s).2.counters ≠ (id, generation) := by
  intro heq
  have hid : (env.reconnect s).2.lastrequestid = id := congrArg Prod.fst heq
  have hg : (env.reconnect s).2.connectionGeneration = generation := congrArg Prod.snd heq
  rcases env.reconnect_counter s with hc | hc
  · exact h (hc.symm.trans hid)
  · exact hc (hg.trans hgen.symm)

/-- A tickle is answered, so the request counter moves, or the connection
generation with it. -/
theorem counters_incomingTickle_ne (env : Env σ) (s : AfpServer σ) :
    (s.incomingTickle env).counters ≠ s.counters := by
  have hdraw : (afpcDsiSetupHeader s).2.lastrequestid ≠ s.lastrequestid := by
    simp only [afpcDsiSetupHeader, nextRequestid]
    split
    · split <;> omega
    · omega
  have hmoved : (afpcDsiSetupHeader s).2.counters ≠ s.counters :=
    fun h => hdraw (congrArg Prod.fst h)
  unfold incomingTickle sendDontWait
  split
  · split
    · exact hmoved
    · split
      · rw [counters_transmit]
        exact counters_reconnect_ne env hdraw rfl
      · exact counters_reconnect_ne env hdraw rfl
  · rw [counters_transmit]
    exact hmoved

end AfpServer

/-- Without a request, taking the packet out of the buffer is all that
happens after the switch. -/
theorem sameSession_afterProcessing_iff {d : List Dispatch} :
    SameSession s (afterProcessing s' src none d).server ↔ SameSession s s' := by
  have h : SameSession s' (afterProcessing s' src none d).server := by
    rcases afterProcessing_cases s' src none d with h | h | ⟨n, h⟩
    · rw [h]
      exact SameSession.refl s'
    · rw [h]
      rfl
    · rw [h]
      rfl
  exact ⟨fun h' => h'.trans h.symm, fun h' => h'.trans h⟩

theorem sameSession_loopDisconnect_iff :
    SameSession s s.loopDisconnect ↔
      ¬ (s.connectState = .connected ∨ s.connectState = .connecting) := by
  unfold loopDisconnect
  split
  · next h => exact iff_of_true (SameSession.refl s) (by tauto)
  · next h =>
    refine iff_of_false (fun hs => ?_) (by tauto)
    have hstate : ConnectState.disconnected = s.connectState := hs.connectState
    rw [← hstate] at h
    exact h (by decide)

/-- **An empty runt in the command switch** leaves the session alone
exactly if its arm does nothing with an empty packet. -/
theorem processPacket_empty_iff (h : s.dataRead = headerSize) :
    SameSession s (processPacket env s src none true).server ↔
      ¬ ActsOnEmpty env s s.header.command := by
  generalize hret : processPacket env s src none true = ret
  unfold ActsOnEmpty
  rcases processPacket_cases hret rfl with ⟨hc, rfl⟩ | ⟨hc, rfl⟩ | ⟨hc, rfl⟩ | ⟨hc, rfl⟩ |
    ⟨hc, ⟨-, rfl⟩ | ⟨hrunt, -, -⟩ | ⟨hrunt, -⟩⟩ | ⟨hc, ⟨hm, rfl⟩ | ⟨hm, rfl⟩⟩ | ⟨hc, rfl⟩
  · rw [sameSession_afterProcessing_iff, sameSession_loopDisconnect_iff]
    simp [hc, dsiCloseSession, dsiOpenSession, dsiTickle, dsiAttention]
  · have hsame : s.getstatusReply env = s := if_pos (by rw [h]; decide)
    rw [sameSession_afterProcessing_iff, hsame]
    simp [hc, SameSession.refl, dsiCloseSession, dsiOpenSession, dsiTickle, dsiAttention,
      dsiGetStatus]
  · have hsame : SameSession s { s with txQuantum := dsiDefaultTxQuantum } ↔
        s.txQuantum = dsiDefaultTxQuantum := by
      refine ⟨fun hs => hs.txQuantum.symm, fun hq => ?_⟩
      rw [← hq]
      exact SameSession.refl s
    rw [sameSession_afterProcessing_iff, opensessionReply_empty h, hsame]
    simp [hc, dsiCloseSession, dsiOpenSession, dsiTickle, dsiAttention]
  · rw [sameSession_afterProcessing_iff]
    refine iff_of_false (fun hs => counters_incomingTickle_ne env s ?_) (by simp [hc])
    rw [hs]
    rfl
  · rw [sameSession_afterProcessing_iff]
    refine iff_of_true (SameSession.refl s) ?_
    rcases hc with hc | hc <;>
      simp [hc, dsiCloseSession, dsiOpenSession, dsiTickle, dsiAttention, dsiWrite, dsiCommand]
  · exact absurd hrunt.symm Bool.false_ne_true
  · exact absurd hrunt.symm Bool.false_ne_true
  · refine iff_of_true (SameSession.refl s) ?_
    simp [hc, hm, dsiCloseSession, dsiOpenSession, dsiTickle, dsiAttention]
  · have hthread : SameSession s
        (if env.pthreadCreate then { s with refcount := s.refcount + 1 } else s) ↔
        ¬ env.pthreadCreate = true := by
      split
      · next hp =>
        refine iff_of_false (fun hs => ?_) (not_not_intro hp)
        have href : s.refcount + 1 = s.refcount := congrArg AfpServer.refcount hs
        omega
      · next hp => exact iff_of_true (SameSession.refl s) hp
    rw [sameSession_afterProcessing_iff, hthread]
    simp [hc, hm, dsiCloseSession, dsiOpenSession, dsiTickle, dsiAttention]
  · refine iff_of_true (SameSession.refl s) ?_
    rintro (⟨hclose, -⟩ | ⟨hopen, -⟩ | htickle | ⟨hattention, -⟩)
    · exact hc dsiCloseSession (by decide) hclose
    · exact hc dsiOpenSession (by decide) hopen
    · exact hc dsiTickle (by decide) htickle
    · exact hc dsiAttention (by decide) hattention

/-! ## A runt from its first octet to its last -/

/-- The server after up to `n` calls, made while there is something to
read and no call has failed. -/
def recvs (env : Env σ) : ℕ → AfpServer σ → Source → AfpServer σ
  | 0, s, _ => s
  | n + 1, s, src =>
      if src = [] then s
      else
        let r := afpcDsiRecv env s src
        if r.ret = .ok then recvs env n r.server r.source else r.server

theorem recvs_nil (n : ℕ) (s : AfpServer σ) : recvs env n s [] = s := by
  cases n <;> rfl

/-- A call that empties the socket is the last. -/
theorem recvs_last {n : ℕ} (hsrc : src ≠ []) (hend : (afpcDsiRecv env s src).source = []) :
    recvs env (n + 1) s src = (afpcDsiRecv env s src).server := by
  rw [recvs, if_neg hsrc]
  dsimp only
  rw [hend, recvs_nil, ite_self]

section Runt

variable {p : Packet}

/-- A runt is finished without another read. -/
theorem finishPacket_runt_source : (finishPacket env s src none true).source = src := by
  have hafter : ∀ (t : AfpServer σ) d, (afterProcessing t src none d).source = src := by
    intro t d
    rcases afterProcessing_cases t src none d with h | h | ⟨n, h⟩
    · rw [h]
    · rw [h]
      rfl
    · rw [h]
      rfl
  unfold finishPacket
  split
  · exact hafter _ _
  generalize hret : processPacket env s src none true = ret
  rcases processPacket_cases hret rfl with ⟨-, rfl⟩ | ⟨-, rfl⟩ | ⟨-, rfl⟩ | ⟨-, rfl⟩ |
    ⟨-, ⟨-, rfl⟩ | ⟨hrunt, -, -⟩ | ⟨hrunt, -⟩⟩ | ⟨-, ⟨-, rfl⟩ | ⟨-, rfl⟩⟩ | ⟨-, rfl⟩
  · exact hafter _ _
  · exact hafter _ _
  · exact hafter _ _
  · exact hafter _ _
  · exact hafter _ _
  · exact absurd hrunt.symm Bool.false_ne_true
  · exact absurd hrunt.symm Bool.false_ne_true
  · rfl
  · exact hafter _ _
  · rfl

theorem finishPacket_runt_iff (env : Env σ) (src : Source) (hp : s.received = p.bytes) :
    SameSession s (finishPacket env s src none true).server ↔
      ¬ (p.header.length = 0 ∧ ActsOnEmpty env s p.header.command) := by
  have hlen : s.dataRead = headerSize + p.header.length := by
    rw [← p.length_bytes, ← hp, length_received]
  have hhdr : s.header = p.header := by
    rw [AfpServer.header_eq (by omega), hp]
    rfl
  unfold finishPacket
  rw [hhdr]
  by_cases h0 : p.header.length = 0
  · rw [if_neg (fun h => h.2 h0), processPacket_empty_iff (by omega), hhdr]
    simp [h0]
  · rw [if_pos ⟨rfl, h0⟩, sameSession_afterProcessing_iff]
    exact iff_of_true (SameSession.refl s) fun h => h0 h.1

/-- A runt with `rest` still to come, all of it in the socket. -/
structure InProgress (p : Packet) (s : AfpServer σ) (src : Source) (rest : Octets) : Prop where
  received : s.received ++ rest = p.bytes
  pending : src.pending = rest
  flowing : src.Flowing
  runt : s.isRunt p.header = true

/-- What one call can do with a runt in progress: take in the last of it,
take in a piece, or refuse it for its size. -/
theorem recv_runt_cases (env : Env σ) {rest : Octets} (h : InProgress p s src rest)
    (hrest : rest ≠ []) :
    ((afpcDsiRecv env s src).source = [] ∧
      (SameSession s (afpcDsiRecv env s src).server ↔
        ¬ (p.header.length = 0 ∧ ActsOnEmpty env s p.header.command))) ∨
    ((afpcDsiRecv env s src).ret = .ok ∧ SameSession s (afpcDsiRecv env s src).server ∧
      ∃ more, more ≠ [] ∧ more.length < rest.length ∧
        InProgress p (afpcDsiRecv env s src).server (afpcDsiRecv env s src).source more) ∨
    ((afpcDsiRecv env s src).ret = .error ∧ SameSession s (afpcDsiRecv env s src).server ∧
      p.header.length ≠ 0) := by
  have hnone : s.pendingRequest p.header = none := pendingRequest_eq_none_of_isRunt h.runt
  have hread : ∀ r, s.pendingRequest p.header = some r → r.isRead = false := by simp [hnone]
  by_cases hfit : headerSize ≤ s.dataRead → p.bytes.length ≤ bufsize
  · obtain ⟨got, more, src', rfl, hgot, hflow', hpend', hcall⟩ :=
      afpcDsiRecv_framed env hfit h.received hrest h.flowing
        (show src.pending = rest ++ [] by rw [h.pending, append_nil]) hread
    rw [append_nil] at hpend'
    have hreceive := sameSession_receive s got
    have hseen := hreceive.trans (sameSession_seen h.runt)
    rw [hnone, h.runt, Option.map_none] at hcall
    rw [hcall]
    by_cases hmore : more = []
    · subst hmore
      refine .inl ?_
      rw [if_pos rfl, finishPacket_runt_source]
      refine ⟨(Source.pending_eq_nil hflow').mp hpend', ?_⟩
      have hrec : ((s.receive got).seen p.header).received = p.bytes := by
        rw [seen_received, received_receive, ← h.received, append_nil]
      have hfin := finishPacket_runt_iff env src' hrec
      rw [actsOnEmpty_congr hseen] at hfin
      exact ⟨fun hs => hfin.mp (hseen.symm.trans hs), fun hq => hseen.trans (hfin.mpr hq)⟩
    · refine .inr (.inl ?_)
      rw [if_neg hmore]
      have hsame : SameSession s
          (if s.dataRead < headerSize then s.receive got else (s.receive got).seen p.header) := by
        split
        · exact hreceive
        · exact hseen
      have hpos : 0 < got.length := length_pos_iff.mpr hgot
      refine ⟨rfl, hsame, more, hmore, ?_, ?_, hpend', hflow', ?_⟩
      · rw [length_append]
        omega
      · rw [received_taken, append_assoc, h.received]
      · rw [hsame.isRunt, h.runt]
  · refine .inr (.inr ?_)
    obtain ⟨h16, hbig⟩ := Classical.not_imp.mp hfit
    obtain ⟨hcall, hseen⟩ := afpcDsiRecv_of_header_in env src h16 h.received hread
    have hsz : headerSize ≤ bufsize := by decide
    rw [p.length_bytes] at hbig
    rw [hcall, restOfPacket_of_oversize (by rw [hseen]; omega)]
    exact ⟨rfl, sameSession_seen h.runt, by omega⟩

/-- A runt whose arm does nothing leaves the session alone through every
call, by induction on the calls. -/
theorem recvs_quiet {rest : Octets} (n : ℕ) (h : InProgress p s src rest)
    (hquiet : ¬ (p.header.length = 0 ∧ ActsOnEmpty env s p.header.command)) :
    SameSession s (recvs env n s src) := by
  induction n generalizing s src rest with
  | zero => exact SameSession.refl s
  | succ n ih =>
    by_cases hsrc : src = []
    · rw [hsrc, recvs_nil]
      exact SameSession.refl s
    have hrest : rest ≠ [] := by
      rw [← h.pending]
      exact fun hnil => hsrc ((Source.pending_eq_nil h.flowing).mp hnil)
    rcases recv_runt_cases env h hrest with
      ⟨hend, hiff⟩ | ⟨hok, hsame, more, -, -, hmore⟩ | ⟨herr, hsame, -⟩
    · rw [recvs_last hsrc hend]
      exact hiff.mpr hquiet
    · rw [recvs, if_neg hsrc]
      dsimp only
      rw [if_pos hok]
      exact hsame.trans (ih hmore (by rwa [actsOnEmpty_congr hsame]))
    · rw [recvs, if_neg hsrc]
      dsimp only
      rw [if_neg (by rw [herr]; decide)]
      exact hsame

/-- An empty runt whose arm acts is felt once its last octet is in, by
induction on the octets missing. -/
theorem recvs_acts {rest : Octets} (h : InProgress p s src rest) (hrest : rest ≠ [])
    (h0 : p.header.length = 0) (hacts : ActsOnEmpty env s p.header.command) :
    ∃ n, ¬ SameSession s (recvs env n s src) := by
  induction hk : rest.length using Nat.strongRecOn generalizing s src rest with
  | ind k ih =>
    have hsrc : src ≠ [] := by
      rintro rfl
      exact hrest h.pending.symm
    rcases recv_runt_cases env h hrest with
      ⟨hend, hiff⟩ | ⟨hok, hsame, more, hne, hlt, hmore⟩ | ⟨-, -, hlen⟩
    · refine ⟨1, ?_⟩
      rw [recvs_last hsrc hend]
      exact fun hs => hiff.mp hs ⟨h0, hacts⟩
    · obtain ⟨n, hn⟩ := ih more.length (by omega) hmore hne
        (by rwa [actsOnEmpty_congr hsame]) rfl
      refine ⟨n + 1, ?_⟩
      rw [recvs, if_neg hsrc]
      dsimp only
      rw [if_pos hok]
      exact fun hs => hn (hsame.symm.trans hs)
    · exact absurd h0 hlen

/-- **A runt is without effect, except for an empty one whose arm acts on
it.** The server is any with nothing of a packet in its buffer, the packet
any that it takes for a runt, and its octets may arrive in any non-empty
runs: the calls leave everything alone but the two statistics,
`data_read` and the incoming buffer, if and only if the packet has a
payload or its arm does nothing with an empty packet. -/
theorem runt_sameSession_iff (env : Env σ) (s : AfpServer σ) (p : Packet) (runs : List Octets)
    (hempty : s.dataRead = 0) (hrunt : s.isRunt p.header = true)
    (hruns : ∀ run ∈ runs, run ≠ []) (hbytes : runs.flatten = p.bytes) :
    (∀ n, SameSession s (recvs env n s (runs.map .data))) ↔
      ¬ (p.header.length = 0 ∧ ActsOnEmpty env s p.header.command) := by
  have hprogress : InProgress p s (runs.map .data) p.bytes := by
    refine ⟨?_, ?_, Source.flowing_map_data hruns, hrunt⟩
    · rw [AfpServer.received, hempty, Octets.window_zero, nil_append]
    · rw [Source.pending_map_data, hbytes]
  constructor
  · rintro hsame ⟨h0, hacts⟩
    obtain ⟨n, hn⟩ := recvs_acts hprogress p.bytes_ne_nil h0 hacts
    exact hn (hsame n)
  · exact fun hquiet n => recvs_quiet n hprogress hquiet

end Runt

/-! ## Two stray replies -/

/-- The reply to a command nobody sent, with one octet of payload. -/
def strayCommand : Packet where
  bytes := [1, 2, 0, 9, 0, 0, 0, 0, 0, 0, 0, 1, 0, 0, 0, 0, 7]
  whole := by decide

/-- An empty OpenSession reply nobody asked for. -/
def strayOpenSession : Packet where
  bytes := [1, 4, 0, 9, 0, 0, 0, 0, 0, 0, 0, 0, 0, 0, 0, 0]
  whole := by decide

theorem strayCommand_sameSession :
    (AfpServer.connected []).isRunt strayCommand.header = true ∧
    ∀ n, SameSession (.connected []) (recvs .plain n (.connected [])
      ([strayCommand.bytes.take 3, strayCommand.bytes.drop 3].map .data)) := by
  have hrunt : (AfpServer.connected []).isRunt strayCommand.header = true := by decide
  refine ⟨hrunt, ?_⟩
  exact (runt_sameSession_iff .plain (.connected []) strayCommand
    [strayCommand.bytes.take 3, strayCommand.bytes.drop 3]
    rfl hrunt (by decide) (by decide)).mpr fun h => absurd h.1 (by decide)

/-- **A stray OpenSession reply resets the quantum.** The session had
agreed on requests of a megabyte; a reply that matches nothing and has no
payload puts it back to 64 kilobytes. -/
theorem strayOpenSession_resets_quantum :
    ({ AfpServer.connected [] with txQuantum := 1048576 }).isRunt strayOpenSession.header = true ∧
    ¬ ∀ n, SameSession { AfpServer.connected [] with txQuantum := 1048576 }
      (recvs .plain n { AfpServer.connected [] with txQuantum := 1048576 }
        [.data strayOpenSession.bytes]) := by
  refine ⟨by decide, fun h => ?_⟩
  exact absurd (h 1).txQuantum (by decide)

end NetatalkClient
