import NetatalkClient.Dsi.Helpers.Recv
/-!
# Reply handlers and the requests they are given

The guard that turns a packet without a request into a runt looks at the
flags byte, the switch that runs a reply handler at the command byte. A
command or write packet that is not marked as a reply and matches nothing
passes between them (`dispatched_request_iff`).
-/

namespace NetatalkClient

open AfpServer List Source

variable {σ : Type} {env : Env σ} {s : AfpServer σ} {src : Source}
variable {request : Option DsiRequest} {runt : Bool} {d : Dispatch} {ds : List Dispatch}

/-- The commands whose arm runs a reply handler. -/
abbrev runsReplyHandler (command : ℕ) : Prop := command = dsiWrite ∨ command = dsiCommand

/-! ## What is dispatched, and with which request -/

@[simp]
theorem afterProcessing_dispatched : (afterProcessing s src request ds).dispatched = ds := by
  rcases afterProcessing_cases s src request ds with h | h | ⟨n, h⟩
  · rw [h]
  · rw [h, out_dispatched]
  · rw [h, out_dispatched]

/-- The switch dispatches at most the packet in the buffer, with the
request it was given. -/
theorem eq_of_mem_processPacket (h : d ∈ (processPacket env s src request runt).dispatched) :
    d = ⟨s.header.command, s.received, request⟩ := by
  generalize hret : processPacket env s src request runt = ret at h
  generalize hds : [(⟨s.header.command, s.received, request⟩ : Dispatch)] = ds
  have hmem : d ∈ ds → d = ⟨s.header.command, s.received, request⟩ := by
    intro hd
    rw [← hds] at hd
    exact mem_singleton.mp hd
  have hafter : ∀ (t : AfpServer σ) src', d ∈ (afterProcessing t src' request ds).dispatched →
      d = ⟨s.header.command, s.received, request⟩ := by
    intro t src' hd
    rw [afterProcessing_dispatched] at hd
    exact hmem hd
  rcases processPacket_cases hret hds with ⟨-, rfl⟩ | ⟨-, rfl⟩ | ⟨-, rfl⟩ | ⟨-, rfl⟩ |
    ⟨-, ⟨-, rfl⟩ | ⟨-, rfl, -⟩ | ⟨-, r, result, s', src', -, -, rfl⟩⟩ | ⟨-, ⟨-, rfl⟩ | ⟨-, rfl⟩⟩ |
    ⟨-, rfl⟩
  · exact hafter _ _ h
  · exact hafter _ _ h
  · exact hafter _ _ h
  · exact hafter _ _ h
  · rw [afterProcessing_dispatched] at h
    exact absurd h not_mem_nil
  · exact hmem h
  · exact hafter _ _ h
  · exact absurd h not_mem_nil
  · exact hafter _ _ h
  · exact absurd h not_mem_nil

/-- The arm that runs reply handlers takes everything but runts. -/
theorem processPacket_handler_dispatched (h : runsReplyHandler s.header.command) :
    (processPacket env s src request runt).dispatched =
      if runt then [] else [⟨s.header.command, s.received, request⟩] := by
  have hne : ∀ c, c ≠ dsiWrite → c ≠ dsiCommand → s.header.command ≠ c := by
    intro c hw hc heq
    rw [heq] at h
    exact h.elim hw hc
  unfold processPacket
  dsimp only
  rw [if_neg (hne _ (by decide) (by decide)), if_neg (hne _ (by decide) (by decide)),
    if_neg (hne _ (by decide) (by decide)), if_neg (hne _ (by decide) (by decide)), if_pos h]
  cases runt with
  | true => simp
  | false =>
    simp only [Bool.false_eq_true, if_false]
    split
    · rfl
    · split
      · rfl
      · exact afterProcessing_dispatched

/-! ## The packet a call completes -/

namespace AfpServer

/-- The octets a call asks the socket for: the rest of the header, or the
rest of the packet. -/
def missing (s : AfpServer σ) : ℕ :=
  if s.dataRead < headerSize then headerSize - s.dataRead
  else s.header.length + headerSize - s.dataRead

/-- What has been received once the socket has answered. -/
def arrived (s : AfpServer σ) (src : Source) : Octets :=
  s.received ++ (src.read s.missing).1.getD []

/-- All of a packet has arrived, and it is one the buffer can hold. -/
def Complete (s : AfpServer σ) (src : Source) : Prop :=
  (s.arrived src).length = headerSize + (dsiHeader (s.arrived src)).length ∧
    (dsiHeader (s.arrived src)).length ≤ bufsize - headerSize

/-- A complete command or write packet that is no reply and has the id of
no queued request. -/
def UnmatchedCommand (s : AfpServer σ) (src : Source) : Prop :=
  s.Complete src ∧ runsReplyHandler (dsiHeader (s.arrived src)).command ∧
    (dsiHeader (s.arrived src)).flags ≠ dsiReply ∧
    afpcDsiFindRequest s.commandRequests (dsiHeader (s.arrived src)).requestid = none

end AfpServer

theorem header_arrived (h16 : headerSize ≤ s.dataRead) (src : Source) :
    dsiHeader (s.arrived src) = s.header := by
  rw [header_eq h16, arrived, dsiHeader_append _ (by rwa [length_received])]

theorem complete_iff (h16 : headerSize ≤ s.dataRead) :
    s.Complete src ↔
      s.dataRead + ((src.read (s.header.length + headerSize - s.dataRead)).1.getD []).length =
        headerSize + s.header.length ∧ s.header.length ≤ bufsize - headerSize := by
  have hm : s.missing = s.header.length + headerSize - s.dataRead := if_neg (by omega)
  rw [Complete, header_arrived h16, arrived, length_append, length_received, hm]

/-- **The rest of a packet, by whether all of it has arrived.** A complete
packet is switched on its command, or dropped if it is a runt; an
incomplete one dispatches nothing. -/
theorem restOfPacket_cases (env : Env σ) (src : Source) (request : Option DsiRequest)
    (runt : Bool) (h16 : headerSize ≤ s.dataRead) :
    (s.Complete src ∧ ∃ t src', t.header = s.header ∧
      (restOfPacket env s src request runt = processPacket env t src' request runt ∨
        runt = true ∧
          restOfPacket env s src request runt = afterProcessing t src' request [])) ∨
    (¬ s.Complete src ∧ (restOfPacket env s src request runt).dispatched = []) := by
  rw [complete_iff h16]
  unfold restOfPacket
  split
  · -- nothing but a header
    next h =>
    refine .inl ⟨?_, s, src, rfl, .inl rfl⟩
    rw [h.1, h.2, Nat.zero_add, Nat.sub_self, getD_read_zero]
    exact ⟨rfl, Nat.zero_le _⟩
  split
  · next hbig => exact .inr ⟨fun hc => by omega, rfl⟩
  split
  · next hover =>
    have hzero : s.header.length + headerSize - s.dataRead = 0 := by omega
    rw [hzero, getD_read_zero, length_nil]
    exact .inr ⟨fun hc => by omega, rfl⟩
  next hfit hle =>
  have hrem : s.header.length - (s.dataRead - headerSize) =
      s.header.length + headerSize - s.dataRead := by omega
  have hmin : min (s.header.length + headerSize - s.dataRead) (bufsize - s.dataRead) =
      s.header.length + headerSize - s.dataRead := by
    have hsz : headerSize ≤ bufsize := by decide
    omega
  simp only [hrem, hmin]
  split
  · -- the packet was already all there
    next hzero =>
    refine .inl ⟨?_, s, src, rfl, .inl rfl⟩
    rw [hzero, getD_read_zero, length_nil]
    omega
  split
  · next c cs src' hrd =>
    have hlen := length_read_le hrd
    rw [hrd]
    simp only [dataRead_receive, header_receive h16, Option.getD_some]
    split
    · next hshort => exact .inr ⟨fun hc => by omega, rfl⟩
    · next hfull =>
      refine .inl ⟨⟨by omega, by omega⟩, s.receive (c :: cs), src', header_receive h16, ?_⟩
      split
      · next hr => exact .inr ⟨hr, rfl⟩
      · exact .inl rfl
  · next got src' hnone hrd =>
    -- the read failed or found the end of the stream
    refine .inr ⟨fun hc => ?_, rfl⟩
    rw [hrd, getD_eq_nil hnone, length_nil] at hc
    omega

/-! ## No request is used that does not exist -/

theorem mem_restOfPacket (h16 : headerSize ≤ s.dataRead)
    (h : d ∈ (restOfPacket env s src request runt).dispatched) :
    d.request = request ∧ (runsReplyHandler d.command → runt = false) := by
  rcases restOfPacket_cases env src request runt h16 with
    ⟨-, t, src', -, heq | ⟨-, heq⟩⟩ | ⟨-, hnil⟩
  · rw [heq] at h
    have hd := eq_of_mem_processPacket h
    refine ⟨by rw [hd], fun hc => ?_⟩
    rw [hd] at hc
    rw [processPacket_handler_dispatched hc] at h
    cases runt with
    | true => cases h
    | false => rfl
  · rw [heq, afterProcessing_dispatched] at h
    cases h
  · rw [hnil] at h
    cases h

theorem mem_readReply {r : DsiRequest} (h : d ∈ (readReply env s src r).dispatched) :
    d.request = some r := by
  unfold readReply at h
  split at h
  · cases h
  dsimp only at h
  split at h
  · rw [out_dispatched] at h
    cases h
  split at h
  · cases h
  split at h
  · split at h
    · split at h
      · rw [out_dispatched] at h
        cases h
      split at h
      · cases h
      · rw [eq_of_mem_processPacket h]
    · cases h
  · cases h

/-- From `gotenough` on, a reply handler runs without a request exactly
for a complete command packet that is no reply and matches nothing. -/
theorem gotenough_request_iff (env : Env σ) (src : Source) (h16 : headerSize ≤ s.dataRead) :
    (∀ d ∈ (gotenough env s src).dispatched, runsReplyHandler d.command →
      ∃ r, s.pendingRequest s.header = some r ∧
        d.request = some (storeReturnCode s.header r)) ↔
    ¬ (s.Complete src ∧ runsReplyHandler s.header.command ∧ s.header.flags ≠ dsiReply ∧
      afpcDsiFindRequest s.commandRequests s.header.requestid = none) := by
  have hrunt : ∀ d ∈ (restOfPacket env s.countRunt src none true).dispatched,
      ¬ runsReplyHandler d.command := by
    intro d hd hc
    have h16' : headerSize ≤ s.countRunt.dataRead := h16
    exact absurd ((mem_restOfPacket h16' hd).2 hc) (by decide)
  unfold gotenough
  cases hf : afpcDsiFindRequest s.commandRequests s.header.requestid with
  | none =>
    by_cases hflag : s.header.flags = dsiReply
    · simp only [hflag, if_true]
      exact ⟨fun _ h => h.2.2.1 rfl, fun _ d hd hc => absurd hc (hrunt d hd)⟩
    · simp only [hflag, if_false]
      have hp : s.pendingRequest s.header = none := by simp [pendingRequest, hf]
      simp only [hp, reduceCtorEq, false_and, exists_false]
      constructor
      · rintro h ⟨hcomplete, hcmd, -⟩
        rcases restOfPacket_cases env src none false h16 with
          ⟨-, t, src', hhdr, heq | ⟨hr, -⟩⟩ | ⟨hnot, -⟩
        · rw [← hhdr] at hcmd
          rw [heq, processPacket_handler_dispatched hcmd] at h
          exact h _ (mem_singleton.mpr rfl) hcmd
        · cases hr
        · exact hnot hcomplete
      · intro h d hd hcmd
        rcases restOfPacket_cases env src none false h16 with
          ⟨hcomplete, t, src', hhdr, heq | ⟨hr, -⟩⟩ | ⟨-, hnil⟩
        · rw [heq] at hd
          rw [eq_of_mem_processPacket hd, hhdr] at hcmd
          exact h ⟨hcomplete, hcmd, hflag, trivial⟩
        · cases hr
        · rw [hnil] at hd
          cases hd
  | some r =>
    by_cases hgen : r.connectionGeneration = s.connectionGeneration
    · have hp : s.pendingRequest s.header = some r := pendingRequest_eq_some.mpr ⟨hf, hgen⟩
      simp only [hgen, ne_eq, not_true_eq_false, if_false, reduceCtorEq, and_false,
        not_false_eq_true, iff_true]
      intro d hd _
      refine ⟨r, hp, ?_⟩
      split at hd
      · exact mem_readReply hd
      · have h16' : headerSize ≤ (s.updateRequest r.addr (storeReturnCode s.header)).dataRead := h16
        exact (mem_restOfPacket h16' hd).1
    · simp only [ne_eq, hgen, not_false_eq_true, if_true, reduceCtorEq, and_false, iff_true]
      exact fun d hd hc => absurd hc (hrunt d hd)

/-- A call that is still reading a header: only an empty packet can be
complete when the header is. -/
theorem recv_header_request_iff (env : Env σ) (src : Source) (h16 : s.dataRead < headerSize) :
    (∀ d ∈ (afpcDsiRecv env s src).dispatched, runsReplyHandler d.command →
      ∃ r, s.pendingRequest (dsiHeader (s.arrived src)) = some r ∧
        d.request = some (storeReturnCode (dsiHeader (s.arrived src)) r)) ↔
    ¬ s.UnmatchedCommand src := by
  have hm : s.missing = headerSize - s.dataRead := if_pos h16
  have harr : s.arrived src = s.received ++ (src.read (headerSize - s.dataRead)).1.getD [] := by
    rw [arrived, hm]
  unfold afpcDsiRecv
  rw [if_pos h16]
  split
  · next c cs src' hrd =>
    have hlen := length_read_le hrd
    rw [hrd, Option.getD_some] at harr
    have hrec : (s.receive (c :: cs)).received = s.arrived src := by
      rw [received_receive, harr]
    have hsize : (s.arrived src).length = s.dataRead + (c :: cs).length := by
      rw [harr, length_append, length_received]
    dsimp only
    by_cases hdone : (s.receive (c :: cs)).dataRead = headerSize ∧
        (s.receive (c :: cs)).header.length = 0
    · -- an empty packet: go on as if the header had been there before
      have h16' : headerSize ≤ (s.receive (c :: cs)).dataRead := by omega
      have hhdr : (s.receive (c :: cs)).header = dsiHeader (s.arrived src) := by
        rw [header_eq h16', hrec]
      have hcomplete : (s.receive (c :: cs)).Complete src' := by
        rw [complete_iff h16', hdone.1, hdone.2, Nat.zero_add, Nat.sub_self, getD_read_zero]
        exact ⟨rfl, Nat.zero_le _⟩
      have hcomplete' : s.Complete src := by
        rw [Complete, hsize, ← dataRead_receive, ← hhdr, hdone.1, hdone.2]
        exact ⟨rfl, Nat.zero_le _⟩
      have h := gotenough_request_iff env src' h16'
      rw [hhdr] at h
      rw [if_pos hdone]
      refine h.trans (not_congr ?_)
      exact and_congr (iff_of_true hcomplete hcomplete') Iff.rfl
    · rw [if_neg hdone]
      refine iff_of_true (fun d hd => by cases hd) ?_
      rintro ⟨⟨hlen16, -⟩, -⟩
      rw [hsize] at hlen16
      have hfull : (s.receive (c :: cs)).dataRead = headerSize := by
        rw [dataRead_receive]
        omega
      refine hdone ⟨hfull, ?_⟩
      rw [header_eq (by omega), hrec]
      omega
  · next got src' hnone hrd =>
    rw [hrd, getD_eq_nil hnone, append_nil] at harr
    refine iff_of_true (fun d hd => by cases hd) ?_
    rintro ⟨⟨hlen, -⟩, -⟩
    rw [harr, length_received] at hlen
    omega

/-- **A reply handler runs only for a queued request of this connection,
except in one case.** The call is any, on any server and any socket: what
it dispatches to a reply handler belongs to the request found for the
packet, if and only if it does not complete a command or write packet
that is marked as no reply and has the id of no queued request. -/
theorem dispatched_request_iff (env : Env σ) (s : AfpServer σ) (src : Source) :
    (∀ d ∈ (afpcDsiRecv env s src).dispatched, runsReplyHandler d.command →
      ∃ r, s.pendingRequest (dsiHeader (s.arrived src)) = some r ∧
        d.request = some (storeReturnCode (dsiHeader (s.arrived src)) r)) ↔
    ¬ s.UnmatchedCommand src := by
  rcases Nat.lt_or_ge s.dataRead headerSize with h16 | h16
  · exact recv_header_request_iff env src h16
  · have hcall : afpcDsiRecv env s src = gotenough env s src := by
      simp only [afpcDsiRecv, Nat.not_lt.mpr h16, if_false]
    rw [hcall, UnmatchedCommand, header_arrived h16]
    exact gotenough_request_iff env src h16

/-- **A command that answers nothing.** An empty command packet with flags
0 and id 1, and no request queued: the arm for reply handlers runs, and
follows the missing request. -/
theorem command_without_request :
    (afpcDsiRecv .plain (.connected [])
        [.data [0, 2, 0, 1, 0, 0, 0, 0, 0, 0, 0, 0, 0, 0, 0, 0]]).ret = .nullDeref ∧
      ¬ ∀ d ∈ (afpcDsiRecv .plain (.connected [])
          [.data [0, 2, 0, 1, 0, 0, 0, 0, 0, 0, 0, 0, 0, 0, 0, 0]]).dispatched,
        runsReplyHandler d.command →
          ∃ h r, (AfpServer.connected []).pendingRequest h = some r ∧
            d.request = some (storeReturnCode h r) := by
  refine ⟨by decide, fun h => ?_⟩
  obtain ⟨_, _, -, hreq⟩ := h ⟨2, [0, 2, 0, 1, 0, 0, 0, 0, 0, 0, 0, 0, 0, 0, 0, 0], none⟩
    (by decide) (by decide)
  cases hreq

end NetatalkClient
