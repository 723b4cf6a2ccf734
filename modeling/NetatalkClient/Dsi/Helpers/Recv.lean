import NetatalkClient.Dsi.Model.Recv
/-!
# One call of the receiver on a packet in progress

What a call of `afpc_dsi_recv` does is settled by three things: the
octets it has of the packet (`received`), what the header matches in the
queue (`pendingRequest`, `isRunt`), and what one read returns.
`afpcDsiRecv_framed` puts them together: the call either takes in a piece
of the packet and returns, or takes in the last piece and finishes the
packet. The framing and the runt results are both read off it.
-/

namespace NetatalkClient

open AfpServer List Octets

variable {σ : Type} {env : Env σ} {s : AfpServer σ} {src src' : Source} {got : Octets}
variable {request : Option DsiRequest} {runt : Bool} {a b : Octets} {ds : List Dispatch}

/-! ## Headers -/

theorem dsiHeader_congr (h : ∀ i < headerSize, a.byte i = b.byte i) :
    dsiHeader a = dsiHeader b := by
  have h' : ∀ i, i < 16 → a.byte i = b.byte i := h
  have hid : a.be16 2 = b.be16 2 := be16_congr (h' 2 (by omega)) (h' 3 (by omega))
  have herr : a.be32 4 = b.be32 4 := be32_congr fun j _ hj => h' j (by omega)
  have hlen : a.be32 8 = b.be32 8 := be32_congr fun j _ hj => h' j (by omega)
  simp only [dsiHeader, h' 0 (by omega), h' 1 (by omega), hid, herr, hlen]

theorem dsiHeader_append (c : Octets) (h : headerSize ≤ a.length) :
    dsiHeader (a ++ c) = dsiHeader a := dsiHeader_congr fun _ hi => byte_append (by omega)

theorem dsiHeader_window {n : ℕ} (h : headerSize ≤ n) : dsiHeader (b.window n) = dsiHeader b :=
  dsiHeader_congr fun _ hi => byte_window (by omega)

namespace AfpServer

/-- Once sixteen octets are in, the header is that of what was received. -/
theorem header_eq (h : headerSize ≤ s.dataRead) : s.header = dsiHeader s.received :=
  (dsiHeader_window h).symm

@[simp]
theorem length_received : s.received.length = s.dataRead := length_window _ _

@[simp]
theorem received_receive : (s.receive got).received = s.received ++ got := window_overwrite _ _ _

@[simp]
theorem dataRead_receive : (s.receive got).dataRead = s.dataRead + got.length := rfl

theorem header_receive (h : headerSize ≤ s.dataRead) : (s.receive got).header = s.header := by
  have hlen : headerSize ≤ s.received.length := by rwa [length_received]
  have hrec : headerSize ≤ (s.receive got).dataRead := by rw [dataRead_receive]; omega
  rw [header_eq hrec, header_eq h, received_receive, dsiHeader_append _ hlen]

/-! ## What a header matches -/

/-- The request a header is taken to answer: the one found, unless it was
queued on an earlier connection. -/
def pendingRequest (s : AfpServer σ) (h : DsiHeader) : Option DsiRequest :=
  (afpcDsiFindRequest s.commandRequests h.requestid).filter
    fun r => r.connectionGeneration == s.connectionGeneration

/-- A reply to nothing, or anything that matches a request of an earlier
connection. -/
def isRunt (s : AfpServer σ) (h : DsiHeader) : Bool :=
  match afpcDsiFindRequest s.commandRequests h.requestid with
  | none => h.flags == dsiReply
  | some r => r.connectionGeneration != s.connectionGeneration

/-- The server once `gotenough` has looked at a header. -/
def seen (s : AfpServer σ) (h : DsiHeader) : AfpServer σ :=
  if s.isRunt h then s.countRunt
  else
    match s.pendingRequest h with
    | none => s
    | some r => s.updateRequest r.addr (storeReturnCode h)

/-! The return code is all that `storeReturnCode` changes. Said for any
header: with a header that is read from a buffer, comparing two requests
field by field computes their return codes. -/

section
variable (h : DsiHeader) (r : DsiRequest)

@[simp]
theorem storeReturnCode_addr : (storeReturnCode h r).addr = r.addr := rfl

@[simp]
theorem storeReturnCode_wait : (storeReturnCode h r).wait = r.wait := rfl

@[simp]
theorem storeReturnCode_isRead : (storeReturnCode h r).isRead = r.isRead := rfl

@[simp]
theorem storeReturnCode_streamBuffer : (storeReturnCode h r).streamBuffer = r.streamBuffer := rfl

@[simp]
theorem storeReturnCode_other : (storeReturnCode h r).other = r.other := rfl

@[simp]
theorem storeReturnCode_connectionGeneration :
    (storeReturnCode h r).connectionGeneration = r.connectionGeneration := rfl

@[simp]
theorem storeReturnCode_storeReturnCode :
    storeReturnCode h (storeReturnCode h r) = storeReturnCode h r := rfl

end

variable {h : DsiHeader}

theorem pendingRequest_eq_some {r : DsiRequest} :
    s.pendingRequest h = some r ↔
      afpcDsiFindRequest s.commandRequests h.requestid = some r ∧
        r.connectionGeneration = s.connectionGeneration := by
  simp [pendingRequest, Option.filter_eq_some_iff]

theorem pendingRequest_eq_none_of_isRunt (hr : s.isRunt h = true) : s.pendingRequest h = none := by
  unfold isRunt at hr
  unfold pendingRequest
  split at hr
  · next hf => simp [hf]
  · next r hf => simpa [hf] using hr

end AfpServer

/-- **`gotenough` on anything but the reply to a read** goes on with the
rest of the packet, under the verdict the header earned. -/
theorem gotenough_eq (hread : ∀ r, s.pendingRequest s.header = some r → r.isRead = false) :
    gotenough env s src =
      restOfPacket env (s.seen s.header) src
        ((s.pendingRequest s.header).map (storeReturnCode s.header)) (s.isRunt s.header) := by
  unfold gotenough
  cases hf : afpcDsiFindRequest s.commandRequests s.header.requestid with
  | none =>
    have hp : s.pendingRequest s.header = none := by simp [pendingRequest, hf]
    have hr : s.isRunt s.header = (s.header.flags == dsiReply) := by simp [isRunt, hf]
    by_cases hflag : s.header.flags = dsiReply
    · have hr' : s.isRunt s.header = true := by simp [hr, hflag]
      simp [hflag, seen, hr', hp]
    · have hr' : s.isRunt s.header = false := by simp [hr, hflag]
      simp [hflag, seen, hr', hp]
  | some r =>
    have hr : s.isRunt s.header = (r.connectionGeneration != s.connectionGeneration) := by
      simp [isRunt, hf]
    by_cases hgen : r.connectionGeneration = s.connectionGeneration
    · have hp : s.pendingRequest s.header = some r := pendingRequest_eq_some.mpr ⟨hf, hgen⟩
      have hr' : s.isRunt s.header = false := by simp [hr, hgen]
      simp [hgen, seen, hr', hp, hread r hp]
    · have hr' : s.isRunt s.header = true := by simp [hr, hgen]
      simp [hgen, seen, hr', pendingRequest_eq_none_of_isRunt hr']

/-! ## The rest of a packet -/

@[simp]
theorem out_dispatched : (out s src request ds).dispatched = ds := by
  unfold out
  split
  · rfl
  · split <;> rfl

/-- A packet is taken out of the buffer, or is not all there. -/
theorem afterProcessing_cases (s : AfpServer σ) (src : Source) (request : Option DsiRequest)
    (ds : List Dispatch) :
    afterProcessing s src request ds = ⟨.error, s, src, ds⟩ ∨
      afterProcessing s src request ds = out { s with dataRead := 0 } src request ds ∨
      ∃ n, afterProcessing s src request ds = out (s.shift n) src request ds := by
  by_cases hall : s.dataRead = s.header.length + headerSize
  · exact .inr (.inl (if_pos hall))
  by_cases hpart : s.dataRead < (s.header.length + headerSize) % 4294967296
  · exact .inl ((if_neg hall).trans (if_pos hpart))
  · exact .inr (.inr ⟨_, (if_neg hall).trans (if_neg hpart)⟩)

/-- What the handler of a reply comes to: the request's own, or the one
for its subcommand. -/
def AfpServer.handled (env : Env σ) (s : AfpServer σ) (src : Source) (r : DsiRequest) :
    Option (ℤ × AfpServer σ × Source) :=
  match r.replyHandler with
  | some h =>
      let (result, session) := env.replyHandler h s.incomingBuffer s.dataRead r.other s.session
      some (result, { s with session }, src)
  | none => s.commandReply env src r

/-- **The arms of the switch on the command byte.** -/
theorem processPacket_cases {ret : Recv σ} (hret : processPacket env s src request runt = ret)
    (hds : [⟨s.header.command, s.received, request⟩] = ds) :
    s.header.command = dsiCloseSession ∧ ret = afterProcessing s.loopDisconnect src request ds ∨
    s.header.command = dsiGetStatus ∧ ret = afterProcessing (s.getstatusReply env) src request ds ∨
    s.header.command = dsiOpenSession ∧ ret = afterProcessing s.opensessionReply src request ds ∨
    s.header.command = dsiTickle ∧ ret = afterProcessing (s.incomingTickle env) src request ds ∨
    (s.header.command = dsiWrite ∨ s.header.command = dsiCommand) ∧
      (runt = true ∧ ret = afterProcessing s src request [] ∨
        runt = false ∧ ret = ⟨.nullDeref, s, src, ds⟩ ∧
          (∀ r, request = some r → s.handled env src r = none) ∨
        runt = false ∧ ∃ r result s' src', request = some r ∧
          s.handled env src r = some (result, s', src') ∧
          ret = afterProcessing (if result ≠ 0 ∧ r.returnCode = 0 then
            s'.updateRequest r.addr fun p => { p with returnCode := result } else s')
            src' request ds) ∨
    s.header.command = dsiAttention ∧
      (env.malloc = false ∧ ret = ⟨.error, s, src, []⟩ ∨
        env.malloc = true ∧ ret = afterProcessing
          (if env.pthreadCreate then { s with refcount := s.refcount + 1 } else s)
          src request ds) ∨
    (∀ c ∈ [dsiCloseSession, dsiGetStatus, dsiOpenSession, dsiTickle, dsiWrite, dsiCommand,
      dsiAttention], s.header.command ≠ c) ∧ ret = ⟨.error, s, src, []⟩ := by
  subst hds
  by_cases hclose : s.header.command = dsiCloseSession
  · exact .inl ⟨hclose, hret.symm.trans (if_pos hclose)⟩
  replace hret := hret.symm.trans (if_neg hclose)
  by_cases hstatus : s.header.command = dsiGetStatus
  · exact .inr (.inl ⟨hstatus, hret.trans (if_pos hstatus)⟩)
  replace hret := hret.trans (if_neg hstatus)
  by_cases hopen : s.header.command = dsiOpenSession
  · exact .inr (.inr (.inl ⟨hopen, hret.trans (if_pos hopen)⟩))
  replace hret := hret.trans (if_neg hopen)
  by_cases htickle : s.header.command = dsiTickle
  · exact .inr (.inr (.inr (.inl ⟨htickle, hret.trans (if_pos htickle)⟩)))
  replace hret := hret.trans (if_neg htickle)
  refine .inr (.inr (.inr (.inr ?_)))
  by_cases hreply : s.header.command = dsiWrite ∨ s.header.command = dsiCommand
  · replace hret := hret.trans (if_pos hreply)
    refine .inl ⟨hreply, ?_⟩
    cases runt with
    | true => exact .inl ⟨rfl, hret.trans (if_pos rfl)⟩
    | false =>
      replace hret := hret.trans (if_neg Bool.false_ne_true)
      cases request with
      | none => exact .inr (.inl ⟨rfl, hret, fun r hr => nomatch hr⟩)
      | some r =>
        -- the handler's answer, whichever of the two gives it
        cases hr : r.replyHandler with
        | some h =>
          have hh : s.handled env src r = some
              ((env.replyHandler h s.incomingBuffer s.dataRead r.other s.session).1,
                { s with session :=
                  (env.replyHandler h s.incomingBuffer s.dataRead r.other s.session).2 }, src) := by
            rw [handled, hr]
          exact .inr (.inr ⟨rfl, r, _, _, _, rfl, hh, by simpa only [hr] using hret⟩)
        | none =>
          have hh : s.handled env src r = s.commandReply env src r := by
            rw [handled, hr]
          cases hc : s.commandReply env src r with
          | none =>
            refine .inr (.inl ⟨rfl, by simpa only [hr, hc] using hret, fun r' hr' => ?_⟩)
            cases hr'
            rw [hh, hc]
          | some reply =>
            exact .inr (.inr ⟨rfl, r, _, _, _, rfl, hh.trans hc, by simpa only [hr, hc] using hret⟩)
  replace hret := hret.trans (if_neg hreply)
  by_cases hattention : s.header.command = dsiAttention
  · replace hret := hret.trans (if_pos hattention)
    refine .inr (.inl ⟨hattention, ?_⟩)
    cases hm : env.malloc with
    | false => exact .inl ⟨rfl, hret.trans (if_pos (by rw [hm]; rfl))⟩
    | true => exact .inr ⟨rfl, hret.trans (if_neg (by rw [hm]; decide))⟩
  · refine .inr (.inr ⟨?_, hret.trans (if_neg hattention)⟩)
    simp only [forall_mem_cons]
    exact ⟨hclose, hstatus, hopen, htickle, fun h => hreply (.inl h), fun h => hreply (.inr h),
      hattention, by simp⟩

/-- What becomes of a packet once all of it is in: a runt that had a
payload is dropped, anything else is switched on its command. -/
def finishPacket (env : Env σ) (s : AfpServer σ) (src : Source) (request : Option DsiRequest)
    (runt : Bool) : Recv σ :=
  if runt ∧ s.header.length ≠ 0 then afterProcessing s src request []
  else processPacket env s src request runt

theorem restOfPacket_of_header (h : s.dataRead = headerSize) (h0 : s.header.length = 0) :
    restOfPacket env s src request runt = finishPacket env s src request runt := by
  simp [restOfPacket, finishPacket, h, h0]

/-- A payload that cannot fit the buffer is refused unread. -/
theorem restOfPacket_of_oversize (h : bufsize - headerSize < s.header.length) :
    restOfPacket env s src request runt = ⟨.error, s, src, []⟩ := by
  have h0 : s.header.length ≠ 0 := by omega
  simp [restOfPacket, h, h0]

/-- One read of the payload, short of its end or up to it. -/
theorem restOfPacket_of_read (h16 : headerSize ≤ s.dataRead)
    (hfit : s.header.length ≤ bufsize - headerSize)
    (hmore : s.dataRead < s.header.length + headerSize)
    (hgot : src.read (s.header.length + headerSize - s.dataRead) = (some got, src'))
    (hne : got ≠ []) (hle : got.length ≤ s.header.length + headerSize - s.dataRead) :
    restOfPacket env s src request runt =
      if s.dataRead + got.length < s.header.length + headerSize then
        ⟨.ok, s.receive got, src', []⟩
      else finishPacket env (s.receive got) src' request runt := by
  obtain ⟨c, cs, rfl⟩ := exists_cons_of_ne_nil hne
  have hlen : s.header.length ≠ 0 := by omega
  have hrem : s.header.length - (s.dataRead - headerSize) =
      s.header.length + headerSize - s.dataRead := by omega
  have hmin : min (s.header.length + headerSize - s.dataRead) (bufsize - s.dataRead) =
      s.header.length + headerSize - s.dataRead := by
    have hsz : headerSize ≤ bufsize := by decide
    omega
  have hne0 : ¬ s.header.length + headerSize - s.dataRead = 0 := by omega
  have hnot : ¬ s.header.length < s.dataRead - headerSize := by omega
  simp only [restOfPacket, hlen, and_false, if_false, Nat.not_lt.mpr hfit,
    hnot, hrem, hmin, hne0, hgot,
    header_receive h16, dataRead_receive, finishPacket, ne_eq, not_false_eq_true, and_true]

/-! ## Looking at a header changes nothing the framing reads -/

namespace AfpServer

variable {h : DsiHeader}

theorem seen_incomingBuffer : (s.seen h).incomingBuffer = s.incomingBuffer := by
  unfold seen
  split
  · rfl
  · split <;> rfl

theorem seen_dataRead : (s.seen h).dataRead = s.dataRead := by
  unfold seen
  split
  · rfl
  · split <;> rfl

theorem seen_header : (s.seen h).header = s.header := by
  rw [header, header, seen_incomingBuffer]

theorem seen_received : (s.seen h).received = s.received := by
  rw [received, received, seen_incomingBuffer, seen_dataRead]

/-- The piece is in the buffer whether or not the header was looked at. -/
theorem received_taken :
    (if s.dataRead < headerSize then s.receive got else (s.receive got).seen h).received =
      s.received ++ got := by
  split
  · exact received_receive
  · rw [seen_received, received_receive]

theorem receive_seen : (s.seen h).receive got = (s.receive got).seen h := by
  change _ = if s.isRunt h then (s.receive got).countRunt else
    match s.pendingRequest h with
    | none => s.receive got
    | some r => (s.receive got).updateRequest r.addr (storeReturnCode h)
  unfold seen
  split
  · rfl
  · split <;> rfl

end AfpServer

/-! ## A packet in progress -/

/-- A DSI packet: a header and exactly the payload it announces. -/
structure Packet where
  bytes : Octets
  whole : bytes.length = headerSize + (dsiHeader bytes).length

namespace Packet

def header (p : Packet) : DsiHeader := dsiHeader p.bytes

theorem length_bytes (p : Packet) : p.bytes.length = headerSize + p.header.length := p.whole

theorem bytes_ne_nil (p : Packet) : p.bytes ≠ [] := by
  intro h
  have hlen := p.length_bytes
  rw [h, length_nil] at hlen
  have h16 : headerSize = 16 := rfl
  omega

/-- Sixteen octets of a packet show its header. -/
theorem header_eq {p : Packet} {part rest : Octets} (hp : part ++ rest = p.bytes)
    (h : headerSize ≤ part.length) : dsiHeader part = p.header := by
  rw [header, ← hp, dsiHeader_append _ h]

end Packet

section InProgress

variable (env : Env σ) {p : Packet} {rest later : Octets}

/-- A call takes a piece `got` of what is to come. If that was all of it
the packet is finished; otherwise the call returns 0 and leaves `next got`. -/
abbrev TakesPiece (s : AfpServer σ) (src : Source) (p : Packet) (rest later : Octets)
    (next : Octets → AfpServer σ) : Prop :=
    ∃ got more src', rest = got ++ more ∧ got ≠ [] ∧ src'.Flowing ∧
      src'.pending = more ++ later ∧
      afpcDsiRecv env s src =
        if more = [] then
          finishPacket env ((s.receive got).seen p.header) src'
            ((s.pendingRequest p.header).map (storeReturnCode p.header)) (s.isRunt p.header)
        else ⟨.ok, next got, src', []⟩

theorem length_rest (hp : s.received ++ rest = p.bytes) :
    s.dataRead + rest.length = headerSize + p.header.length := by
  rw [← p.length_bytes, ← hp, length_append, length_received]

/-- A call while the header is not all in. -/
theorem afpcDsiRecv_header (h16 : s.dataRead < headerSize) (hp : s.received ++ rest = p.bytes)
    (hflow : src.Flowing) (hpend : src.pending = rest ++ later)
    (hread : ∀ r, s.pendingRequest p.header = some r → r.isRead = false) :
    TakesPiece env s src p rest later s.receive := by
  have hlen := length_rest hp
  obtain ⟨got, more, src', hrd, hgot, hle, rfl, hpend', hflow'⟩ :=
    Source.read_within hflow hpend (n := headerSize - s.dataRead) (by omega) (by omega)
  refine ⟨got, more, src', rfl, hgot, hflow', hpend', ?_⟩
  rw [length_append] at hlen
  have hcall : afpcDsiRecv env s src =
      if (s.receive got).dataRead = headerSize ∧ (s.receive got).header.length = 0 then
        gotenough env (s.receive got) src'
      else ⟨.ok, s.receive got, src', []⟩ := by
    obtain ⟨c, cs, rfl⟩ := exists_cons_of_ne_nil hgot
    simp only [afpcDsiRecv, h16, if_true, hrd]
  rw [hcall]
  have hhdr : s.dataRead + got.length = headerSize → (s.receive got).header = p.header := by
    intro hfull
    have hp' : (s.received ++ got) ++ more = p.bytes := by rw [append_assoc, hp]
    rw [header_eq (by rw [dataRead_receive]; omega), received_receive]
    exact Packet.header_eq hp' (by rw [length_append, length_received]; omega)
  by_cases hmore : more = []
  · -- the header was the whole packet
    subst hmore
    rw [length_nil] at hlen
    have hfull : s.dataRead + got.length = headerSize := by omega
    have h0 : p.header.length = 0 := by omega
    rw [if_pos ⟨hfull, by rw [hhdr hfull, h0]⟩, if_pos rfl,
      gotenough_eq (by rw [hhdr hfull]; exact hread), hhdr hfull,
      restOfPacket_of_header (by rw [seen_dataRead]; exact hfull)
        (by rw [seen_header, hhdr hfull, h0])]
    rfl
  · have hpos : 0 < more.length := length_pos_iff.mpr hmore
    rw [if_neg hmore, if_neg]
    rintro ⟨hfull, h0⟩
    rw [dataRead_receive] at hfull
    rw [hhdr hfull] at h0
    omega

theorem afpcDsiRecv_of_header_in (src : Source) (h16 : headerSize ≤ s.dataRead)
    (hp : s.received ++ rest = p.bytes)
    (hread : ∀ r, s.pendingRequest p.header = some r → r.isRead = false) :
    afpcDsiRecv env s src =
      restOfPacket env (s.seen p.header) src
        ((s.pendingRequest p.header).map (storeReturnCode p.header)) (s.isRunt p.header) ∧
      (s.seen p.header).header = p.header := by
  have hhdr : s.header = p.header := by
    rw [header_eq h16]
    exact Packet.header_eq hp (by rwa [length_received])
  have hcall : afpcDsiRecv env s src = gotenough env s src := by
    simp only [afpcDsiRecv, Nat.not_lt.mpr h16, if_false]
  exact ⟨by rw [hcall, gotenough_eq (by rw [hhdr]; exact hread), hhdr], by rw [seen_header, hhdr]⟩

/-- A call with the header in and some of the payload to come. -/
theorem afpcDsiRecv_payload (h16 : headerSize ≤ s.dataRead) (hfit : p.bytes.length ≤ bufsize)
    (hp : s.received ++ rest = p.bytes) (hrest : rest ≠ []) (hflow : src.Flowing)
    (hpend : src.pending = rest ++ later)
    (hread : ∀ r, s.pendingRequest p.header = some r → r.isRead = false) :
    TakesPiece env s src p rest later fun got => (s.receive got).seen p.header := by
  have hlen := length_rest hp
  have hpos : 0 < rest.length := length_pos_iff.mpr hrest
  obtain ⟨hcall, hseen⟩ := afpcDsiRecv_of_header_in env src h16 hp hread
  obtain ⟨got, more, src', hrd, hgot, hle, rfl, hpend', hflow'⟩ :=
    Source.read_within hflow hpend (n := rest.length) hpos (Nat.le_refl _)
  refine ⟨got, more, src', rfl, hgot, hflow', hpend', ?_⟩
  have hrd' : src.read ((s.seen p.header).header.length + headerSize -
      (s.seen p.header).dataRead) = (some got, src') := by
    rw [hseen, seen_dataRead, ← hrd]
    congr 1
    omega
  rw [length_append] at hlen hle hpos
  rw [p.length_bytes] at hfit
  rw [hcall, restOfPacket_of_read (by rwa [seen_dataRead]) (by rw [hseen]; omega)
      (by rw [hseen, seen_dataRead]; omega) hrd' hgot (by rw [hseen, seen_dataRead]; omega),
    hseen, seen_dataRead, receive_seen]
  by_cases hmore : more = []
  · subst hmore
    rw [length_nil] at hlen
    rw [if_neg (by omega), if_pos rfl]
  · have : 0 < more.length := length_pos_iff.mpr hmore
    rw [if_pos (by omega), if_neg hmore]

/-- **One call on a packet in progress**, with `rest` of it still to come.
The header is looked at once it is in. -/
theorem afpcDsiRecv_framed (hfit : headerSize ≤ s.dataRead → p.bytes.length ≤ bufsize)
    (hp : s.received ++ rest = p.bytes) (hrest : rest ≠ []) (hflow : src.Flowing)
    (hpend : src.pending = rest ++ later)
    (hread : ∀ r, s.pendingRequest p.header = some r → r.isRead = false) :
    TakesPiece env s src p rest later fun got =>
      if s.dataRead < headerSize then s.receive got else (s.receive got).seen p.header := by
  rcases Nat.lt_or_ge s.dataRead headerSize with h16 | h16
  · simp only [h16, if_true]
    exact afpcDsiRecv_header env h16 hp hflow hpend hread
  · simp only [Nat.not_lt.mpr h16, if_false]
    exact afpcDsiRecv_payload env h16 (hfit h16) hp hrest hflow hpend hread

end InProgress

end NetatalkClient
