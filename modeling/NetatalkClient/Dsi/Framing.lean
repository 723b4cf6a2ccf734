import NetatalkClient.Dsi.Helpers.Recv
/-!
# Framing does not depend on fragmentation

The receiver keeps its place in the stream in `data_read` alone, and a
socket may hand the stream out in any pieces. The calls here are made by
the main loop on one connection: between two of them other threads may
change everything in the server but the incoming buffer and `data_read`,
so each call brings its own server and only those two are carried over.

A packet the server sends unasked can carry the id of a queued request.
`Unclaimed` is the condition that it does not get taken for the reply to
a read or for a late packet of an earlier connection; without it the
packet never reaches its handler (`tickle_taken_for_read`).
-/

namespace NetatalkClient

open AfpServer List

variable {σ : Type} {env : Env σ} {s s' : AfpServer σ} {src : Source}
variable {request : Option DsiRequest} {d : List Dispatch}

/-! ## The handlers leave the incoming buffer alone -/

namespace AfpServer

/-- The part of the server the framing rests on. -/
def SameBuffer (s s' : AfpServer σ) : Prop :=
  s'.incomingBuffer = s.incomingBuffer ∧ s'.dataRead = s.dataRead

theorem sameBuffer_opensessionOptions (fuel : ℕ) (options : Octets) (s : AfpServer σ) :
    SameBuffer s (opensessionOptions fuel options s) := by
  induction fuel generalizing options s with
  | zero => exact ⟨rfl, rfl⟩
  | succ fuel ih =>
    match options with
    | [] => exact ⟨rfl, rfl⟩
    | [_] => exact ⟨rfl, rfl⟩
    | optionType :: optionLen :: rest =>
      rw [opensessionOptions]
      split
      · exact ⟨rfl, rfl⟩
      · obtain ⟨hb, hn⟩ := ih (rest.drop optionLen.toNat) _
        refine ⟨hb.trans ?_, hn.trans ?_⟩
        · split
          · rfl
          · split <;> rfl
        · split
          · rfl
          · split <;> rfl

theorem sameBuffer_opensessionReply : SameBuffer s s.opensessionReply := by
  obtain ⟨hb, hn⟩ := sameBuffer_opensessionOptions s.dataRead (s.received.drop headerSize)
    { s with txQuantum := 0 }
  unfold opensessionReply
  dsimp only
  split
  · exact ⟨hb, hn⟩
  · exact ⟨hb, hn⟩

theorem sameBuffer_getstatusReply : SameBuffer s (s.getstatusReply env) := by
  unfold getstatusReply
  split
  · exact ⟨rfl, rfl⟩
  · exact ⟨rfl, rfl⟩

theorem sameBuffer_removeFromRequestQueue (addr : ℕ) :
    SameBuffer s (s.removeFromRequestQueue addr) := by
  unfold removeFromRequestQueue
  split
  · exact ⟨rfl, rfl⟩
  · exact ⟨rfl, rfl⟩

theorem sameBuffer_transmit (size requestid subcommand : ℕ) :
    SameBuffer s (s.transmit env size requestid subcommand) := by
  unfold transmit
  split
  · exact ⟨rfl, rfl⟩
  · obtain ⟨hb, hn⟩ := sameBuffer_removeFromRequestQueue
      (s := (s.enqueue (s.newRequest requestid subcommand)).written env.write size)
      (s.newRequest requestid subcommand).addr
    refine ⟨hb.trans ?_, hn.trans ?_⟩
    · unfold written
      split <;> rfl
    · unfold written
      split <;> rfl

theorem sameBuffer_incomingTickle (hconn : s.connectState ≠ .disconnected) :
    SameBuffer s (s.incomingTickle env) := by
  have hconn' : (afpcDsiSetupHeader s).2.connectState ≠ .disconnected := hconn
  rw [incomingTickle, sendDontWait, if_neg hconn']
  exact sameBuffer_transmit _ _ _

theorem sameBuffer_commandReply {r : DsiRequest} (hr : r.isRead = false) :
    ∃ result s', s.commandReply env src r = some (result, s', src) ∧ SameBuffer s s' := by
  simp only [commandReply, hr, Bool.false_eq_true, if_false]
  split
  · exact ⟨_, _, rfl, rfl, rfl⟩
  · split
    · exact ⟨_, _, rfl, rfl, rfl⟩
    · exact ⟨_, _, rfl, rfl, rfl⟩

/-- Either way of handling a reply leaves the buffer and the socket alone. -/
theorem sameBuffer_handled (env : Env σ) (src : Source) {r : DsiRequest} (hr : r.isRead = false) :
    ∃ result s', s.handled env src r = some (result, s', src) ∧ SameBuffer s s' := by
  unfold handled
  cases r.replyHandler with
  | some handler => exact ⟨_, _, rfl, rfl, rfl⟩
  | none => exact sameBuffer_commandReply hr

end AfpServer

/-! ## The end of a packet -/

/-- The call ended well, with the incoming buffer empty. -/
structure Finished (r : Recv σ) (src : Source) (dispatched : List Dispatch) : Prop where
  ret : r.ret = .ok
  dataRead : r.server.dataRead = 0
  source : r.source = src
  dispatched : r.dispatched = dispatched

theorem finished_out (h : s.dataRead = 0) : Finished (out s src request d) src d := by
  unfold out
  split
  · exact ⟨rfl, h, rfl, rfl⟩
  · split
    · exact ⟨rfl, h, rfl, rfl⟩
    · exact ⟨rfl, (sameBuffer_removeFromRequestQueue _).2.trans h, rfl, rfl⟩

/-- A whole packet is taken out of the buffer, whatever its handler did
elsewhere. -/
theorem finished_afterProcessing (hs : SameBuffer s s')
    (h : s.dataRead = s.header.length + headerSize) :
    Finished (afterProcessing s' src request d) src d := by
  have h' : s'.dataRead = s'.header.length + headerSize := by
    rw [AfpServer.header, hs.1, hs.2]
    exact h
  rw [afterProcessing, if_pos h']
  exact finished_out rfl

/-- The commands a reply to one of the client's requests can carry. -/
def replyCommands : List ℕ := [dsiCommand, dsiGetStatus, dsiOpenSession, dsiTickle, dsiWrite]

/-- **Every packet the switch knows is dispatched once, as it stands in the
buffer**, provided a command reply has its request. -/
theorem finished_processPacket {runt : Bool} (h : s.dataRead = s.header.length + headerSize)
    (hconn : s.connectState ≠ .disconnected)
    (hmalloc : s.header.command = dsiAttention → env.malloc = true)
    (hcmd : s.header.command ∈ dsiAttention :: replyCommands)
    (hreq : s.header.command = dsiWrite ∨ s.header.command = dsiCommand →
      runt = false ∧ ∃ r, request = some r ∧ r.isRead = false) :
    Finished (processPacket env s src request runt) src
      [⟨s.header.command, s.received, request⟩] := by
  generalize hret : processPacket env s src request runt = ret
  rcases processPacket_cases hret rfl with ⟨hc, rfl⟩ | ⟨-, rfl⟩ | ⟨-, rfl⟩ | ⟨-, rfl⟩ |
    ⟨hc, harm⟩ | ⟨hc, ⟨hm, rfl⟩ | ⟨-, rfl⟩⟩ | ⟨hc, rfl⟩
  · rw [hc] at hcmd
    exact absurd hcmd (by decide)
  · exact finished_afterProcessing sameBuffer_getstatusReply h
  · exact finished_afterProcessing sameBuffer_opensessionReply h
  · exact finished_afterProcessing (sameBuffer_incomingTickle hconn) h
  · obtain ⟨rfl, r, rfl, hr⟩ := hreq hc
    obtain ⟨result, s', hs', hsame⟩ := sameBuffer_handled env src (s := s) hr
    rcases harm with ⟨hrunt, -⟩ | ⟨-, -, hnone⟩ | ⟨-, r', result', s'', src', hr', hs'', rfl⟩
    · exact absurd hrunt Bool.false_ne_true
    · rw [hnone r rfl] at hs'
      cases hs'
    · cases hr'
      rw [hs'] at hs''
      cases hs''
      refine finished_afterProcessing (s := s) ?_ h
      split
      · exact ⟨hsame.1, hsame.2⟩
      · exact hsame
  · rw [hmalloc hc] at hm
    exact absurd hm.symm Bool.false_ne_true
  · refine finished_afterProcessing (s := s) ?_ h
    split
    · exact ⟨rfl, rfl⟩
    · exact ⟨rfl, rfl⟩
  · have hknown : ∀ c ∈ dsiAttention :: replyCommands, c ∈ [dsiCloseSession, dsiGetStatus,
        dsiOpenSession, dsiTickle, dsiWrite, dsiCommand, dsiAttention] := by
      decide
    exact absurd rfl (hc _ (hknown _ hcmd))

/-! ## Streams of packets -/

/-- The octets of a list of packets, one after the other. -/
def stream (packets : List Packet) : Octets := (packets.map Packet.bytes).flatten

section Stream

variable {packets : List Packet} {p : Packet} {k n : ℕ}

theorem stream_append (ps qs : List Packet) : stream (ps ++ qs) = stream ps ++ stream qs := by
  simp [stream]

theorem stream_drop (h : packets[k]? = some p) :
    stream (packets.drop k) = p.bytes ++ stream (packets.drop (k + 1)) := by
  obtain ⟨hk, rfl⟩ := List.getElem?_eq_some_iff.mp h
  rw [drop_eq_getElem_cons hk, stream, map_cons, flatten_cons, stream]

theorem length_stream_drop_le (packets : List Packet) (h : k ≤ n) :
    (stream (packets.drop n)).length ≤ (stream (packets.drop k)).length := by
  obtain ⟨m, rfl⟩ := Nat.exists_eq_add_of_le h
  rw [← drop_drop]
  conv_rhs => rw [← take_append_drop m (packets.drop k), stream_append, length_append]
  omega

end Stream

/-! ## Calls -/

/-- One call the main loop makes: its surroundings, and the server as
other threads have left it. -/
structure Call (σ : Type) where
  env : Env σ
  server : AfpServer σ

namespace Call

/-- What the caller and the peer see to: the main loop calls only while
the connection is up, and the packet is the reply to a pending request
other than a read, or one of the two the server sends unasked. -/
structure Admits (c : Call σ) (p : Packet) : Prop where
  connected : c.server.connectState ≠ .disconnected
  kind : (p.header.flags = dsiReply ∧ p.header.command ∈ replyCommands ∧
      ∃ r, c.server.pendingRequest p.header = some r ∧ r.isRead = false) ∨
    (p.header.flags = dsiRequest ∧
      (p.header.command = dsiTickle ∨ p.header.command = dsiAttention))

/-- A packet sent unasked is not taken for something else: a queued
request with its id is no read of this connection, and one of an earlier
connection is harmless only to an empty packet. An attention also needs
memory for its context. -/
structure Unclaimed (c : Call σ) (p : Packet) : Prop where
  request : p.header.flags = dsiRequest →
    ∀ r, afpcDsiFindRequest c.server.commandRequests p.header.requestid = some r →
      if r.connectionGeneration = c.server.connectionGeneration then r.isRead = false
      else p.header.length = 0
  memory : p.header.command = dsiAttention → c.env.malloc = true

end Call

/-- What the receiver carries from call to call, the socket, and every
packet dispatched so far. -/
structure Receiver where
  incomingBuffer : Octets
  dataRead : ℕ
  source : Source
  dispatched : List Dispatch

namespace Receiver

def received (rx : Receiver) : Octets := rx.incomingBuffer.window rx.dataRead

/-- The server a call works on. -/
def server (rx : Receiver) (c : Call σ) : AfpServer σ :=
  { c.server with incomingBuffer := rx.incomingBuffer, dataRead := rx.dataRead }

def recv (rx : Receiver) (c : Call σ) : Recv σ := afpcDsiRecv c.env (rx.server c) rx.source

def call (rx : Receiver) (c : Call σ) : Receiver :=
  { incomingBuffer := (rx.recv c).server.incomingBuffer
    dataRead := (rx.recv c).server.dataRead
    source := (rx.recv c).source
    dispatched := rx.dispatched ++ (rx.recv c).dispatched }

/-- The receiver after `n` calls. -/
def after (rx : Receiver) (calls : ℕ → Call σ) : ℕ → Receiver
  | 0 => rx
  | n + 1 => (rx.after calls n).call (calls n)

/-- A receiver between packets, with the stream arriving in `runs`. -/
def start (incomingBuffer : Octets) (runs : List Octets) : Receiver :=
  { incomingBuffer, dataRead := 0, source := runs.map .data, dispatched := [] }

/-- The packet in progress. -/
def next (packets : List Packet) (rx : Receiver) : Option Packet :=
  packets[rx.dispatched.length]?

/-- **In step with the stream**: the packets dispatched are the first of
the stream, each with its own command and octets, and what is in the
buffer is the beginning of the next, short of its end. -/
structure InStep (packets : List Packet) (rx : Receiver) : Prop where
  dispatched : rx.dispatched.map (fun d => (d.command, d.packet)) =
    (packets.take rx.dispatched.length).map fun p => (p.header.command, p.bytes)
  stream : rx.received ++ rx.source.pending = stream (packets.drop rx.dispatched.length)
  proper : ∀ p, next packets rx = some p → rx.dataRead < p.bytes.length
  flowing : rx.source.Flowing

end Receiver

/-! ## One call -/

namespace Call

variable {c : Call σ} {p : Packet}

theorem not_isRead (ha : c.Admits p) (hu : c.Unclaimed p) {r : DsiRequest}
    (hr : c.server.pendingRequest p.header = some r) : r.isRead = false := by
  obtain ⟨hf, hgen⟩ := pendingRequest_eq_some.mp hr
  rcases ha.kind with ⟨-, -, r', hr', hread⟩ | ⟨hflag, -⟩
  · rw [hr] at hr'
    cases hr'
    exact hread
  · have h := hu.request hflag r hf
    rwa [if_pos hgen] at h

/-- A packet that gets this far is not thrown away as a runt. -/
theorem not_dropped (ha : c.Admits p) (hu : c.Unclaimed p) :
    ¬ (c.server.isRunt p.header = true ∧ p.header.length ≠ 0) := by
  rintro ⟨hrunt, hlen⟩
  rcases ha.kind with ⟨-, -, r, hr, -⟩ | ⟨hflag, -⟩
  · rw [pendingRequest_eq_none_of_isRunt hrunt] at hr
    cases hr
  · unfold isRunt at hrunt
    split at hrunt
    · rw [hflag] at hrunt
      exact absurd hrunt (by decide)
    · next r hf =>
      have h := hu.request hflag r hf
      rw [if_neg (by simpa using hrunt)] at h
      exact hlen h

theorem command_mem (ha : c.Admits p) : p.header.command ∈ dsiAttention :: replyCommands := by
  rcases ha.kind with ⟨-, hc, -⟩ | ⟨-, hc | hc⟩
  · exact mem_cons_of_mem _ hc
  · rw [hc]; decide
  · rw [hc]; decide

theorem request_of_command (ha : c.Admits p)
    (hc : p.header.command = dsiWrite ∨ p.header.command = dsiCommand) :
    c.server.isRunt p.header = false ∧
      ∃ r, c.server.pendingRequest p.header = some r ∧ r.isRead = false := by
  rcases ha.kind with ⟨-, -, r, hr, hread⟩ | ⟨-, hc'⟩
  · refine ⟨?_, r, hr, hread⟩
    rw [← Bool.not_eq_true]
    intro hrunt
    rw [pendingRequest_eq_none_of_isRunt hrunt] at hr
    cases hr
  · exfalso
    rcases hc with hc | hc <;> rcases hc' with hc' | hc' <;> rw [hc] at hc' <;>
      exact absurd hc' (by decide)

end Call

/-- The call that takes in the last octet of an admitted packet dispatches
it and empties the buffer. -/
theorem finished_finishPacket {c : Call σ} {p : Packet} (ha : c.Admits p) (hu : c.Unclaimed p)
    (hrec : s.received = p.bytes) (hconn : s.connectState = c.server.connectState) :
    Finished
      (finishPacket c.env s src ((c.server.pendingRequest p.header).map (storeReturnCode p.header))
        (c.server.isRunt p.header))
      src [⟨p.header.command, p.bytes,
        (c.server.pendingRequest p.header).map (storeReturnCode p.header)⟩] := by
  have hlen : s.dataRead = p.header.length + headerSize := by
    rw [← length_received, hrec, p.length_bytes, Nat.add_comm]
  have hhdr : s.header = p.header := by
    rw [AfpServer.header_eq (by omega), hrec]
    rfl
  rw [finishPacket, if_neg (by rw [hhdr]; exact Call.not_dropped ha hu), ← hhdr, ← hrec]
  refine finished_processPacket (by rw [hhdr, hlen]) (by rw [hconn]; exact ha.connected)
    (by rw [hhdr]; exact hu.memory) (by rw [hhdr]; exact Call.command_mem ha) ?_
  rw [hhdr]
  intro hcmd
  obtain ⟨hrunt, r, hr, hread⟩ := Call.request_of_command ha hcmd
  refine ⟨hrunt, storeReturnCode p.header r, by rw [hr, Option.map_some], ?_⟩
  rw [storeReturnCode_isRead, hread]

theorem seen_connectState {h : DsiHeader} : (s.seen h).connectState = s.connectState := by
  unfold seen
  split
  · rfl
  · split <;> rfl

namespace Receiver

variable {packets : List Packet} {rx : Receiver} {c : Call σ} {p : Packet}

theorem length_dispatched (h : InStep packets rx) : rx.dispatched.length ≤ packets.length := by
  have hlen := congrArg List.length h.dispatched
  rw [length_map, length_map, length_take] at hlen
  omega

theorem received_length (rx : Receiver) : rx.received.length = rx.dataRead :=
  Octets.length_window _ _

/-- What the next packet still lacks is at the front of the socket. -/
theorem InStep.lacking (h : InStep packets rx) (hp : next packets rx = some p) :
    ∃ rest, rx.received ++ rest = p.bytes ∧ rest ≠ [] ∧
      rx.source.pending =
        rest ++ NetatalkClient.stream (packets.drop (rx.dispatched.length + 1)) := by
  have hstream := h.stream
  rw [stream_drop hp] at hstream
  have hproper := h.proper p hp
  obtain ⟨rest, hrest⟩ : rx.received <+: p.bytes :=
    prefix_of_prefix_length_le ⟨_, hstream⟩ ⟨_, rfl⟩ (by rw [received_length]; omega)
  refine ⟨rest, hrest, ?_, ?_⟩
  · rintro rfl
    have hlen := congrArg List.length hrest
    rw [append_nil, received_length] at hlen
    omega
  · rw [← hrest, append_assoc] at hstream
    exact append_cancel_left hstream

/-- A call that finishes the packet leaves the receiver before the next. -/
theorem InStep.finish (h : InStep packets rx) (hp : next packets rx = some p) {src : Source}
    {request : Option DsiRequest}
    (hfin : Finished (rx.recv c) src [⟨p.header.command, p.bytes, request⟩]) (hflow : src.Flowing)
    (hpend : src.pending = NetatalkClient.stream (packets.drop (rx.dispatched.length + 1))) :
    InStep packets (rx.call c) := by
  have hcount : (rx.call c).dispatched.length = rx.dispatched.length + 1 := by
    simp [call, hfin.dispatched]
  have hrec : (rx.call c).received = [] := by
    rw [received, call, hfin.dataRead, Octets.window_zero]
  refine ⟨?_, ?_, ?_, ?_⟩
  · have htake : packets.take (rx.dispatched.length + 1) =
        packets.take rx.dispatched.length ++ [p] := by
      rw [take_add_one]
      rw [next] at hp
      rw [hp]
      rfl
    rw [hcount, htake, map_append, ← h.dispatched]
    simp [call, hfin.dispatched]
  · rw [hrec, hcount, nil_append, call, hfin.source, hpend]
  · intro q _
    have hpos : 0 < q.bytes.length := length_pos_iff.mpr q.bytes_ne_nil
    rw [← received_length, hrec]
    exact hpos
  · rw [call, hfin.source]
    exact hflow

/-- A call that takes in a part of the packet, and not its end, leaves the
receiver further in the same packet. -/
theorem InStep.part (h : InStep packets rx) (hp : next packets rx = some p) {got more : Octets}
    (hbytes : rx.received ++ (got ++ more) = p.bytes) (hmore : more ≠ [])
    (hpend : rx.source.pending = got ++ (rx.call c).source.pending)
    (hflow : (rx.call c).source.Flowing) (hdis : (rx.call c).dispatched = rx.dispatched)
    (hrec : (rx.call c).received = rx.received ++ got) : InStep packets (rx.call c) := by
  refine ⟨?_, ?_, ?_, hflow⟩
  · rw [hdis, h.dispatched]
  · rw [hrec, hdis, ← h.stream, hpend, append_assoc]
  · intro q hq
    rw [next, hdis] at hq
    obtain rfl : p = q := Option.some.inj (hp.symm.trans hq)
    have hlen := congrArg List.length hbytes
    have hpos : 0 < more.length := length_pos_iff.mpr hmore
    rw [← received_length, hrec]
    simp only [length_append] at hlen ⊢
    omega

/-- **One call keeps step.** It returns 0, takes at least one octet off the
socket, and has the receiver still in step. -/
theorem inStep_call (h : InStep packets rx) (hp : next packets rx = some p)
    (hfit : p.bytes.length ≤ bufsize) (ha : c.Admits p) (hu : c.Unclaimed p) :
    (rx.recv c).ret = .ok ∧ InStep packets (rx.call c) ∧
      (rx.call c).source.pending.length < rx.source.pending.length := by
  obtain ⟨rest, hrest, hne, hpend⟩ := h.lacking hp
  obtain ⟨got, more, src', rfl, hgot, hflow', hpend', hrecv⟩ :=
    afpcDsiRecv_framed c.env (s := rx.server c) (fun _ => hfit) hrest hne h.flowing hpend
      fun r hr => Call.not_isRead ha hu hr
  change rx.recv c = _ at hrecv
  have hlt : src'.pending.length < rx.source.pending.length := by
    have hpos : 0 < got.length := length_pos_iff.mpr hgot
    rw [hpend, hpend']
    simp only [length_append]
    omega
  by_cases hmore : more = []
  · subst hmore
    rw [if_pos rfl] at hrecv
    rw [append_nil] at hrest
    have hfin : Finished (rx.recv c) src' [⟨p.header.command, p.bytes,
        (c.server.pendingRequest p.header).map (storeReturnCode p.header)⟩] := by
      rw [hrecv]
      refine finished_finishPacket ha hu ?_ ?_
      · rw [seen_received, received_receive]
        exact hrest
      · rw [seen_connectState]
        rfl
    refine ⟨hfin.ret, h.finish hp hfin hflow' (by rw [hpend', nil_append]), ?_⟩
    rw [call, hfin.source]
    exact hlt
  · rw [if_neg hmore] at hrecv
    have hsrc : (rx.call c).source = src' := by rw [call, hrecv]
    have hrec : (rx.recv c).server.received = (rx.server c).received ++ got := by
      rw [hrecv]
      exact received_taken
    refine ⟨by rw [hrecv], h.part hp hrest hmore ?_ ?_ (by simp [call, hrecv]) hrec, ?_⟩
    · rw [hsrc, hpend, hpend', append_assoc]
    · rw [hsrc]
      exact hflow'
    · rw [hsrc]
      exact hlt

/-- With nothing left to read, the receiver is between packets and all
packets have been dispatched. -/
theorem inStep_exhausted (h : InStep packets rx) (hpend : rx.source.pending = []) :
    rx.dataRead = 0 ∧ rx.dispatched.length = packets.length := by
  have hstream := h.stream
  rw [hpend, append_nil] at hstream
  cases hp : next packets rx with
  | some p =>
    have hproper := h.proper p hp
    have hlen := congrArg List.length hstream
    rw [stream_drop hp, length_append, received_length] at hlen
    omega
  | none =>
    have hle : packets.length ≤ rx.dispatched.length := getElem?_eq_none_iff.mp hp
    rw [drop_eq_nil_of_le hle] at hstream
    refine ⟨?_, Nat.le_antisymm (length_dispatched h) hle⟩
    rw [← received_length, hstream]
    rfl

theorem next_isSome (h : InStep packets rx) (hpend : rx.source.pending ≠ []) :
    ∃ p, next packets rx = some p := by
  cases hp : next packets rx with
  | some p => exact ⟨p, rfl⟩
  | none =>
    have hstream := h.stream
    rw [drop_eq_nil_of_le (getElem?_eq_none_iff.mp hp)] at hstream
    exact absurd (append_eq_nil_iff.mp hstream).2 hpend

/-- A call made after the last packet finds the end of the stream and
changes nothing. -/
theorem call_of_exhausted (h : InStep packets rx) (hpend : rx.source.pending = []) (c : Call σ) :
    rx.call c = rx := by
  obtain ⟨hzero, -⟩ := inStep_exhausted h hpend
  have hsrc : rx.source = [] := (Source.pending_eq_nil h.flowing).mp hpend
  have hlt : (rx.server c).dataRead < headerSize := by
    change rx.dataRead < headerSize
    rw [hzero]
    decide
  have hrecv : rx.recv c = ⟨.error, rx.server c, [], []⟩ := by
    simp [recv, afpcDsiRecv, hlt, hsrc, Source.read]
  cases rx
  simp_all [call, server]

/-- **Between packets the buffer is empty.** Whenever the octets still to
come are a whole number of packets, `data_read` is 0 and exactly the
packets before them have been dispatched. -/
theorem inStep_boundary (h : InStep packets rx) {k : ℕ} (hk : k ≤ packets.length)
    (hpend : rx.source.pending = NetatalkClient.stream (packets.drop k)) :
    rx.dataRead = 0 ∧ rx.dispatched.length = k := by
  have hlen := congrArg List.length h.stream
  rw [hpend, length_append, received_length] at hlen
  rcases Nat.lt_trichotomy rx.dispatched.length k with hlt | heq | hgt
  · -- the packet in progress would be in the buffer whole
    exfalso
    obtain ⟨p, hp⟩ : ∃ p, next packets rx = some p :=
      ⟨_, getElem?_eq_getElem (Nat.lt_of_lt_of_le hlt hk)⟩
    have hproper := h.proper p hp
    have hmono := length_stream_drop_le packets (Nat.add_one_le_of_lt hlt)
    rw [stream_drop hp, length_append] at hlen
    omega
  · subst heq
    exact ⟨by omega, rfl⟩
  · -- more octets to come than packets left
    exfalso
    obtain ⟨p, hp⟩ : ∃ p, packets[k]? = some p :=
      ⟨_, getElem?_eq_getElem (Nat.lt_of_lt_of_le hgt (length_dispatched h))⟩
    have hmono := length_stream_drop_le packets (Nat.add_one_le_of_lt hgt)
    have hpos : 0 < p.bytes.length := length_pos_iff.mpr p.bytes_ne_nil
    rw [stream_drop hp, length_append] at hlen
    omega

/-! ## Runs -/

section Runs

variable {calls : ℕ → Call σ} (hfit : ∀ p ∈ packets, p.bytes.length ≤ bufsize)
  (hadmits : ∀ n p, next packets (rx.after calls n) = some p → (calls n).Admits p)
  (hunclaimed : ∀ n p, next packets (rx.after calls n) = some p → (calls n).Unclaimed p)
include hfit hadmits hunclaimed

/-- What one call of a run does: it keeps step, and has less to read
after it. -/
theorem inStep_after_succ {n : ℕ} (h : InStep packets (rx.after calls n)) :
    InStep packets (rx.after calls (n + 1)) ∧
      (rx.after calls (n + 1)).source.pending.length ≤
        (rx.after calls n).source.pending.length - 1 := by
  by_cases hpend : (rx.after calls n).source.pending = []
  · rw [after, call_of_exhausted h hpend]
    exact ⟨h, by simp [hpend]⟩
  · obtain ⟨p, hp⟩ := next_isSome h hpend
    obtain ⟨-, hstep, hlt⟩ := inStep_call h hp (hfit p (mem_of_getElem? hp))
      (hadmits n p hp) (hunclaimed n p hp)
    exact ⟨hstep, by rw [after]; omega⟩

theorem inStep_after (h : InStep packets rx) (n : ℕ) :
    InStep packets (rx.after calls n) ∧
      (rx.after calls n).source.pending.length ≤ rx.source.pending.length - n := by
  induction n with
  | zero => exact ⟨h, Nat.le_refl _⟩
  | succ n ih =>
    obtain ⟨hstep, hle⟩ := inStep_after_succ hfit hadmits hunclaimed ih.1
    exact ⟨hstep, by omega⟩

end Runs

theorem inStep_start {runs : List Octets} (hruns : ∀ run ∈ runs, run ≠ [])
    (hstream : runs.flatten = NetatalkClient.stream packets) (incomingBuffer : Octets) :
    InStep packets (start incomingBuffer runs) where
  dispatched := rfl
  stream := by
    change Octets.window incomingBuffer 0 ++ Source.pending (runs.map .data) = _
    rw [Octets.window_zero, Source.pending_map_data, hstream]
    rfl
  proper p _ := length_pos_iff.mpr p.bytes_ne_nil
  flowing := Source.flowing_map_data hruns

/-- **The packets dispatched do not depend on how the stream is cut.**
For every stream of packets and every way of cutting it into non-empty
runs: after any number of calls the receiver is in step, no call made
with octets left has failed, `data_read` is 0 whenever a whole number of
packets is left, and after enough calls every packet has been dispatched. -/
theorem dispatched_of_fragmented (packets : List Packet) (runs : List Octets)
    (hfit : ∀ p ∈ packets, p.bytes.length ≤ bufsize) (hruns : ∀ run ∈ runs, run ≠ [])
    (hstream : runs.flatten = NetatalkClient.stream packets) (incomingBuffer : Octets)
    (calls : ℕ → Call σ)
    (hadmits : ∀ n p, next packets ((start incomingBuffer runs).after calls n) = some p →
      (calls n).Admits p)
    (hunclaimed : ∀ n p, next packets ((start incomingBuffer runs).after calls n) = some p →
      (calls n).Unclaimed p) :
    (∀ n, InStep packets ((start incomingBuffer runs).after calls n) ∧
      (((start incomingBuffer runs).after calls n).source.pending ≠ [] →
        (((start incomingBuffer runs).after calls n).recv (calls n)).ret = .ok) ∧
      ∀ k ≤ packets.length, ((start incomingBuffer runs).after calls n).source.pending =
          NetatalkClient.stream (packets.drop k) →
        ((start incomingBuffer runs).after calls n).dataRead = 0 ∧
          ((start incomingBuffer runs).after calls n).dispatched.length = k) ∧
    ∃ n, ((start incomingBuffer runs).after calls n).dispatched.map
          (fun d => (d.command, d.packet)) = packets.map (fun p => (p.header.command, p.bytes)) ∧
        ((start incomingBuffer runs).after calls n).dataRead = 0 ∧
        ((start incomingBuffer runs).after calls n).source = [] := by
  have hrun := inStep_after hfit hadmits hunclaimed (inStep_start hruns hstream incomingBuffer)
  refine ⟨fun n => ⟨(hrun n).1, fun hpend => ?_, fun k hk => inStep_boundary (hrun n).1 hk⟩, ?_⟩
  · obtain ⟨p, hp⟩ := next_isSome (hrun n).1 hpend
    exact (inStep_call (hrun n).1 hp (hfit p (mem_of_getElem? hp)) (hadmits n p hp)
      (hunclaimed n p hp)).1
  · -- every call takes an octet, so as many calls as there are octets are enough
    obtain ⟨hstep, hle⟩ := hrun (start incomingBuffer runs).source.pending.length
    rw [Nat.sub_self] at hle
    have hpend := eq_nil_of_length_eq_zero (Nat.le_zero.mp hle)
    obtain ⟨hzero, hall⟩ := inStep_exhausted hstep hpend
    refine ⟨_, ?_, hzero, (Source.pending_eq_nil hstep.flowing).mp hpend⟩
    rw [hstep.dispatched, hall, take_length]

/-! ## A packet taken for something else -/

/-- A tickle the server sends with request id 1. -/
def tickle : Packet where
  bytes := [0, 5, 0, 1, 0, 0, 0, 0, 0, 0, 0, 0, 0, 0, 0, 0]
  whole := by decide

/-- An attention of two octets, also with id 1. -/
def attention : Packet where
  bytes := [0, 8, 0, 1, 0, 0, 0, 0, 0, 0, 0, 2, 0, 0, 0, 0, 0x40, 0]
  whole := by decide

/-- The reply to the request with id 2. -/
def reply : Packet where
  bytes := [1, 2, 0, 2, 0, 0, 0, 0, 0, 0, 0, 1, 0, 0, 0, 0, 7]
  whole := by decide

/-- A stream of three packets, cut across both headers and payloads. -/
theorem dispatched_of_fragmented_cut :
    ∃ n, ((start [] [tickle.bytes.take 5, tickle.bytes.drop 5 ++ attention.bytes.take 17,
          attention.bytes.drop 17 ++ reply.bytes]).after
        (fun _ => (⟨.plain, .connected [.waiting 10 2 8]⟩ : Call Unit)) n).dispatched.map
        (fun d => (d.command, d.packet)) =
      [(5, tickle.bytes), (8, attention.bytes), (2, reply.bytes)] := by
  have hmem : ∀ (k : ℕ) (p : Packet), [tickle, attention, reply][k]? = some p →
      p = tickle ∨ p = attention ∨ p = reply := by
    intro k p hp
    simpa using mem_of_getElem? hp
  obtain ⟨-, n, hn, -⟩ := dispatched_of_fragmented [tickle, attention, reply]
    [tickle.bytes.take 5, tickle.bytes.drop 5 ++ attention.bytes.take 17,
      attention.bytes.drop 17 ++ reply.bytes]
    (by decide) (by decide) (by decide) []
    (fun _ => (⟨.plain, .connected [.waiting 10 2 8]⟩ : Call Unit))
    (by
      intro n p hp
      rcases hmem _ p hp with rfl | rfl | rfl
      · exact ⟨by decide, .inr (by decide)⟩
      · exact ⟨by decide, .inr (by decide)⟩
      · exact ⟨by decide, .inl ⟨by decide, by decide, _, rfl, by decide⟩⟩)
    (by
      intro n p hp
      refine ⟨fun hflag r hr => ?_, fun _ => rfl⟩
      rcases hmem _ p hp with rfl | rfl | rfl
      · cases (show (none : Option DsiRequest) = some r from hr)
      · cases (show (none : Option DsiRequest) = some r from hr)
      · exact absurd hflag (by decide))
  exact ⟨n, hn⟩

/-- **A tickle taken for the reply to a read.** The stream is one tickle
with id 1 in one piece, and a read with id 1 is pending: one call takes
the tickle off the socket and dispatches nothing, so the receiver is out
of step. -/
theorem tickle_taken_for_read :
    (∀ n p, next [tickle] ((start [] [tickle.bytes]).after
        (fun _ => (⟨.plain, .connected [.waiting 10 1 afpRead]⟩ : Call Unit)) n) = some p →
      (⟨.plain, .connected [.waiting 10 1 afpRead]⟩ : Call Unit).Admits p) ∧
    ¬ InStep [tickle] ((start [] [tickle.bytes]).after
        (fun _ => (⟨.plain, .connected [.waiting 10 1 afpRead]⟩ : Call Unit)) 1) := by
  constructor
  · intro n p hp
    have hmem : p = tickle := by simpa using mem_of_getElem? hp
    subst hmem
    exact ⟨by decide, .inr (by decide)⟩
  · intro h
    exact absurd h.stream (by decide)

end Receiver

end NetatalkClient
