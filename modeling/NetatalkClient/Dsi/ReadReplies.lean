import NetatalkClient.Dsi.Helpers.Recv
/-!
# Replies to reads

The payload of the reply to a read goes straight to the buffer of the
request, a piece with every call. What is in the buffer is always the
beginning of the payload (`InPayload`), so the last piece completes it,
and a payload that the buffer is too small for stops the receiver when the
buffer is full (`readReply_exact`).
-/

namespace NetatalkClient

open AfpServer List Function DsiRequest Source

variable {σ : Type} {env : Env σ} {s s₀ : AfpServer σ} {src src' : Source} {p : Packet}
variable {r : DsiRequest} {a : ℕ} {got done rest later : Octets} {last : Recv σ → Prop}
variable {queue : List DsiRequest} {n : ℕ}

/-! ## Runs -/

/-- The outcome of calls made one after the other, each in surroundings of
its own. After one that fails no more are made. -/
def recvAll : List (Env σ) → AfpServer σ → Source → Recv σ
  | [], s, src => ⟨.ok, s, src, []⟩
  | env :: envs, s, src =>
      let r := afpcDsiRecv env s src
      if r.ret = .ok then recvAll envs r.server r.source else r

/-- What the sender of a request sees while it waits. -/
def DsiRequest.waiter (q : DsiRequest) : ℕ × ℤ × Bool × ℕ :=
  (q.addr, q.wait, q.doneWaiting, q.waitingCond)

/-- Nobody was woken. -/
def SameWaiters (s s' : AfpServer σ) : Prop :=
  s'.commandRequests.map waiter = s.commandRequests.map waiter

/-- Some number of calls wakes nobody and returns 0, and one more ends in
`last`. -/
def EndsIn (s₀ s : AfpServer σ) (src : Source) (last : Recv σ → Prop) : Prop :=
  ∃ n, ∀ envs : List (Env σ),
    (envs.length < n → (recvAll envs s src).ret = .ok ∧
      SameWaiters s₀ (recvAll envs s src).server) ∧
    (envs.length = n → last (recvAll envs s src))

theorem endsIn_last (hsame : SameWaiters s₀ s)
    (hlast : ∀ env : Env σ, last (afpcDsiRecv env s src) ∧
      (afpcDsiRecv env s src).dispatched = []) : EndsIn s₀ s src last := by
  refine ⟨1, fun envs => ⟨fun hlen => ?_, fun hlen => ?_⟩⟩
  · obtain rfl : envs = [] := eq_nil_of_length_eq_zero (by omega)
    exact ⟨rfl, hsame⟩
  · obtain ⟨env, rfl⟩ := length_eq_one_iff.mp hlen
    obtain ⟨h, hnone⟩ := hlast env
    rw [recvAll]
    split
    · next hok =>
      rw [recvAll, ← hok, ← hnone]
      exact h
    · exact h

theorem endsIn_step {s' : AfpServer σ} (hsame : SameWaiters s₀ s)
    (hcall : ∀ env : Env σ, afpcDsiRecv env s src = ⟨.ok, s', src', []⟩)
    (hnext : EndsIn s₀ s' src' last) : EndsIn s₀ s src last := by
  obtain ⟨n, hn⟩ := hnext
  refine ⟨n + 1, fun envs => ?_⟩
  match envs with
  | [] => exact ⟨fun _ => ⟨rfl, hsame⟩, fun hlen => absurd hlen (by simp)⟩
  | env :: envs =>
    have hrun : recvAll (env :: envs) s src = recvAll envs s' src' := by
      rw [recvAll, hcall env]
      rfl
    rw [hrun, length_cons]
    exact ⟨fun hlen => (hn envs).1 (by omega), fun hlen => (hn envs).2 (by omega)⟩

/-! ## What a request becomes -/

/-- The queue once the header was looked at: the request it answers has
the header's return code. -/
def stored (h : DsiHeader) (r : DsiRequest) (queue : List DsiRequest) : List DsiRequest :=
  queue.map fun q => if q.addr = r.addr then storeReturnCode h q else q

/-- A request whose sender is woken with the return code of a header. -/
def answered (h : DsiHeader) (q : DsiRequest) : DsiRequest :=
  { storeReturnCode h q with wait := 0 }.signal

theorem map_waiter_stored (h : DsiHeader) (r : DsiRequest) (queue : List DsiRequest) :
    (stored h r queue).map waiter = queue.map waiter := by
  rw [stored, map_map]
  refine map_congr_left fun q _ => ?_
  rw [comp_apply]
  split <;> rfl

theorem stored_stored (h : DsiHeader) (r : DsiRequest) (queue : List DsiRequest) :
    stored h r (stored h r queue) = stored h r queue := by
  rw [stored, stored, map_map]
  refine map_congr_left fun q _ => ?_
  rw [comp_apply]
  by_cases haddr : q.addr = r.addr
  · rw [if_pos haddr, if_pos (show (storeReturnCode h q).addr = r.addr from haddr)]
    rfl
  · rw [if_neg haddr, if_neg haddr]

/-- The request is still found, with the return code in it. -/
theorem find_stored {h : DsiHeader} (hfind : afpcDsiFindRequest queue h.requestid = some r) :
    afpcDsiFindRequest (stored h r queue) h.requestid = some (storeReturnCode h r) := by
  have hpred : ∀ q : DsiRequest,
      (!(if q.addr = r.addr then storeReturnCode h q else q).ignoreReplies
      && h.requestid == (if q.addr = r.addr then storeReturnCode h q else q).requestid) =
      (!q.ignoreReplies && h.requestid == q.requestid) := by
    intro q
    split <;> rfl
  unfold afpcDsiFindRequest at hfind ⊢
  rw [stored, find?_map]
  have hcomp : ((fun q : DsiRequest => !q.ignoreReplies && h.requestid == q.requestid) ∘
      fun q => if q.addr = r.addr then storeReturnCode h q else q) =
      fun q => !q.ignoreReplies && h.requestid == q.requestid := funext hpred
  rw [hcomp, hfind, Option.map_some, if_pos rfl]

/-- Waking the request that has its return code. -/
theorem map_wake_stored (h : DsiHeader) (r : DsiRequest) (queue : List DsiRequest) :
    ((stored h r queue).map fun q =>
      if q.addr = r.addr then { q with wait := 0 }.signal else q) =
      queue.map fun q => if q.addr = r.addr then answered h q else q := by
  rw [stored, map_map]
  refine map_congr_left fun q _ => ?_
  rw [comp_apply]
  by_cases haddr : q.addr = r.addr
  · rw [if_pos haddr, if_pos haddr, if_pos (show (storeReturnCode h q).addr = r.addr from haddr)]
    rfl
  · rw [if_neg haddr, if_neg haddr, if_neg haddr]

/-! ## The payload -/

/-- What a packet has behind its header. -/
def Packet.payload (p : Packet) : Octets := p.bytes.drop headerSize

theorem Packet.length_payload (p : Packet) : p.payload.length = p.header.length := by
  rw [payload, length_drop, p.length_bytes, Nat.add_sub_cancel_left]

/-- A read whose reply is `p`: it is pending and waited for, and its data
goes to the buffer at `a`, which is empty. -/
structure ReadPending (s : AfpServer σ) (p : Packet) (r : DsiRequest) (a : ℕ) : Prop where
  pending : s.pendingRequest p.header = some r
  isRead : r.isRead = true
  waits : r.wait ≠ 0
  buffer : r.streamBuffer.or r.other = some a
  maxsize_lt : (s.rxBuffers a).maxsize < 4294967296
  empty : (s.rxBuffers a).size = 0

/-- **The header is in, and the buffer has the beginning of the payload.**
The server is otherwise the one the reply found, but for a return code. -/
structure InPayload (s₀ : AfpServer σ) (p : Packet) (r : DsiRequest) (a : ℕ) (s : AfpServer σ)
    (done : Octets) : Prop where
  dataRead : s.dataRead = headerSize
  header : s.header = p.header
  generation : s.connectionGeneration = s₀.connectionGeneration
  queue : s.commandRequests = s₀.commandRequests ∨
    s.commandRequests = stored p.header r s₀.commandRequests
  buffers : ∃ data, s.rxBuffers = update s₀.rxBuffers a
    ⟨done.length, (s₀.rxBuffers a).maxsize, data⟩ ∧ data.window done.length = done

theorem InPayload.sameWaiters (h : InPayload s₀ p r a s done) : SameWaiters s₀ s := by
  unfold SameWaiters
  rcases h.queue with hqueue | hqueue
  · rw [hqueue]
  · rw [hqueue, map_waiter_stored]

/-- The server once the return code is stored. -/
def coded (s₀ : AfpServer σ) (p : Packet) (r : DsiRequest) (s : AfpServer σ) : AfpServer σ :=
  { s with commandRequests := stored p.header r s₀.commandRequests }

theorem ReadPending.dest (hr : ReadPending s₀ p r a) :
    (storeReturnCode p.header r).streamBuffer.or (storeReturnCode p.header r).other = some a := by
  rw [storeReturnCode_streamBuffer, storeReturnCode_other, hr.buffer]

/-- `gotenough` finds a pending read, whether or not it has found it
before. -/
theorem gotenough_of_found {hd : DsiHeader} (hheader : s.header = hd)
    (hqueue : s.commandRequests = queue ∨ s.commandRequests = stored hd r queue)
    (hfind : afpcDsiFindRequest queue hd.requestid = some r)
    (hgen : r.connectionGeneration = s.connectionGeneration) (hread : r.isRead = true) :
    gotenough env s src = readReply env { s with commandRequests := stored hd r queue } src
      (storeReturnCode hd r) := by
  unfold gotenough
  rw [hheader]
  rcases hqueue with hqueue | hqueue
  · have hstore : s.updateRequest r.addr (storeReturnCode hd) =
        { s with commandRequests := stored hd r queue } := by
      rw [updateRequest, hqueue]
      rfl
    rw [hqueue, hfind]
    simp only [hgen, ne_eq, not_true, if_false, hread, if_true, hstore]
  · have hstore : s.updateRequest r.addr (storeReturnCode hd) =
        { s with commandRequests := stored hd r queue } := by
      rw [updateRequest, hqueue]
      exact congrArg (fun queue => { s with commandRequests := queue }) (stored_stored hd r queue)
    rw [hqueue, find_stored hfind]
    simp only [storeReturnCode_connectionGeneration, hgen, ne_eq, not_true, if_false,
      storeReturnCode_isRead, hread, if_true, storeReturnCode_addr, hstore,
      storeReturnCode_storeReturnCode]

theorem gotenough_read (hr : ReadPending s₀ p r a) (h : InPayload s₀ p r a s done) :
    gotenough env s src = readReply env (coded s₀ p r s) src (storeReturnCode p.header r) := by
  obtain ⟨hfind, hgen⟩ := pendingRequest_eq_some.mp hr.pending
  exact gotenough_of_found h.header h.queue hfind (hgen.trans h.generation.symm) hr.isRead

/-- A call in the payload goes on with the reply. -/
theorem recv_inPayload (hr : ReadPending s₀ p r a) (h : InPayload s₀ p r a s done) :
    afpcDsiRecv env s src = readReply env (coded s₀ p r s) src (storeReturnCode p.header r) := by
  rw [afpcDsiRecv, if_neg (by rw [h.dataRead]; omega), gotenough_read hr h]

theorem Packet.length_lt (p : Packet) : p.header.length < 4294967296 := by
  have h8 : p.bytes.byte 8 < 256 := UInt8.toNat_lt _
  have h9 : p.bytes.byte (8 + 1) < 256 := UInt8.toNat_lt _
  have h10 : p.bytes.byte (8 + 2) < 256 := UInt8.toNat_lt _
  have h11 : p.bytes.byte (8 + 2 + 1) < 256 := UInt8.toNat_lt _
  change p.bytes.be32 8 < 4294967296
  unfold Octets.be32 Octets.be16
  omega

/-- The reply is in, in order and to its last octet, and no more was taken
from the socket; the request is woken once. -/
structure Reassembled (s₀ : AfpServer σ) (p : Packet) (r : DsiRequest) (a : ℕ) (later : Octets)
    (last : Recv σ) : Prop where
  ret : last.ret = .ok
  dataRead : last.server.dataRead = 0
  pending : last.source.pending = later
  woken : last.server.commandRequests =
    s₀.commandRequests.map fun q => if q.addr = r.addr then answered p.header q else q
  buffer : ∃ data, last.server.rxBuffers = update s₀.rxBuffers a
    ⟨p.header.length, (s₀.rxBuffers a).maxsize, data⟩ ∧ data.window p.header.length = p.payload

/-- The call fails and nobody is woken, until the loop disconnects the
server: then with an error. -/
structure Refused (s₀ : AfpServer σ) (last : Recv σ) : Prop where
  ret : last.ret = .error
  unwoken : SameWaiters s₀ last.server
  disconnected : last.server.loopDisconnect = last.server ∨
    ∀ q ∈ last.server.loopDisconnect.commandRequests, q.returnCode = -eio

theorem reassembled_out (hr : ReadPending s₀ p r a) (h : InPayload s₀ p r a s p.payload)
    (hqueue : s.commandRequests = stored p.header r s₀.commandRequests)
    (hpend : src.pending = later) :
    Reassembled s₀ p r a later
      (out { s with dataRead := 0 } src (some (storeReturnCode p.header r)) []) := by
  have hwait : (storeReturnCode p.header r).wait ≠ 0 := by
    rw [storeReturnCode_wait]
    exact hr.waits
  obtain ⟨data, hbuffers, hdata⟩ := h.buffers
  rw [p.length_payload] at hbuffers hdata
  rw [out, if_pos hwait, storeReturnCode_addr]
  refine ⟨rfl, rfl, hpend, ?_, data, hbuffers, hdata⟩
  change (s.commandRequests.map fun q => _) = _
  rw [hqueue]
  exact map_wake_stored p.header r s₀.commandRequests

theorem refused_error (hsame : SameWaiters s₀ s) : Refused s₀ ⟨.error, s, src, []⟩ := by
  refine ⟨rfl, hsame, ?_⟩
  by_cases hoff : s.connectState ≠ .connected ∧ s.connectState ≠ .connecting
  · exact .inl (if_pos hoff)
  · refine .inr fun q hq => ?_
    rw [loopDisconnect, if_neg hoff] at hq
    obtain ⟨q, -, rfl⟩ := mem_map.mp hq
    rfl

/-- A call that has room for more takes a piece of the payload. -/
theorem recv_payload (hr : ReadPending s₀ p r a) (h : InPayload s₀ p r a s done)
    (hpay : p.payload = done ++ rest) (hrest : rest ≠ []) (hflow : src.Flowing)
    (hpend : src.pending = rest ++ later) (hroom : done.length < (s₀.rxBuffers a).maxsize) :
    ∃ got more src' s', rest = got ++ more ∧ got ≠ [] ∧ src'.Flowing ∧
      src'.pending = more ++ later ∧ done.length + got.length ≤ (s₀.rxBuffers a).maxsize ∧
      InPayload s₀ p r a s' (done ++ got) ∧
      s'.commandRequests = stored p.header r s₀.commandRequests ∧
      ∀ env : Env σ, afpcDsiRecv env s src =
        if more = [] then
          out { s' with dataRead := 0 } src' (some (storeReturnCode p.header r)) []
        else ⟨.ok, s', src', []⟩ := by
  have hmax := hr.maxsize_lt
  have hlt := p.length_lt
  have hlen : done.length + rest.length = p.header.length := by
    rw [← p.length_payload, hpay, length_append]
  have hpos : 0 < rest.length := length_pos_iff.mpr hrest
  obtain ⟨data, (hbuffers : (coded s₀ p r s).rxBuffers = _), hdata⟩ := h.buffers
  obtain ⟨got, more, src', hrd, hgot, hle, rfl, hpend', hflow'⟩ :=
    read_within hflow hpend
      (n := min ((s₀.rxBuffers a).maxsize - done.length) rest.length) (by omega) (by omega)
  rw [length_append] at hlen hpos hrd hle
  have hbuf : (coded s₀ p r s).rxBuffers a = ⟨done.length, (s₀.rxBuffers a).maxsize, data⟩ := by
    rw [hbuffers, update_self]
  have hbuffers' : ((coded s₀ p r s).receiveInto a got).rxBuffers =
      update s₀.rxBuffers a ⟨(done ++ got).length, (s₀.rxBuffers a).maxsize,
        data.overwrite done.length got⟩ := by
    have hsize : (done.length + got.length) % 4294967296 = (done ++ got).length := by
      rw [length_append, Nat.mod_eq_of_lt (by omega)]
    simp only [receiveInto, hbuf, hsize]
    rw [hbuffers, update_idem]
  have hdata' : (data.overwrite done.length got).window (done ++ got).length = done ++ got := by
    rw [length_append, Octets.window_overwrite, hdata]
  refine ⟨got, more, src', (coded s₀ p r s).receiveInto a got,
    rfl, hgot, hflow', hpend', by omega, ⟨h.dataRead, h.header, h.generation, .inr rfl,
      _, hbuffers', hdata'⟩, rfl, fun env => ?_⟩
  have hnewmax : min (((s₀.rxBuffers a).maxsize + 4294967296 - done.length) % 4294967296)
      ((p.header.length + 4294967296 - done.length) % 4294967296) =
      min ((s₀.rxBuffers a).maxsize - done.length) (got.length + more.length) := by
    omega
  have hmore : more = [] ↔ p.header.length = done.length + got.length := by
    rw [← length_eq_zero_iff]
    omega
  obtain ⟨c, cs, rfl⟩ := exists_cons_of_ne_nil hgot
  have hheader : (coded s₀ p r s).header = p.header := h.header
  have hheader' : ((coded s₀ p r s).receiveInto a (c :: cs)).header = p.header := h.header
  have hsize' : (((coded s₀ p r s).receiveInto a (c :: cs)).rxBuffers a).size =
      done.length + (c :: cs).length := by
    rw [hbuffers', update_self, length_append]
  rw [recv_inPayload hr h, readReply, hr.dest]
  simp only [hheader, hbuf, hnewmax, hrd]
  rw [if_neg (by omega), if_neg (by omega), hheader', hsize']
  have hcopied : ((coded s₀ p r s).receiveInto a (c :: cs)).dataRead - headerSize = 0 := by
    change s.dataRead - headerSize = 0
    rw [h.dataRead, Nat.sub_self]
  by_cases hend : p.header.length = done.length + (c :: cs).length
  · rw [if_pos hend, if_pos hcopied, if_pos (hmore.mpr hend)]
  · rw [if_neg hend, if_neg fun hnil => hend (hmore.mp hnil)]

/-- A call that has no room for more fails. -/
theorem recv_full (hr : ReadPending s₀ p r a) (h : InPayload s₀ p r a s done)
    (hfull : done.length = (s₀.rxBuffers a).maxsize) (hmore : done.length < p.header.length)
    (env : Env σ) :
    Refused s₀ (afpcDsiRecv env s src) ∧ (afpcDsiRecv env s src).dispatched = [] := by
  have hmax := hr.maxsize_lt
  obtain ⟨data, (hbuffers : (coded s₀ p r s).rxBuffers = _), -⟩ := h.buffers
  have hbuf : (coded s₀ p r s).rxBuffers a = ⟨done.length, (s₀.rxBuffers a).maxsize, data⟩ := by
    rw [hbuffers, update_self]
  have hnewmax : min (((s₀.rxBuffers a).maxsize + 4294967296 - done.length) % 4294967296)
      ((p.header.length + 4294967296 - done.length) % 4294967296) = 0 := by
    omega
  have hheader : (coded s₀ p r s).header = p.header := h.header
  have hsame : SameWaiters s₀ (coded s₀ p r s) := map_waiter_stored p.header r s₀.commandRequests
  rw [recv_inPayload hr h, readReply, hr.dest]
  simp only [hheader, hbuf, hnewmax]
  rw [if_neg (by omega)]
  by_cases hzero : (s₀.rxBuffers a).maxsize = 0
  · rw [if_pos hzero]
    exact ⟨refused_error hsame, rfl⟩
  rw [if_neg hzero]
  -- a read of no octets brings none
  have hnone := getD_read_zero src
  split
  · next c cs src' hrd =>
    rw [hrd] at hnone
    cases hnone
  · exact ⟨refused_error hsame, rfl⟩

/-- What the calls come to. -/
def ReadOutcome (s₀ : AfpServer σ) (p : Packet) (r : DsiRequest) (a : ℕ) (later : Octets)
    (last : Recv σ) : Prop :=
  if p.header.length ≤ (s₀.rxBuffers a).maxsize then Reassembled s₀ p r a later last
  else Refused s₀ last

/-- The calls from some point of the payload on. -/
theorem endsIn_payload (hr : ReadPending s₀ p r a) :
    ∀ {s : AfpServer σ} {src : Source} {done rest : Octets}, rest.length = n →
      InPayload s₀ p r a s done → done.length ≤ (s₀.rxBuffers a).maxsize →
      p.payload = done ++ rest → rest ≠ [] → src.Flowing → src.pending = rest ++ later →
      EndsIn s₀ s src (ReadOutcome s₀ p r a later) := by
  induction n using Nat.strongRecOn with
  | ind n ih =>
    intro s src done rest hn h hroom hpay hrest hflow hpend
    have hlen : done.length + rest.length = p.header.length := by
      rw [← p.length_payload, hpay, length_append]
    have hpos : 0 < rest.length := length_pos_iff.mpr hrest
    rcases Nat.lt_or_ge done.length (s₀.rxBuffers a).maxsize with hlt | hge
    · obtain ⟨got, more, src', s', rfl, hgot, hflow', hpend', hfits, h', hqueue, hcall⟩ :=
        recv_payload hr h hpay hrest hflow hpend hlt
      have hgotpos : 0 < got.length := length_pos_iff.mpr hgot
      rw [length_append] at hn hlen
      by_cases hmore : more = []
      · subst hmore
        rw [append_nil] at hpay
        rw [length_nil] at hlen
        refine endsIn_last h.sameWaiters fun env => ?_
        rw [hcall env, if_pos rfl]
        refine ⟨?_, out_dispatched⟩
        rw [ReadOutcome, if_pos (by omega)]
        exact reassembled_out hr (hpay ▸ h') hqueue hpend'
      · refine endsIn_step h.sameWaiters (fun env => ?_)
          (ih more.length (by omega) rfl h' (by rw [length_append]; omega)
            (by rw [hpay, append_assoc]) hmore hflow' hpend')
        rw [hcall env, if_neg hmore]
    · refine endsIn_last h.sameWaiters fun env => ?_
      rw [ReadOutcome, if_neg (by omega)]
      exact recv_full hr h (by omega) (by omega) env

/-! ## The header -/

/-- The header is coming in; nothing else has changed. -/
structure InHeader (s₀ : AfpServer σ) (p : Packet) (s : AfpServer σ) (rest : Octets) : Prop where
  dataRead_lt : s.dataRead < headerSize
  received : s.received ++ rest = p.bytes
  generation : s.connectionGeneration = s₀.connectionGeneration
  queue : s.commandRequests = s₀.commandRequests
  buffers : s.rxBuffers = s₀.rxBuffers

theorem InHeader.receive (h : InHeader s₀ p s (got ++ rest))
    (hpart : s.dataRead + got.length < headerSize) : InHeader s₀ p (s.receive got) rest where
  dataRead_lt := hpart
  received := by rw [received_receive, append_assoc, h.received]
  generation := h.generation
  queue := h.queue
  buffers := h.buffers

/-- The last octet of the header: the payload is what is still to come. -/
theorem InHeader.complete (h : InHeader s₀ p s (got ++ rest)) (hr : ReadPending s₀ p r a)
    (hfull : s.dataRead + got.length = headerSize) :
    InPayload s₀ p r a (s.receive got) [] ∧ p.payload = rest := by
  have hparts : (s.receive got).received ++ rest = p.bytes := by
    rw [received_receive, append_assoc, h.received]
  have hlen : (s.receive got).received.length = headerSize := by
    rw [length_received, dataRead_receive, hfull]
  have hpayload : p.payload = rest := by
    rw [Packet.payload, ← hparts, ← hlen, drop_left]
  have hheader : (s.receive got).header = p.header := by
    have hin : headerSize ≤ (s.receive got).dataRead := Nat.le_of_eq hfull.symm
    rw [AfpServer.header_eq hin, Packet.header_eq hparts (Nat.le_of_eq hlen.symm)]
  have hbuffers : (s.receive got).rxBuffers = update s₀.rxBuffers a
      ⟨([] : Octets).length, (s₀.rxBuffers a).maxsize, (s₀.rxBuffers a).data⟩ := by
    change s.rxBuffers = _
    rw [h.buffers, length_nil, ← hr.empty, Function.update_eq_self]
  exact ⟨⟨hfull, hheader, h.generation, .inl h.queue, _, hbuffers, Octets.window_zero _⟩, hpayload⟩

/-- The calls from some point of the header on. -/
theorem endsIn_header (hr : ReadPending s₀ p r a) :
    ∀ {s : AfpServer σ} {src : Source} {rest : Octets}, rest.length = n →
      InHeader s₀ p s rest → src.Flowing → src.pending = rest ++ later →
      EndsIn s₀ s src (ReadOutcome s₀ p r a later) := by
  induction n using Nat.strongRecOn with
  | ind n ih =>
    intro s src rest hn h hflow hpend
    have h16 := h.dataRead_lt
    have hsame : SameWaiters s₀ s := congrArg (List.map waiter) h.queue
    have hlen : s.dataRead + rest.length = headerSize + p.header.length := by
      rw [← p.length_bytes, ← h.received, length_append, length_received]
    obtain ⟨got, more, src', hrd, hgot, hle, rfl, hpend', hflow'⟩ :=
      read_within hflow hpend (n := headerSize - s.dataRead) (by omega) (by omega)
    have hgotpos : 0 < got.length := length_pos_iff.mpr hgot
    rw [length_append] at hn hlen
    have hcall : ∀ env : Env σ, afpcDsiRecv env s src =
        if (s.receive got).dataRead = headerSize ∧ (s.receive got).header.length = 0 then
          gotenough env (s.receive got) src'
        else ⟨.ok, s.receive got, src', []⟩ := by
      intro env
      obtain ⟨c, cs, rfl⟩ := exists_cons_of_ne_nil hgot
      simp only [afpcDsiRecv, h16, if_true, hrd]
    rcases Nat.lt_or_ge (s.dataRead + got.length) headerSize with hpart | hge
    · refine endsIn_step hsame (fun env => ?_)
        (ih more.length (by omega) rfl (h.receive hpart) hflow' hpend')
      rw [hcall env, if_neg (fun hfull => absurd hfull.1 (by rw [dataRead_receive]; omega))]
    have hfull : s.dataRead + got.length = headerSize := by omega
    obtain ⟨h', hpayload⟩ := h.complete hr hfull
    by_cases hmore : more = []
    · -- no payload: the header is the whole reply
      subst hmore
      have hzero : p.header.length = 0 := by
        rw [← p.length_payload, hpayload, length_nil]
      refine endsIn_last hsame fun env => ?_
      rw [hcall env, if_pos ⟨hfull, by rw [h'.header, hzero]⟩, gotenough_read hr h']
      rw [readReply, hr.dest]
      dsimp only
      rw [if_pos ⟨hfull, by rw [← hzero, ← h'.header]; rfl⟩]
      refine ⟨?_, out_dispatched⟩
      rw [ReadOutcome, if_pos (by omega)]
      have hin : InPayload s₀ p r a { s.receive got with
          commandRequests := stored p.header r s₀.commandRequests } p.payload := by
        rw [hpayload]
        exact ⟨h'.dataRead, h'.header, h'.generation, .inr rfl, h'.buffers⟩
      exact reassembled_out hr hin rfl hpend'
    · have hlong : p.header.length ≠ 0 := by
        rw [← p.length_payload, hpayload]
        exact fun hzero => hmore (eq_nil_of_length_eq_zero hzero)
      refine endsIn_step hsame (fun env => ?_)
        (endsIn_payload hr rfl h' (Nat.zero_le _) (by rw [hpayload, nil_append]) hmore hflow'
          hpend')
      rw [hcall env, if_neg (fun hempty => hlong (by rw [← h'.header]; exact hempty.2))]

/-! ## The whole reply -/

/-- **Replies to reads are reassembled exactly.** A read is pending whose
buffer is empty, and its reply and whatever follows arrive in pieces of
any size. Some number of calls return 0 and wake nobody. If the payload
fits, the next call completes it: the octets are in the buffer in order,
the request is woken once with the header's return code, and nothing
behind the reply is taken. If it does not fit, the next call fails, and
the request is woken with an error or not at all. -/
theorem readReply_exact (s : AfpServer σ) (p : Packet) (r : DsiRequest) (a : ℕ)
    (runs : List Octets) (later : Octets) (hr : ReadPending s p r a) (hstart : s.dataRead = 0)
    (hruns : ∀ run ∈ runs, run ≠ []) (hstream : runs.flatten = p.bytes ++ later) :
    ∃ n, ∀ envs : List (Env σ),
      (envs.length < n → (recvAll envs s (runs.map .data)).ret = .ok ∧
        SameWaiters s (recvAll envs s (runs.map .data)).server) ∧
      (envs.length = n →
        if p.header.length ≤ (s.rxBuffers a).maxsize then
          Reassembled s p r a later (recvAll envs s (runs.map .data))
        else Refused s (recvAll envs s (runs.map .data))) := by
  have hreceived : s.received ++ p.bytes = p.bytes := by
    rw [AfpServer.received, hstart, Octets.window_zero, nil_append]
  have h : InHeader s p s p.bytes := ⟨by rw [hstart]; decide, hreceived, rfl, rfl, rfl⟩
  have hpend : pending (runs.map .data) = p.bytes ++ later := by
    rw [pending_map_data, hstream]
  exact endsIn_header hr rfl h (flowing_map_data hruns) hpend

/-- A connection on which a read with room for two octets is pending. -/
def readingTwo : AfpServer Unit :=
  { AfpServer.connected [.waiting 10 1 afpReadExt] with
    rxBuffers := fun _ => { size := 0, maxsize := 2, data := [] } }

/-- A reply of two octets. -/
def twoOctets : Packet where
  bytes := [1, 2, 0, 1, 0, 0, 0, 0, 0, 0, 0, 2, 0, 0, 0, 0, 7, 8]
  whole := by decide

/-- A reply of three octets. -/
def threeOctets : Packet where
  bytes := [1, 2, 0, 1, 0, 0, 0, 0, 0, 0, 0, 3, 0, 0, 0, 0, 7, 8, 9]
  whole := by decide

/-- Two octets fit, with the next packet in one piece with the second;
three octets do not. -/
theorem readReply_two_and_three :
    (∃ n, ∀ envs : List (Env Unit), envs.length = n →
      Reassembled readingTwo twoOctets (.waiting 10 1 afpReadExt) 10 [1, 2]
        (recvAll envs readingTwo ([twoOctets.bytes.take 17, [8, 1, 2]].map .data))) ∧
    ∃ n, ∀ envs : List (Env Unit), envs.length = n →
      Refused readingTwo
        (recvAll envs readingTwo
          ([threeOctets.bytes.take 3, threeOctets.bytes.drop 3].map .data)) := by
  have htwo : ReadPending readingTwo twoOctets (.waiting 10 1 afpReadExt) 10 :=
    ⟨by decide, by decide, by decide, rfl, by decide, rfl⟩
  have hthree : ReadPending readingTwo threeOctets (.waiting 10 1 afpReadExt) 10 :=
    ⟨by decide, by decide, by decide, rfl, by decide, rfl⟩
  obtain ⟨n, hn⟩ := readReply_exact readingTwo twoOctets _ 10
    [twoOctets.bytes.take 17, [8, 1, 2]] [1, 2] htwo rfl (by decide) (by decide)
  obtain ⟨m, hm⟩ := readReply_exact readingTwo threeOctets _ 10
    [threeOctets.bytes.take 3, threeOctets.bytes.drop 3] [] hthree rfl (by decide) (by decide)
  refine ⟨⟨n, fun envs hlen => ?_⟩, m, fun envs hlen => ?_⟩
  · have hlast := (hn envs).2 hlen
    rwa [if_pos (by decide)] at hlast
  · have hlast := (hm envs).2 hlen
    rwa [if_neg (by decide)] at hlast

end NetatalkClient
