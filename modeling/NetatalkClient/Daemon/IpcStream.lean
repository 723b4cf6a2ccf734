import NetatalkClient.Daemon.Helpers.Collect
/-!
# Whether an IPC stream stays in step

A client sends requests, each a packet with the file data of a WRITE
behind it. The daemon is in step when it starts on a header having taken
exactly the octets of the requests before it. The invariant is `Tracked`:
what has been taken of a request, with what is pending, is what the client
has still to be served. `PayloadRead` is what a WRITE needs for its data
to be taken; a WRITE that is answered without it leaves the data in the
stream, where it is read as requests.
-/

namespace NetatalkClient

open Octets List Packet Source Machine DaemonClient

/-- How much file data follows a packet. -/
def payloadSize (p : Octets) : ℕ :=
  if command p = some .write ∧ ipcWriteSize ≤ p.length then size p else 0

/-- What a client sends for one request that does not ask to close the
connection: a packet whose header gives its length, and the file data. -/
structure IpcRequest where
  packet : Octets
  payload : Octets
  header_le : ipcHeaderSize ≤ packet.length
  len_eq : len packet = packet.length
  close_eq : close packet = 0
  payload_eq : payload.length = payloadSize packet

namespace IpcRequest

def bytes (r : IpcRequest) : Octets := r.packet ++ r.payload

/-- What a client sends for a list of requests. -/
def stream (reqs : List IpcRequest) : Octets := reqs.flatMap bytes

theorem stream_cons (r : IpcRequest) (reqs : List IpcRequest) :
    stream (r :: reqs) = r.packet ++ (r.payload ++ stream reqs) := by
  simp [stream, bytes]

end IpcRequest

open IpcRequest

/-- The daemon waits for the first octet of a header. -/
def DaemonClient.Idle (c : DaemonClient) : Prop :=
  c.phase = .reading ∧ c.incomingHeader = [] ∧ c.completePacket = none

/-- The daemon is in step with the requests: it has served packets of
theirs only, in order, and when it starts on the next header what is
pending is the requests not served. -/
structure InStep (reqs : List IpcRequest) (c : DaemonClient) : Prop where
  served : c.served <+: reqs.map packet
  pending : c.Idle → c.fd.pending = stream (reqs.drop c.served.length)

/-- What handling a packet needs, for the file data behind it to be taken:
where an answer is given and there is data, the volume is found, its
server is connected, there is memory, the size is not negative as an
`int`, and the descriptor delivers that much. -/
def PayloadRead (c : DaemonClient) : IpcEvent → Prop
  | .ready _ _ => True
  | .handled env =>
    match c.completePacket with
    | none => True
    | some p =>
        c.ipcReady = true → env.sent = true → 0 < payloadSize p →
          env.volume (volumeid p) = some true ∧ env.malloc (size p) = true ∧
            size p < 2147483648 ∧ c.fd.delivers (size p) = true

instance (c : DaemonClient) (e : IpcEvent) : Decidable (PayloadRead c e) := by
  unfold PayloadRead
  split
  · exact inferInstance
  · split <;> exact inferInstance

/-! ## A packet is found by its length -/

variable {p : Octets} {rest reqs : List IpcRequest} {c : DaemonClient}

/-- What has been taken is the next packet once it is as long as its own
header says. -/
theorem packet_of_len {more : Octets}
    (h : p ++ more = stream rest) (hhead : ipcHeaderSize ≤ p.length) (hlen : p.length = len p) :
    ∃ r rest', rest = r :: rest' ∧ p = r.packet ∧ more = r.payload ++ stream rest' := by
  cases rest with
  | nil =>
    rw [stream, flatMap_nil, append_eq_nil_iff] at h
    rw [h.1] at hhead
    exact absurd hhead (by decide)
  | cons r rest' =>
    rw [stream_cons] at h
    have hlens : p.length = r.packet.length := by
      rw [hlen, ← r.len_eq, ← len_append hhead (q := more), h, len_append r.header_le]
    obtain ⟨hp, hmore⟩ := append_inj h hlens
    exact ⟨r, rest', rfl, hp, hmore⟩

/-! ## The invariant -/

/-- Some of the next request has been taken, and not all of its packet. -/
def Collecting (rest : List IpcRequest) (c : DaemonClient) : Prop :=
  (c.completePacket = none ∧ c.incomingHeader.length < ipcHeaderSize ∧
    c.incomingHeader ++ c.fd.pending = stream rest) ∨
  ∃ p, c.completePacket = some p ∧ ipcHeaderSize ≤ p.length ∧ p.length < len p ∧
    p ++ c.fd.pending = stream rest

/-- The packet of `r` has been taken, and nothing behind it. -/
def Collected (r : IpcRequest) (rest : List IpcRequest) (c : DaemonClient) : Prop :=
  c.completePacket = some r.packet ∧ c.fd.pending = r.payload ++ stream rest

/-- Where a connection stands among the requests of its client. -/
inductive Tracked (reqs : List IpcRequest) (c : DaemonClient) : Prop
  | reading (done rest : List IpcRequest) (hreqs : reqs = done ++ rest)
      (hserved : c.served = done.map packet) (hphase : c.phase = .reading)
      (hcoll : Collecting rest c)
  | processing (done : List IpcRequest) (r : IpcRequest) (rest : List IpcRequest)
      (hreqs : reqs = done ++ r :: rest) (hserved : c.served = (done ++ [r]).map packet)
      (hphase : c.phase = .processing) (hcoll : Collected r rest c)
  | closed (hserved : c.served <+: reqs.map packet) (hphase : c.phase = .closed)

theorem Tracked.inStep (h : Tracked reqs c) : InStep reqs c := by
  cases h with
  | reading done rest hreqs hserved hphase hcoll =>
    refine ⟨⟨rest.map packet, by rw [hserved, hreqs, map_append]⟩, ?_⟩
    rintro ⟨-, hhead, hnone⟩
    rcases hcoll with ⟨-, -, hpend⟩ | ⟨p, hp, -⟩
    · rw [hserved, length_map, hreqs, drop_left, ← hpend, hhead, nil_append]
    · rw [hp] at hnone
      cases hnone
  | processing done r rest hreqs hserved hphase hcoll =>
    refine ⟨⟨rest.map packet, by rw [hserved, hreqs]; simp⟩, ?_⟩
    rintro ⟨hreading, -⟩
    rw [hphase] at hreading
    cases hreading
  | closed hserved hphase =>
    refine ⟨hserved, ?_⟩
    rintro ⟨hreading, -⟩
    rw [hphase] at hreading
    cases hreading

/-! ## Collecting a request -/

/-- What `process_command` may come to: the connection is given up, the
packet is not complete, or it is. -/
def Came (rest : List IpcRequest) (c : DaemonClient) (res : ℤ × DaemonClient) : Prop :=
  res.2.served = c.served ∧ res.2.phase = c.phase ∧
    (res.1 < 0 ∨ res.1 = 2 ∧ Collecting rest res.2 ∨
      res.1 = 0 ∧ ∃ r rest', rest = r :: rest' ∧ Collected r rest' res.2)

theorem collecting_iff :
    Collecting rest c ↔ c.Gathering ∧ c.taken ++ c.fd.pending = stream rest := by
  unfold Collecting Gathering taken
  cases c.completePacket with
  | none => simp
  | some p => simp [and_assoc]

/-- A call keeps what has been taken, with what is pending, at what the
client has still to be served. -/
theorem processCommand_came (again malloc : Bool)
    (h : Collecting rest c) : Came rest c (processCommand again malloc c) := by
  obtain ⟨hg, hpend⟩ := collecting_iff.mp h
  obtain ⟨hserved, hphase, htaken, houtcome⟩ := processCommand_called again malloc hg
  rw [hpend] at htaken
  refine ⟨hserved, hphase, ?_⟩
  rcases houtcome with hlost | ⟨hwaits, hg'⟩ | ⟨hdone, p, hp, hhead, hlen⟩
  · exact .inl hlost
  · exact .inr (.inl ⟨hwaits, collecting_iff.mpr ⟨hg', htaken⟩⟩)
  · rw [taken, hp, Option.getD_some] at htaken
    obtain ⟨r, rest', hrest, rfl, hpay⟩ := packet_of_len htaken hhead hlen
    exact .inr (.inr ⟨hdone, r, rest', hrest, hp, hpay⟩)

/-! ## The file data of a WRITE -/

/-- The loop takes at most the size off the front of what is pending, and
all of it exactly when the descriptor delivers it. -/
theorem readPayload_pending (n : ℕ) (src : Source) :
    ∃ got, src.pending = got ++ (readPayload n src).2.pending ∧ got.length ≤ n ∧
      (got.length = n ↔ src.delivers n = true) := by
  fun_induction readPayload n src with
  | case1 src => exact ⟨[], rfl, Nat.le_refl _, by simp [delivers]⟩
  | case2 src n src' hread =>
    refine ⟨[], pending_of_read_none hread, Nat.zero_le _, ?_⟩
    simp [delivers_of_read_none hread rfl]
  | case3 src n src' hread =>
    refine ⟨[], pending_of_read hread, Nat.zero_le _, ?_⟩
    simp [delivers_of_read_none hread rfl]
  | case4 src n o os src' hread ih =>
    obtain ⟨got, hpend, hle, hiff⟩ := ih
    have hos := length_read_le hread
    rw [length_cons] at hos
    refine ⟨o :: os ++ got, ?_, ?_, ?_⟩
    · rw [pending_of_read hread, hpend, append_assoc]
    · rw [length_append, length_cons]
      omega
    · rw [delivers_of_read hread, ← hiff, length_append, length_cons]
      omega

/-- `process_write` takes at most the data off the front of what is
pending, and all of it exactly when it gets to its loop and the descriptor
delivers. -/
theorem processWrite_pending (env : Surroundings) (fd : Source) (hp : ipcWriteSize ≤ p.length) :
    ∃ got, fd.pending = got ++ (processWrite env p fd).pending ∧
      got.length ≤ size p ∧
      (0 < size p → (got.length = size p ↔
        env.volume (volumeid p) = some true ∧ env.malloc (size p) = true ∧
          size p < 2147483648 ∧ fd.delivers (size p) = true)) := by
  -- the exits before the loop take nothing
  have hnothing : ∀ {P : Prop}, ¬ P → ∃ got, fd.pending = got ++ fd.pending ∧
      got.length ≤ size p ∧ (0 < size p → (got.length = size p ↔ P)) := by
    intro P hP
    refine ⟨[], rfl, Nat.zero_le _, fun hpos => ?_⟩
    constructor
    · intro h
      rw [length_nil] at h
      omega
    · intro h
      exact absurd h hP
  unfold processWrite
  rw [if_neg (Nat.not_lt.mpr hp)]
  split
  · next hvol => exact hnothing (by simp [hvol])
  · next hvol => exact hnothing (by simp [hvol])
  · next hvol =>
    split
    · next hmalloc => exact hnothing (by simp_all)
    · next hmalloc =>
      split
      · next hint =>
        obtain ⟨got, hpend, hle, hiff⟩ := readPayload_pending (size p) fd
        refine ⟨got, hpend, hle, fun _ => hiff.trans ?_⟩
        have hm : env.malloc (size p) = true := by simpa using hmalloc
        simp only [hvol, hm, hint, true_and]
      · next hint => exact hnothing (fun h => hint h.2.2.1)

/-! ## Handling a request -/

theorem finishResponse_served (c : DaemonClient) (sent close : Bool) :
    (c.finishResponse sent close).served = c.served := by
  unfold finishResponse
  split
  · rfl
  · split <;> rfl

/-- After an answer the connection is closed, or it waits for a header
with the descriptor as the handler left it. -/
theorem finishResponse_cases (c : DaemonClient) (sent close : Bool) :
    (c.finishResponse sent close).phase = .closed ∨
      sent = true ∧ (c.finishResponse sent close).Idle ∧
        (c.finishResponse sent close).fd = c.fd := by
  unfold finishResponse
  cases sent with
  | false => exact .inl rfl
  | true =>
    cases close with
    | false => exact .inr ⟨rfl, ⟨rfl, rfl, rfl⟩, rfl⟩
    | true => exact .inl rfl

/-- Only a WRITE touches the descriptor, and the thread then closes the
connection or waits for a header. -/
theorem processCommandThread_cases (env : Surroundings) (p : Octets) (c : DaemonClient) :
    (processCommandThread env p c).served = c.served ∧
      ((processCommandThread env p c).phase = .closed ∨
        (processCommandThread env p c).Idle ∧ env.sent = true ∧
          (command p = some .write → c.ipcReady = true) ∧
          (processCommandThread env p c).fd =
            if command p = some .write then processWrite env p c.fd else c.fd) := by
  unfold processCommandThread
  split
  · exact ⟨rfl, .inl rfl⟩
  · next hready =>
    split
    · exact ⟨rfl, .inl rfl⟩
    · exact ⟨rfl, .inl rfl⟩
    · next hcmd =>
      unfold processHello
      split
      · exact ⟨rfl, .inl rfl⟩
      · refine ⟨finishResponse_served _ _ _, (finishResponse_cases _ _ _).imp_right ?_⟩
        rintro ⟨hsent, hidle, hfd⟩
        exact ⟨hidle, hsent, by simp [hcmd], by rw [hfd, hcmd, if_neg (by decide)]⟩
    · next hcmd =>
      refine ⟨finishResponse_served _ _ _, (finishResponse_cases _ _ _).imp_right ?_⟩
      rintro ⟨hsent, hidle, hfd⟩
      refine ⟨hidle, hsent, fun _ => ?_, by rw [if_pos hcmd, hfd]⟩
      simpa [hcmd] using hready
    · next cmd _ _ hwrite hcmd =>
      have hne : command p ≠ some .write := by
        rw [hcmd]
        rintro ⟨⟩
        exact hwrite rfl
      split
      · refine ⟨finishResponse_served _ _ _, (finishResponse_cases _ _ _).imp_right ?_⟩
        rintro ⟨hsent, hidle, hfd⟩
        exact ⟨hidle, hsent, fun h => absurd h hne, by rw [if_neg hne, hfd]⟩
      · exact ⟨rfl, .inl rfl⟩

/-- A WRITE that is answered, and did not ask to close, leaves the
connection waiting for a header. -/
theorem processCommandThread_write (env : Surroundings)
    (hcmd : command p = some .write) (hclose : close p = 0)
    (hready : c.ipcReady = true) (hsent : env.sent = true) :
    (processCommandThread env p c).Idle ∧
      (processCommandThread env p c).fd = processWrite env p c.fd := by
  simp [processCommandThread, hcmd, hclose, hready, hsent, finishResponse,
    continueClientConnection, reset, Idle]

section Handled

variable {reqs done rest : List IpcRequest} {r : IpcRequest} {c : DaemonClient}

/-- A connection that was closed, or waits for a header with nothing of
the request left, is tracked. -/
theorem tracked_of_ended {c' : DaemonClient} (hreqs : reqs = done ++ r :: rest)
    (hserved : c'.served = (done ++ [r]).map packet)
    (h : c'.phase = .closed ∨ c'.Idle ∧ c'.fd.pending = stream rest) : Tracked reqs c' := by
  rcases h with hclosed | ⟨⟨hphase, hhead, hnone⟩, hpend⟩
  · refine .closed ⟨rest.map packet, ?_⟩ hclosed
    rw [hserved, hreqs]
    simp
  · refine .reading (done ++ [r]) rest (by simp [hreqs]) hserved hphase (.inl ⟨hnone, ?_, ?_⟩)
    · rw [hhead]
      decide
    · rw [hhead, nil_append, hpend]

/-- The data behind a request that is no WRITE is empty. -/
theorem payload_eq_nil (h : payloadSize r.packet = 0) : r.payload = [] := by
  rw [← length_eq_zero_iff, r.payload_eq, h]

/-- What a handler leaves of the request is nothing, if the data behind it
could be read. -/
theorem pending_handled (env : Surroundings) (hcoll : Collected r rest c)
    (hread : 0 < payloadSize r.packet →
      env.volume (volumeid r.packet) = some true ∧
        env.malloc (size r.packet) = true ∧ size r.packet < 2147483648 ∧
        c.fd.delivers (size r.packet) = true) :
    pending (if command r.packet = some .write then processWrite env r.packet c.fd
      else c.fd) = stream rest := by
  obtain ⟨-, hpend⟩ := hcoll
  by_cases hw : command r.packet = some .write ∧ ipcWriteSize ≤ r.packet.length
  · have hsize : payloadSize r.packet = size r.packet := if_pos hw
    obtain ⟨got, hgot, hle, hiff⟩ := processWrite_pending env c.fd hw.2
    have hlen : got.length = r.payload.length := by
      rw [r.payload_eq, hsize]
      rcases Nat.eq_zero_or_pos (size r.packet) with hz | hpos
      · omega
      · exact (hiff hpos).mpr (hread (by omega))
    rw [if_pos hw.1]
    exact (append_inj (hgot.symm.trans hpend) hlen).2
  · have hnil : r.payload = [] := payload_eq_nil (if_neg hw)
    rw [hnil, nil_append] at hpend
    split
    · next hcmd =>
      have hshort : r.packet.length < ipcWriteSize := Nat.lt_of_not_le fun h => hw ⟨hcmd, h⟩
      rw [processWrite, if_pos hshort, hpend]
    · exact hpend

/-- **The step lemma of the handlers.** The connection stays in step
exactly when the data behind the request can be read. -/
theorem handled_iff (env : Surroundings) (hreqs : reqs = done ++ r :: rest)
    (hserved : c.served = (done ++ [r]).map packet) (hcoll : Collected r rest c) :
    (PayloadRead c (.handled env) → Tracked reqs (processCommandThread env r.packet c)) ∧
      (InStep reqs (processCommandThread env r.packet c) → PayloadRead c (.handled env)) := by
  obtain ⟨hsame, hcases⟩ := processCommandThread_cases env r.packet c
  simp only [PayloadRead, hcoll.1]
  constructor
  · intro hread
    refine tracked_of_ended hreqs (hsame.trans hserved) (hcases.imp_right ?_)
    rintro ⟨hidle, hsent, hready, hfd⟩
    refine ⟨hidle, ?_⟩
    rw [hfd]
    refine pending_handled env hcoll fun hpos => hread (hready ?_) hsent hpos
    by_contra hcmd
    rw [payloadSize, if_neg (fun h => hcmd h.1)] at hpos
    omega
  · intro hstep hready hsent hpos
    have hw : command r.packet = some .write ∧ ipcWriteSize ≤ r.packet.length := by
      by_contra hw
      rw [payloadSize, if_neg hw] at hpos
      omega
    have hsize : payloadSize r.packet = size r.packet := if_pos hw
    obtain ⟨hidle, hfd⟩ := processCommandThread_write env hw.1 r.close_eq hready hsent
    obtain ⟨got, hgot, hle, hiff⟩ := processWrite_pending env c.fd hw.2
    -- in step, the data that was taken is as long as the data behind the packet
    have hlater := hstep.pending hidle
    have hdrop : reqs.drop (processCommandThread env r.packet c).served.length = rest := by
      rw [hsame, hserved, length_map, hreqs, append_cons done r rest, drop_left]
    rw [hdrop, hfd] at hlater
    have hlen := congrArg List.length (hgot.symm.trans hcoll.2)
    rw [hlater, length_append, length_append, r.payload_eq, hsize] at hlen
    exact (hiff (by omega)).mp (by omega)

end Handled

/-! ## The connection -/

/-- Every step of a tracked connection keeps it tracked, if the data
behind the request can be read where one is handled, and no step that
cannot read it leaves the connection in step. -/
theorem tracked_step {c' : DaemonClient} {e : IpcEvent}
    (h : Tracked reqs c) (hs : ipcStep c e = some c') :
    (PayloadRead c e → Tracked reqs c') ∧ (InStep reqs c' → PayloadRead c e) := by
  cases e with
  | ready again malloc =>
    refine ⟨fun _ => ?_, fun _ => trivial⟩
    cases h with
    | reading done rest hreqs hserved hphase hcoll =>
      obtain ⟨hserved', hphase', hcame⟩ := processCommand_came again malloc hcoll
      have hsofar : (processCommand again malloc c).2.served = done.map packet :=
        hserved'.trans hserved
      simp only [ipcStep, hphase] at hs
      rcases hcame with hlost | ⟨hmore, hcoll'⟩ | ⟨hall, r, rest', hrest, hcoll'⟩
      · rw [if_pos hlost] at hs
        cases hs
        refine .closed ⟨rest.map packet, ?_⟩ rfl
        rw [hreqs, map_append]
        exact congrArg (· ++ rest.map packet) hsofar
      · rw [hmore, if_neg (by decide), if_neg (by decide)] at hs
        cases hs
        exact .reading done rest hreqs hsofar (hphase'.trans hphase) hcoll'
      · rw [hall, if_neg (by decide), if_pos rfl] at hs
        cases hs
        refine .processing done r rest' (by rw [hreqs, hrest]) ?_ rfl hcoll'
        simp [hsofar, hcoll'.1]
    | processing done r rest hreqs hserved hphase hcoll =>
      simp [ipcStep, hphase] at hs
    | closed hserved hphase => simp [ipcStep, hphase] at hs
  | handled env =>
    cases h with
    | reading done rest hreqs hserved hphase hcoll => simp [ipcStep, hphase] at hs
    | processing done r rest hreqs hserved hphase hcoll =>
      simp only [ipcStep, hphase, hcoll.1, Option.some.injEq] at hs
      rw [← hs]
      exact handled_iff env hreqs hserved hcoll
    | closed hserved hphase => simp [ipcStep, hphase] at hs

/-- A connection just accepted is tracked. -/
theorem tracked_accepted {fd : Source} (h : fd.pending = stream reqs) :
    Tracked reqs (.accepted fd) := .reading [] reqs rfl rfl rfl (.inl ⟨rfl, Nat.zero_lt_succ 11, h⟩)

/-- **When the stream stays in step.** For every list of requests, every
way their octets arrive and every outcome of the handlers: a connection
whose WRITEs could all read their data is in step, and the next step
keeps it so if and only if that step can. -/
theorem inStep_while_payloadRead (reqs : List IpcRequest) (fd : Source)
    (hfd : fd.pending = stream reqs) {c : DaemonClient}
    (h : Reachable (guarded ipcStep PayloadRead) (.accepted fd) c) :
    InStep reqs c ∧
      ∀ e c', ipcStep c e = some c' → (InStep reqs c' ↔ PayloadRead c e) := by
  have htracked : Tracked reqs c := by
    refine h.invariant (tracked_accepted hfd) ?_
    intro s s' e hs hstep
    obtain ⟨hread, hstep'⟩ := guarded_eq_some.mp hstep
    exact (tracked_step hs hstep').1 hread
  refine ⟨htracked.inStep, fun e c' hs => ?_⟩
  obtain ⟨hkeep, hneed⟩ := tracked_step htracked hs
  exact ⟨hneed, fun hread => (hkeep hread).inStep⟩

/-- The HELLO of a client. -/
def helloRequest : IpcRequest where
  packet := [50, 0, 0, 0, 24, 0, 0, 0, 0, 0, 0, 0, 0x53, 0x50, 0x46, 0x41, 2, 0, 2, 0, 0, 0, 0, 0]
  payload := []
  header_le := by decide
  len_eq := by decide
  close_eq := by decide
  payload_eq := by decide

/-- A WRITE of twelve octets for volume 7: data that would be the packet
of an EXIT. -/
def writeRequest : IpcRequest where
  packet := [27, 0, 0, 0, 48, 0, 0, 0, 0, 0, 0, 0, 0, 0, 0, 0, 7, 0, 0, 0, 0, 0, 0, 0,
    1, 0, 0, 0, 0, 0, 0, 0, 0, 0, 0, 0, 0, 0, 0, 0, 12, 0, 0, 0, 0, 0, 0, 0]
  payload := [12, 0, 0, 0, 12, 0, 0, 0, 0, 0, 0, 0]
  header_le := by decide
  len_eq := by decide
  close_eq := by decide
  payload_eq := by decide

/-- Surroundings in which the volumes have a given state. -/
def surroundings (volume : ℕ → Option Bool) : Surroundings :=
  { volume := volume, malloc := fun _ => true, sent := true, handler := fun _ _ => .finished false }

/-- Two requests are read and handled. -/
def twoHandled (volume : ℕ → Option Bool) : List IpcEvent :=
  [.ready false true, .handled (surroundings volume), .ready false true,
    .handled (surroundings volume)]

/-- With the volume attached and connected, the data is taken. -/
theorem inStep_write_attached :
    ∃ c, run (guarded ipcStep PayloadRead)
        (.accepted [.data (stream [helloRequest, writeRequest])])
        (twoHandled fun _ => some true) = some c ∧
      c.Idle ∧ c.fd.pending = [] ∧ InStep [helloRequest, writeRequest] c := by
  have hrun : run (guarded ipcStep PayloadRead)
      (.accepted [.data (stream [helloRequest, writeRequest])]) (twoHandled fun _ => some true) =
      some ⟨[], [], none, true, .reading, [helloRequest.packet, writeRequest.packet]⟩ := by
    decide +kernel
  refine ⟨_, hrun, ⟨rfl, rfl, rfl⟩, rfl, ?_⟩
  exact (inStep_while_payloadRead [helloRequest, writeRequest]
    [.data (stream [helloRequest, writeRequest])] (by decide +kernel)
    (reachable_of_run hrun)).1

/-- With the volume not attached, the data of the WRITE is served as an
EXIT. -/
theorem writeData_served_as_exit :
    ∃ c, run ipcStep (.accepted [.data (stream [helloRequest, writeRequest])])
        (twoHandled (fun _ => none) ++ [.ready false true]) = some c ∧
      c.served = [helloRequest.packet, writeRequest.packet, writeRequest.payload] ∧
      ¬ InStep [helloRequest, writeRequest] c := by
  refine ⟨⟨[], writeRequest.payload, some writeRequest.payload, true, .processing,
    [helloRequest.packet, writeRequest.packet, writeRequest.payload]⟩, ?_, rfl, ?_⟩
  · decide +kernel
  · intro h
    exact absurd h.served (by decide)

end NetatalkClient
