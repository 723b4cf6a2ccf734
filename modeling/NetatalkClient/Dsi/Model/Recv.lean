import NetatalkClient.Dsi.Model.Server
/-!
# DSI: the receiver

`afpc_dsi_recv`, one call of it, cut at its labels: `gotenough`,
`processPacket`, `afterProcessing` and `out` are the source's. Each takes
the server as the label finds it and is the rest of the call.

A call makes at most one `read` (two where `afpc_dsi_command_reply` makes
its own), and interrupted reads are retried, so the source it reads from
has only data, end of stream and failure.
-/

namespace NetatalkClient

variable {σ : Type}

/-- How a call ends: it returns 0, it returns -1, or it follows a `NULL`
pointer. -/
inductive RecvRet where
  | ok
  | error
  | nullDeref
  deriving DecidableEq, Repr

/-- A packet handed to an arm of the command switch: the command byte it
was switched on, `incoming_buffer[0..data_read)`, and `request`. -/
structure Dispatch where
  command : ℕ
  packet : Octets
  request : Option DsiRequest
  deriving DecidableEq, Repr

/-- A call's result, with the server and the socket it leaves. -/
structure Recv (σ : Type) where
  ret : RecvRet
  server : AfpServer σ
  source : Source
  dispatched : List Dispatch

namespace AfpServer

/-- `incoming_buffer[0..data_read)`. -/
def received (s : AfpServer σ) : Octets := s.incomingBuffer.window s.dataRead

def header (s : AfpServer σ) : DsiHeader := dsiHeader s.incomingBuffer

/-- The server after a read that put `got` at `incoming_buffer + data_read`. -/
def receive (s : AfpServer σ) (got : Octets) : AfpServer σ :=
  { s with
    incomingBuffer := s.incomingBuffer.overwrite s.dataRead got
    dataRead := s.dataRead + got.length
    stats := { s.stats with rxBytes := s.stats.rxBytes + got.length } }

/-- The server after a read that put `got` at the end of the receive
buffer at `buf`. -/
def receiveInto (s : AfpServer σ) (buf : ℕ) (got : Octets) : AfpServer σ :=
  { s with
    rxBuffers := Function.update s.rxBuffers buf
      { s.rxBuffers buf with
        size := ((s.rxBuffers buf).size + got.length) % 4294967296
        data := (s.rxBuffers buf).data.overwrite (s.rxBuffers buf).size got }
    stats := { s.stats with rxBytes := s.stats.rxBytes + got.length } }

/-- What follows the first `n` octets of the incoming buffer, moved to
its front. -/
def shift (s : AfpServer σ) (n : ℕ) : AfpServer σ :=
  { s with
    incomingBuffer := s.incomingBuffer.overwrite 0 (s.received.drop n)
    dataRead := s.dataRead - n }

/-- The return code a header stores in the request it answers. -/
def storeReturnCode (h : DsiHeader) (p : DsiRequest) : DsiRequest :=
  { p with returnCode := h.errorCode }

def countRunt (s : AfpServer σ) : AfpServer σ :=
  { s with stats := { s.stats with runtPackets := s.stats.runtPackets + 1 } }

/-! ## Packet handlers -/

/-- The option loop of `afpc_dsi_opensession_reply`, over what is left of
the reply. -/
def opensessionOptions : ℕ → Octets → AfpServer σ → AfpServer σ
  | fuel + 1, optionType :: optionLen :: rest, s =>
      if rest.length < optionLen.toNat then s
      else
        let s :=
          if optionType.toNat = 0 ∧ optionLen.toNat = 4 then
            { s with txQuantum := Octets.be32 rest 0 }
          else if optionType.toNat = kServerReplayCacheSize ∧ optionLen.toNat = 4 then
            { s with replayCacheSize := Octets.be32 rest 0, supportsReplayCache := true }
          else s
        opensessionOptions fuel (rest.drop optionLen.toNat) s
  | _, _, s => s

/-- `afpc_dsi_opensession_reply`. -/
def opensessionReply (s : AfpServer σ) : AfpServer σ :=
  let s := opensessionOptions s.dataRead (s.received.drop headerSize) { s with txQuantum := 0 }
  if s.txQuantum = 0 then { s with txQuantum := dsiDefaultTxQuantum } else s

/-- `afpc_dsi_getstatus_reply`: a reply too short for the fixed part is
ignored. -/
def getstatusReply (env : Env σ) (s : AfpServer σ) : AfpServer σ :=
  if s.dataRead < 34 then s
  else { s with session := env.getstatusReply s.incomingBuffer s.dataRead s.session }

/-- `afpc_dsi_incoming_tickle`. -/
def incomingTickle (env : Env σ) (s : AfpServer σ) : AfpServer σ :=
  (afpcDsiSetupHeader s).2.sendDontWait env headerSize (afpcDsiSetupHeader s).1 dsiTickle

/-- `afpc_dsi_command_reply`; `none` follows a `NULL` buffer. -/
def commandReply (env : Env σ) (s : AfpServer σ) (src : Source) (r : DsiRequest) :
    Option (ℤ × AfpServer σ × Source) :=
  let afpReply (s : AfpServer σ) (src : Source) :=
    let (result, session) :=
      env.afpReply r.subcommand s.incomingBuffer s.dataRead r.other s.session
    some (result, { s with session }, src)
  if s.dataRead < headerSize then some (-1, s, src)
  else if r.subcommand = 0 then some (-1, s, src)
  else if r.isRead then
    match r.other with
    | none => none
    | some a =>
      let buf := s.rxBuffers a
      match src.read ((buf.maxsize + 4294967296 - buf.size) % 4294967296) with
      | (some (c :: cs), src) =>
          -- the data lands behind `size`, which is not advanced
          afpReply
            { s with
              rxBuffers := Function.update s.rxBuffers a
                { buf with data := buf.data.overwrite buf.size (c :: cs) }
              dataRead := s.dataRead + (c :: cs).length
              stats := { s.stats with rxBytes := s.stats.rxBytes + (c :: cs).length } } src
      | (_, src) => some (-1, s, src)
  else afpReply s src

end AfpServer

/-! ## The labels, last to first -/

open AfpServer

/-- `out:` wakes the request's sender, or drops the request if nobody waits. -/
def out (s : AfpServer σ) (src : Source) (request : Option DsiRequest)
    (dispatched : List Dispatch) : Recv σ :=
  match request with
  | none => ⟨.ok, s, src, dispatched⟩
  | some r =>
      if r.wait ≠ 0 then
        ⟨.ok, s.updateRequest r.addr fun p => { p with wait := 0 }.signal, src, dispatched⟩
      else ⟨.ok, s.removeFromRequestQueue r.addr, src, dispatched⟩

/-- `after_processing:` takes the packet out of the incoming buffer. -/
def afterProcessing (s : AfpServer σ) (src : Source) (request : Option DsiRequest)
    (dispatched : List Dispatch) : Recv σ :=
  if s.dataRead = s.header.length + headerSize then
    out { s with dataRead := 0 } src request dispatched
  else
    let packetSize := (s.header.length + headerSize) % 4294967296
    if s.dataRead < packetSize then ⟨.error, s, src, dispatched⟩
    else out (s.shift packetSize) src request dispatched

/-- `process_packet:` is the switch on the command byte. -/
def processPacket (env : Env σ) (s : AfpServer σ) (src : Source) (request : Option DsiRequest)
    (runtPacket : Bool) : Recv σ :=
  let command := s.header.command
  let dispatched := [⟨command, s.received, request⟩]
  if command = dsiCloseSession then afterProcessing s.loopDisconnect src request dispatched
  else if command = dsiGetStatus then
    afterProcessing (s.getstatusReply env) src request dispatched
  else if command = dsiOpenSession then afterProcessing s.opensessionReply src request dispatched
  else if command = dsiTickle then
    afterProcessing (s.incomingTickle env) src request dispatched
  else if command = dsiWrite ∨ command = dsiCommand then
    if runtPacket then afterProcessing s src request []
    else
      match request with
      | none => ⟨.nullDeref, s, src, dispatched⟩
      | some r =>
        let handled := match r.replyHandler with
          | some h =>
              let (result, session) :=
                env.replyHandler h s.incomingBuffer s.dataRead r.other s.session
              some (result, { s with session }, src)
          | none => s.commandReply env src r
        match handled with
        | none => ⟨.nullDeref, s, src, dispatched⟩
        | some (result, s, src) =>
          let s :=
            if result ≠ 0 ∧ r.returnCode = 0 then
              s.updateRequest r.addr fun p => { p with returnCode := result }
            else s
          afterProcessing s src request dispatched
  else if command = dsiAttention then
    if !env.malloc then ⟨.error, s, src, []⟩
    else
      afterProcessing (if env.pthreadCreate then { s with refcount := s.refcount + 1 } else s)
        src request dispatched
  else ⟨.error, s, src, []⟩

/-- The rest of a packet that is not the reply to a read. -/
def restOfPacket (env : Env σ) (s : AfpServer σ) (src : Source) (request : Option DsiRequest)
    (runtPacket : Bool) : Recv σ :=
  if s.dataRead = headerSize ∧ s.header.length = 0 then processPacket env s src request runtPacket
  else if bufsize - headerSize < s.header.length then ⟨.error, s, src, []⟩
  else if s.header.length < s.dataRead - headerSize then ⟨.error, s, src, []⟩
  else
    let payloadRemaining := s.header.length - (s.dataRead - headerSize)
    if payloadRemaining = 0 then processPacket env s src request runtPacket
    else
      match src.read (min payloadRemaining (bufsize - s.dataRead)) with
      | (some (c :: cs), src) =>
          let s := s.receive (c :: cs)
          if s.dataRead < s.header.length + headerSize then ⟨.ok, s, src, []⟩
          else if runtPacket then afterProcessing s src request []
          else processPacket env s src request runtPacket
      | (_, src) => ⟨.error, s, src, []⟩

/-- The payload of the reply to a read, which goes to the request's own
buffer. -/
def readReply (env : Env σ) (s : AfpServer σ) (src : Source) (r : DsiRequest) : Recv σ :=
  match r.streamBuffer.or r.other with
  | none => ⟨.nullDeref, s, src, []⟩
  | some a =>
    let buf := s.rxBuffers a
    if s.dataRead = headerSize ∧ s.header.length = 0 then
      out { s with dataRead := 0 } src (some r) []
    else if buf.maxsize = 0 then ⟨.error, s, src, []⟩
    else
      let newmax := min ((buf.maxsize + 4294967296 - buf.size) % 4294967296)
        ((s.header.length + 4294967296 - buf.size) % 4294967296)
      match src.read newmax with
      | (some (c :: cs), src) =>
          let s := s.receiveInto a (c :: cs)
          if s.header.length = (s.rxBuffers a).size then
            let sizeToCopy := s.dataRead - headerSize
            if sizeToCopy = 0 then out { s with dataRead := 0 } src (some r) []
            else if !env.malloc then ⟨.error, s, src, []⟩
            else processPacket env (s.shift headerSize) src (some r) false
          else ⟨.ok, s, src, []⟩
      | (_, src) => ⟨.error, s, src, []⟩

/-- `gotenough:` finds out what the packet answers. -/
def gotenough (env : Env σ) (s : AfpServer σ) (src : Source) : Recv σ :=
  match afpcDsiFindRequest s.commandRequests s.header.requestid with
  | none =>
      if s.header.flags = dsiReply then restOfPacket env s.countRunt src none true
      else restOfPacket env s src none false
  | some r =>
      if r.connectionGeneration ≠ s.connectionGeneration then
        restOfPacket env s.countRunt src none true
      else
        let r' := storeReturnCode s.header r
        let s' := s.updateRequest r.addr (storeReturnCode s.header)
        if r.isRead then readReply env s' src r' else restOfPacket env s' src (some r') false

/-- `afpc_dsi_recv`. -/
def afpcDsiRecv (env : Env σ) (s : AfpServer σ) (src : Source) : Recv σ :=
  if s.dataRead < headerSize then
    match src.read (headerSize - s.dataRead) with
    | (some (c :: cs), src) =>
        let s := s.receive (c :: cs)
        if s.dataRead = headerSize ∧ s.header.length = 0 then gotenough env s src
        else ⟨.ok, s, src, []⟩
    | (_, src) => ⟨.error, s, src, []⟩
  else gotenough env s src

end NetatalkClient
