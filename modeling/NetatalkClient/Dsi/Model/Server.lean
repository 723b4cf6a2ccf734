import NetatalkClient.Common.Codes
/-!
# DSI: the server record and its request queue

The part of `struct afp_server` that the Data Stream Interface reads and
writes, `struct dsi_request`, and the queue operations of `dsi.c`.

A request is known to others by its address, so the queue holds
addressed records and a store through a pointer rewrites the record at
that address. What only reply handlers write (names, volumes, the
structures behind a request's `other` pointer) is the type parameter
`σ`: nothing in the receiver reads it.
-/

namespace NetatalkClient

/-! ## Constants of `dsi_protocol.h` and `afp_protocol.h` -/

def dsiRequest : ℕ := 0
def dsiReply : ℕ := 1

def dsiCloseSession : ℕ := 1
def dsiCommand : ℕ := 2
def dsiGetStatus : ℕ := 3
def dsiOpenSession : ℕ := 4
def dsiTickle : ℕ := 5
def dsiWrite : ℕ := 6
def dsiAttention : ℕ := 8

def kServerReplayCacheSize : ℕ := 2

/-- `DSI_DEFAULT_TX_QUANTUM`. -/
def dsiDefaultTxQuantum : ℕ := 65536

def afpRead : ℕ := 27
def afpReadExt : ℕ := 60

/-- `sizeof(struct dsi_header)`. -/
def headerSize : ℕ := 16

/-- The size `afp_server_init` gives every incoming buffer. -/
def bufsize : ℕ := 128 * 1024

/-- The `int` a 32-bit word is read as. -/
def toInt (w : ℕ) : ℤ := if w < 2147483648 then w else w - 4294967296

/-! ## The header -/

/-- `struct dsi_header`, in host order. `length` is the payload's. -/
structure DsiHeader where
  flags : ℕ
  command : ℕ
  requestid : ℕ
  errorCode : ℤ
  length : ℕ
  deriving DecidableEq, Repr

/-- The header at the front of a buffer. -/
def dsiHeader (b : Octets) : DsiHeader :=
  { flags := b.byte 0
    command := b.byte 1
    requestid := b.be16 2
    errorCode := toInt (b.be32 4)
    length := b.be32 8 }

/-! ## Requests -/

/-- `struct dsi_request`. `other` and `streamBuffer` are pointers, `none`
being `NULL`; `waitingCond` counts the signals its condition variable was
given. -/
structure DsiRequest where
  addr : ℕ
  requestid : ℕ
  subcommand : ℕ
  other : Option ℕ
  wait : ℤ
  doneWaiting : Bool
  ignoreReplies : Bool
  waitingCond : ℕ
  returnCode : ℤ
  connectionGeneration : ℕ
  replyHandler : Option ℕ
  streamBuffer : Option ℕ
  deriving DecidableEq, Repr

namespace DsiRequest

/-- The two requests whose payload goes to a buffer of the caller's. -/
def isRead (r : DsiRequest) : Bool := r.subcommand == afpRead || r.subcommand == afpReadExt

/-- `done_waiting = 1` and a signal, under the request's own mutex. -/
def signal (r : DsiRequest) : DsiRequest :=
  { r with doneWaiting := true, waitingCond := r.waitingCond + 1 }

end DsiRequest

/-- `struct afp_rx_buffer`, with `size` octets received so far. -/
structure AfpRxBuffer where
  size : ℕ
  maxsize : ℕ
  data : Octets
  deriving DecidableEq, Repr

/-! ## The server -/

inductive ConnectState where
  | connected
  | disconnected
  | connecting
  deriving DecidableEq, Repr

/-- The counters of `server->stats` that DSI keeps. -/
structure Stats where
  runtPackets : ℕ
  rxBytes : ℕ
  txBytes : ℕ
  requestsPending : ℤ
  deriving DecidableEq, Repr

/-- The fields of `struct afp_server` that DSI uses. `dtrefnums` are the
desktop references of its volumes, `rxBuffers` the receive buffers its
requests point to, and `session` whatever else reply handlers write. -/
structure AfpServer (σ : Type) where
  fd : ℤ
  connectState : ConnectState
  connectionGeneration : ℕ
  needResume : Bool
  reconnectInProgress : Bool
  suspended : Bool
  lastrequestid : ℕ
  expectedrequestid : ℕ
  supportsReplayCache : Bool
  replayCacheSize : ℕ
  txQuantum : ℕ
  dsiDefaultTimeout : ℤ
  commandRequests : List DsiRequest
  incomingBuffer : Octets
  dataRead : ℕ
  attentionLen : ℕ
  refcount : ℤ
  stats : Stats
  dtrefnums : List ℕ
  rxBuffers : ℕ → AfpRxBuffer
  session : σ

variable {σ : Type}

/-! ## The request queue -/

/-- `afpc_dsi_find_request`. -/
def afpcDsiFindRequest (queue : List DsiRequest) (requestId : ℕ) : Option DsiRequest :=
  queue.find? fun p => !p.ignoreReplies && requestId == p.requestid

namespace AfpServer

/-- A store through a pointer to a queued request. -/
def updateRequest (s : AfpServer σ) (addr : ℕ) (f : DsiRequest → DsiRequest) : AfpServer σ :=
  { s with commandRequests := s.commandRequests.map fun p => if p.addr = addr then f p else p }

/-- `afpc_dsi_remove_from_request_queue`, as far as the server shows it:
a request that is not queued changes nothing here. -/
def removeFromRequestQueue (s : AfpServer σ) (toremove : ℕ) : AfpServer σ :=
  if s.commandRequests.any (·.addr == toremove) then
    { s with
      commandRequests := s.commandRequests.eraseP (·.addr == toremove)
      stats := { s.stats with requestsPending := s.stats.requestsPending - 1 } }
  else s

/-- `afpc_dsi_fail_request_queue`. -/
def failRequestQueue (s : AfpServer σ) (error : ℤ) : AfpServer σ :=
  { s with
    commandRequests := s.commandRequests.map fun p => { p with returnCode := error }.signal }

/-- `loop_disconnect`. -/
def loopDisconnect (s : AfpServer σ) : AfpServer σ :=
  if s.connectState ≠ .connected ∧ s.connectState ≠ .connecting then s
  else
    { s.failRequestQueue (-eio) with
      dtrefnums := s.dtrefnums.map fun _ => 0
      dataRead := 0
      attentionLen := 0
      fd := -1
      connectState := .disconnected
      needResume := true }

end AfpServer

/-! ## Sending without waiting -/

/-- What `write` does with a whole message: it goes out, the peer has
closed the connection (`EPIPE`, `EBADF`), or another error is returned. -/
inductive WriteResult where
  | sent
  | broken
  | failed
  deriving DecidableEq, Repr

/-- What a call meets outside the server record.

`reconnect` is `afp_server_reconnect`, with whether it returned 0; the
field beside it says that the request counter of the record moves only
together with the connection generation. The reply parsers are given the
buffer and `data_read`, and change nothing but `session`. -/
structure Env (σ : Type) where
  reconnect : AfpServer σ → Bool × AfpServer σ
  reconnect_counter : ∀ s, (reconnect s).2.lastrequestid = s.lastrequestid ∨
    (reconnect s).2.connectionGeneration ≠ s.connectionGeneration
  write : WriteResult
  malloc : Bool
  pthreadCreate : Bool
  getstatusReply : Octets → ℕ → σ → σ
  replyHandler : ℕ → Octets → ℕ → Option ℕ → σ → ℤ × σ
  afpReply : ℕ → Octets → ℕ → Option ℕ → σ → ℤ × σ

/-- Surroundings in which every call succeeds and the parsers keep nothing. -/
def Env.plain : Env σ where
  reconnect s := (false, s)
  reconnect_counter _ := .inl rfl
  write := .sent
  malloc := true
  pthreadCreate := true
  getstatusReply _ _ session := session
  replyHandler _ _ _ _ session := (0, session)
  afpReply _ _ _ _ session := (0, session)

/-- A server on its first connection, with `queue` pending. -/
def AfpServer.connected (queue : List DsiRequest) : AfpServer Unit where
  fd := 3
  connectState := .connected
  connectionGeneration := 1
  needResume := false
  reconnectInProgress := false
  suspended := false
  lastrequestid := queue.length
  expectedrequestid := queue.length
  supportsReplayCache := false
  replayCacheSize := 0
  txQuantum := dsiDefaultTxQuantum
  dsiDefaultTimeout := 5
  commandRequests := queue
  incomingBuffer := []
  dataRead := 0
  attentionLen := 0
  refcount := 1
  stats := { runtPackets := 0, rxBytes := 0, txBytes := 0, requestsPending := queue.length }
  dtrefnums := []
  rxBuffers _ := { size := 0, maxsize := 0, data := [] }
  session := ()

/-- A request waiting for its reply on that connection. -/
def DsiRequest.waiting (addr requestid subcommand : ℕ) : DsiRequest where
  addr
  requestid
  subcommand
  other := some addr
  wait := 5
  doneWaiting := false
  ignoreReplies := false
  waitingCond := 0
  returnCode := 0
  connectionGeneration := 1
  replyHandler := none
  streamBuffer := none

/-- The id after `lastrequestid`. With a replay cache 0 is not used again. -/
def nextRequestid (supportsReplayCache : Bool) (lastrequestid : ℕ) : ℕ :=
  if lastrequestid = 65535 then
    if supportsReplayCache then 1 else 0
  else lastrequestid + 1

/-- `afpc_dsi_setup_header`: the id it draws and the server after it. -/
def afpcDsiSetupHeader (s : AfpServer σ) : ℕ × AfpServer σ :=
  let id := nextRequestid s.supportsReplayCache s.lastrequestid
  (id, { s with lastrequestid := id, expectedrequestid := id })

namespace AfpServer

/-- An address no queued request has. -/
def freshAddr (s : AfpServer σ) : ℕ := (s.commandRequests.map (·.addr + 1)).foldr max 0

/-- The request `afpc_dsi_send_with_reply` builds and queues, here for a
sender that does not wait and has no handler. -/
def newRequest (s : AfpServer σ) (requestid subcommand : ℕ) : DsiRequest :=
  { addr := s.freshAddr, requestid, subcommand, other := none, wait := 0, doneWaiting := false
    ignoreReplies := false, waitingCond := 0, returnCode := 0
    connectionGeneration := s.connectionGeneration, replyHandler := none, streamBuffer := none }

def enqueue (s : AfpServer σ) (r : DsiRequest) : AfpServer σ :=
  { s with
    commandRequests := s.commandRequests ++ [r]
    stats := { s.stats with requestsPending := s.stats.requestsPending + 1 } }

/-- The server after the write of a message of `size` octets. -/
def written (s : AfpServer σ) (result : WriteResult) (size : ℕ) : AfpServer σ :=
  match result with
  | .sent => { s with stats := { s.stats with txBytes := s.stats.txBytes + size } }
  | .broken => { s with connectState := .disconnected }
  | .failed => s

/-- The part of `afpc_dsi_send_with_reply` after the connection is known to
be up, for a sender that does not wait: queued, written and taken off the
queue again. -/
def transmit (env : Env σ) (s : AfpServer σ) (size requestid subcommand : ℕ) : AfpServer σ :=
  if s.fd < 0 || !env.malloc then s
  else
    let r := s.newRequest requestid subcommand
    ((s.enqueue r).written env.write size).removeFromRequestQueue r.addr

/-- `afpc_dsi_send` with `DSI_DONT_WAIT`. -/
def sendDontWait (env : Env σ) (s : AfpServer σ) (size requestid subcommand : ℕ) :
    AfpServer σ :=
  if s.connectState = .disconnected then
    if s.suspended || s.reconnectInProgress then s
    else if (env.reconnect s).1 then (env.reconnect s).2.transmit env size requestid subcommand
    else (env.reconnect s).2
  else s.transmit env size requestid subcommand

end AfpServer

end NetatalkClient
