import NetatalkClient.Dsi.Model.Recv
/-!
# DSI: a server over its connections

A server record is made once (`afp_server_init`) and connects and
reconnects with the fields it has. What an OpenSession reply says is read
into them by `afpc_dsi_opensession_reply`.
-/

namespace NetatalkClient

variable {σ : Type}

/-- `afp_server_init`. -/
def afpServerInit (session : σ) : AfpServer σ where
  fd := -1
  connectState := .disconnected
  connectionGeneration := 0
  needResume := false
  reconnectInProgress := false
  suspended := false
  lastrequestid := 0
  expectedrequestid := 0
  supportsReplayCache := false
  replayCacheSize := 0
  txQuantum := 0
  dsiDefaultTimeout := 5
  commandRequests := []
  incomingBuffer := []
  dataRead := 0
  attentionLen := 0
  refcount := 1
  stats := { runtPackets := 0, rxBytes := 0, txBytes := 0, requestsPending := 0 }
  dtrefnums := []
  rxBuffers _ := { size := 0, maxsize := 0, data := [] }
  session

/-- What happens to a server. A connection is attempted, and one of its
addresses gives a descriptor or none does; it is lost; a header is set up;
the packet of an OpenSession reply is in the buffer. -/
inductive SessionEvent where
  | connect (fd : Option ℕ)
  | disconnect
  | setupHeader
  | opensessionReply (packet : Octets)
  deriving DecidableEq, Repr

namespace AfpServer

/-- `afp_server_connect`, up to the look at `full`. -/
def connect (s : AfpServer σ) (fd : Option ℕ) : AfpServer σ :=
  let s := { s with
    dataRead := 0, attentionLen := 0, fd := -1
    connectionGeneration := (s.connectionGeneration + 1) % 4294967296 }
  match fd with
  | none => s
  | some fd =>
      { s with
        fd := fd
        lastrequestid := if s.supportsReplayCache then s.lastrequestid else 0
        connectState := .connecting }

def sessionStep (s : AfpServer σ) : SessionEvent → AfpServer σ
  | .connect fd => s.connect fd
  | .disconnect => s.loopDisconnect
  | .setupHeader => (afpcDsiSetupHeader s).2
  | .opensessionReply packet =>
      { s with incomingBuffer := packet, dataRead := packet.length }.opensessionReply

/-- A server after these events. -/
def sessionRun (session : σ) (es : List SessionEvent) : AfpServer σ :=
  es.foldl sessionStep (afpServerInit session)

end AfpServer

end NetatalkClient
