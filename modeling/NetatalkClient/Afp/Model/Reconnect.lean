import NetatalkClient.Dsi.Model.Server
/-!
# AFP: resuming a session

`afp_server_reconnect` and what it calls: the probe that asks for the
server's signature on a connection of its own, the connection the session
is resumed on, the login and the volumes. Both connections walk the
address list, each by itself.

The network's part is a `Network`: which addresses accept a connection in
which of the two walks, and how an endpoint answers. `Wire` lists what goes
out over which connection. The request queue and the log are left out.
-/

namespace NetatalkClient

/-- `AFP_SIGNATURE_LEN` bytes. -/
abbrev Signature := Vector UInt8 16

/-- What `afp_server_reconnect` looks at in a volume. -/
structure SessionVolume where
  attached : Bool
  /-- `strlen(mountpoint)` is not zero. -/
  mountpoint : Bool
  dtrefnum : ℕ
  deriving DecidableEq, Repr

/-- The part of `struct afp_server` that a session is resumed with. An
open socket is the endpoint it leads to. -/
structure Session (E : Type) where
  address : List E
  usedAddress : Option E
  fd : Option E
  connectState : ConnectState
  reconnectInProgress : Bool
  signature : Signature
  connectionGeneration : ℕ
  lastrequestid : ℕ
  supportsReplayCache : Bool
  dataRead : ℕ
  attentionLen : ℕ
  exitFlag : Bool
  /-- `kSupportsReconnect` in the server's flags. -/
  supportsReconnect : Bool
  needResume : Bool
  volumes : List SessionVolume

/-- What the network and the endpoints do. -/
structure Network (E : Type) where
  /-- Whether a connection to the address at a position of the list
  succeeds, during the probe. -/
  probeAccepts : ℕ → Bool
  /-- The same, when the session is resumed. -/
  sessionAccepts : ℕ → Bool
  /-- `errno` after a walk without success. -/
  errno : ℤ
  /-- The signature in the answer to GetStatus; `none` if it fails. -/
  status : E → Option Signature
  /-- What `afpc_dsi_opensession` returns. -/
  opensession : E → ℤ
  /-- The login with the saved authentication method, if there is such a
  method: how many messages go out, and the result. -/
  login : Option (E → ℕ × ℤ)
  /-- What `resume_token` or `setup_token` returns. -/
  token : E → ℤ
  /-- What `afp_connect_volume` returns, by the volume's index. -/
  connectVolume : ℕ → ℤ

/-- What is sent, and over a connection to which endpoint. -/
inductive Wire (E : Type) where
  /-- GetStatus, with the answer. -/
  | status (endpoint : E) (answer : Option Signature)
  | opensession (endpoint : E)
  /-- FPLogin or FPLoginCont. -/
  | login (endpoint : E)
  deriving DecidableEq

/-- What a call returns, leaves and has sent. -/
structure Outcome (E : Type) where
  ret : ℤ
  session : Session E
  wire : List (Wire E)

/-- `afp_server_has_valid_signature`. -/
def hasValidSignature (signature : Signature) : Bool := signature ≠ Vector.replicate 16 0

section

variable {E : Type} (net : Network E)

/-- The walk over the address list: the first that accepts. -/
def firstAccepting (accepts : ℕ → Bool) : ℕ → List E → Option E
  | _, [] => none
  | i, e :: next => if accepts i then some e else firstAccepting accepts (i + 1) next

/-- `loop_disconnect`. -/
def Session.loopDisconnect (s : Session E) : Session E :=
  if s.connectState = .disconnected then s
  else
    { s with
      volumes := s.volumes.map fun v => { v with dtrefnum := 0 }
      dataRead := 0
      attentionLen := 0
      fd := none
      connectState := .disconnected
      needResume := true }

/-- `afp_server_connect`, up to the look at `full`. -/
def afpServerConnect (accepts : ℕ → Bool) (errno : ℤ) (s : Session E) : ℤ × Session E :=
  let s := { s with
    dataRead := 0, attentionLen := 0, fd := none
    connectionGeneration := s.connectionGeneration + 1 }
  match firstAccepting accepts 0 s.address with
  | none => (-errno, s)
  | some e =>
      (0, { s with
        fd := some e
        exitFlag := false
        lastrequestid := if s.supportsReplayCache then s.lastrequestid else 0
        connectState := .connecting
        usedAddress := some e })

/-- `afp_server_init`, for a probe. -/
def Session.init (address : List E) : Session E where
  address := address
  usedAddress := none
  fd := none
  connectState := .disconnected
  reconnectInProgress := false
  signature := Vector.replicate 16 0
  connectionGeneration := 0
  lastrequestid := 0
  supportsReplayCache := false
  dataRead := 0
  attentionLen := 0
  exitFlag := false
  supportsReconnect := false
  needResume := false
  volumes := []

/-- `afp_server_connect` with `full` set, for a probe. -/
def afpServerConnectFull (s : Session E) : Outcome E :=
  let (ret, s) := afpServerConnect net.probeAccepts net.errno s
  match s.fd with
  | none => ⟨ret, s, []⟩
  | some e =>
      match net.status e with
      | none => ⟨-eio, s, [.status e none]⟩
      | some signature => ⟨0, { s with signature }, [.status e (some signature)]⟩

/-- `afp_server_probe_signature`: the signature, if it returns 0. -/
def afpServerProbeSignature (address : List E) : Option Signature × List (Wire E) :=
  if address.isEmpty then (none, [])
  else
    let r := afpServerConnectFull net (Session.init address)
    if r.ret = 0 ∧ hasValidSignature r.session.signature then (some r.session.signature, r.wire)
    else (none, r.wire)

/-- `afpc_dsi_opensession`. -/
def afpcDsiOpensession (s : Session E) : ℤ × List (Wire E) :=
  match s.fd with
  | none => (-eio, [])
  | some e => (net.opensession e, [.opensession e])

/-- `afp_dologin`. Nothing goes out without a method or a connection. -/
def afpDologin (s : Session E) : ℤ × List (Wire E) :=
  match net.login, s.fd with
  | none, _ => (-1, [])
  | some _, none => (-eio, [])
  | some login, some e => ((login e).2, List.replicate (login e).1 (.login e))

/-- `afp_server_login`. -/
def afpServerLogin (s : Session E) : Outcome E :=
  let (rc, wire) := afpDologin net s
  -- the result codes that do not lead to `error`
  if rc = 0 ∨ rc = kFPCallNotSupported ∨ rc = kFPMiscErr then
    if s.supportsReconnect then
      if (s.fd.map net.token).getD (-eio) ≠ 0 then ⟨1, s, wire⟩
      else ⟨0, { s with needResume := false }, wire⟩
    else ⟨0, s, wire⟩
  else ⟨1, s, wire⟩

/-- The loop over the volumes: whether one of them failed. -/
def volumesFailed : ℕ → List SessionVolume → Bool
  | _, [] => false
  | i, v :: next =>
      ((v.attached || v.mountpoint) && net.connectVolume i ≠ 0) || volumesFailed (i + 1) next

/-- The label `error` of `afp_server_reconnect`. -/
def reconnectError (s : Session E) (wire : List (Wire E)) : Outcome E :=
  ⟨1, { s.loopDisconnect with reconnectInProgress := false }, wire⟩

/-- `afp_server_reconnect`, from the new connection on. -/
def resumeSession (s : Session E) (wire : List (Wire E)) : Outcome E :=
  let (ret, s) := afpServerConnect net.sessionAccepts net.errno s
  if ret ≠ 0 then reconnectError s wire
  else
    let (ret, opened) := afpcDsiOpensession net s
    if ret ≠ 0 then reconnectError s (wire ++ opened)
    else
      let login := afpServerLogin net s
      let s := login.session
      let wire := wire ++ opened ++ login.wire
      if login.ret ≠ 0 then reconnectError s wire
      else
        let failed := volumesFailed net 0 s.volumes
        let s := { s with volumes := s.volumes.map fun v => { v with dtrefnum := 0 } }
        if failed then reconnectError s wire
        else ⟨0, { s with connectState := .connected, reconnectInProgress := false }, wire⟩

def afpServerReconnect (s : Session E) : Outcome E :=
  if s.reconnectInProgress then ⟨1, s, []⟩
  else
    let s := { s with reconnectInProgress := true }
    if !hasValidSignature s.signature then reconnectError s []
    else
      match afpServerProbeSignature net s.address with
      | (none, wire) => reconnectError s wire
      | (some peerSignature, wire) =>
          if peerSignature ≠ s.signature then reconnectError s wire
          else resumeSession net s wire

end

end NetatalkClient
