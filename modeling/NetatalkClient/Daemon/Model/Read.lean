import NetatalkClient.Daemon.Model.Metadata
import NetatalkClient.Daemon.Model.Readdir
/-!
# Reads through the daemon

`afp_sl_read` asks the daemon for a part of an open file. `process_read`
reads it with `ml_read` into the response and sends what was read, and no
more. The client reads the head of the response, then the rest of it, whose
length the head gives.

As for metadata, `exchange` makes the connection and sends the request; it
gives what the client's waits will find, or the error that ends the call.
-/

namespace NetatalkClient

open Octets

/-- `sizeof(struct afpsl_ipc_read_request)`. -/
def ipcReadRequestSize : ℕ := 48

/-- `sizeof(struct afpsl_ipc_read_response)`. -/
def ipcReadResponseSize : ℕ := 16

/-- The results that `process_read` sends, `AFPSL_IPC_RESULT_...`. -/
inductive ReadResult where
  | ok | error | notconnected | notattached
  deriving DecidableEq, Repr

def ReadResult.code : ReadResult → ℕ
  | ok => 0
  | error => 1
  | notconnected => 5
  | notattached => 6

/-! ## The request -/

/-- `struct afpsl_ipc_read_request` as the client fills it in. The octets
between its members are not set, and nothing reads them. -/
def readRequest (volid fileid start length resource : ℕ) : Octets :=
  [23, 0, 0, 0] ++ (le32Octets ipcReadRequestSize ++ (le32Octets 0 ++ (le32Octets 0 ++
    (le64Octets volid ++ (le32Octets fileid ++ (le32Octets 0 ++ (le64Octets start ++
      (le32Octets length ++ le32Octets resource))))))))

namespace ReadPacket

variable (p : Octets)

def volumeid : ℕ := p.le64 16
def fileid : ℕ := p.le32 24
def start : ℕ := p.le64 32
def length : ℕ := p.le32 40

end ReadPacket

/-! ## The daemon -/

/-- `struct afpsl_ipc_read_response`, with what was read behind it. -/
def readResponse (result : ReadResult) (eof : ℕ) (data : Octets) : Octets :=
  [UInt8.ofNat result.code, 0, 0, 0] ++ (le32Octets (ipcReadResponseSize + data.length) ++
    (le32Octets data.length ++ (le32Octets eof ++ data)))

/-- What `process_read` consults: the volumes and whether they are connected,
the handles of open files, and `ml_read`, with the octets it has put into the
buffer and `eof`. -/
structure ReadDaemon (σ φ : Type) where
  connected : ℕ → Option Bool
  getFileHandle : ℕ → StateM σ (Option φ)
  mlRead : φ → ℕ → ℤ → StateM σ (ℤ × Octets × ℕ)

/-- `process_read`: the content of its response. -/
def processRead {σ φ : Type} (daemon : ReadDaemon σ φ) (p : Octets) : StateM σ Octets := do
  if p.length < ipcReadRequestSize then return readResponse .error 0 []
  match daemon.connected (ReadPacket.volumeid p) with
  | none => return readResponse .notattached 0 []
  | some false => return readResponse .notconnected 0 []
  | some true =>
      match ← daemon.getFileHandle (ReadPacket.fileid p) with
      | none => return readResponse .error 0 []
      | some fp =>
          let (ret, data, eof) ← daemon.mlRead fp (ReadPacket.length p) (offT (ReadPacket.start p))
          if 0 < ret then return readResponse .ok eof (data.window ret.toNat)
          if ret < 0 then return readResponse .error eof []
          return readResponse .ok eof []

/-! ## The client -/

/-- `read_response_tail`: what is behind the first `prefixLen` octets of a
response, and the length of the content in it. -/
def readResponseTail (totalLen prefixLen : ℕ) (ws : List Wakeup) : Option (Octets × ℕ) :=
  if totalLen < prefixLen + ipcLogFooterSize then none
  else
    match readBytesWithTimeout (totalLen - prefixLen) ws with
    | none => none
    | some (tail, _) =>
        match responseContentLength tail with
        | none => none
        | some contentLen =>
            if (dispatchResponseLogs tail).1 < 0 then none else some (tail, contentLen)

/-- What `afp_sl_read` stores when it returns 0. -/
structure SlRead where
  received : ℕ
  eof : ℕ
  data : Octets
  deriving DecidableEq, Repr

/-- The part of `afp_sl_read` that reads the answer. -/
def readAnswered (length : ℕ) (ws : List Wakeup) : Except ℤ SlRead :=
  match readBytesWithTimeout ipcReadResponseSize ws with
  | none => .error (-econnreset)
  | some (response, rest) =>
      match readResponseTail (Response.len response) ipcReadResponseSize rest with
      | none => .error (-eproto)
      | some (tail, payloadSize) =>
          if response.byte 0 ≠ ReadResult.ok.code then
            let ret := serverResultToErrno (signedChar (response.byte 0))
            -- three results other than the first count as success
            if ret = 0 then .ok ⟨0, 0, []⟩ else .error ret
          else if payloadSize ≠ response.le32 8 ∨ length < payloadSize then .error (-eproto)
          else .ok ⟨response.le32 8, response.le32 12, tail.take payloadSize⟩

/-- `afp_sl_read`: what it returns if not 0, or what it stores. -/
def afpSlRead {σ : Type} (exchange : Octets → StateM σ (Except ℤ (List Wakeup)))
    (volid fileid resource start length : ℕ) : StateM σ (Except ℤ SlRead) := do
  match ← exchange (readRequest volid fileid start length resource) with
  | .error ret => return .error ret
  | .ok ws => return readAnswered length ws

end NetatalkClient
