import Mathlib.Data.List.TakeWhile
import NetatalkClient.Common.Codes
import NetatalkClient.Common.LittleEndian
/-!
# A response of the daemon, from the daemon to the client

While a command runs its messages are packed into a buffer of the
connection (`daemon_log_for_client`). `send_command` puts the response
content, the packed messages and a footer into one frame, whose length it
writes into the response header. The client reads one frame
(`afp_sl_read_framed_response`), finds the end of the content by the
footer and hands the messages on (`afp_sl_dispatch_response_logs`).

Fields have the sizes and offsets of the C structures on a 64-bit
little-endian machine.
-/

namespace NetatalkClient

open Octets

/-- `sizeof(struct afpsl_ipc_response_header)`. -/
def ipcResponseHeaderSize : ℕ := 8

/-- `sizeof(struct afpsl_ipc_log_record)`. -/
def ipcLogRecordSize : ℕ := 8

/-- `sizeof(struct afpsl_ipc_log_footer)`. -/
def ipcLogFooterSize : ℕ := 8

/-- `AFPSL_IPC_LOG_BUFFER_SIZE`. -/
def afpslIpcLogBufferSize : ℕ := 4096

/-- `AFPSL_IPC_LOG_MAGIC`. -/
def afpslIpcLogMagic : ℕ := 0x4146504c

/-- `LOG_ERR`. -/
def logErr : BitVec 32 := 3

namespace Response

variable (r : Octets)

/-- `header.len`. -/
def len : ℕ := r.le32 4

end Response

/-! ## Messages -/

/-- A message for the client: its level, and its text as a C string has
it. -/
structure LogMessage where
  level : BitVec 32
  text : Octets
  noNul : 0 ∉ text
  deriving DecidableEq

/-- A message whose text is in a buffer with a null octet behind it. -/
def LogMessage.ofBuffer (level : BitVec 32) (buf : Octets) : LogMessage where
  level := level
  text := buf.takeWhile (· ≠ 0)
  noNul h := by simpa using List.mem_takeWhile_imp h

/-- The `afpsl_ipc_log_record` before a message text of `len` octets. -/
def logRecord (level : BitVec 32) (len : ℕ) : Octets :=
  le32Octets level.toNat ++ le32Octets len

/-- `daemon_log_for_client` for a client whose `outgoing_string` holds
`buf`. -/
def daemonLogForClient (buf : Octets) (m : LogMessage) : Octets :=
  let buf := if afpslIpcLogBufferSize ≤ buf.length then [] else buf
  let available := afpslIpcLogBufferSize - buf.length
  let messageLen := min m.text.length uintMax
  if ipcLogRecordSize < available then
    let messageLen := min messageLen (available - ipcLogRecordSize)
    buf ++ (logRecord m.level messageLen ++ m.text.take messageLen)
  else buf

/-- The `outgoing_string` after the messages of one command:
`process_command_thread` empties it first. -/
def outgoingString (ms : List LogMessage) : Octets := ms.foldl daemonLogForClient []

/-! ## Sending -/

/-- The `afpsl_ipc_log_footer` behind `logLen` octets of messages. -/
def logFooter (logLen : ℕ) : Octets := le32Octets afpslIpcLogMagic ++ le32Octets logLen

/-- The frame `send_command` makes of the packed messages and the content,
with the length in its header. -/
def frameResponse (malloc : Bool) (log data : Octets) : Option Octets :=
  if data.length < ipcResponseHeaderSize then none
  else if afpslIpcLogBufferSize < log.length ∨ uintMax < log.length ∨
      uintMax - ipcLogFooterSize < log.length ∨
      uintMax - log.length - ipcLogFooterSize < data.length then none
  else if !malloc then none
  else
    let response := data ++ (log ++ logFooter log.length)
    some (response.overwrite 4 (le32Octets response.length))

/-- What a `write` of the frame comes to. -/
inductive WriteCall where
  | wrote (n : ℕ)
  | interrupted
  | failed
  deriving DecidableEq, Repr

/-- The loop of `send_command`, once `total` octets are out; with the
octets the client will find. -/
def writeLoop (response : Octets) (total : ℕ) : List WriteCall → ℤ × Octets
  | [] => (if total < response.length then -1 else 0, response.take total)
  | w :: ws =>
    if total < response.length then
      match w with
      | .interrupted => writeLoop response total ws
      | .failed => (-1, response.take total)
      | .wrote 0 => (-1, response.take total)
      | .wrote (n + 1) => writeLoop response (min (total + (n + 1)) response.length) ws
    else (0, response.take total)

/-- `send_command`. -/
def sendCommand (malloc : Bool) (log data : Octets) (ws : List WriteCall) : ℤ × Octets :=
  match frameResponse malloc log data with
  | none => (-1, [])
  | some response => writeLoop response 0 ws

/-! ## Reading a frame -/

/-- What one round of the client's wait finds: nothing in time, a `select`
or a `read` that failed (interrupted, or for another reason), or octets to
read. An empty run is the end of the stream. -/
inductive Wakeup where
  | timeout
  | selectFailed (interrupted : Bool)
  | readFailed (interrupted : Bool)
  | ready (run : Octets)
  deriving DecidableEq, Repr

/-- What `afp_sl_read_framed_response` returns: its code, what it has put
at the front of the buffer, `response_len`, and what the descriptor will
find next. -/
structure FramedResponse where
  ret : ℤ
  data : Octets
  responseLen : ℕ
  rest : List Wakeup
  deriving DecidableEq, Repr

/-- How a frame stands once more of it has come. -/
inductive FrameState where
  | refused
  | complete
  | awaited (expectedLen : ℕ)
  deriving DecidableEq, Repr

/-- The checks behind a read that has brought `data` to its present
length. -/
def frameState (capacity expectedLen : ℕ) (data : Octets) : FrameState :=
  let header := ipcResponseHeaderSize ≤ data.length ∧ expectedLen = 0
  let expectedLen' := if header then Response.len data else expectedLen
  if header ∧ expectedLen' < ipcResponseHeaderSize + ipcLogFooterSize then .refused
  else if capacity < expectedLen' then .refused
  else if data.length = expectedLen' then .complete
  else if 0 < expectedLen' ∧ expectedLen' < data.length then .refused
  else .awaited expectedLen'

/-- The octets the rounds of a wait bring. -/
def Wakeup.pending : List Wakeup → Octets
  | [] => []
  | .ready run :: ws => run ++ pending ws
  | _ :: ws => pending ws

/-- The loop of `afp_sl_read_framed_response`. A run longer than the room
that is left stays at the front with what was not read of it, and nothing
more to come is a wait that runs out. -/
def readFramedLoop (capacity expectedLen : ℕ) (data : Octets) (ws : List Wakeup) :
    FramedResponse :=
  match ws with
  | [] => ⟨-1, data, 0, []⟩
  | .timeout :: rest => ⟨-1, data, 0, rest⟩
  | .selectFailed interrupted :: rest =>
      if interrupted then readFramedLoop capacity expectedLen data rest
      else ⟨-1, data, 0, rest⟩
  | .readFailed interrupted :: rest =>
      if capacity ≤ data.length then ⟨-1, data, 0, rest⟩
      else if interrupted then readFramedLoop capacity expectedLen data rest
      else ⟨-1, data, 0, rest⟩
  | .ready run :: rest =>
      if hroom : capacity ≤ data.length then ⟨-1, data, 0, .ready run :: rest⟩
      else
        let room := capacity - data.length
        let data' := data ++ run.take room
        if run = [] then ⟨-1, data, 0, rest⟩
        else if run.length ≤ room then
          match frameState capacity expectedLen data' with
          | .refused => ⟨-1, data', 0, rest⟩
          | .complete => ⟨0, data', data'.length, rest⟩
          | .awaited expectedLen' => readFramedLoop capacity expectedLen' data' rest
        else
          match frameState capacity expectedLen data' with
          | .refused => ⟨-1, data', 0, .ready (run.drop room) :: rest⟩
          | .complete => ⟨0, data', data'.length, .ready (run.drop room) :: rest⟩
          | .awaited expectedLen' =>
              readFramedLoop capacity expectedLen' data' (.ready (run.drop room) :: rest)
termination_by ws.length + (Wakeup.pending ws).length
decreasing_by
  · simp [Wakeup.pending]
  · simp [Wakeup.pending]
  · simp [Wakeup.pending]
    omega
  · simp [Wakeup.pending]
    omega

/-- `FD_SETSIZE`. -/
def fdSetsize : ℤ := 1024

/-- `afp_sl_read_framed_response`. -/
def readFramedResponse (fd : ℤ) (capacity : ℕ) (ws : List Wakeup) : FramedResponse :=
  if fd < 0 ∨ fdSetsize ≤ fd ∨ capacity < ipcResponseHeaderSize + ipcLogFooterSize then
    ⟨-1, [], 0, ws⟩
  else readFramedLoop capacity 0 [] ws

/-! ## The messages behind the content -/

/-- `afp_sl_response_content_length`. -/
def responseContentLength (response : Octets) : Option ℕ :=
  if response.length < ipcLogFooterSize then none
  else
    let logEnd := response.length - ipcLogFooterSize
    let magic := response.le32 logEnd
    let logLen := response.le32 (logEnd + 4)
    if magic ≠ afpslIpcLogMagic ∨ afpslIpcLogBufferSize < logLen ∨ logEnd < logLen then none
    else some (logEnd - logLen)

/-- A message of the client's own about a response it cannot read. -/
def responseError (s : String) (h : 0 ∉ text s) : LogMessage := ⟨logErr, text s, h⟩

/-- The loop of `afp_sl_dispatch_response_logs` over the packed messages
that are left, with what `stateless_log_message` was given. -/
def dispatchLogs (log : Octets) : ℤ × List LogMessage :=
  if hlog : log = [] then (0, [])
  else if log.length < ipcLogRecordSize then
    (-1, [responseError "Malformed log record from afpsld" (by decide)])
  else
    let level := BitVec.ofNat 32 (log.le32 0)
    let messageLen := log.le32 4
    let rest := log.drop ipcLogRecordSize
    if afpslIpcLogBufferSize < messageLen ∨ rest.length < messageLen then
      (-1, [responseError "Malformed log message from afpsld" (by decide)])
    else
      let (ret, ms) := dispatchLogs (rest.drop messageLen)
      (ret, LogMessage.ofBuffer level (rest.take messageLen) :: ms)
termination_by log.length
decreasing_by
  have hpos := List.length_pos_iff.mpr hlog
  simp only [List.length_drop, ipcLogRecordSize]
  omega

/-- `afp_sl_dispatch_response_logs`. -/
def dispatchResponseLogs (response : Octets) : ℤ × List LogMessage :=
  match responseContentLength response with
  | none => (-1, [responseError "Response from afpsld has no valid log trailer" (by decide)])
  | some contentLen =>
    dispatchLogs ((response.take (response.length - ipcLogFooterSize)).drop contentLen)

end NetatalkClient
