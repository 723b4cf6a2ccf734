import NetatalkClient.Common.Octets
import NetatalkClient.Common.Machine
/-!
# The daemon's side of one IPC connection

`process_command` collects one framed request from the descriptor, a
thread handles it (`process_command_thread`), and `finish_response`
either closes the connection or puts the descriptor back for the next
request. The file data of a WRITE is not part of the framed request: the
handler reads it from the descriptor itself.

Fields have the sizes and offsets of the C structures on a 64-bit
little-endian machine.
-/

namespace NetatalkClient

open Octets

/-! ## Frames -/

/-- The commands of the protocol. -/
inductive Command where
  | attach | detach | status | exit | connect | getvolid | readdir | getvols | stat | open
  | read | close | serverinfo | getMountpoint | write | creat | chmod | rename | unlink
  | truncate | mkdir | rmdir | statfs | utime | disconnect | changepw | getxattr | setxattr
  | listxattr | removexattr | getfinderinfo | setfinderinfo | removefinderinfo
  | getresourcefork | setresourcefork | removeresourcefork | truncateresourcefork | hello
  | desktopGetComment | desktopGetIconInfo | desktopGetIcon | desktopGetAppl
  | desktopSetComment
  deriving DecidableEq, Repr

/-- The command with a given code, `AFPSL_IPC_COMMAND_...`. -/
def Command.ofCode : ℕ → Option Command
  | 2 => some .attach
  | 3 => some .detach
  | 4 => some .status
  | 12 => some .exit
  | 14 => some .connect
  | 16 => some .getvolid
  | 19 => some .readdir
  | 20 => some .getvols
  | 21 => some .stat
  | 22 => some .open
  | 23 => some .read
  | 24 => some .close
  | 25 => some .serverinfo
  | 26 => some .getMountpoint
  | 27 => some .write
  | 28 => some .creat
  | 29 => some .chmod
  | 30 => some .rename
  | 31 => some .unlink
  | 32 => some .truncate
  | 33 => some .mkdir
  | 34 => some .rmdir
  | 35 => some .statfs
  | 36 => some .utime
  | 37 => some .disconnect
  | 38 => some .changepw
  | 39 => some .getxattr
  | 40 => some .setxattr
  | 41 => some .listxattr
  | 42 => some .removexattr
  | 43 => some .getfinderinfo
  | 44 => some .setfinderinfo
  | 45 => some .removefinderinfo
  | 46 => some .getresourcefork
  | 47 => some .setresourcefork
  | 48 => some .removeresourcefork
  | 49 => some .truncateresourcefork
  | 50 => some .hello
  | 51 => some .desktopGetComment
  | 52 => some .desktopGetIconInfo
  | 53 => some .desktopGetIcon
  | 54 => some .desktopGetAppl
  | 55 => some .desktopSetComment
  | _ => none

/-- `sizeof(struct afpsl_ipc_request_header)`. -/
def ipcHeaderSize : ℕ := 12

/-- `sizeof(struct afpsl_ipc_hello_request)`. -/
def ipcHelloSize : ℕ := 24

/-- `sizeof(struct afpsl_ipc_write_request)`. -/
def ipcWriteSize : ℕ := 48

/-- `AFPSL_IPC_MAX_REQUEST`. -/
def afpslIpcMaxRequest : ℕ := 2 * 65536 + 4096

/-- `AFPSL_IPC_PROTOCOL_MAGIC`. -/
def afpslIpcProtocolMagic : ℕ := 0x41465053

/-- `AFPSL_IPC_PROTOCOL_MAJOR`. -/
def afpslIpcProtocolMajor : ℕ := 2

namespace Packet

variable (p : Octets)

/-- `header.command`. -/
def command : Option Command := Command.ofCode (p.byte 0)

/-- `header.len`. -/
def len : ℕ := p.le32 4

/-- `header.close`. -/
def close : ℕ := p.le32 8

/-- `magic` and `major` of a HELLO. -/
def magic : ℕ := p.le32 12

@[inherit_doc magic]
def major : ℕ := p.le16 16

/-- `volumeid` of a WRITE. -/
def volumeid : ℕ := p.le64 16

/-- `size` of a WRITE: how much file data follows the request. -/
def size : ℕ := p.le32 40

end Packet

/-! ## The connection -/

/-- What the daemon is doing with a connection: waiting for octets of a
request, handling one, or finished with it. -/
inductive IpcPhase where
  | reading
  | processing
  | closed
  deriving DecidableEq, Repr

/-- `struct daemon_client`. -/
structure DaemonClient where
  /-- What the reads of the descriptor will find. -/
  fd : Source
  /-- `incoming_header`, as far as it has come. -/
  incomingHeader : Octets
  /-- `complete_packet`, as far as it has come; `none` is the null pointer. -/
  completePacket : Option Octets
  /-- `ipc_ready`: a HELLO has been accepted. -/
  ipcReady : Bool
  phase : IpcPhase
  /-- The packets handed to `process_command_thread` so far. -/
  served : List Octets
  deriving DecidableEq, Repr

namespace DaemonClient

/-- A connection just accepted. -/
def accepted (fd : Source) : DaemonClient :=
  { fd := fd, incomingHeader := [], completePacket := none, ipcReady := false,
    phase := .reading, served := [] }

/-- `reset_client_request`. -/
def reset (c : DaemonClient) : DaemonClient :=
  { c with completePacket := none, incomingHeader := [] }

/-- `close_client_connection`. -/
def closeClientConnection (c : DaemonClient) : DaemonClient :=
  { c.reset with phase := .closed }

/-- `continue_client_connection`. -/
def continueClientConnection (c : DaemonClient) : DaemonClient :=
  { c.reset with phase := .reading }

/-- `finish_response`, after an answer that was sent or not. -/
def finishResponse (c : DaemonClient) (sent closeRequested : Bool) : DaemonClient :=
  if !sent then c.closeClientConnection
  else if closeRequested then c.closeClientConnection
  else c.continueClientConnection

end DaemonClient

/-! ## Collecting a request -/

/-- The second half of `process_command`: the rest of the packet. -/
def readBody (again : Bool) (c : DaemonClient) (p : Octets) : ℤ × DaemonClient :=
  if p.length < Packet.len p then
    match Source.read (Packet.len p - p.length) c.fd with
    | (none, fd) => (if again then 2 else -1, { c with fd := fd, completePacket := some p })
    | (some [], fd) => (-1, { c with fd := fd, completePacket := some p })
    | (some (o :: os), fd) =>
        let c' := { c with fd := fd, completePacket := some (p ++ o :: os) }
        if (p ++ o :: os).length < Packet.len p then (2, c') else (0, c')
  else (0, { c with completePacket := some p })

/-- `process_command`. A read that fails with EINTR or EAGAIN is `again`;
`malloc` is whether there is memory for the packet. -/
def processCommand (again malloc : Bool) (c : DaemonClient) : ℤ × DaemonClient :=
  match c.completePacket with
  | some p => readBody again c p
  | none =>
    match Source.read (ipcHeaderSize - c.incomingHeader.length) c.fd with
    | (none, fd) => (if again then 2 else -1, { c with fd := fd })
    | (some [], fd) => (-1, { c with fd := fd })
    | (some (o :: os), fd) =>
        let h := c.incomingHeader ++ o :: os
        let c' := { c with fd := fd, incomingHeader := h }
        if h.length < ipcHeaderSize then (2, c')
        else if Packet.len h < ipcHeaderSize ∨ afpslIpcMaxRequest < Packet.len h then (-1, c')
        else if !malloc then (-1, c')
        else readBody again c' h

/-! ## Handling a request -/

/-- How a handler comes out: it answers through `finish_response`, or the
connection is closed, by the handler or since it returned a code other
than 0. -/
inductive HandlerEnd where
  | finished (close : Bool)
  | closed
  deriving DecidableEq, Repr

/-- What the daemon finds around it while it handles one request. -/
structure Surroundings where
  /-- `afp_volume_find_by_pointer_hold`, with what
  `volume_server_is_connected` says of the volume found. -/
  volume : ℕ → Option Bool
  malloc : ℕ → Bool
  /-- Whether `send_command` gets the answer out. -/
  sent : Bool
  /-- The handlers that touch the descriptor through `finish_response`
  only, each with its packet. -/
  handler : Command → Octets → HandlerEnd

/-- The loop of `process_write` that reads the file data; `false` is its
error exit. -/
def readPayload (remaining : ℕ) (src : Source) : Bool × Source :=
  match remaining with
  | 0 => (true, src)
  | n + 1 =>
    match Source.read (n + 1) src with
    | (none, src') => (false, src')
    | (some [], src') => (false, src')
    | (some (_ :: os), src') => readPayload (n - os.length) src'
termination_by remaining

/-- What `process_write` does to the descriptor. The count of what
remains is an `int`, so a size of 2^31 or more is negative there and the
loop is not entered; the result of the write is left out, since the
answer goes out in either case. -/
def processWrite (env : Surroundings) (p : Octets) (fd : Source) : Source :=
  if p.length < ipcWriteSize then fd
  else
    match env.volume (Packet.volumeid p) with
    | none => fd
    | some false => fd
    | some true =>
      if !env.malloc (Packet.size p) then fd
      else if Packet.size p < 2147483648 then (readPayload (Packet.size p) fd).2
      else fd

/-- `process_hello`. -/
def processHello (env : Surroundings) (p : Octets) (c : DaemonClient) : DaemonClient :=
  if p.length ≠ ipcHelloSize then c.closeClientConnection
  else
    let compatible := Packet.magic p == afpslIpcProtocolMagic &&
      Packet.major p == afpslIpcProtocolMajor
    { c with ipcReady := compatible }.finishResponse env.sent !compatible

/-- `process_command_thread`. A handler that returns anything but 0 has
its connection closed, as has a command that is not known. -/
def processCommandThread (env : Surroundings) (p : Octets) (c : DaemonClient) : DaemonClient :=
  if !c.ipcReady && Packet.command p != some .hello then c.closeClientConnection
  else
    match Packet.command p with
    | none => c.closeClientConnection
    | some .getMountpoint => c.closeClientConnection
    | some .hello => processHello env p c
    | some .write =>
        { c with fd := processWrite env p c.fd }.finishResponse env.sent (Packet.close p != 0)
    | some cmd =>
      match env.handler cmd p with
      | .finished close => c.finishResponse env.sent close
      | .closed => c.closeClientConnection

/-! ## The connection as a machine -/

/-- What happens on a connection: the descriptor is ready and
`process_command` is called, or the thread handles the packet. -/
inductive IpcEvent where
  | ready (again malloc : Bool)
  | handled (env : Surroundings)

/-- One event of a connection. A negative result of `process_command`
closes the connection, 0 starts the thread, 2 waits for more. -/
def ipcStep (c : DaemonClient) : IpcEvent → Option DaemonClient
  | .ready again malloc =>
    match c.phase with
    | .reading =>
        let (ret, c') := processCommand again malloc c
        if ret < 0 then some c'.closeClientConnection
        else if ret = 0 then
          some { c' with phase := .processing, served := c'.served ++ c'.completePacket.toList }
        else some c'
    | _ => none
  | .handled env =>
    match c.phase, c.completePacket with
    | .processing, some p => some (processCommandThread env p c)
    | _, _ => none

end NetatalkClient
