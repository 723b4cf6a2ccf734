import NetatalkClient.Common.Octets
/-!
# FUSE daemon: requests as they arrive

`process_command` and `process_command_thread` of `fuse/commands.c`, for
one client. Whatever a `read` returns goes to the start of the client's
buffer, and a thread is started for it. A thread takes the first octet of
the buffer for the command; it gets to run after this read or after some
more, and the first that does answers and closes the client. What a
command does is left out: it is the command and the structure it is given.
-/

namespace NetatalkClient

inductive FuseCommand where
  | mount
  | status
  | unmount
  | suspend
  | resume
  | ping
  | exit
  deriving DecidableEq, Repr

namespace FuseCommand

def code : FuseCommand → UInt8
  | mount => 1
  | status => 4
  | unmount => 6
  | suspend => 8
  | resume => 9
  | ping => 11
  | exit => 12

/-- The `switch` of `process_command_thread`. -/
def ofCode? (b : UInt8) : Option FuseCommand :=
  [mount, status, unmount, suspend, resume, ping, exit].find? fun command => command.code = b

/-- The size of the command's request structure, with 64-bit pointers. -/
def requestSize : FuseCommand → ℕ
  | mount => 1416
  | status => 765
  | unmount | suspend | resume => 255
  | ping | exit => 0

/-- Only two commands look at `incoming_size`. -/
def checksSize : FuseCommand → Bool
  | mount | status => true
  | _ => false

end FuseCommand

/-- `AFPFSD_CLIENT_INCOMING_BUF`. -/
def afpfsdClientIncomingBuf : ℕ := 2304

/-- A command that was performed: with which structure, and how many octets
of the request had arrived. -/
structure Performed where
  command : FuseCommand
  request : Octets
  arrived : ℕ
  deriving DecidableEq, Repr

/-- `struct afpfsd_client`, and how much it has sent. -/
structure FuseClient where
  incomingString : Octets
  incomingSize : ℕ
  arrived : ℕ
  deriving DecidableEq, Repr

namespace FuseClient

/-- `fuse_add_client`. -/
def add : FuseClient := ⟨List.replicate afpfsdClientIncomingBuf 0, 0, 0⟩

/-- `process_command`, where `read` returns `chunk`. -/
def processCommand (c : FuseClient) (chunk : Octets) : FuseClient :=
  ⟨c.incomingString.overwrite 0 chunk, chunk.length, c.arrived + chunk.length⟩

/-- A client after some reads. -/
def afterReads (chunks : List Octets) : FuseClient := chunks.foldl processCommand add

/-- What `process_command_thread` performs, if the request is not refused. -/
def performed? (c : FuseClient) : Option Performed :=
  match FuseCommand.ofCode? (c.incomingString.headD 0) with
  | none => none
  | some command =>
      if command.checksSize ∧ c.incomingSize < command.requestSize + 1 then none
      else some ⟨command, (c.incomingString.drop 1).take command.requestSize, c.arrived⟩

end FuseClient

end NetatalkClient
