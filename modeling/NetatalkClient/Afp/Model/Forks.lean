import NetatalkClient.Common.Machine
import Mathlib.Logic.Function.Basic
/-!
# AFP: open forks across connections, as a machine

The client's side is its open-fork records (`struct afp_file_info` and the
list `open_forks` of a volume), which outlive a connection; and the
requests that threads have built with a record's fork number but not yet
handed to the socket. The server's side is the table of forks open in the
session that the present connection carries: a server numbers forks for
each session, so a new session starts with none, and may give a number
out again.

A request is built from a record and sent later, since
`afpc_dsi_send_with_reply` may reconnect in between, and since
`flush_dirty_forks_for_file` copies numbers under a lock and sends after
it. Every thread may take the next step.
-/

namespace NetatalkClient

/-- The requests that carry a fork number: FPRead and FPReadExt, FPWrite and
FPWriteExt, FPFlushFork, FPSetForkParms, FPByteRangeLock and
FPByteRangeLockExt, FPCloseFork. -/
inductive ForkCommand where
  | read
  | write
  | flushFork
  | setForkParms
  | byteRangeLock
  | closeFork
  deriving DecidableEq, Repr

/-- A request built from the record `fork`, with the number found there. -/
structure ForkRequest where
  command : ForkCommand
  fork : ℕ
  forkid : ℕ
  deriving DecidableEq, Repr

/-- The life of a record. -/
inductive ForkPhase where
  | opened
  /-- FPCloseFork has been sent for it; the record is still listed. -/
  | closing
  /-- Off the list and freed. -/
  | dropped
  deriving DecidableEq, Repr

/-- All records ever made, the requests built and not sent, and the
server's table for the present session. -/
structure Forks where
  connectionGeneration : ℕ
  connected : Bool
  made : ℕ
  forkid : ℕ → ℕ
  phase : ℕ → ForkPhase
  built : List ForkRequest
  serverForks : List ℕ

inductive ForkEvent where
  /-- The server answers an FPOpenFork with this number, and the reply
  handler stores it in a new record. -/
  | openFork (forkid : ℕ)
  | build (command : ForkCommand) (fork : ℕ)
  | send (request : ForkRequest)
  /-- `afpc_dsi_send_with_reply` returns an error before it sends. -/
  | abandon (request : ForkRequest)
  /-- `remove_opened_fork`, and the record is freed. -/
  | drop (fork : ℕ)
  | lose
  /-- A reconnect has a new connection up, and with it a new session. -/
  | establish
  deriving DecidableEq, Repr

namespace Forks

def init : Forks where
  connectionGeneration := 1
  connected := true
  made := 0
  forkid := fun _ => 0
  phase := fun _ => .dropped
  built := []
  serverForks := []

def setPhase (s : Forks) (fork : ℕ) (phase : ForkPhase) : Forks :=
  { s with phase := Function.update s.phase fork phase }

/-- One step; `none` if the event is not possible in `s`. -/
def step (s : Forks) : ForkEvent → Option Forks
  | .openFork forkid =>
      -- the server gives out a number that is not open in this session
      if s.connected ∧ forkid ∉ s.serverForks then
        some { s with
          made := s.made + 1
          forkid := Function.update s.forkid s.made forkid
          phase := Function.update s.phase s.made .opened
          serverForks := forkid :: s.serverForks }
      else none
  | .build command fork =>
      if fork < s.made ∧ s.phase fork ≠ .dropped then
        some { s with built := ⟨command, fork, s.forkid fork⟩ :: s.built }
      else none
  | .send request =>
      if s.connected ∧ request ∈ s.built then
        let s := { s with built := s.built.erase request }
        if request.command = .closeFork then
          some { s.setPhase request.fork
              (if s.phase request.fork = .opened then .closing else s.phase request.fork) with
            serverForks := s.serverForks.erase request.forkid }
        else some s
      else none
  | .abandon request =>
      if request ∈ s.built then some { s with built := s.built.erase request } else none
  | .drop fork =>
      if fork < s.made ∧ s.phase fork ≠ .dropped then some (s.setPhase fork .dropped) else none
  | .lose => some { s with connected := false }
  | .establish =>
      some { s with
        connectionGeneration := s.connectionGeneration + 1
        connected := true
        serverForks := [] }

end Forks

end NetatalkClient
