import NetatalkClient.Common.Machine
import NetatalkClient.Dsi.Model.Server
import Mathlib.Logic.Function.Basic
/-!
# DSI: request ids across connections, as a machine

A thread draws an id with `afpc_dsi_setup_header`, and hands the header to
`afpc_dsi_send_with_reply`, which may reconnect before it queues the
request. Headers are numbered in the order they were set up. Any thread
may take the next step: the reconnect's own messages are headers like any
other, drawn and queued while the reconnect is under way.

`epoch` counts the restarts of the id counter. It is there to be spoken
about; no step looks at it.
-/

namespace NetatalkClient

open Function

/-- Where a header is on its way through `afpc_dsi_send_with_reply`. -/
inductive HeaderAt where
  /-- Set up, not yet handed on. -/
  | drawn
  /-- Past the look at `connect_state`. -/
  | entered
  /-- The request is filled in, with this generation, but not queued. -/
  | stamped (generation : ℕ)
  | queued (generation : ℕ)
  /-- Removed, flushed, or never queued. -/
  | gone
  deriving DecidableEq, Repr

/-- How far `afp_server_reconnect` has come. -/
inductive ReconnectAt where
  /-- Begun, and the queue flushed. -/
  | begun
  /-- `afp_server_connect` has moved to the next generation. -/
  | numbered
  /-- The socket is up: opening the session and logging in. -/
  | opening
  deriving DecidableEq, Repr

/-- The id counter, the headers drawn so far and the queue. A reconnect
under way is held by the header whose sender performs it, or by nobody's
if it was asked for. -/
structure RequestIds where
  lastrequestid : ℕ
  supportsReplayCache : Bool
  connectionGeneration : ℕ
  connectState : ConnectState
  reconnect : Option (Option ℕ × ReconnectAt)
  drawn : ℕ
  requestid : ℕ → ℕ
  position : ℕ → HeaderAt
  queue : List ℕ
  epoch : ℕ
  epochOf : ℕ → ℕ

inductive RequestIdEvent where
  | setupHeader
  /-- The transport is lost. -/
  | lose
  /-- The sender finds the server connected, or connecting. -/
  | enter (k : ℕ)
  /-- It finds it disconnected, and somebody else reconnecting, or the
  server suspended; or there is no socket, or no memory. -/
  | refuse (k : ℕ)
  /-- `afp_server_reconnect` begins, in the sender of this header or on
  request. -/
  | beginReconnect (sender : Option ℕ)
  | nextGeneration
  /-- An address has accepted the connection. -/
  | establish
  | finishReconnect (success : Bool)
  /-- The server's OpenSession reply announces a replay cache. -/
  | announceReplayCache
  | stamp (k : ℕ)
  | append (k : ℕ)
  /-- The request leaves the queue, answered, timed out or not waited for. -/
  | remove (k : ℕ)
  deriving DecidableEq, Repr

namespace RequestIds

/-- A session on its first connection. -/
def init : RequestIds where
  lastrequestid := 0
  supportsReplayCache := false
  connectionGeneration := 1
  connectState := .connected
  reconnect := none
  drawn := 0
  requestid := fun _ => 0
  position := fun _ => .drawn
  queue := []
  epoch := 0
  epochOf := fun _ => 0

def move (s : RequestIds) (k : ℕ) (pos : HeaderAt) : RequestIds :=
  { s with position := update s.position k pos }

/-- The sender of `k` is in the middle of a reconnect. -/
def reconnecting (s : RequestIds) (k : ℕ) : Bool := s.reconnect.any fun p => p.1 == some k

/-- `afpc_dsi_find_request`, on the queue. -/
def find (s : RequestIds) (requestid : ℕ) : Option ℕ :=
  s.queue.find? fun k => requestid == s.requestid k

/-- One step; `none` if the event is not possible in `s`. -/
def step (s : RequestIds) : RequestIdEvent → Option RequestIds
  | .setupHeader =>
      let id := nextRequestid s.supportsReplayCache s.lastrequestid
      some { s with
        lastrequestid := id
        drawn := s.drawn + 1
        requestid := update s.requestid s.drawn id
        position := update s.position s.drawn .drawn
        epochOf := update s.epochOf s.drawn s.epoch }
  | .lose => some { s with connectState := .disconnected }
  | .enter k =>
      if k < s.drawn ∧ s.position k = .drawn ∧ ¬ s.reconnecting k ∧
          s.connectState ≠ .disconnected then
        some (s.move k .entered)
      else none
  | .refuse k =>
      if k < s.drawn ∧ (s.position k = .drawn ∨ s.position k = .entered) ∧
          ¬ s.reconnecting k then
        some (s.move k .gone)
      else none
  | .beginReconnect sender =>
      -- the mark is taken by one thread at a time; the queue is flushed
      if s.reconnect = none ∧ ∀ k ∈ sender, k < s.drawn ∧ s.position k = .drawn ∧
          s.connectState = .disconnected then
        some { s with
          reconnect := some (sender, .begun)
          position := fun k => if k ∈ s.queue then .gone else s.position k
          queue := [] }
      else none
  | .nextGeneration =>
      match s.reconnect with
      | some (sender, .begun) =>
          some { s with
            connectionGeneration := (s.connectionGeneration + 1) % 4294967296
            reconnect := some (sender, .numbered) }
      | _ => none
  | .establish =>
      match s.reconnect with
      | some (sender, .numbered) =>
          let s := { s with connectState := .connecting, reconnect := some (sender, .opening) }
          if s.supportsReplayCache then some s
          else some { s with lastrequestid := 0, epoch := s.epoch + 1 }
      | _ => none
  | .finishReconnect success =>
      match s.reconnect with
      | some (sender, pos) =>
          if success ∧ pos ≠ .opening then none
          else
            let s := { s with
              connectState := if success then .connected else .disconnected
              reconnect := none }
            some (match sender with
              | some k => s.move k (if success then .entered else .gone)
              | none => s)
      | none => none
  | .announceReplayCache => some { s with supportsReplayCache := true }
  | .stamp k =>
      if k < s.drawn ∧ s.position k = .entered then
        some (s.move k (.stamped s.connectionGeneration))
      else none
  | .append k =>
      match s.position k with
      | .stamped g =>
          if k < s.drawn then some { s.move k (.queued g) with queue := s.queue ++ [k] } else none
      | _ => none
  | .remove k =>
      if k ∈ s.queue then some { s.move k .gone with queue := s.queue.erase k } else none

end RequestIds

end NetatalkClient
