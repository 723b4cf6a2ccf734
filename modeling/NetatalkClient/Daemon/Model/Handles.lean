import NetatalkClient.Common.Machine
import Mathlib.Logic.Function.Basic
/-!
# The daemon's file handles

The table `file_handle_table` maps the handles of all clients to open-fork
records. The requests of all clients run one at a time, under
`server_op_mutex`, and none of the handlers looks at which client asked,
so a run is a list of requests. A record also stands in the list
`open_forks` of the volume it was opened on, which is what a detach walks.

A record remembers, beside its place in memory, the volume and the handle
of the OPEN that made it, and whether it has been closed or its volume
detached since: no handler reads these, the results are about them.
-/

namespace NetatalkClient

open Function

/-- `MAX_OPEN_FILES`. -/
def maxOpenFiles : ℕ := 1024

/-- A `struct afp_file_info` made by an OPEN. -/
structure Fork where
  volume : ℕ
  handle : ℕ
  /-- Closed, or its volume detached. -/
  ended : Bool
  /-- Given back to the allocator. -/
  freed : Bool
  deriving DecidableEq, Repr

/-- All records ever made, the table, and of each volume its list and
whether it is attached. -/
structure Handles where
  made : ℕ
  fork : ℕ → Fork
  table : ℕ → Option ℕ
  openForks : ℕ → List ℕ
  attached : ℕ → Bool

/-- What the checks at the head of a handler find: a packet of the wrong
size, no volume with that id, no connection to its server, or the volume. -/
inductive Lookup where
  | malformed
  | notFound
  | notConnected
  | held
  deriving DecidableEq, Repr

/-- How `ml_open` comes out. It may fail after the record was listed: the
record is then freed and stays listed. A metadata file has a record that
is not listed. -/
inductive OpenEnd where
  | failed (ret : ℤ)
  | truncateFailed (ret : ℤ)
  | opened (listed : Bool)
  deriving DecidableEq, Repr

/-- A request, with what its handler meets on the way: whether there is
memory, whether the file data of a WRITE came, and what the AFP operation
returns. -/
inductive FileRequest where
  | openFile (volume : ℕ) (lookup : Lookup) (outcome : OpenEnd)
  | read (volume fileid : ℕ) (lookup : Lookup) (memory : Bool) (ret : ℤ)
  | write (volume fileid : ℕ) (lookup : Lookup) (memory data : Bool) (ret : ℤ)
  | close (volume fileid : ℕ) (lookup : Lookup) (ret : ℤ)
  | detach (volume : ℕ) (found : Bool)
  deriving DecidableEq, Repr

/-- What comes of a request: the result that is answered, or none if the
connection is closed instead; the handle that an OPEN returns; and the
records on which an AFP operation was done. -/
structure FileReply where
  result : Option ℤ
  fileid : ℕ
  touched : List ℕ
  deriving DecidableEq, Repr

/-! ## Results -/

def afpslIpcResultOk : ℤ := 0
def afpslIpcResultError : ℤ := 1
def afpslIpcResultEnoent : ℤ := 4
def afpslIpcResultNotconnected : ℤ := 5
def afpslIpcResultNotattached : ℤ := 6
def afpslIpcResultAccess : ℤ := 23

/-- The result of a request that did not get past its checks. -/
def Lookup.result : Lookup → ℤ
  | .malformed => afpslIpcResultError
  | .notFound => afpslIpcResultNotattached
  | .notConnected => afpslIpcResultNotconnected
  | .held => afpslIpcResultOk

/-- The result of an OPEN for which `ml_open` returned `ret`. -/
def openResult (ret : ℤ) : ℤ :=
  if ret = -2 then afpslIpcResultEnoent
  else if ret = -13 then afpslIpcResultAccess
  else afpslIpcResultError

/-- A request answered without an operation. -/
def refused (result : ℤ) : FileReply := { result := some result, fileid := 0, touched := [] }

namespace Handles

def init (attached : ℕ → Bool) : Handles where
  made := 0
  fork := fun _ => ⟨0, 0, true, true⟩
  table := fun _ => none
  openForks := fun _ => []
  attached := attached

variable (s : Handles)

/-! ## The table -/

/-- `register_file_handle`: the first free handle, or 0. -/
def registerFileHandle : ℕ :=
  ((List.range' 1 (maxOpenFiles - 1)).find? fun i => (s.table i).isNone).getD 0

/-- `get_file_handle`. A `fileid` that is negative as an `int` is above
the table here. -/
def getFileHandle (id : ℕ) : Option ℕ :=
  if id = 0 ∨ maxOpenFiles ≤ id then none else s.table id

/-- `release_file_handle`. -/
def releaseFileHandle (id : ℕ) : Handles :=
  if id = 0 ∨ maxOpenFiles ≤ id then s
  else { s with table := update s.table id none }

/-! ## Records -/

/-- A new record for `volume`, listed there or not. -/
def make (f : Fork) (listed : Bool) : Handles :=
  { s with
    made := s.made + 1
    fork := update s.fork s.made f
    openForks := if listed then update s.openForks f.volume
      (s.made :: s.openForks f.volume) else s.openForks }

/-- `ml_close` on `volume`, and the record is freed: `remove_opened_fork`
looks for it in the list of that volume only. -/
def closeFork (volume f : ℕ) : Handles :=
  { s with
    fork := update s.fork f { s.fork f with ended := true, freed := true }
    openForks := update s.openForks volume ((s.openForks volume).erase f) }

/-- `afp_detach_volume`: `remove_fork_list` closes and frees what is
listed. -/
def afpDetachVolume (volume : ℕ) : Handles :=
  { s with
    fork := fun f =>
      { s.fork f with
        ended := (s.fork f).ended || (s.fork f).volume == volume
        freed := (s.fork f).freed || (s.openForks volume).contains f }
    openForks := update s.openForks volume []
    attached := update s.attached volume false }

/-! ## The handlers -/

/-- `process_open`. -/
def processOpen (volume : ℕ) (lookup : Lookup) (outcome : OpenEnd) : Handles × FileReply :=
  if lookup ≠ .held then (s, refused lookup.result)
  else
    match outcome with
    | .failed ret => (s, refused (openResult ret))
    | .truncateFailed ret => (s.make ⟨volume, 0, true, true⟩ true, refused (openResult ret))
    | .opened listed =>
        let handle := s.registerFileHandle
        let s' := s.make ⟨volume, handle, false, false⟩ listed
        if handle = 0 then (s'.closeFork volume s.made, refused afpslIpcResultError)
        else ({ s' with table := update s'.table handle (some s.made) },
          { result := some afpslIpcResultOk, fileid := handle, touched := [] })

/-- `process_read`. Every way through it allocates its response first, and
without memory returns an error, which closes the connection. -/
def processRead (fileid : ℕ) (lookup : Lookup) (memory : Bool) (ret : ℤ) : FileReply :=
  if !memory then { result := none, fileid := 0, touched := [] }
  else if lookup ≠ .held then refused lookup.result
  else
    match s.getFileHandle fileid with
    | none => refused afpslIpcResultError
    | some f =>
        { result := some (if ret < 0 then afpslIpcResultError else afpslIpcResultOk),
          fileid := 0, touched := [f] }

/-- `process_write`. -/
def processWrite (fileid : ℕ) (lookup : Lookup) (memory data : Bool) (ret : ℤ) : FileReply :=
  if lookup ≠ .held then refused lookup.result
  else if !memory then refused afpslIpcResultError
  else if !data then refused afpslIpcResultError
  else
    match s.getFileHandle fileid with
    | none => refused afpslIpcResultError
    | some f =>
        { result := some (if ret < 0 then afpslIpcResultError else afpslIpcResultOk),
          fileid := 0, touched := [f] }

/-- `process_close`. -/
def processClose (volume fileid : ℕ) (lookup : Lookup) (ret : ℤ) : Handles × FileReply :=
  if lookup ≠ .held then (s, refused lookup.result)
  else
    match s.getFileHandle fileid with
    | none => (s, refused afpslIpcResultError)
    | some f =>
        ((s.closeFork volume f).releaseFileHandle fileid,
          { result := some ret, fileid := 0, touched := [f] })

/-- `process_detach`. -/
def processDetach (volume : ℕ) (found : Bool) : Handles × FileReply :=
  if !found then (s, refused afpslIpcResultError)
  else if !s.attached volume then (s, refused afpslIpcResultError)
  else (s.afpDetachVolume volume,
    { result := some afpslIpcResultOk, fileid := 0, touched := s.openForks volume })

/-- One request. -/
def handle : FileRequest → Handles × FileReply
  | .openFile volume lookup outcome => s.processOpen volume lookup outcome
  | .read _ fileid lookup memory ret => (s, s.processRead fileid lookup memory ret)
  | .write _ fileid lookup memory data ret => (s, s.processWrite fileid lookup memory data ret)
  | .close volume fileid lookup ret => s.processClose volume fileid lookup ret
  | .detach volume found => s.processDetach volume found

/-- The daemon as a machine: every request is possible at any time. -/
def step (e : FileRequest) : Option Handles := some (s.handle e).1

end Handles

end NetatalkClient
