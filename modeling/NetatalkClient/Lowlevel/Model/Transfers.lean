import NetatalkClient.Midlevel.Model.Metadata
/-!
# The other side of `ll_read` and `ll_write`

A read and a write of a fork go to the server in chunks, and the server
answers each as it likes: with any code, and with any part of what was
asked for. What it delivers of a file are the octets at the offset it was
asked for, and the offset it gives in reply to a write is that of the end
of what it accepted.
-/

namespace NetatalkClient

open Octets

/-- Calls that all fail, and change nothing. -/
def AfpCalls.refusing (σ : Type) : AfpCalls σ where
  getDirid _ := return (-eio, 0, [])
  llGetattr _ := return (⟨-eio, by decide⟩, 0)
  llOpen _ _ _ := return (⟨-eio, by decide⟩, 0)
  llHandleLocking _ _ _ := return true
  llHandleUnlocking _ _ _ := return true
  flushDirtyForksForFile _ := return ()
  afpRead _ _ _ := return (-1, [])
  afpWrite _ _ _ := return (-1, 0)
  afpFlushfork _ := return -1
  afpClosefork _ := return -1
  afpSetforkparms _ _ := return -1
  afpGetfiledirparms _ _ := return (-1, [])
  afpSetfiledirparms _ _ _ := return -1
  afpGetextattr _ _ _ := return (-1, ⟨0, []⟩)
  afpSetextattr _ _ _ _ _ := return -1
  afpListextattr _ _ := return (-1, ⟨0, []⟩)
  afpRemoveextattr _ _ _ := return -1

/-! ## Reads -/

/-- What a server does with the chunks of a read of `file`: for each, the
code of the reply and how much it delivers at most. `lockFails` and
`unlockFails` say how the range is locked and unlocked. -/
structure ReadServer where
  file : Octets
  code : ℕ → ℤ
  deliver : ℕ → ℕ
  lockFails : Bool
  unlockFails : Bool

/-- The calls of a read. The state is the number of chunks so far. -/
def ReadServer.calls (server : ReadServer) : AfpCalls ℕ :=
  { AfpCalls.refusing ℕ with
    llHandleLocking := fun _ _ _ => return server.lockFails
    llHandleUnlocking := fun _ _ _ => return server.unlockFails
    afpRead := fun _ offset _ turn =>
      ((server.code turn, (server.file.drop offset).take (server.deliver turn)), turn + 1) }

/-! ## Writes -/

/-- A chunk of a write, as it is sent. -/
structure WriteChunk where
  offset : ℕ
  data : Octets
  deriving DecidableEq, Repr

/-- The size of the request of `afp_write`, and of that of `afp_writeext`. -/
def writeHeaderSize (avNumber : ℕ) : ℕ := if avNumber < 30 then 28 else 36

/-- `len` in `afp_write` and `afp_writeext`: what is allocated for the
packet, as an `unsigned int`. -/
def writePacketLen (avNumber reqcount : ℕ) : ℕ :=
  (writeHeaderSize avNumber + reqcount) % 0x100000000

/-- What a server does with the chunks of a write: for each, the code of
the reply and how much it accepts at most. -/
structure WriteServer where
  code : ℕ → ℤ
  accept : ℕ → ℕ
  lockFails : Bool
  unlockFails : Bool

/-- What is accepted of a chunk. -/
def WriteServer.accepted (server : WriteServer) (turn : ℕ) (chunk : WriteChunk) : ℕ :=
  min (server.accept turn) chunk.data.length

/-- The calls of a write. The state is what was sent so far. -/
def WriteServer.calls (server : WriteServer) : AfpCalls (List WriteChunk) :=
  { AfpCalls.refusing (List WriteChunk) with
    llHandleLocking := fun _ _ _ => return server.lockFails
    llHandleUnlocking := fun _ _ _ => return server.unlockFails
    afpWrite := fun _ offset data sent =>
      ((server.code sent.length,
          if server.code sent.length = 0 then
            offset + server.accepted sent.length ⟨offset, data⟩
          else 0),
        sent ++ [⟨offset, data⟩]) }

end NetatalkClient
