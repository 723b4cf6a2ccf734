import NetatalkClient.Common.Octets
import Mathlib.Data.List.Basic
/-!
# `forklist.c`: the forks that are open

A volume has a list of its open forks. Before a read through one of them,
what was written through the others is flushed: of each fork of the same
file that is marked dirty. The allocations of `flush_dirty_forks_for_file`
are taken to succeed.
-/

namespace NetatalkClient

/-- The part of `struct afp_file_info` that `forklist.c` reads, with its
address. -/
structure OpenFork where
  address : ℕ
  forkid : ℕ
  did : ℕ
  basename : Octets
  resource : ℕ
  writable : Bool
  dirty : Bool
  deriving DecidableEq, Repr

namespace OpenFork

def addOpenedFork (forks : List OpenFork) (fp : OpenFork) : List OpenFork := fp :: forks

def removeOpenedFork (forks : List OpenFork) (fp : OpenFork) : List OpenFork :=
  forks.eraseP fun p => p.address = fp.address

/-- Two forks are of the same kind, and of the same file. -/
def sameFile (p fp : OpenFork) : Bool :=
  p.resource = fp.resource && p.did = fp.did && p.basename = fp.basename

/-- What is to be flushed before a read through `fp`. -/
def needsFlush (fp p : OpenFork) : Bool :=
  p.address ≠ fp.address && p.writable && p.dirty && p.sameFile fp

/-- The first entry for a record is dirty again. -/
def markDirty (record : OpenFork) : List OpenFork → List OpenFork
  | [] => []
  | p :: forks =>
      if p.forkid = record.forkid && p.sameFile record then { p with dirty := true } :: forks
      else p :: markDirty record forks

/-- The flushes of `flush_dirty_forks_for_file`: a fork whose flush fails is
dirty again. -/
def flushRecords (flushfork : ℕ → ℤ) : List OpenFork → List OpenFork → List OpenFork
  | [], forks => forks
  | record :: records, forks =>
      if flushfork record.forkid ≠ 0 then flushRecords flushfork records (markDirty record forks)
      else flushRecords flushfork records forks

/-- `flush_dirty_forks_for_file`: the forks that it flushes, and the list
after it. `flushfork` is the result of each flush. -/
def flushDirtyForksForFile (flushfork : ℕ → ℤ) (fp : OpenFork) (forks : List OpenFork) :
    List ℕ × List OpenFork :=
  let records := forks.filter fp.needsFlush
  let cleaned := forks.map fun p => if fp.needsFlush p then { p with dirty := false } else p
  (records.map OpenFork.forkid, flushRecords flushfork records cleaned)

end OpenFork

end NetatalkClient
