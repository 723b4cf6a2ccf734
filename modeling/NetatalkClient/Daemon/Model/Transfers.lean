import NetatalkClient.Daemon.Model.Read
import NetatalkClient.Midlevel.Model.FileReads
/-!
# READ and WRITE with the memory they use

`process_read` allocates its response for the length that the client asks
for, as an `unsigned int`. `process_write` allocates what the client
announces, and counts what it has still to read of it in an `int`. Both
sizes come from the request and are 32 bits wide.
-/

namespace NetatalkClient

open Octets ReadPacket

/-! ## READ -/

/-- The members of the daemon that `process_read` uses for the volume of the
request: `ml_read` reads with the calls `afp`. -/
structure FileDaemon (σ : Type) where
  connected : ℕ → Option Bool
  getFileHandle : ℕ → StateM σ (Option OpenedFile)
  malloc : ℕ → Bool
  afp : FileCalls σ
  volume : MetadataVolume
  icon : Octets
  host : ByteOrder

/-- What `process_read` consults in it. -/
def FileDaemon.reading {σ : Type} (daemon : FileDaemon σ) : ReadDaemon σ OpenedFile where
  connected := daemon.connected
  getFileHandle := daemon.getFileHandle
  mlRead := daemon.afp.mlRead daemon.volume daemon.host daemon.malloc daemon.icon none

/-- What `process_read` comes to: it has no memory, and its caller closes the
connection, or it sends a response that was made in `allocated` octets. -/
inductive ReadAnswer where
  | refused
  | sent (allocated : ℕ) (result : ReadResult) (eof : ℕ) (data : Octets)
  deriving DecidableEq, Repr

/-- `len` after `len += request->length`. -/
def readAllocation (length : ℕ) : ℕ := (ipcReadResponseSize + length) % 4294967296

/-- An answer without data, in a response of its own size. -/
def answerAlone (malloc : ℕ → Bool) (result : ReadResult) : ReadAnswer :=
  if malloc ipcReadResponseSize then .sent ipcReadResponseSize result 0 [] else .refused

/-- `process_read`, with its allocations. -/
def processReadAllocating {σ φ : Type} (daemon : ReadDaemon σ φ) (malloc : ℕ → Bool) (p : Octets) :
    StateM σ ReadAnswer := do
  if p.length < ipcReadRequestSize then return answerAlone malloc .error
  match daemon.connected (volumeid p) with
  | none => return answerAlone malloc .notattached
  | some false => return answerAlone malloc .notconnected
  | some true =>
      let len := readAllocation (length p)
      if !malloc len then return .refused
      match ← daemon.getFileHandle (fileid p) with
      | none => return .sent len .error 0 []
      | some fp =>
          let (ret, data, eof) ← daemon.mlRead fp (length p) (offT (start p))
          if 0 < ret then return .sent len .ok eof (data.window ret.toNat)
          if ret < 0 then return .sent len .error eof []
          return .sent len .ok eof []

/-! ## WRITE -/

namespace WritePacket

variable (p : Octets)

def fileid : ℕ := p.le32 24
def offset : ℕ := p.le64 32

end WritePacket

/-- `struct afpsl_ipc_write_request` as the client fills it in. -/
def writePacket (volid fileid offset size resource : ℕ) : Octets :=
  [27, 0, 0, 0] ++ (le32Octets ipcWriteSize ++ (le32Octets 0 ++ (le32Octets 0 ++
    (le64Octets volid ++ (le32Octets fileid ++ (le32Octets 0 ++ (le64Octets offset ++
      (le32Octets size ++ le32Octets resource))))))))

/-- What `process_write` consults. `malloc` gives the memory as it is found,
with whatever was in it. -/
structure WriteDaemon (σ φ : Type) where
  connected : ℕ → Option Bool
  malloc : ℕ → Option Octets
  getFileHandle : ℕ → StateM σ (Option φ)
  mlWrite : φ → Octets → ℤ → StateM σ ℤ

/-- What `process_write` comes to: its answer, and the data that it called
`ml_write` with. -/
structure WriteOutcome where
  result : ReadResult
  written : ℕ
  passed : Option Octets
  deriving DecidableEq, Repr

/-- An exit of `process_write` before the call of `ml_write`. -/
def WriteOutcome.failed (result : ReadResult) : WriteOutcome := ⟨result, 0, none⟩

/-- The loop of `process_write`: the octets it reads; `none` is its error
exit. -/
def collectPayload (remaining : ℕ) (src : Source) : Option Octets × Source :=
  match remaining with
  | 0 => (some [], src)
  | n + 1 =>
    match Source.read (n + 1) src with
    | (none, src') => (none, src')
    | (some [], src') => (none, src')
    | (some (o :: os), src') =>
        let (got, src'') := collectPayload (n - os.length) src'
        (got.map ((o :: os) ++ ·), src'')
termination_by remaining

/-- `process_write`, with the descriptor that the data is read from. -/
def processWriteFrom {σ φ : Type} (daemon : WriteDaemon σ φ) (p : Octets) (fd : Source) :
    StateM σ (WriteOutcome × Source) := do
  if p.length < ipcWriteSize then return (.failed .error, fd)
  match daemon.connected (Packet.volumeid p) with
  | none => return (.failed .notattached, fd)
  | some false => return (.failed .notconnected, fd)
  | some true =>
      match daemon.malloc (Packet.size p) with
      | none => return (.failed .error, fd)
      | some block =>
          -- `int bytes_remaining = request->size`
          let (payload, fd) := collectPayload (toInt (Packet.size p)).toNat fd
          match payload with
          | none => return (.failed .error, fd)
          | some got =>
              let data := (block.window (Packet.size p)).overwrite 0 got
              match ← daemon.getFileHandle (WritePacket.fileid p) with
              | none => return (.failed .error, fd)
              | some fp =>
                  let ret ← daemon.mlWrite fp data (offT (WritePacket.offset p))
                  if 0 < ret then return (⟨.ok, ret.toNat, some data⟩, fd)
                  if ret < 0 then return (⟨.error, 0, some data⟩, fd)
                  return (⟨.ok, 0, some data⟩, fd)

end NetatalkClient
