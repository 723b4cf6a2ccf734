import NetatalkClient.Daemon.Model.Ipc
import NetatalkClient.Daemon.Model.Response
import NetatalkClient.Midlevel.Model.Metadata
/-!
# Metadata calls through the daemon

`metadata_call` puts a call on the metadata of a file into one request.
`process_metadata` takes it apart, makes the call and answers with the
result, and with the octets that were read. The client reads the head of
the answer, then the rest of it, whose length the head gives.

The connection is made and the request sent by `exchange`, which gives
what the client's waits will find, or the error that ends the call.
-/

namespace NetatalkClient

open Octets

/-! ## Constants -/

/-- `offsetof(struct afpsl_ipc_metadata_request, data)`. -/
def ipcMetadataBase : ℕ := 48

/-- `sizeof(struct afpsl_ipc_metadata_response)`. -/
def ipcMetadataResponseSize : ℕ := 16

/-- `AFP_SL_METADATA_CHUNK`. -/
def afpSlMetadataChunk : ℕ := 4096

/-- `AFP_SL_XATTR_LIST_MAX`. -/
def afpSlXattrListMax : ℕ := 224 * 1024

/-- `AFP_SL_XATTR_CREATE`. -/
def afpSlXattrCreate : ℕ := 0x1

/-- `AFP_SL_XATTR_REPLACE`. -/
def afpSlXattrReplace : ℕ := 0x2

/-- `INT64_MAX`. -/
def int64Max : ℕ := 9223372036854775807

/-- The `off_t` that an `unsigned long long` becomes. -/
def offT (offset : ℕ) : ℤ := if offset ≤ int64Max then offset else offset - 18446744073709551616

/-- The commands that `process_metadata` handles. -/
inductive MetadataCommand where
  | getxattr | setxattr | listxattr | removexattr | getfinderinfo | setfinderinfo
  | removefinderinfo | getresourcefork | setresourcefork | removeresourcefork
  | truncateresourcefork
  deriving DecidableEq, Repr

namespace MetadataCommand

/-- The code of a command, `AFPSL_IPC_COMMAND_...`. -/
def code : MetadataCommand → ℕ
  | getxattr => 39
  | setxattr => 40
  | listxattr => 41
  | removexattr => 42
  | getfinderinfo => 43
  | setfinderinfo => 44
  | removefinderinfo => 45
  | getresourcefork => 46
  | setresourcefork => 47
  | removeresourcefork => 48
  | truncateresourcefork => 49

def ofCommand : Command → Option MetadataCommand
  | .getxattr => some getxattr
  | .setxattr => some setxattr
  | .listxattr => some listxattr
  | .removexattr => some removexattr
  | .getfinderinfo => some getfinderinfo
  | .setfinderinfo => some setfinderinfo
  | .removefinderinfo => some removefinderinfo
  | .getresourcefork => some getresourcefork
  | .setresourcefork => some setresourcefork
  | .removeresourcefork => some removeresourcefork
  | .truncateresourcefork => some truncateresourcefork
  | _ => none

end MetadataCommand

/-- `payload_limit` of the client and `request_limit` of the daemon. -/
def payloadLimit (command : Option MetadataCommand) : ℕ :=
  if command = some .listxattr then afpSlXattrListMax else afpSlMetadataChunk

/-- The commands on an attribute that has to be named. -/
def namesXattr (command : Option MetadataCommand) : Bool :=
  command = some .getxattr ∨ command = some .setxattr ∨ command = some .removexattr

/-! ## The request -/

/-- `struct afpsl_ipc_metadata_request` as the client fills it in; `close`
is zero. -/
def metadataRequest (command : MetadataCommand) (volid : ℕ) (path name data : Octets)
    (size offset flags : ℕ) : Octets :=
  let requestLen := ipcMetadataBase + path.length + 1 + name.length + 1 + data.length
  [UInt8.ofNat command.code, 0, 0, 0] ++ (le32Octets requestLen ++ (le32Octets 0 ++
    (le32Octets 0 ++ (le64Octets volid ++ (le64Octets offset ++ (le32Octets size ++
      (le32Octets flags ++ (le32Octets path.length ++ (le32Octets name.length ++
        (path ++ (0 :: (name ++ (0 :: data)))))))))))))

namespace MetadataPacket

variable (p : Octets)

def command : Option MetadataCommand := (Packet.command p).bind MetadataCommand.ofCommand
def volumeid : ℕ := p.le64 16
def offset : ℕ := p.le64 24
def size : ℕ := p.le32 32
def flags : ℕ := p.le32 36
def pathLen : ℕ := p.le32 40
def nameLen : ℕ := p.le32 44

/-- `path`, and what follows it. -/
def path : Octets := p.drop ipcMetadataBase

/-- `name`, and what follows it. -/
def name : Octets := p.drop (ipcMetadataBase + pathLen p + 1)

/-- `request_data`. -/
def data : Octets := p.drop (ipcMetadataBase + pathLen p + 1 + nameLen p + 1)

end MetadataPacket

/-! ## The daemon -/

/-- A volume of the daemon. -/
structure MountedVolume (σ : Type) where
  /-- `volume_server_is_connected`. -/
  connected : Bool
  volume : MetadataVolume
  afp : AfpCalls σ

/-- The octets of `send_metadata_response`. -/
def metadataResponse (error : ℤ) (data : Octets) (reportedSize : ℕ) : Octets :=
  [0, 0, 0, 0] ++ (le32Octets (ipcMetadataResponseSize + data.length) ++
    (le32Octets (error % 4294967296).toNat ++ (le32Octets reportedSize ++ data)))

/-- The checks of `process_metadata` before it looks for the volume: the
error they answer with. -/
def checkMetadata (p : Octets) : Option ℤ :=
  let command := MetadataPacket.command p
  let sendsData :=
    command = some .setxattr ∨ command = some .setfinderinfo ∨ command = some .setresourcefork
  let expectedLen := ipcMetadataBase + MetadataPacket.pathLen p + 1 + MetadataPacket.nameLen p + 1 +
    if sendsData then MetadataPacket.size p else 0
  if p.length < ipcMetadataBase then some (-einval)
  else if afpMaxUtf8PathStorage ≤ MetadataPacket.pathLen p ∨ 256 ≤ MetadataPacket.nameLen p then
    some (-einval)
  else if payloadLimit command < MetadataPacket.size p ∨ Packet.len p ≠ expectedLen ∨
      p.length ≠ Packet.len p then
    some (-einval)
  else if (MetadataPacket.path p).byte (MetadataPacket.pathLen p) ≠ 0 ∨
      (MetadataPacket.name p).byte (MetadataPacket.nameLen p) ≠ 0 then
    some (-einval)
  else if namesXattr command ∧ (MetadataPacket.name p).byte 0 = 0 then some (-einval)
  else if command = some .setfinderinfo ∧ MetadataPacket.size p ≠ 32 then some (-einval)
  else if command = some .setxattr ∧
      MetadataPacket.flags p ∉ [0, kXAttrCreate, kXAttrReplace] then
    some (-einval)
  else if command = some .setresourcefork ∧ (intMax < MetadataPacket.offset p ∨
      intMax - MetadataPacket.offset p < MetadataPacket.size p) then
    some (-efbig)
  else if command = some .truncateresourcefork ∧ intMax < MetadataPacket.offset p then
    some (-efbig)
  else none

section Daemon

variable {σ : Type} (host : ByteOrder)

/-- A call that only has a result. -/
def withoutData (m : StateM σ ℤ) : StateM σ (ℤ × Octets) := do
  let ret ← m
  return (ret, [])

/-- The call that `process_metadata` makes: its result and what it has put
into `response_data`, which is there when the request has a size. -/
def callMetadata (m : MountedVolume σ) (p : Octets) : StateM σ (ℤ × Octets) :=
  let path := cString (MetadataPacket.path p)
  let name := cString (MetadataPacket.name p)
  let size := MetadataPacket.size p
  let data := (MetadataPacket.data p).take size
  let offset := MetadataPacket.offset p
  match MetadataPacket.command p with
  | some .getxattr => m.afp.mlGetxattr m.volume host path name (0 < size) size
  | some .listxattr => m.afp.mlListxattr m.volume path (0 < size) size
  | some .getfinderinfo => m.afp.mlGetfinderinfo m.volume host path (0 < size) size
  | some .getresourcefork =>
      if int64Max < offset then return (-eoverflow, [])
      else m.afp.mlGetresourcefork m.volume host path (0 < size) size offset
  | some .setxattr =>
      withoutData (m.afp.mlSetxattr m.volume host path name data (MetadataPacket.flags p))
  | some .setfinderinfo => withoutData (m.afp.mlSetfinderinfo m.volume host path data)
  | some .setresourcefork =>
      if int64Max < offset then return (-eoverflow, [])
      else withoutData (m.afp.mlSetresourcefork m.volume host path data offset)
  | some .truncateresourcefork =>
      withoutData (m.afp.mlTruncateresourcefork m.volume host path offset)
  | some .removexattr => withoutData (m.afp.mlRemovexattr m.volume host path name)
  | some .removefinderinfo => withoutData (m.afp.mlRemovefinderinfo m.volume host path)
  | some .removeresourcefork => withoutData (m.afp.mlRemoveresourcefork m.volume host path)
  | none => return (-einval, [])

/-- The response to a request of `size` octets, once the call has been
made. -/
def answerMetadata (size : ℕ) (r : ℤ × Octets) : Octets :=
  if 0 < r.1 then
    if 0 < size then
      if size < r.1.toNat then metadataResponse (-erange) [] r.1.toNat
      else metadataResponse 0 (r.2.window r.1.toNat) r.1.toNat
    else metadataResponse 0 [] r.1.toNat
  else metadataResponse r.1 [] 0

/-- `process_metadata`: the content of its response. -/
def processMetadata (find : ℕ → Option (MountedVolume σ)) (p : Octets) : StateM σ Octets :=
  match checkMetadata p with
  | some error => return metadataResponse error [] 0
  | none =>
      match find (MetadataPacket.volumeid p) with
      | none => return metadataResponse (-estale) [] 0
      | some m =>
          if !m.connected then return metadataResponse (-enotconn) [] 0
          else do
            let r ← callMetadata host m p
            return answerMetadata (MetadataPacket.size p) r

end Daemon

/-! ## The client -/

/-- `read_bytes_with_timeout`: the octets, and what the descriptor will
find next. -/
def readBytesWithTimeout (len : ℕ) : List Wakeup → Option (Octets × List Wakeup)
  | [] => if len = 0 then some ([], []) else none
  | w :: rest =>
      if len = 0 then some ([], w :: rest)
      else
        match w with
        | .timeout => none
        | .selectFailed _ => none
        | .readFailed interrupted => if interrupted then readBytesWithTimeout len rest else none
        | .ready run =>
            if run = [] then none
            else if len < run.length then some (run.take len, .ready (run.drop len) :: rest)
            else
              match readBytesWithTimeout (len - run.length) rest with
              | none => none
              | some (got, left) => some (run ++ got, left)

/-- The part of `metadata_call` that reads the answer: its result, and what
it has copied to `value`. -/
def readMetadata (limit : ℕ) (value : Bool) (size : ℕ) (ws : List Wakeup) : ℤ × Octets :=
  match readBytesWithTimeout ipcMetadataResponseSize ws with
  | none => (-econnreset, [])
  | some (response, rest) =>
      let len := Response.len response
      if len < ipcMetadataResponseSize + ipcLogFooterSize ∨
          ipcMetadataResponseSize + limit + afpslIpcLogBufferSize + ipcLogFooterSize < len then
        (-eproto, [])
      else
        match readBytesWithTimeout (len - ipcMetadataResponseSize) rest with
        | none => (-econnreset, [])
        | some (tail, _) =>
            match responseContentLength tail with
            | none => (-econnreset, [])
            | some payloadSize =>
                let error := toInt (response.le32 8)
                let responseSize := response.le32 12
                if (dispatchResponseLogs tail).1 < 0 then (-econnreset, [])
                else if 0 < payloadSize ∧ responseSize ≠ payloadSize then (-eproto, [])
                else if 0 < payloadSize ∧ (value = false ∨ size < payloadSize) then (-erange, [])
                else if error < 0 then (error, tail.take payloadSize)
                else (toInt responseSize, tail.take payloadSize)

section Client

variable {σ : Type} (exchange : Octets → StateM σ (Except ℤ (List Wakeup)))

/-- `metadata_call` on a volume and a path that are given. `sent` is what
is sent of `value`, with `send_value`. -/
def metadataCall (command : MetadataCommand) (volid : ℕ) (path : Octets) (name : Option Octets)
    (value : Bool) (size offset flags : ℕ) (sent : Option Octets) : StateM σ (ℤ × Octets) :=
  if payloadLimit (some command) < size ∨
      (namesXattr (some command) ∧ name.getD [] = []) ∨
      (command = .setfinderinfo ∧ size ≠ 32) ∨
      (value = false ∧ 0 < size ∧ sent.isSome) then
    return (-einval, [])
  else if afpcMaxUtf8PathBytes < path.length then return (-enametoolong, [])
  else if 256 ≤ (name.getD []).length then return (-enametoolong, [])
  else do
    let reached ← exchange (metadataRequest command volid path (name.getD []) (sent.getD [])
      size offset flags)
    match reached with
    | .error ret => return (ret, [])
    | .ok ws => return readMetadata (payloadLimit (some command)) value size ws

variable (volid : ℕ) (path : Octets)

/-- `afp_sl_getxattr`. -/
def afpSlGetxattr (name : Octets) (value : Bool) (size : ℕ) : StateM σ (ℤ × Octets) :=
  metadataCall exchange .getxattr volid path (some name) value size 0 0 none

/-- `wire_flags` of `afp_sl_setxattr`. -/
def wireFlags (flags : ℕ) : ℕ :=
  (if flags &&& afpSlXattrCreate ≠ 0 then kXAttrCreate else 0) |||
    (if flags &&& afpSlXattrReplace ≠ 0 then kXAttrReplace else 0)

/-- `afp_sl_setxattr`. -/
def afpSlSetxattr (name value : Octets) (flags : ℕ) : StateM σ (ℤ × Octets) :=
  if flags ∉ [0, afpSlXattrCreate, afpSlXattrReplace] then return (-einval, [])
  else
    metadataCall exchange .setxattr volid path (some name) true value.length 0 (wireFlags flags)
      (some value)

/-- `afp_sl_listxattr`. -/
def afpSlListxattr (list : Bool) (size : ℕ) : StateM σ (ℤ × Octets) :=
  metadataCall exchange .listxattr volid path none list size 0 0 none

/-- `afp_sl_removexattr`. -/
def afpSlRemovexattr (name : Octets) : StateM σ (ℤ × Octets) :=
  metadataCall exchange .removexattr volid path (some name) false 0 0 0 none

/-- `afp_sl_getfinderinfo`. -/
def afpSlGetfinderinfo (value : Bool) (size : ℕ) : StateM σ (ℤ × Octets) :=
  metadataCall exchange .getfinderinfo volid path none value size 0 0 none

/-- `afp_sl_setfinderinfo`. -/
def afpSlSetfinderinfo (value : Octets) : StateM σ (ℤ × Octets) :=
  metadataCall exchange .setfinderinfo volid path none true value.length 0 0 (some value)

/-- `afp_sl_removefinderinfo`. -/
def afpSlRemovefinderinfo : StateM σ (ℤ × Octets) :=
  metadataCall exchange .removefinderinfo volid path none false 0 0 0 none

/-- `afp_sl_getresourcefork`. -/
def afpSlGetresourcefork (value : Bool) (size offset : ℕ) : StateM σ (ℤ × Octets) :=
  metadataCall exchange .getresourcefork volid path none value size offset 0 none

/-- `afp_sl_setresourcefork`. -/
def afpSlSetresourcefork (value : Octets) (offset : ℕ) : StateM σ (ℤ × Octets) :=
  if intMax < offset ∨ intMax - offset < value.length then return (-efbig, [])
  else
    metadataCall exchange .setresourcefork volid path none true value.length offset 0 (some value)

/-- `afp_sl_truncateresourcefork`. -/
def afpSlTruncateresourcefork (size : ℕ) : StateM σ (ℤ × Octets) :=
  if intMax < size then return (-efbig, [])
  else metadataCall exchange .truncateresourcefork volid path none false 0 size 0 none

/-- `afp_sl_removeresourcefork`. -/
def afpSlRemoveresourcefork : StateM σ (ℤ × Octets) :=
  metadataCall exchange .removeresourcefork volid path none false 0 0 0 none

end Client

end NetatalkClient
