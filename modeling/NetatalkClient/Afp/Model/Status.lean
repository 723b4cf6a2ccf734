import NetatalkClient.Common.Codes
import NetatalkClient.Common.Printed
/-!
# The status text of a server

`afp_status_server` with `print_volume_status`, and `afp_list_volnames`.
Each is a sequence of pieces printed at an advancing position. The names
that other functions look up are given with the server or as parameters,
and the address as `inet_ntop` writes it.
-/

namespace NetatalkClient

structure StatusVolume where
  volumeNamePrintable : Octets
  (volid attributes : ℕ)
  /-- The mountpoint of a mounted volume. -/
  mounted : Option Octets
  (readonly attached : Bool)
  (misses hits expired forceRemoved : ℕ)
  mappingName : Octets
  supportsUnix : Bool

structure StatusServer where
  (serverNamePrintable ipAddr : Octets)
  port : ℕ
  disconnected : Bool
  avName : Octets
  (supportedUams usingUam : ℕ)
  (loginmesg machineType signature : Octets)
  (txDelay txQuantum rxQuantum lastrequestid requestsPending : ℕ)
  /-- Of each request in the queue, its ID and its command. -/
  commandRequests : List (ℕ × UInt8)
  (rxBytes txBytes runtPackets serverUid serverGid : ℕ)
  volumes : List StatusVolume

/-- `%u` and `%d`. -/
def decimal (n : ℕ) : Octets := text (toString n)

/-- `%x`. -/
def hexadecimal (n : ℕ) : Octets := text (String.ofList (Nat.toDigits 16 n))

/-- `%02x`. -/
def hexOctet (b : UInt8) : Octets := (if b < 16 then text "0" else []) ++ hexadecimal b.toNat

/-- `print_volume_status`. -/
def volumePieces (s : StatusServer) (v : StatusVolume) : List Octets :=
  [text "Volume \"" ++ v.volumeNamePrintable ++ text "\"\n    id: " ++ decimal v.volid ++
      text "\n    attribs: 0x" ++ hexadecimal v.attributes ++ text "\n    mounted: " ++
      v.mounted.getD (text "No") ++
      (if v.mounted.isSome ∧ v.readonly then text " (read only)" else []) ++ text "\n"] ++
    if v.attached then
      [text "    did cache stats: " ++ decimal v.misses ++ text " miss, " ++ decimal v.hits ++
        text " hit, " ++ decimal v.expired ++ text " expired, " ++ decimal v.forceRemoved ++
        text " force removal\n    uid/gid mapping: " ++ v.mappingName ++ text " (" ++
        decimal s.serverUid ++ text "/" ++ decimal s.serverGid ++ text ")\n",
      text "    Unix permissions: " ++ if v.supportsUnix then text "Yes\n" else text "No\n"]
    else []

section Names

variable (uamBitmapToString : ℕ → Octets) (afpGetCommandName : UInt8 → Octets)

/-- The loop over the bits of `supported_uams`. -/
def uamPieces (s : StatusServer) : List Octets :=
  ((((List.range 9).map (1 <<< ·)).filter (· &&& s.supportedUams ≠ 0)).map fun j =>
    uamBitmapToString j ++ if j = s.usingUam then text " (used)" else []).intersperse (text ", ")

/-- What `afp_status_server` prints. -/
def statusPieces : Option StatusServer → List Octets
  | none => [text "Not connected to any servers\n"]
  | some s =>
      [text "Server \"" ++ s.serverNamePrintable ++ text "\"\n    connection: " ++ s.ipAddr ++
          text ":" ++ decimal s.port ++ text " " ++
          (if s.disconnected then text "(disconnected)" else text "(active)") ++
          text "\n    using AFP version: " ++ s.avName ++ text "\n",
        text "    server UAMs: "] ++ uamPieces uamBitmapToString s ++
      [text "\n    login message: " ++ s.loginmesg ++ text "\n    type: " ++ s.machineType,
        text "\n    signature: " ++ s.signature.flatMap hexOctet ++
          text "\n    transmit delay: " ++ decimal s.txDelay ++ text "ms\n    quantums: " ++
          decimal s.txQuantum ++ text "(tx) " ++ decimal s.rxQuantum ++
          text "(rx)\n    last request id: " ++ decimal s.lastrequestid ++ text " in queue: " ++
          decimal s.requestsPending ++ text "\n"] ++
      (s.commandRequests.map fun request => text "         request " ++ decimal request.1 ++
        text ", " ++ afpGetCommandName request.2 ++ text "\n") ++
      [text "    transfer: " ++ decimal s.rxBytes ++ text "(rx) " ++ decimal s.txBytes ++
        text "(tx)\n    runt packets: " ++ decimal s.runtPackets ++ text "\n"] ++
      (s.volumes.filter (·.attached)).flatMap (volumePieces s)

/-- `afp_status_server` with `*len` positive: the buffer, what is returned
and `*len` afterwards. `none` if it writes outside the buffer. -/
def afpStatusServer (s : Option StatusServer) (len : ℕ) : Option (Octets × ℕ × ℤ) :=
  (Octets.printAll (statusPieces uamBitmapToString afpGetCommandName s) (List.replicate len 0)
    0).map fun (buf, pos) => (buf, pos, (len : ℤ) - pos)

end Names

def volnamePieces : List Octets → List Octets
  | [] => []
  | [name] => [name]
  | name :: names => (name ++ text ", ") :: volnamePieces names

/-- `afp_list_volnames`, into a buffer that holds `names` at first. -/
def afpListVolnames (volumes : List Octets) (names : Octets) : Option (Octets × ℕ) :=
  Octets.printAll (volnamePieces volumes) names 0

end NetatalkClient
