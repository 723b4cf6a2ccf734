import NetatalkClient.Afp.Model.Volume
import NetatalkClient.Dsi.Model.Server
/-!
# AFP: what a server says about itself

The reply to DSIGetStatus holds offsets of names, of lists of names and of
an icon, and the reply to FPGetSrvrParms a list of volumes. Names and
lists have their length before them.
-/

namespace NetatalkClient

open Octets

/-- `copy_from_pascal`, of the string at `pascal`: what it returns, and
`dest`. The length it returns is that of the whole string. -/
def copyFromPascal (buf : Octets) (pascal maxLen : ℕ) : ℕ × Octets :=
  let len := buf.byte pascal
  let copyLen := if maxLen ≤ len then maxLen - 1 else len
  (len, (buf.octetsAt (pascal + 1) copyLen).window maxLen)

/-! ## Lists of names -/

/-- `afp_versions`: each `av_name` with its `av_number`. -/
def afpVersions : List (Octets × ℕ) :=
  [(text "AFPVersion 1.1", 11),
    (text "AFPVersion 2.0", 20),
    (text "AFPVersion 2.1", 21),
    (text "AFP2.2", 22),
    (text "AFPX03", 30),
    (text "AFP3.1", 31),
    (text "AFP3.2", 32),
    (text "AFP3.3", 33),
    (text "AFP3.4", 34)]

/-- `afp_strings`. -/
def afpStrings : List Octets :=
  [text "No User Authent",
    text "Cleartxt Passwrd",
    text "Randnum Exchange",
    text "2-Way Randnum Exchange",
    text "DHCAST128",
    text "Client Krb v2",
    text "DHX2",
    text "Recon1",
    text "SRP"]

/-- `uam_aliases`. -/
def uamAliases : List (Octets × Octets) :=
  [(text "guest", text "No User Authent"),
    (text "clrtxt", text "Cleartxt Passwrd"),
    (text "randnum", text "Randnum Exchange"),
    (text "randnum2", text "2-Way Randnum Exchange"),
    (text "dhx", text "DHCAST128"),
    (text "dhx2", text "DHX2"),
    (text "srp", text "SRP")]

/-- Whether `strcasecmp` returns 0. -/
def sameLetters (a b : Octets) : Bool := a.map tolower = b.map tolower

/-- `resolve_uam_shorthand`. -/
def resolveUamShorthand (name : Octets) : Octets :=
  ((uamAliases.find? fun a => sameLetters name a.1).map Prod.snd).getD name

/-- `uam_string_to_bitmap`. -/
def uamStringToBitmap (name : Octets) : ℕ :=
  match afpStrings.findIdx? fun s => sameLetters (resolveUamShorthand name) s with
  | none => 0
  | some i => 1 <<< i

/-- `SERVER_MAX_VERSIONS`. -/
def serverMaxVersions : ℕ := 10

/-- `SERVER_MAX_UAMS`. -/
def serverMaxUams : ℕ := 10

/-- `AFP_UAM_LENGTH`. -/
def afpUamLength : ℕ := 24

/-- A loop over the names at `p`, each copied to `maxLen` octets. The
length of a name and one more goes through an `unsigned char`. -/
def overNames {α : Type*} (maxLen : ℕ) (each : α → Octets → α) (buf : Octets) : ℕ → ℕ → α → α
  | 0, _, acc => acc
  | i + 1, p, acc =>
      let (len, name) := copyFromPascal buf p maxLen
      overNames maxLen each buf i (p + (len + 1) % 256) (each acc (cString name))

/-- The body of the loop in `afpc_dsi_parse_versions`. -/
def addVersion (versions : List ℕ) (name : Octets) : List ℕ :=
  match afpVersions.find? fun v => v.1 = name with
  | none => versions
  | some v => versions ++ [v.2]

/-- `afpc_dsi_parse_versions`: the array `versions`. -/
def afpcDsiParseVersions (buf : Octets) (msg : ℕ) : List ℕ :=
  let found := overNames 33 addVersion buf (min (buf.byte msg) serverMaxVersions) (msg + 1) []
  found ++ List.replicate (serverMaxVersions - found.length) 0

/-- `afpc_dsi_parse_uams`: `supported_uams`. -/
def afpcDsiParseUams (buf : Octets) (msg : ℕ) : ℕ :=
  overNames afpUamLength (fun uams name => uams ||| uamStringToBitmap name) buf
    (min (buf.byte msg) serverMaxUams) (msg + 1) 0

/-! ## The server -/

/-- The part of `struct afp_server` that the two replies set or look at.
Names are whole arrays, the printable name is a string. -/
structure AfpServerInfo extends AfpClock where
  serverName : Octets
  serverNameUtf8 : Octets
  serverNamePrintable : Octets
  machineType : Octets
  icon : Octets
  signature : Octets
  flags : ℕ
  connectTime : ℤ
  supportedUams : ℕ
  versions : List ℕ
  numVolumes : ℕ
  volumes : List AfpVolume
  deriving DecidableEq, Repr

def kSupportsTCP : ℕ := 0x20
def kSupportsDirServices : ℕ := 0x100
def kSupportsUTF8SrvrName : ℕ := 0x200

/-- `AFP_SERVER_NAME_LEN`. -/
def afpServerNameLen : ℕ := 33

/-- `AFP_SERVER_NAME_UTF8_LEN`. -/
def afpServerNameUtf8Len : ℕ := 255

/-- `AFP_SERVER_ICON_LEN`. -/
def afpServerIconLen : ℕ := 256

/-- `AFP_SIGNATURE_LEN`. -/
def afpSignatureLen : ℕ := 16

/-! ## The status of a server -/

/-- Where the offset of the signature is: behind the name, on an even
boundary. The buffer comes from `malloc`, so it begins on one. -/
def signatureAt (buf : Octets) : ℕ :=
  let p := 26 + buf.byte 26 + 1
  if p % 2 = 1 then p + 1 else p

/-- Where the offset of the UTF-8 name is: behind those of the signature,
of the network addresses and of the directory names, as far as the flags
announce them. -/
def utf8NameAt (buf : Octets) : ℕ :=
  let flags := buf.be16 24
  let p := signatureAt buf + 2
  let p := if flags &&& kSupportsTCP ≠ 0 then p + 2 else p
  if flags &&& kSupportsDirServices ≠ 0 then p + 2 else p

/-- The UTF-8 name at `p2`, or one octet behind. -/
def utf8NameFrom (buf : Octets) (p2 : ℕ) : Octets :=
  let (len, name) := copyFromPascal buf p2 afpServerNameUtf8Len
  if len = 0 then (copyFromPascal buf (p2 + 1) afpServerNameUtf8Len).2 else name

/-- The two fixed parts of the reply, with the header. -/
def getstatusSize : ℕ := 34

/-- `afpc_dsi_getstatus_reply`: the server. `iconv` is the conversion of
the C library, from the name and the old printable name to the new one;
`data_read` octets of the buffer are the reply. -/
def afpcDsiGetstatusReply (host : ByteOrder) (iconv : Octets → Octets → Octets)
    (server : AfpServerInfo) (buf : Octets) (dataRead : ℕ) : AfpServerInfo :=
  if dataRead < getstatusSize then server
  else
    let data := headerSize
    let serverName := (copyFromPascal buf 26 afpServerNameLen).2
    let server := { server with
      machineType := (copyFromPascal buf (data + buf.be16 16) 17).2
      versions := afpcDsiParseVersions buf (data + buf.be16 18)
      supportedUams := afpcDsiParseUams buf (data + buf.be16 20)
      icon := if buf.be16 22 > 0 then buf.octetsAt (data + buf.be16 22) afpServerIconLen
        else server.icon
      flags := buf.be16 24
      serverName := serverName
      signature := buf.octetsAt (data + buf.be16 (signatureAt buf)) afpSignatureLen }
    if buf.be16 24 &&& kSupportsUTF8SrvrName ≠ 0 then
      -- behind the hint character
      let name := utf8NameFrom buf (data + buf.be16 (utf8NameAt buf) + 1)
      { server with
        serverNameUtf8 := name
        serverNamePrintable :=
          (convertUtf8decToUtf8pre host (cString name) afpServerNameUtf8Len).2 }
    else
      { server with serverNamePrintable := iconv (cString serverName) server.serverNamePrintable }

/-! ## The parameters of a server -/

/-- A volume of zeros. -/
def AfpVolume.zero : AfpVolume where
  volid := 0
  flags := 0
  attributes := 0
  signature := 0
  creationDate := 0
  modificationDate := 0
  backupDate := 0
  bfree := 0
  blocks := 0
  bsize := 0
  volumeName := List.replicate afpVolumeNameUtf8Len 0
  volumeNamePrintable := []

/-- The loop over the volumes, from `p` on: what it returns, and the array. -/
def srvrparmsVolumes (host : ByteOrder) (utf8 : Bool) (msg : Octets) (size : ℕ) :
    ℕ → ℕ → ℤ × List AfpVolume
  | 0, _ => (0, [])
  | i + 1, p =>
      if size ≤ p then (-1, List.replicate (i + 1) AfpVolume.zero)
      else
        let (len, volumeName) := copyFromPascal msg (p + 1) afpVolumeNameUtf8Len
        let vol := { AfpVolume.zero with
          flags := msg.byte p
          volumeName := volumeName
          volumeNamePrintable := printableVolumeName host utf8 volumeName [] }
        let (ret, volumes) := srvrparmsVolumes host utf8 msg size i (p + 1 + (len + 1))
        (ret, vol :: volumes)

/-- The fixed part of the reply, with the header. -/
def srvrparmsSize : ℕ := 21

/-- `afp_getsrvrparms_reply`: what it returns, and the server. `now` is what
`time` returns; `using_version` was set before the request was sent. -/
def afpGetsrvrparmsReply (host : ByteOrder) (now : ℤ) (server : AfpServerInfo) (msg : Octets)
    (size : ℕ) : ℤ × AfpServerInfo :=
  if size < srvrparmsSize then (-1, server)
  else
    let connectTime := afpDateToUnix none (msg.be32 16)
    let localTime := serverUsesLocalTime (some server.toAfpClock)
    let timeOffset := if localTime then connectTime - now else server.timeOffset
    let connectTime := if localTime then connectTime - timeOffset else connectTime
    let utf8 := decide (30 ≤ server.usingVersion.getD 0)
    let (ret, volumes) := srvrparmsVolumes host utf8 msg size (msg.byte 20) srvrparmsSize
    (ret, { server with
      connectTime := connectTime
      timeOffset := timeOffset
      numVolumes := msg.byte 20
      volumes := volumes })

end NetatalkClient
