import NetatalkClient.Daemon.Model.Response
/-!
# Listing a directory through the daemon

`process_readdir` lists a directory, sorts it and packs the entries of one
page into a response, as many as fit. `afp_sl_readdir` asks for pages
until it has as many entries as it wants or the directory is at its end,
and `remote_readdir_all` asks `afp_sl_readdir` until it has them all.

Counts of files are natural numbers here; they are those of the C
variables as long as a directory has no more than `INT_MAX` entries.
-/

namespace NetatalkClient

open Octets List

/-- `AFPSL_IPC_MAX_RESPONSE`. -/
def afpslIpcMaxResponse : ℕ := 65535 + 1024

/-- `sizeof(connection.data)`. -/
def connectionDataSize : ℕ := afpslIpcMaxResponse + afpslIpcLogBufferSize + 200

/-! ## Files -/

/-- What a buffer of `AFPC_MAX_NAME_BYTES` octets holds as a C string. -/
structure FileName where
  octets : Octets
  noNul : 0 ∉ octets
  length_lt : octets.length < afpcMaxNameBytes

theorem FileName.octets_inj {a b : FileName} : a.octets = b.octets ↔ a = b := by
  constructor
  · intro h
    cases a
    cases b
    cases h
    rfl
  · exact congrArg FileName.octets

instance : DecidableEq FileName := fun _ _ => decidable_of_iff _ FileName.octets_inj

/-- The name in the buffer once `b` has been copied to its front and a
null octet put behind it; `b` is shorter than the buffer. -/
def FileName.ofBuffer (b : Octets) : FileName where
  octets := (b.takeWhile (· ≠ 0)).take (afpcMaxNameBytes - 1)
  noNul h := by simpa using mem_takeWhile_imp (mem_of_mem_take h)
  length_lt := lt_of_le_of_lt (length_take_le _ _) (by decide)

/-- `struct afpc_file_info`, and as much of `struct afp_file_info` as is
listed. -/
structure AfpcFileInfo where
  name : FileName
  creationDate : BitVec 64
  modificationDate : BitVec 64
  uid : BitVec 32
  gid : BitVec 32
  permissions : BitVec 32
  uaPermissions : BitVec 32
  size : BitVec 64
  deriving DecidableEq

/-- `strcasecmp` of two strings is not positive. -/
def strcasecmpLe : Octets → Octets → Bool
  | [], _ => true
  | _ :: _, [] => false
  | c :: a, d :: b => tolower c < tolower d || tolower c == tolower d && strcasecmpLe a b

/-- `compare_afp_file_info`: the files are in the order of their names,
whatever the case of the letters. -/
def compareAfpFileInfo (a b : AfpcFileInfo) : Prop :=
  strcasecmpLe a.name.octets b.name.octets = true

instance (a b : AfpcFileInfo) : Decidable (compareAfpFileInfo a b) :=
  inferInstanceAs (Decidable (_ = true))

/-- A `qsort` that does the same whenever it is given the same. -/
structure Qsort where
  sort : List AfpcFileInfo → List AfpcFileInfo
  perm : ∀ fs, (sort fs).Perm fs
  sorted : ∀ fs, (sort fs).Pairwise compareAfpFileInfo

/-! ## The daemon -/

/-- `struct afpsl_ipc_readdir_request` as it was received:
`completed_packet_size` and what the members say. -/
structure ReaddirRequest where
  completedPacketSize : ℕ
  headerLen : ℕ
  volumeid : ℕ
  start : ℤ
  count : ℤ
  pathLen : ℕ
  /-- `path`, with the octet behind it. -/
  path : Octets
  deriving DecidableEq

/-- `sizeof(struct afpsl_ipc_readdir_request)`. -/
def ipcReaddirRequestSize : ℕ := 40

/-- `sizeof(struct afpsl_ipc_readdir_response)`. -/
def ipcReaddirResponseSize : ℕ := 16

/-- The results of a listing, `AFPSL_IPC_RESULT_...`. -/
def resultOk : UInt8 := 0

@[inherit_doc resultOk]
def resultError : UInt8 := 1

@[inherit_doc resultOk]
def resultEnoent : UInt8 := 4

@[inherit_doc resultOk]
def resultNotconnected : UInt8 := 5

/-- What the daemon finds around it while it lists. -/
structure ReaddirEnv where
  /-- `afp_volume_find_by_pointer_hold`, with what
  `volume_server_is_connected` says of the volume found. -/
  volume : ℕ → Option Bool
  /-- `ml_readdir`; `none` is a result other than 0. -/
  mlReaddir : Octets → Option (List AfpcFileInfo)
  qsort : Qsort
  /-- Whether there is memory for `file_array`. -/
  fileArray : Bool

/-- The sorted list of the files. -/
def sortedFiles (env : ReaddirEnv) (files : List AfpcFileInfo) : List AfpcFileInfo :=
  if 1 < files.length then
    if env.fileArray then env.qsort.sort files else files
  else files

/-- `entry_size` without the name. -/
def fixedEntrySize : ℕ := 40

/-- One file in the format of a response. -/
def packEntry (f : AfpcFileInfo) : Octets :=
  le32Octets f.name.octets.length ++ (f.name.octets ++
    (le64Octets f.creationDate.toNat ++ (le64Octets f.modificationDate.toNat ++
      (le32Octets f.uid.toNat ++ (le32Octets f.gid.toNat ++ (le32Octets f.permissions.toNat ++
        (le32Octets f.uaPermissions.toNat ++ le64Octets f.size.toNat)))))))

/-- The packing loop: what it packs of at most `numfiles` files into
`room` octets, how many files that is, and where it leaves `fp`. -/
def packFiles : ℕ → ℕ → List AfpcFileInfo → Octets × ℕ × List AfpcFileInfo
  | 0, _, fp => ([], 0, fp)
  | _ + 1, _, [] => ([], 0, [])
  | numfiles + 1, room, f :: fp =>
      let entrySize := 4 + f.name.octets.length + fixedEntrySize
      if room < entrySize then ([], 0, f :: fp)
      else
        let (octets, i, rest) := packFiles numfiles (room - entrySize) fp
        (packEntry f ++ octets, i + 1, rest)

/-- A `struct afpsl_ipc_readdir_response` and what was packed behind it. -/
def readdirResponse (result : UInt8) (numfiles : ℕ) (eod : Bool) (packed : Octets) : Octets :=
  [result, 0, 0, 0] ++ (le32Octets (ipcReaddirResponseSize + packed.length) ++
    (le32Octets numfiles ++ ([if eod then 1 else 0, 0, 0, 0] ++ packed)))

/-- `process_readdir`: the content of its response. -/
def processReaddir (env : ReaddirEnv) (req : ReaddirRequest) : Octets :=
  let error (result : UInt8) := readdirResponse result 0 false []
  if req.completedPacketSize < ipcReaddirRequestSize ∨ req.start < 0 then error resultError
  else
    let requestLen := ipcReaddirRequestSize + req.pathLen + 1
    if afpcMaxUtf8PathBytes + 1 ≤ req.pathLen ∨ requestLen ≠ req.completedPacketSize ∨
        req.headerLen ≠ requestLen ∨ req.path.byte req.pathLen ≠ 0 then error resultError
    else
      match env.volume req.volumeid with
      | none => error resultEnoent
      | some false => error resultNotconnected
      | some true =>
        match env.mlReaddir (req.path.takeWhile (· ≠ 0)) with
        | none => error resultError
        | some files =>
          let filebase := sortedFiles env files
          if files.length < req.start.toNat then error resultError
          else
            let numfiles := min files.length (req.count % 4294967296).toNat
            let (packed, i, fp) := packFiles numfiles (afpslIpcMaxResponse - ipcReaddirResponseSize)
              (filebase.drop req.start.toNat)
            readdirResponse resultOk i fp.isEmpty packed

/-! ## The client -/

/-- A `char` as an `int`. -/
def signedChar (b : ℕ) : ℤ := if b < 128 then b else b - 256

/-- `read_answer`: its result, and `connection.data` up to
`connection.len`. -/
def readAnswer (fd : ℤ) (ws : List Wakeup) : ℤ × Octets :=
  let r := readFramedResponse fd connectionDataSize ws
  if r.ret < 0 then (-1, [])
  else if (dispatchResponseLogs r.data).1 < 0 then (-1, [])
  else (signedChar (r.data.byte 0), r.data)

/-- `server_result_to_errno`. -/
def serverResultToErrno : ℤ → ℤ
  | 0 => 0
  | 4 => -enoent
  | 17 => -enoent
  | 5 => -enotconn
  | 6 => -estale
  | 14 => -enodev
  | 7 => 0
  | 8 => 0
  | 15 => 0
  | 9 => -eacces
  | 16 => -eacces
  | 23 => -eacces
  | 19 => -eacces
  | 24 => -eexist
  | 25 => -enotempty
  | 20 => -etimedout
  | 21 => -econnrefused
  | 18 => -ehostunreach
  | 22 => -enotsup
  | _ => -eio

/-- The first pass over the entries: what is left behind `n` of them. -/
def checkEntries : ℕ → Octets → Option Octets
  | 0, p => some p
  | n + 1, p =>
    if p.length < 4 then none
    else
      let nameLen := p.le32 0
      let p : Octets := p.drop 4
      if afpcMaxNameBytes ≤ nameLen ∨ p.length < nameLen + fixedEntrySize then none
      else checkEntries n (p.drop (nameLen + fixedEntrySize))

/-- The second pass over the entries, which unpacks them. -/
def unpackEntries : ℕ → Octets → List AfpcFileInfo
  | 0, _ => []
  | n + 1, p =>
    let nameLen := p.le32 0
    let q : Octets := p.drop (4 + nameLen)
    { name := .ofBuffer ((p.drop 4).take nameLen)
      creationDate := .ofNat 64 (q.le64 0)
      modificationDate := .ofNat 64 (q.le64 8)
      uid := .ofNat 32 (q.le32 16)
      gid := .ofNat 32 (q.le32 20)
      permissions := .ofNat 32 (q.le32 24)
      uaPermissions := .ofNat 32 (q.le32 28)
      size := .ofNat 64 (q.le64 32) } :: unpackEntries n (q.drop fixedEntrySize)

/-- The request of `afp_sl_readdir` for one page. -/
def readdirRequest (volid : ℕ) (path : Octets) (start : ℤ) (count : ℕ) : ReaddirRequest where
  completedPacketSize := ipcReaddirRequestSize + path.length + 1
  headerLen := ipcReaddirRequestSize + path.length + 1
  volumeid := volid
  start := start
  count := count
  pathLen := path.length
  path := path ++ [0]

/-- How a client reaches the daemon: what its waits find once it has sent
a request, `none` when the request could not be sent. -/
abbrev Transport (Request : Type) := Request → Option (List Wakeup)

section Client

variable (fd : ℤ) (daemon : Transport ReaddirRequest) (volid : ℕ) (path : Octets)

/-- One round of the loop of `afp_sl_readdir`: the files of one response
and whether they are the last, or the error. -/
def readdirBatch (start : ℤ) (batchCount totalFiles : ℕ) : Except ℤ (List AfpcFileInfo × Bool) :=
  match daemon (readdirRequest volid path start batchCount) with
  | none => .error (-econnreset)
  | some ws =>
    let (ret, data) := readAnswer fd ws
    if ret < 0 then .error (-econnreset)
    else
      match responseContentLength data with
      | none => .error (-eproto)
      | some contentLen =>
        if contentLen < ipcReaddirResponseSize then .error (-eproto)
        else if data.byte 0 ≠ 0 then .error (serverResultToErrno (signedChar (data.byte 0)))
        else
          let batchReceived := data.le32 8
          let eod := data.byte 12 ≠ 0
          if batchCount < batchReceived ∨ uintMax - totalFiles < batchReceived then
            .error (-eproto)
          else if 0 < batchReceived then
            let p := (data.take contentLen).drop ipcReaddirResponseSize
            if checkEntries batchReceived p ≠ some [] then .error (-eproto)
            else .ok (unpackEntries batchReceived p, eod)
          else .ok ([], eod)

/-- The loop of `afp_sl_readdir`: its result, the files, and `eod`. A
response without files ends it, whether it is the last or not. -/
def readdirLoop (requestedCount : ℕ) (files : List AfpcFileInfo) (start : ℤ) :
    ℤ × List AfpcFileInfo × Bool :=
  if files.length < requestedCount then
    match readdirBatch fd daemon volid path start (requestedCount - files.length) files.length with
    | .error ret => (ret, [], false)
    | .ok ([], eod) => (0, files, eod)
    | .ok (f :: batch, true) => (0, files ++ f :: batch, true)
    | .ok (f :: batch, false) =>
        readdirLoop requestedCount (files ++ f :: batch) (start + (f :: batch).length)
  else (0, files, false)
termination_by requestedCount - files.length
decreasing_by
  simp only [length_append, length_cons]
  omega

/-- `afp_sl_readdir` of a volume that is given; memory is there. -/
def afpSlReaddir (start count : ℤ) : ℤ × List AfpcFileInfo × Bool :=
  if afpcMaxUtf8PathBytes < path.length then (-enametoolong, [], false)
  else
    let requestedCount := if 0 < count ∧ count < 256 then 256 else (count % 4294967296).toNat
    readdirLoop fd daemon volid path requestedCount [] start

/-- The loop of `remote_readdir_all` over the pages. -/
def remoteReaddirLoop (all : List AfpcFileInfo) : ℤ × List AfpcFileInfo :=
  if intMax < all.length then (-eoverflow, [])
  else
    match afpSlReaddir fd daemon volid path all.length 256 with
    | (ret, page, eod) =>
      if ret ≠ 0 then (ret, [])
      else
        match page with
        | [] => (0, all)
        | f :: page =>
          if eod then (0, all ++ f :: page) else remoteReaddirLoop (all ++ f :: page)
termination_by intMax + 1 - all.length
decreasing_by
  simp only [length_append, length_cons]
  omega

/-- `remote_readdir_all`. -/
def remoteReaddirAll : ℤ × List AfpcFileInfo := remoteReaddirLoop fd daemon volid path []

end Client

end NetatalkClient
