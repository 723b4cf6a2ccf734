import NetatalkClient.Daemon.Model.Readdir
import NetatalkClient.Dsi.Model.Server
/-!
# Lists of volumes through the daemon

`process_getvols` sends a part of the list of a server's volumes, from
`start` on and `count` at most. The list came with the reply to
FPGetSrvrParms, which has one octet for its length. What stands in memory
behind the array of volumes is a parameter. Allocations succeed, and the
response reaches the client as it was sent.
-/

namespace NetatalkClient

open Octets

/-- `struct afpc_volume_info`. -/
structure AfpcVolumeInfo where
  volumeNamePrintable : Octets
  flags : UInt8
  deriving DecidableEq, Repr

/-- The volumes of a server, of which there are less than 256, and what a
reader finds behind them. -/
structure VolumeArray where
  volumes : List AfpcVolumeInfo
  numVolumes_lt : volumes.length < 256
  behind : ℕ → AfpcVolumeInfo

namespace VolumeArray

variable (server : VolumeArray)

/-- `num_volumes`. -/
def numVolumes : ℕ := server.volumes.length

/-- `volumes[i]`. -/
def volume (i : ℕ) : AfpcVolumeInfo :=
  (server.volumes[i]?).getD (server.behind (i - server.numVolumes))

end VolumeArray

/-- `sizeof(struct afpsl_ipc_getvols_response)` and
`sizeof(struct afpc_volume_info)`. -/
def ipcGetvolsResponseSize : ℕ := 16
def afpcVolumeInfoSize : ℕ := 256

/-- The members of `struct afpsl_ipc_getvols_request` that are looked at, and
whether the packet is large enough to have them. -/
structure GetvolsRequest where
  complete : Bool
  start : ℤ
  count : ℤ
  deriving DecidableEq, Repr

/-- `struct afpsl_ipc_getvols_response`, with what is behind it. -/
structure GetvolsResponse where
  len : ℕ
  result : UInt8
  num : ℕ
  volumes : List AfpcVolumeInfo
  deriving DecidableEq, Repr

/-- The response of `process_getvols` at its label `error`. -/
def getvolsError (result : UInt8) : GetvolsResponse := ⟨ipcGetvolsResponseSize, result, 0, []⟩

/-- `process_getvols`, about a server that is connected or not. -/
def processGetvols (server : Option VolumeArray) (request : GetvolsRequest) : GetvolsResponse :=
  if ¬request.complete ∨ request.start < 0 then getvolsError resultError
  else
    match server with
    | none => getvolsError resultNotconnected
    | some server =>
        -- as an `unsigned int`, a negative count is a large one
        let numvols := min (request.count % 4294967296).toNat server.numVolumes
        if numvols < request.start.toNat then getvolsError resultError
        else
          { len := ipcGetvolsResponseSize + numvols * afpcVolumeInfoSize
            result := resultOk
            num := numvols
            volumes := (List.range' request.start.toNat numvols).map server.volume }

/-- `afp_sl_getvols`: its result, `numvols` and `vols`. A number of 2³¹ or
more is negative in the request. -/
def afpSlGetvols (server : Option VolumeArray) (start count : ℕ) :
    ℤ × ℕ × List AfpcVolumeInfo :=
  let response := processGetvols server ⟨true, toInt start, toInt count⟩
  let ret := serverResultToErrno (signedChar response.result.toNat)
  if ret = 0 then (0, response.num, response.volumes.take response.num) else (ret, 0, [])

end NetatalkClient
