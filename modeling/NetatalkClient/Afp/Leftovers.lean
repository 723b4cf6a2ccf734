import NetatalkClient.Afp.Helpers.ServerInfo
import NetatalkClient.Afp.Helpers.Volume
/-!
# AFP: replies and what lies behind them

The buffer for replies is not cleared, so behind a reply lie octets of
earlier ones. The replies to DSIGetStatus, FPGetSrvrParms, FPOpenVol and
FPGetVolParms are taken apart by offsets, lengths and a bitmap that the
server chose, hardly ever compared with the size of the reply. What they
leave in the session is independent of the leftovers exactly for replies
that hold all that they announce.
-/

namespace NetatalkClient

open Octets List AfpServerInfo

variable {n : ℕ} {b : Octets} {host : ByteOrder}

/-! ## The status of a server -/

section
variable {iconv : Octets → Octets → Octets} {server : AfpServerInfo}

/-- All that is taken from a status is inside the reply. A name in one of
the lists may end outside where that cannot change what the list says. -/
structure StatusInside (n : ℕ) (b : Octets) : Prop where
  machineType : PascalInside n b (headerSize + b.be16 16) 17
  versions : headerSize + b.be16 18 < n ∧
    knownVersions.NamesSettled appendVersion n b 33
      (min (b.byte (headerSize + b.be16 18)) serverMaxVersions) (headerSize + b.be16 18 + 1) []
  uams : headerSize + b.be16 20 < n ∧
    knownUams.NamesSettled (fun uams bit => uams ||| bit) n b afpUamLength
      (min (b.byte (headerSize + b.be16 20)) serverMaxUams) (headerSize + b.be16 20 + 1) 0
  icon : b.be16 22 > 0 → headerSize + b.be16 22 + afpServerIconLen ≤ n
  serverName : PascalInside n b 26 afpServerNameLen
  signature : signatureAt b + 2 ≤ n ∧
    headerSize + b.be16 (signatureAt b) + afpSignatureLen ≤ n
  utf8Name : b.be16 24 &&& kSupportsUTF8SrvrName ≠ 0 →
    utf8NameAt b + 2 ≤ n ∧ Utf8NameInside n b (headerSize + b.be16 (utf8NameAt b) + 1)

/-- Each part of a status is settled by itself. -/
structure StatusSettled (n : ℕ) (b : Octets) : Prop where
  machineType : Settled n (fun b => (copyFromPascal b (headerSize + b.be16 16) 17).2) b
  versions : Settled n (fun b => afpcDsiParseVersions b (headerSize + b.be16 18)) b
  uams : Settled n (fun b => afpcDsiParseUams b (headerSize + b.be16 20)) b
  icon : b.be16 22 > 0 → Settled n (fun b => b.octetsAt (headerSize + b.be16 22) afpServerIconLen) b
  serverName : Settled n (fun b => (copyFromPascal b 26 afpServerNameLen).2) b
  signature :
    Settled n (fun b => b.octetsAt (headerSize + b.be16 (signatureAt b)) afpSignatureLen) b
  utf8Name : b.be16 24 &&& kSupportsUTF8SrvrName ≠ 0 →
    Settled n (fun b => utf8NameFrom b (headerSize + b.be16 (utf8NameAt b) + 1)) b

theorem statusSettled_iff (hn : getstatusSize ≤ n) : StatusSettled n b ↔ StatusInside n b := by
  have hn' : 34 ≤ n := hn
  -- the offsets in the fixed part lead to fixed places
  have hmachine : Settled n (fun b => (copyFromPascal b (headerSize + b.be16 16) 17).2) b ↔
      PascalInside n b (headerSize + b.be16 16) 17 := by
    rw [settled_offset_iff (fun b o => (copyFromPascal b (headerSize + o) 17).2) (by omega)]
    exact settled_copyFromPascal_iff (by decide)
  have hversions := (settled_offset_iff (n := n) (b := b)
    (fun b o => afpcDsiParseVersions b (headerSize + o)) (by omega)).trans
    (settled_versions_iff (headerSize + b.be16 18))
  have huams := (settled_offset_iff (n := n) (b := b)
    (fun b o => afpcDsiParseUams b (headerSize + o)) (by omega)).trans
    (settled_uams_iff (headerSize + b.be16 20))
  have hicon : Settled n (fun b => b.octetsAt (headerSize + b.be16 22) afpServerIconLen) b ↔
      headerSize + b.be16 22 + afpServerIconLen ≤ n := by
    rw [settled_offset_iff (fun b o => b.octetsAt (headerSize + o) afpServerIconLen) (by omega)]
    exact settled_octetsAt_iff _ _ (by decide)
  have hname : Settled n (fun b => (copyFromPascal b 26 afpServerNameLen).2) b ↔
      PascalInside n b 26 afpServerNameLen := settled_copyFromPascal_iff (by decide)
  have hsignature : Settled n
      (fun b => b.octetsAt (headerSize + b.be16 (signatureAt b)) afpSignatureLen) b ↔
        signatureAt b + 2 ≤ n ∧ headerSize + b.be16 (signatureAt b) + afpSignatureLen ≤ n := by
    rw [settled_congr (g := fun b' => b'.octetsAt (headerSize + b'.be16 (signatureAt b))
      afpSignatureLen) fun b' hb' => by rw [signatureAt_congr hn hb']]
    exact settled_signature_iff (signatureAt_le b)
  constructor
  · rintro ⟨h₁, h₂, h₃, h₄, h₅, h₆, h₇⟩
    exact ⟨hmachine.mp h₁, hversions.mp h₂, huams.mp h₃, fun h => hicon.mp (h₄ h), hname.mp h₅,
      hsignature.mp h₆, fun h => (settled_utf8Name_iff hn h).mp (h₇ h)⟩
  · rintro ⟨h₁, h₂, h₃, h₄, h₅, h₆, h₇⟩
    exact ⟨hmachine.mpr h₁, hversions.mpr h₂, huams.mpr h₃, fun h => hicon.mpr (h₄ h), hname.mpr h₅,
      hsignature.mpr h₆, fun h => (settled_utf8Name_iff hn h).mpr (h₇ h)⟩

/-- Every part ends up in a place of its own. -/
theorem getstatusReply_parts (hn : getstatusSize ≤ n) (host : ByteOrder)
    (iconv : Octets → Octets → Octets) (server : AfpServerInfo) (b : Octets) :
    let s := afpcDsiGetstatusReply host iconv server b n
    s.machineType = (copyFromPascal b (headerSize + b.be16 16) 17).2 ∧
      s.versions = afpcDsiParseVersions b (headerSize + b.be16 18) ∧
      s.supportedUams = afpcDsiParseUams b (headerSize + b.be16 20) ∧
      s.icon = (if b.be16 22 > 0 then b.octetsAt (headerSize + b.be16 22) afpServerIconLen
        else server.icon) ∧
      s.serverName = (copyFromPascal b 26 afpServerNameLen).2 ∧
      s.signature = b.octetsAt (headerSize + b.be16 (signatureAt b)) afpSignatureLen ∧
      (b.be16 24 &&& kSupportsUTF8SrvrName ≠ 0 → s.serverNameUtf8 =
        utf8NameFrom b (headerSize + b.be16 (utf8NameAt b) + 1)) := by
  intro s
  have hs : s = afpcDsiGetstatusReply host iconv server b n := rfl
  rw [afpcDsiGetstatusReply, if_neg (not_lt.mpr hn)] at hs
  dsimp only at hs
  by_cases hutf8 : b.be16 24 &&& kSupportsUTF8SrvrName ≠ 0
  · rw [if_pos hutf8] at hs
    rw [hs]
    exact ⟨rfl, rfl, rfl, rfl, rfl, rfl, fun _ => rfl⟩
  · rw [if_neg hutf8] at hs
    rw [hs]
    exact ⟨rfl, rfl, rfl, rfl, rfl, rfl, fun h => absurd h hutf8⟩

/-- A status that is not too short is settled if and only if all of it is
inside. -/
theorem settled_getstatusReply_iff (hn : getstatusSize ≤ n) :
    Settled n (fun b => afpcDsiGetstatusReply host iconv server b n) b ↔ StatusInside n b := by
  rw [← statusSettled_iff hn]
  have hparts := getstatusReply_parts hn host iconv server
  have hbe : ∀ q, q + 2 ≤ 34 → ∀ b', Agree n b b' → b'.be16 q = b.be16 q := by
    intro q hq b' hb'
    have hn' : 34 ≤ n := hn
    exact (hb'.be16 (by omega)).symm
  constructor
  · intro h
    refine ⟨?_, ?_, ?_, fun hpos => ?_, ?_, ?_, fun hutf8 => ?_⟩
    · exact (settled_congr fun b' _ => (hparts b').1).mp (h.map machineType)
    · exact (settled_congr fun b' _ => (hparts b').2.1).mp (h.map versions)
    · exact (settled_congr fun b' _ => (hparts b').2.2.1).mp (h.map supportedUams)
    · refine (settled_congr fun b' hb' => ?_).mp (h.map icon)
      rw [(hparts b').2.2.2.1, if_pos (by rwa [hbe 22 (by omega) b' hb'])]
    · exact (settled_congr fun b' _ => (hparts b').2.2.2.2.1).mp (h.map serverName)
    · exact (settled_congr fun b' _ => (hparts b').2.2.2.2.2.1).mp (h.map signature)
    · refine (settled_congr fun b' hb' => ?_).mp (h.map serverNameUtf8)
      exact (hparts b').2.2.2.2.2.2 (by rwa [hbe 24 (by omega) b' hb'])
  · rintro ⟨hmachine, hversions, huams, hicon, hname, hsignature, hutf8⟩ b' hb'
    have hicon' : (if b'.be16 22 > 0 then b'.octetsAt (headerSize + b'.be16 22) afpServerIconLen
        else server.icon) = if b.be16 22 > 0 then
          b.octetsAt (headerSize + b.be16 22) afpServerIconLen else server.icon := by
      have h22 := hbe 22 (by omega) b' hb'
      by_cases hpos : b.be16 22 > 0
      · rw [if_pos hpos, if_pos (by rwa [h22])]
        exact hicon hpos b' hb'
      · rw [if_neg hpos, if_neg (by rwa [h22])]
    have hmachine' := hmachine b' hb'
    have hversions' := hversions b' hb'
    have huams' := huams b' hb'
    have hname' := hname b' hb'
    have hsignature' := hsignature b' hb'
    dsimp only [afpcDsiGetstatusReply] at hmachine' hversions' huams' hname' hsignature' ⊢
    rw [if_neg (not_lt.mpr hn), if_neg (not_lt.mpr hn), hicon', hmachine', hversions',
      huams', hname', hsignature', hbe 24 (by omega) b' hb']
    by_cases hflag : b.be16 24 &&& kSupportsUTF8SrvrName ≠ 0
    · have hutf8' := hutf8 hflag b' hb'
      dsimp only at hutf8'
      rw [if_pos hflag, if_pos hflag, hutf8']
    · rw [if_neg hflag, if_neg hflag]

end

/-! ## The parameters of a server -/

/-- The parameters of a server are settled if and only if the names of the
volumes are. The time and the number of volumes are in the fixed part. -/
theorem settled_getsrvrparmsReply_iff {now : ℤ} {server : AfpServerInfo} (hn : srvrparmsSize ≤ n) :
    Settled n (fun b => afpGetsrvrparmsReply host now server b n) b ↔
      VolumesInside n b (b.byte 20) srvrparmsSize := by
  have hn' : 21 ≤ n := hn
  rw [← settled_volumes_iff host (decide (30 ≤ server.usingVersion.getD 0))]
  have hlen : ∀ b', Agree n b b' → b'.byte 20 = b.byte 20 := fun b' hb' => (hb' 20 (by omega)).symm
  constructor
  · intro h
    refine (settled_congr fun b' hb' => ?_).mp (h.map fun r => (r.1, r.2.volumes))
    rw [afpGetsrvrparmsReply, if_neg (not_lt.mpr hn), hlen b' hb']
  · intro h b' hb'
    have hvolumes := h b' hb'
    have htime : b'.be32 16 = b.be32 16 := be32_congr fun j _ hj => (hb' j (by omega)).symm
    dsimp only [afpGetsrvrparmsReply] at hvolumes ⊢
    rw [if_neg (not_lt.mpr hn), if_neg (not_lt.mpr hn), htime, hlen b' hb', hvolumes]

/-! ## The parameters of a volume -/

section
variable {clock : Option AfpClock} {volume : AfpVolume}

/-- The parameters as `afp_volopen_reply` and `afp_getvolparms_reply` read
them. -/
def readParameters (clock : Option AfpClock) (volume : AfpVolume) (n : ℕ) (b : Octets) :
    Except AfpVolume AfpVolume :=
  walk (b.be16 16) b (volReplySize + (n - volReplySize)) (volFields clock) volReplySize volume

theorem settled_readParameters_iff (volume : AfpVolume) (hn : volReplySize ≤ n) :
    Settled n (readParameters clock volume n) b ↔
      ParametersInside clock (b.be16 16) volReplySize n := by
  unfold readParameters
  rw [settled_offset_iff (fun b bitmap => walk bitmap b (volReplySize + (n - volReplySize))
    (volFields clock) volReplySize volume) hn]
  exact settled_parameters_iff (Nat.le_add_right _ _)

theorem exists_readParameters (clock : Option AfpClock) (volume : AfpVolume) (n : ℕ) (b : Octets) :
    ∃ volume', readParameters clock volume n b = .ok volume' ∧
      volume'.volumeNamePrintable = volume.volumeNamePrintable :=
  exists_walk_volFields (Nat.le_add_right _ _)

/-- An opened volume is settled if and only if its parameters are inside:
with its old printable name put back it is what was read. -/
theorem settled_volopenReply_iff (hn : volReplySize ≤ n) :
    Settled n (fun b => afpVolopenReply host clock volume b n) b ↔
      ParametersInside clock (b.be16 16) volReplySize n := by
  rw [← settled_readParameters_iff volume hn]
  have hopen : ∀ b' volume', readParameters clock volume n b' = .ok volume' →
      afpVolopenReply host clock volume b' n = (0, { volume' with
        volumeNamePrintable := printableVolumeName host
          (decide (volume'.attributes &&& kSupportsUTF8Names ≠ 0)) volume'.volumeName
          volume'.volumeNamePrintable }) := by
    intro b' volume' h
    rw [readParameters] at h
    rw [afpVolopenReply, if_neg (not_lt.mpr hn), parseVolbitmapReply, h]
    rfl
  constructor
  · intro h
    refine (settled_congr fun b' _ => ?_).mp (h.map fun r => (Except.ok { r.2 with
      volumeNamePrintable := volume.volumeNamePrintable } : Except AfpVolume AfpVolume))
    obtain ⟨volume', hread, hprintable⟩ := exists_readParameters clock volume n b'
    rw [hopen b' volume' hread, hread, ← hprintable]
  · intro h b' hb'
    obtain ⟨volume', hread, -⟩ := exists_readParameters clock volume n b
    dsimp only
    rw [hopen b volume' hread, hopen b' volume' ((h b' hb').trans hread)]

theorem settled_getvolparmsReply_iff (hn : volReplySize ≤ n) :
    Settled n (fun b => afpGetvolparmsReply clock (some volume) b n) b ↔
      ParametersInside clock (b.be16 16) volReplySize n := by
  rw [← settled_readParameters_iff volume hn]
  have hget : ∀ b' volume', readParameters clock volume n b' = .ok volume' →
      afpGetvolparmsReply clock (some volume) b' n = (0, some volume') := by
    intro b' volume' h
    rw [readParameters] at h
    rw [afpGetvolparmsReply, if_neg (not_lt.mpr hn)]
    dsimp only
    rw [parseVolbitmapReply, h]
    rfl
  constructor
  · intro h
    refine (settled_congr fun b' _ => ?_).mp (h.map fun r => (Except.ok (r.2.getD volume) :
      Except AfpVolume AfpVolume))
    obtain ⟨volume', hread, -⟩ := exists_readParameters clock volume n b'
    rw [hget b' volume' hread, hread]
    rfl
  · intro h b' hb'
    obtain ⟨volume', hread, -⟩ := exists_readParameters clock volume n b
    dsimp only
    rw [hget b volume' hread, hget b' volume' ((h b' hb').trans hread)]

end

/-! ## All four replies -/

theorem settled_of_refused {α : Type*} {f : Octets → α} {refused : Prop} {x : α} {P : Prop}
    (hshort : refused → ∀ b, f b = x) (h : ¬ refused → (Settled n f b ↔ P)) :
    Settled n f b ↔ refused ∨ P := by
  by_cases hr : refused
  · exact iff_of_true (fun b' _ => (hshort hr b').trans (hshort hr b).symm) (.inl hr)
  · rw [h hr, or_iff_right hr]

/-- **Leftovers stay out of the session exactly for replies that hold what
they announce.** For each reply, and whatever the session was before, every
buffer that agrees with `b` on the `n` octets of the reply has the same
outcome if and only if the reply is refused as too short, or for want of a
volume, or all that is read of it is inside. -/
theorem replies_settled_iff (host : ByteOrder) (iconv : Octets → Octets → Octets) (now : ℤ)
    (server : AfpServerInfo) (volume : AfpVolume) (other : Option AfpVolume) (n : ℕ) (b : Octets) :
    (Settled n (fun b => afpcDsiGetstatusReply host iconv server b n) b ↔
        n < getstatusSize ∨ StatusInside n b) ∧
      (Settled n (fun b => afpGetsrvrparmsReply host now server b n) b ↔
        n < srvrparmsSize ∨ VolumesInside n b (b.byte 20) srvrparmsSize) ∧
      (Settled n (fun b => afpVolopenReply host (some server.toAfpClock) volume b n) b ↔
        n < volReplySize ∨
          ParametersInside (some server.toAfpClock) (b.be16 16) volReplySize n) ∧
      (Settled n (fun b => afpGetvolparmsReply (some server.toAfpClock) other b n) b ↔
        n < volReplySize ∨ other = none ∨
          ParametersInside (some server.toAfpClock) (b.be16 16) volReplySize n) := by
  refine ⟨?_, ?_, ?_, ?_⟩
  · exact settled_of_refused (fun hshort b' => if_pos hshort)
      fun hn => settled_getstatusReply_iff (not_lt.mp hn)
  · exact settled_of_refused (fun hshort b' => if_pos hshort)
      fun hn => settled_getsrvrparmsReply_iff (not_lt.mp hn)
  · exact settled_of_refused (fun hshort b' => if_pos hshort)
      fun hn => settled_volopenReply_iff (not_lt.mp hn)
  · refine settled_of_refused (fun hshort b' => if_pos hshort) fun hn => ?_
    cases other with
    | none =>
      have hnone : ∀ b', afpGetvolparmsReply (some server.toAfpClock) none b' n = (-1, none) :=
        fun b' => if_neg hn
      exact iff_of_true (fun b' _ => (hnone b').trans (hnone b).symm) (.inl rfl)
    | some volume =>
      rw [settled_getvolparmsReply_iff (not_lt.mp hn), or_iff_right (by simp)]

/-- A session with AFP 2.2 that knows nothing else. -/
def AfpServerInfo.fresh : AfpServerInfo where
  usingVersion := some 22
  timeOffset := 0
  serverName := replicate afpServerNameLen 0
  serverNameUtf8 := replicate afpServerNameUtf8Len 0
  serverNamePrintable := []
  machineType := replicate 17 0
  icon := replicate afpServerIconLen 0
  signature := replicate afpSignatureLen 0
  flags := 0
  connectTime := 0
  supportedUams := 0
  versions := replicate serverMaxVersions 0
  numVolumes := 0
  volumes := []

/-- Four replies with leftovers in the session: a status of 34 octets
whose signature is behind them, parameters of a server that end with the
flags of a volume, and parameters of a volume that end with a bitmap, which
announces the attributes. -/
theorem leftovers_reach_session :
    (∃ b b', Agree 34 b b' ∧
      (afpcDsiGetstatusReply .little (fun _ old => old) .fresh b 34).signature ≠
        (afpcDsiGetstatusReply .little (fun _ old => old) .fresh b' 34).signature) ∧
    (∃ b b', Agree 22 b b' ∧
      (afpGetsrvrparmsReply .little 0 .fresh b 22).2.volumes.map AfpVolume.volumeName ≠
        (afpGetsrvrparmsReply .little 0 .fresh b' 22).2.volumes.map AfpVolume.volumeName) ∧
    (∃ b b', Agree 18 b b' ∧
      (afpVolopenReply .little (some fresh.toAfpClock) .zero b 18).2.attributes ≠
        (afpVolopenReply .little (some fresh.toAfpClock) .zero b' 18).2.attributes) ∧
    (∃ b b', Agree 18 b b' ∧
      (afpGetvolparmsReply (some fresh.toAfpClock) (some .zero) b 18).2.map
          AfpVolume.attributes ≠
        (afpGetvolparmsReply (some fresh.toAfpClock) (some .zero) b' 18).2.map
          AfpVolume.attributes) := by
  refine ⟨⟨replicate 29 0 ++ [18, 0, 0, 0, 0], replicate 29 0 ++ [18, 0, 0, 0, 0, 1], ?_⟩,
    ⟨replicate 20 0 ++ [1, 0], replicate 20 0 ++ [1, 0, 1, 0x41], ?_⟩,
    ⟨replicate 16 0 ++ [0, 1], replicate 16 0 ++ [0, 1, 0, 0x40], ?_⟩,
    ⟨replicate 16 0 ++ [0, 1], replicate 16 0 ++ [0, 1, 0, 0x40], ?_⟩⟩
  · exact ⟨by decide, by decide⟩
  · exact ⟨by decide, by decide⟩
  · exact ⟨by decide, by decide⟩
  · exact ⟨by decide, by decide⟩

end NetatalkClient
