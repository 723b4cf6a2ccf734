import NetatalkClient.Daemon.LogTrailer
import NetatalkClient.Daemon.IpcStream
import NetatalkClient.Daemon.Model.Metadata
import NetatalkClient.Midlevel.Helpers.Metadata
/-!
# Helpers: a metadata request and its answer

The daemon reads from a request what the client put into it, and a request
with what the library accepts passes the daemon's checks. The client reads
from an answer what the daemon put into it, in whatever pieces it comes and
whatever messages are behind it.
-/

namespace NetatalkClient

open Octets List Wakeup

/-! ## The request -/

theorem MetadataCommand.ofCode_code (command : MetadataCommand) :
    (Command.ofCode command.code).bind ofCommand = some command := by
  cases command <;> rfl

/-- The commands whose requests carry octets of a value. -/
def MetadataCommand.SendsData (command : MetadataCommand) : Prop :=
  command = .setxattr ∨ command = .setfinderinfo ∨ command = .setresourcefork

instance (command : MetadataCommand) : Decidable command.SendsData :=
  inferInstanceAs (Decidable (_ ∨ _))

theorem payloadLimit_le (command : Option MetadataCommand) :
    payloadLimit command ≤ afpSlXattrListMax := by
  unfold payloadLimit
  split
  · exact le_rfl
  · decide

/-- What the client puts into a request. -/
structure MetadataFields where
  command : MetadataCommand
  volid : ℕ
  path : Octets
  name : Octets
  data : Octets
  size : ℕ
  offset : ℕ
  flags : ℕ

namespace MetadataFields

def packet (r : MetadataFields) : Octets :=
  metadataRequest r.command r.volid r.path r.name r.data r.size r.offset r.flags

/-- The library accepts what is put into a request. -/
structure Accepted (r : MetadataFields) : Prop where
  volid_lt : r.volid < 18446744073709551616
  offset_lt : r.offset < 18446744073709551616
  size_le : r.size ≤ payloadLimit (some r.command)
  data_eq : r.data.length = if r.command.SendsData then r.size else 0
  path_noNul : 0 ∉ r.path
  path_le : r.path.length ≤ afpcMaxUtf8PathBytes
  name_noNul : 0 ∉ r.name
  name_lt : r.name.length < 256
  named : namesXattr (some r.command) = true → r.name ≠ []
  finderinfo : r.command = .setfinderinfo → r.size = 32
  flags_mem : r.flags ∈ [0, kXAttrCreate, kXAttrReplace]
  resource_le : r.command = .setresourcefork → r.offset + r.size ≤ intMax
  truncate_le : r.command = .truncateresourcefork → r.offset ≤ intMax

variable {r : MetadataFields}

theorem length_packet (r : MetadataFields) : r.packet.length =
    ipcMetadataBase + r.path.length + 1 + r.name.length + 1 + r.data.length := by
  simp [packet, metadataRequest, ipcMetadataBase]
  omega

theorem command_packet (r : MetadataFields) : MetadataPacket.command r.packet = some r.command := by
  have hbyte : r.packet.byte 0 = r.command.code := by
    show (UInt8.ofNat r.command.code).toNat = r.command.code
    cases r.command <;> rfl
  rw [MetadataPacket.command, Packet.command, hbyte, MetadataCommand.ofCode_code]

theorem path_packet (r : MetadataFields) :
    MetadataPacket.path r.packet = r.path ++ (0 :: (r.name ++ (0 :: r.data))) := rfl

namespace Accepted

variable (h : r.Accepted)

include h

theorem data_le : r.data.length ≤ afpSlMetadataChunk := by
  have hsize := h.size_le
  rw [h.data_eq]
  split
  · next hsends =>
    have hlist : r.command ≠ .listxattr := fun hc => absurd (hc ▸ hsends) (by decide)
    rwa [payloadLimit, if_neg (fun hc => hlist (Option.some.inj hc))] at hsize
  · exact Nat.zero_le _

theorem size_lt : r.size < 4294967296 := by
  exact lt_of_le_of_lt (le_trans h.size_le (payloadLimit_le _)) (by decide)

theorem flags_lt : r.flags < 4294967296 := by
  have hflags := h.flags_mem
  simp only [mem_cons, not_mem_nil, or_false, kXAttrCreate, kXAttrReplace] at hflags
  omega

theorem length_le : r.packet.length ≤ afpslIpcMaxRequest := by
  have hpath := h.path_le
  have hname := h.name_lt
  have hdata := h.data_le
  rw [length_packet]
  simp only [ipcMetadataBase, afpcMaxUtf8PathBytes, afpSlMetadataChunk, afpslIpcMaxRequest]
    at hpath hdata ⊢
  omega

theorem len_packet : Packet.len r.packet = r.packet.length := by
  have hle := h.length_le
  rw [length_packet] at hle ⊢
  unfold Packet.len packet metadataRequest
  simp only [cons_append, nil_append, le32_skip_cons]
  exact le32_le32Octets_append _ (lt_of_le_of_lt hle (by decide))

/-- The daemon takes the request for a whole one. -/
theorem ipcFrame : IpcFrame r.packet where
  header_le := by
    rw [length_packet]
    simp only [ipcMetadataBase, ipcHeaderSize]
    omega
  len_eq := h.len_packet
  len_le := h.length_le

/-- The members of the request, as the daemon reads them. -/
theorem members_packet : MetadataPacket.volumeid r.packet = r.volid ∧
    MetadataPacket.offset r.packet = r.offset ∧ MetadataPacket.size r.packet = r.size ∧
    MetadataPacket.flags r.packet = r.flags ∧
    MetadataPacket.pathLen r.packet = r.path.length ∧
    MetadataPacket.nameLen r.packet = r.name.length := by
  simp only [MetadataPacket.volumeid, MetadataPacket.offset, MetadataPacket.size,
    MetadataPacket.flags, MetadataPacket.pathLen, MetadataPacket.nameLen, packet, metadataRequest,
    cons_append, nil_append, le32_skip_cons, le64_skip_cons, le32_skip_le32Octets,
    le64_skip_le32Octets, le32_skip_le64Octets, le64_skip_le64Octets]
  exact ⟨le64_le64Octets_append _ h.volid_lt, le64_le64Octets_append _ h.offset_lt,
    le32_le32Octets_append _ h.size_lt, le32_le32Octets_append _ h.flags_lt,
    le32_le32Octets_append _ (lt_of_le_of_lt h.path_le (by decide)),
    le32_le32Octets_append _ (lt_trans h.name_lt (by decide))⟩

theorem volumeid_packet : MetadataPacket.volumeid r.packet = r.volid := h.members_packet.1

theorem offset_packet : MetadataPacket.offset r.packet = r.offset := h.members_packet.2.1

theorem size_packet : MetadataPacket.size r.packet = r.size := h.members_packet.2.2.1

theorem flags_packet : MetadataPacket.flags r.packet = r.flags := h.members_packet.2.2.2.1

theorem pathLen_packet : MetadataPacket.pathLen r.packet = r.path.length :=
  h.members_packet.2.2.2.2.1

theorem nameLen_packet : MetadataPacket.nameLen r.packet = r.name.length :=
  h.members_packet.2.2.2.2.2

theorem name_packet : MetadataPacket.name r.packet = r.name ++ (0 :: r.data) := by
  rw [MetadataPacket.name, h.pathLen_packet, add_assoc, ← drop_drop]
  show (MetadataPacket.path r.packet).drop (r.path.length + 1) = _
  rw [path_packet, ← drop_drop, drop_left]
  rfl

theorem data_packet : MetadataPacket.data r.packet = r.data := by
  rw [MetadataPacket.data, h.nameLen_packet, add_assoc, ← drop_drop]
  show (MetadataPacket.name r.packet).drop (r.name.length + 1) = _
  rw [h.name_packet, ← drop_drop, drop_left]
  rfl

/-- **The request passes the checks of the daemon.** -/
theorem checkMetadata_packet : checkMetadata r.packet = none := by
  have hlen := length_packet r
  have hpath : (MetadataPacket.path r.packet).byte r.path.length = 0 := byte_append_right r.path _ 0
  have hname : (MetadataPacket.name r.packet).byte r.name.length = 0 := by
    rw [h.name_packet]
    exact byte_append_right r.name _ 0
  have hsent : (if r.command = .setxattr ∨ r.command = .setfinderinfo ∨
      r.command = .setresourcefork then r.size else 0) = r.data.length := h.data_eq.symm
  have hempty : ¬(namesXattr (some r.command) = true ∧
      (MetadataPacket.name r.packet).byte 0 = 0) := by
    rintro ⟨hnames, hzero⟩
    obtain ⟨o, os, hcons⟩ := exists_cons_of_ne_nil (h.named hnames)
    rw [h.name_packet, hcons] at hzero
    exact h.name_noNul (hcons ▸ mem_cons.mpr (.inl (UInt8.toNat_inj.mp hzero.symm)))
  have hset : ¬(r.command = .setresourcefork ∧
      (intMax < r.offset ∨ intMax - r.offset < r.size)) := by
    rintro ⟨hcommand, hover⟩
    have := h.resource_le hcommand
    omega
  have hpathLe : r.path.length ≤ 65535 := h.path_le
  have hnameLt := h.name_lt
  have hsizeLe := h.size_le
  unfold checkMetadata
  simp only [command_packet, h.offset_packet, h.size_packet, h.flags_packet, h.pathLen_packet,
    h.nameLen_packet, h.len_packet, hpath, hname, Option.some.injEq]
  rw [hsent, ← hlen, if_neg (by omega), if_neg (by simp only [afpMaxUtf8PathStorage]; omega),
    if_neg (by omega), if_neg (by omega), if_neg hempty,
    if_neg (fun hc => hc.2 (h.finderinfo hc.1)), if_neg (fun hc => hc.2 h.flags_mem), if_neg hset,
    if_neg (fun hc => not_lt.mpr (h.truncate_le hc.1) hc.2)]

end Accepted

end MetadataFields

/-! ## The answer -/

/-- A round that brings octets, or whose read is interrupted. -/
def Wakeup.Steady : Wakeup → Prop
  | .timeout => False
  | .selectFailed _ => False
  | .readFailed interrupted => interrupted = true
  | .ready run => run ≠ []

/-- A response is on its way to a client that waits for it: in some pieces,
and with some messages behind it. -/
def Arrives (content : Octets) (ws : List Wakeup) : Prop :=
  (∀ w ∈ ws, w.Steady) ∧
    ∃ ms, frameResponse true (outgoingString ms) content = some (pending ws)

variable {ws : List Wakeup} {error : ℤ} {reportedSize : ℕ}

theorem readBytesWithTimeout_steady {len : ℕ} (h : ∀ w ∈ ws, w.Steady)
    (hlen : len ≤ (pending ws).length) :
    ∃ left, readBytesWithTimeout len ws = some ((pending ws).take len, left) ∧
      (∀ w ∈ left, w.Steady) ∧ pending left = (pending ws).drop len := by
  induction ws generalizing len with
  | nil =>
    obtain rfl : len = 0 := Nat.le_zero.mp hlen
    exact ⟨[], rfl, h, rfl⟩
  | cons w rest ih =>
    obtain ⟨hw, hrest⟩ := forall_mem_cons.mp h
    rcases Nat.eq_zero_or_pos len with rfl | hpos
    · exact ⟨w :: rest, rfl, h, rfl⟩
    rw [readBytesWithTimeout.eq_def]
    dsimp only
    rw [if_neg (Nat.pos_iff_ne_zero.mp hpos)]
    cases w with
    | timeout => exact hw.elim
    | selectFailed interrupted => exact hw.elim
    | readFailed interrupted =>
      obtain ⟨left, hread, hleft⟩ := ih hrest hlen
      refine ⟨left, ?_, hleft⟩
      dsimp only
      rw [if_pos (show interrupted = true from hw)]
      exact hread
    | ready run =>
      dsimp only
      rw [if_neg (show run ≠ [] from hw)]
      rw [pending] at hlen ⊢
      split
      · next hlt =>
        refine ⟨.ready (run.drop len) :: rest, ?_, ?_, ?_⟩
        · rw [take_append_of_le_length (le_of_lt hlt)]
        · refine forall_mem_cons.mpr ⟨fun hnil => ?_, hrest⟩
          rw [drop_eq_nil_iff] at hnil
          omega
        · rw [pending, drop_append_of_le_length (le_of_lt hlt)]
      · next hge =>
        rw [not_lt] at hge
        rw [length_append] at hlen
        obtain ⟨left, hread, hsteady, hpend⟩ := @ih (len - run.length) hrest (by omega)
        refine ⟨left, ?_, hsteady, ?_⟩
        · rw [hread]
          dsimp only
          rw [take_append, take_of_length_le hge]
        · rw [hpend, drop_append, drop_eq_nil_iff.mpr hge, nil_append]

theorem length_metadataResponse (error : ℤ) (data : Octets) (reportedSize : ℕ) :
    (metadataResponse error data reportedSize).length = ipcMetadataResponseSize + data.length := by
  simp [metadataResponse, ipcMetadataResponseSize]
  omega

/-- An `int` is read back from the word it was stored in. -/
theorem toInt_status {ret : ℤ} (h : IsStatus ret) : toInt (ret % 4294967296).toNat = ret := by
  obtain ⟨hlow, hhigh⟩ := h
  simp only [intMax] at hlow
  simp only [toInt]
  split
  all_goals omega

theorem toInt_natCast {n : ℕ} (h : n ≤ intMax) : toInt n = n := if_pos (Nat.lt_succ_of_le h)

/-- The content of an answer. -/
def metadataContent (error : ℤ) (data : Octets) (reportedSize : ℕ)
    (h : data.length ≤ afpSlXattrListMax) : ResponseContent where
  data := metadataResponse error data reportedSize
  header_le := by
    rw [length_metadataResponse]
    exact le_trans (by decide) (Nat.le_add_right ipcMetadataResponseSize _)
  len_le := by
    rw [length_metadataResponse]
    exact le_trans (Nat.add_le_add_left h _) (by decide)

/-- The head of an answer, once its length is in it. -/
def metadataHead (total : ℕ) (error : ℤ) (reportedSize : ℕ) : Octets :=
  [0, 0, 0, 0] ++ (le32Octets total ++
    (le32Octets (error % 4294967296).toNat ++ le32Octets reportedSize))

theorem overwrite_metadataResponse (total : ℕ) (error : ℤ) (data : Octets) (reportedSize : ℕ) :
    (metadataResponse error data reportedSize).overwrite 4 (le32Octets total) =
      metadataHead total error reportedSize ++ data := overwrite_middle (a := [0, 0, 0, 0]) rfl

/-- The members of the head, as the client reads them. -/
theorem metadataHead_members {total : ℕ} (htotal : total < 4294967296)
    (herror : IsStatus error) (hreported : reportedSize ≤ intMax) :
    Response.len (metadataHead total error reportedSize) = total ∧
      toInt ((metadataHead total error reportedSize).le32 8) = error ∧
      (metadataHead total error reportedSize).le32 12 = reportedSize := by
  have hword : (error % 4294967296).toNat < 4294967296 := by omega
  have hlast : le32 (le32Octets reportedSize ++ []) 0 = reportedSize :=
    le32_le32Octets_append [] (lt_of_le_of_lt hreported (by decide))
  rw [append_nil] at hlast
  simp only [Response.len, metadataHead, cons_append, nil_append, le32_skip_cons,
    le32_skip_le32Octets]
  refine ⟨le32_le32Octets_append _ htotal, ?_, hlast⟩
  rw [le32_le32Octets_append _ hword, toInt_status herror]

/-- What the client finds: the head, what was read of the file, and the
messages with their footer. -/
theorem Arrives.pending_eq {data : Octets}
    (h : Arrives (metadataResponse error data reportedSize) ws)
    (hdata : data.length ≤ afpSlXattrListMax) :
    ∃ log, log.length ≤ afpslIpcLogBufferSize ∧ (dispatchLogs log).1 = 0 ∧
      pending ws =
        metadataHead (ipcMetadataResponseSize + data.length + (log.length + ipcLogFooterSize))
          error reportedSize ++ (data ++ (log ++ logFooter log.length)) := by
  obtain ⟨-, ms, hframe⟩ := h
  obtain ⟨hlog, hdispatch⟩ := outgoingString_dispatched ms
  refine ⟨outgoingString ms, hlog, by rw [hdispatch], ?_⟩
  generalize outgoingString ms = log at hlog hframe ⊢
  have htotal : (metadataResponse error data reportedSize ++ (log ++ logFooter log.length)).length =
      ipcMetadataResponseSize + data.length + (log.length + ipcLogFooterSize) := by
    rw [length_append, length_metadataResponse, length_append]
    rfl
  have hsent := Option.some.inj
    (hframe.symm.trans (frameResponse_eq (metadataContent error data reportedSize hdata) hlog))
  rw [hsent]
  show (metadataResponse error data reportedSize).overwrite 4 (le32Octets (metadataResponse error
    data reportedSize ++ (log ++ logFooter log.length)).length) ++ _ = _
  rw [htotal, overwrite_metadataResponse, append_assoc]

/-- **The client reads the answer that was sent.** What is read of the
file has to fit where it goes. -/
theorem readMetadata_arrives {limit size : ℕ} {value : Bool}
    {data : Octets} (h : Arrives (metadataResponse error data reportedSize) ws)
    (herror : IsStatus error) (hreported : reportedSize ≤ intMax)
    (hdata : data.length ≤ limit) (hlimit : limit ≤ afpSlXattrListMax)
    (hfits : 0 < data.length → reportedSize = data.length ∧ value = true ∧ data.length ≤ size) :
    readMetadata limit value size ws = (if error < 0 then error else reportedSize, data) := by
  obtain ⟨log, hlog, hdispatch, hpend⟩ := h.pending_eq (le_trans hdata hlimit)
  have hword : ipcMetadataResponseSize + data.length + (log.length + ipcLogFooterSize) <
      4294967296 := by
    simp only [ipcMetadataResponseSize, ipcLogFooterSize, afpSlXattrListMax,
      afpslIpcLogBufferSize] at hlimit hlog ⊢
    omega
  generalize htotal : ipcMetadataResponseSize + data.length + (log.length + ipcLogFooterSize) =
    total at hpend hword
  generalize hhead : metadataHead total error reportedSize = head at hpend
  have hheadLen : head.length = ipcMetadataResponseSize := by
    rw [← hhead]
    rfl
  have htailLen : (data ++ (log ++ logFooter log.length)).length =
      total - ipcMetadataResponseSize := by
    have hfooter : (logFooter log.length).length = ipcLogFooterSize := rfl
    rw [length_append, length_append, hfooter]
    omega
  obtain ⟨hlen, herr, hsize⟩ := hhead ▸ metadataHead_members hword herror hreported
  have hroom : ¬(0 < data.length ∧ (value = false ∨ size < data.length)) := by
    rintro ⟨hpos, hnone | hlt⟩
    · rw [(hfits hpos).2.1] at hnone
      cases hnone
    · exact absurd (hfits hpos).2.2 (not_le.mpr hlt)
  -- the head
  obtain ⟨rest, hread, hrest, hleft⟩ :=
    readBytesWithTimeout_steady h.1 (show ipcMetadataResponseSize ≤ _ by
      rw [hpend, length_append]
      omega)
  rw [hpend, take_left' hheadLen] at hread
  rw [hpend, drop_left' hheadLen] at hleft
  -- the rest
  obtain ⟨rest', hread', -⟩ :=
    readBytesWithTimeout_steady hrest (show total - ipcMetadataResponseSize ≤ _ by
      rw [hleft, htailLen])
  rw [hleft, ← htailLen, take_length, htailLen] at hread'
  unfold readMetadata
  rw [hread]
  dsimp only
  rw [hlen, herr, hsize, if_neg (by omega), hread']
  dsimp only
  rw [responseContentLength_footer hlog, dispatchResponseLogs_footer hlog, hdispatch]
  dsimp only
  rw [if_neg (lt_irrefl 0), if_neg (fun hc => hc.2 (hfits hc.1).1), if_neg hroom,
    toInt_natCast hreported, take_left]
  split
  · rfl
  · rfl

end NetatalkClient
