import NetatalkClient.Afp.Model.SetParms
import NetatalkClient.Codepage.WireNames
/-!
# What a request to set parameters says

A request is read as it was meant, path and fields, for every choice of
fields: a block of fields is a block that encodes some entry, and those
are read as the entry. The one entry that is not the one meant is that of
the attributes, since one octet of them is stored. `setparms_read_iff`
says for which attributes that makes no difference.
-/

namespace NetatalkClient

open Octets

/-! ## Dates -/

/-- A date that 32 bits can say. -/
def Representable (server : Option AfpClock) (date : ℤ) : Prop :=
  -0x80000000 ≤ afpSeconds server date ∧ afpSeconds server date < 0x80000000

instance (server : Option AfpClock) (date : ℤ) : Decidable (Representable server date) :=
  inferInstanceAs (Decidable (_ ∧ _))

theorem afpDateFromUnix_lt (server : Option AfpClock) (date : ℤ) :
    afpDateFromUnix server date < 4294967296 := by
  unfold afpDateFromUnix
  omega

variable {server : Option AfpClock} {pathname name : Octets} {bitmap : ℕ} {host : ByteOrder}

theorem afpDateToUnix_afpDateFromUnix {date : ℤ} (h : Representable server date) :
    afpDateToUnix server (afpDateFromUnix server date) = date := by
  have hseconds : (if afpDateFromUnix server date < 0x80000000
      then (afpDateFromUnix server date : ℤ)
      else (afpDateFromUnix server date : ℤ) - 0x100000000) = afpSeconds server date := by
    obtain ⟨hlow, hhigh⟩ := h
    unfold afpDateFromUnix
    split <;> omega
  rw [afpDateToUnix, hseconds]
  unfold afpSeconds
  cases serverUsesLocalTime server with
  | false =>
    simp only [Bool.false_eq_true, if_false]
    omega
  | true =>
    simp only [if_true]
    omega

/-! ## The path -/

/-- The longest path that the length before it can say. -/
def maxPathLength : PathEncoding → ℕ
  | .kFPUTF8Name => 65535
  | .kFPLongName => 255
  | .other => 0

theorem separatorFromAfp_separatorToAfp {c : UInt8} (h : c ≠ 0) :
    separatorFromAfp (separatorToAfp c) = c := by
  unfold separatorFromAfp separatorToAfp
  split_ifs <;> simp_all

theorem map_separatorFromAfp (h : 0 ∉ pathname) :
    (pathname.map separatorToAfp).map separatorFromAfp = pathname := by
  rw [List.map_map]
  refine (List.map_congr_left fun c hc => ?_).trans (List.map_id pathname)
  exact separatorFromAfp_separatorToAfp fun hzero => h (hzero ▸ hc)

theorem unixpathToAfppath_copyPath_long (h : name.length < 256) :
    unixpathToAfppath .kFPLongName (copyPath .kFPLongName name name.length) =
      [2, UInt8.ofNat name.length] ++ name.map separatorToAfp := by
  have hlen : min name.length 255 = name.length := by omega
  have hfield : (copyPath .kFPLongName name name.length).byte 1 = name.length := by
    simp only [copyPath, hlen, byte, List.cons_append, List.getD_cons_succ, List.getD_cons_zero]
    exact toNat_ofNat h
  rw [unixpathToAfppath, hfield]
  simp only [copyPath, hlen, window_length, List.cons_append, List.nil_append,
    List.take_succ_cons, List.take_zero, List.drop_succ_cons, List.drop_zero, List.take_length,
    List.drop_length, List.append_nil]

/-- What stands behind either header is read, as long as the header says. -/
theorem readPath_header {header : Octets} (rest : Octets)
    (h : byte (header ++ (name ++ rest)) 0 = 3 ∧ be16 (header ++ (name ++ rest)) 5 = name.length ∧
        header.length = 7 ∨
      byte (header ++ (name ++ rest)) 0 = 2 ∧ byte (header ++ (name ++ rest)) 1 = name.length ∧
        header.length = 2) :
    readPath (header ++ (name ++ rest)) =
      some (name.map separatorFromAfp, header.length + name.length) := by
  have hown := octetsAt_append header name rest
  have hin : header.length + name.length ≤ (header ++ (name ++ rest)).length := by
    simp only [List.length_append]
    omega
  rcases h with ⟨htype, hfield, hlen⟩ | ⟨htype, hfield, hlen⟩
  · rw [hlen] at hown hin
    rw [readPath, htype, hfield, if_pos rfl, if_pos rfl, if_pos ⟨.inl rfl, hin⟩, hown, hlen]
  · rw [hlen] at hown hin
    rw [readPath, htype, hfield, if_neg (by decide : ¬ 2 = 3), if_neg (by decide : ¬ 2 = 3),
      if_pos ⟨.inr rfl, hin⟩, hown, hlen]

/-- A path is as long as `sizeof_path_header` and `strlen` say, and is read
back from what stands there. -/
theorem readPath_copyPath {encoding : PathEncoding}
    (hencoding : encoding ≠ .other) (hlen : pathname.length ≤ maxPathLength encoding)
    (hzero : 0 ∉ pathname) (rest : Octets) :
    (unixpathToAfppath encoding (copyPath encoding pathname pathname.length)).length =
        sizeofPathHeader encoding + pathname.length ∧
      readPath (unixpathToAfppath encoding (copyPath encoding pathname pathname.length) ++ rest) =
        some (pathname, sizeofPathHeader encoding + pathname.length) := by
  have hback := map_separatorFromAfp hzero
  cases encoding with
  | other => exact absurd rfl hencoding
  | kFPUTF8Name =>
    rw [maxPathLength] at hlen
    rw [unixpathToAfppath_copyPath (by omega), List.append_assoc, readPath_header, hback]
    · rw [List.length_append, List.length_map]
      exact ⟨rfl, rfl⟩
    · refine .inl ⟨rfl, ?_, rfl⟩
      simp only [be16, byte, List.cons_append, List.getD_cons_succ, List.getD_cons_zero,
        toNat_ofNat (show pathname.length / 256 < 256 by omega),
        toNat_ofNat (show pathname.length % 256 < 256 by omega), List.length_map]
      omega
  | kFPLongName =>
    rw [maxPathLength] at hlen
    rw [unixpathToAfppath_copyPath_long (by omega), List.append_assoc, readPath_header, hback]
    · rw [List.length_append, List.length_map]
      exact ⟨rfl, rfl⟩
    · refine .inr ⟨rfl, ?_, rfl⟩
      rw [List.length_map]
      exact toNat_ofNat (by omega)

/-! ## The fields -/

/-- The bits of the fields that the function knows. -/
def settableBits : ℕ :=
  kFPAttributeBit ||| kFPCreateDateBit ||| kFPModDateBit ||| kFPBackupDateBit |||
    kFPFinderInfoBit ||| kFPUnixPrivsBit

theorem land_eq_zero_of_settable {bit : ℕ} (h : bitmap &&& settableBits = bitmap)
    (hbit : settableBits &&& bit = 0) : bitmap &&& bit = 0 := by
  rw [← h, Nat.land_assoc, hbit, Nat.and_zero]

/-- The values of the announced fields are values of their C types, and
the dates among them can be said. -/
structure Settable (server : Option AfpClock) (bitmap : ℕ) (fp : AfpFileInfo) : Prop where
  bits : bitmap &&& settableBits = bitmap
  attributes : fp.attributes < 65536
  creationDate : bitmap &&& kFPCreateDateBit ≠ 0 → Representable server fp.creationDate
  modificationDate : bitmap &&& kFPModDateBit ≠ 0 → Representable server fp.modificationDate
  backupDate : bitmap &&& kFPBackupDateBit ≠ 0 → Representable server fp.backupDate
  finderinfo : fp.finderinfo.length = 32
  uid : fp.unixprivs.uid < 4294967296
  gid : fp.unixprivs.gid < 4294967296
  permissions : fp.unixprivs.permissions < 4294967296
  uaPermissions : fp.unixprivs.uaPermissions < 4294967296

/-- The entry whose fields are written. -/
def writtenEntry (host : ByteOrder) (server : Option AfpClock) (isdir : Bool) (fp : AfpFileInfo)
    (h : fp.finderinfo.length = 32) : Entry where
  isdir
  attributes := UInt16.ofNat (storedAttributes host fp.attributes).value
  parentDirID := 0
  createDate := UInt32.ofNat (afpDateFromUnix server fp.creationDate)
  modDate := UInt32.ofNat (afpDateFromUnix server fp.modificationDate)
  backupDate := UInt32.ofNat (afpDateFromUnix server fp.backupDate)
  finderInfo := ⟨fp.finderinfo.toArray, by simpa using h⟩
  longName := []
  longName_le := Nat.zero_le _
  nodeID := 0
  offspringCount := 0
  ownerID := 0
  groupID := 0
  accessRights := 0
  dataForkLen := 0
  rsrcForkLen := 0
  extDataForkLen := 0
  launchLimit := 0
  utf8Name := []
  utf8Name_le := Nat.zero_le _
  extRsrcForkLen := 0
  uid := UInt32.ofNat fp.unixprivs.uid
  gid := UInt32.ofNat fp.unixprivs.gid
  permissions := UInt32.ofNat fp.unixprivs.permissions
  uaPermissions := UInt32.ofNat fp.unixprivs.uaPermissions

theorem toNat_uint32 {n : ℕ} (h : n < 4294967296) : (UInt32.ofNat n).toNat = n := by
  rw [UInt32.toNat_ofNat', Nat.mod_eq_of_lt h]

theorem value_storedAttributes_lt (host : ByteOrder) (attributes : ℕ) :
    (storedAttributes host attributes).value < 65536 := value_lt _

theorem toNat_writtenEntry_attributes (host : ByteOrder) (server : Option AfpClock) (isdir : Bool)
    (fp : AfpFileInfo) (h : fp.finderinfo.length = 32) :
    (writtenEntry host server isdir fp h).attributes.toNat =
      (storedAttributes host fp.attributes).value := by
  rw [writtenEntry, UInt16.toNat_ofNat', Nat.mod_eq_of_lt (value_storedAttributes_lt host _)]

/-- The fields of files or directories only are never set. -/
theorem assemble_middle (h : bitmap &&& settableBits = bitmap) (e : Entry) :
    assemble bitmap (if e.isdir then dirPieces e else filePieces e) = [] := by
  have hbits : (if e.isdir then dirPieces e else filePieces e).map Piece.bit =
      [0x200, 0x400, 0x800, 0x1000] := by
    split <;> rfl
  have hnone : ∀ bit ∈ [0x200, 0x400, 0x800, 0x1000], settableBits &&& bit = 0 := by decide
  refine assemble_eq_nil fun w hw => land_eq_zero_of_settable h (hnone w.bit ?_)
  rw [← hbits]
  exact List.mem_map_of_mem hw

/-- The fields are a block of that entry. -/
theorem encodesBlock_setparmsFields
    {fp : AfpFileInfo} (isdir : Bool) (h : Settable server bitmap fp) :
    EncodesBlock bitmap (writtenEntry host server isdir fp h.finderinfo)
      (setparmsFields host server bitmap fp) := by
  have hclear : ∀ bit, settableBits &&& bit = 0 → bitmap &&& bit = 0 := fun bit =>
    land_eq_zero_of_settable h.bits
  refine ⟨⟨0, 0, 0, .replicate 4 0⟩, [], ?_, fun hne => ?_, fun hne => ?_⟩
  · have hattributes : padded 2 (storedAttributes host fp.attributes).value =
        storedAttributes host fp.attributes := padded_value (storedAttributes host fp.attributes)
    rw [List.append_nil, entryPieces, assemble_append, assemble_append, assemble_middle h.bits]
    simp only [firstPieces, lastPieces, numberPiece, assemble_cons, hclear kFPParentDirIDBit rfl,
      hclear kFPLongNameBit rfl, hclear kFPShortNameBit rfl, hclear kFPNodeIDBit rfl,
      hclear kFPUTF8NameBit rfl, hclear kFPExtRsrcForkLenBit rfl, toNat_writtenEntry_attributes,
      hattributes, ne_eq, not_true_eq_false, if_false, List.nil_append, List.append_nil]
    simp only [writtenEntry, toNat_uint32 (afpDateFromUnix_lt server _), toNat_uint32 h.uid,
      toNat_uint32 h.gid, toNat_uint32 h.permissions, toNat_uint32 h.uaPermissions]
    simp [setparmsFields, assemble]
  · exact absurd (hclear kFPLongNameBit rfl) hne
  · exact absurd (hclear kFPUTF8NameBit rfl) hne

/-! ## The request -/

/-- A request that asks for what was given: the object, the bitmap, and
the value of each announced field. -/
structure SetparmsRequest.Carries (r : SetparmsRequest) (volume : SetparmsVolume) (dirid : UInt32)
    (pathname : Octets) (bitmap : UInt16) (fp : AfpFileInfo) (command : UInt8) : Prop where
  command_eq : r.command = command.toNat
  volid_eq : r.volid = volume.volid.toNat
  dirid_eq : r.dirid = dirid.toNat
  bitmap_eq : r.bitmap = bitmap.toNat
  pathname_eq : r.pathname = pathname
  attributes_eq : bitmap.toNat &&& kFPAttributeBit ≠ 0 → r.filecur.attributes = fp.attributes
  creationDate_eq : bitmap.toNat &&& kFPCreateDateBit ≠ 0 →
    r.filecur.creationDate = fp.creationDate
  modificationDate_eq : bitmap.toNat &&& kFPModDateBit ≠ 0 →
    r.filecur.modificationDate = fp.modificationDate
  backupDate_eq : bitmap.toNat &&& kFPBackupDateBit ≠ 0 → r.filecur.backupDate = fp.backupDate
  finderinfo_eq : bitmap.toNat &&& kFPFinderInfoBit ≠ 0 → r.filecur.finderinfo = fp.finderinfo
  unixprivs_eq : bitmap.toNat &&& kFPUnixPrivsBit ≠ 0 → r.filecur.unixprivs = fp.unixprivs

theorem length_setparmsHeader (dsiHeader : Vector UInt8 16) (command : UInt8) (volid : UInt16)
    (dirid : UInt32) (bitmap : UInt16) :
    (setparmsHeader dsiHeader command volid dirid bitmap).length = setparmsHeaderSize := by
  simp [setparmsHeader, setparmsHeaderSize]

/-- The structure is read as it was filled in. -/
theorem setparmsHeader_read (dsiHeader : Vector UInt8 16) (command : UInt8) (volid : UInt16)
    (dirid : UInt32) (bitmap : UInt16) (rest : Octets) :
    (setparmsHeader dsiHeader command volid dirid bitmap ++ rest).byte 16 = command.toNat ∧
      (setparmsHeader dsiHeader command volid dirid bitmap ++ rest).be16 18 = volid.toNat ∧
      (setparmsHeader dsiHeader command volid dirid bitmap ++ rest).be32 20 = dirid.toNat ∧
      (setparmsHeader dsiHeader command volid dirid bitmap ++ rest).be16 24 = bitmap.toNat := by
  have hdsi : dsiHeader.toList.length = 16 := by simp
  unfold setparmsHeader
  refine ⟨?_, ?_, ?_, ?_⟩
  · have hfront := byte_append_right dsiHeader.toList ([command, 0] ++ (padded 2 volid.toNat ++
      (padded 4 dirid.toNat ++ padded 2 bitmap.toNat)) ++ rest) 0
    rw [hdsi] at hfront
    rw [List.append_assoc]
    exact hfront
  · rw [← List.append_assoc, List.append_assoc, List.append_assoc (padded 2 _)]
    exact be16_append_padded _ _ volid.toNat_lt (by simp)
  · rw [← List.append_assoc, ← List.append_assoc, List.append_assoc, List.append_assoc (padded 4 _)]
    exact be32_append_padded _ _ dirid.toNat_lt (by simp)
  · rw [← List.append_assoc, ← List.append_assoc, ← List.append_assoc, List.append_assoc]
    exact be16_append_padded _ _ bitmap.toNat_lt (by simp)

section
variable {volume : SetparmsVolume} {pathname : Octets} {bitmap : UInt16} {fp : AfpFileInfo}

/-- The fields are read from where they start. -/
theorem parseReplyBlock_setparmsFields (host : ByteOrder)
    (h : Settable volume.server bitmap.toNat fp) (isdir : Bool) :
    parseReplyBlock volume.server (setparmsFields host volume.server bitmap.toNat fp)
        (setparmsFields host volume.server bitmap.toNat fp).length (if isdir then 0x80 else 0)
        bitmap.toNat bitmap.toNat =
      .ok ((writtenEntry host volume.server isdir fp h.finderinfo).shown volume.server
        bitmap.toNat) := by
  have hfields : EncodesBlock ((writtenEntry host volume.server isdir fp h.finderinfo).bitmap
      bitmap.toNat bitmap.toNat) (writtenEntry host volume.server isdir fp h.finderinfo)
      (setparmsFields host volume.server bitmap.toNat fp) := by
    rw [Entry.bitmap, ite_self]
    exact encodesBlock_setparmsFields isdir h
  have hflag : (writtenEntry host volume.server isdir fp h.finderinfo).flag.toNat =
      if isdir then 0x80 else 0 := by
    cases isdir <;> rfl
  have hblock : parseReplyBlock volume.server _ _ _ bitmap.toNat bitmap.toNat = .ok _ :=
    parseReplyBlock_encoded hfields
  rwa [hflag, Entry.bitmap, ite_self] at hblock

/-- The request that is read from what was sent. -/
theorem readSetparms_sent (host : ByteOrder) (dsiHeader : Vector UInt8 16) (dirid : UInt32)
    (command : UInt8) (hencoding : volume.pathEncoding ≠ .other)
    (hlen : pathname.length ≤ maxPathLength volume.pathEncoding) (hzero : 0 ∉ pathname)
    (h : Settable volume.server bitmap.toNat fp) (isdir : Bool) :
    readSetparms volume.server isdir
        (afpSetparmsLowlevel host volume dsiHeader dirid pathname bitmap fp command) =
      some ⟨command.toNat, volume.volid.toNat, dirid.toNat, bitmap.toNat, pathname,
        (writtenEntry host volume.server isdir fp h.finderinfo).shown volume.server
          bitmap.toNat⟩ := by
  obtain ⟨hpathlen, hpath⟩ := readPath_copyPath hencoding hlen hzero
    (List.replicate ((setparmsHeaderSize + (sizeofPathHeader volume.pathEncoding +
      pathname.length)) % 2) 0 ++ setparmsFields host volume.server bitmap.toNat fp)
  have hwindow := window_length
    (unixpathToAfppath volume.pathEncoding (copyPath volume.pathEncoding pathname pathname.length))
  have hblock := parseReplyBlock_setparmsFields host h isdir
  rw [hpathlen] at hwindow
  rw [afpSetparmsLowlevel, hwindow]
  generalize unixpathToAfppath volume.pathEncoding (copyPath volume.pathEncoding pathname
    pathname.length) = path at hpathlen hpath ⊢
  generalize sizeofPathHeader volume.pathEncoding + pathname.length = pathlen at hpathlen hpath ⊢
  generalize setparmsFields host volume.server bitmap.toNat fp = fields at hpath hblock ⊢
  -- the fields stand behind a front of even length
  have hheader := length_setparmsHeader dsiHeader command volume.volid dirid bitmap
  have hfront : (setparmsHeader dsiHeader command volume.volid dirid bitmap ++ (path ++
      List.replicate ((setparmsHeaderSize + pathlen) % 2) 0)).length =
      setparmsHeaderSize + pathlen + (setparmsHeaderSize + pathlen) % 2 := by
    simp only [List.length_append, List.length_replicate, hheader, hpathlen]
    omega
  obtain ⟨hcommand, hvolid, hdirid, hbitmap⟩ := setparmsHeader_read dsiHeader command volume.volid
    dirid bitmap (path ++ (List.replicate ((setparmsHeaderSize + pathlen) % 2) 0 ++ fields))
  rw [readSetparms, hcommand, hvolid, hdirid, hbitmap, List.drop_left' hheader, hpath]
  dsimp only
  rw [← List.append_assoc path, ← List.append_assoc (setparmsHeader _ _ _ _ _),
    List.drop_left' hfront, List.length_append, hfront, Nat.add_sub_cancel_left, hblock]

end

/-! ## The attributes -/

/-- The attributes of which the stored octet says all. -/
def KeptByStore (host : ByteOrder) (attributes : ℕ) : Prop :=
  match host with
  | .little => attributes % 256 = 0
  | .big => attributes = 0

theorem value_storedAttributes (host : ByteOrder) (attributes : ℕ) :
    (storedAttributes host attributes).value = htons host attributes % 256 * 256 := by
  have hoctet : (UInt8.ofNat (htons host attributes)).toNat = htons host attributes % 256 :=
    UInt8.toNat_ofNat'
  simp only [storedAttributes, value, List.foldl_cons, List.foldl_nil, hoctet, UInt8.toNat_zero,
    Nat.zero_mul, zero_add, add_zero]

theorem value_storedAttributes_eq_iff {attributes : ℕ} (h : attributes < 65536) :
    (storedAttributes host attributes).value = attributes ↔ KeptByStore host attributes := by
  rw [value_storedAttributes]
  cases host with
  | little =>
    unfold KeptByStore htons
    dsimp only
    omega
  | big =>
    unfold KeptByStore htons
    dsimp only
    omega

/-- **A request is read as it was meant**, unless it sets attributes that
the stored octet does not carry. -/
theorem setparms_read_iff (host : ByteOrder) (volume : SetparmsVolume)
    (dsiHeader : Vector UInt8 16) (dirid : UInt32) (pathname : Octets) (bitmap : UInt16)
    (fp : AfpFileInfo) (command : UInt8) (isdir : Bool)
    (hencoding : volume.pathEncoding ≠ .other)
    (hlen : pathname.length ≤ maxPathLength volume.pathEncoding) (hzero : 0 ∉ pathname)
    (h : Settable volume.server bitmap.toNat fp) :
    (∃ r, readSetparms volume.server isdir
        (afpSetparmsLowlevel host volume dsiHeader dirid pathname bitmap fp command) = some r ∧
      r.Carries volume dirid pathname bitmap fp command) ↔
      (bitmap.toNat &&& kFPAttributeBit ≠ 0 → KeptByStore host fp.attributes) := by
  have hread := readSetparms_sent host dsiHeader dirid command hencoding hlen hzero h isdir
  have hattributes := toNat_writtenEntry_attributes host volume.server isdir fp h.finderinfo
  rw [hread, ← value_storedAttributes_eq_iff h.attributes]
  constructor
  · rintro ⟨r, hr, hcarries⟩ hbit
    cases hr
    have hsame := hcarries.attributes_eq hbit
    rwa [Entry.shown, if_pos hbit, hattributes] at hsame
  · intro hkept
    refine ⟨_, rfl, rfl, rfl, rfl, rfl, rfl, fun hbit => ?_, fun hbit => ?_, fun hbit => ?_,
      fun hbit => ?_, fun hbit => ?_, fun hbit => ?_⟩
    · exact (if_pos hbit).trans (hattributes.trans (hkept hbit))
    · refine (if_pos hbit).trans ?_
      rw [writtenEntry, toNat_uint32 (afpDateFromUnix_lt volume.server _)]
      exact afpDateToUnix_afpDateFromUnix (h.creationDate hbit)
    · refine (if_pos hbit).trans ?_
      rw [writtenEntry, toNat_uint32 (afpDateFromUnix_lt volume.server _)]
      exact afpDateToUnix_afpDateFromUnix (h.modificationDate hbit)
    · refine (if_pos hbit).trans ?_
      rw [writtenEntry, toNat_uint32 (afpDateFromUnix_lt volume.server _)]
      exact afpDateToUnix_afpDateFromUnix (h.backupDate hbit)
    · exact (if_pos hbit).trans (by simp [writtenEntry])
    · refine (if_pos hbit).trans ?_
      rw [writtenEntry, toNat_uint32 h.uid, toNat_uint32 h.gid, toNat_uint32 h.permissions,
        toNat_uint32 h.uaPermissions]

/-- A volume with UTF-8 names. -/
def setparmsVolume : SetparmsVolume := ⟨1, .kFPUTF8Name, some ⟨some 34, 0⟩⟩

/-- A date, a FinderInfo of zeros, and the permissions of a file. -/
def someParms (attributes : ℕ) : AfpFileInfo :=
  { AfpFileInfo.zero with
    attributes, creationDate := 1000000000, modificationDate := 1000000001, backupDate := 0,
    unixprivs := ⟨501, 20, 0o100644, 0⟩ }

/-- All fields at once, with attributes whose low octet is zero. -/
theorem setparms_read_all :
    ∃ r, readSetparms setparmsVolume.server false
        (afpSetparmsLowlevel .little setparmsVolume (.replicate 16 0) 2 [0x61] 0x803d
          (someParms 0x100) 35) = some r ∧
      r.Carries setparmsVolume 2 [0x61] 0x803d (someParms 0x100) 35 :=
  (setparms_read_iff .little setparmsVolume (.replicate 16 0) 2 [0x61] 0x803d (someParms 0x100) 35
    false (by decide) (by decide) (by decide)
    ⟨by decide, by decide, fun _ => by decide, fun _ => by decide, fun _ => by decide, by decide,
      by decide, by decide, by decide, by decide⟩).mpr fun _ => rfl

/-- Attributes of 1, which is the invisible bit, are read as 0 on a
little-endian host and as 256 on a big-endian one. -/
theorem invisible_bit_not_set :
    ((readSetparms setparmsVolume.server false
        (afpSetparmsLowlevel .little setparmsVolume (.replicate 16 0) 2 [0x61]
          kFPAttributeBit.toUInt16 (someParms 1) 35)).map
            fun r => (r.bitmap, r.filecur.attributes)) = some (1, 0) ∧
      ((readSetparms setparmsVolume.server false
        (afpSetparmsLowlevel .big setparmsVolume (.replicate 16 0) 2 [0x61]
          kFPAttributeBit.toUInt16 (someParms 1) 35)).map
            fun r => (r.bitmap, r.filecur.attributes)) = some (1, 256) := by
  decide

end NetatalkClient
