import NetatalkClient.Daemon.Fragmentation
import NetatalkClient.Daemon.LogTrailer
import NetatalkClient.Daemon.Model.Readdir
/-!
# One page of a directory, from the daemon to the client

The client unpacks the files that the daemon has packed
(`unpackEntries_packed`), and a response reaches it whatever messages are
behind it and whatever pieces it comes in (`readAnswer_exchanged`). So one
round of `afp_sl_readdir` brings the next files of the sorted list, at
least one if there is one (`readdirBatch_eq`).
-/

namespace NetatalkClient

open Octets List

/-! ## Packed files -/

theorem FileName.ofBuffer_octets (name : FileName) : ofBuffer name.octets = name := by
  have hwhole : name.octets.takeWhile (· ≠ 0) = name.octets := by
    rw [takeWhile_eq_self_iff]
    intro o ho
    simpa using fun h : o = 0 => name.noNul (h ▸ ho)
  have hlen := name.length_lt
  cases name
  simp only [ofBuffer, hwhole]
  congr 1
  exact take_of_length_le (Nat.le_sub_one_of_lt hlen)

section Packed

variable {n : ℕ} {f : AfpcFileInfo} {fs : List AfpcFileInfo} {rest : Octets}

theorem length_packEntry (f : AfpcFileInfo) :
    (packEntry f).length = 4 + f.name.octets.length + fixedEntrySize := by
  simp only [packEntry, length_append, length_le32Octets, length_le64Octets, fixedEntrySize]
  omega

/-- The length of the name, read back. -/
theorem le32_packEntry (f : AfpcFileInfo) (rest : Octets) :
    (packEntry f ++ rest).le32 0 = f.name.octets.length := by
  have := f.name.length_lt
  rw [packEntry, append_assoc]
  exact le32_le32Octets_append _ (lt_trans this (by decide))

/-- What stands behind the name of a packed file. -/
theorem drop_packEntry (f : AfpcFileInfo) (rest : Octets) :
    (packEntry f ++ rest).drop (4 + f.name.octets.length) =
      le64Octets f.creationDate.toNat ++ (le64Octets f.modificationDate.toNat ++
        (le32Octets f.uid.toNat ++ (le32Octets f.gid.toNat ++ (le32Octets f.permissions.toNat ++
          (le32Octets f.uaPermissions.toNat ++ (le64Octets f.size.toNat ++ rest)))))) := by
  have hlen : (le32Octets f.name.octets.length ++ f.name.octets).length =
      4 + f.name.octets.length := by
    rw [length_append, length_le32Octets]
  rw [packEntry, ← hlen]
  simp only [append_assoc]
  rw [← append_assoc, drop_left]

theorem take_packEntry (f : AfpcFileInfo) (rest : Octets) :
    ((packEntry f ++ rest).drop 4).take f.name.octets.length = f.name.octets := by
  rw [packEntry, append_assoc, append_assoc]
  have hdrop : ∀ x : Octets, (le32Octets f.name.octets.length ++ x).drop 4 = x := by
    intro x
    exact drop_left' (length_le32Octets _)
  rw [hdrop, take_left]

/-- The first pass steps over a packed file. -/
theorem checkEntries_packEntry (n : ℕ) (f : AfpcFileInfo) (rest : Octets) :
    checkEntries (n + 1) (packEntry f ++ rest) = checkEntries n rest := by
  have hlen := length_packEntry f
  have hname := f.name.length_lt
  rw [checkEntries, if_neg (by rw [length_append]; omega)]
  dsimp only
  rw [le32_packEntry, length_drop, length_append,
    if_neg (by omega), drop_drop, ← add_assoc, ← hlen, drop_left]

/-- The second pass unpacks a packed file. -/
theorem unpackEntries_packEntry (n : ℕ) (f : AfpcFileInfo) (rest : Octets) :
    unpackEntries (n + 1) (packEntry f ++ rest) = f :: unpackEntries n rest := by
  rw [unpackEntries]
  simp only [le32_packEntry, drop_packEntry, take_packEntry, FileName.ofBuffer_octets]
  simp only [le64_skip_le64Octets, le32_skip_le64Octets, le32_skip_le32Octets,
    le64_skip_le32Octets, le64_le64Octets_append _ f.creationDate.isLt,
    le64_le64Octets_append _ f.modificationDate.isLt, le32_le32Octets_append _ f.uid.isLt,
    le32_le32Octets_append _ f.gid.isLt, le32_le32Octets_append _ f.permissions.isLt,
    le32_le32Octets_append _ f.uaPermissions.isLt, le64_le64Octets_append _ f.size.isLt,
    BitVec.ofNat_toNat, BitVec.setWidth_eq]
  rfl

theorem checkEntries_packed (fs : List AfpcFileInfo) (rest : Octets) :
    checkEntries fs.length (fs.flatMap packEntry ++ rest) = some rest := by
  induction fs with
  | nil => rfl
  | cons f fs ih =>
    rw [length_cons, flatMap_cons, append_assoc, checkEntries_packEntry, ih]

/-- The files that were packed are unpacked. -/
theorem unpackEntries_packed (fs : List AfpcFileInfo) (rest : Octets) :
    unpackEntries fs.length (fs.flatMap packEntry ++ rest) = fs := by
  induction fs with
  | nil => rfl
  | cons f fs ih =>
    rw [length_cons, flatMap_cons, append_assoc, unpackEntries_packEntry, ih]

/-- **What the packing loop packs** is the first files there are, at least
one if one is asked for and there is room for any. -/
theorem packFiles_eq (numfiles room : ℕ) (fs : List AfpcFileInfo) :
    ∃ i, packFiles numfiles room fs = ((fs.take i).flatMap packEntry, i, fs.drop i) ∧
      i ≤ numfiles ∧ i ≤ fs.length ∧ ((fs.take i).flatMap packEntry).length ≤ room ∧
      (0 < numfiles → fs ≠ [] → 4 + afpcMaxNameBytes + fixedEntrySize ≤ room → 0 < i) := by
  induction numfiles generalizing room fs with
  | zero =>
    exact ⟨0, rfl, le_rfl, Nat.zero_le _, Nat.zero_le _, fun h => absurd h (by decide)⟩
  | succ numfiles ih =>
    cases fs with
    | nil => exact ⟨0, rfl, Nat.zero_le _, le_rfl, Nat.zero_le _, fun _ h => absurd rfl h⟩
    | cons f fs =>
      have hlen := length_packEntry f
      rw [packFiles]
      dsimp only
      split
      · next hfull =>
        refine ⟨0, rfl, Nat.zero_le _, Nat.zero_le _, Nat.zero_le _, fun _ _ hroom => ?_⟩
        have := f.name.length_lt
        omega
      · next hroom =>
        obtain ⟨i, heq, hnum, hfs, hlens, -⟩ := ih (room - (4 + f.name.octets.length +
          fixedEntrySize)) fs
        refine ⟨i + 1, by rw [heq]; rfl, by omega, by rw [length_cons]; omega, ?_,
          fun _ _ _ => Nat.succ_pos i⟩
        rw [take_succ_cons, flatMap_cons, length_append]
        omega

end Packed

/-! ## One answer -/

/-- A response is on its way to the client: in some pieces, and with some
messages behind it. -/
def Exchanged (content : Octets) (ws : List Wakeup) : Prop :=
  (∀ w ∈ ws, w.GoesOn) ∧
    ∃ ms, frameResponse true (outgoingString ms) content = some (Wakeup.pending ws)

/-- **The client gets the answer that was sent.** -/
theorem readAnswer_exchanged {fd : ℤ} {ws : List Wakeup} (h0 : 0 ≤ fd) (hset : fd < fdSetsize)
    (c : ResponseContent) (hc : c.data.length ≤ afpslIpcMaxResponse) (h : Exchanged c.data ws) :
    ∃ frame, readAnswer fd ws = (signedChar (frame.byte 0), frame) ∧
      responseContentLength frame = some c.data.length ∧
      frame.take c.data.length = c.data.overwrite 4 (le32Octets frame.length) := by
  obtain ⟨hgo, ms, hsome⟩ := h
  obtain ⟨frame, hframe, hframed⟩ := exists_framed c ms
  obtain rfl : frame = Wakeup.pending ws := Option.some.inj (hframe.symm.trans hsome)
  have hhead := c.header_le
  have hle := hframed.le_length
  have hge := hframed.length_le
  have hfit : (Wakeup.pending ws).length ≤ connectionDataSize := by
    simp only [connectionDataSize, ipcLogFooterSize] at hge ⊢
    omega
  have hpend : Wakeup.pending ws = Wakeup.pending ws ++ [] := (append_nil _).symm
  have hread := (readFramedResponse_answered h0 hset ⟨by omega, hframed.len_eq⟩ hfit hgo hpend).1
    (.inl ⟨ws, [], (append_nil _).symm, rfl⟩)
  obtain ⟨rest, hres, -⟩ := hread
  refine ⟨_, ?_, hframed.contentLength, hframed.content⟩
  unfold readAnswer
  rw [hres]
  dsimp only
  rw [if_neg (by decide), hframed.logs, if_neg (lt_irrefl 0)]

/-! ## One page -/

/-- A directory that the daemon can list, with its files, and a way to the
daemon that works. -/
structure Serves (env : ReaddirEnv) (daemon : Transport ReaddirRequest) (volid : ℕ)
    (path : Octets) (files : List AfpcFileInfo) : Prop where
  volume : env.volume volid = some true
  listed : env.mlReaddir path = some files
  fileArray : env.fileArray = true
  path_noNul : 0 ∉ path
  path_le : path.length ≤ afpcMaxUtf8PathBytes
  files_le : files.length ≤ intMax
  exchanged : ∀ req, ∃ ws, daemon req = some ws ∧ Exchanged (processReaddir env req) ws

section Page

variable {env : ReaddirEnv} {daemon : Transport ReaddirRequest} {volid : ℕ} {path : Octets}
variable {files : List AfpcFileInfo} {start batchCount totalFiles : ℕ} {fd : ℤ}

theorem perm_sortedFiles (env : ReaddirEnv) (files : List AfpcFileInfo) :
    (sortedFiles env files).Perm files := by
  unfold sortedFiles
  split
  · split
    · exact env.qsort.perm files
    · exact .refl _
  · exact .refl _

/-- The response to the request for one page. -/
theorem processReaddir_request (hs : Serves env daemon volid path files)
    (hstart : start ≤ files.length) (hcount : batchCount ≤ intMax) :
    ∃ i, processReaddir env (readdirRequest volid path start batchCount) =
        readdirResponse resultOk i (((sortedFiles env files).drop start).drop i).isEmpty
          ((((sortedFiles env files).drop start).take i).flatMap packEntry) ∧
      i ≤ batchCount ∧ start + i ≤ files.length ∧
      ((((sortedFiles env files).drop start).take i).flatMap packEntry).length ≤
        afpslIpcMaxResponse - ipcReaddirResponseSize ∧
      (0 < batchCount → start < files.length → 0 < i) := by
  have hpath : (path ++ [0]).takeWhile (· ≠ 0) = path := by
    rw [takeWhile_append_of_pos]
    · simp
    · intro o ho
      simpa using fun h : o = 0 => hs.path_noNul (h ▸ ho)
  have hzero : (path ++ [0]).byte path.length = 0 := byte_append_right path [0] 0
  have hmod : ((batchCount : ℤ) % 4294967296).toNat = batchCount := by
    simp only [intMax] at hcount
    omega
  have hlen := (perm_sortedFiles env files).length_eq
  have hpathLe := hs.path_le
  obtain ⟨i, hpack, hnum, hle, hlens, hpos⟩ := packFiles_eq (min files.length batchCount)
    (afpslIpcMaxResponse - ipcReaddirResponseSize) ((sortedFiles env files).drop start)
  rw [length_drop, hlen] at hle
  refine ⟨i, ?_, by omega, by omega, hlens, ?_⟩
  · unfold processReaddir readdirRequest
    dsimp only
    rw [if_neg (by simp only [ipcReaddirRequestSize]; omega),
      if_neg (by rw [hzero]; simp only [ne_eq, not_true, or_false]; omega), hs.volume]
    dsimp only
    rw [hpath, hs.listed]
    dsimp only
    rw [if_neg (by omega), hmod, Int.toNat_natCast, hpack]
  · intro hbatch hlt
    refine hpos (by omega) ?_ (by decide)
    rw [Ne, drop_eq_nil_iff, hlen]
    omega

theorem length_readdirResponse (result : UInt8) (i : ℕ) (eod : Bool) (packed : Octets) :
    (readdirResponse result i eod packed).length = ipcReaddirResponseSize + packed.length := by
  simp [readdirResponse, ipcReaddirResponseSize]
  omega

/-- The content of a response to a request for one page. -/
def pageContent (i : ℕ) (eod : Bool) (packed : Octets)
    (h : packed.length ≤ afpslIpcMaxResponse - ipcReaddirResponseSize) : ResponseContent where
  data := readdirResponse resultOk i eod packed
  header_le := by
    rw [length_readdirResponse]
    exact le_trans (by decide) (Nat.le_add_right ipcReaddirResponseSize _)
  len_le := by
    rw [length_readdirResponse]
    exact le_trans (Nat.add_le_add_left h _) (by decide)

/-- The members of a response, as the client reads them. -/
theorem frame_members {frame packed : Octets} {i : ℕ} {eod : Bool} (hi : i < 4294967296)
    (h : frame.take (readdirResponse resultOk i eod packed).length =
      (readdirResponse resultOk i eod packed).overwrite 4 (le32Octets frame.length)) :
    frame.byte 0 = 0 ∧ frame.le32 8 = i ∧ (frame.byte 12 ≠ 0 ↔ eod = true) ∧
      (frame.take (readdirResponse resultOk i eod packed).length).drop ipcReaddirResponseSize =
        packed := by
  have hover : (readdirResponse resultOk i eod packed).overwrite 4 (le32Octets frame.length) =
      [resultOk, 0, 0, 0] ++ (le32Octets frame.length ++ (le32Octets i ++
        ([if eod then 1 else 0, 0, 0, 0] ++ packed))) :=
    overwrite_middle (a := [resultOk, 0, 0, 0]) rfl
  rw [hover] at h
  have hframe := take_append_drop (readdirResponse resultOk i eod packed).length frame
  rw [h] at hframe ⊢
  rw [← hframe]
  simp only [append_assoc]
  refine ⟨rfl, ?_, ?_, rfl⟩
  · exact le32_behind ([resultOk, 0, 0, 0] ++ le32Octets frame.length) _ hi rfl
  · cases eod with
    | false => exact ⟨fun h => absurd rfl h, nofun⟩
    | true => exact ⟨fun _ => rfl, fun _ => show (1 : ℕ) ≠ 0 by decide⟩

/-- **One round of `afp_sl_readdir`** brings the next files of the sorted
list, at least one if there is one, and says whether they are the last. -/
theorem readdirBatch_eq (hs : Serves env daemon volid path files) (h0 : 0 ≤ fd)
    (hset : fd < fdSetsize) (hstart : start ≤ files.length) (batchCount totalFiles : ℕ)
    (hpos : 0 < batchCount) (hcount : batchCount ≤ intMax) (htotal : totalFiles ≤ intMax) :
    ∃ i, readdirBatch fd daemon volid path start batchCount totalFiles =
        .ok (((sortedFiles env files).drop start).take i, decide (files.length ≤ start + i)) ∧
      i ≤ batchCount ∧ start + i ≤ files.length ∧ (start < files.length → 0 < i) := by
  obtain ⟨i, hresp, hbatch, hend, hpacked, hsome⟩ := processReaddir_request hs hstart hcount
  refine ⟨i, ?_, hbatch, hend, hsome hpos⟩
  have hlen := (perm_sortedFiles env files).length_eq
  have hfiles := hs.files_le
  generalize hfs : ((sortedFiles env files).drop start).take i = fs at hresp hpacked ⊢
  have hfsLen : fs.length = i := by
    rw [← hfs, length_take, length_drop]
    omega
  have heod : (((sortedFiles env files).drop start).drop i).isEmpty =
      decide (files.length ≤ start + i) := by
    rw [Bool.eq_iff_iff, List.isEmpty_iff, drop_drop, drop_eq_nil_iff, hlen, decide_eq_true_iff]
  rw [heod] at hresp
  obtain ⟨ws, hws, hex⟩ := hs.exchanged (readdirRequest volid path start batchCount)
  rw [hresp] at hex
  have hlength : (pageContent i (decide (files.length ≤ start + i)) _ hpacked).data.length =
      ipcReaddirResponseSize + (fs.flatMap packEntry).length := length_readdirResponse _ _ _ _
  obtain ⟨frame, hanswer, hcontent, htake⟩ := readAnswer_exchanged h0 hset
    (pageContent i _ _ hpacked)
    (by rw [hlength]; exact le_trans (Nat.add_le_add_left hpacked _) (by decide)) hex
  have hi : i < 4294967296 := by
    simp only [intMax] at hfiles
    omega
  obtain ⟨hresult, hnum, hlast, hbody⟩ := frame_members hi htake
  unfold readdirBatch
  rw [hws]
  dsimp only
  rw [hanswer]
  dsimp only
  rw [hresult, if_neg (by decide), hcontent]
  dsimp only
  rw [hlength, if_neg (by omega), if_neg (not_not.mpr rfl), hnum,
    if_neg (by simp only [uintMax, intMax] at *; omega)]
  have hdone : decide (frame.byte 12 ≠ 0) = decide (files.length ≤ start + i) := by
    rw [Bool.eq_iff_iff, decide_eq_true_iff, hlast]
  split
  · have hcheck := checkEntries_packed fs []
    have hunpack := unpackEntries_packed fs []
    rw [append_nil, hfsLen] at hcheck hunpack
    rw [length_readdirResponse] at hbody
    rw [hbody, hcheck, if_neg (not_not.mpr rfl), hunpack, hdone]
  · next hnone =>
    have hnil : fs = [] := length_eq_zero_iff.mp (by omega)
    rw [hnil, hdone]

end Page

end NetatalkClient
