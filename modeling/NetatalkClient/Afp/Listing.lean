import NetatalkClient.Afp.Directory
import NetatalkClient.Afp.Model.Readdir
import NetatalkClient.Did.Resolve
/-!
# Listings are complete

A server may cut a directory into replies as it likes, as long as each has
an entry. The next request starts behind what came, so whatever the cuts
are, `ll_readdir` ends up with every entry once, in the server's order.
-/

namespace NetatalkClient

open Octets List Entry ReaddirVolume

/-! ## Names in the form of the host -/

section Names

variable {host : ByteOrder} {encoding : PathEncoding} {src dest : Octets} {destLen used : ℕ}

theorem length_ucs2toUTF8_lt {str16 : List ℕ} (hused : used < destLen)
    (h : ucs2toUTF8 host destLen used str16 = some dest) : used + dest.length < destLen := by
  induction str16 generalizing used dest with
  | nil =>
    obtain rfl : [] = dest := by simpa [ucs2toUTF8] using h
    exact hused
  | cons c str16 ih =>
    simp only [ucs2toUTF8] at h
    split at h
    · obtain rfl : [] = dest := by simpa using h
      exact hused
    split at h
    · exact absurd h (by simp)
    · next hroom =>
      obtain ⟨rest, hrest, rfl⟩ := Option.map_eq_some_iff.mp h
      have hlen := ih (by omega) hrest
      rw [length_append]
      omega

theorem length_separatorsToUnix (destLen : ℕ) (dest : Octets) :
    (separatorsToUnix destLen dest).length = dest.length := by
  rw [separatorsToUnix, length_append, length_map, ← length_append, take_append_drop]

theorem length_convertUtf8decToUtf8pre_lt (h : 0 < destLen) :
    (convertUtf8decToUtf8pre host src destLen).2.length < destLen := by
  unfold convertUtf8decToUtf8pre
  split
  · exact h
  dsimp only
  split
  · exact h
  · next dest hdest => simpa using length_ucs2toUTF8_lt h hdest

theorem length_convertMacRomanToUtf8_lt (h : 0 < destLen) :
    (convertMacRomanToUtf8 host src destLen).2.length < destLen := by
  unfold convertMacRomanToUtf8
  split
  · exact h
  dsimp only
  split
  · exact h
  · next dest hdest => simpa using length_ucs2toUTF8_lt h hdest

theorem length_copyIfSupplementaryUtf8_lt (h : 0 < destLen) :
    (copyIfSupplementaryUtf8 src destLen).2.length < destLen := by
  unfold copyIfSupplementaryUtf8
  split
  · exact h
  split
  · exact h
  · next hroom => exact Nat.lt_of_not_le hroom

/-- A converted name has room for its terminator. -/
theorem length_convertPathToUnix_lt (h : 0 < destLen) :
    (convertPathToUnix host encoding src destLen).2.length < destLen := by
  unfold convertPathToUnix
  rw [if_neg (Nat.ne_of_gt h)]
  cases encoding with
  | kFPLongName =>
    dsimp only
    rw [length_separatorsToUnix]
    exact length_convertMacRomanToUtf8_lt h
  | kFPUTF8Name =>
    have hcopied : (copyIfSupplementaryUtf8 ((src.take destLen).takeWhile (· ≠ 0))
        destLen).2.length < destLen := length_copyIfSupplementaryUtf8_lt h
    dsimp only
    split
    · exact hcopied
    · dsimp only
      rw [length_separatorsToUnix]
      split
      · exact length_convertUtf8decToUtf8pre_lt h
      · exact hcopied
  | other => exact h

/-- A string, its terminator and whatever is behind them still read as the
string once an octet from its end on is cleared. -/
theorem cString_overwrite_zero {s : Octets} (h : ∀ c ∈ s, c ≠ 0) {n : ℕ} (hn : s.length ≤ n)
    (rest : Octets) : cString (overwrite (s ++ 0 :: rest) n [0]) = s := by
  rw [overwrite, window, take_append, take_of_length_le hn]
  obtain ⟨k, rfl⟩ := Nat.exists_eq_add_of_le hn
  rw [Nat.add_sub_cancel_left]
  cases k with
  | zero =>
    rw [take_zero, append_nil, length_append,
      Nat.sub_eq_zero_of_le (by omega), replicate_zero, append_nil, append_assoc, singleton_append]
    exact cString_append_zero h _
  | succ k =>
    rw [take_succ_cons, append_assoc, append_assoc, append_assoc, cons_append]
    exact cString_append_zero h _

theorem cString_ne_zero (array : Octets) : ∀ c ∈ cString array, c ≠ 0 := by
  intro c hc
  simpa using mem_takeWhile_imp hc

/-- The name of an entry is its converted name. -/
theorem cString_toUnixName (host : ByteOrder) (volume : ReaddirVolume) (p : AfpFileInfo) :
    cString (toUnixName host volume p).name =
      cString (convertPathToUnix host volume.pathEncoding p.name afpcMaxNameBytes).2 := by
  have hroom : (convertPathToUnix host volume.pathEncoding p.name afpcMaxNameBytes).2.length <
      afpcMaxNameBytes := length_convertPathToUnix_lt (by decide)
  have hlen : (cString (convertPathToUnix host volume.pathEncoding p.name
      afpcMaxNameBytes).2).length ≤ afpcMaxNameBytes - 1 :=
    le_trans (takeWhile_sublist _).length_le (Nat.le_sub_one_of_lt hroom)
  unfold toUnixName
  dsimp only
  rw [take_of_length_le hlen]
  generalize hprinted : cString (convertPathToUnix host volume.pathEncoding p.name
    afpcMaxNameBytes).2 = printed at hlen ⊢
  rw [overwrite.eq_def p.name, window_zero, nil_append, append_assoc, singleton_append]
  exact cString_overwrite_zero (hprinted ▸ cString_ne_zero _) hlen _

end Names

/-! ## Batches -/

/-- A server that lists `dir` to `request`: from an index inside it, one
entry at least and no more than are asked for; past the end, a code or
nothing. The index past the end is a number that a request can hold. -/
structure Lists (send : EnumerateServer) (request : EnumerateRequest) (dir : List Entry) :
    Prop where
  addressable : dir.length + 1 < 4294967296
  inside : ∀ sent index, 1 ≤ index → index ≤ dir.length → ∃ k reply,
    1 ≤ k ∧ k ≤ request.reqcount ∧
      send sent { request with startindex := index } = .ok reply ∧
      EncodesEnumerate .ext2ReplyEntry (UInt16.ofNat request.filebitmap)
        (UInt16.ofNat request.dirbitmap) ((dir.drop (index - 1)).take k) reply
  past : ∀ sent index, dir.length < index → ∃ reply,
    send sent { request with startindex := index } = .ok reply ∧
      (toInt (reply.be32 4) = kFPObjectNotFound ∨
        EncodesEnumerate .ext2ReplyEntry (UInt16.ofNat request.filebitmap)
          (UInt16.ofNat request.dirbitmap) [] reply)

section Listing

variable {volume : ReaddirVolume} {send : EnumerateServer} {dir : List Entry} {dirid : ℕ}
variable {basename : Octets} {resource : Bool} {entries : List Entry} {reply : Octets}

theorem commonBitmap_lt (volume : ReaddirVolume) : volume.commonBitmap < 65536 := by
  unfold commonBitmap
  split <;> split <;> decide

theorem dirbitmap_lt (volume : ReaddirVolume) : volume.dirbitmap < 65536 := by
  unfold dirbitmap
  exact Nat.or_lt_two_pow (n := 16) (Nat.or_lt_two_pow (n := 16) (Nat.or_lt_two_pow (n := 16)
    (commonBitmap_lt volume) (by decide)) (by decide)) (by decide)

theorem filebitmap_lt (volume : ReaddirVolume) (resource : Bool) :
    volume.filebitmap resource < 65536 := by
  unfold filebitmap
  refine Nat.or_lt_two_pow (n := 16) (commonBitmap_lt volume) ?_
  split
  · decide
  split <;> decide

/-- What the client is to know of an entry that it asks for. -/
def Entry.listed (volume : ReaddirVolume) (resource : Bool) (e : Entry) : AfpFileInfo :=
  e.shown volume.clock (e.bitmap (volume.filebitmap resource) volume.dirbitmap)

theorem be32_of_encodes {form : EntryForm} {filebitmap dirbitmap : UInt16}
    (h : EncodesEnumerate form filebitmap dirbitmap entries reply) : reply.be32 4 = 0 := by
  obtain ⟨header, blocks, rest, hheader, hcode, -, -, rfl⟩ := h
  exact returnCode_eq_zero_iff.mp (returnCode_append hheader hcode)

/-- A reply with entries, as `ll_readdir` gets it. -/
theorem enumerateResult_encoded (hversion : 31 ≤ volume.avNumber)
    (h : EncodesEnumerate .ext2ReplyEntry
      (UInt16.ofNat (volume.filebitmap resource)) (UInt16.ofNat volume.dirbitmap) entries reply) :
    volume.enumerateResult (.ok reply) = (0, entries.map (listed volume resource)) := by
  have hread : enumerateReply .ext2ReplyEntry volume.clock reply reply.length = _ :=
    enumerateReply_encoded h
  rw [UInt16.toNat_ofNat', UInt16.toNat_ofNat', Nat.mod_eq_of_lt (filebitmap_lt volume resource),
    Nat.mod_eq_of_lt (dirbitmap_lt volume)] at hread
  have hold : ¬volume.avNumber < 30 := by omega
  have hthree : ¬volume.avNumber = 30 := by omega
  unfold enumerateResult
  dsimp only
  rw [if_neg hold, if_neg hthree, be32_of_encodes h]
  rw [show afpEnumerateext2Reply volume.clock reply reply.length = _ from hread]
  rfl

/-- A reply with an error code. -/
theorem enumerateResult_code (hversion : 31 ≤ volume.avNumber) {code : ℤ}
    (hcode : toInt (reply.be32 4) = code) (hne : code ≠ 0) :
    volume.enumerateResult (.ok reply) = (code, []) := by
  have hraw : returnCode reply ≠ 0 := by
    intro hzero
    rw [returnCode_eq_zero_iff.mp hzero] at hcode
    exact hne hcode.symm
  have hnone : (enumerateReply .ext2ReplyEntry volume.clock reply reply.length).2 = none := by
    unfold enumerateReply
    rw [if_pos hraw]
    split <;> rfl
  have hold : ¬volume.avNumber < 30 := by omega
  have hthree : ¬volume.avNumber = 30 := by omega
  unfold enumerateResult
  dsimp only
  rw [if_neg hold, if_neg hthree, hcode, if_neg hne]
  rw [show (afpEnumerateext2Reply volume.clock reply reply.length).2 = _ from hnone]
  rfl

/-- The request of a listing at an index. -/
theorem enumerateRequest_index (hversion : 31 ≤ volume.avNumber) (index : ℕ)
    (hindex : index < 4294967296) (filebitmap dirbitmap reqcount start : ℕ) :
    volume.enumerateRequest dirid filebitmap dirbitmap reqcount index basename =
      { volume.enumerateRequest dirid filebitmap dirbitmap reqcount start basename with
        startindex := index } := by
  have hcommand : volume.enumerateCommand = (afpEnumerateExt2, 4294967296) := by
    rw [enumerateCommand, if_neg (by omega), if_neg (by omega)]
  unfold enumerateRequest
  rw [hcommand, Nat.mod_eq_of_lt hindex]

/-- **The run lemma of `ll_readdir`**: with the first `t` entries it asks
from the next one on, and each turn brings one at least. -/
theorem llReaddirLoop_eq (hversion : 31 ≤ volume.avNumber)
    (hs : Lists send (volume.enumerateRequest dirid (volume.filebitmap resource) volume.dirbitmap
      readdirReqcount 1 basename) dir) {turns sent t : ℕ} (ht : t ≤ dir.length)
    (hturns : dir.length - t < turns) :
    llReaddirLoop volume send dirid basename resource turns sent (1 + t)
        ((dir.take t).map (listed volume resource)) =
      some (.ok (dir.map (listed volume resource))) := by
  have haddressable := hs.addressable
  induction turns generalizing sent t with
  | zero => exact absurd hturns (Nat.not_lt_zero _)
  | succ turns ih =>
    rw [llReaddirLoop, enumerateRequest_index hversion (1 + t) (by omega) _ _ _ 1]
    rcases lt_or_ge t dir.length with hmore | hall
    · obtain ⟨k, reply, hk, -, hsend, hencodes⟩ := hs.inside sent (1 + t) (by omega) (by omega)
      rw [Nat.add_sub_cancel_left] at hencodes
      rw [hsend, enumerateResult_encoded hversion hencodes]
      have hcame : ((dir.drop t).take k).length = min k (dir.length - t) := by
        rw [length_take, length_drop]
      have hcut : (dir.drop t).take (min k (dir.length - t)) = (dir.drop t).take k := by
        rw [take_eq_take_iff, length_drop]
        omega
      have hsome : ((dir.drop t).take k).map (listed volume resource) ≠ [] := by
        intro hnil
        have := congrArg List.length hnil
        rw [length_map, hcame, length_nil] at this
        omega
      have hjoin : (dir.take t).map (listed volume resource) ++
          ((dir.drop t).take k).map (listed volume resource) =
            (dir.take (t + min k (dir.length - t))).map (listed volume resource) := by
        rw [← map_append, take_add, hcut]
      have hgoesOn : ¬(((dir.drop t).take k).map (listed volume resource) = [] ∨
          (0 : ℤ) = kFPObjectNotFound) := by
        rintro (hnil | hcode)
        · exact hsome hnil
        · exact absurd hcode (by decide)
      dsimp only
      rw [if_neg (by decide), if_pos (.inl rfl), if_neg hgoesOn, hjoin, length_map, hcame,
        add_assoc]
      exact ih (by omega) (by omega)
    · obtain rfl : t = dir.length := le_antisymm ht hall
      rw [take_length]
      obtain ⟨reply, hsend, hcode | hencodes⟩ := hs.past sent (1 + dir.length) (by omega)
      · rw [hsend, enumerateResult_code hversion hcode (by decide)]
        dsimp only
        rw [if_neg (by decide), if_pos (.inr rfl), if_pos (.inr rfl), append_nil]
      · rw [hsend, enumerateResult_encoded hversion hencodes, map_nil]
        dsimp only
        rw [if_neg (by decide), if_pos (.inl rfl), if_pos (.inl rfl), append_nil]

/-- **Listings are complete.** With AFP 3.1 or later, however the server
cuts the directory, `ll_readdir` returns 0 and every entry once, in the
server's order, after at most one request for each entry and one more. An
entry's name is what `convert_path_to_unix` makes of the name in the
reply; the rest is what the reply says. -/
theorem readdir_complete (host : ByteOrder) {tree : Catalog} {cache : Volume} {path : Octets}
    {ret : ℤ} (hversion : 31 ≤ volume.avNumber)
    (hpath : invalidPath volume.avNumber volume.pathEncoding path = false)
    (hfound : (cache.getDirid tree path).2 = ⟨ret, some dirid, some basename⟩) (hret : 0 ≤ ret)
    (hs : Lists send (volume.enumerateRequest dirid (volume.filebitmap resource) volume.dirbitmap
      readdirReqcount 1 basename) dir) :
    ∃ files : List AfpFileInfo,
      (∀ turns, dir.length < turns →
        llReaddir host volume tree cache send turns path resource = some (0, some files)) ∧
      List.Forall₂ (fun e p =>
        cString p.name = cString (convertPathToUnix host volume.pathEncoding
          (e.listed volume resource).name afpcMaxNameBytes).2 ∧
        p = { e.listed volume resource with name := p.name }) dir files := by
  refine ⟨dir.map fun e => toUnixName host volume (e.listed volume resource), ?_, ?_⟩
  · intro turns hturns
    have hrun : llReaddirLoop volume send dirid basename resource turns 0 1
        ((dir.take 0).map (listed volume resource)) = _ :=
      llReaddirLoop_eq hversion hs (Nat.zero_le _) hturns
    rw [take_zero, map_nil] at hrun
    unfold llReaddir
    rw [hpath, if_neg (by decide), hfound]
    dsimp only
    rw [if_neg (by omega), hrun]
    dsimp only [Option.map_some]
    rw [if_neg (by omega), map_map]
    rfl
  · rw [forall₂_map_right_iff]
    exact forall₂_same.mpr fun e _ => ⟨cString_toUnixName host volume _, rfl⟩

end Listing

/-! ## Two files, one at a time -/

/-- A volume with UTF-8 names, over AFP 3.1. -/
def utf8Volume : ReaddirVolume where
  volid := 1
  extraFlags := 0
  attributes := kSupportsUTF8Names
  pathEncoding := .kFPUTF8Name
  avNumber := 31
  timeOffset := 0
  connectTime := 0
  bufsize := 131072

/-- The block of a file of 258 octets, with a name of one octet. -/
def fileBlock (c : UInt8) : Octets :=
  [0, 1, 0, 0, 0, 2, 0, 0, 0, 0, 0, 0, 0, 0, 0, 0, 0, 0, 0, 0, 0, 17, 0, 0, 0, 0, 0, 0, 1, 2, 0, 36,
    0, 0, 0, 0, 0x08, 0x00, 0x01, 0x03, 0, 1, c]

/-- The reply with that file. -/
def fileReply (c : UInt8) : Octets :=
  replicate 16 0 ++ ([0x29, 0x1f, 0x2f, 0x1f, 0, 1] ++ ([0, 47, 0, 0] ++ fileBlock c))

/-- A file with a name of one octet. -/
def namedFile (c : UInt8) : Entry :=
  { smallFile with utf8Name := [c], utf8Name_le := Nat.succ_le_succ (Nat.zero_le _) }

/-- The reply with the code `kFPObjectNotFound`. -/
def endReply : Octets := [1, 2, 0, 0, 0xff, 0xff, 0xec, 0x66] ++ replicate 8 0

/-- A server that sends "a" and "b" in two replies, and then a code. -/
def oneByOne : EnumerateServer := fun _ request =>
  if request.startindex = 1 then .ok (fileReply 0x61)
  else if request.startindex = 2 then .ok (fileReply 0x62)
  else .ok endReply

theorem encodes_fileBlock (c : UInt8) : EncodesBlock 0x291f (namedFile c) (fileBlock c) := by
  have hfields : assemble 0x291f (entryPieces none ⟨0, 0, 36, .replicate 4 0⟩ (namedFile c)) =
      assemble 0x291f (entryPieces none ⟨0, 0, 36, .replicate 4 0⟩ smallFile) := rfl
  have hoctets : assemble 0x291f (entryPieces none ⟨0, 0, 36, .replicate 4 0⟩ smallFile) =
      (fileBlock 0).take 36 := by
    decide
  refine ⟨⟨0, 0, 36, .replicate 4 0⟩, [0x08, 0x00, 0x01, 0x03, 0, 1, c], ?_, ?_, ?_⟩
  · rw [hfields, hoctets]
    rfl
  · intro hlong
    exact absurd (by decide) hlong
  · intro _
    have hone : padded 2 (namedFile c).utf8Name.length = [0, 1] := by
      rw [show (namedFile c).utf8Name.length = 1 from rfl]
      decide
    refine ⟨(fileBlock c).take 36, [0x08, 0x00, 0x01, 0x03], [], rfl, rfl, ?_⟩
    rw [hone]
    rfl

theorem encodes_fileReply (c : UInt8) :
    EncodesEnumerate .ext2ReplyEntry (UInt16.ofNat (utf8Volume.filebitmap false))
      (UInt16.ofNat utf8Volume.dirbitmap) [namedFile c] (fileReply c) := by
  have hfile : (UInt16.ofNat (utf8Volume.filebitmap false)).toNat = 0x291f := by decide
  have hdir : (UInt16.ofNat utf8Volume.dirbitmap).toNat = 0x2f1f := by decide
  have hheader : EntryForm.ext2ReplyEntry.header 43 smallFile.flag 0 = [0, 47, 0, 0] := by decide
  have hentry : EncodesEntry .ext2ReplyEntry 0x291f 0x2f1f (namedFile c)
      ([0, 47, 0, 0] ++ fileBlock c) := by
    refine ⟨0, fileBlock c, encodes_fileBlock c, ?_, congrArg (· ++ _) hheader.symm⟩
    rw [show (fileBlock c).length = 43 from rfl]
    decide
  refine ⟨replicate 16 0, [[0, 47, 0, 0] ++ fileBlock c], [], rfl, by decide, ?_, ?_, ?_⟩
  · rw [length_singleton]
    decide
  · rw [hfile, hdir]
    exact .cons hentry .nil
  · have hcounts : padded 2 0x291f ++ (padded 2 0x2f1f ++ padded 2 1) =
        [0x29, 0x1f, 0x2f, 0x1f, 0, 1] := by
      decide
    rw [hfile, hdir, length_singleton, flatten_singleton, append_nil, fileReply,
      ← hcounts, append_assoc, append_assoc]

/-- The directory `/a` with its two files. -/
theorem readdir_complete_two_files :
    ∃ files : List AfpFileInfo,
      llReaddir .little utf8Volume Volume.twoDirectories Volume.mounted oneByOne 3 [47, 97] false =
        some (0, some files) ∧
      files.map (fun p => cString p.name) = [[0x61], [0x62]] := by
  have hlists : Lists oneByOne (utf8Volume.enumerateRequest afpRootDid
      (utf8Volume.filebitmap false) utf8Volume.dirbitmap readdirReqcount 1 [97])
      [namedFile 0x61, namedFile 0x62] := by
    refine ⟨by decide, ?_, ?_⟩
    · intro sent index h1 h2
      obtain rfl | rfl : index = 1 ∨ index = 2 := by
        rw [length_cons, length_singleton] at h2
        omega
      · exact ⟨1, _, by decide, by decide, rfl, encodes_fileReply 0x61⟩
      · exact ⟨1, _, by decide, by decide, rfl, encodes_fileReply 0x62⟩
    · intro sent index hpast
      rw [length_cons, length_singleton] at hpast
      refine ⟨endReply, ?_, .inl (by decide)⟩
      unfold oneByOne
      rw [if_neg (Nat.ne_of_gt (Nat.lt_of_succ_lt hpast)), if_neg (Nat.ne_of_gt hpast)]
  have hfound : (Volume.mounted.getDirid Volume.twoDirectories [47, 97]).2 =
      ⟨0, some afpRootDid, some [97]⟩ := by
    decide
  have hpath : invalidPath 31 .kFPUTF8Name [47, 97] = false := by decide +kernel
  obtain ⟨files, hrun, hfiles⟩ := readdir_complete .little (by decide) hpath hfound
    (le_refl 0) hlists
  refine ⟨files, hrun 3 (by decide), ?_⟩
  obtain ⟨p, rest, hp, hrest, rfl⟩ := forall₂_cons_left_iff.mp hfiles
  obtain ⟨q, none, hq, hnone, rfl⟩ := forall₂_cons_left_iff.mp hrest
  obtain rfl := forall₂_nil_left_iff.mp hnone
  rw [map_cons, map_cons, map_nil, hp.1, hq.1]
  decide +kernel

end NetatalkClient
