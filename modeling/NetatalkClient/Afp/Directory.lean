import NetatalkClient.Afp.Helpers.ReplyBlock
/-!
# Directory replies are read exactly

An enumeration is a row of blocks, so the loop over the entries inherits
what `parse_reply_block` is known to do with one: it looks at nothing
outside the reply, it stops at the first entry that does not fit, and it
reads encodings of entries as those entries, in their order
(`directoryReplies_exact`).
-/

namespace NetatalkClient

open Octets List EntryForm

variable {form : EntryForm} {server : Option AfpClock} {buf buf' reply : Octets}
  {size filebitmap dirbitmap n p : ℕ}

/-! ## Entries -/

theorem EntryForm.congr {a b : Octets} (h : Agree form.sizeof a b) :
    form.size a = form.size b ∧ form.isdir a = form.isdir b := by
  cases form with
  | replyEntry => exact ⟨h 0 (by decide), h 1 (by decide)⟩
  | ext2ReplyEntry => exact ⟨h.be16 (by decide), h 2 (by decide)⟩

/-- The loop looks at the reply only. -/
theorem enumerateEntries_congr (h : Agree size buf buf') (hp : p ≤ size) :
    enumerateEntries form server buf size filebitmap dirbitmap n p =
      enumerateEntries form server buf' size filebitmap dirbitmap n p := by
  induction n generalizing p with
  | zero => rfl
  | succ n ih =>
    rw [enumerateEntries, enumerateEntries]
    by_cases hhead : size - p < form.sizeof
    · rw [if_pos hhead, if_pos hhead]
    have hheader : Agree form.sizeof (buf.drop p) (buf'.drop p) := h.drop (by omega)
    obtain ⟨hsize, hisdir⟩ := congr hheader
    rw [if_neg hhead, if_neg hhead, hsize, hisdir]
    by_cases hout : form.size (buf'.drop p) < form.sizeof ∨ size - p < form.size (buf'.drop p)
    · rw [if_pos hout, if_pos hout]
    have hentry : Agree (form.size (buf'.drop p)) (buf.drop p) (buf'.drop p) := h.drop (by omega)
    have hblock : Agree (form.size (buf'.drop p) - form.sizeof)
        ((buf.drop p).drop form.sizeof) ((buf'.drop p).drop form.sizeof) := hentry.drop (by omega)
    rw [if_neg hout, if_neg hout, parseReplyBlock_congr hblock, ih (by omega)]

/-- The loop gets through if and only if the entries fit. -/
theorem enumerateEntries_isSome (hp : p ≤ reply.length) :
    (enumerateEntries form server reply reply.length filebitmap dirbitmap n p).isSome ↔
      EntriesFit form filebitmap dirbitmap n (reply.drop p) := by
  induction n generalizing p with
  | zero => exact iff_of_true rfl trivial
  | succ n ih =>
    have hrest : (reply.drop p).length = reply.length - p := length_drop
    have hnext : (reply.drop p).drop (form.size (reply.drop p)) =
        reply.drop (p + form.size (reply.drop p)) := drop_drop
    rw [enumerateEntries, EntriesFit, hrest, hnext]
    generalize hsize : form.size (reply.drop p) = entrySize
    by_cases hhead : reply.length - p < form.sizeof
    · rw [if_pos hhead]
      exact iff_of_false (by simp) (by omega)
    by_cases hout : entrySize < form.sizeof ∨ reply.length - p < entrySize
    · rw [if_neg hhead, if_pos hout]
      exact iff_of_false (by simp) (by omega)
    rw [if_neg hhead, if_neg hout, ← ih (by omega), and_iff_right (by omega),
      and_iff_right (by omega), and_iff_right (by omega)]
    -- the block on its own, without what lies behind it
    have hblock : parseReplyBlock server ((reply.drop p).drop form.sizeof)
        (entrySize - form.sizeof) (form.isdir (reply.drop p)) filebitmap dirbitmap =
        parseReplyBlock server (((reply.drop p).take entrySize).drop form.sizeof)
          (((reply.drop p).take entrySize).drop form.sizeof).length (form.isdir (reply.drop p))
          filebitmap dirbitmap := by
      have hlen : (((reply.drop p).take entrySize).drop form.sizeof).length =
          entrySize - form.sizeof := by
        rw [length_drop, length_take, hrest]
        omega
      rw [hlen]
      exact parseReplyBlock_congr ((agree_take (reply.drop p) entrySize).drop (by omega)) _ _
    rw [hblock, ← exists_parseReplyBlock_iff server]
    cases parseReplyBlock server (((reply.drop p).take entrySize).drop form.sizeof)
        (((reply.drop p).take entrySize).drop form.sizeof).length (form.isdir (reply.drop p))
        filebitmap dirbitmap with
    | error filecur => simp
    | ok filecur => simp

/-- What the header of an entry says. -/
theorem EntryForm.header_eq (flag pad : UInt8) (rest : Octets) (h : form.sizeof + n ≤ form.limit) :
    (form.header n flag pad).length = form.sizeof ∧
      form.size (form.header n flag pad ++ rest) = form.sizeof + n ∧
      form.isdir (form.header n flag pad ++ rest) = flag.toNat := by
  cases form with
  | replyEntry =>
    refine ⟨rfl, ?_, rfl⟩
    change (UInt8.ofNat (n + 2)).toNat = 2 + n
    dsimp only [sizeof, limit] at h
    rw [UInt8.toNat_ofNat']
    omega
  | ext2ReplyEntry =>
    refine ⟨rfl, ?_, rfl⟩
    dsimp only [sizeof, limit] at h
    rw [size, header, append_assoc, be16_padded_append _ (by omega)]
    exact add_comm n 4

/-- The loop reads encodings of entries as the entries. -/
theorem enumerateEntries_encoded (server : Option AfpClock) {entries : List Entry}
    {blocks : List Octets}
    (h : List.Forall₂ (EncodesEntry form filebitmap dirbitmap) entries blocks)
    (before rest : Octets) :
    enumerateEntries form server (before ++ (blocks.flatten ++ rest))
        (before ++ (blocks.flatten ++ rest)).length filebitmap dirbitmap entries.length
        before.length =
      some (entries.map fun e => e.shown server (e.bitmap filebitmap dirbitmap)) := by
  induction h generalizing before with
  | nil => rfl
  | @cons e octets entries blocks hentry hrel ih =>
    obtain ⟨pad, block, hblock, hlimit, rfl⟩ := hentry
    have hreply : before ++ (((form.header block.length e.flag pad ++ block) :: blocks).flatten ++
        rest) = (before ++ (form.header block.length e.flag pad ++ block)) ++
          (blocks.flatten ++ rest) := by
      simp
    have hentry : (before ++ (((form.header block.length e.flag pad ++ block) ::
        blocks).flatten ++ rest)).drop before.length =
          form.header block.length e.flag pad ++ (block ++ (blocks.flatten ++ rest)) := by
      rw [drop_left]
      simp
    obtain ⟨hlen, hsize, hisdir⟩ := header_eq e.flag pad (block ++ (blocks.flatten ++ rest)) hlimit
    have hend : (before ++ (form.header block.length e.flag pad ++ block)).length =
        before.length + (form.sizeof + block.length) := by
      rw [length_append, length_append, hlen]
    have htail := ih (before ++ (form.header block.length e.flag pad ++ block))
    rw [hend, ← hreply] at htail
    have hroom : before.length + (form.sizeof + block.length) ≤
        (before ++ (((form.header block.length e.flag pad ++ block) :: blocks).flatten ++
          rest)).length := by
      rw [hreply, length_append, hend]
      omega
    rw [length_cons, enumerateEntries, hentry, hsize, hisdir, if_neg (by omega),
      if_neg (by omega), ← hlen, drop_left, Nat.add_sub_cancel_left,
      parseReplyBlock_congr (agree_append block _), parseReplyBlock_encoded hblock, hlen, htail]
    rfl

/-! ## Replies -/

theorem returnCode_eq_zero_iff : returnCode buf = 0 ↔ buf.be32 4 = 0 := by
  have h4 : buf.byte 4 < 256 := UInt8.toNat_lt _
  have h5 : buf.byte (4 + 1) < 256 := UInt8.toNat_lt _
  have h6 : buf.byte (4 + 2) < 256 := UInt8.toNat_lt _
  have h7 : buf.byte (4 + 2 + 1) < 256 := UInt8.toNat_lt _
  unfold returnCode toInt le32 le16 be32 be16
  split <;> omega

theorem returnCode_congr (h : Agree size buf buf') (hsize : headerSize ≤ size) :
    returnCode buf = returnCode buf' := by
  have hle : 16 ≤ size := hsize
  unfold returnCode le32 le16
  rw [h 4 (by omega), h (4 + 1) (by omega), h (4 + 2) (by omega), h (4 + 2 + 1) (by omega)]

theorem enumerateReply_congr (h : Agree size buf buf') :
    enumerateReply form server buf size = enumerateReply form server buf' size := by
  have hheader : headerSize = 16 := rfl
  unfold enumerateReply
  by_cases hshort : size < headerSize
  · rw [if_pos hshort, if_pos hshort]
  rw [if_neg hshort, if_neg hshort, returnCode_congr h (by omega)]
  by_cases hfixed : size < headerSize + 6
  · rw [if_pos hfixed, if_pos hfixed]
  rw [if_neg hfixed, if_neg hfixed, h.be16 (by omega), h.be16 (by omega), h.be16 (by omega),
    enumerateEntries_congr h (by omega)]

theorem afpGetfiledirparmsReply_congr (h : Agree size buf buf') (filecur : AfpFileInfo) :
    afpGetfiledirparmsReply server buf size filecur =
      afpGetfiledirparmsReply server buf' size filecur := by
  have hheader : headerSize = 16 := rfl
  unfold afpGetfiledirparmsReply
  by_cases hfixed : size < headerSize + 6
  · rw [if_pos hfixed, if_pos hfixed]
  have hblock : Agree (size - 22) (buf.drop 22) (buf'.drop 22) := h.drop (by omega)
  rw [if_neg hfixed, if_neg hfixed, returnCode_congr h (by omega), h.be16 (by omega),
    h.be16 (by omega), h 20 (by omega), parseReplyBlock_congr hblock]

theorem enumerateReply_of_not_fits (h : ¬ EnumerateFits form reply) :
    enumerateReply form server reply reply.length = (-1, none) := by
  have hheader : headerSize = 16 := rfl
  unfold enumerateReply
  by_cases hshort : reply.length < headerSize
  · rw [if_pos hshort]
  have hcode : returnCode reply = 0 := by
    by_contra hne
    exact h ⟨by omega, .inl fun hzero => hne (returnCode_eq_zero_iff.mpr hzero)⟩
  rw [if_neg hshort, if_neg (not_not.mpr hcode)]
  by_cases hfixed : reply.length < headerSize + 6
  · rw [if_pos hfixed]
  have hstop : enumerateEntries form server reply reply.length (reply.be16 16) (reply.be16 18)
      (reply.be16 20) 22 = none := by
    rw [← Option.not_isSome_iff_eq_none, enumerateEntries_isSome (by omega)]
    exact fun hfit => h ⟨by omega, .inr ⟨by omega, hfit⟩⟩
  rw [if_neg hfixed, hstop]

theorem afpGetfiledirparmsReply_of_not_fit (h : ¬ ParmsFit reply) (filecur : AfpFileInfo) :
    (afpGetfiledirparmsReply server reply reply.length filecur).1 = -1 := by
  have hheader : headerSize = 16 := rfl
  unfold afpGetfiledirparmsReply
  by_cases hfixed : reply.length < headerSize + 6
  · rw [if_pos hfixed]
  have hcode : returnCode reply = 0 := by
    by_contra hne
    exact h ⟨by omega, .inl fun hzero => hne (returnCode_eq_zero_iff.mpr hzero)⟩
  have hstop : ¬ ∃ filecur, parseReplyBlock server (reply.drop 22) (reply.drop 22).length
      (reply.byte 20) (reply.be16 16) (reply.be16 18) = .ok filecur := by
    rw [exists_parseReplyBlock_iff server]
    exact fun hfit => h ⟨by omega, .inr hfit⟩
  rw [length_drop] at hstop
  rw [if_neg hfixed, if_neg (not_not.mpr hcode)]
  cases hparse : parseReplyBlock server (reply.drop 22) (reply.length - 22) (reply.byte 20)
      (reply.be16 16) (reply.be16 18) with
  | error filecur => rfl
  | ok filecur => exact absurd ⟨filecur, hparse⟩ hstop

theorem returnCode_append {header rest : Octets} (hheader : header.length = headerSize)
    (hcode : header.be32 4 = 0) : returnCode (header ++ rest) = 0 := by
  have hagree := agree_append header rest
  rw [hheader] at hagree
  rw [returnCode_congr hagree (le_rfl)]
  exact returnCode_eq_zero_iff.mpr hcode

/-- What stands before the entries: the header, two bitmaps and two more
octets. -/
theorem exists_fixedPart {header more : Octets} (hheader : header.length = headerSize)
    (hcode : header.be32 4 = 0) (hmore : more.length = 2) (filebitmap dirbitmap : UInt16)
    (rest : Octets) : ∃ fixed,
      header ++ (padded 2 filebitmap.toNat ++ (padded 2 dirbitmap.toNat ++ (more ++ rest))) =
        fixed ++ rest ∧ fixed.length = 22 ∧ returnCode (fixed ++ rest) = 0 ∧
      be16 (fixed ++ rest) 16 = filebitmap.toNat ∧ be16 (fixed ++ rest) 18 = dirbitmap.toNat ∧
      ∀ i, byte (fixed ++ rest) (20 + i) = byte (more ++ rest) i := by
  have hsplit : header ++ (padded 2 filebitmap.toNat ++ (padded 2 dirbitmap.toNat ++
      (more ++ rest))) = (header ++ padded 2 filebitmap.toNat ++ padded 2 dirbitmap.toNat ++
        more) ++ rest := by
    simp
  refine ⟨_, hsplit, by simp [hheader, hmore, headerSize], ?_⟩
  rw [← hsplit]
  refine ⟨returnCode_append hheader hcode, be16_append_padded _ _ filebitmap.toNat_lt hheader, ?_⟩
  rw [← append_assoc]
  have hbitmap : (header ++ padded 2 filebitmap.toNat).length = 18 := by simp [hheader, headerSize]
  refine ⟨be16_append_padded _ _ dirbitmap.toNat_lt hbitmap, fun i => ?_⟩
  have hpos : (header ++ padded 2 filebitmap.toNat ++ padded 2 dirbitmap.toNat).length = 20 := by
    simp [hheader, headerSize]
  rw [← append_assoc, ← hpos, byte_append_right]

theorem enumerateReply_encoded {filebitmap dirbitmap : UInt16} {entries : List Entry}
    (h : EncodesEnumerate form filebitmap dirbitmap entries reply) :
    enumerateReply form server reply reply.length =
      (0, some (entries.map fun e =>
        e.shown server (e.bitmap filebitmap.toNat dirbitmap.toNat))) := by
  obtain ⟨header, blocks, rest, hheader, hcode, hcount, hentries, rfl⟩ := h
  obtain ⟨fixed, hsplit, hfixed, hzero, hfile, hdir, hmore⟩ := exists_fixedPart hheader hcode
    (length_padded 2 entries.length) filebitmap dirbitmap (blocks.flatten ++ rest)
  have hcounted : be16 (fixed ++ (blocks.flatten ++ rest)) 20 = entries.length := by
    rw [← be16_padded_append (blocks.flatten ++ rest) hcount, be16, be16, ← hmore 0, ← hmore 1]
  have hread := enumerateEntries_encoded server hentries fixed rest
  rw [hfixed] at hread
  rw [hsplit, enumerateReply, hzero, hfile, hdir, hcounted, hread, length_append, hfixed]
  rw [if_neg (by rw [headerSize]; omega), if_neg (not_not.mpr rfl),
    if_neg (by rw [headerSize]; omega)]

theorem afpGetfiledirparmsReply_encoded {filebitmap dirbitmap : UInt16} {e : Entry}
    (h : EncodesParms filebitmap dirbitmap e reply) (filecur : AfpFileInfo) :
    afpGetfiledirparmsReply server reply reply.length filecur =
      (0, e.shown server (e.bitmap filebitmap.toNat dirbitmap.toNat)) := by
  obtain ⟨header, pad, block, hheader, hcode, hblock, rfl⟩ := h
  obtain ⟨fixed, hsplit, hfixed, hzero, hfile, hdir, hmore⟩ := exists_fixedPart hheader hcode
    (show [e.flag, pad].length = 2 from rfl) filebitmap dirbitmap block
  have hisdir : byte (fixed ++ block) 20 = e.flag.toNat := hmore 0
  have hdrop : (fixed ++ block).drop 22 = block := by rw [← hfixed, drop_left]
  rw [hsplit, afpGetfiledirparmsReply, hzero, hfile, hdir, hisdir, hdrop, length_append,
    hfixed, Nat.add_sub_cancel_left, parseReplyBlock_encoded hblock]
  rw [if_neg (by rw [headerSize]; omega), if_neg (not_not.mpr rfl)]
  rfl

/-! ## The result -/

/-- **Directory replies are read exactly.** Encodings of entries, in either
form of enumeration or one at a time, are read as those entries, in their
order, with the fields that the bitmaps announce. Whatever the reply, only
the octets inside it matter, and where a count, a length or the offset of
a name does not fit, the answer is -1. -/
theorem directoryReplies_exact (server : Option AfpClock) :
    (∀ form filebitmap dirbitmap entries reply,
      EncodesEnumerate form filebitmap dirbitmap entries reply →
        enumerateReply form server reply reply.length =
          (0, some (entries.map fun e =>
            e.shown server (e.bitmap filebitmap.toNat dirbitmap.toNat)))) ∧
    (∀ filebitmap dirbitmap e reply filecur, EncodesParms filebitmap dirbitmap e reply →
      afpGetfiledirparmsReply server reply reply.length filecur =
        (0, e.shown server (e.bitmap filebitmap.toNat dirbitmap.toNat))) ∧
    (∀ form buf buf' size, Agree size buf buf' →
      enumerateReply form server buf size = enumerateReply form server buf' size) ∧
    (∀ buf buf' size filecur, Agree size buf buf' →
      afpGetfiledirparmsReply server buf size filecur =
        afpGetfiledirparmsReply server buf' size filecur) ∧
    (∀ form reply, ¬ EnumerateFits form reply →
      enumerateReply form server reply reply.length = (-1, none)) ∧
    (∀ reply filecur, ¬ ParmsFit reply →
      (afpGetfiledirparmsReply server reply reply.length filecur).1 = -1) := by
  refine ⟨?_, ?_, ?_, ?_, ?_, ?_⟩
  · intro form filebitmap dirbitmap entries reply h
    exact enumerateReply_encoded h
  · intro filebitmap dirbitmap e reply filecur h
    exact afpGetfiledirparmsReply_encoded h filecur
  · intro form buf buf' size h
    exact enumerateReply_congr h
  · intro buf buf' size filecur h
    exact afpGetfiledirparmsReply_congr h filecur
  · intro form reply h
    exact enumerateReply_of_not_fits h
  · intro reply filecur h
    exact afpGetfiledirparmsReply_of_not_fit h filecur

/-- A file of 258 octets called "a". -/
def smallFile : Entry where
  isdir := false
  attributes := 1
  parentDirID := 2
  createDate := 0
  modDate := 0
  backupDate := 0
  finderInfo := .replicate 32 0
  longName := []
  longName_le := by decide
  nodeID := 17
  offspringCount := 0
  ownerID := 0
  groupID := 0
  accessRights := 0
  dataForkLen := 258
  rsrcForkLen := 0
  extDataForkLen := 258
  launchLimit := 0
  utf8Name := [0x61]
  utf8Name_le := by decide
  extRsrcForkLen := 0
  uid := 0
  gid := 0
  permissions := 0
  uaPermissions := 0

/-- A file with its size and its name, and a reply that is cut short. -/
theorem directoryReplies_small_file :
    enumerateReply .replyEntry none
        (replicate 16 0 ++ [0x22, 0, 0, 0, 0, 1, 19, 0, 0, 0, 1, 2, 0, 10, 0, 0, 0, 0,
          0x08, 0x00, 0x01, 0x03, 0, 1, 0x61]) 41 =
      (0, some [smallFile.shown none 0x2200]) ∧
    enumerateReply .replyEntry none (replicate 16 0 ++ [0x22, 0, 0, 0, 0, 1, 19]) 23 =
      (-1, none) := by
  obtain ⟨hread, -, -, -, hshort, -⟩ := directoryReplies_exact none
  refine ⟨hread .replyEntry 0x2200 0 [smallFile] _ ?_, hshort .replyEntry _ ?_⟩
  · have hentry : EncodesEntry .replyEntry 0x2200 0 smallFile
        [19, 0, 0, 0, 1, 2, 0, 10, 0, 0, 0, 0, 0x08, 0x00, 0x01, 0x03, 0, 1, 0x61] := by
      refine ⟨0, [0, 0, 1, 2, 0, 10, 0, 0, 0, 0, 0x08, 0x00, 0x01, 0x03, 0, 1, 0x61],
        ⟨⟨0, 0, 10, .replicate 4 0⟩, [0x08, 0x00, 0x01, 0x03, 0, 1, 0x61], by decide,
          fun h => absurd rfl h, fun _ => ?_⟩, by decide, by decide⟩
      exact ⟨[0, 0, 1, 2, 0, 10, 0, 0, 0, 0], [0x08, 0x00, 0x01, 0x03], [], rfl, rfl, by decide⟩
    exact ⟨replicate 16 0, _, [], rfl, by decide, by decide, .cons hentry .nil, by decide⟩
  · rintro ⟨-, h | ⟨-, h⟩⟩
    · exact h (by decide)
    · exact absurd h.1 (by decide)

end NetatalkClient
