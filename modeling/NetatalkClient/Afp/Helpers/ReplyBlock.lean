import NetatalkClient.Afp.Model.Entries
import Mathlib.Data.List.Forall2
/-!
# Helpers: reply blocks

What `parse_reply_block` does to a block is said three times: it looks at
nothing outside, it gets to the end if and only if what the block declares
is inside, and it reads an encoding of an entry as that entry.
-/

namespace NetatalkClient

open Octets List Field

variable {server : Option AfpClock} {buf buf' block : Octets} {size isdir : ℕ}
variable {f : Octets.Field AfpFileInfo} {width bit p offset bitmap : ℕ} {e : Entry}
variable {store : Octets → AfpFileInfo → AfpFileInfo} {copy : ℕ → Octets → ℕ → ℕ → Option Octets}
variable {s : AfpFileInfo} {dirbitmap filebitmap : ℕ} {name : Octets} {lay : Layout}

/-- A field is a plain one or one of the two names. -/
theorem mem_blockFields (h : f ∈ blockFields server isdir) :
    (∃ bit width store, f = plainField bit width store ∧ bit ≠ kFPLongNameBit ∧
      bit ≠ kFPUTF8NameBit) ∨
    f = nameField kFPLongNameBit 2 copyPascalBounded ∨
    f = nameField kFPUTF8NameBit 6 copyAfpnameBounded := by
  unfold blockFields firstFields dirFields fileFields lastFields at h
  split at h <;>
  · simp only [cons_append, nil_append, mem_cons, not_mem_nil, or_false] at h
    rcases h with rfl | rfl | rfl | rfl | rfl | rfl | rfl | rfl | rfl | rfl | rfl | rfl | rfl |
      rfl | rfl | rfl <;>
    first
      | exact .inl ⟨_, _, _, rfl, by decide, by decide⟩
      | exact .inr (.inl rfl)
      | exact .inr (.inr rfl)

/-! ## Nothing outside -/

theorem copyPascalBounded_congr (h : Agree size buf buf') (destLen offset : ℕ) :
    copyPascalBounded destLen buf size offset = copyPascalBounded destLen buf' size offset := by
  unfold copyPascalBounded
  by_cases hout : size ≤ offset
  · rw [if_pos hout, if_pos hout]
  · rw [if_neg hout, if_neg hout, h offset (by omega)]
    dsimp only
    split_ifs
    · rfl
    · rfl
    · rfl
    · rw [octetsAt_congr fun j _ hj => h j (by omega)]

theorem copyAfpnameBounded_congr (h : Agree size buf buf') (destLen offset : ℕ) :
    copyAfpnameBounded destLen buf size offset = copyAfpnameBounded destLen buf' size offset := by
  unfold copyAfpnameBounded
  by_cases hout : size < offset ∨ size - offset < 6
  · rw [if_pos hout, if_pos hout]
  · rw [if_neg hout, if_neg hout, h.be16 (by omega)]
    dsimp only
    split_ifs
    · rfl
    · rfl
    · rfl
    · rw [octetsAt_congr fun j _ hj => h j (by omega)]

theorem plainField_congr (h : Agree size buf buf') (p : ℕ) (s : AfpFileInfo) :
    (plainField bit width store).read buf size p s =
      (plainField bit width store).read buf' size p s := bounded_congr h (fun _ _ => rfl) p s

theorem nameField_congr (h : Agree size buf buf')

    (hcopy : ∀ destLen offset, copy destLen buf size offset = copy destLen buf' size offset)
    (p : ℕ) (s : AfpFileInfo) :
    (nameField bit width copy).read buf size p s = (nameField bit width copy).read buf' size p s :=
  bounded_congr h (fun own s => by rw [hcopy]) p s

theorem blockFields_congr (h : Agree size buf buf')
    (hf : f ∈ blockFields server isdir) (p : ℕ) (s : AfpFileInfo) :
    f.read buf size p s = f.read buf' size p s := by
  rcases mem_blockFields hf with ⟨bit, width, store, rfl, -, -⟩ | rfl | rfl
  · exact plainField_congr h p s
  · exact nameField_congr h (copyPascalBounded_congr h) p s
  · exact nameField_congr h (copyAfpnameBounded_congr h) p s

/-- `parse_reply_block` looks at the block only. -/
theorem parseReplyBlock_congr (h : Agree size buf buf') (filebitmap dirbitmap : ℕ) :
    parseReplyBlock server buf size isdir filebitmap dirbitmap =
      parseReplyBlock server buf' size isdir filebitmap dirbitmap :=
  walk_congr fun x hx s => blockFields_congr h (mem_of_placed hx) x.2 s

/-! ## Getting to the end -/

theorem plainField_isSome :
    ((plainField bit width store).read buf size p s).isSome ↔ p + width ≤ size := by
  dsimp only [plainField, bounded]
  by_cases hout : size < p + width
  · rw [if_pos hout]
    exact iff_of_false (by simp) (by omega)
  · rw [if_neg hout]
    exact iff_of_true rfl (by omega)

theorem nameField_isSome (hwidth : 2 ≤ width) :
    ((nameField bit width copy).read buf size p s).isSome ↔
      p + width ≤ size ∧ (copy afpcMaxNameBytes buf size (buf.be16 p)).isSome := by
  have hoffset : (buf.octetsAt p width).be16 0 = buf.be16 p := by
    rw [be16, be16, octetsAt, byte_window (by omega), byte_window (by omega), byte_drop, byte_drop]
    rfl
  dsimp only [nameField, bounded]
  by_cases hout : size < p + width
  · rw [if_pos hout]
    exact iff_of_false (by simp) (by omega)
  · rw [if_neg hout, Option.isSome_map, hoffset, and_iff_right (by omega)]

theorem copyPascalBounded_isSome :
    (copyPascalBounded afpcMaxNameBytes block block.length offset).isSome ↔
      PascalFits block offset := by
  have hbyte : block.byte offset < 256 := UInt8.toNat_lt _
  have hroom : afpcMaxNameBytes = 1021 := rfl
  unfold copyPascalBounded PascalFits
  dsimp only
  split_ifs
  · exact iff_of_false (by simp) (by omega)
  · exact iff_of_false (by simp) (by omega)
  · exact iff_of_true rfl (by omega)
  · omega
  · exact iff_of_true rfl (by omega)

theorem copyAfpnameBounded_isSome :
    (copyAfpnameBounded afpcMaxNameBytes block block.length offset).isSome ↔
      AfpnameFits block offset := by
  have hroom : afpcMaxNameBytes = 1021 := rfl
  unfold copyAfpnameBounded AfpnameFits
  dsimp only
  split_ifs
  · exact iff_of_false (by simp) (by omega)
  · exact iff_of_false (by simp) (by omega)
  · omega
  · exact iff_of_false (by simp) (by omega)
  · exact iff_of_true rfl (by omega)

theorem map_shape_blockFields (server : Option AfpClock) (isdir : ℕ) :
    (blockFields server isdir).map shape = wireFields (isdir ≠ 0) := by
  by_cases h : isdir = 0
  · subst h
    rfl
  · have hdir : decide (isdir ≠ 0) = true := decide_eq_true h
    rw [blockFields, if_pos h, hdir]
    rfl

theorem pairwise_wireFields (isdir : Bool) : (wireFields isdir).Pairwise (·.1 < ·.1) := by
  cases isdir with
  | false => decide
  | true => decide

/-- What a field needs of the block at its position. -/
def FieldFits (block : Octets) (x : Octets.Field AfpFileInfo × ℕ) : Prop :=
  x.2 + x.1.width ≤ block.length ∧
    (x.1.bit = kFPLongNameBit → PascalFits block (block.be16 x.2)) ∧
    (x.1.bit = kFPUTF8NameBit → AfpnameFits block (block.be16 x.2))

theorem blockFields_isSome {x : Octets.Field AfpFileInfo × ℕ}
    (hx : x.1 ∈ blockFields server isdir) (s : AfpFileInfo) :
    (x.1.read block block.length x.2 s).isSome ↔ FieldFits block x := by
  obtain ⟨f, p⟩ := x
  have hnames : kFPLongNameBit ≠ kFPUTF8NameBit := by decide
  unfold FieldFits
  rcases mem_blockFields hx with ⟨bit, width, store, hf, hlong, hutf8⟩ | hf | hf
  · dsimp only at hf
    subst hf
    rw [plainField_isSome]
    exact ⟨fun h => ⟨h, fun hbit => absurd hbit hlong, fun hbit => absurd hbit hutf8⟩, And.left⟩
  · dsimp only at hf
    subst hf
    rw [nameField_isSome (by omega), copyPascalBounded_isSome]
    exact ⟨fun h => ⟨h.1, fun _ => h.2, fun hbit => absurd hbit hnames⟩, fun h => ⟨h.1, h.2.1 rfl⟩⟩
  · dsimp only at hf
    subst hf
    rw [nameField_isSome (by omega), copyAfpnameBounded_isSome]
    exact ⟨fun h => ⟨h.1, fun hbit => absurd hbit hnames.symm, fun _ => h.2⟩,
      fun h => ⟨h.1, h.2.2 rfl⟩⟩

theorem mem_placed_blockFields :
    (f, p) ∈ placed bitmap (blockFields server isdir) 0 ↔ f ∈ blockFields server isdir ∧
      bitmap &&& f.bit ≠ 0 ∧ p = fieldOffset (isdir ≠ 0) bitmap f.bit := by
  have hsorted := pairwise_wireFields (decide (isdir ≠ 0))
  rw [← map_shape_blockFields server] at hsorted
  rw [mem_placed hsorted, zero_add, map_shape_blockFields, fieldOffset]

/-- Every announced field has what it needs if and only if the block
does. -/
theorem forall_fieldFits_iff (server : Option AfpClock) :
    (∀ x ∈ placed bitmap (blockFields server isdir) 0, FieldFits block x) ↔
      BlockFits (isdir ≠ 0) bitmap block := by
  have hwithin : (∀ x ∈ placed bitmap (blockFields server isdir) 0,
      x.2 + x.1.width ≤ block.length) ↔
        announcedWidth bitmap (wireFields (isdir ≠ 0)) ≤ block.length := by
    rw [placed_within_iff (Nat.zero_le _), map_shape_blockFields, zero_add]
  have hlong : nameField kFPLongNameBit 2 copyPascalBounded ∈ blockFields server isdir := by
    simp [blockFields, firstFields]
  have hutf8 : nameField kFPUTF8NameBit 6 copyAfpnameBounded ∈ blockFields server isdir := by
    simp [blockFields, lastFields]
  constructor
  · intro h
    refine ⟨hwithin.mp fun x hx => (h x hx).1, fun hbit => ?_, fun hbit => ?_⟩
    · exact (h _ (mem_placed_blockFields.mpr ⟨hlong, hbit, rfl⟩)).2.1 rfl
    · exact (h _ (mem_placed_blockFields.mpr ⟨hutf8, hbit, rfl⟩)).2.2 rfl
  · rintro ⟨hwidth, hpascal, hafpname⟩ ⟨f, p⟩ hx
    obtain ⟨-, hbit, hp⟩ := mem_placed_blockFields.mp hx
    refine ⟨hwithin.mpr hwidth _ hx, fun heq => ?_, fun heq => ?_⟩
    · rw [hp, heq]
      exact hpascal (heq ▸ hbit)
    · rw [hp, heq]
      exact hafpname (heq ▸ hbit)

/-- `parse_reply_block` succeeds if and only if what the block declares is
inside. -/
theorem exists_parseReplyBlock_iff (server : Option AfpClock) :
    (∃ filecur, parseReplyBlock server block block.length isdir filebitmap dirbitmap =
      .ok filecur) ↔ BlockFits (isdir ≠ 0) (if isdir ≠ 0 then dirbitmap else filebitmap) block := by
  rw [← forall_fieldFits_iff server]
  exact exists_walk_ok_iff fun x hx s => blockFields_isSome (mem_of_placed hx) s

/-! ## Encodings -/

/-- What the announced fields of an entry say together. -/
theorem storeAll_entryPieces (server : Option AfpClock) (bitmap : ℕ) (lay : Layout) (e : Entry) :
    storeAll bitmap (entryPieces server lay e) { AfpFileInfo.zero with isdir := e.flag.toNat } =
      e.shown server bitmap := by
  -- each piece sets its component to a choice between its value and the one there was
  cases hdir : e.isdir <;>
  simp [entryPieces, firstPieces, dirPieces, filePieces, lastPieces, numberPiece, hdir, Entry.shown,
    AfpFileInfo.zero, storeAll_nil, storeAll_skip,
    storeAll_set (fun n (f : AfpFileInfo) => { f with attributes := n }) (·.attributes)
      (fun _ => rfl),
    storeAll_set (fun n (f : AfpFileInfo) => { f with did := n }) (·.did) (fun _ => rfl),
    storeAll_set₂ (fun d b (f : AfpFileInfo) =>
      { f with creationDate := d, creationDateIsUnset := b }) (·.creationDate)
      (·.creationDateIsUnset) (fun _ => rfl),
    storeAll_set₂ (fun d b (f : AfpFileInfo) =>
      { f with modificationDate := d, modificationDateIsUnset := b }) (·.modificationDate)
      (·.modificationDateIsUnset) (fun _ => rfl),
    storeAll_set₂ (fun d b (f : AfpFileInfo) =>
      { f with backupDate := d, backupDateIsUnset := b }) (·.backupDate)
      (·.backupDateIsUnset) (fun _ => rfl),
    storeAll_set (fun n (f : AfpFileInfo) => { f with finderinfo := n }) (·.finderinfo)
      (fun _ => rfl),
    storeAll_set (fun n (f : AfpFileInfo) => { f with name := n }) (·.name) (fun _ => rfl),
    storeAll_set (fun n (f : AfpFileInfo) => { f with fileid := n }) (·.fileid) (fun _ => rfl),
    storeAll_set (fun n (f : AfpFileInfo) => { f with offspring := n }) (·.offspring)
      (fun _ => rfl),
    storeAll_set (fun n (f : AfpFileInfo) => { f with unixprivs := { f.unixprivs with uid := n } })
      (·.unixprivs.uid) (fun _ => rfl),
    storeAll_set (fun n (f : AfpFileInfo) => { f with unixprivs := { f.unixprivs with gid := n } })
      (·.unixprivs.gid) (fun _ => rfl),
    storeAll_set (fun n (f : AfpFileInfo) => { f with accessrights := n }) (·.accessrights)
      (fun _ => rfl),
    storeAll_set (fun n (f : AfpFileInfo) => { f with size := n }) (·.size) (fun _ => rfl),
    storeAll_set (fun n (f : AfpFileInfo) => { f with resourcesize := n }) (·.resourcesize)
      (fun _ => rfl),
    storeAll_set (fun n (f : AfpFileInfo) => { f with unixprivs := n }) (·.unixprivs)
      (fun _ => rfl)]

section
variable {bitmap bit width n : ℕ} {octets name : Octets} {store' : AfpFileInfo → AfpFileInfo}

theorem reads_plain {store : Octets → AfpFileInfo → AfpFileInfo} (hlen : octets.length = width)
    (hstore : ∀ f, store octets f = store' f) :
    Reads bitmap buf size (plainField bit width store) ⟨bit, octets, store'⟩ where
  bit_eq := rfl
  width_eq := hlen.symm
  read_eq _ p f hown hin := by
    dsimp only at hown hin
    dsimp only [plainField, bounded]
    rw [if_neg (by omega), ← hlen, hown, hstore]

theorem reads_number {store : ℕ → AfpFileInfo → AfpFileInfo} (hn : n < 256 ^ width)
    (hstore : ∀ f, store n f = store' f) :
    Reads bitmap buf size (numberField bit width store) (numberPiece bit width n store') :=
  reads_plain (length_padded width n) fun f => by rw [value_padded hn, hstore]

theorem reads_name {copy : ℕ → Octets → ℕ → ℕ → Option Octets} (hlen : octets.length = width)
    (hcopy : bitmap &&& bit ≠ 0 → copy afpcMaxNameBytes buf size (octets.be16 0) = some name) :
    Reads bitmap buf size (nameField bit width copy)
      ⟨bit, octets, fun f => { f with name := name.window afpcMaxNameBytes }⟩ where
  bit_eq := rfl
  width_eq := hlen.symm
  read_eq hbit p f hown hin := by
    dsimp only at hbit hown hin
    dsimp only [nameField, bounded]
    rw [if_neg (by omega), ← hlen, hown, hcopy hbit, Option.map_some]

end

/-- A name is found where it stands. -/
theorem copyPascalBounded_of_at (h : PascalAt block offset name) (hlen : name.length ≤ 255) :
    copyPascalBounded afpcMaxNameBytes block block.length offset = some name := by
  obtain ⟨before, after, rfl, rfl⟩ := h
  have hbyte : byte (before ++ ([UInt8.ofNat name.length] ++ (name ++ after))) before.length =
      name.length := by
    have hfirst := byte_append_right before ([UInt8.ofNat name.length] ++ (name ++ after)) 0
    rw [add_zero] at hfirst
    rw [hfirst]
    change (UInt8.ofNat name.length).toNat = name.length
    rw [UInt8.toNat_ofNat']
    omega
  have hname : octetsAt (before ++ ([UInt8.ofNat name.length] ++ (name ++ after)))
      (before.length + 1) name.length = name := by
    rw [← append_assoc]
    have hpos : before.length + 1 = (before ++ [UInt8.ofNat name.length]).length := by simp
    rw [hpos, octetsAt_append]
  have hroom : afpcMaxNameBytes = 1021 := rfl
  unfold copyPascalBounded
  rw [hbyte]
  dsimp only
  rw [hname]
  simp only [length_append, length_singleton]
  rw [if_neg (by omega), if_neg (by omega), if_neg (by omega), if_neg (by omega)]

theorem copyAfpnameBounded_of_at (h : AfpnameAt block offset name) (hlen : name.length ≤ 1020) :
    copyAfpnameBounded afpcMaxNameBytes block block.length offset = some name := by
  obtain ⟨before, hint, after, rfl, hhint, rfl⟩ := h
  have hfield : be16 (before ++ (hint ++ (padded 2 name.length ++ (name ++ after))))
      (before.length + 4) = name.length := by
    have hpos : before.length + 4 = (before ++ hint).length + 0 := by simp [hhint]
    rw [← append_assoc, hpos, be16_append_right, be16_padded_append _ (by omega)]
  have hname : octetsAt (before ++ (hint ++ (padded 2 name.length ++ (name ++ after))))
      (before.length + 6) name.length = name := by
    have hpos : before.length + 6 = (before ++ hint ++ padded 2 name.length).length := by
      simp [hhint]
    rw [← append_assoc, ← append_assoc, hpos, octetsAt_append]
  have hroom : afpcMaxNameBytes = 1021 := rfl
  unfold copyAfpnameBounded
  rw [hfield]
  dsimp only
  rw [hname]
  simp only [length_append, length_padded, hhint]
  rw [if_neg (by omega), if_neg (by omega), if_neg (by omega), if_neg (by omega)]

theorem reads_firstPieces
    (hlong : bitmap &&& kFPLongNameBit ≠ 0 →
      copyPascalBounded afpcMaxNameBytes buf size lay.longName.toNat = some e.longName) :
    List.Forall₂ (Reads bitmap buf size) (firstFields server) (firstPieces server lay e) := by
  have hoffset : (padded 2 lay.longName.toNat).be16 0 = lay.longName.toNat := by
    rw [← append_nil (padded 2 _), be16_padded_append [] lay.longName.toNat_lt]
  refine .cons (reads_number e.attributes.toNat_lt fun _ => rfl) ?_
  refine .cons (reads_number e.parentDirID.toNat_lt fun _ => rfl) ?_
  refine .cons (reads_number e.createDate.toNat_lt fun _ => rfl) ?_
  refine .cons (reads_number e.modDate.toNat_lt fun _ => rfl) ?_
  refine .cons (reads_number e.backupDate.toNat_lt fun _ => rfl) ?_
  refine .cons (reads_plain (by simp) fun _ => rfl) ?_
  refine .cons (reads_name (length_padded 2 _) fun hbit => ?_) ?_
  · rw [hoffset]
    exact hlong hbit
  refine .cons (reads_plain (length_padded 2 _) fun _ => rfl) ?_
  exact .cons (reads_number e.nodeID.toNat_lt fun _ => rfl) .nil

theorem reads_dirPieces : List.Forall₂ (Reads bitmap buf size) dirFields (dirPieces e) :=
  .cons (reads_number e.offspringCount.toNat_lt fun _ => rfl)
    (.cons (reads_number e.ownerID.toNat_lt fun _ => rfl)
    (.cons (reads_number e.groupID.toNat_lt fun _ => rfl)
    (.cons (reads_number e.accessRights.toNat_lt fun _ => rfl) .nil)))

theorem reads_filePieces : List.Forall₂ (Reads bitmap buf size) fileFields (filePieces e) :=
  .cons (reads_number e.dataForkLen.toNat_lt fun _ => rfl)
    (.cons (reads_number e.rsrcForkLen.toNat_lt fun _ => rfl)
    (.cons (reads_number e.extDataForkLen.toNat_lt fun _ => rfl)
    (.cons (reads_plain (length_padded 2 _) fun _ => rfl) .nil)))

theorem reads_lastPieces
    (hutf8 : bitmap &&& kFPUTF8NameBit ≠ 0 →
      copyAfpnameBounded afpcMaxNameBytes buf size lay.utf8Name.toNat = some e.utf8Name) :
    List.Forall₂ (Reads bitmap buf size) lastFields (lastPieces lay e) := by
  have hoffset := be16_padded_append lay.pad.toList lay.utf8Name.toNat_lt
  refine .cons (reads_name (by simp) fun hbit => ?_) ?_
  · rw [hoffset]
    exact hutf8 hbit
  refine .cons (reads_number e.extRsrcForkLen.toNat_lt fun _ => rfl) ?_
  refine .cons (reads_plain (by simp) fun f => ?_) .nil
  have hu : be32 (padded 4 e.uid.toNat ++ (padded 4 e.gid.toNat ++
      (padded 4 e.permissions.toNat ++ padded 4 e.uaPermissions.toNat))) 0 = e.uid.toNat :=
    be32_padded_append _ e.uid.toNat_lt
  have hg : be32 (padded 4 e.uid.toNat ++ (padded 4 e.gid.toNat ++
      (padded 4 e.permissions.toNat ++ padded 4 e.uaPermissions.toNat))) 4 = e.gid.toNat :=
    be32_append_padded _ _ e.gid.toNat_lt (by simp)
  have hp : be32 (padded 4 e.uid.toNat ++ (padded 4 e.gid.toNat ++
      (padded 4 e.permissions.toNat ++ padded 4 e.uaPermissions.toNat))) 8 =
        e.permissions.toNat := by
    rw [← append_assoc]
    exact be32_append_padded _ _ e.permissions.toNat_lt (by simp)
  have ha : be32 (padded 4 e.uid.toNat ++ (padded 4 e.gid.toNat ++
      (padded 4 e.permissions.toNat ++ padded 4 e.uaPermissions.toNat))) 12 =
        e.uaPermissions.toNat := by
    rw [← append_assoc, ← append_assoc, ← append_nil (padded 4 e.uaPermissions.toNat)]
    exact be32_append_padded _ _ e.uaPermissions.toNat_lt (by simp)
  rw [hu, hg, hp, ha]

/-- **A block that encodes an entry is read as the entry.** -/
theorem parseReplyBlock_encoded (h : EncodesBlock (e.bitmap filebitmap dirbitmap) e block) :
    parseReplyBlock server block block.length e.flag.toNat filebitmap dirbitmap =
      .ok (e.shown server (e.bitmap filebitmap dirbitmap)) := by
  obtain ⟨lay, rest, hblock, hlong, hutf8⟩ := h
  have hbitmap : (if e.flag.toNat ≠ 0 then dirbitmap else filebitmap) =
      e.bitmap filebitmap dirbitmap := by
    unfold Entry.flag Entry.bitmap
    cases e.isdir <;> rfl
  have hread : List.Forall₂ (Reads (e.bitmap filebitmap dirbitmap) block block.length)
      (blockFields server e.flag.toNat) (entryPieces server lay e) := by
    refine rel_append (rel_append (reads_firstPieces fun hbit => ?_) ?_)
      (reads_lastPieces fun hbit => ?_)
    · exact copyPascalBounded_of_at (hlong hbit) e.longName_le
    · unfold Entry.flag
      cases e.isdir with
      | false => exact reads_filePieces
      | true => exact reads_dirPieces
    · exact copyAfpnameBounded_of_at (hutf8 hbit) e.utf8Name_le
  have hlen : (assemble (e.bitmap filebitmap dirbitmap) (entryPieces server lay e)).length ≤
      block.length := by
    rw [hblock, length_append]
    exact Nat.le_add_right _ _
  rw [parseReplyBlock, hbitmap, ← storeAll_entryPieces server _ lay e]
  have hsize : ([] : Octets).length + (assemble (e.bitmap filebitmap dirbitmap)
      (entryPieces server lay e)).length ≤ block.length := by
    rw [length_nil, zero_add]
    exact hlen
  exact walk_assemble hread hblock hsize

end NetatalkClient
