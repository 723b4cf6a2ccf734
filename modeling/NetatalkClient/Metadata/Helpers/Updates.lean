import NetatalkClient.Metadata.Helpers.AppleDouble
/-!
# Updates of an AppleDouble sidecar

What the two updates leave of a sidecar whose header was accepted, where
the octets they write lie behind the table of entries. A new FinderInfo
does not touch the header. A write to the resource fork changes one length
in the table, and is accepted afterwards if the entries still lie inside
the file (`readAdInfo_resourceWritten`).
-/

namespace NetatalkClient

open Octets List AdEntry

variable {f buf : Octets} {info : AdInfo} {offset : ℕ} {c : Octets} {pos : ℕ} {netatalk : Bool}

/-- `c` written at `pos` puts nothing new in the `n` octets at `start`. -/
def LeavesAlone (f c : Octets) (pos start n : ℕ) : Prop :=
  ∀ i, start ≤ i → i < start + n → pos ≤ i → i < pos + c.length → c.byte (i - pos) = f.byte i

theorem octetsAt_pwrite_eq_iff {start n : ℕ} :
    (f.pwrite c pos).octetsAt start n = f.octetsAt start n ↔ LeavesAlone f c pos start n := by
  rw [octetsAt_eq_iff]
  constructor
  · intro h i hlow hhigh hpos hend
    have hbyte := h i hlow hhigh
    rwa [byte_pwrite, if_pos ⟨hpos, hend⟩] at hbyte
  · intro h i hlow hhigh
    rw [byte_pwrite]
    split
    · next hin => exact h i hlow hhigh hin.1 hin.2
    · rfl

/-! ## The calls on a sidecar that is accepted -/

theorem openAd_write (hread : readAdInfo f = .ok info) (netatalk : Bool) :
    openAd (some f) netatalk true = (.ok info, some f) := by
  simp [openAd, hread]

theorem adFinderSet_eq_zero {value f' : Octets}
    (hread : readAdInfo f = .ok info) (h : adFinderSet (some f) netatalk value = (0, some f')) :
    f' = f.pwrite value info.finder.offset := by
  rw [adFinderSet, openAd_write hread] at h
  dsimp only at h
  split at h
  · cases h
  · cases h
    rfl

theorem adResourceWrite_of_read {offset : ℕ} (hread : readAdInfo f = .ok info)
    (hne : info.resource.offset ≠ 0) (hsize : offset + buf.length ≤ 0xFFFFFFFF) :
    adResourceWrite (some f) netatalk buf offset =
      (0, some (resourceWritten f info buf offset)) := by
  rw [adResourceWrite, openAd_write hread]
  dsimp only
  rw [if_neg (by omega), Int.toNat_natCast, Option.map_some]

theorem adResourceWrite_eq_zero {offset : ℤ} {f' : Octets} (hread : readAdInfo f = .ok info)
    (h : adResourceWrite (some f) netatalk buf offset = (0, some f')) :
    offset.toNat + buf.length ≤ 0xFFFFFFFF ∧ f' = resourceWritten f info buf offset.toNat := by
  rw [adResourceWrite, openAd_write hread] at h
  dsimp only at h
  split at h
  · cases h
  · next hok =>
    cases h
    exact ⟨by omega, rfl⟩

/-! ## FinderInfo -/

/-- A write behind the table does not change it. -/
theorem AdHeader.pwrite_behind (hh : AdHeader f)
    (hpos : adTableEnd f ≤ pos) : AdHeader (f.pwrite c pos) ∧
      adTableEnd (f.pwrite c pos) = adTableEnd f ∧ adEntries (f.pwrite c pos) = adEntries f := by
  have hagree : Agree (adTableEnd f) (f.pwrite c pos) f :=
    fun i hi => byte_pwrite_of_lt (lt_of_lt_of_le hi hpos)
  have hfixed : Agree adHeaderSize (f.pwrite c pos) f :=
    fun i hi => hagree i (lt_of_lt_of_le hi (Nat.le_add_right _ _))
  obtain ⟨hh', hcount⟩ := hh.of_agree hfixed (le_trans hh.table (length_le_pwrite f c pos))
  exact ⟨hh', by rw [adTableEnd, adTableEnd, hcount], adEntries_of_agree hagree hcount⟩

theorem readAdInfo_pwrite_behind (hread : readAdInfo f = .ok info)
    (hpos : adTableEnd f ≤ pos) : readAdInfo (f.pwrite c pos) = .ok info := by
  obtain ⟨hh, hin, hfold⟩ := readAdInfo_eq_ok_iff.mp hread
  obtain ⟨hh', -, hentries⟩ := hh.pwrite_behind hpos
  rw [readAdInfo_eq_ok_iff, hentries]
  exact ⟨hh', fun e he => le_trans (hin e he) (length_le_pwrite f c pos), hfold⟩

/-! ## The resource fork -/

theorem resource_place (hread : readAdInfo f = .ok info) (hne : info.resource.offset ≠ 0) :
    ∃ k < adCount f, info.resource.headerOffset = adHeaderSize + k * adEntrySize := by
  obtain ⟨k, hk, heq⟩ := mem_map.mp (resource_mem hread hne).1
  exact ⟨k, mem_range.mp hk, by rw [← heq]; rfl⟩

/-- The two entries stand in different places. -/
theorem headerOffset_ne (hread : readAdInfo f = .ok info) (hne : info.resource.offset ≠ 0) :
    info.finder.headerOffset ≠ info.resource.headerOffset := by
  intro heq
  obtain ⟨hmem, hid⟩ := resource_mem hread hne
  rcases (found_of_foldlM (readAdInfo_eq_ok_iff.mp hread).2.2).1 with hnone | ⟨hmem', hid'⟩
  · obtain ⟨k, -, hk⟩ := resource_place hread hne
    rw [← heq, hnone, adHeaderSize] at hk
    change 0 = _ at hk
    omega
  · rw [eq_of_headerOffset_eq hmem' hmem heq, hid] at hid'
    exact absurd hid' (by decide)

/-- The length of a sidecar after a write of `size` octets at `offset` of
the resource fork. -/
def writtenLength (f : Octets) (info : AdInfo) (size offset : ℕ) : ℕ :=
  if offset = 0 then info.resource.offset + size
  else if size = 0 then f.length
  else max f.length (info.resource.offset + offset + size)

theorem byte_resourceWritten (f : Octets) (info : AdInfo) (buf : Octets) (offset i : ℕ) :
    (resourceWritten f info buf offset).byte i =
      if info.resource.headerOffset + 8 ≤ i ∧ i < info.resource.headerOffset + 12 then
        (padded 4 (resourceEnd info buf.length offset)).byte (i - (info.resource.headerOffset + 8))
      else if info.resource.offset + offset ≤ i ∧
          i < info.resource.offset + offset + buf.length then
        buf.byte (i - (info.resource.offset + offset))
      else if offset = 0 ∧ info.resource.offset ≤ i then 0
      else f.byte i := by
  rw [resourceWritten, byte_pwrite, length_padded, byte_pwrite]
  refine if_congr Iff.rfl rfl (if_congr Iff.rfl rfl ?_)
  by_cases hzero : offset = 0
  · rw [if_pos hzero]
    rcases lt_or_ge i info.resource.offset with hlt | hge
    · rw [byte_ftruncate hlt, if_neg (by omega)]
    · rw [byte_of_length_le (by rwa [length_ftruncate]), if_pos ⟨hzero, hge⟩]
  · rw [if_neg hzero, if_neg (by omega)]

/-- Before the resource fork only the length field is written. -/
theorem byte_resourceWritten_of_lt {i : ℕ} (hi : i < info.resource.offset)
    (hout : i < info.resource.headerOffset + 8 ∨ info.resource.headerOffset + 12 ≤ i) :
    (resourceWritten f info buf offset).byte i = f.byte i := by
  rw [byte_resourceWritten, if_neg (by omega), if_neg (by omega), if_neg (by omega)]

theorem be32_resourceWritten (hend : resourceEnd info buf.length offset < 4294967296) :
    (resourceWritten f info buf offset).be32 (info.resource.headerOffset + 8) =
      resourceEnd info buf.length offset := by
  have hat : (resourceWritten f info buf offset).octetsAt (info.resource.headerOffset + 8) 4 =
      padded 4 (resourceEnd info buf.length offset) := by
    have := octetsAt_pwrite ((if offset = 0 then f.ftruncate info.resource.offset else f).pwrite
      buf (info.resource.offset + offset)) (padded 4 (resourceEnd info buf.length offset))
      (info.resource.headerOffset + 8)
    rwa [length_padded] at this
  have hfield := be32_padded_append [] hend
  rw [append_nil, ← hat] at hfield
  rw [← hfield]
  have hbyte : ∀ j < 4, (resourceWritten f info buf offset).byte
      (info.resource.headerOffset + 8 + j) = ((resourceWritten f info buf offset).octetsAt
        (info.resource.headerOffset + 8) 4).byte j := fun j hj => (byte_octetsAt _ hj).symm
  simp only [be32, be16, zero_add, add_assoc] at hbyte ⊢
  rw [← hbyte 1 (by decide), ← hbyte 2 (by decide), ← hbyte 3 (by decide), ← hbyte 0 (by decide)]

theorem resourceEnd_lt (hread : readAdInfo f = .ok info) (hne : info.resource.offset ≠ 0)
    (hsize : offset + buf.length ≤ 0xFFFFFFFF) :
    resourceEnd info buf.length offset < 4294967296 := by
  obtain ⟨k, -, heq⟩ := mem_map.mp (resource_mem hread hne).1
  have hlt : info.resource.length < 4294967296 := by
    rw [← heq]
    exact be32_lt _ _
  rw [resourceEnd]
  split <;> omega

/-- A write behind the table of entries, in a file that has the table. -/
structure Behind (f : Octets) (info : AdInfo) : Prop where
  read : readAdInfo f = .ok info
  resource : adTableEnd f ≤ info.resource.offset

namespace Behind

variable (h : Behind f info)

include h

theorem resource_ne_zero : info.resource.offset ≠ 0 := by
  have := h.resource
  rw [adTableEnd, adHeaderSize] at this
  omega

theorem headerOffset_le : info.resource.headerOffset + adEntrySize ≤ adTableEnd f := by
  obtain ⟨k, hk, heq⟩ := resource_place h.read h.resource_ne_zero
  rw [heq, adTableEnd, adEntrySize]
  omega

theorem headerSize_le : adHeaderSize ≤ info.resource.headerOffset := by
  obtain ⟨k, -, heq⟩ := resource_place h.read h.resource_ne_zero
  rw [heq]
  exact Nat.le_add_right _ _

theorem length_resourceWritten :
    (resourceWritten f info buf offset).length = writtenLength f info buf.length offset := by
  have hro := h.resource
  have hho := h.headerOffset_le
  have htable := (AdHeader.of_readAdInfo h.read).table
  have hne : padded 4 (resourceEnd info buf.length offset) ≠ [] :=
    ne_nil_of_length_pos (by rw [length_padded]; decide)
  rw [adEntrySize] at hho
  rw [resourceWritten, length_pwrite, if_neg hne, length_padded, length_pwrite, writtenLength]
  simp only [← length_eq_zero_iff]
  by_cases hzero : offset = 0
  · rw [if_pos hzero, if_pos hzero, length_ftruncate]
    split <;> omega
  · rw [if_neg hzero, if_neg hzero]
    split <;> omega

/-- The entries after the write: one of them has another length. -/
theorem adEntries_resourceWritten (hend : resourceEnd info buf.length offset < 4294967296) :
    AdHeader (resourceWritten f info buf offset) ∧
      adTableEnd (resourceWritten f info buf offset) = adTableEnd f ∧
        adEntries (resourceWritten f info buf offset) = (adEntries f).map
        (·.resized info.resource.headerOffset (resourceEnd info buf.length offset)) := by
  have hro := h.resource
  have hho := h.headerSize_le
  have hh := AdHeader.of_readAdInfo h.read
  have hsize : adHeaderSize ≤ adTableEnd f := Nat.le_add_right _ _
  have hlen : adTableEnd f ≤ (resourceWritten f info buf offset).length := by
    have htable := hh.table
    rw [h.length_resourceWritten, writtenLength]
    split_ifs <;> omega
  have hagree : Agree adHeaderSize (resourceWritten f info buf offset) f :=
    fun i hi => byte_resourceWritten_of_lt (by omega) (.inl (by omega))
  obtain ⟨hh', hcount⟩ := hh.of_agree hagree hlen
  exact ⟨hh', by rw [adTableEnd, adTableEnd, hcount],
    adEntries_of_resized (resource_place h.read h.resource_ne_zero) hcount
    (be32_resourceWritten hend)
    fun i hi hout => byte_resourceWritten_of_lt (lt_of_lt_of_le hi hro) hout⟩

/-- What is found after the write. -/
theorem foldlM_resourceWritten (hend : resourceEnd info buf.length offset < 4294967296) :
    (adEntries (resourceWritten f info buf offset)).foldlM AdInfo.note .zero =
      some { info with resource :=
        { info.resource with length := resourceEnd info buf.length offset } } := by
  have hho := h.headerSize_le
  rw [adHeaderSize] at hho
  have hzero : AdInfo.zero = AdInfo.zero.map
      (·.resized info.resource.headerOffset (resourceEnd info buf.length offset)) := by
    have hne : zero.headerOffset ≠ info.resource.headerOffset := by
      change 0 ≠ info.resource.headerOffset
      omega
    rw [AdInfo.map, AdInfo.zero, resized_of_ne hne]
  rw [(h.adEntries_resourceWritten hend).2.2, hzero, foldlM_note_resized,
    (readAdInfo_eq_ok_iff.mp h.read).2.2, Option.map_some, AdInfo.map,
    resized_of_ne (headerOffset_ne h.read h.resource_ne_zero), resized_of_eq rfl]

/-- **What `read_ad_info` makes of the file after the write.** -/
theorem readAdInfo_resourceWritten (hend : resourceEnd info buf.length offset < 4294967296)
    {info' : AdInfo} :
    readAdInfo (resourceWritten f info buf offset) = .ok info' ↔
      ((∀ e ∈ adEntries f, e.headerOffset ≠ info.resource.headerOffset →
        e.Inside (writtenLength f info buf.length offset)) ∧
        info.resource.offset + resourceEnd info buf.length offset ≤
          writtenLength f info buf.length offset) ∧ info' = { info with resource :=
        { info.resource with length := resourceEnd info buf.length offset } } := by
  obtain ⟨hh', -, hentries⟩ := h.adEntries_resourceWritten hend
  have hmem := (resource_mem h.read h.resource_ne_zero).1
  rw [readAdInfo_eq_ok_iff, h.foldlM_resourceWritten hend, hentries, h.length_resourceWritten,
    and_iff_right hh', Option.some_inj, eq_comm]
  refine and_congr_left fun _ => ⟨fun hall => ⟨fun e he hne => ?_, ?_⟩, fun hall e he => ?_⟩
  · have hin := hall _ (mem_map_of_mem he)
    rwa [resized_of_ne hne] at hin
  · have hin := hall _ (mem_map_of_mem hmem)
    rwa [resized_of_eq rfl] at hin
  · obtain ⟨e₀, he₀, rfl⟩ := mem_map.mp he
    by_cases heq : e₀.headerOffset = info.resource.headerOffset
    · rw [eq_of_headerOffset_eq he₀ hmem heq, resized_of_eq rfl]
      exact hall.2
    · rw [resized_of_ne heq]
      exact hall.1 e₀ he₀ heq

end Behind

end NetatalkClient
