import NetatalkClient.Metadata.Model.AppleDouble
/-!
# What an AppleDouble header says

`read_ad_info` looks at a table of entries and at the length of the file.
It accepts a file if the table is there, every entry lies inside, and no
entry of the two kinds is given twice (`readAdInfo_eq_ok_iff`). So what a
write does to it is settled by what the write does to the table: a write
behind the table does nothing, and a write to one length field changes
that length.
-/

namespace NetatalkClient

open Octets List

/-- The number of entries the header announces. -/
def adCount (f : Octets) : ℕ := f.be16 24

/-- Where the table of entries ends. -/
def adTableEnd (f : Octets) : ℕ := adHeaderSize + adCount f * adEntrySize

/-- The entry in place `i` of the table. -/
def adEntryAt (f : Octets) (i : ℕ) : AdEntry :=
  ⟨f.be32 (adHeaderSize + i * adEntrySize), f.be32 (adHeaderSize + i * adEntrySize + 4),
    f.be32 (adHeaderSize + i * adEntrySize + 8), adHeaderSize + i * adEntrySize⟩

/-- The entries of the table. -/
def adEntries (f : Octets) : List AdEntry := (List.range (adCount f)).map (adEntryAt f)

/-- The header is one of an AppleDouble file, and its table is there. -/
structure AdHeader (f : Octets) : Prop where
  magic : f.be32 0 = adMagic
  version : f.be32 4 = adVersion
  pos : 0 < adCount f
  le : adCount f ≤ 32
  table : adTableEnd f ≤ f.length

/-- An entry that lies inside a file. -/
def AdEntry.Inside (e : AdEntry) (size : ℕ) : Prop := e.offset + e.length ≤ size

instance (e : AdEntry) (size : ℕ) : Decidable (e.Inside size) :=
  inferInstanceAs (Decidable (e.offset + e.length ≤ size))

variable {f f' : Octets} {info : AdInfo} {es : List AdEntry} {e : AdEntry} {info' : AdInfo}
variable {p n : ℕ}

/-! ## What is accepted -/

theorem readAdEntry_eq_ok_iff {i : ℕ} :
    readAdEntry f info i = .ok info' ↔
      (adHeaderSize + i * adEntrySize + adEntrySize ≤ f.length ∧
        (adEntryAt f i).Inside f.length) ∧ info.note (adEntryAt f i) = some info' := by
  have hlen : (f.pread adEntrySize (adHeaderSize + i * adEntrySize)).length ≠ adEntrySize ↔
      ¬ adHeaderSize + i * adEntrySize + adEntrySize ≤ f.length := by
    rw [length_pread, adEntrySize]
    omega
  have hfield : ∀ k, k + 3 < adEntrySize →
      (f.pread adEntrySize (adHeaderSize + i * adEntrySize)).be32 k =
        f.be32 (adHeaderSize + i * adEntrySize + k) := fun k hk => be32_pread hk
  simp only [readAdEntry, hfield 0 (by decide), hfield 4 (by decide), hfield 8 (by decide),
    add_zero]
  by_cases htable : adHeaderSize + i * adEntrySize + adEntrySize ≤ f.length
  · rw [if_neg (not_not_intro htable ∘ hlen.mp)]
    by_cases hin : (adEntryAt f i).Inside f.length
    · have hfits : ¬ f.length < f.be32 (adHeaderSize + i * adEntrySize + 4) +
          f.be32 (adHeaderSize + i * adEntrySize + 8) := not_lt.mpr hin
      rw [if_neg hfits, and_iff_right ⟨htable, hin⟩]
      cases hnote : info.note (adEntryAt f i) with
      | none =>
        rw [adEntryAt] at hnote
        simp [hnote]
      | some info₁ =>
        rw [adEntryAt] at hnote
        simp [hnote]
    · have hout : f.length < f.be32 (adHeaderSize + i * adEntrySize + 4) +
          f.be32 (adHeaderSize + i * adEntrySize + 8) := not_le.mp hin
      rw [if_pos hout]
      exact iff_of_false (by simp) fun h => hin h.1.2
  · rw [if_pos (hlen.mpr htable)]
    exact iff_of_false (by simp) fun h => htable h.1.1

theorem foldlM_readAdEntry_eq_ok_iff {is : List ℕ} :
    is.foldlM (readAdEntry f) info = .ok info' ↔
      (∀ i ∈ is, adHeaderSize + i * adEntrySize + adEntrySize ≤ f.length ∧
        (adEntryAt f i).Inside f.length) ∧
        (is.map (adEntryAt f)).foldlM AdInfo.note info = some info' := by
  induction is generalizing info with
  | nil => simp [pure, Except.pure]
  | cons i is ih =>
    rw [foldlM_cons, map_cons, foldlM_cons, forall_mem_cons]
    constructor
    · intro h
      cases hi : readAdEntry f info i with
      | error ret =>
        rw [hi] at h
        cases h
      | ok info₁ =>
        rw [hi] at h
        obtain ⟨hhead, hnote⟩ := readAdEntry_eq_ok_iff.mp hi
        obtain ⟨htail, hrest⟩ := ih.mp h
        exact ⟨⟨hhead, htail⟩, by rw [hnote]; exact hrest⟩
    · rintro ⟨⟨hhead, htail⟩, hfold⟩
      obtain ⟨info₁, hnote, hrest⟩ := Option.bind_eq_some_iff.mp hfold
      rw [readAdEntry_eq_ok_iff.mpr ⟨hhead, hnote⟩]
      exact ih.mpr ⟨htail, hrest⟩

/-- **What `read_ad_info` accepts**: the table is there, its entries lie
inside the file, and none of the two kinds comes twice. -/
theorem readAdInfo_eq_ok_iff : readAdInfo f = .ok info ↔
    AdHeader f ∧ (∀ e ∈ adEntries f, e.Inside f.length) ∧
      (adEntries f).foldlM AdInfo.note .zero = some info := by
  have hlen : (f.pread adHeaderSize 0).length ≠ adHeaderSize ↔ ¬ adHeaderSize ≤ f.length := by
    rw [length_pread, adHeaderSize]
    omega
  have hcount : (f.pread adHeaderSize 0).be16 24 = adCount f := by
    rw [be16_pread (by decide), zero_add]
    rfl
  have hmagic : (f.pread adHeaderSize 0).be32 0 = f.be32 0 := by
    rw [be32_pread (by decide)]
  have hversion : (f.pread adHeaderSize 0).be32 4 = f.be32 4 := by
    rw [be32_pread (by decide), zero_add]
  rw [readAdInfo]
  dsimp only
  rw [hcount, hmagic, hversion]
  constructor
  · intro h
    split at h
    · cases h
    next hl =>
    split at h
    · cases h
    next hm =>
    split at h
    · cases h
    next hv =>
    split at h
    · cases h
    next hc =>
    obtain ⟨hall, hfold⟩ := foldlM_readAdEntry_eq_ok_iff.mp h
    have hlast := (hall (adCount f - 1) (mem_range.mpr (by omega))).1
    have htable : adTableEnd f ≤ f.length := by
      simp only [adTableEnd, adHeaderSize, adEntrySize] at hlast ⊢
      omega
    refine ⟨⟨not_not.mp hm, not_not.mp hv, by omega, by omega, htable⟩, ?_, hfold⟩
    intro e he
    obtain ⟨i, hi, rfl⟩ := mem_map.mp he
    exact (hall i hi).2
  · rintro ⟨hh, hin, hfold⟩
    have htable := hh.table
    have hbase : adHeaderSize ≤ f.length := le_trans (Nat.le_add_right _ _) htable
    have hpos := hh.pos
    have hle := hh.le
    rw [if_neg (not_not_intro hbase ∘ hlen.mp), if_neg (not_not_intro hh.magic),
      if_neg (not_not_intro hh.version), if_neg (by omega)]
    refine foldlM_readAdEntry_eq_ok_iff.mpr ⟨fun i hi => ⟨?_, hin _ (mem_map_of_mem hi)⟩, hfold⟩
    have hi' := mem_range.mp hi
    simp only [adTableEnd, adHeaderSize, adEntrySize] at htable ⊢
    omega

theorem AdHeader.of_readAdInfo (h : readAdInfo f = .ok info) : AdHeader f :=
  (readAdInfo_eq_ok_iff.mp h).1

theorem inside_of_readAdInfo (h : readAdInfo f = .ok info) (he : e ∈ adEntries f) :
    e.Inside f.length := (readAdInfo_eq_ok_iff.mp h).2.1 e he

/-! ## The two entries -/

theorem note_cases (h : info.note e = some info') :
    e.id = adFinderId ∧ info' = { info with finder := e } ∨
      e.id = adResourceId ∧ info' = { info with resource := e } ∨ info' = info := by
  unfold AdInfo.note at h
  split at h
  · next hid =>
    split at h
    · cases h
    · cases h
      exact .inl ⟨hid, rfl⟩
  · split at h
    · next hid =>
      split at h
      · cases h
      · cases h
        exact .inr (.inl ⟨hid, rfl⟩)
    · cases h
      exact .inr (.inr rfl)

/-- What is found was there before or is one of the entries. -/
theorem found_of_foldlM {info₀ : AdInfo} (h : es.foldlM AdInfo.note info₀ = some info) :
    (info.finder = info₀.finder ∨ info.finder ∈ es ∧ info.finder.id = adFinderId) ∧
      (info.resource = info₀.resource ∨ info.resource ∈ es ∧ info.resource.id = adResourceId) := by
  induction es generalizing info₀ with
  | nil =>
    cases h
    exact ⟨.inl rfl, .inl rfl⟩
  | cons e es ih =>
    obtain ⟨info₁, hnote, hrest⟩ := Option.bind_eq_some_iff.mp h
    obtain ⟨hfinder, hresource⟩ := ih hrest
    rcases note_cases hnote with ⟨hid, rfl⟩ | ⟨hid, rfl⟩ | rfl
    · refine ⟨.inr ?_, hresource.imp_right fun h => ⟨mem_cons_of_mem _ h.1, h.2⟩⟩
      rcases hfinder with heq | ⟨hmem, hid'⟩
      · rw [heq]
        exact ⟨mem_cons_self, hid⟩
      · exact ⟨mem_cons_of_mem _ hmem, hid'⟩
    · refine ⟨hfinder.imp_right fun h => ⟨mem_cons_of_mem _ h.1, h.2⟩, .inr ?_⟩
      rcases hresource with heq | ⟨hmem, hid'⟩
      · rw [heq]
        exact ⟨mem_cons_self, hid⟩
      · exact ⟨mem_cons_of_mem _ hmem, hid'⟩
    · exact ⟨hfinder.imp_right fun h => ⟨mem_cons_of_mem _ h.1, h.2⟩,
        hresource.imp_right fun h => ⟨mem_cons_of_mem _ h.1, h.2⟩⟩

theorem finder_mem (h : readAdInfo f = .ok info) (hne : info.finder.offset ≠ 0) :
    info.finder ∈ adEntries f ∧ info.finder.id = adFinderId :=
  (found_of_foldlM (readAdInfo_eq_ok_iff.mp h).2.2).1.resolve_left fun hzero =>
    hne (by rw [hzero]; rfl)

theorem resource_mem (h : readAdInfo f = .ok info) (hne : info.resource.offset ≠ 0) :
    info.resource ∈ adEntries f ∧ info.resource.id = adResourceId :=
  (found_of_foldlM (readAdInfo_eq_ok_iff.mp h).2.2).2.resolve_left fun hzero =>
    hne (by rw [hzero]; rfl)

/-- The place of an entry tells it from the others. -/
theorem eq_of_headerOffset_eq {e' : AdEntry} (he : e ∈ adEntries f) (he' : e' ∈ adEntries f)
    (h : e.headerOffset = e'.headerOffset) : e = e' := by
  obtain ⟨i, -, rfl⟩ := mem_map.mp he
  obtain ⟨j, -, rfl⟩ := mem_map.mp he'
  have hij : adHeaderSize + i * adEntrySize = adHeaderSize + j * adEntrySize := h
  rw [adHeaderSize, adEntrySize] at hij
  rw [show i = j by omega]

/-- The entry in the place at `headerOffset` with another length. -/
def AdEntry.resized (headerOffset n : ℕ) (e : AdEntry) : AdEntry :=
  if e.headerOffset = headerOffset then { e with length := n } else e

theorem AdEntry.resized_of_ne (h : e.headerOffset ≠ p) : e.resized p n = e := if_neg h

theorem AdEntry.resized_of_eq (h : e.headerOffset = p) :
    e.resized p n = { e with length := n } := if_pos h

def AdInfo.map (g : AdEntry → AdEntry) (info : AdInfo) : AdInfo := ⟨g info.finder, g info.resource⟩

/-- Which entries are found does not depend on their lengths. -/
theorem foldlM_note_resized (p n : ℕ) :
    (es.map (·.resized p n)).foldlM AdInfo.note (info.map (·.resized p n)) =
      (es.foldlM AdInfo.note info).map (·.map (·.resized p n)) := by
  have hid : ∀ e : AdEntry, (e.resized p n).id = e.id := by
    intro e
    unfold AdEntry.resized
    split <;> rfl
  have hoffset : ∀ e : AdEntry, (e.resized p n).offset = e.offset := by
    intro e
    unfold AdEntry.resized
    split <;> rfl
  have hnote : ∀ (info : AdInfo) (e : AdEntry), (info.map (·.resized p n)).note (e.resized p n) =
      (info.note e).map (·.map (·.resized p n)) := by
    intro info e
    simp only [AdInfo.note, AdInfo.map, hid, hoffset]
    split_ifs <;> rfl
  induction es generalizing info with
  | nil => rfl
  | cons e es ih =>
    rw [map_cons, foldlM_cons, foldlM_cons, hnote]
    cases hinfo : info.note e with
    | none => rfl
    | some info₁ => exact ih

/-! ## A changed file -/

/-- The fixed part of the header is all that is read of it before the
table. -/
theorem AdHeader.of_agree (hh : AdHeader f) (h : Agree adHeaderSize f' f)
    (hlen : adTableEnd f ≤ f'.length) : AdHeader f' ∧ adCount f' = adCount f := by
  have hmagic : f'.be32 0 = f.be32 0 := be32_congr fun j _ hj => h j (by rw [adHeaderSize]; omega)
  have hversion : f'.be32 4 = f.be32 4 := be32_congr fun j _ hj => h j (by rw [adHeaderSize]; omega)
  have hcount : adCount f' = adCount f := h.be16 (by decide)
  refine ⟨⟨hmagic.trans hh.magic, hversion.trans hh.version, ?_, ?_, ?_⟩, hcount⟩
  · rw [hcount]; exact hh.pos
  · rw [hcount]; exact hh.le
  · rw [adTableEnd, hcount]; exact hlen

theorem lt_adTableEnd {i j : ℕ} (hi : i < adCount f) (hj : j < adEntrySize) :
    adHeaderSize + i * adEntrySize + j < adTableEnd f := by
  rw [adTableEnd, adEntrySize] at *
  omega

theorem adEntries_of_agree (h : Agree (adTableEnd f) f' f) (hcount : adCount f' = adCount f) :
    adEntries f' = adEntries f := by
  rw [adEntries, adEntries, hcount]
  refine map_congr_left fun i hi => ?_
  have hfield : ∀ k, k + 4 ≤ adEntrySize → f'.be32 (adHeaderSize + i * adEntrySize + k) =
      f.be32 (adHeaderSize + i * adEntrySize + k) := by
    intro k hk
    refine be32_congr fun j hlow hhigh => h j ?_
    have := lt_adTableEnd (mem_range.mp hi) (j := j - (adHeaderSize + i * adEntrySize)) (by omega)
    omega
  rw [adEntryAt, adEntryAt, hfield 4 (by decide), hfield 8 (by decide)]
  rw [← add_zero (adHeaderSize + i * adEntrySize), hfield 0 (by decide)]

/-- Another length in one place of the table, and nothing else. -/
theorem adEntries_of_resized (hp : ∃ k, k < adCount f ∧ p = adHeaderSize + k * adEntrySize)
    (hcount : adCount f' = adCount f) (hfield : f'.be32 (p + 8) = n)
    (hother : ∀ i < adTableEnd f, i < p + 8 ∨ p + 12 ≤ i → f'.byte i = f.byte i) :
    adEntries f' = (adEntries f).map (·.resized p n) := by
  obtain ⟨k, hk, rfl⟩ := hp
  rw [adEntries, adEntries, hcount, map_map]
  refine map_congr_left fun i hi => ?_
  have hsame : ∀ j, j + 4 ≤ adEntrySize → (i ≠ k ∨ j + 4 ≤ 8) →
      f'.be32 (adHeaderSize + i * adEntrySize + j) =
        f.be32 (adHeaderSize + i * adEntrySize + j) := by
    intro j hj hne
    refine be32_congr fun q hlow hhigh => hother q ?_ ?_
    · have := lt_adTableEnd (mem_range.mp hi) (j := q - (adHeaderSize + i * adEntrySize))
        (by omega)
      omega
    · rw [adEntrySize] at *
      omega
  have hzero : f'.be32 (adHeaderSize + i * adEntrySize) = f.be32 (adHeaderSize + i * adEntrySize) :=
    hsame 0 (by decide) (.inr (by decide))
  rw [Function.comp_apply, AdEntry.resized, adEntryAt, adEntryAt, hzero,
    hsame 4 (by decide) (.inr (by decide))]
  by_cases hik : i = k
  · subst hik
    rw [if_pos rfl, hfield]
  · have hne : ¬ adHeaderSize + i * adEntrySize = adHeaderSize + k * adEntrySize := by
      rw [adEntrySize]
      omega
    rw [if_neg hne, hsame 8 (by decide) (.inl hik)]

end NetatalkClient
