import NetatalkClient.Metadata.Model.EaSidecar
import Mathlib.Data.List.Nodup
/-!
# The header file of the attribute store

The header file is read back as it was written if the names in it have at
most 254 characters and there are at most 1024 of them (`Readable`). With
a name of 255 characters, or with 1025 names, it is written as before and
refused when it is read.
-/

namespace NetatalkClient

open Octets List

variable {items : List EaItem} {name : Octets} {n : ℕ} {item : EaItem}

/-! ## The header file, written and read -/

/-- Items that a header file can hold. -/
structure Readable (items : List EaItem) : Prop where
  short : ∀ item ∈ items, item.name.length ≤ 254
  plain : ∀ item ∈ items, 0 ∉ item.name
  size : ∀ item ∈ items, item.size < 4294967296
  nodup : (items.map EaItem.name).Nodup
  count : items.length ≤ 1024

theorem scanName_append (rest : Octets) (hzero : 0 ∉ name) (hlen : name.length < n) :
    scanName n (name ++ 0 :: rest) = some (name, rest) := by
  induction name generalizing n with
  | nil =>
    obtain ⟨n, rfl⟩ := Nat.exists_eq_succ_of_ne_zero (Nat.ne_zero_of_lt hlen)
    simp [scanName]
  | cons c name ih =>
    rw [length_cons] at hlen
    obtain ⟨n, rfl⟩ := Nat.exists_eq_succ_of_ne_zero (Nat.ne_zero_of_lt hlen)
    rw [mem_cons, not_or] at hzero
    rw [cons_append, scanName, if_neg (Ne.symm hzero.1), ih hzero.2 (by omega)]

theorem scanName_of_long (rest : Octets) (hzero : 0 ∉ name) (hlen : n ≤ name.length) :
    scanName n (name ++ rest) = none := by
  induction name generalizing n with
  | nil =>
    rw [Nat.le_zero.mp hlen, scanName]
  | cons c name ih =>
    cases n with
    | zero => rfl
    | succ n =>
      rw [mem_cons, not_or] at hzero
      rw [length_cons] at hlen
      rw [cons_append, scanName, if_neg (Ne.symm hzero.1), ih hzero.2 (by omega)]

theorem drop_eaItemBytes (item : EaItem) (rest : Octets) :
    (eaItemBytes item ++ rest).drop 4 = item.name ++ 0 :: rest := by
  have hlen : 4 = (padded 4 item.size).length := (length_padded _ _).symm
  rw [eaItemBytes, append_assoc]
  nth_rewrite 1 [hlen]
  rw [drop_left, append_assoc]
  rfl

/-- One item is read off the front. -/
theorem loadItems_eaItemBytes (rest : Octets)
    (hzero : 0 ∉ item.name) (hlen : item.name.length ≤ 254) (hsize : item.size < 4294967296)
    (hnew : item.name ∉ items.map EaItem.name) :
    loadItems (n + 1) (eaItemBytes item ++ rest) items = loadItems n rest (items ++ [item]) := by
  have hfield : (eaItemBytes item ++ rest).be32 0 = item.size := by
    rw [eaItemBytes, append_assoc]
    exact be32_padded_append _ hsize
  have hroom : ¬ (eaItemBytes item ++ rest).length < 4 := by
    rw [eaItemBytes, length_append, length_append, length_padded]
    omega
  have hother : ¬ items.any (·.name = item.name) = true := by
    intro hany
    obtain ⟨other, hmem, heq⟩ := any_eq_true.mp hany
    exact hnew (mem_map.mpr ⟨other, hmem, of_decide_eq_true heq⟩)
  rw [loadItems, if_neg hroom, drop_eaItemBytes, scanName_append rest hzero (by omega)]
  dsimp only
  rw [if_neg hother, hfield]

/-- Items are read off the front, behind those that are there. -/
theorem loadItems_flatMap (front : List EaItem) (rest : Octets)
    (hshort : ∀ item ∈ items, item.name.length ≤ 254) (hplain : ∀ item ∈ items, 0 ∉ item.name)
    (hsize : ∀ item ∈ items, item.size < 4294967296)
    (hnodup : ((front ++ items).map EaItem.name).Nodup) :
    loadItems (items.length + n) (items.flatMap eaItemBytes ++ rest) front =
      loadItems n rest (front ++ items) := by
  induction items generalizing front with
  | nil => simp
  | cons item items ih =>
    obtain ⟨hshort₀, hshort⟩ := forall_mem_cons.mp hshort
    obtain ⟨hplain₀, hplain⟩ := forall_mem_cons.mp hplain
    obtain ⟨hsize₀, hsize⟩ := forall_mem_cons.mp hsize
    have hnew : item.name ∉ front.map EaItem.name := by
      rw [map_append, map_cons] at hnodup
      exact fun hmem => (nodup_append.mp hnodup).2.2 _ hmem _ mem_cons_self rfl
    rw [length_cons, Nat.add_right_comm, flatMap_cons, append_assoc,
      loadItems_eaItemBytes _ hplain₀ hshort₀ hsize₀ hnew,
      ih _ hshort hplain hsize (by rwa [append_assoc]), append_assoc]
    rfl

/-- What `load_ea_items` does with a header file that was written. -/
theorem loadEaItems_bytes (hcount : items.length ≤ 1024) :
    loadEaItems (some (eaHeaderBytes items)) =
      loadItems items.length (items.flatMap eaItemBytes) [] := by
  have hmagic : (eaHeaderBytes items).be32 0 = eaMagic := by
    rw [eaHeaderBytes, append_assoc, append_assoc]
    exact be32_padded_append _ (by decide)
  have hversion : (eaHeaderBytes items).be16 4 = eaVersion := by
    rw [eaHeaderBytes, append_assoc, append_assoc]
    exact be16_append_padded _ _ (by decide) (length_padded _ _)
  have hnumber : (eaHeaderBytes items).be16 6 = items.length := by
    rw [eaHeaderBytes, append_assoc]
    exact be16_append_padded _ _ (by omega) (by simp)
  have hlen : (padded 4 eaMagic ++ padded 2 eaVersion ++ padded 2 items.length).length =
      eaHeaderSize := by
    simp [eaHeaderSize]
  have hrest : (eaHeaderBytes items).drop eaHeaderSize = items.flatMap eaItemBytes := by
    rw [eaHeaderBytes, ← hlen, drop_left]
  have hroom : ¬ (eaHeaderBytes items).length < eaHeaderSize := by
    rw [eaHeaderBytes, length_append, hlen]
    omega
  have hok : ¬ (eaMagic ≠ eaMagic ∨ eaVersion ≠ eaVersion ∨ 1024 < items.length) := by
    rintro (h | h | h)
    · exact h rfl
    · exact h rfl
    · omega
  simp only [loadEaItems, hmagic, hversion, hnumber, hrest]
  rw [if_neg hroom, if_neg hok]

/-- **What was written is read back.** -/
theorem Readable.load (h : Readable items) :
    loadEaItems (some (eaHeaderBytes items)) = .ok items := by
  have hload := loadItems_flatMap (n := 0) [] [] h.short h.plain h.size h.nodup
  rw [append_nil, add_zero, loadItems, nil_append] at hload
  rw [loadEaItems_bytes h.count, hload]

/-- With a name of 255 characters at the end nothing is read back. -/
theorem Readable.load_long (h : Readable items) (hcount : items.length < 1024)
    (hzero : 0 ∉ item.name) (hlen : item.name.length = 255) :
    loadEaItems (some (eaHeaderBytes (items ++ [item]))) = .error (-einval) := by
  have hload := loadItems_flatMap (n := 1) [] (eaItemBytes item) h.short h.plain h.size h.nodup
  have hrest := drop_eaItemBytes item []
  rw [append_nil] at hrest
  have hroom : ¬ (eaItemBytes item).length < 4 := by
    rw [eaItemBytes, length_append, length_padded]
    omega
  rw [loadEaItems_bytes (by rw [length_append]; exact hcount), length_append,
    length_singleton, flatMap_append, flatMap_singleton, hload, loadItems,
    if_neg hroom, hrest, scanName_of_long _ hzero hlen.ge]

/-- With 1025 names nothing is read back. -/
theorem loadEaItems_of_many (h : items.length = 1025) :
    loadEaItems (some (eaHeaderBytes items)) = .error (-einval) := by
  have hnumber : (eaHeaderBytes items).be16 6 = items.length := by
    rw [eaHeaderBytes, append_assoc]
    exact be16_append_padded _ _ (by omega) (by simp)
  have hroom : ¬ (eaHeaderBytes items).length < eaHeaderSize := by
    simp only [eaHeaderBytes, length_append, length_padded, eaHeaderSize]
    omega
  rw [loadEaItems, if_neg hroom, if_pos (.inr (.inr (by omega)))]

/-! ## The items of a call -/

theorem any_name_iff : items.any (·.name = name) = true ↔ name ∈ items.map EaItem.name := by
  simp

theorem map_name_setItem (size : ℕ) : (setItem items name size).map EaItem.name =
    if name ∈ items.map EaItem.name then items.map EaItem.name
    else items.map EaItem.name ++ [name] := by
  unfold setItem
  by_cases hmem : name ∈ items.map EaItem.name
  · rw [if_pos (any_name_iff.mpr hmem), if_pos hmem, map_map]
    refine map_congr_left fun item _ => ?_
    rw [Function.comp_apply]
    split <;> rfl
  · rw [if_neg (hmem ∘ any_name_iff.mp), if_neg hmem, map_append, map_singleton]

theorem mem_setItem {size : ℕ} (h : item ∈ setItem items name size) :
    item = ⟨name, size⟩ ∨ item ∈ items ∧ item.name ≠ name := by
  unfold setItem at h
  split at h
  · obtain ⟨old, hold, rfl⟩ := mem_map.mp h
    by_cases heq : old.name = name
    · rw [if_pos heq, ← heq]
      exact .inl rfl
    · rw [if_neg heq]
      exact .inr ⟨hold, heq⟩
  · next hnew =>
    rcases mem_append.mp h with hold | hone
    · exact .inr ⟨hold, fun heq => hnew (any_name_iff.mpr (mem_map.mpr ⟨item, hold, heq⟩))⟩
    · exact .inl (mem_singleton.mp hone)

theorem setItem_ne_nil (size : ℕ) : setItem items name size ≠ [] := by
  unfold setItem
  split
  · next hany =>
    rintro hnil
    rw [map_eq_nil_iff] at hnil
    rw [hnil] at hany
    cases hany
  · simp

theorem length_setItem (size : ℕ) : (setItem items name size).length =
    if name ∈ items.map EaItem.name then items.length else items.length + 1 := by
  have hnames : ((setItem items name size).map EaItem.name).length = _ :=
    congrArg List.length (map_name_setItem size)
  rw [length_map] at hnames
  rw [hnames]
  split <;> simp

theorem Readable.setItem {size : ℕ} (h : Readable items) (hzero : 0 ∉ name)
    (hlen : name.length ≤ 254) (hsize : size < 4294967296)
    (hcount : name ∈ items.map EaItem.name ∨ items.length < 1024) :
    Readable (setItem items name size) := by
  have hnodup := h.nodup
  have hle := h.count
  refine ⟨fun item hitem => ?_, fun item hitem => ?_, fun item hitem => ?_, ?_, ?_⟩
  · rcases mem_setItem hitem with rfl | ⟨hold, -⟩
    · exact hlen
    · exact h.short item hold
  · rcases mem_setItem hitem with rfl | ⟨hold, -⟩
    · exact hzero
    · exact h.plain item hold
  · rcases mem_setItem hitem with rfl | ⟨hold, -⟩
    · exact hsize
    · exact h.size item hold
  · rw [map_name_setItem]
    split
    · exact hnodup
    · next hnew =>
      exact nodup_append.mpr ⟨hnodup, nodup_singleton _,
        fun a ha b hb hab => hnew (mem_singleton.mp hb ▸ hab ▸ ha)⟩
  · rw [length_setItem]
    split
    · exact hle
    · next hnew => exact hcount.resolve_left hnew

theorem map_name_eraseP : (items.eraseP (·.name = name)).map EaItem.name =
    (items.map EaItem.name).erase name := by
  have hpred : ((name == ·) ∘ EaItem.name) = fun item : EaItem => decide (item.name = name) := by
    funext item
    rw [Function.comp_apply, Bool.eq_iff_iff, beq_iff_eq, decide_eq_true_iff]
    exact eq_comm
  rw [erase_eq_eraseP, eraseP_map, hpred]

theorem Readable.eraseP (h : Readable items) : Readable (items.eraseP (·.name = name)) := by
  have hsub : (items.eraseP (·.name = name)).Sublist items := eraseP_sublist
  refine ⟨fun item hitem => h.short item (hsub.subset hitem),
    fun item hitem => h.plain item (hsub.subset hitem),
    fun item hitem => h.size item (hsub.subset hitem), ?_, le_trans hsub.length_le h.count⟩
  exact h.nodup.sublist (hsub.map EaItem.name)

/-- Names are added to the list one by one. -/
theorem foldlM_appendName (front : List Octets) (hshort : ∀ item ∈ items, item.name.length ≤ 254)
    (hnodup : (front ++ items.map EaItem.name).Nodup) :
    items.foldlM (fun list item =>
        if metadataNameFiltered item.name then .ok list else appendName list item.name) front =
      (.ok (front ++ (items.map EaItem.name).filter (!metadataNameFiltered ·)) :
        Except ℤ (List Octets)) := by
  induction items generalizing front with
  | nil => simp [pure, Except.pure]
  | cons item items ih =>
    obtain ⟨hshort₀, hshort⟩ := forall_mem_cons.mp hshort
    rw [map_cons] at hnodup
    rw [foldlM_cons, map_cons, filter_cons]
    by_cases hfiltered : metadataNameFiltered item.name = true
    · have hnodup' : (front ++ items.map EaItem.name).Nodup :=
        hnodup.sublist ((sublist_cons_self _ _).append_left front)
      rw [if_pos hfiltered, if_neg (by simp [hfiltered])]
      exact ih _ hshort hnodup'
    · have hnew : ¬ front.contains item.name = true := by
        intro hmem
        exact (nodup_append.mp hnodup).2.2 _ (contains_iff_mem.mp hmem) _ mem_cons_self rfl
      have hroom : ¬ sysNameSize ≤ item.name.length := by
        change ¬ 261 ≤ item.name.length
        omega
      rw [if_neg hfiltered, if_pos (by simp [hfiltered]), appendName, if_neg hroom, if_neg hnew]
      change items.foldlM _ (front ++ [item.name]) = _
      rw [ih _ hshort (by rwa [append_assoc]), append_assoc]
      rfl

end NetatalkClient
