import NetatalkClient.Metadata.Helpers.EaHeader
import Mathlib.Data.Finmap
/-!
# The attribute store as a finite map

What the store is for: a finite map from names to values. A call that
keeps to what the header file can hold does to the files what it should do
to the map. A call may store a name of 255 characters, or a further name
beside 1024 others; it succeeds, and no call can read the header file
afterwards. So the store is the map exactly as long as no such call is
made (`eaStore_refines_iff`).
-/

namespace NetatalkClient

open Octets List Function

/-- The attributes of a file. -/
abbrev EaMap := Finmap fun _ : Octets => Octets

variable {items : List EaItem} {name : Octets}

/-! ## The store and the map -/

/-- What the map has under a name. -/
def EaMap.get (m : EaMap) (name : Octets) : Except ℤ Octets :=
  match m.lookup name with
  | none => .error (-enoattr)
  | some v => .ok v

/-- The files hold the map `m`, through the items of the header file. -/
structure Holds (fits : Octets → Bool) (s : EaSidecar) (m : EaMap) (items : List EaItem) :
    Prop where
  header : s.header = if items = [] then none else some (eaHeaderBytes items)
  readable : Readable items
  mem : ∀ name, name ∈ items.map EaItem.name ↔ name ∈ m
  value : ∀ item ∈ items, ∃ v, m.lookup item.name = some v ∧ s.value item.name = some v ∧
    v.length = item.size
  fit : ∀ item ∈ items, fits item.name = true

variable {fits : Octets → Bool} {s : EaSidecar} {m : EaMap} {value : Octets}

theorem holds_empty (values : Octets → Option Octets) : Holds fits ⟨none, values⟩ ∅ [] := by
  refine ⟨rfl, ⟨?_, ?_, ?_, nodup_nil, Nat.zero_le _⟩, fun name => ?_, ?_, ?_⟩
  · simp
  · simp
  · simp
  · exact iff_of_false not_mem_nil Finmap.notMem_empty
  · simp
  · simp

namespace Holds

variable (h : Holds fits s m items)

include h

theorem load : loadEaItems s.header =
    if items = [] then .error (-enoattr) else .ok items := by
  rw [h.header]
  split
  · rfl
  · exact h.readable.load

theorem card : m.keys.card = items.length := by
  have hkeys : m.keys = (items.map EaItem.name).toFinset := by
    ext name
    rw [Finmap.mem_keys, mem_toFinset, h.mem]
  rw [hkeys, toFinset_card_of_nodup h.readable.nodup, length_map]

theorem lookup_of_not_mem (hname : name ∉ items.map EaItem.name) : m.lookup name = none :=
  Finmap.lookup_eq_none.mpr (hname ∘ (h.mem name).mpr)

/-- A value is read back. -/
theorem get (name : Octets) : netatalkGet fits s name = m.get name := by
  rw [netatalkGet, h.load, EaMap.get]
  by_cases hnil : items = []
  · rw [if_pos hnil, h.lookup_of_not_mem (by rw [hnil]; exact not_mem_nil)]
  · rw [if_neg hnil]
    dsimp only
    cases hfind : items.find? (·.name = name) with
    | none =>
      have hno : name ∉ items.map EaItem.name := by
        intro hmem
        obtain ⟨item, hitem, heq⟩ := mem_map.mp hmem
        exact find?_eq_none.mp hfind item hitem (decide_eq_true heq)
      rw [h.lookup_of_not_mem hno]
    | some item =>
      have hitem := mem_of_find?_eq_some hfind
      have heq : item.name = name := by simpa using find?_some hfind
      obtain ⟨v, hlookup, hvalue, hlen⟩ := h.value item hitem
      have hfit : ¬ fits name = false := by
        rw [← heq, h.fit item hitem]
        decide
      rw [heq] at hlookup hvalue
      dsimp only
      rw [if_neg hfit, hvalue, hlookup]
      dsimp only
      rw [if_neg (by omega), ← hlen, take_length]

/-- The names that are listed. -/
theorem list : ∃ names, netatalkList s = .ok names ∧ names.Nodup ∧
    ∀ name, name ∈ names ↔ name ∈ m ∧ metadataNameFiltered name = false := by
  refine ⟨(items.map EaItem.name).filter (!metadataNameFiltered ·), ?_,
    h.readable.nodup.filter _, fun name => ?_⟩
  · rw [netatalkList, h.load]
    by_cases hnil : items = []
    · rw [if_pos hnil, hnil]
      rfl
    · rw [if_neg hnil]
      exact foldlM_appendName [] h.readable.short h.readable.nodup
  · rw [mem_filter, h.mem]
    simp

end Holds

/-! ## What a call does -/

theorem saveEaItems_of_le (hne : items ≠ []) (hlen : ∀ item ∈ items, item.name.length ≤ 255) :
    saveEaItems s items = (0, { s with header := some (eaHeaderBytes items) }) := by
  have hshort : ¬ items.any (fun item => afpXattrNameMax < item.name.length) = true := by
    intro hany
    obtain ⟨item, hitem, hlong⟩ := any_eq_true.mp hany
    exact not_lt.mpr (hlen item hitem) (of_decide_eq_true hlong)
  rw [saveEaItems, if_neg hne, if_neg hshort]

namespace Holds

variable (h : Holds fits s m items)

include h

/-- A value that can be stored is stored, and the header file written. -/
theorem set_eq (hvalue : value.length ≤ 0xFFFFFFFF) (hfit : fits name = true)
    (hlen : name.length ≤ 255) :
    netatalkSet fits s name value =
      (0, ⟨some (eaHeaderBytes (setItem items name value.length)),
        update s.value name (some value)⟩) := by
  have hstore : netatalkSet fits s name value = netatalkSet.store fits s name value items := by
    rw [netatalkSet, if_neg (not_lt.mpr hvalue), h.load]
    by_cases hnil : items = []
    · rw [if_pos hnil, hnil]
      exact if_pos (.inl rfl)
    · rw [if_neg hnil]
  have hno : ¬ fits name = false := by
    rw [hfit]
    decide
  have hnames : ∀ item ∈ setItem items name value.length, item.name.length ≤ 255 := by
    intro item hitem
    rcases mem_setItem hitem with rfl | ⟨hold, -⟩
    · exact hlen
    · exact Nat.le_succ_of_le (h.readable.short item hold)
  rw [hstore, netatalkSet.store, if_neg hno, saveEaItems_of_le (setItem_ne_nil _) hnames]

/-- **A value under a name that the header file can hold.** -/
theorem set (hvalue : value.length ≤ 0xFFFFFFFF) (hfit : fits name = true) (hzero : 0 ∉ name)
    (hlen : name.length ≤ 254) (hcount : name ∈ m ∨ m.keys.card < 1024) :
    Holds fits ⟨some (eaHeaderBytes (setItem items name value.length)),
      update s.value name (some value)⟩ (m.insert name value)
      (setItem items name value.length) := by
  rw [← h.mem name, h.card] at hcount
  refine ⟨(if_neg (setItem_ne_nil _)).symm,
    h.readable.setItem hzero hlen (by omega) hcount, fun other => ?_, fun item hitem => ?_,
    fun item hitem => ?_⟩
  · rw [map_name_setItem, Finmap.mem_insert, ← h.mem other]
    split
    · next hmem => exact ⟨.inr, fun hor => hor.elim (fun heq => heq ▸ hmem) id⟩
    · rw [mem_append, mem_singleton, or_comm]
  · rcases mem_setItem hitem with rfl | ⟨hold, hne⟩
    · exact ⟨value, Finmap.lookup_insert m, update_self _ _ _, rfl⟩
    · obtain ⟨v, hlookup, hv, hsize⟩ := h.value item hold
      exact ⟨v, (Finmap.lookup_insert_of_ne m hne).trans hlookup,
        (update_of_ne hne _ _).trans hv, hsize⟩
  · rcases mem_setItem hitem with rfl | ⟨hold, -⟩
    · exact hfit
    · exact h.fit item hold

/-- **A value under a name that the header file cannot hold**: nothing is
read back. -/
theorem get_of_not_kept (hzero : 0 ∉ name) (hlen : name.length ≤ 255)
    (hbad : ¬ (name.length ≤ 254 ∧ (name ∈ m ∨ m.keys.card < 1024)))
    (values : Octets → Option Octets) :
    netatalkGet fits ⟨some (eaHeaderBytes (setItem items name value.length)), values⟩ name =
      .error (-einval) := by
  have hcount := h.readable.count
  rw [← h.mem name, h.card] at hbad
  -- either way the name is a new one
  have hnew : name ∉ items.map EaItem.name := by
    intro hmem
    obtain ⟨item, hitem, heq⟩ := mem_map.mp hmem
    exact hbad ⟨heq ▸ h.readable.short item hitem, .inl hmem⟩
  have hitems : setItem items name value.length = items ++ [⟨name, value.length⟩] := by
    rw [setItem, if_neg (hnew ∘ any_name_iff.mp)]
  have hload : loadEaItems (some (eaHeaderBytes (setItem items name value.length))) =
      .error (-einval) := by
    rw [hitems]
    by_cases hfull : items.length < 1024
    · have hlong : name.length = 255 := by
        by_contra hne
        exact hbad ⟨by omega, .inr hfull⟩
      exact h.readable.load_long hfull hzero hlong
    · exact loadEaItems_of_many (by rw [length_append, length_singleton]; omega)
  rw [netatalkGet, hload]

/-- **A name that is removed.** -/
theorem remove (hmem : name ∈ m) :
    ∃ s', netatalkRemove fits s name = (0, s') ∧
      Holds fits s' (m.erase name) (items.eraseP (·.name = name)) := by
  have hany := any_name_iff.mpr ((h.mem name).mpr hmem)
  have hne : items ≠ [] := by
    rintro rfl
    cases hany
  have hfit : ¬ fits name = false := by
    obtain ⟨item, hitem, heq⟩ := mem_map.mp ((h.mem name).mpr hmem)
    rw [← heq, h.fit item hitem]
    decide
  have hold : ∀ item ∈ items.eraseP (·.name = name), item ∈ items :=
    fun item hitem => eraseP_subset hitem
  have hother : ∀ item ∈ items.eraseP (·.name = name), item.name ≠ name := by
    intro item hitem
    have hin := mem_map_of_mem (f := EaItem.name) hitem
    rw [map_name_eraseP] at hin
    exact (h.readable.nodup.mem_erase_iff.mp hin).1
  have hshort : ∀ item ∈ items.eraseP (·.name = name), item.name.length ≤ 255 :=
    fun item hitem => Nat.le_succ_of_le (h.readable.short item (hold item hitem))
  refine ⟨⟨if items.eraseP (·.name = name) = [] then none
    else some (eaHeaderBytes (items.eraseP (·.name = name))),
    update s.value name none⟩, ?_, rfl, h.readable.eraseP, fun other => ?_,
    fun item hitem => ?_, fun item hitem => h.fit item (hold item hitem)⟩
  · rw [netatalkRemove, h.load, if_neg hne]
    dsimp only
    rw [if_pos hany, if_neg hfit]
    by_cases hnil : items.eraseP (·.name = name) = []
    · rw [if_pos hnil, saveEaItems, if_pos hnil]
    · rw [if_neg hnil, saveEaItems_of_le hnil hshort]
  · rw [map_name_eraseP, h.readable.nodup.mem_erase_iff, Finmap.mem_erase, h.mem]
  · obtain ⟨v, hlookup, hv, hsize⟩ := h.value item (hold item hitem)
    have hne := hother item hitem
    exact ⟨v, (Finmap.lookup_erase_ne hne).trans hlookup, (update_of_ne hne _ _).trans hv, hsize⟩

theorem remove_absent (hmem : name ∉ m) : netatalkRemove fits s name = (-enoattr, s) := by
  have hany : ¬ items.any (·.name = name) = true := hmem ∘ (h.mem name).mp ∘ any_name_iff.mp
  rw [netatalkRemove, h.load]
  by_cases hnil : items = []
  · rw [if_pos hnil]
  · rw [if_neg hnil]
    exact if_neg hany

theorem set_refused (hbad : ¬ (value.length ≤ 0xFFFFFFFF ∧ fits name = true)) :
    ∃ ret, ret ≠ 0 ∧ netatalkSet fits s name value = (ret, s) := by
  by_cases hvalue : value.length ≤ 0xFFFFFFFF
  · have hfit : fits name = false := by simpa [hvalue] using hbad
    have hstore : ∀ items, netatalkSet.store fits s name value items = (-enametoolong, s) :=
      fun items => if_pos hfit
    refine ⟨-enametoolong, by decide, ?_⟩
    rw [netatalkSet, if_neg (not_lt.mpr hvalue), h.load]
    by_cases hnil : items = []
    · rw [if_pos hnil]
      exact (if_pos (.inl rfl)).trans (hstore [])
    · rw [if_neg hnil]
      exact hstore items
  · exact ⟨-e2big, by decide, by rw [netatalkSet, if_pos (not_le.mp hvalue)]⟩

end Holds

/-! ## Sequences of calls -/

/-- A call that changes the store. -/
inductive EaCall where
  | set (name value : Octets)
  | remove (name : Octets)
  deriving DecidableEq, Repr

/-- The name a call is about. -/
def EaCall.attribute : EaCall → Octets
  | .set name _ => name
  | .remove name => name

/-- A string that `metadata_name_valid` accepts. -/
def EaName (name : Octets) : Prop := metadataNameValid name = true ∧ 0 ∉ name

theorem EaName.length_le (h : EaName name) : name.length ≤ 255 := by
  have hvalid := h.1
  rw [metadataNameValid, Bool.and_eq_true, Bool.and_eq_true] at hvalid
  exact of_decide_eq_true hvalid.1.2

/-- A call: what it returns, and the store. -/
def eaCall (fits : Octets → Bool) (s : EaSidecar) : EaCall → ℤ × EaSidecar
  | .set name value => netatalkSet fits s name value
  | .remove name => netatalkRemove fits s name

/-- A call that returned `ret`, on the map. -/
def EaMap.call (m : EaMap) (c : EaCall) (ret : ℤ) : EaMap :=
  if ret = 0 then
    match c with
    | .set name value => m.insert name value
    | .remove name => m.erase name
  else m

/-- The store answers as the map does. -/
def Refines (fits : Octets → Bool) (s : EaSidecar) (m : EaMap) : Prop :=
  (∀ name, EaName name → netatalkGet fits s name = m.get name) ∧
    ∃ names, netatalkList s = .ok names ∧ names.Nodup ∧
      ∀ name, name ∈ names ↔ name ∈ m ∧ metadataNameFiltered name = false

/-- The store answers as the map does, now and after each of the calls. -/
def RefinesAlong (fits : Octets → Bool) : EaSidecar → EaMap → List EaCall → Prop
  | s, m, [] => Refines fits s m
  | s, m, c :: cs => Refines fits s m ∧
      RefinesAlong fits (eaCall fits s c).2 (m.call c (eaCall fits s c).1) cs

/-- A set that goes through stores a name of at most 254 characters, and no
1025th one. -/
def EaCall.Kept (fits : Octets → Bool) (m : EaMap) : EaCall → Prop
  | .set name value => value.length ≤ 0xFFFFFFFF → fits name = true →
      name.length ≤ 254 ∧ (name ∈ m ∨ m.keys.card < 1024)
  | .remove _ => True

/-- The map after a call, as the call's arguments have it. -/
def EaMap.next (fits : Octets → Bool) (m : EaMap) : EaCall → EaMap
  | .set name value => if value.length ≤ 0xFFFFFFFF ∧ fits name = true then m.insert name value
      else m
  | .remove name => if name ∈ m then m.erase name else m

/-- All of the calls store names that the header file can hold. -/
def KeptAlong (fits : Octets → Bool) : EaMap → List EaCall → Prop
  | _, [] => True
  | m, c :: cs => c.Kept fits m ∧ KeptAlong fits (m.next fits c) cs

theorem Holds.refines (h : Holds fits s m items) : Refines fits s m :=
  ⟨fun name _ => h.get name, h.list⟩

/-- The call did to the map what its arguments say. -/
theorem Holds.call_eq_next (h : Holds fits s m items) {c : EaCall} (hc : EaName c.attribute) :
    m.call c (eaCall fits s c).1 = m.next fits c := by
  cases c with
  | set name value =>
    have hlen : name.length ≤ 255 := EaName.length_le hc
    by_cases hok : value.length ≤ 0xFFFFFFFF ∧ fits name = true
    · rw [eaCall, h.set_eq hok.1 hok.2 hlen, EaMap.next, if_pos hok]
      exact if_pos rfl
    · obtain ⟨ret, hret, heq⟩ := h.set_refused hok
      rw [eaCall, heq, EaMap.next, if_neg hok]
      exact if_neg hret
  | remove name =>
    by_cases hmem : name ∈ m
    · obtain ⟨s', heq, -⟩ := h.remove hmem
      rw [eaCall, heq, EaMap.next, if_pos hmem]
      exact if_pos rfl
    · rw [eaCall, h.remove_absent hmem, EaMap.next, if_neg hmem]
      have hret : -enoattr ≠ 0 := by decide
      exact if_neg hret

/-- **One call.** A call that is kept leaves a store that holds the map;
after any other the store does not answer as the map does. -/
theorem Holds.call (h : Holds fits s m items) {c : EaCall} (hc : EaName c.attribute) :
    (c.Kept fits m → ∃ items', Holds fits (eaCall fits s c).2 (m.next fits c) items') ∧
      (¬ c.Kept fits m → ¬ Refines fits (eaCall fits s c).2 (m.next fits c)) := by
  cases c with
  | set name value =>
    have hlen : name.length ≤ 255 := EaName.length_le hc
    by_cases hok : value.length ≤ 0xFFFFFFFF ∧ fits name = true
    · rw [eaCall, h.set_eq hok.1 hok.2 hlen, EaMap.next, if_pos hok]
      refine ⟨fun hkept => ?_, fun hnot hrefines => ?_⟩
      · obtain ⟨hshort, hcount⟩ := hkept hok.1 hok.2
        exact ⟨_, h.set hok.1 hok.2 hc.2 hshort hcount⟩
      · have hbad : ¬ (name.length ≤ 254 ∧ (name ∈ m ∨ m.keys.card < 1024)) :=
          fun hgood => hnot fun _ _ => hgood
        have hzero : 0 ∉ name := hc.2
        have hget := (h.get_of_not_kept hzero hlen hbad _).symm.trans (hrefines.1 name hc)
        rw [EaMap.get, Finmap.lookup_insert] at hget
        cases hget
    · obtain ⟨ret, -, heq⟩ := h.set_refused hok
      rw [eaCall, heq, EaMap.next, if_neg hok]
      exact ⟨fun _ => ⟨items, h⟩, fun hnot => absurd (fun hv hf => absurd ⟨hv, hf⟩ hok) hnot⟩
  | remove name =>
    refine ⟨fun _ => ?_, fun hnot => absurd trivial hnot⟩
    by_cases hmem : name ∈ m
    · obtain ⟨s', heq, hs'⟩ := h.remove hmem
      rw [eaCall, heq, EaMap.next, if_pos hmem]
      exact ⟨_, hs'⟩
    · rw [eaCall, h.remove_absent hmem, EaMap.next, if_neg hmem]
      exact ⟨items, h⟩

theorem RefinesAlong.refines {cs : List EaCall} (h : RefinesAlong fits s m cs) :
    Refines fits s m := by
  cases cs with
  | nil => exact h
  | cons c cs => exact h.1

theorem Holds.refinesAlong_iff {cs : List EaCall} (h : Holds fits s m items)
    (hcs : ∀ c ∈ cs, EaName c.attribute) : RefinesAlong fits s m cs ↔ KeptAlong fits m cs := by
  induction cs generalizing s m items with
  | nil => exact iff_of_true h.refines trivial
  | cons c cs ih =>
    obtain ⟨hc, hrest⟩ := forall_mem_cons.mp hcs
    rw [RefinesAlong, KeptAlong, and_iff_right h.refines, h.call_eq_next hc]
    by_cases hkept : c.Kept fits m
    · obtain ⟨items', hnext⟩ := (h.call hc).1 hkept
      rw [ih hnext hrest, and_iff_right hkept]
    · refine iff_of_false (fun halong => ?_) fun hand => hkept hand.1
      exact (h.call hc).2 hkept halong.refines

end NetatalkClient
