import NetatalkClient.Metadata.Helpers.Updates
import NetatalkClient.Common.Machine
/-!
# The sidecar as a store of two items

What the sidecar is for: a FinderInfo of 32 octets and a resource fork,
where a write at the start of the fork replaces it and any other write is
laid over it. In a sidecar of our own the fork is the last entry and the
FinderInfo stands between the table and the fork (`Laid`). Every update
keeps this, so a sidecar that was made by updates answers as the pair does
(`sidecar_refines_pair`). Only before the first update a read of the fork
is an error, and not a read of an empty fork.
-/

namespace NetatalkClient

open Octets List Option

/-- A file's metadata: the FinderInfo and the resource fork. -/
structure AppleMetadata where
  finder : Octets
  resource : Octets
  deriving DecidableEq, Repr

/-- An update of the metadata. -/
inductive AdUpdate where
  | finder (value : Octets)
  | resource (buf : Octets) (offset : ℕ)
  deriving DecidableEq, Repr

/-- The updates in question: 32 octets of FinderInfo; a write that ends
below 2³², and an empty one at the start only. -/
def AdUpdate.Admitted : AdUpdate → Prop
  | .finder value => value.length = 32
  | .resource buf offset => offset + buf.length ≤ 0xFFFFFFFF ∧ (buf = [] → offset = 0)

instance : ∀ u, Decidable (AdUpdate.Admitted u)
  | .finder value => inferInstanceAs (Decidable (value.length = 32))
  | .resource buf offset =>
      inferInstanceAs (Decidable (offset + buf.length ≤ 0xFFFFFFFF ∧ (buf = [] → offset = 0)))

namespace AppleMetadata

/-- No metadata. -/
def empty : AppleMetadata := ⟨replicate 32 0, []⟩

def update (m : AppleMetadata) : AdUpdate → AppleMetadata
  | .finder value => { m with finder := value }
  | .resource buf offset =>
      { m with resource := if offset = 0 then buf else m.resource.overwrite offset buf }

/-- FinderInfo that is all zeros reads as absent. -/
def finderGet (m : AppleMetadata) : Except ℤ Octets :=
  if m.finder = replicate 32 0 then .error (-enoattr) else .ok m.finder

/-- A fork that is empty has no size. -/
def resourceSize (m : AppleMetadata) : ℤ :=
  if m.resource = [] then -enoattr else m.resource.length

def resourceRead (m : AppleMetadata) (size : ℕ) (offset : ℤ) : Octets :=
  if offset < 0 then [] else (m.resource.drop offset.toNat).take size

end AppleMetadata

/-- An update by the call that makes it. -/
def adUpdate (sidecar : Option Octets) (netatalk : Bool) : AdUpdate → ℤ × Option Octets
  | .finder value => adFinderSet sidecar netatalk value
  | .resource buf offset => adResourceWrite sidecar netatalk buf offset

/-- An update that succeeds. -/
def adStep (netatalk : Bool) (sidecar : Option Octets) (u : AdUpdate) : Option (Option Octets) :=
  if (adUpdate sidecar netatalk u).1 = 0 then some (adUpdate sidecar netatalk u).2 else none

/-! ## The layout -/

/-- A sidecar with the metadata `m`: the FinderInfo behind the table, the
fork behind everything else and up to the end. -/
structure Laid (f : Octets) (info : AdInfo) (m : AppleMetadata) : Prop where
  read : readAdInfo f = .ok info
  table : adTableEnd f ≤ info.finder.offset
  wide : 32 ≤ info.finder.length
  others : ∀ e ∈ adEntries f, e.headerOffset ≠ info.resource.headerOffset →
    e.Inside info.resource.offset
  last : info.resource.offset ≠ 0
  size : f.length = info.resource.offset + info.resource.length
  finder : f.octetsAt info.finder.offset 32 = m.finder
  resource : f.drop info.resource.offset = m.resource

namespace Laid

variable {f : Octets} {info : AdInfo} {m : AppleMetadata} (h : Laid f info m)

include h

theorem finder_ne_zero : info.finder.offset ≠ 0 := by
  have := h.table
  rw [adTableEnd, adHeaderSize] at this
  omega

theorem finder_le : info.finder.offset + 32 ≤ info.resource.offset := by
  have hin : info.finder.offset + info.finder.length ≤ info.resource.offset :=
    h.others _ (finder_mem h.read h.finder_ne_zero).1 (headerOffset_ne h.read h.last)
  have := h.wide
  omega

theorem behind : Behind f info := by
  have htable := h.table
  have hle := h.finder_le
  exact ⟨h.read, by omega⟩

theorem length_resource : m.resource.length = info.resource.length := by
  rw [← h.resource, length_drop, h.size, Nat.add_sub_cancel_left]

/-- A new FinderInfo changes nothing else. -/
theorem finderSet {value : Octets} (hvalue : value.length = 32) :
    Laid (f.pwrite value info.finder.offset) info { m with finder := value } := by
  have hle := h.finder_le
  have hsize := h.size
  obtain ⟨-, htable, hentries⟩ := (AdHeader.of_readAdInfo h.read).pwrite_behind h.table (c := value)
  have hlen : (f.pwrite value info.finder.offset).length = f.length := by
    rw [length_pwrite]
    split <;> omega
  refine ⟨readAdInfo_pwrite_behind h.read h.table, by rw [htable]; exact h.table, h.wide,
    by rw [hentries]; exact h.others, h.last, hlen.trans hsize, ?_, ?_⟩
  · rw [← hvalue]
    exact octetsAt_pwrite f value info.finder.offset
  · rw [← h.resource]
    refine ext_byte (by simp [hlen]) fun i _ => ?_
    rw [byte_drop, byte_drop, byte_pwrite_of_ge (by omega)]

/-- A write to the fork gives it its new octets and length. -/
theorem resourceWrite {buf : Octets} {offset : ℕ} (hsize : offset + buf.length ≤ 0xFFFFFFFF)
    (hempty : buf = [] → offset = 0) :
    Laid (resourceWritten f info buf offset) { info with resource :=
        { info.resource with length := resourceEnd info buf.length offset } }
      (m.update (.resource buf offset)) := by
  have hb := h.behind
  have hle := h.finder_le
  have htable := h.table
  have hho := hb.headerOffset_le
  rw [adEntrySize] at hho
  have hend := resourceEnd_lt h.read h.last hsize
  have hpos : offset ≠ 0 → buf.length ≠ 0 := fun hne hnil =>
    hne (hempty (length_eq_zero_iff.mp hnil))
  -- the fork ends where the file does
  have hwritten : writtenLength f info buf.length offset =
      info.resource.offset + resourceEnd info buf.length offset := by
    have hfile := h.size
    rw [writtenLength, resourceEnd]
    split_ifs <;> omega
  have hfinder : (resourceWritten f info buf offset).octetsAt info.finder.offset 32 =
      f.octetsAt info.finder.offset 32 := octetsAt_congr fun i hlow hhigh =>
    byte_resourceWritten_of_lt (by omega) (.inr (by omega))
  obtain ⟨-, htable', hentries⟩ := hb.adEntries_resourceWritten hend
  refine ⟨(hb.readAdInfo_resourceWritten hend).mpr ⟨⟨fun e he hne => ?_, ?_⟩, rfl⟩,
    by rw [htable']; exact h.table, h.wide, fun e he hne => ?_, h.last,
    hb.length_resourceWritten.trans hwritten, ?_, ?_⟩
  · have hin : e.offset + e.length ≤ info.resource.offset := h.others e he hne
    rw [hwritten]
    exact le_trans hin (Nat.le_add_right _ _)
  · exact hwritten.ge
  · rw [hentries] at he
    obtain ⟨e₀, he₀, rfl⟩ := mem_map.mp he
    have hne₀ : e₀.headerOffset ≠ info.resource.headerOffset := by
      intro heq
      rw [AdEntry.resized_of_eq heq] at hne
      exact hne heq
    rw [AdEntry.resized_of_ne hne₀]
    exact h.others e₀ he₀ hne₀
  · exact hfinder.trans h.finder
  · have hold : ∀ i, m.resource.byte i = f.byte (info.resource.offset + i) := by
      intro i
      rw [← h.resource, byte_drop]
    have hlen := h.length_resource
    change (resourceWritten f info buf offset).drop info.resource.offset =
      if offset = 0 then buf else m.resource.overwrite offset buf
    refine ext_byte ?_ fun i _ => ?_
    · rw [length_drop, hb.length_resourceWritten, hwritten, resourceEnd]
      split_ifs with hlong hzero hzero
      · omega
      · rw [length_overwrite]
        omega
      · omega
      · rw [length_overwrite]
        omega
    · rw [byte_drop, byte_resourceWritten, if_neg (by omega)]
      by_cases hzero : offset = 0
      · rw [if_pos hzero, hzero]
        split
        · congr 1
          omega
        · rw [if_pos ⟨rfl, by omega⟩, byte_of_length_le (by omega)]
      · have hkept : ¬ (offset = 0 ∧ info.resource.offset ≤ info.resource.offset + i) :=
          fun hcut => hzero hcut.1
        rw [if_neg hzero, if_neg hkept, byte_overwrite, hold]
        refine if_congr (by omega) ?_ rfl
        congr 1
        omega

/-! ## What a laid out sidecar answers -/

theorem adFinderGet (netatalk : Bool) : adFinderGet (some f) netatalk = m.finderGet := by
  have hno : ¬ (info.finder.offset = 0 ∨ info.finder.length < 32) :=
    not_or.mpr ⟨h.finder_ne_zero, not_lt.mpr h.wide⟩
  have hle := h.finder_le
  have hsize := h.size
  have hvalue : f.pread 32 info.finder.offset = m.finder :=
    (pread_eq_octetsAt (by omega)).trans h.finder
  have hlen : m.finder.length = 32 := by rw [← h.finder, length_octetsAt]
  rw [NetatalkClient.adFinderGet, openAd, if_neg Bool.false_ne_true]
  simp only [h.read, getD_some]
  rw [if_neg hno, hvalue, if_neg (not_not_intro hlen)]
  rfl

theorem adResourceSize (netatalk : Bool) : adResourceSize (some f) netatalk = m.resourceSize := by
  rw [NetatalkClient.adResourceSize, openAd, if_neg Bool.false_ne_true]
  simp only [h.read]
  rw [AppleMetadata.resourceSize, ← h.length_resource]
  exact if_congr length_eq_zero_iff rfl rfl

theorem adResourceRead (netatalk : Bool) (size : ℕ) (offset : ℤ) :
    adResourceRead (some f) netatalk size offset = .ok (m.resourceRead size offset) := by
  rw [NetatalkClient.adResourceRead, openAd, if_neg Bool.false_ne_true]
  simp only [h.read, getD_some]
  rw [AppleMetadata.resourceRead]
  by_cases hneg : offset < 0
  · rw [if_pos (.inl hneg), if_pos hneg]
  · rw [if_neg hneg]
    by_cases hpast : (info.resource.length : ℤ) ≤ offset
    · rw [if_pos (.inr hpast), drop_of_length_le (by rw [h.length_resource]; omega), take_nil]
    · have hdrop : f.drop (info.resource.offset + offset.toNat) = m.resource.drop offset.toNat := by
        rw [← drop_drop, h.resource]
      have hlen : (m.resource.drop offset.toNat).length = info.resource.length - offset.toNat := by
        rw [length_drop, h.length_resource]
      rw [if_neg (by omega), pread, hdrop, ← hlen, ← take_take, take_length]

end Laid

/-! ## Runs of updates -/

/-- A sidecar that stands for the metadata `m`. -/
def Stored (sidecar : Option Octets) (m : AppleMetadata) : Prop :=
  match sidecar with
  | none => m = .empty
  | some f => ∃ info, Laid f info m

/-- What `readAdInfo` finds in a new sidecar. -/
def initialInfo (netatalk : Bool) : AdInfo :=
  if netatalk then ⟨⟨9, 653, 32, 74⟩, ⟨2, 741, 0, 26⟩⟩ else ⟨⟨9, 50, 32, 26⟩, ⟨2, 82, 0, 38⟩⟩

theorem readAdInfo_initializeAd : ∀ netatalk,
    readAdInfo (initializeAd [] netatalk) = .ok (initialInfo netatalk) ∧
      adTableEnd (initializeAd [] netatalk) ≤ (initialInfo netatalk).finder.offset ∧
      (∀ e ∈ adEntries (initializeAd [] netatalk),
        e.headerOffset ≠ (initialInfo netatalk).resource.headerOffset →
          e.Inside (initialInfo netatalk).resource.offset) ∧
      (initializeAd [] netatalk).length = (initialInfo netatalk).resource.offset ∧
      (initializeAd [] netatalk).octetsAt (initialInfo netatalk).finder.offset 32 =
        replicate 32 0 := by
  decide +kernel

/-- A new sidecar has no metadata. -/
theorem laid_initializeAd (netatalk : Bool) :
    ∃ info, Laid (initializeAd [] netatalk) info .empty := by
  obtain ⟨hread, htable, hothers, hsize, hfinder⟩ := readAdInfo_initializeAd netatalk
  have hshape : 32 ≤ (initialInfo netatalk).finder.length ∧
      (initialInfo netatalk).resource.offset ≠ 0 ∧ (initialInfo netatalk).resource.length = 0 := by
    cases netatalk <;> decide
  obtain ⟨hwide, hlast, hempty⟩ := hshape
  refine ⟨initialInfo netatalk, hread, htable, hwide, hothers, hlast, ?_, hfinder, ?_⟩
  · rw [hsize, hempty, add_zero]
  · exact drop_of_length_le (le_of_eq hsize)

variable {sidecar : Option Octets} {m : AppleMetadata}

/-- Opened to be written, the sidecar is there and laid out. -/
theorem Stored.openAd (h : Stored sidecar m) (netatalk : Bool) :
    ∃ f info, openAd sidecar netatalk true = (.ok info, some f) ∧ Laid f info m := by
  cases sidecar with
  | some f =>
    obtain ⟨info, hlaid⟩ := h
    exact ⟨f, info, openAd_write hlaid.read netatalk, hlaid⟩
  | none =>
    cases h
    obtain ⟨info, hlaid⟩ := laid_initializeAd netatalk
    refine ⟨_, info, ?_, hlaid⟩
    have hnew : readAdInfo [] = .error (-eio) := rfl
    simp only [NetatalkClient.openAd, if_true, getD_none, hnew, hlaid.read]

/-- **An update succeeds and does to the pair what it should.** -/
theorem Stored.adUpdate (h : Stored sidecar m) (netatalk : Bool) {u : AdUpdate} (hu : u.Admitted) :
    ∃ f, adUpdate sidecar netatalk u = (0, some f) ∧ Stored (some f) (m.update u) := by
  obtain ⟨f, info, hopen, hlaid⟩ := h.openAd netatalk
  cases u with
  | finder value =>
    refine ⟨_, ?_, info, hlaid.finderSet hu⟩
    rw [NetatalkClient.adUpdate, adFinderSet, hopen]
    dsimp only
    rw [if_neg hlaid.finder_ne_zero, map_some]
  | resource buf offset =>
    refine ⟨_, ?_, _, hlaid.resourceWrite hu.1 hu.2⟩
    have hsize : offset + buf.length ≤ 0xFFFFFFFF := hu.1
    have hlast := hlaid.last
    rw [NetatalkClient.adUpdate, adResourceWrite, hopen]
    dsimp only
    rw [if_neg (by omega), Int.toNat_natCast, map_some]

/-- A run of updates. -/
theorem Stored.run (h : Stored sidecar m)
    (netatalk : Bool) {us : List AdUpdate} (hus : ∀ u ∈ us, u.Admitted) :
    ∃ sidecar', Machine.run (adStep netatalk) sidecar us = some sidecar' ∧
      Stored sidecar' (us.foldl .update m) ∧ (us ≠ [] → sidecar' ≠ none) := by
  induction us generalizing sidecar m with
  | nil => exact ⟨sidecar, rfl, h, fun hne => absurd rfl hne⟩
  | cons u us ih =>
    obtain ⟨hu, hrest⟩ := forall_mem_cons.mp hus
    obtain ⟨f, hstep, hstored⟩ := h.adUpdate netatalk hu
    obtain ⟨sidecar', hrun, hstored', hsome⟩ := ih hstored hrest
    refine ⟨sidecar', ?_, hstored', fun _ => ?_⟩
    · rw [Machine.run, adStep, hstep, if_pos rfl]
      exact hrun
    · cases us with
      | nil =>
        cases hrun
        exact some_ne_none f
      | cons u' us => exact hsome (cons_ne_nil u' us)

/-- **The sidecar is the pair.** From a file without a sidecar, in either
layout, every admitted update succeeds, and afterwards FinderInfo and size
of the fork are those of the pair. So is what is read of the fork, once
there was an update; before that a read is refused as absent. -/
theorem sidecar_refines_pair (netatalk : Bool) (us : List AdUpdate)
    (hus : ∀ u ∈ us, u.Admitted) :
    ∃ sidecar, Machine.run (adStep netatalk) none us = some sidecar ∧
      adFinderGet sidecar netatalk = (us.foldl .update .empty : AppleMetadata).finderGet ∧
      adResourceSize sidecar netatalk = (us.foldl .update .empty : AppleMetadata).resourceSize ∧
      ∀ size offset, adResourceRead sidecar netatalk size offset =
        if us = [] then .error (-enoattr)
        else .ok ((us.foldl .update .empty : AppleMetadata).resourceRead size offset) := by
  have hstart : Stored none .empty := rfl
  obtain ⟨sidecar, hrun, hstored, hsome⟩ := hstart.run netatalk hus
  refine ⟨sidecar, hrun, ?_⟩
  cases sidecar with
  | none =>
    have hnil : us = [] := not_not.mp fun hne => hsome hne rfl
    subst hnil
    exact ⟨rfl, rfl, fun _ _ => rfl⟩
  | some f =>
    obtain ⟨info, hlaid⟩ := hstored
    have hne : us ≠ [] := by
      rintro rfl
      cases hrun
    refine ⟨hlaid.adFinderGet netatalk, hlaid.adResourceSize netatalk, fun size offset => ?_⟩
    rw [if_neg hne, hlaid.adResourceRead]

/-- Two octets at 3 of a new fork, then a FinderInfo. -/
theorem sidecar_refines_pair_gap :
    ∃ sidecar, Machine.run (adStep true) none
        [.resource [1, 2] 3, .finder (replicate 32 7)] = some sidecar ∧
      adResourceRead sidecar true 9 1 = .ok [0, 0, 1, 2] := by
  obtain ⟨sidecar, hrun, -, -, hread⟩ := sidecar_refines_pair true
    [.resource [1, 2] 3, .finder (replicate 32 7)] (by decide)
  exact ⟨sidecar, hrun, hread 9 1⟩

/-- Before any update and after an empty write the pair is the same. The
fork is refused in one case and read as empty in the other. -/
theorem absent_fork_read :
    [AdUpdate.resource [] 0].foldl AppleMetadata.update .empty = .empty ∧
      adResourceRead none false 4 0 = .error (-enoattr) ∧
      (Machine.run (adStep false) none [.resource [] 0]).map (adResourceRead · false 4 0) =
        some (.ok []) := by
  decide +kernel

end NetatalkClient
