import NetatalkClient.Metadata.Helpers.Updates
/-!
# What an update spares of a sidecar

A sidecar may come from another program, with its entries in any order and
place. A new FinderInfo is 32 octets wide whatever the entry says. A write
at the start of the resource fork cuts the file off behind what it writes,
and an empty write further on sets a length the file may not have. The
update does no harm exactly where none of this matters
(`sidecarUpdate_harmless_iff`).
-/

namespace NetatalkClient

open Octets

/-- The FinderInfo of a sidecar, if it has one. -/
def finderBytes (f : Octets) (info : AdInfo) : Option Octets :=
  if info.finder.offset = 0 ∨ info.finder.length < 32 then none
  else some (f.octetsAt info.finder.offset 32)

/-- The resource fork of a sidecar. -/
def resourceBytes (f : Octets) (info : AdInfo) : Octets :=
  f.octetsAt info.resource.offset info.resource.length

/-- A write of `size` octets at `offset` of the resource fork leaves the
entries inside the file: at the start no other entry ends behind what is
written, and further on an empty write does not go past the end. -/
def StillInside (f : Octets) (info : AdInfo) (size offset : ℕ) : Prop :=
  (offset = 0 → ∀ e ∈ adEntries f, e.headerOffset ≠ info.resource.headerOffset →
    e.Inside (info.resource.offset + size)) ∧
  (offset ≠ 0 → size = 0 → info.resource.length < offset →
    info.resource.offset + offset ≤ f.length)

/-- The write puts nothing new in the FinderInfo: neither with its own
octets nor with the new length. -/
def SparesFinder (f : Octets) (info : AdInfo) (buf : Octets) (offset : ℕ) : Prop :=
  LeavesAlone f buf (info.resource.offset + offset) info.finder.offset 32 ∧
  LeavesAlone f (padded 4 (resourceEnd info buf.length offset)) (info.resource.headerOffset + 8)
    info.finder.offset 32

variable {f buf : Octets} {info : AdInfo} {offset : ℕ}

/-- After the write the entries lie inside the file if and only if none
was cut off and none promises too much. -/
theorem stillInside_iff (hread : readAdInfo f = .ok info) (hne : info.resource.offset ≠ 0)
    (size offset : ℕ) :
    ((∀ e ∈ adEntries f, e.headerOffset ≠ info.resource.headerOffset →
        e.Inside (writtenLength f info size offset)) ∧
        info.resource.offset + resourceEnd info size offset ≤ writtenLength f info size offset) ↔
      StillInside f info size offset := by
  have hin : info.resource.offset + info.resource.length ≤ f.length :=
    inside_of_readAdInfo hread (resource_mem hread hne).1
  rw [StillInside, writtenLength, resourceEnd]
  by_cases hzero : offset = 0
  · rw [if_pos hzero, if_neg (by omega), and_iff_left (by omega)]
    exact ⟨fun h => ⟨fun _ => h, fun hpos => absurd hzero hpos⟩, fun h => h.1 hzero⟩
  · rw [if_neg hzero]
    have hall : ∀ n, f.length ≤ n → ∀ e ∈ adEntries f,
        e.headerOffset ≠ info.resource.headerOffset → e.Inside n :=
      fun n hn e he _ => le_trans (inside_of_readAdInfo hread he) hn
    by_cases hsize : size = 0
    · rw [if_pos hsize, and_iff_right (hall _ (le_rfl))]
      constructor
      · intro h
        refine ⟨fun hz => absurd hz hzero, fun _ _ hlt => ?_⟩
        rw [if_neg (by omega)] at h
        omega
      · intro h
        have hfar := h.2 hzero hsize
        split <;> omega
    · rw [if_neg hsize, and_iff_right (hall _ (Nat.le_max_left _ _))]
      refine iff_of_true ?_ ⟨fun hz => absurd hz hzero, fun _ hz => absurd hz hsize⟩
      split <;> omega

/-- The FinderInfo after a write that leaves the entries inside. -/
theorem finderBytes_resourceWritten_iff (h : Behind f info)
    (hstill : StillInside f info buf.length offset)
    (hoff : info.finder.offset ≠ 0) (hlen : 32 ≤ info.finder.length) :
    (resourceWritten f info buf offset).octetsAt info.finder.offset 32 =
        f.octetsAt info.finder.offset 32 ↔ SparesFinder f info buf offset := by
  have hro := h.resource
  have hho := h.headerOffset_le
  rw [adEntrySize] at hho
  -- the FinderInfo is not cut off
  have hkept : offset = 0 → info.finder.offset + 32 ≤ info.resource.offset + buf.length := by
    intro hzero
    have hin : info.finder.offset + info.finder.length ≤ info.resource.offset + buf.length :=
      hstill.1 hzero _ (finder_mem h.read hoff).1 (headerOffset_ne h.read h.resource_ne_zero)
    omega
  rw [octetsAt_eq_iff]
  constructor
  · intro heq
    refine ⟨fun i hlow hhigh hpos hend => ?_, fun i hlow hhigh hpos hend => ?_⟩
    · have hbyte := heq i hlow hhigh
      rwa [byte_resourceWritten, if_neg (by omega), if_pos ⟨hpos, hend⟩] at hbyte
    · have hbyte := heq i hlow hhigh
      rw [length_padded] at hend
      rwa [byte_resourceWritten, if_pos ⟨hpos, by omega⟩] at hbyte
  · rintro ⟨hbuf, hfield⟩ i hlow hhigh
    rw [byte_resourceWritten]
    split
    · next hin =>
      exact hfield i hlow hhigh hin.1 (by rw [length_padded]; omega)
    · split
      · next hin => exact hbuf i hlow hhigh hin.1 hin.2
      · rw [if_neg (by omega)]

/-- A sidecar of 86 octets: a resource fork of four octets at 50, and the
FinderInfo behind it. -/
def forkFirst : Octets :=
  (padded 4 adMagic ++ padded 4 adVersion ++ List.replicate 16 0 ++ padded 2 2 ++
    padded 4 adResourceId ++ padded 4 50 ++ padded 4 4 ++
    padded 4 adFinderId ++ padded 4 54 ++ padded 4 32).window 86

end NetatalkClient
