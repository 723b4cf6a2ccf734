import NetatalkClient.Afp.Model.Volume
import Mathlib.Data.List.Nodup
/-!
# AFP: what a volume's parameters depend on

The check of the attributes never fails, so the parameters are fields that
are read wherever they are. All of them are stored but the offset of the
name, and each can be told from what is stored.
-/

namespace NetatalkClient

open Octets List AfpVolume

variable {bitmap size p : ℕ} {b : Octets} {server : Option AfpClock} {volume : AfpVolume}

/-- All stored parameters that `bitmap` announces end inside. -/
def ParametersInside (server : Option AfpClock) (bitmap p size : ℕ) : Prop :=
  ∀ x ∈ placed bitmap (volFields server) p, x.1.bit ≠ kFPVolNameBit → x.2 + x.1.width ≤ size

theorem afpDateToUnix_inj {i j : ℕ} (hi : i < 256 ^ 4) (hj : j < 256 ^ 4)
    (h : afpDateToUnix server i = afpDateToUnix server j) : i = j := by
  unfold afpDateToUnix at h
  dsimp only at h
  split_ifs at h <;> omega

/-- The attributes without their check. -/
def volAttributeUnchecked : Octets.Field AfpVolume :=
  .unbounded kFPVolAttributeBit 2 fun n tmpvol => { tmpvol with attributes := n }

theorem walk_volFields (h : p ≤ size) :
    walk bitmap b size (volFields server) p volume =
      walk bitmap b size (volAttributeUnchecked :: volOtherFields server) p volume := by
  have hread : volAttributeField.read b size p volume =
      volAttributeUnchecked.read b size p volume := if_neg (by omega)
  rw [volFields, walk, walk, hread]
  rfl

theorem parametersInside_iff :
    ParametersInside server bitmap p size ↔
      ∀ x ∈ placed bitmap (volAttributeUnchecked :: volOtherFields server) p,
        x.1.bit ≠ kFPVolNameBit → x.2 + x.1.width ≤ size := by
  rw [ParametersInside, volFields, placed, placed]
  by_cases hbit : bitmap &&& volAttributeField.bit ≠ 0
  · have hbit' : bitmap &&& volAttributeUnchecked.bit ≠ 0 := hbit
    rw [if_pos hbit, if_pos hbit', forall_mem_cons, forall_mem_cons]
    rfl
  · have hbit' : ¬ bitmap &&& volAttributeUnchecked.bit ≠ 0 := hbit
    rw [if_neg hbit, if_neg hbit']

theorem stores_volFields : ∀ f ∈ volAttributeUnchecked :: volOtherFields server,
    f.bit ≠ kFPVolNameBit → f.Stores := by
  simp only [volOtherFields, forall_mem_cons]
  refine ⟨fun _ => ?_, fun _ => ?_, fun _ => ?_, fun _ => ?_, fun _ => ?_, fun _ => ?_, fun _ => ?_,
    fun _ => ?_, fun h => absurd rfl h, fun _ => ?_, fun _ => ?_, fun _ => ?_, by simp⟩ <;>
    refine Field.stores_unbounded (by decide) fun i j s hi hj h => ?_
  · exact congrArg attributes h
  · exact congrArg signature h
  · exact afpDateToUnix_inj hi hj (congrArg creationDate h)
  · exact afpDateToUnix_inj hi hj (congrArg modificationDate h)
  · exact afpDateToUnix_inj hi hj (congrArg backupDate h)
  · exact congrArg volid h
  · exact congrArg bfree h
  · exact congrArg blocks h
  · exact congrArg bfree h
  · exact congrArg blocks h
  · exact congrArg bsize h

theorem passed_volFields : ∀ f ∈ volAttributeUnchecked :: volOtherFields server,
    ¬ f.bit ≠ kFPVolNameBit → f.Passed := by
  have hbits : ((volAttributeUnchecked :: volOtherFields server).map Field.bit).Nodup := by
    have hnodup : [0x1, 0x2, 0x4, 0x8, 0x10, 0x20, 0x40, 0x80, 0x100, 0x200, 0x400,
        0x800].Nodup := by
      decide
    exact hnodup
  have hname : (Field.skipped kFPVolNameBit 2 : Octets.Field AfpVolume) ∈
      volAttributeUnchecked :: volOtherFields server := by
    simp [volOtherFields]
  intro f hf hbit
  rw [inj_on_of_nodup_map hbits hf hname (not_not.mp hbit)]
  exact Field.passed_skipped _ _

/-- The parameters are settled if and only if those that are stored are
inside. -/
theorem settled_parameters_iff {n : ℕ} (h : p ≤ size) :
    Settled n (fun b => walk bitmap b size (volFields server) p volume) b ↔
      ParametersInside server bitmap p n := by
  simp only [walk_volFields h]
  rw [settled_walk_iff stores_volFields passed_volFields, parametersInside_iff]

/-- The parameters are all read, and none of them is the printable name. -/
theorem exists_walk_volFields (h : p ≤ size) :
    ∃ volume', walk bitmap b size (volFields server) p volume = .ok volume' ∧
      volume'.volumeNamePrintable = volume.volumeNamePrintable := by
  rw [walk_volFields h]
  have hframe : ∀ f ∈ volAttributeUnchecked :: volOtherFields server, ∀ p v,
      v.volumeNamePrintable = volume.volumeNamePrintable → ∃ v', f.read b size p v = some v' ∧
        v'.volumeNamePrintable = volume.volumeNamePrintable := by
    simp only [volOtherFields, forall_mem_cons]
    refine ⟨?_, ?_, ?_, ?_, ?_, ?_, ?_, ?_, ?_, ?_, ?_, ?_, by simp⟩ <;>
      exact fun p v hv => ⟨_, rfl, hv⟩
  exact exists_walk_ok hframe rfl

end NetatalkClient
