import NetatalkClient.Lowlevel.Model.ForkList
import NetatalkClient.Lowlevel.Write
/-!
# What `ll_write` remembers to flush

What was written through a fork is seen through another one once the first
is flushed, and it is flushed if it is marked dirty. `ll_write` sets the
mark after its last chunk only: a write that fails after some octets were
accepted leaves no trace of them (`written_remembered_iff`).
-/

namespace NetatalkClient

open List

namespace WriteServer

variable {server : WriteServer} {volume : MetadataVolume} {data : Octets}
variable {forkid offset turns turn total : ℕ} {sent : List WriteChunk}

/-! ## What the server has taken -/

/-- What is taken of a chunk: what is accepted, if the reply says so. -/
def taken (server : WriteServer) (turn : ℕ) (chunk : WriteChunk) : ℕ :=
  if server.code turn = 0 then server.accepted turn chunk else 0

/-- What is taken of the chunks from `turn` on. -/
def takenAll (server : WriteServer) : ℕ → List WriteChunk → ℕ
  | _, [] => 0
  | turn, chunk :: chunks => server.taken turn chunk + takenAll server (turn + 1) chunks

/-- Something is taken of a chunk with something in it. -/
def Takes (server : WriteServer) (turn : ℕ) : Prop :=
  server.code turn = 0 ∧ server.accept turn ≠ 0

/-- What is accepted of the chunk that comes after `total` octets. -/
def acceptedNext (server : WriteServer) (volume : MetadataVolume) (data : Octets)
    (turn total : ℕ) : ℕ :=
  min (server.accept turn) (min volume.txQuantum (data.length - total))

/-- How far a write gets from `total` in so many turns from `turn` on, if all
go well. -/
def position (server : WriteServer) (volume : MetadataVolume) (data : Octets) : ℕ → ℕ → ℕ → ℕ
  | _, total, 0 => total
  | turn, total, n + 1 =>
      position server volume data (turn + 1)
        (total + acceptedNext server volume data turn total) n

/-- All of the data is taken, from `total` and `turn` on. -/
def AllTaken (server : WriteServer) (volume : MetadataVolume) (data : Octets)
    (turn total : ℕ) : Prop :=
  ∃ n, data.length ≤ position server volume data turn total n ∧ ∀ i < n, server.Takes (turn + i)

theorem accepted_sentChunk (server : WriteServer) (volume : MetadataVolume) (data : Octets)
    (offset turn total : ℕ) : server.accepted turn (sentChunk volume data offset total) =
      acceptedNext server volume data turn total := by
  rw [accepted, sentChunk, length_take, length_drop, Nat.min_assoc, Nat.min_self, acceptedNext]

/-- Where there is more to write, nothing is accepted of a chunk only if the
server accepts nothing. -/
theorem acceptedNext_ne_zero_iff (hquantum : 0 < volume.txQuantum) (hmore : total < data.length) :
    acceptedNext server volume data turn total ≠ 0 ↔ server.accept turn ≠ 0 := by
  unfold acceptedNext
  omega

theorem acceptedNext_le : acceptedNext server volume data turn total ≤ data.length - total := by
  unfold acceptedNext
  omega

/-- One turn of it, if there is more to write. -/
theorem allTaken_iff (hmore : total < data.length) :
    AllTaken server volume data turn total ↔
      server.Takes turn ∧ AllTaken server volume data (turn + 1)
        (total + acceptedNext server volume data turn total) := by
  constructor
  · rintro ⟨n, hlen, htakes⟩
    cases n with
    | zero => exact absurd hmore (not_lt.mpr hlen)
    | succ n =>
      refine ⟨htakes 0 n.succ_pos, n, hlen, fun i hi => ?_⟩
      have h := htakes (i + 1) (Nat.succ_lt_succ hi)
      rwa [add_comm i, ← add_assoc] at h
  · rintro ⟨htake, n, hlen, htakes⟩
    refine ⟨n + 1, hlen, fun i hi => ?_⟩
    cases i with
    | zero => exact htake
    | succ i =>
      have h := htakes i (Nat.lt_of_succ_lt_succ hi)
      rwa [add_assoc, add_comm 1] at h

/-! ## The loop -/

theorem goesOn_iff (hquantum : 0 < volume.txQuantum) (hmore : total < data.length)
    (hoffset : offset + total < 0x10000000000000000) :
    GoesOn server volume data offset turn total ↔ server.Takes turn ∧
      offset + total + acceptedNext server volume data turn total < offsetLimit volume := by
  rw [GoesOn, accepted_sentChunk, Nat.mod_eq_of_lt hoffset,
    acceptedNext_ne_zero_iff hquantum hmore, Takes, and_assoc]

/-- **The loop ends without an error** exactly if all of the data is taken, and
its end has an offset that a reply can express. -/
theorem llWriteLoop_eq_zero_iff (hquantum : 0 < volume.txQuantum)
    (hword : volume.txQuantum < 0x100000000) (htotal : total ≤ data.length)
    (hoffset : offset + total < 0x10000000000000000) (hturns : data.length - total ≤ turns) :
    (((server.calls.llWriteLoop volume forkid data offset turns total).run sent).1.1 = 0 ↔
      (total = data.length ∨ offset + data.length < offsetLimit volume) ∧
        AllTaken server volume data sent.length total) ∧
    (((server.calls.llWriteLoop volume forkid data offset turns total).run sent).1.1 = 0 →
      ((server.calls.llWriteLoop volume forkid data offset turns total).run sent).1.2 =
        data.length) := by
  induction turns generalizing total sent with
  | zero =>
    have hdone : total = data.length := by omega
    exact ⟨iff_of_true rfl ⟨.inl hdone, 0, hdone.ge, fun i hi => absurd hi i.not_lt_zero⟩,
      fun _ => hdone⟩
  | succ turns ih =>
    rcases htotal.eq_or_lt with hdone | hmore
    · rw [AfpCalls.llWriteLoop, if_pos hdone.ge]
      exact ⟨iff_of_true rfl ⟨.inl hdone, 0, hdone.ge, fun i hi => absurd hi i.not_lt_zero⟩,
        fun _ => hdone⟩
    have hupper := offsetLimit_le volume
    obtain ⟨hgoes, hfails⟩ :=
      llWriteLoop_step server volume forkid offset turns sent hmore (by omega)
    rw [allTaken_iff hmore]
    by_cases hon : GoesOn server volume data offset sent.length total
    · rw [hgoes hon]
      rw [goesOn_iff hquantum hmore hoffset] at hon
      obtain ⟨htakes, hlimit⟩ := hon
      have hsome := (acceptedNext_ne_zero_iff hquantum hmore).mpr htakes.2
      have hle : acceptedNext server volume data sent.length total ≤ data.length - total :=
        acceptedNext_le
      rw [accepted_sentChunk]
      obtain ⟨hzero, hlen⟩ := @ih (total + acceptedNext server volume data sent.length total)
        (sent ++ [sentChunk volume data offset total]) (by omega) (by omega) (by omega)
      refine ⟨hzero.trans ?_, hlen⟩
      rw [length_append, length_singleton]
      have hend : (total + acceptedNext server volume data sent.length total = data.length ∨
            offset + data.length < offsetLimit volume) ↔
          (total = data.length ∨ offset + data.length < offsetLimit volume) := by omega
      rw [hend]
      exact ⟨fun h => ⟨h.1, htakes, h.2⟩, fun h => ⟨h.1, h.2.2⟩⟩
    · obtain ⟨err, herr, hrun⟩ := hfails hon
      rw [hrun]
      refine ⟨iff_of_false herr ?_, fun h => absurd h herr⟩
      rintro ⟨hend, htakes, -⟩
      have hle : acceptedNext server volume data sent.length total ≤ data.length - total :=
        acceptedNext_le
      exact hon ((goesOn_iff hquantum hmore hoffset).mpr ⟨htakes, by omega⟩)

/-- A write from the start sets the mark exactly then. -/
theorem llWriteLoop_marks_iff (hquantum : 0 < volume.txQuantum)
    (hword : volume.txQuantum < 0x100000000) (hdata : data ≠ [])
    (hoffset : offset < 0x10000000000000000) :
    ((server.calls.llWriteLoop volume forkid data offset data.length 0).run []).1.1 = 0 ∧
        0 < ((server.calls.llWriteLoop volume forkid data offset data.length 0).run []).1.2 ↔
      offset + data.length < offsetLimit volume ∧ AllTaken server volume data 0 0 := by
  have hlen : 0 < data.length := length_pos_of_ne_nil hdata
  have hloop := @llWriteLoop_eq_zero_iff server volume data forkid offset data.length 0 []
    hquantum hword (Nat.zero_le _) hoffset (Nat.sub_le _ _)
  constructor
  · rintro ⟨hzero, -⟩
    obtain ⟨hempty | hend, htaken⟩ := hloop.1.mp hzero
    · exact absurd hempty hlen.ne
    · exact ⟨hend, htaken⟩
  · rintro ⟨hend, htaken⟩
    have hzero := hloop.1.mpr ⟨.inr hend, htaken⟩
    exact ⟨hzero, (hloop.2 hzero).symm ▸ hlen⟩

/-- **Something is taken of a write** exactly if something is taken of its
first chunk. -/
theorem takenAll_pos_iff (hquantum : 0 < volume.txQuantum) (hword : volume.txQuantum < 0x100000000)
    (hdata : data ≠ []) (hoffset : offset < 0x10000000000000000) :
    0 < server.takenAll 0
        ((server.calls.llWriteLoop volume forkid data offset data.length 0).run []).2 ↔
      server.Takes 0 := by
  have hmore : 0 < data.length := length_pos_of_ne_nil hdata
  obtain ⟨turns, hturns⟩ := Nat.exists_eq_succ_of_ne_zero hmore.ne'
  obtain ⟨hgoes, hfails⟩ := llWriteLoop_step server volume forkid offset turns [] hmore (by omega)
  have hsome : acceptedNext server volume data 0 0 ≠ 0 ↔ server.accept 0 ≠ 0 :=
    acceptedNext_ne_zero_iff hquantum hmore
  have hfirst : 0 < server.taken 0 (sentChunk volume data offset 0) ↔ server.Takes 0 := by
    rw [taken, accepted_sentChunk, Takes]
    split
    · next hcode => exact Nat.pos_iff_ne_zero.trans (hsome.trans (and_iff_right hcode).symm)
    · next hcode => exact iff_of_false (lt_irrefl 0) fun h => hcode h.1
  rw [hturns]
  by_cases hon : GoesOn server volume data offset 0 0
  · rw [hgoes hon]
    obtain ⟨chunks, hchunks, -⟩ := ensures_llWriteLoop_sent server volume forkid data offset turns
      (0 + server.accepted 0 (sentChunk volume data offset 0)) [sentChunk volume data offset 0] _
      rfl
    have htakes := ((goesOn_iff hquantum hmore hoffset).mp hon).1
    rw [nil_append, length_nil, hchunks]
    exact iff_of_true (Nat.add_pos_left (hfirst.mpr htakes) _) htakes
  · obtain ⟨err, -, hrun⟩ := hfails hon
    rw [hrun]
    exact hfirst

/-! ## The mark -/

/-- A write through `p` leaves `p` marked, if it was or if the write says so. -/
def markWritten (p : OpenFork) (dirty : Bool) (forks : List OpenFork) : List OpenFork :=
  forks.map fun fp => if fp.address = p.address then { fp with dirty := fp.dirty || dirty } else fp

/-- What was taken through `p` is remembered: `p` is marked when `ll_write`
returns, and so the next read through another fork of the file flushes it. -/
def Remembered (server : WriteServer) (volume : MetadataVolume) (p : OpenFork) (data : Octets)
    (offset : ℤ) : Prop :=
  let ((_, _, dirty), sent) := (server.calls.llWrite volume p.forkid data offset).run []
  0 < server.takenAll 0 sent →
    (p.dirty || dirty) = true ∧
      ∀ fp forks flushfork, p ∈ forks → p.writable = true → p.address ≠ fp.address →
        p.sameFile fp = true →
          p.forkid ∈ (fp.flushDirtyForksForFile flushfork (markWritten p dirty forks)).1

/-- A fork that is marked is flushed before a read through another one. -/
theorem forkid_mem_flushed {p fp : OpenFork} {dirty : Bool} {forks : List OpenFork}
    {flushfork : ℕ → ℤ} (hdirty : (p.dirty || dirty) = true) (hmem : p ∈ forks)
    (hwritable : p.writable = true) (haddress : p.address ≠ fp.address)
    (hfile : p.sameFile fp = true) :
    p.forkid ∈ (fp.flushDirtyForksForFile flushfork (markWritten p dirty forks)).1 := by
  refine mem_map.mpr ⟨{ p with dirty := p.dirty || dirty }, mem_filter.mpr ⟨?_, ?_⟩, rfl⟩
  · exact mem_map.mpr ⟨p, hmem, if_pos rfl⟩
  · simp only [OpenFork.needsFlush, Bool.and_eq_true, decide_eq_true_eq]
    exact ⟨⟨⟨haddress, hwritable⟩, hdirty⟩, hfile⟩

/-- So the mark is what matters. -/
theorem remembered_iff {p : OpenFork} {offset : ℤ} :
    Remembered server volume p data offset ↔
      (0 < server.takenAll 0 ((server.calls.llWrite volume p.forkid data offset).run []).2 →
        p.dirty = true ∨
          ((server.calls.llWrite volume p.forkid data offset).run []).1.2.2 = true) := by
  rw [← Bool.or_eq_true]
  refine imp_congr_right fun _ => ⟨fun h => h.1, fun hdirty => ⟨hdirty, ?_⟩⟩
  intro fp forks flushfork
  exact forkid_mem_flushed hdirty

/-- **Unflushed data is forgotten after a failure.** What the server takes
through a fork is remembered exactly if the fork is marked before, if nothing
is taken, or if all of the write is taken and its end has an offset that a
reply can express. -/
theorem written_remembered_iff (server : WriteServer) (volume : MetadataVolume) (p : OpenFork)
    (data : Octets) (offset : ℤ) (hword : volume.txQuantum ≤ uintMax) :
    Remembered server volume p data offset ↔
      p.dirty = true ∨ volume.txQuantum = 0 ∨ server.lockFails = true ∨ data = [] ∨
        ¬server.Takes 0 ∨
        (word offset + data.length < offsetLimit volume ∧ AllTaken server volume data 0 0) := by
  rw [remembered_iff]
  by_cases hquantum : volume.txQuantum = 0
  · refine iff_of_true (fun htaken => ?_) (.inr (.inl hquantum))
    rw [AfpCalls.llWrite, if_pos hquantum] at htaken
    exact absurd htaken (lt_irrefl 0)
  cases hlock : server.lockFails with
  | true =>
    refine iff_of_true (fun htaken => ?_) (.inr (.inr (.inl rfl)))
    rw [AfpCalls.llWrite, if_neg hquantum, run_bind_locking, hlock] at htaken
    exact absurd htaken (lt_irrefl 0)
  | false =>
    obtain ⟨hsent, -, -, hflag⟩ := llWrite_locking p.forkid data offset hquantum hlock
    rw [hsent, hflag]
    by_cases hdata : data = []
    · subst hdata
      exact iff_of_true (fun htaken => absurd htaken (lt_irrefl 0))
        (.inr (.inr (.inr (.inl rfl))))
    have hsmall : volume.txQuantum < 0x100000000 := Nat.lt_succ_of_le hword
    have hpos : 0 < volume.txQuantum := Nat.pos_of_ne_zero hquantum
    rw [takenAll_pos_iff hpos hsmall hdata (word_lt offset),
      llWriteLoop_marks_iff hpos hsmall hdata (word_lt offset)]
    simp only [hquantum, hdata, Bool.false_eq_true, false_or]
    tauto

/-- A volume of AFP 3.1 that writes two octets at a time. -/
def twoOctets : MetadataVolume := ⟨0, false, .kFPUTF8Name, 31, 1024, 2⟩

/-- A server whose disk is full after the first chunk. -/
def fullAfterOne : WriteServer where
  code turn := if turn = 0 then 0 else kFPDiskFull
  accept _ := 2
  lockFails := false
  unlockFails := false

/-- A fork that is open for writing, and not marked. -/
def writingFork : OpenFork := ⟨1, 7, 2, [97], 0, true, false⟩

/-- Two octets are taken, the third is not, and the fork is not marked. -/
theorem taken_and_forgotten :
    (fullAfterOne.calls.llWrite twoOctets 7 [1, 2, 3] 0).run [] =
        ((-enospc, 2, false), [⟨0, [1, 2]⟩, ⟨2, [3]⟩]) ∧
      fullAfterOne.takenAll 0 [⟨0, [1, 2]⟩, ⟨2, [3]⟩] = 2 ∧
      ¬Remembered fullAfterOne twoOctets writingFork [1, 2, 3] 0 := by
  refine ⟨rfl, by decide, fun h => ?_⟩
  exact absurd (h (by decide)).1 (by decide)

/-- All octets are taken, in two chunks. -/
theorem all_taken_remembered :
    twoOctets.txQuantum ≤ uintMax ∧ Remembered twoByTwo twoOctets writingFork [1, 2, 3] 0 := by
  refine ⟨by decide, (written_remembered_iff _ _ _ _ _ (by decide)).mpr ?_⟩
  refine .inr (.inr (.inr (.inr (.inr ⟨by decide, 2, by decide, ?_⟩))))
  exact fun _ _ => ⟨rfl, Nat.succ_ne_zero 1⟩

end WriteServer

end NetatalkClient
