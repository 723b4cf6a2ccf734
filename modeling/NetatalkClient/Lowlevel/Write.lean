import NetatalkClient.Common.Calls
import NetatalkClient.Lowlevel.Model.Transfers
/-!
# Where `ll_write` puts what it writes

Each chunk of a write carries the offset at which it belongs: that of the
write and what the server accepted before. The offset in a reply is how
`ll_write` knows the latter, and it goes on only where that offset has not
wrapped around. So all chunks are placed if the first is, and that one is
not where the offset has more than the 32 bits of AFP 2
(`llWrite_placed_iff`).
-/

namespace NetatalkClient

open Octets List

namespace WriteServer

variable (server : WriteServer) (volume : MetadataVolume) (data : Octets) (offset : ℕ)
variable {start size : ℕ} {α : Type} {err : ℤ}

/-- A chunk is where it belongs after `accepted` octets: it carries the
octets that come next, with their offset, in a packet that is as long as
what is put into it. -/
structure Placed (accepted : ℕ) (chunk : WriteChunk) : Prop where
  offset_eq : chunk.offset = offset + accepted
  data_prefix : chunk.data <+: data.drop accepted
  whole : writePacketLen volume.avNumber chunk.data.length =
    writeHeaderSize volume.avNumber + chunk.data.length

/-- All chunks from `turn` on are. -/
def AllPlaced : ℕ → ℕ → List WriteChunk → Prop
  | _, _, [] => True
  | turn, accepted, chunk :: chunks =>
      Placed volume data offset accepted chunk ∧
        AllPlaced (turn + 1) (accepted + server.accepted turn chunk) chunks

/-- What is accepted of the chunks from `turn` on. -/
def acceptedAll : ℕ → List WriteChunk → ℕ
  | _, [] => 0
  | turn, chunk :: chunks => server.accepted turn chunk + acceptedAll (turn + 1) chunks

/-- The offsets below this can be sent. -/
def offsetLimit : ℕ := if volume.avNumber < 30 then 0x100000000 else 0x10000000000000000

variable {server volume data offset}
variable {forkid turns total : ℕ} {sent : List WriteChunk} {chunk : WriteChunk}

theorem wireOffset_eq (n : ℕ) : AfpCalls.wireOffset volume n = n % offsetLimit volume := by
  unfold AfpCalls.wireOffset offsetLimit
  split <;> rfl

theorem offsetLimit_le (volume : MetadataVolume) : offsetLimit volume ≤ 0x10000000000000000 := by
  unfold offsetLimit
  split <;> decide

theorem le_offsetLimit (volume : MetadataVolume) : 0x100000000 ≤ offsetLimit volume := by
  unfold offsetLimit
  split <;> decide

theorem run_bind_afpWrite {chunk : Octets} (f : ℤ × ℕ → StateM (List WriteChunk) α) :
    (server.calls.afpWrite forkid start chunk >>= f).run sent =
      (f (server.code sent.length, if server.code sent.length = 0 then
        start + server.accepted sent.length ⟨start, chunk⟩ else 0)).run
          (sent ++ [⟨start, chunk⟩]) := rfl

/-- The next chunk of a write. -/
def nextChunk (volume : MetadataVolume) (data : Octets) (offset total : ℕ) : WriteChunk where
  offset := offset + total
  data := (data.drop total).take (min volume.txQuantum (data.length - total))

theorem placed_nextChunk
    (hfits : writeHeaderSize volume.avNumber + min volume.txQuantum data.length < 0x100000000) :
    Placed volume data offset total (nextChunk volume data offset total) where
  offset_eq := rfl
  data_prefix := take_prefix _ _
  whole := by
    rw [writePacketLen, nextChunk, length_take, length_drop]
    omega

/-- What the loop leaves, from `sent` and `total` on: chunks that are placed,
and if it succeeds `totalwritten` as it was accepted. -/
def LoopPlaced (server : WriteServer) (volume : MetadataVolume) (data : Octets) (offset : ℕ)
    (sent : List WriteChunk) (total : ℕ) (out : (ℤ × ℕ) × List WriteChunk) : Prop :=
  ∃ chunks, out.2 = sent ++ chunks ∧
    AllPlaced server volume data offset sent.length total chunks ∧
    (out.1.1 = 0 → out.1.2 = total + server.acceptedAll sent.length chunks)

theorem loopPlaced_nil : LoopPlaced server volume data offset sent total ((err, total), sent) :=
  ⟨[], (append_nil sent).symm, trivial, fun _ => rfl⟩

theorem loopPlaced_error {n : ℕ} (herr : err ≠ 0) (hchunk : Placed volume data offset total chunk) :
    LoopPlaced server volume data offset sent total ((err, n), sent ++ [chunk]) :=
  ⟨[chunk], rfl, ⟨hchunk, trivial⟩, fun h => absurd h herr⟩

theorem loopPlaced_cons {out : (ℤ × ℕ) × List WriteChunk}
    (hchunk : Placed volume data offset total chunk)
    (hrest : LoopPlaced server volume data offset (sent ++ [chunk])
      (total + server.accepted sent.length chunk) out) :
    LoopPlaced server volume data offset sent total out := by
  obtain ⟨chunks, hout, hplaced, htotal⟩ := hrest
  rw [length_append, length_singleton] at hplaced htotal
  refine ⟨chunk :: chunks, ?_, ⟨hchunk, hplaced⟩, fun hzero => ?_⟩
  · rw [hout, append_assoc, singleton_append]
  · rw [htotal hzero, acceptedAll, add_assoc]

/-- The offset in a reply is below that of the chunk exactly if it has wrapped
around. -/
theorem reply_lt_iff {limit accepted : ℕ} (haccepted : accepted < limit) :
    (start % limit + accepted) % limit < start ↔ ¬start + accepted < limit := by
  rcases lt_or_ge start limit with hstart | hstart
  · rw [Nat.mod_eq_of_lt hstart]
    rcases lt_or_ge (start + accepted) limit with hlt | hge
    · rw [Nat.mod_eq_of_lt hlt]
      omega
    · rw [Nat.mod_eq_sub_mod hge, Nat.mod_eq_of_lt (by omega)]
      omega
  · have hmod : (start % limit + accepted) % limit < limit := Nat.mod_lt _ (by omega)
    omega

/-- The chunk that is sent next. -/
def sentChunk (volume : MetadataVolume) (data : Octets) (offset total : ℕ) : WriteChunk where
  offset := AfpCalls.wireOffset volume ((offset + total) % 0x10000000000000000)
  data := (data.drop total).take (min volume.txQuantum (data.length - total))

/-- A chunk after which the write goes on: something of it is accepted, and the
offset in the reply has not wrapped around. -/
def GoesOn (server : WriteServer) (volume : MetadataVolume) (data : Octets)
    (offset turn total : ℕ) : Prop :=
  server.code turn = 0 ∧ server.accepted turn (sentChunk volume data offset total) ≠ 0 ∧
    (offset + total) % 0x10000000000000000 +
      server.accepted turn (sentChunk volume data offset total) < offsetLimit volume

theorem accepted_sentChunk_le (turn : ℕ) :
    server.accepted turn (sentChunk volume data offset total) ≤
      min volume.txQuantum (data.length - total) := by
  rw [accepted, sentChunk, length_take]
  omega

/-- **One turn**, if there is more to write: a chunk is sent, and the write
goes on after it or fails. -/
theorem llWriteLoop_step (server : WriteServer) (volume : MetadataVolume) (forkid offset turns : ℕ)
    (sent : List WriteChunk) (hmore : total < data.length)
    (hsize : min volume.txQuantum (data.length - total) < 0x100000000) :
    (GoesOn server volume data offset sent.length total →
      (server.calls.llWriteLoop volume forkid data offset (turns + 1) total).run sent =
        (server.calls.llWriteLoop volume forkid data offset turns
          (total + server.accepted sent.length (sentChunk volume data offset total))).run
            (sent ++ [sentChunk volume data offset total])) ∧
    (¬GoesOn server volume data offset sent.length total →
      ∃ err, err ≠ 0 ∧
        (server.calls.llWriteLoop volume forkid data offset (turns + 1) total).run sent =
          ((err, total), sent ++ [sentChunk volume data offset total])) := by
  rw [AfpCalls.llWriteLoop, if_neg (not_le.mpr hmore)]
  dsimp only
  rw [run_bind_afpWrite]
  dsimp only
  have haccepted : server.accepted sent.length (sentChunk volume data offset total) ≤
      min volume.txQuantum (data.length - total) := accepted_sentChunk_le sent.length
  have hlower := le_offsetLimit volume
  rw [show (⟨_, _⟩ : WriteChunk) = sentChunk volume data offset total from rfl]
  unfold GoesOn
  generalize (offset + total) % 0x10000000000000000 = start
  generalize server.accepted sent.length (sentChunk volume data offset total) = accepted at *
  by_cases hcode : server.code sent.length = 0
  · rw [hcode, if_neg (by decide), if_neg (by decide), if_neg (by decide),
      if_neg (not_not.mpr rfl), if_pos rfl, wireOffset_eq, wireOffset_eq]
    by_cases hreply : (start % offsetLimit volume + accepted) % offsetLimit volume < start
    · rw [if_pos hreply]
      have hpast := (reply_lt_iff (by omega)).mp hreply
      exact ⟨fun h => absurd h.2.2 hpast, fun _ => ⟨eio, by decide, rfl⟩⟩
    · have hlimit : start + accepted < offsetLimit volume :=
        not_not.mp fun h => hreply ((reply_lt_iff (by omega)).mpr h)
      rw [if_neg hreply, Nat.mod_eq_of_lt (by omega : start < offsetLimit volume),
        Nat.mod_eq_of_lt hlimit, Nat.add_sub_cancel_left]
      by_cases hnone : accepted = 0
      · rw [if_pos (.inl hnone)]
        exact ⟨fun h => absurd hnone h.2.1, fun _ => ⟨eio, by decide, rfl⟩⟩
      · rw [if_neg (by omega)]
        exact ⟨fun _ => rfl, fun h => absurd ⟨rfl, hnone, hlimit⟩ h⟩
  · refine ⟨fun h => absurd h.1 hcode, fun _ => ?_⟩
    split
    · exact ⟨eacces, by decide, rfl⟩
    split
    · exact ⟨enospc, by decide, rfl⟩
    split
    · exact ⟨einval, by decide, rfl⟩
    · exact ⟨eio, by decide, rfl⟩

theorem sentChunk_eq (hoffset : offset + total < offsetLimit volume) :
    sentChunk volume data offset total = nextChunk volume data offset total := by
  have hupper := offsetLimit_le volume
  rw [sentChunk, nextChunk, wireOffset_eq,
    Nat.mod_eq_of_lt (by omega : offset + total < 0x10000000000000000), Nat.mod_eq_of_lt hoffset]

/-- **What the loop does.** From an offset that can be sent on, each chunk
is the next one, and `totalwritten` is what was accepted. -/
theorem loopPlaced_llWriteLoop (hoffset : offset + total < offsetLimit volume)
    (hfits : writeHeaderSize volume.avNumber + min volume.txQuantum data.length < 0x100000000) :
    LoopPlaced server volume data offset sent total
      ((server.calls.llWriteLoop volume forkid data offset turns total).run sent) := by
  induction turns generalizing total sent with
  | zero => exact loopPlaced_nil
  | succ turns ih =>
    by_cases hdone : data.length ≤ total
    · rw [AfpCalls.llWriteLoop, if_pos hdone]
      exact loopPlaced_nil
    have hplaced : Placed volume data offset total (sentChunk volume data offset total) :=
      sentChunk_eq hoffset ▸ placed_nextChunk hfits
    obtain ⟨hgoes, hfails⟩ := llWriteLoop_step server volume forkid offset turns sent
      (not_le.mp hdone) (by omega)
    by_cases hon : GoesOn server volume data offset sent.length total
    · rw [hgoes hon]
      refine loopPlaced_cons hplaced (ih ?_)
      have hupper := offsetLimit_le volume
      have hlimit := hon.2.2
      rw [Nat.mod_eq_of_lt (by omega : offset + total < 0x10000000000000000)] at hlimit
      omega
    · obtain ⟨err, herr, hrun⟩ := hfails hon
      rw [hrun]
      exact loopPlaced_error herr hplaced

/-- Whatever the offset, the first chunk is sent. -/
theorem ensures_llWriteLoop_sent (server : WriteServer) (volume : MetadataVolume) (forkid : ℕ)
    (data : Octets) (offset turns total : ℕ) (sent : List WriteChunk) :
    Ensures (· = sent) (server.calls.llWriteLoop volume forkid data offset turns total)
      fun _ s => ∃ chunks, s = sent ++ chunks ∧ (turns ≠ 0 → total < data.length →
        ∃ rest, chunks = sentChunk volume data offset total :: rest) := by
  induction turns generalizing total sent with
  | zero => exact .pure fun s hs => ⟨[], by rw [hs, append_nil], fun h => absurd rfl h⟩
  | succ turns ih =>
    unfold AfpCalls.llWriteLoop
    refine .ite (fun hdone => .pure fun s hs => ?_) fun hmore => ?_
    · exact ⟨[], by rw [hs, append_nil], fun _ hmore => absurd hmore (not_lt.mpr hdone)⟩
    have hwrite : Ensures (· = sent) (server.calls.afpWrite forkid
        (AfpCalls.wireOffset volume ((offset + total) % 0x10000000000000000))
        ((data.drop total).take (min volume.txQuantum (data.length - total))))
        fun _ s => s = sent ++ [sentChunk volume data offset total] := by
      rintro s rfl
      rfl
    refine .bind hwrite ?_
    rintro ⟨rc, reply⟩
    have hstop : ∀ r : ℤ × ℕ, Ensures (· = sent ++ [sentChunk volume data offset total])
        (pure r : StateM (List WriteChunk) (ℤ × ℕ)) fun _ s => ∃ chunks, s = sent ++ chunks ∧
          (turns + 1 ≠ 0 → total < data.length →
            ∃ rest, chunks = sentChunk volume data offset total :: rest) :=
      fun r => .pure fun s hs => ⟨_, hs, fun _ _ => ⟨[], rfl⟩⟩
    refine .ite (fun _ => hstop _) fun _ => .ite (fun _ => hstop _) fun _ => ?_
    refine .ite (fun _ => hstop _) fun _ => .ite (fun _ => hstop _) fun _ => ?_
    refine .ite (fun _ => hstop _) fun _ => .ite (fun _ => hstop _) fun _ => ?_
    refine (ih _ _).mono (fun s hs => hs) ?_
    rintro _ s ⟨chunks, rfl, -⟩
    exact ⟨sentChunk volume data offset total :: chunks, by simp, fun _ _ => ⟨chunks, rfl⟩⟩

/-! ## The write -/

theorem run_bind_locking {start : ℤ} (f : Bool → StateM (List WriteChunk) α) :
    (server.calls.llHandleLocking forkid start size >>= f).run sent =
      (f server.lockFails).run sent := rfl

theorem run_bind_unlocking {start : ℤ} (f : Bool → StateM (List WriteChunk) α) :
    (server.calls.llHandleUnlocking forkid start size >>= f).run sent =
      (f server.unlockFails).run sent := rfl

/-- The offset as an unsigned number of 64 bits. -/
def word (offset : ℤ) : ℕ := (offset % 0x10000000000000000).toNat

theorem word_lt (offset : ℤ) : word offset < 0x10000000000000000 := by
  unfold word
  omega

/-- A write that gets as far as to lock the range. -/
theorem llWrite_locking (forkid : ℕ) (data : Octets) (offset : ℤ) (hquantum : volume.txQuantum ≠ 0)
    (hlock : server.lockFails = false) :
    ((server.calls.llWrite volume forkid data offset).run []).2 =
        ((server.calls.llWriteLoop volume forkid data (word offset) data.length 0).run []).2 ∧
      (((server.calls.llWrite volume forkid data offset).run []).1.1 = 0 →
        ((server.calls.llWriteLoop volume forkid data (word offset) data.length 0).run
          []).1.1 = 0) ∧
      ((server.calls.llWrite volume forkid data offset).run []).1.2.1 =
        ((server.calls.llWriteLoop volume forkid data (word offset) data.length 0).run []).1.2 ∧
      (((server.calls.llWrite volume forkid data offset).run []).1.2.2 = true ↔
        ((server.calls.llWriteLoop volume forkid data (word offset) data.length 0).run
            []).1.1 = 0 ∧
          0 < ((server.calls.llWriteLoop volume forkid data (word offset) data.length 0).run
            []).1.2) := by
  rw [AfpCalls.llWrite, if_neg hquantum, run_bind_locking, hlock, if_neg Bool.false_ne_true,
    run_bind]
  unfold word
  rcases (server.calls.llWriteLoop volume forkid data (offset % 0x10000000000000000).toNat
    data.length 0).run [] with ⟨⟨err, total⟩, sent⟩
  dsimp only
  by_cases herr : err ≠ 0
  · rw [if_pos herr]
    refine ⟨rfl, fun h => Int.neg_eq_zero.mp h, rfl, ?_⟩
    exact iff_of_false Bool.false_ne_true fun h => herr h.1
  · have hzero : err = 0 := not_not.mp herr
    have hflag : decide (0 < total) = true ↔ err = 0 ∧ 0 < total := by
      rw [decide_eq_true_iff, and_iff_right hzero]
    rw [if_neg herr, run_bind_unlocking]
    cases server.unlockFails with
    | true => exact ⟨rfl, fun _ => hzero, rfl, hflag⟩
    | false => exact ⟨rfl, fun _ => hzero, rfl, hflag⟩

/-- **When every chunk is where it belongs**, and what a write that
succeeds reports is what was accepted: nothing is sent, or the offset is
one that the version in use can express, and no packet is longer than an
`unsigned int` can say. -/
theorem llWrite_placed_iff (server : WriteServer) (volume : MetadataVolume) (forkid : ℕ)
    (data : Octets) (offset : ℤ) :
    (AllPlaced server volume data (word offset) 0 0
        ((server.calls.llWrite volume forkid data offset).run []).2 ∧
      (((server.calls.llWrite volume forkid data offset).run []).1.1 = 0 →
        ((server.calls.llWrite volume forkid data offset).run []).1.2.1 =
          server.acceptedAll 0 ((server.calls.llWrite volume forkid data offset).run []).2)) ↔
      volume.txQuantum = 0 ∨ server.lockFails = true ∨ data = [] ∨
        (volume.avNumber < 30 → word offset < 0x100000000) ∧
          writeHeaderSize volume.avNumber + min volume.txQuantum data.length < 0x100000000 := by
  by_cases hquantum : volume.txQuantum = 0
  · refine iff_of_true ?_ (.inl hquantum)
    rw [AfpCalls.llWrite, if_pos hquantum]
    exact ⟨trivial, fun _ => rfl⟩
  cases hlock : server.lockFails with
  | true =>
    refine iff_of_true ?_ (.inr (.inl rfl))
    rw [AfpCalls.llWrite, if_neg hquantum, run_bind_locking, hlock]
    exact ⟨trivial, fun _ => rfl⟩
  | false =>
    obtain ⟨hsent, hzero, htotal, -⟩ := llWrite_locking forkid data offset hquantum hlock
    rw [hsent, htotal]
    by_cases hdata : data = []
    · refine iff_of_true ?_ (.inr (.inr (.inl hdata)))
      subst hdata
      exact ⟨trivial, fun _ => rfl⟩
    have hlen : 0 < data.length := length_pos_of_ne_nil hdata
    have hword := word_lt offset
    constructor
    · rintro ⟨hplaced, -⟩
      refine .inr (.inr (.inr ?_))
      obtain ⟨chunks, hchunks, hfirst⟩ :=
        ensures_llWriteLoop_sent server volume forkid data (word offset) data.length 0 [] [] rfl
      obtain ⟨rest, rfl⟩ := hfirst (Nat.ne_of_gt hlen) hlen
      rw [hchunks] at hplaced
      obtain ⟨hoffset, -, hwhole⟩ := hplaced.1
      rw [sentChunk, add_zero, Nat.mod_eq_of_lt hword] at hoffset
      constructor
      · intro hold
        rw [AfpCalls.wireOffset, if_pos hold] at hoffset
        dsimp only at hoffset
        omega
      · rw [sentChunk, drop_zero, Nat.sub_zero, length_take, writePacketLen] at hwhole
        omega
    · rintro (h | h | h | ⟨hrange, hfits⟩)
      · exact absurd h hquantum
      · exact absurd h Bool.false_ne_true
      · exact absurd h hdata
      · have hlimit : word offset + 0 < offsetLimit volume := by
          unfold offsetLimit
          split
          · next hold => exact hrange hold
          · exact hword
        obtain ⟨chunks, hchunks, hplaced, haccepted⟩ : LoopPlaced server volume data (word offset)
            [] 0 ((server.calls.llWriteLoop volume forkid data (word offset) data.length 0).run
              []) :=
          loopPlaced_llWriteLoop hlimit hfits
        rw [hchunks]
        refine ⟨hplaced, fun h => ?_⟩
        rw [haccepted (hzero h), zero_add]
        rfl

/-- A server that accepts two octets of each chunk. -/
def twoByTwo : WriteServer := ⟨fun _ => 0, fun _ => 2, false, false⟩

/-- AFP 2.2. -/
def afp22 : MetadataVolume := ⟨0, false, .kFPLongName, 22, 1024, 1024⟩

/-- Two octets for an offset of 2³² go to the start of the fork. The write
fails, after that. -/
theorem large_offset_wraps :
    (twoByTwo.calls.llWrite afp22 1 [7, 8] 0x100000000).run [] =
        ((-eio, 0, false), [⟨0, [7, 8]⟩]) ∧
      ¬ AllPlaced twoByTwo afp22 [7, 8] (word 0x100000000) 0 0
        ((twoByTwo.calls.llWrite afp22 1 [7, 8] 0x100000000).run []).2 :=
  ⟨rfl, fun h => absurd h.1.offset_eq (by decide)⟩

end WriteServer

end NetatalkClient
