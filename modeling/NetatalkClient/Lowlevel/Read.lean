import NetatalkClient.Lowlevel.Model.Transfers
/-!
# What `ll_read` brings

A read goes on from chunk to chunk until it has what was asked for, a
chunk is empty, or the server says that the file ends. Which chunks are
asked for is a matter of the replies (`Reached`, `Asked`). What is
returned is the file's octets from the offset on; but of the codes that a
reply can have, `ll_read` knows six, and takes any other for success.
`llRead_genuine_iff` says when that matters.
-/

namespace NetatalkClient

open Octets List AfpCalls

namespace ReadServer

variable (server : ReadServer) (volume : MetadataVolume) (size offset : ℕ) {α : Type} {start : ℤ}

/-! ## The chunks of a read -/

/-- What a chunk brings, where `got` octets were read before. -/
def chunkAt (turn got : ℕ) : Octets :=
  ((server.file.drop (offset + got)).take (server.deliver turn)).take
    (min volume.rxQuantum (size - got))

/-- How much is read before a chunk. -/
def position : ℕ → ℕ
  | 0 => 0
  | turn + 1 => position turn + (server.chunkAt volume size offset turn (position turn)).length

/-- The codes that `ll_read` takes for errors. -/
def IsReadError (code : ℤ) : Prop :=
  code = kFPAccessDenied ∨ code = kFPLockErr ∨ code = kFPMiscErr ∨ code = kFPParamErr

/-- The offset of a chunk can be asked for in the version in use. -/
def InRange (turn : ℕ) : Prop :=
  volume.avNumber < 30 → offset + server.position volume size offset turn ≤ uintMax

/-- A chunk after which the read goes on. -/
def GoesOn (turn : ℕ) : Prop :=
  ¬ IsReadError (server.code turn) ∧ server.code turn ≠ kFPEOFErr ∧
    server.chunkAt volume size offset turn (server.position volume size offset turn) ≠ []

/-- The read gets as far as to look whether there is more to ask for. -/
def Reached : ℕ → Prop
  | 0 => True
  | turn + 1 => Reached turn ∧ server.position volume size offset turn < size ∧
      server.InRange volume size offset turn ∧ server.GoesOn volume size offset turn

/-- The chunk is asked for. -/
structure Asked (turn : ℕ) : Prop where
  reached : server.Reached volume size offset turn
  more : server.position volume size offset turn < size
  inRange : server.InRange volume size offset turn

/-- The read fails at a chunk: it cannot be asked for, or the reply is an
error that `ll_read` knows. -/
structure FailsAt (turn : ℕ) : Prop where
  reached : server.Reached volume size offset turn
  more : server.position volume size offset turn < size
  why : ¬ server.InRange volume size offset turn ∨ IsReadError (server.code turn)

/-- The server ends the read: by its code, or with an empty reply. -/
structure EndsAt (turn : ℕ) : Prop extends server.Asked volume size offset turn where
  how : server.code turn = kFPEOFErr ∨
    server.chunkAt volume size offset turn (server.position volume size offset turn) = []

variable {server volume size offset}
variable {forkid turns turn k : ℕ} {got : Octets}

theorem Reached.of_le (h : server.Reached volume size offset turn) (hk : k ≤ turn) :
    server.Reached volume size offset k := by
  induction turn with
  | zero => rwa [Nat.le_zero.mp hk]
  | succ turn ih =>
    rcases Nat.eq_or_lt_of_le hk with rfl | hlt
    · exact h
    · exact ih h.1 (Nat.le_of_lt_succ hlt)

/-- Where the read stops without a failure, it fails nowhere. -/
theorem not_failsAt (hreached : server.Reached volume size offset turn)
    (hstop : ¬ server.Reached volume size offset (turn + 1))
    (hfine : ¬ server.FailsAt volume size offset turn) :
    ¬ ∃ k, server.FailsAt volume size offset k := by
  rintro ⟨k, hfails⟩
  rcases lt_trichotomy k turn with hlt | rfl | hgt
  · obtain ⟨-, -, hrange, herror, -, -⟩ := hreached.of_le (Nat.succ_le_of_lt hlt)
    exact hfails.why.elim (fun hout => hout hrange) herror
  · exact hfine hfails
  · exact hstop (hfails.reached.of_le hgt)

/-- What has been read grows by the next chunk. -/
theorem take_chunkAt (volume : MetadataVolume) (size turn : ℕ)
    (hgot : got = (server.file.drop offset).take got.length) :
    got ++ server.chunkAt volume size offset turn got.length =
      (server.file.drop offset).take
        (got ++ server.chunkAt volume size offset turn got.length).length := by
  have hchunk : server.chunkAt volume size offset turn got.length =
      ((server.file.drop offset).drop got.length).take
        (server.chunkAt volume size offset turn got.length).length := by
    rw [chunkAt, drop_drop, take_take, take_eq_take_iff, length_take]
    omega
  rw [length_append, take_add, ← hgot, ← hchunk]

/-! ## The loop -/

/-- What the loop comes to: an error where the read fails, and otherwise
octets of the file, fewer than asked for only where the server ended. -/
def LoopResult (server : ReadServer) (volume : MetadataVolume) (size offset : ℕ) :
    Except ℤ (Octets × Bool) → Prop
  | .error err => 0 < err ∧ ∃ k, server.FailsAt volume size offset k
  | .ok (data, _) => (¬ ∃ k, server.FailsAt volume size offset k) ∧
      data = (server.file.drop offset).take data.length ∧ data.length ≤ size ∧
      (data.length < size → ∃ k, server.EndsAt volume size offset k)

theorem run_bind_flush (f : Unit → StateM ℕ α) :
    (server.calls.flushDirtyForksForFile forkid >>= f).run turn = (f ()).run turn := rfl

theorem run_bind_locking (f : Bool → StateM ℕ α) :
    (server.calls.llHandleLocking forkid start size >>= f).run turn =
      (f server.lockFails).run turn := rfl

theorem run_bind_unlocking (f : Bool → StateM ℕ α) :
    (server.calls.llHandleUnlocking forkid start size >>= f).run turn =
      (f server.unlockFails).run turn := rfl

theorem run_bind_afpRead {start count : ℕ} (f : ℤ × Octets → StateM ℕ α) :
    (server.calls.afpRead forkid start count >>= f).run turn =
      (f (server.code turn, (server.file.drop start).take (server.deliver turn))).run
        (turn + 1) := rfl

theorem loopResult_llReadLoop (hreached : server.Reached volume size offset turn)
    (hlen : got.length = server.position volume size offset turn)
    (hgot : got = (server.file.drop offset).take got.length) (hsize : got.length ≤ size)
    (hturns : size - got.length ≤ turns) :
    LoopResult server volume size offset
      ((server.calls.llReadLoop volume forkid size offset turns got).run turn).1 := by
  induction turns generalizing got turn with
  | zero =>
    have hdone : ¬ server.position volume size offset turn < size := by omega
    exact ⟨not_failsAt hreached (fun h => hdone h.2.1) (fun h => hdone h.more), hgot, hsize,
      fun hshort => by omega⟩
  | succ turns ih =>
    rw [llReadLoop]
    by_cases hmore : size ≤ got.length
    · rw [if_pos hmore]
      have hdone : ¬ server.position volume size offset turn < size := by omega
      exact ⟨not_failsAt hreached (fun h => hdone h.2.1) (fun h => hdone h.more), hgot, hsize,
        fun hshort => by omega⟩
    rw [if_neg hmore]
    have hmore' : server.position volume size offset turn < size := by omega
    by_cases hout : volume.avNumber < 30 ∧ uintMax < offset + got.length
    · rw [if_pos hout]
      refine ⟨by decide, turn, hreached, hmore', .inl fun hrange => ?_⟩
      have hle := hrange hout.1
      omega
    rw [if_neg hout, run_bind_afpRead]
    have hrange : server.InRange volume size offset turn := fun hold => by
      rw [← hlen]
      omega
    have hfails : IsReadError (server.code turn) → ∃ k, server.FailsAt volume size offset k :=
      fun herror => ⟨turn, hreached, hmore', .inr herror⟩
    have hchunk : ((server.file.drop (offset + got.length)).take (server.deliver turn)).take
        (min volume.rxQuantum (size - got.length)) =
        server.chunkAt volume size offset turn got.length := rfl
    have hgrown := take_chunkAt volume size turn hgot
    have hfits : (got ++ server.chunkAt volume size offset turn got.length).length ≤ size := by
      rw [length_append, chunkAt, length_take]
      omega
    dsimp only
    rw [hchunk]
    by_cases hdenied : server.code turn = kFPAccessDenied
    · rw [if_pos hdenied]
      exact ⟨by decide, hfails (.inl hdenied)⟩
    rw [if_neg hdenied]
    by_cases hlock : server.code turn = kFPLockErr
    · rw [if_pos hlock]
      exact ⟨by decide, hfails (.inr (.inl hlock))⟩
    rw [if_neg hlock]
    by_cases hmisc : server.code turn = kFPMiscErr ∨ server.code turn = kFPParamErr
    · rw [if_pos hmisc]
      exact ⟨by decide, hfails (.inr (.inr hmisc))⟩
    rw [if_neg hmisc]
    have hknown : ¬ IsReadError (server.code turn) := fun h =>
      h.elim hdenied fun h => h.elim hlock hmisc
    have hfine : ¬ server.FailsAt volume size offset turn := fun h =>
      h.why.elim (fun hout => hout hrange) hknown
    have hasked : server.Asked volume size offset turn := ⟨hreached, hmore', hrange⟩
    by_cases heof : server.code turn = kFPEOFErr
    · rw [if_pos heof]
      exact ⟨not_failsAt hreached (fun h => h.2.2.2.2.1 heof) hfine, hgrown, hfits,
        fun _ => ⟨turn, hasked, .inl heof⟩⟩
    rw [if_neg heof]
    by_cases hempty : server.chunkAt volume size offset turn got.length = []
    · rw [if_pos hempty]
      rw [hlen] at hempty
      exact ⟨not_failsAt hreached (fun h => h.2.2.2.2.2 hempty) hfine, hgot, hsize,
        fun _ => ⟨turn, hasked, .inr hempty⟩⟩
    rw [if_neg hempty]
    have hpos : 0 < (server.chunkAt volume size offset turn got.length).length :=
      length_pos_of_ne_nil hempty
    refine ih ⟨hreached, hmore', hrange, hknown, heof, hlen ▸ hempty⟩ ?_ hgrown hfits ?_
    · rw [length_append, position, ← hlen]
    · rw [length_append]
      omega

/-! ## The read -/

/-- What is asked for at most. -/
def clamped (size : ℕ) : ℕ := min size intMax

/-- The read fails. -/
def Fails (server : ReadServer) (volume : MetadataVolume) (size : ℕ) (offset : ℤ) : Prop :=
  size ≠ 0 ∧ (offset < 0 ∨ volume.rxQuantum = 0 ∨ server.lockFails = true ∨
    server.unlockFails = true ∨ ∃ k, server.FailsAt volume (clamped size) offset.toNat k)

/-- A read that gets as far as to lock the range. -/
theorem llRead_locking (forkid : ℕ) (hsize : size ≠ 0) (hstart : ¬ start < 0)
    (hquantum : volume.rxQuantum ≠ 0) :
    ((server.calls.llRead volume forkid size start).run 0).1 =
      if server.lockFails then (-ebusy, [], false)
      else
        match ((server.calls.llReadLoop volume forkid (clamped size) start.toNat (clamped size)
          []).run 0).1 with
        | .error ret => (-ret, [], false)
        | .ok (data, eof) =>
            if server.unlockFails then (-eio, [], eof) else ((data.length : ℤ), data, eof) := by
  rw [llRead, if_neg hsize, if_neg hstart, if_neg hquantum]
  rw [run_bind_flush, run_bind_locking]
  cases server.lockFails with
  | true => rfl
  | false =>
    rw [if_neg Bool.false_ne_true, if_neg Bool.false_ne_true, StateT.run_bind]
    unfold clamped
    rcases (server.calls.llReadLoop volume forkid (min size intMax) start.toNat (min size intMax)
      []).run 0 with ⟨ret | ⟨data, eof⟩, s⟩
    · rfl
    · change (StateT.run (server.calls.llHandleUnlocking forkid start _ >>= _) s).1 = _
      rw [run_bind_unlocking]
      cases server.unlockFails <;> rfl

/-- What a read comes to: an error where it fails, and otherwise octets of
the file, fewer than asked for only where the server ended. -/
theorem llRead_run (server : ReadServer) (volume : MetadataVolume) (forkid size : ℕ) (offset : ℤ) :
    (server.Fails volume size offset →
      ((server.calls.llRead volume forkid size offset).run 0).1.1 < 0) ∧
    (¬ server.Fails volume size offset →
      ∃ data eof, ((server.calls.llRead volume forkid size offset).run 0).1 =
          ((data.length : ℤ), data, eof) ∧
        data = (server.file.drop offset.toNat).take data.length ∧ data.length ≤ clamped size ∧
        (data.length < clamped size →
          ∃ k, server.EndsAt volume (clamped size) offset.toNat k)) := by
  have hloop : LoopResult server volume (clamped size) offset.toNat
      ((server.calls.llReadLoop volume forkid (clamped size) offset.toNat (clamped size)
        []).run 0).1 := loopResult_llReadLoop trivial rfl rfl (Nat.zero_le _) (le_rfl)
  unfold Fails
  by_cases hsize : size = 0
  · rw [llRead, if_pos hsize]
    refine ⟨fun h => absurd hsize h.1, fun _ => ⟨[], false, rfl, rfl, Nat.zero_le _, ?_⟩⟩
    intro hshort
    rw [hsize] at hshort
    exact absurd hshort (Nat.not_lt_zero _)
  by_cases hneg : offset < 0
  · rw [llRead, if_neg hsize, if_pos hneg]
    exact ⟨fun _ => (by decide : -einval < 0), fun h => absurd ⟨hsize, .inl hneg⟩ h⟩
  by_cases hquantum : volume.rxQuantum = 0
  · rw [llRead, if_neg hsize, if_neg hneg, if_pos hquantum]
    exact ⟨fun _ => (by decide : -eio < 0), fun h => absurd ⟨hsize, .inr (.inl hquantum)⟩ h⟩
  rw [llRead_locking forkid hsize hneg hquantum]
  cases hlock : server.lockFails with
  | true =>
    exact ⟨fun _ => (by decide : -ebusy < 0), fun h => absurd ⟨hsize, .inr (.inr (.inl rfl))⟩ h⟩
  | false =>
    rw [if_neg Bool.false_ne_true]
    generalize ((server.calls.llReadLoop volume forkid (clamped size) offset.toNat (clamped size)
      []).run 0).1 = out at hloop ⊢
    rcases out with err | ⟨data, eof⟩
    · obtain ⟨hpos, hfails⟩ := hloop
      exact ⟨fun _ => Int.neg_neg_of_pos hpos,
        fun h => absurd ⟨hsize, .inr (.inr (.inr (.inr hfails)))⟩ h⟩
    · obtain ⟨hfine, hdata, hle, hends⟩ := hloop
      dsimp only
      cases hunlock : server.unlockFails with
      | true =>
        exact ⟨fun _ => (by decide : -eio < 0),
          fun h => absurd ⟨hsize, .inr (.inr (.inr (.inl rfl)))⟩ h⟩
      | false =>
        refine ⟨fun h => ?_, fun _ => ⟨data, eof, rfl, hdata, hle, hends⟩⟩
        rcases h.2 with h | h | h | h | h
        · exact absurd h hneg
        · exact absurd h hquantum
        · exact absurd h Bool.false_ne_true
        · exact absurd h Bool.false_ne_true
        · exact absurd h hfine

/-- What a read is to be: where it succeeds, the server found nothing wrong
with any chunk, what was read are the file's octets, and there are fewer
than asked for only because the server said that the file ends or sent an
empty reply. -/
def Genuine (server : ReadServer) (volume : MetadataVolume) (size : ℕ) (offset : ℤ)
    (result : ℤ × Octets × Bool) : Prop :=
  0 ≤ result.1 →
    (∀ k, server.Asked volume (clamped size) offset.toNat k →
      server.code k = 0 ∨ server.code k = kFPEOFErr) ∧
    result.2.1 = (server.file.drop offset.toNat).take result.1.toNat ∧
    (result.1 < size → ∃ k, server.EndsAt volume (clamped size) offset.toNat k)

/-- **When a read is what it is to be**: it fails, or no chunk is answered
with a code other than success and the end of the file, and the size is
one that an `int` can return or the server ends before. -/
theorem llRead_genuine_iff (server : ReadServer) (volume : MetadataVolume) (forkid size : ℕ)
    (offset : ℤ) :
    server.Genuine volume size offset
        ((server.calls.llRead volume forkid size offset).run 0).1 ↔
      server.Fails volume size offset ∨
        (∀ k, server.Asked volume (clamped size) offset.toNat k →
          server.code k = 0 ∨ server.code k = kFPEOFErr) ∧
        (size ≤ intMax ∨ ∃ k, server.EndsAt volume (clamped size) offset.toNat k) := by
  obtain ⟨hfail, hok⟩ := llRead_run server volume forkid size offset
  by_cases hfails : server.Fails volume size offset
  · refine iff_of_true (fun hnonneg => ?_) (.inl hfails)
    exact absurd (hfail hfails) (not_lt.mpr hnonneg)
  obtain ⟨data, eof, hrun, hdata, hle, hends⟩ := hok hfails
  rw [hrun]
  unfold Genuine
  dsimp only
  rw [Int.toNat_natCast]
  unfold clamped at hle
  constructor
  · intro hgenuine
    obtain ⟨hcodes, -, hshort⟩ := hgenuine (Int.natCast_nonneg _)
    refine .inr ⟨hcodes, ?_⟩
    rcases lt_or_ge intMax size with hbig | hsmall
    · exact .inr (hshort (by omega))
    · exact .inl hsmall
  · rintro (h | ⟨hcodes, hsize⟩) -
    · exact absurd h hfails
    · refine ⟨hcodes, hdata, fun hshort => ?_⟩
      rcases hsize with hsmall | hend
      · refine hends ?_
        unfold clamped
        omega
      · exact hend

/-- A file of three octets, read over a connection that is lost. -/
def lost : ReadServer := ⟨[1, 2, 3], fun _ => -1, fun _ => 0, false, false⟩

/-- AFP 3.4. -/
def afp34 : MetadataVolume := ⟨0, false, .kFPUTF8Name, 34, 1024, 1024⟩

/-- The read of a chunk that could not even be sent succeeds, with nothing
read. -/
theorem lost_connection_read_as_end :
    ((lost.calls.llRead afp34 1 3 0).run 0).1 = (0, [], false) ∧
      ¬ lost.Genuine afp34 3 0 ((lost.calls.llRead afp34 1 3 0).run 0).1 := by
  refine ⟨rfl, fun h => ?_⟩
  have hasked : lost.Asked afp34 (clamped 3) 0 0 := ⟨trivial, by decide, fun _ => by decide⟩
  exact absurd ((h (by decide)).1 0 hasked) (by decide)

end ReadServer

end NetatalkClient
