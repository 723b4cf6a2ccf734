import NetatalkClient.Midlevel.Helpers.Metadata
/-!
# Helpers: what is in a fork

What a write of a fork leaves in it, and what a read brings, over any
calls that do to a fork what its requests say. A write may be refused or
taken in part at any chunk; a read is over a server that answers.
-/

namespace NetatalkClient

open Octets List

namespace AfpCalls

variable {σ : Type} {afp : AfpCalls σ} {volume : MetadataVolume} {forkid : ℕ}
variable {b data : Octets}

/-! ## Writing -/

/-- What two writes leave, one behind the other. -/
theorem overwrite_overwrite (b x y : Octets) :
    (b.overwrite 0 x).overwrite x.length y = b.overwrite 0 (x ++ y) := by
  have hzero : ∀ c : Octets, b.overwrite 0 c = c ++ b.drop c.length := fun c => by
    rw [overwrite, window_zero, nil_append, zero_add]
  have hwindow : (x ++ b.drop x.length).window x.length = x := by
    rw [window, take_left, length_append, Nat.sub_eq_zero_of_le (Nat.le_add_right _ _),
      replicate_zero, append_nil]
  rw [hzero, hzero, overwrite, hwindow, drop_append, drop_drop, length_append,
    drop_eq_nil_of_le (Nat.le_add_right _ _), nil_append, Nat.add_sub_cancel_left]

/-- The fork has the contents `b` wherever `P b`. A chunk of a write that is
answered with success is taken as far as the reply says. -/
structure Stores (afp : AfpCalls σ) (forkid : ℕ) (P : Octets → σ → Prop) : Prop where
  lock : ∀ b offset n, Ensures (P b) (afp.llHandleLocking forkid offset n) fun _ => P b
  unlock : ∀ b offset n, Ensures (P b) (afp.llHandleUnlocking forkid offset n) fun _ => P b
  write : ∀ b offset chunk, Ensures (P b) (afp.afpWrite forkid offset chunk) fun r s =>
    r.1 = 0 → ∃ n ≤ chunk.length, r.2 = offset + n ∧ P (b.pwrite (chunk.take n) offset) s

/-- The loop leaves what it says it has written. -/
theorem Stores.llWriteLoop {P : Octets → σ → Prop} (h : Stores afp forkid P)
    (hdata : data.length < 0x100000000) (turns : ℕ) {total : ℕ} (htotal : total ≤ data.length) :
    Ensures (P (b.overwrite 0 (data.take total)))
      (afp.llWriteLoop volume forkid data 0 turns total) fun r s =>
        r.1 = 0 → P (b.overwrite 0 (data.take r.2)) s := by
  induction turns generalizing total with
  | zero => exact .pure fun _ hs _ => hs
  | succ turns ih =>
    -- small offsets are sent as they are
    have hwire : ∀ {n : ℕ}, n ≤ data.length → wireOffset volume n = n := fun hn => by
      unfold wireOffset
      split
      · exact Nat.mod_eq_of_lt (by omega)
      · exact Nat.mod_eq_of_lt (by omega)
    unfold AfpCalls.llWriteLoop
    refine .ite (fun _ => .pure fun _ hs _ => hs) fun hmore => ?_
    have hoffset : (0 + total) % 0x10000000000000000 = total := by
      rw [zero_add]
      exact Nat.mod_eq_of_lt (by omega)
    dsimp only
    rw [hoffset, hwire htotal]
    refine .bind (h.write _ _ _) ?_
    rintro ⟨rc, reply⟩
    refine .orFail (by dsimp only; decide) <| .orFail (by dsimp only; decide) <| ?_
    refine .orFail (by dsimp only; decide) <| .ite (fun _ => .fail (by dsimp only; decide)) ?_
    intro hrc
    have hzero : rc = 0 := not_not.mp hrc
    refine .orFail (by dsimp only; decide) <| .ite (fun _ => .fail (by dsimp only; decide)) ?_
    intro hprogress s hs
    obtain ⟨n, hn, hreply, hstored⟩ := hs hzero
    have hchunk : ((data.drop total).take (min volume.txQuantum (data.length - total))).length ≤
        data.length - total := (length_take_le _ _).trans (min_le_right _ _)
    have hnext : total + n ≤ data.length := by omega
    have hreached : wireOffset volume reply - total = n := by
      rw [show reply = total + n from hreply, hwire hnext, Nat.add_sub_cancel_left]
    have hgrown : P (b.overwrite 0 (data.take (total + n))) s := by
      have htotalLength : (data.take total).length = total := length_take_of_le htotal
      have hwritten : (b.overwrite 0 (data.take total)).overwrite total
          (((data.drop total).take (min volume.txQuantum (data.length - total))).take n) =
          b.overwrite 0 (data.take (total + n)) := by
        have htake : ((data.drop total).take (min volume.txQuantum (data.length - total))).take n =
            (data.drop total).take n := by
          rw [length_take, length_drop] at hn
          rw [take_take, min_eq_left (by omega)]
        have happend := overwrite_overwrite b (data.take total) ((data.drop total).take n)
        rw [htotalLength, ← take_add] at happend
        rw [htake, happend]
      -- a chunk of which nothing is taken has ended the loop
      have hsome : ((data.drop total).take (min volume.txQuantum (data.length - total))).take n ≠
          [] := by
        intro hnone
        rcases take_eq_nil_iff.mp hnone with rfl | hempty
        · exact hprogress (.inl (by rw [hreached]))
        · rw [hempty] at hn
          have hzero : n = 0 := Nat.le_zero.mp hn
          exact hprogress (.inl (by rw [hreached, hzero]))
      rw [pwrite, if_neg hsome] at hstored
      exact hwritten ▸ hstored
    show _ → _
    rw [hreached]
    exact ih hnext s hgrown

/-- What `ll_write` from the start of a fork leaves in it, where it
succeeds. -/
theorem Stores.llWrite {P : Octets → σ → Prop} (h : Stores afp forkid P)
    (hdata : data.length < 0x100000000) :
    Ensures (P b) (afp.llWrite volume forkid data 0) fun r s =>
      r.1 = 0 → P (b.overwrite 0 (data.take r.2.1)) s := by
  have hstart : ∀ s, P b s → P (b.overwrite 0 (data.take 0)) s := fun s hs => by
    rw [take_zero, overwrite, window_zero, append_nil, nil_append]
    exact hs
  unfold AfpCalls.llWrite
  refine .orFail (by decide) <| .bind (h.lock b _ _) fun failed => ?_
  refine .orFail (by decide) ?_
  have hloop : Ensures (P b) (afp.llWriteLoop volume forkid data 0 data.length 0) fun r s =>
      r.1 = 0 → P (b.overwrite 0 (data.take r.2)) s :=
    (h.llWriteLoop hdata data.length (Nat.zero_le _)).mono hstart fun _ _ hs => hs
  refine .bind hloop ?_
  rintro ⟨err, total⟩
  refine .ite (fun herr => ?_) fun herr => ?_
  · have hany : Ensures
        (fun s => (err, total).1 = 0 → P (b.overwrite 0 (data.take (err, total).2)) s)
        (afp.llHandleUnlocking forkid 0 data.length) fun _ _ => True := fun _ _ => trivial
    exact .bind hany fun _ => .fail (neg_ne_zero.mpr herr)
  · have hunlock : Ensures
        (fun s => (err, total).1 = 0 → P (b.overwrite 0 (data.take (err, total).2)) s)
        (afp.llHandleUnlocking forkid 0 data.length) fun _ => P (b.overwrite 0 (data.take total)) :=
      (h.unlock _ _ _).mono (fun _ hs => hs (not_not.mp herr)) fun _ _ hs => hs
    refine .bind hunlock fun failed => .ite (fun _ => ?_) fun _ => .pure fun _ hs _ => hs
    exact .bind (h.unlock _ _ _) fun _ => .fail (by dsimp only; decide)

/-! ## Reading -/

/-- The fork has the contents `b` wherever `P`, and its requests are
answered. -/
structure Reads (afp : AfpCalls σ) (forkid : ℕ) (b : Octets) (P : σ → Prop) : Prop where
  flushDirty : Ensures P (afp.flushDirtyForksForFile forkid) fun _ => P
  lock : ∀ offset n, Ensures P (afp.llHandleLocking forkid offset n) fun failed s =>
    failed = false ∧ P s
  unlock : ∀ offset n, Ensures P (afp.llHandleUnlocking forkid offset n) fun failed s =>
    failed = false ∧ P s
  read : ∀ offset n, Ensures P (afp.afpRead forkid offset n) fun r s =>
    r = (if b.length < offset + n then kFPEOFErr else 0, (b.drop offset).take n) ∧ P s

/-- A read inside the fork goes on until it has all. -/
theorem Reads.llReadLoop {P : σ → Prop} (h : Reads afp forkid b P) (hquantum : 0 < volume.rxQuantum)
    {size offset : ℕ} (hinside : offset + size ≤ b.length) (hsmall : offset + size ≤ uintMax)
    (turns : ℕ) {n : ℕ} (hn : n ≤ size) (hturns : size - n ≤ turns) :
    Ensures P (afp.llReadLoop volume forkid size offset turns ((b.drop offset).take n)) fun r s =>
      r = .ok ((b.drop offset).take size, false) ∧ P s := by
  have hlen : ∀ {m}, m ≤ size → ((b.drop offset).take m).length = m := fun hm => by
    rw [length_take, length_drop]
    omega
  induction turns generalizing n with
  | zero =>
    obtain rfl : n = size := by omega
    exact .pure fun _ hs => ⟨rfl, hs⟩
  | succ turns ih =>
    unfold AfpCalls.llReadLoop
    rw [hlen hn]
    refine .ite (fun hdone => ?_) fun hmore => ?_
    · obtain rfl : n = size := by omega
      exact .pure fun _ hs => ⟨rfl, hs⟩
    refine .ite (fun hbig => absurd hbig.2 (by omega)) fun _ => ?_
    refine .bind (h.read _ _) ?_
    rintro ⟨rc, got⟩
    refine .assume fun hreply => ?_
    obtain ⟨hrc, hgot⟩ := Prod.mk.inj hreply
    have hchunk : n + min volume.rxQuantum (size - n) ≤ size := by omega
    have hrc : rc = 0 := by
      rw [hrc]
      exact if_neg (by omega)
    have hstored : got.take (min volume.rxQuantum (size - n)) =
        (b.drop (offset + n)).take (min volume.rxQuantum (size - n)) := by
      rw [hgot, take_take, Nat.min_self]
    have hgrown : (b.drop offset).take n ++ got.take (min volume.rxQuantum (size - n)) =
        (b.drop offset).take (n + min volume.rxQuantum (size - n)) := by
      rw [hstored, take_add, drop_drop]
    have hsome : got.take (min volume.rxQuantum (size - n)) ≠ [] := by
      rw [hstored, ← length_pos_iff_ne_nil, length_take, length_drop]
      omega
    dsimp only
    rw [hrc, hgrown]
    refine .skip (by decide) <| .ite (fun h => absurd h (by decide)) ?_
    intro _
    refine .skip (by decide) <| .ite (fun h => absurd h (by decide)) ?_
    intro _
    refine .skip hsome <| ih hchunk ?_
    omega

theorem Reads.llRead {P : σ → Prop} (h : Reads afp forkid b P) (hquantum : 0 < volume.rxQuantum)
    {size offset : ℕ} (hpos : 0 < size) (hinside : offset + size ≤ b.length)
    (hsmall : offset + size ≤ intMax) :
    Ensures P (afp.llRead volume forkid size offset) fun r s =>
      r = ((size : ℤ), (b.drop offset).take size, false) ∧ P s := by
  have hmin : min size intMax = size := min_eq_left (by omega)
  have hlen : ((b.drop offset).take size).length = size := by
    rw [length_take, length_drop]
    omega
  have hloop : Ensures P (afp.llReadLoop volume forkid size offset size []) fun r s =>
      r = .ok ((b.drop offset).take size, false) ∧ P s := by
    have hbig : intMax ≤ uintMax := by decide
    exact h.llReadLoop hquantum hinside (by omega) size (Nat.zero_le _) (Nat.sub_le _ _)
  unfold AfpCalls.llRead
  refine .skip (Nat.ne_of_gt hpos) ?_
  dsimp only
  rw [hmin, Int.toNat_natCast]
  refine .skip (by omega) <| .bind h.flushDirty fun _ => ?_
  refine .skip (Nat.ne_of_gt hquantum) ?_
  refine .bind (h.lock _ _) fun failed => .assume fun hlock => ?_
  refine .ite (fun hfailed => absurd (hlock ▸ hfailed) nofun) fun _ => .bind hloop fun r => ?_
  refine .assume fun hr => ?_
  rw [hr]
  refine .bind (h.unlock _ _) fun failed => .assume fun hunlock => ?_
  refine .ite (fun hfailed => absurd (hunlock ▸ hfailed) nofun) fun _ => .pure fun _ hs => ?_
  exact ⟨by rw [hlen], hs⟩

/-- The loop of `ml_getresourcefork`, from the start of a fork: one read
brings all that is wanted. -/
theorem Reads.getResourceLoop {P : σ → Prop} (h : Reads afp forkid b P)
    (hquantum : 0 < volume.rxQuantum) {size : ℕ} (hpos : 0 < min size b.length)
    (hsmall : min size b.length ≤ intMax) :
    Ensures P (afp.getResourceLoop volume forkid size 0 b.length size []) fun r s =>
      r = .ok (b.take size) ∧ P s := by
  have htake : b.take (min size b.length) = b.take size := by
    rw [← take_take, take_length]
  have hlen : (b.take size).length = min size b.length := length_take
  -- the next turn finds that all has been read
  have hdone : ∀ turns, Ensures P
      (afp.getResourceLoop volume forkid size 0 b.length turns (b.take size)) fun r s =>
        r = .ok (b.take size) ∧ P s := by
    intro turns
    cases turns with
    | zero => exact .pure fun _ hs => ⟨rfl, hs⟩
    | succ turns =>
      refine .ite (fun _ => .pure fun _ hs => ⟨rfl, hs⟩) fun hmore => absurd ?_ hmore
      rw [hlen]
      omega
  have hread : Ensures P (afp.llRead volume forkid (min size b.length) ((0 : ℕ) : ℤ)) fun r s =>
      r = (((min size b.length : ℕ) : ℤ), b.take size, false) ∧ P s := by
    have hall := @Reads.llRead σ afp volume forkid b P h hquantum (min size b.length) 0 hpos
      (by omega) (by omega)
    rwa [drop_zero, htake] at hall
  obtain ⟨turns, rfl⟩ := Nat.exists_eq_succ_of_ne_zero (show size ≠ 0 by omega)
  refine .ite (fun hnone => absurd hnone ?_) fun _ => .bind hread fun r => .assume fun hr => ?_
  · rw [length_nil]
    omega
  · rw [hr]
    refine .skip (by omega) ?_
    refine .ite (fun hnone => ?_) fun _ => .skip nofun <| hdone turns
    rw [hnone, length_nil] at hlen
    omega

/-- Without a quantum, nothing is read. -/
theorem getResourceLoop_no_quantum (hquantum : volume.rxQuantum = 0) {size position remaining : ℕ}
    (hpos : 0 < min size remaining) :
    Returns (afp.getResourceLoop volume forkid size position remaining size []) fun r =>
      r = .error (-eio) := by
  have hread : ∀ {chunk : ℕ} {offset : ℤ}, 0 < chunk → 0 ≤ offset →
      Returns (afp.llRead volume forkid chunk offset) fun r => r = (-eio, [], false) := by
    intro chunk offset hchunk hoffset
    refine .skip hchunk.ne' ?_
    refine .skip (not_lt.mpr hoffset) <| .bind_any fun _ => ?_
    exact .ite (fun _ => .pure rfl) fun h => absurd hquantum h
  obtain ⟨turns, rfl⟩ := Nat.exists_eq_succ_of_ne_zero (show size ≠ 0 by omega)
  refine .ite (fun h => absurd h ?_) fun _ => .bind (hread ?_ ?_) ?_
  · rw [length_nil]
    omega
  · rw [length_nil]
    omega
  · omega
  · rintro _ rfl
    exact .ite (fun _ => .pure rfl) fun h => absurd (show -eio < 0 by decide) h

end AfpCalls

end NetatalkClient
