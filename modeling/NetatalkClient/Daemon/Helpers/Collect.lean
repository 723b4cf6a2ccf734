import NetatalkClient.Common.Sources
import NetatalkClient.Daemon.Model.Ipc
/-!
# What one call of `process_command` does

Between two calls the daemon has taken part of a packet: some octets of
the header, or the header and some of the body (`Gathering`). A call moves
octets from the descriptor to what has been taken and touches nothing
else; it gives the connection up, waits, or has the whole packet
(`processCommand_called`). With memory for the packet and a descriptor
that lives, only a length out of bounds makes it give up, and every call
uses some of the descriptor (`processCommand_progress`).
-/

namespace NetatalkClient

open Octets List Source Packet DaemonClient

/-- What has been taken of the packet. -/
def DaemonClient.taken (c : DaemonClient) : Octets := c.completePacket.getD c.incomingHeader

/-- Part of a packet has been taken. -/
def DaemonClient.Gathering (c : DaemonClient) : Prop :=
  match c.completePacket with
  | none => c.incomingHeader.length < ipcHeaderSize
  | some p => ipcHeaderSize ≤ p.length ∧ p.length < len p

/-- The whole of a packet has been taken. -/
def DaemonClient.Gathered (c : DaemonClient) : Prop :=
  ∃ p, c.completePacket = some p ∧ ipcHeaderSize ≤ p.length ∧ p.length = len p

theorem len_append {p q : Octets} (h : ipcHeaderSize ≤ p.length) : len (p ++ q) = len p :=
  le32_append (Nat.le_trans (by decide) h)

/-- What a call comes to: the octets are where they were or have been
taken, and the connection is given up, the packet is not complete, or it
is. -/
structure Called (c : DaemonClient) (res : ℤ × DaemonClient) : Prop where
  served : res.2.served = c.served
  phase : res.2.phase = c.phase
  taken : res.2.taken ++ res.2.fd.pending = c.taken ++ c.fd.pending
  outcome : res.1 < 0 ∨ res.1 = 2 ∧ res.2.Gathering ∨ res.1 = 0 ∧ res.2.Gathered

section Called

variable {c c' : DaemonClient} {p : Octets}

theorem Called.lost (hserved : c'.served = c.served) (hphase : c'.phase = c.phase)
    (htaken : c'.taken ++ c'.fd.pending = c.taken ++ c.fd.pending) : Called c (-1, c') :=
  ⟨hserved, hphase, htaken, .inl (show (-1 : ℤ) < 0 by decide)⟩

theorem Called.waits (hserved : c'.served = c.served) (hphase : c'.phase = c.phase)
    (htaken : c'.taken ++ c'.fd.pending = c.taken ++ c.fd.pending) (hg : c'.Gathering) :
    Called c (2, c') := ⟨hserved, hphase, htaken, .inr (.inl ⟨rfl, hg⟩)⟩

/-- A read that failed is tried again or loses the connection. -/
theorem Called.failed (again : Bool) (hserved : c'.served = c.served) (hphase : c'.phase = c.phase)
    (htaken : c'.taken ++ c'.fd.pending = c.taken ++ c.fd.pending) (hg : c'.Gathering) :
    Called c (if again then 2 else -1, c') := by
  cases again with
  | false => exact .lost hserved hphase htaken
  | true => exact .waits hserved hphase htaken hg

theorem readBody_called (again : Bool) (hhead : ipcHeaderSize ≤ p.length)
    (hle : p.length ≤ len p) (hp : c.taken = p) : Called c (readBody again c p) := by
  unfold readBody
  split
  · next hlt =>
    split
    · next fd hread =>
      refine .failed again rfl rfl ?_ ⟨hhead, hlt⟩
      rw [hp, pending_of_read_none hread]
      rfl
    · next fd hread =>
      refine .lost rfl rfl ?_
      rw [hp, pending_of_read hread]
      rfl
    · next o os fd hread =>
      have htaken : p ++ o :: os ++ fd.pending = c.taken ++ c.fd.pending := by
        rw [hp, pending_of_read hread, append_assoc]
      have hgotLen : (p ++ o :: os).length ≤ len p := by
        have := length_read_le hread
        rw [length_append]
        omega
      have hhead' : ipcHeaderSize ≤ (p ++ o :: os).length := by
        rw [length_append]
        omega
      dsimp only
      split
      · next hmore =>
        refine .waits rfl rfl htaken ⟨hhead', ?_⟩
        rw [len_append hhead]
        exact hmore
      · next hfull =>
        refine ⟨rfl, rfl, htaken, .inr (.inr ⟨rfl, _, rfl, hhead', ?_⟩)⟩
        rw [len_append hhead]
        omega
  · next hge =>
    refine ⟨rfl, rfl, by rw [hp]; rfl, .inr (.inr ⟨rfl, _, rfl, hhead, ?_⟩)⟩
    omega

/-- **What one call of `process_command` comes to.** -/
theorem processCommand_called (again malloc : Bool) (h : c.Gathering) :
    Called c (processCommand again malloc c) := by
  unfold processCommand
  unfold Gathering at h
  split
  · next p hp =>
    rw [hp] at h
    exact readBody_called again h.1 (Nat.le_of_lt h.2) (by rw [taken, hp]; rfl)
  · next hnone =>
    rw [hnone] at h
    have htaken : c.taken = c.incomingHeader := by rw [taken, hnone]; rfl
    split
    · next fd hread =>
      refine .failed again rfl rfl ?_ ?_
      · rw [htaken, pending_of_read_none hread, taken, hnone]
        rfl
      · simp only [Gathering, hnone]
        exact h
    · next fd hread =>
      refine .lost rfl rfl ?_
      rw [htaken, pending_of_read hread, taken, hnone]
      rfl
    · next o os fd hread =>
      have hgot : c.incomingHeader ++ o :: os ++ fd.pending = c.taken ++ c.fd.pending := by
        rw [htaken, pending_of_read hread, append_assoc]
      have hgotLen : (c.incomingHeader ++ o :: os).length ≤ ipcHeaderSize := by
        have := length_read_le hread
        rw [length_append]
        omega
      have hc' : ∀ c' : DaemonClient, c'.completePacket = none →
          c'.incomingHeader = c.incomingHeader ++ o :: os → c'.fd = fd →
          c'.taken ++ c'.fd.pending = c.taken ++ c.fd.pending := by
        intro c' hn hh hf
        rw [taken, hn, Option.getD_none, hh, hf, hgot]
      dsimp only
      split
      · next hshort =>
        refine .waits rfl rfl (hc' _ hnone rfl rfl) ?_
        simp only [Gathering, hnone]
        exact hshort
      · next hwhole =>
        split
        · exact .lost rfl rfl (hc' _ hnone rfl rfl)
        · next hlen =>
          split
          · exact .lost rfl rfl (hc' _ hnone rfl rfl)
          · -- the same call goes on to the body, from the header it has just completed
            have hbody := readBody_called (c := { c with
              fd := fd, incomingHeader := c.incomingHeader ++ o :: os }) again
              (Nat.not_lt.mp hwhole) (by omega) (by rw [taken, hnone]; rfl)
            refine ⟨hbody.served, hbody.phase, ?_, hbody.outcome⟩
            rw [hbody.taken]
            exact hc' _ hnone rfl rfl

end Called

/-! ## A call that does not give up -/

/-- A request as it is framed: as long as its header says, and within what
the daemon takes. -/
structure IpcFrame (packet : Octets) : Prop where
  header_le : ipcHeaderSize ≤ packet.length
  len_eq : len packet = packet.length
  len_le : packet.length ≤ afpslIpcMaxRequest

section Progress

variable {c : DaemonClient} {packet p later : Octets}

/-- What the length field says is known once the header has been taken. -/
theorem IpcFrame.len_of_prefix {more : Octets} (hf : IpcFrame packet)
    (h : p ++ more = packet ++ later) (hp : ipcHeaderSize ≤ p.length) : len p = packet.length := by
  rw [← len_append hp (q := more), h, len_append hf.header_le, hf.len_eq]

theorem readBody_progress (hf : IpcFrame packet) (halive : c.fd.Alive)
    (hhead : ipcHeaderSize ≤ p.length) (hpend : p ++ c.fd.pending = packet ++ later) :
    0 ≤ (readBody true c p).1 ∧ (readBody true c p).2.fd.Alive ∧
      (readBody true c p).2.fd.weight ≤ c.fd.weight ∧
      (p.length < len p → (readBody true c p).2.fd.weight < c.fd.weight) := by
  have hlen := hf.len_of_prefix hpend hhead
  have hwaits : (0 : ℤ) ≤ 2 := by decide
  unfold readBody
  split
  · next hlt =>
    have hpos : 0 < len p - p.length := by omega
    split
    · next fd hread =>
      obtain ⟨hw, ha⟩ := read_none hread
      exact ⟨hwaits, ha halive, Nat.le_of_lt hw, fun _ => hw⟩
    · next fd hread =>
      -- the packet is not complete, so something of it is pending
      have hnil := read_nil hpos hread halive
      have := congrArg List.length hpend
      rw [hnil, append_nil, length_append] at this
      omega
    · next o os fd hread =>
      obtain ⟨hw, ha⟩ := read_some hpos hread (by simp)
      dsimp only
      split
      · exact ⟨hwaits, ha halive, Nat.le_of_lt hw, fun _ => hw⟩
      · exact ⟨Int.le_refl 0, ha halive, Nat.le_of_lt hw, fun _ => hw⟩
  · next hge => exact ⟨Int.le_refl 0, halive, Nat.le_refl _, fun h => absurd h hge⟩

/-- **A call goes on**: on a living descriptor that starts with the rest of
a framed request no call gives up, and each uses some of the descriptor. -/
theorem processCommand_progress (hf : IpcFrame packet) (hg : c.Gathering)
    (halive : c.fd.Alive) (hpend : c.taken ++ c.fd.pending = packet ++ later) :
    0 ≤ (processCommand true true c).1 ∧ (processCommand true true c).2.fd.Alive ∧
      (processCommand true true c).2.fd.weight < c.fd.weight := by
  have hwaits : (0 : ℤ) ≤ 2 := by decide
  unfold processCommand
  unfold Gathering at hg
  split
  · next p hp =>
    rw [hp] at hg
    rw [taken, hp, Option.getD_some] at hpend
    obtain ⟨hret, ha, -, hw⟩ := readBody_progress hf halive hg.1 hpend
    exact ⟨hret, ha, hw hg.2⟩
  · next hnone =>
    rw [hnone] at hg
    rw [taken, hnone, Option.getD_none] at hpend
    have hpos : 0 < ipcHeaderSize - c.incomingHeader.length := by omega
    split
    · next fd hread =>
      obtain ⟨hw, ha⟩ := read_none hread
      exact ⟨hwaits, ha halive, hw⟩
    · next fd hread =>
      have hnil := read_nil hpos hread halive
      have hlens := congrArg List.length hpend
      have := hf.header_le
      rw [hnil, append_nil, length_append] at hlens
      omega
    · next o os fd hread =>
      obtain ⟨hw, ha⟩ := read_some hpos hread (by simp)
      have hgot : c.incomingHeader ++ o :: os ++ fd.pending = packet ++ later := by
        rw [append_assoc, ← pending_of_read hread, hpend]
      dsimp only
      split
      · exact ⟨hwaits, ha halive, hw⟩
      · next hwhole =>
        have hlen := hf.len_of_prefix hgot (Nat.not_lt.mp hwhole)
        split
        · next hbad =>
          have := hf.header_le
          have := hf.len_le
          omega
        · rw [if_neg (by decide)]
          obtain ⟨hret, ha', hle, -⟩ := readBody_progress (c := { c with
            fd := fd, incomingHeader := c.incomingHeader ++ o :: os }) hf (ha halive)
            (Nat.not_lt.mp hwhole) hgot
          exact ⟨hret, ha', Nat.lt_of_le_of_lt hle hw⟩

end Progress

end NetatalkClient
