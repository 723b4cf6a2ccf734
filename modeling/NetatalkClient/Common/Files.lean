import NetatalkClient.Common.Octets
/-!
# File contents

The content of a file as an octet string, and what the positioned calls do
to it where they succeed completely: `pread` returns what there is,
`pwrite` lays its octets over the content and fills a gap with zeros, and
`ftruncate` sets the length. What a call leaves at a position, and how
long the file then is, is all that is used above this file.
-/

namespace Octets

open List

/-- What the file has of the `n` octets at `pos`. -/
def pread (f : Octets) (n pos : ℕ) : Octets := (f.drop pos).take n

/-- `c` written at `pos`. An empty write does not make a file longer. -/
def pwrite (f c : Octets) (pos : ℕ) : Octets := if c = [] then f else f.overwrite pos c

/-- The file made `n` octets long. -/
def ftruncate (f : Octets) (n : ℕ) : Octets := f.window n

variable {a b c f : Octets} {i n pos : ℕ}

/-! ## Fields are bounded -/

theorem byte_lt (b : Octets) (i : ℕ) : b.byte i < 256 := UInt8.toNat_lt _

theorem be16_lt (b : Octets) (i : ℕ) : b.be16 i < 65536 := by
  have h₁ := byte_lt b i
  have h₂ := byte_lt b (i + 1)
  rw [be16]
  omega

theorem be32_lt (b : Octets) (i : ℕ) : b.be32 i < 4294967296 := by
  have h₁ := be16_lt b i
  have h₂ := be16_lt b (i + 2)
  rw [be32]
  omega

/-! ## Reading -/

theorem byte_of_length_le (h : b.length ≤ i) : b.byte i = 0 := by
  rw [byte, getD_eq_default _ _ h]
  rfl

@[simp]
theorem length_pread (f : Octets) (n pos : ℕ) :
    (f.pread n pos).length = min n (f.length - pos) := by
  simp [pread]

theorem byte_pread (h : i < n) : (f.pread n pos).byte i = f.byte (pos + i) := by
  rw [pread, ← agree_take _ _ i h, byte_drop]

theorem be16_pread (h : i + 1 < n) : (f.pread n pos).be16 i = f.be16 (pos + i) := by
  rw [be16, be16, byte_pread (by omega), byte_pread h, Nat.add_assoc]

theorem be32_pread (h : i + 3 < n) : (f.pread n pos).be32 i = f.be32 (pos + i) := by
  rw [be32, be32, be16_pread (by omega), be16_pread (by omega), Nat.add_assoc]

/-- A read that lies inside the file is complete. -/
theorem pread_eq_octetsAt (h : pos + n ≤ f.length) : f.pread n pos = f.octetsAt pos n := by
  rw [pread, octetsAt, window, length_drop, Nat.sub_eq_zero_of_le (by omega),
    replicate_zero, append_nil]

/-! ## Octet by octet -/

theorem byte_octetsAt {p w i : ℕ} (b : Octets) (h : i < w) :
    (b.octetsAt p w).byte i = b.byte (p + i) := by
  rw [octetsAt, byte_window h, byte_drop]

theorem ext_byte (hlen : a.length = b.length) (h : ∀ i < a.length, a.byte i = b.byte i) :
    a = b := by
  have hself : ∀ c : Octets, c.window c.length = c := by
    intro c
    rw [window, Nat.sub_self, take_length, replicate_zero, append_nil]
  rw [← hself a, ← hself b, ← hlen]
  exact window_congr h

/-- Memory at a position is the same if and only if its octets are. -/
theorem octetsAt_eq_iff : a.octetsAt pos n = b.octetsAt pos n ↔
    ∀ i, pos ≤ i → i < pos + n → a.byte i = b.byte i := by
  constructor
  · intro h i hlow hhigh
    have hbyte := congrArg (fun o => byte o (i - pos)) h
    rwa [byte_octetsAt a (by omega), byte_octetsAt b (by omega), Nat.add_sub_cancel' hlow] at hbyte
  · exact octetsAt_congr

/-! ## Writing -/

theorem length_overwrite (b : Octets) (pos : ℕ) (c : Octets) :
    (b.overwrite pos c).length = max b.length (pos + c.length) := by
  simp only [overwrite, length_append, length_window, length_drop]
  omega

theorem byte_overwrite (b : Octets) (pos : ℕ) (c : Octets) (i : ℕ) :
    (b.overwrite pos c).byte i =
      if pos ≤ i ∧ i < pos + c.length then c.byte (i - pos) else b.byte i := by
  have hfront : (b.window pos ++ c).length = pos + c.length := by simp
  rw [overwrite]
  rcases Nat.lt_or_ge i pos with hlt | hge
  · rw [if_neg (by omega), append_assoc, byte_append (by simpa using hlt), byte_window hlt]
  · rcases Nat.lt_or_ge i (pos + c.length) with hin | hout
    · have hat := byte_append_right (b.window pos) c (i - pos)
      rw [length_window, Nat.add_sub_cancel' hge] at hat
      rw [if_pos ⟨hge, hin⟩, byte_append (by omega), hat]
    · have hat := byte_append_right (b.window pos ++ c) (b.drop (pos + c.length))
        (i - (pos + c.length))
      rw [hfront, Nat.add_sub_cancel' hout, byte_drop, Nat.add_sub_cancel' hout] at hat
      rw [if_neg (by omega), hat]

/-- What is written over the middle of a string replaces it. -/
theorem overwrite_middle {d : Octets} (h : b.length = d.length) :
    (a ++ (b ++ c)).overwrite a.length d = a ++ (d ++ c) := by
  have hwindow : (a ++ (b ++ c)).window a.length = a := by
    rw [window, take_left, length_append, Nat.sub_eq_zero_of_le (Nat.le_add_right _ _),
      replicate_zero, append_nil]
  rw [overwrite, hwindow, ← h, ← length_append, ← append_assoc a b c, drop_left, append_assoc]

theorem length_pwrite (f c : Octets) (pos : ℕ) :
    (f.pwrite c pos).length = if c = [] then f.length else max f.length (pos + c.length) := by
  unfold pwrite
  split
  · rfl
  · exact length_overwrite f pos c

theorem length_le_pwrite (f c : Octets) (pos : ℕ) : f.length ≤ (f.pwrite c pos).length := by
  rw [length_pwrite]
  split <;> omega

theorem byte_pwrite (f c : Octets) (pos i : ℕ) :
    (f.pwrite c pos).byte i =
      if pos ≤ i ∧ i < pos + c.length then c.byte (i - pos) else f.byte i := by
  unfold pwrite
  split
  · next hnil => rw [hnil, length_nil, if_neg (by omega)]
  · exact byte_overwrite f pos c i

theorem byte_pwrite_of_lt (h : i < pos) : (f.pwrite c pos).byte i = f.byte i := by
  rw [byte_pwrite, if_neg (by omega)]

theorem byte_pwrite_of_ge (h : pos + c.length ≤ i) : (f.pwrite c pos).byte i = f.byte i := by
  rw [byte_pwrite, if_neg (by omega)]

/-- What was written is there. -/
theorem octetsAt_pwrite (f c : Octets) (pos : ℕ) : (f.pwrite c pos).octetsAt pos c.length = c := by
  unfold pwrite
  split
  · next hnil => rw [hnil, length_nil, octetsAt, window_zero]
  · have hat := octetsAt_append (f.window pos) c (f.drop (pos + c.length))
    rw [length_window] at hat
    rw [overwrite, append_assoc, hat]

@[simp]
theorem length_ftruncate (f : Octets) (n : ℕ) : (f.ftruncate n).length = n := length_window f n

theorem byte_ftruncate (h : i < n) : (f.ftruncate n).byte i = f.byte i := byte_window h

end Octets
