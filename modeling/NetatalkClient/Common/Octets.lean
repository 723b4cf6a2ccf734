import Mathlib.Data.Int.Notation
import Mathlib.Data.List.GetD
import Mathlib.Tactic.Common
/-!
# Octet strings and octet sources

Big-endian fields of an octet string, a buffer written in place, and a
source that hands its octets out in pieces of its own choosing. A field
is determined by the prefix that covers it, and a read takes a non-empty
prefix of what the source still holds: nothing else about either is used
above this file.
-/

/-- An octet string. -/
abbrev Octets := List UInt8

namespace Octets

/-- The octet at `i`, as a number; zero past the end. -/
def byte (b : Octets) (i : ℕ) : ℕ := (b.getD i 0).toNat

/-- The big-endian 16-bit field at `i`. -/
def be16 (b : Octets) (i : ℕ) : ℕ := b.byte i * 256 + b.byte (i + 1)

/-- The big-endian 32-bit field at `i`. -/
def be32 (b : Octets) (i : ℕ) : ℕ := b.be16 i * 65536 + b.be16 (i + 2)

/-- The little-endian 16-bit field at `i`. -/
def le16 (b : Octets) (i : ℕ) : ℕ := b.byte i + 256 * b.byte (i + 1)

/-- The little-endian 32-bit field at `i`. -/
def le32 (b : Octets) (i : ℕ) : ℕ := b.le16 i + 65536 * b.le16 (i + 2)

/-- The little-endian 64-bit field at `i`. -/
def le64 (b : Octets) (i : ℕ) : ℕ := b.le32 i + 4294967296 * b.le32 (i + 4)

/-- The first `n` octets of `b` as memory, where what was never written
reads as zero. -/
def window (b : Octets) (n : ℕ) : Octets := b.take n ++ List.replicate (n - b.length) 0

/-- The `n` octets of memory at `i`. -/
def octetsAt (b : Octets) (i n : ℕ) : Octets := window (b.drop i) n

/-- `c` written over `b` at `pos`. -/
def overwrite (b : Octets) (pos : ℕ) (c : Octets) : Octets :=
  b.window pos ++ c ++ b.drop (pos + c.length)

variable {a b c : Octets} {i n pos : ℕ}

/-- Two buffers with the same first `n` octets. -/
def Agree (n : ℕ) (a b : Octets) : Prop := ∀ i < n, a.byte i = b.byte i

/-! ## A field is determined by the octets it covers -/

theorem byte_append (h : i < a.length) : byte (a ++ c) i = byte a i := by
  simp [byte, List.getElem?_append_left h]

theorem be16_congr (h₁ : a.byte i = b.byte i) (h₂ : a.byte (i + 1) = b.byte (i + 1)) :
    a.be16 i = b.be16 i := by
  rw [be16, be16, h₁, h₂]

theorem be32_congr (h : ∀ j, i ≤ j → j < i + 4 → a.byte j = b.byte j) : a.be32 i = b.be32 i := by
  rw [be32, be32, be16_congr (h i (by omega) (by omega)) (h (i + 1) (by omega) (by omega)),
    be16_congr (h (i + 2) (by omega) (by omega)) (h (i + 2 + 1) (by omega) (by omega))]

theorem Agree.be16 (h : Agree n a b) (hi : i + 1 < n) : a.be16 i = b.be16 i :=
  be16_congr (h i (by omega)) (h (i + 1) hi)

theorem byte_append_right (a c : Octets) (i : ℕ) : (a ++ c).byte (a.length + i) = c.byte i := by
  rw [byte, byte, List.getD_append_right _ _ _ _ (Nat.le_add_right _ _), Nat.add_sub_cancel_left]

theorem be16_append_right (a c : Octets) (i : ℕ) : (a ++ c).be16 (a.length + i) = c.be16 i := by
  rw [be16, be16, byte_append_right, Nat.add_assoc, byte_append_right]

theorem be32_append_right (a c : Octets) (i : ℕ) : (a ++ c).be32 (a.length + i) = c.be32 i := by
  rw [be32, be32, be16_append_right, Nat.add_assoc, be16_append_right]

theorem le32_append (h : i + 4 ≤ a.length) : (a ++ c).le32 i = a.le32 i := by
  simp only [le32, le16]
  rw [byte_append (by omega), byte_append (by omega), byte_append (by omega),
    byte_append (by omega)]

/-! ## Memory -/

@[simp]
theorem length_window (b : Octets) (n : ℕ) : (b.window n).length = n := by
  simp only [window, List.length_append, List.length_take, List.length_replicate]
  omega

theorem byte_window (h : i < n) : (b.window n).byte i = b.byte i := by
  rcases Nat.lt_or_ge i b.length with hi | hi
  · have hlen : i < (b.take n).length := by
      rw [List.length_take]
      omega
    rw [window, byte_append hlen]
    simp [byte, h]
  · have hlen : (b.take n).length ≤ i := by
      rw [List.length_take]
      omega
    have hz : (List.replicate (n - b.length) (0 : UInt8)).getD (i - (b.take n).length) 0 = 0 := by
      rw [List.getD_eq_getElem?_getD, List.getElem?_replicate]
      split <;> rfl
    rw [byte, byte, window, List.getD_append_right _ _ _ _ hlen, hz, List.getD_eq_default _ _ hi]

theorem window_length (b : Octets) : b.window b.length = b := by
  rw [window, List.take_length, Nat.sub_self, List.replicate_zero, List.append_nil]

@[simp]
theorem window_zero (b : Octets) : b.window 0 = [] := List.eq_nil_of_length_eq_zero (by simp)

/-- Memory that reads alike, octet by octet. -/
theorem window_congr (h : ∀ i < n, a.byte i = b.byte i) : a.window n = b.window n := by
  refine List.ext_getElem (by simp) fun i hi hi' => UInt8.toNat_inj.mp ?_
  have hlt : i < n := by simpa using hi
  have hbyte : (a.window n).byte i = (b.window n).byte i := by
    rw [byte_window hlt, byte_window hlt, h i hlt]
  rwa [byte, byte, List.getD_eq_getElem _ _ hi, List.getD_eq_getElem _ _ hi'] at hbyte

theorem agree_append (b c : Octets) : Agree b.length (b ++ c) b := fun _ hi => byte_append hi

theorem agree_take (b : Octets) (n : ℕ) : Agree n b (b.take n) := by
  intro i hi
  simp [byte, hi]

theorem byte_drop (b : Octets) (i j : ℕ) : byte (b.drop i) j = b.byte (i + j) := by
  simp [byte]

theorem Agree.drop (h : Agree n a b) (hin : i + pos ≤ n) : Agree pos (a.drop i) (b.drop i) := by
  intro j hj
  rw [byte_drop, byte_drop, h (i + j) (by omega)]

@[simp]
theorem length_octetsAt (b : Octets) (i n : ℕ) : (b.octetsAt i n).length = n := length_window _ _

theorem octetsAt_congr (h : ∀ j, i ≤ j → j < i + n → a.byte j = b.byte j) :
    a.octetsAt i n = b.octetsAt i n := by
  refine window_congr fun j hj => ?_
  rw [byte_drop, byte_drop, h (i + j) (by omega) (by omega)]

/-- The octets behind a prefix of known length. -/
theorem octetsAt_append (a b c : Octets) : octetsAt (a ++ (b ++ c)) a.length b.length = b := by
  rw [octetsAt, List.drop_left, window, List.take_left, List.length_append,
    Nat.sub_eq_zero_of_le (Nat.le_add_right _ _), List.replicate_zero, List.append_nil]

/-- The prefix of a written buffer that ends where the write does is what
stood before it, and the write. -/
theorem window_overwrite (b : Octets) (pos : ℕ) (c : Octets) :
    (b.overwrite pos c).window (pos + c.length) = b.window pos ++ c := by
  have hlen : (b.window pos ++ c).length = pos + c.length := by simp
  have hle : pos + c.length ≤ (b.overwrite pos c).length := by
    rw [overwrite, List.length_append, hlen]
    omega
  rw [window, Nat.sub_eq_zero_of_le hle, List.replicate_zero, List.append_nil, overwrite,
    ← hlen, List.take_left]

end Octets

/-! ## A source of octets -/

/-- What one `read` finds: a run of octets, or a failure. An empty run is
the end of the stream. -/
inductive Arrival where
  | data (run : Octets)
  | failed
  deriving DecidableEq, Repr

/-- A source: what its successive reads will find. -/
abbrev Source := List Arrival

namespace Source

/-- One read of at most `n` octets. It never spans two arrivals, and what
it leaves of one stays at the front; `none` is a failed read. -/
def read (n : ℕ) : Source → Option Octets × Source
  | [] => (some [], [])
  | .failed :: rest => (none, rest)
  | .data run :: rest =>
      (some (run.take n), if run.length ≤ n then rest else .data (run.drop n) :: rest)

variable {src src' : Source} {n : ℕ}

theorem length_read_le {got : Octets} (h : read n src = (some got, src')) : got.length ≤ n := by
  unfold read at h
  split at h
  · cases h
    exact Nat.zero_le _
  · cases h
  · cases h
    exact List.length_take_le _ _

theorem getD_read_zero (src : Source) : (read 0 src).1.getD [] = [] := by
  unfold read
  split <;> simp

/-- A read that failed or met the end of the stream brought nothing. -/
theorem getD_eq_nil {got : Option Octets} (h : ∀ c cs, got = some (c :: cs) → False) :
    got.getD [] = [] := by
  match got with
  | none => rfl
  | some [] => rfl
  | some (c :: cs) => exact (h c cs rfl).elim

/-- The octets still to come. -/
def pending : Source → Octets
  | [] => []
  | .failed :: rest => pending rest
  | .data run :: rest => run ++ pending rest

/-- A read takes what it brings off the front of what is pending. -/
theorem pending_read (n : ℕ) (src : Source) :
    pending src = (read n src).1.getD [] ++ pending (read n src).2 := by
  unfold read
  split
  · rfl
  · rfl
  · next run rest =>
    split
    · next hle => simp [pending, List.take_of_length_le hle]
    · rw [Option.getD_some, pending, pending, ← List.append_assoc, List.take_append_drop]

theorem pending_of_read {got : Octets}
    (h : read n src = (some got, src')) : pending src = got ++ pending src' := by
  rw [pending_read n src, h, Option.getD_some]

theorem pending_of_read_none (h : read n src = (none, src')) : pending src = pending src' := by
  rw [pending_read n src, h, Option.getD_none, List.nil_append]

/-- The next `n` octets come before the source fails or ends. -/
def delivers : ℕ → Source → Bool
  | 0, _ => true
  | _ + 1, [] => false
  | _ + 1, .failed :: _ => false
  | _ + 1, .data [] :: _ => false
  | n + 1, .data (_ :: run) :: rest => delivers (n - run.length) rest

theorem delivers_of_read {c : UInt8} {cs : Octets} (h : read (n + 1) src = (some (c :: cs), src')) :
    delivers (n + 1) src = delivers (n - cs.length) src' := by
  unfold read at h
  split at h
  · cases h
  · cases h
  · next run rest =>
    match run with
    | [] => cases h
    | d :: run =>
      rw [List.take_succ_cons, List.length_cons] at h
      obtain ⟨hgot, hsrc⟩ := Prod.mk.inj h
      obtain ⟨-, rfl⟩ := List.cons.inj (Option.some.inj hgot)
      rw [← hsrc, delivers, List.length_take]
      split
      · next hle => rw [Nat.min_eq_right (by omega)]
      · next hgt =>
        rw [Nat.min_eq_left (by omega), Nat.sub_self, Nat.sub_eq_zero_of_le (by omega), delivers,
          delivers]

theorem delivers_of_read_none {got : Option Octets}
    (h : read (n + 1) src = (got, src')) (hnil : got.getD [] = []) :
    delivers (n + 1) src = false := by
  unfold read at h
  split at h
  · rfl
  · rfl
  · next run rest =>
    match run with
    | [] => rfl
    | d :: run =>
      rw [← (Prod.mk.inj h).1] at hnil
      cases hnil

/-- A source that neither fails nor ends before its octets are gone. -/
def Flowing (src : Source) : Prop := ∀ a ∈ src, ∃ run : Octets, a = .data run ∧ run ≠ []

theorem flowing_cons {a : Arrival} :
    Flowing (a :: src) ↔ (∃ run : Octets, a = .data run ∧ run ≠ []) ∧ Flowing src := by
  simp [Flowing]

theorem pending_eq_nil (hf : Flowing src) : pending src = [] ↔ src = [] := by
  cases src with
  | nil => simp [pending]
  | cons a src =>
    obtain ⟨⟨run, rfl, hne⟩, -⟩ := flowing_cons.mp hf
    simp [pending, hne]

/-- A flowing source is a list of non-empty runs. -/
theorem flowing_map_data {runs : List Octets} (h : ∀ run ∈ runs, run ≠ []) :
    Flowing (runs.map .data) := by
  intro a ha
  obtain ⟨run, hrun, rfl⟩ := List.mem_map.mp ha
  exact ⟨run, rfl, h run hrun⟩

theorem pending_map_data (runs : List Octets) : pending (runs.map .data) = runs.flatten := by
  induction runs with
  | nil => rfl
  | cons run runs ih => simp [pending, ih]

/-- **A read of a flowing source takes a non-empty prefix of what is
pending**, no longer than was asked for, and leaves a flowing source. -/
theorem read_flowing (hf : Flowing src) (hp : pending src ≠ []) (hn : 0 < n) :
    ∃ got src', read n src = (some got, src') ∧ got ≠ [] ∧ got.length ≤ n ∧
      pending src = got ++ pending src' ∧ Flowing src' := by
  cases src with
  | nil => simp [pending] at hp
  | cons a src =>
    obtain ⟨⟨run, rfl, hne⟩, hfl⟩ := flowing_cons.mp hf
    have hgot : run.take n ≠ [] := by
      rw [Ne, List.take_eq_nil_iff]
      exact not_or.mpr ⟨by omega, hne⟩
    refine ⟨run.take n, _, rfl, hgot, List.length_take_le _ _, ?_, ?_⟩
    · by_cases hle : run.length ≤ n
      · rw [if_pos hle, List.take_of_length_le hle, pending]
      · rw [if_neg hle, pending, pending, ← List.append_assoc, List.take_append_drop]
    · by_cases hle : run.length ≤ n
      · rw [if_pos hle]; exact hfl
      · rw [if_neg hle, flowing_cons]
        refine ⟨⟨_, rfl, ?_⟩, hfl⟩
        rw [Ne, List.drop_eq_nil_iff]
        omega

/-- A read that asks for no more than `rest` takes a piece off the front of
`rest`. -/
theorem read_within {rest later : Octets} (hf : Flowing src)
    (hp : pending src = rest ++ later) (hn : 0 < n) (hle : n ≤ rest.length) :
    ∃ got more src', read n src = (some got, src') ∧ got ≠ [] ∧ got.length ≤ n ∧
      rest = got ++ more ∧ pending src' = more ++ later ∧ Flowing src' := by
  have hne : pending src ≠ [] := by
    intro hnil
    rw [hp, List.append_eq_nil_iff] at hnil
    rw [hnil.1, List.length_nil] at hle
    omega
  obtain ⟨got, src', hread, hgot, hlen, hpend, hf'⟩ := read_flowing hf hne hn
  rw [hp] at hpend
  obtain ⟨more, hmore⟩ : got <+: rest :=
    List.prefix_of_prefix_length_le ⟨_, hpend.symm⟩ ⟨later, rfl⟩ (Nat.le_trans hlen hle)
  refine ⟨got, more, src', hread, hgot, hlen, hmore.symm, ?_, hf'⟩
  rw [← hmore, List.append_assoc] at hpend
  exact (List.append_cancel_left hpend).symm

end Source
