import NetatalkClient.Common.Octets
import Mathlib.Data.List.Induction
import Mathlib.Data.List.TakeWhile
import Mathlib.Algebra.Group.Nat.Defs
/-!
# Big-endian numbers

A number as a string of octets, the most significant first: the value of a
string, the string of a given length, and the shortest string. Strings of
one value differ by zeros in front only, so cutting the zeros off gives the
same string for all of them (`minimal_eq`).
-/

namespace Octets

open List

variable {b : Octets} {c : UInt8} {k n : ℕ}

/-- The number an octet string stands for. -/
def value (b : Octets) : ℕ := b.foldl (fun n c => n * 256 + c.toNat) 0

/-- `n` in `k` octets, without what does not fit. -/
def padded : ℕ → ℕ → Octets
  | 0, _ => []
  | k + 1, n => padded k (n / 256) ++ [UInt8.ofNat n]

/-- `n` without zeros in front; nothing at all for 0. -/
def minimal (n : ℕ) : Octets := (padded (n.log2 / 8 + 1) n).dropWhile (· = 0)

/-- `n` without zeros in front, but in at least one octet. -/
def stripped (n : ℕ) : Octets := if n = 0 then [0] else minimal n

/-! ## Values -/

@[simp]
theorem value_nil : value [] = 0 := rfl

@[simp]
theorem value_concat : value (b ++ [c]) = value b * 256 + c.toNat := by
  simp [value, foldl_append]

@[simp]
theorem value_zero_cons : value (0 :: b) = value b := by
  simp [value]

theorem value_replicate_append : value (replicate k 0 ++ b) = value b := by
  induction k with
  | zero => rfl
  | succ k ih => rw [replicate_succ, cons_append, value_zero_cons, ih]

theorem value_lt (b : Octets) : value b < 256 ^ b.length := by
  induction b using reverseRecOn with
  | nil => simp
  | append_singleton b c ih =>
    have hc : c.toNat < 256 := c.toNat_lt
    rw [value_concat, length_append, length_singleton, pow_succ]
    omega

/-! ## Strings of a given length -/

@[simp]
theorem length_padded (k n : ℕ) : (padded k n).length = k := by
  induction k generalizing n with
  | zero => rfl
  | succ k ih => rw [padded, length_append, ih, length_singleton]

theorem value_padded (h : n < 256 ^ k) : value (padded k n) = n := by
  induction k generalizing n with
  | zero =>
    rw [pow_zero] at h
    rw [padded, value_nil]
    omega
  | succ k ih =>
    rw [pow_succ] at h
    rw [padded, value_concat, ih (by omega), UInt8.toNat_ofNat']
    omega

/-- A string is the string of its length and value. -/
theorem padded_value (b : Octets) : padded b.length (value b) = b := by
  induction b using reverseRecOn with
  | nil => rfl
  | append_singleton b c ih =>
    have hc : c.toNat < 256 := c.toNat_lt
    have hhigh : (value b * 256 + c.toNat) / 256 = value b := by omega
    have hlow : UInt8.ofNat (value b * 256 + c.toNat) = c := by
      apply UInt8.toNat_inj.mp
      rw [UInt8.toNat_ofNat']
      omega
    rw [length_append, length_singleton, padded, value_concat, hhigh, hlow, ih]

theorem eq_padded (h : b.length = k) (hb : value b = n) : b = padded k n := by
  subst h hb
  exact (padded_value b).symm

/-- Room that is not needed is filled with zeros. -/
theorem padded_add (j : ℕ) (h : n < 256 ^ k) : padded (j + k) n = replicate j 0 ++ padded k n := by
  refine (eq_padded (by simp) ?_).symm
  rw [value_replicate_append, value_padded h]

/-! ## Without zeros in front -/

theorem dropWhile_padded_add (j : ℕ) (h : n < 256 ^ k) :
    (padded (j + k) n).dropWhile (· = 0) = (padded k n).dropWhile (· = 0) := by
  rw [padded_add j h]
  induction j with
  | zero => rfl
  | succ j ih =>
    rw [replicate_succ, cons_append, dropWhile_cons_of_pos (by simp)]
    exact ih

theorem lt_pow_log2 (n : ℕ) : n < 256 ^ (n.log2 / 8 + 1) := by
  have hlog : n < 2 ^ (n.log2 + 1) := Nat.lt_log2_self
  have hpow : 2 ^ (n.log2 + 1) ≤ 2 ^ (8 * (n.log2 / 8 + 1)) :=
    Nat.pow_le_pow_right (by omega) (by omega)
  rw [pow_mul] at hpow
  exact lt_of_lt_of_le hlog hpow

/-- The shortest string is what is left of any other that has room. -/
theorem minimal_eq (h : n < 256 ^ k) : minimal n = (padded k n).dropWhile (· = 0) := by
  rw [minimal, ← dropWhile_padded_add k (lt_pow_log2 n), add_comm, dropWhile_padded_add _ h]

theorem minimal_value (b : Octets) : minimal (value b) = b.dropWhile (· = 0) := by
  rw [minimal_eq (value_lt b), padded_value]

/-- A string that starts with another octet than zero is not zero, and is
its own shortest string. -/
theorem stripped_value_cons (hc : c ≠ 0) : stripped (value (c :: b)) = c :: b := by
  have hmin : minimal (value (c :: b)) = c :: b := by
    rw [minimal_value, dropWhile_cons_of_neg (by simpa using hc)]
  have hne : value (c :: b) ≠ 0 := by
    intro hzero
    rw [hzero] at hmin
    cases hmin
  rw [stripped, if_neg hne, hmin]

/-- Two octets at the front are a field of two octets. -/
theorem padded_be16 (h : 2 ≤ b.length) : padded 2 (b.be16 0) = b.take 2 := by
  obtain ⟨c₀, c₁, rest, rfl⟩ : ∃ c₀ c₁ rest, b = c₀ :: c₁ :: rest := by
    match b, h with
    | c₀ :: c₁ :: rest, _ => exact ⟨c₀, c₁, rest, rfl⟩
  have hvalue : value [c₀, c₁] = c₀.toNat * 256 + c₁.toNat := by
    rw [show [c₀, c₁] = [] ++ [c₀] ++ [c₁] from rfl, value_concat, value_concat, value_nil,
      Nat.zero_mul, zero_add]
  exact (eq_padded (k := 2) rfl hvalue).symm

/-- A field of two octets is read as it was written. -/
theorem be16_padded_append (rest : Octets) (h : n < 65536) : (padded 2 n ++ rest).be16 0 = n := by
  change (UInt8.ofNat (n / 256)).toNat * 256 + (UInt8.ofNat n).toNat = n
  rw [UInt8.toNat_ofNat', UInt8.toNat_ofNat']
  omega

/-- The same for a field behind others. -/
theorem be16_append_padded (a rest : Octets) (h : n < 65536) (hpos : a.length = k) :
    (a ++ (padded 2 n ++ rest)).be16 k = n := by
  rw [← hpos, ← add_zero a.length, be16_append_right, be16_padded_append rest h]

/-- A field of four octets is read as it was written. -/
theorem be32_padded_append (rest : Octets) (h : n < 4294967296) :
    (padded 4 n ++ rest).be32 0 = n := by
  change ((UInt8.ofNat (n / 256 / 256 / 256)).toNat * 256 + (UInt8.ofNat (n / 256 / 256)).toNat) *
    65536 + ((UInt8.ofNat (n / 256)).toNat * 256 + (UInt8.ofNat n).toNat) = n
  simp only [UInt8.toNat_ofNat']
  omega

/-- The same for a field behind others. -/
theorem be32_append_padded (a rest : Octets) (h : n < 4294967296) (hpos : a.length = k) :
    (a ++ (padded 4 n ++ rest)).be32 k = n := by
  rw [← hpos, ← add_zero a.length, be32_append_right, be32_padded_append rest h]

/-- Zeros in front of the shortest string make the string of a length. -/
theorem replicate_append_minimal (h : n < 256 ^ k) :
    replicate (k - (minimal n).length) 0 ++ minimal n = padded k n := by
  have hsplit : (padded k n).takeWhile (· = 0) ++ minimal n = padded k n := by
    rw [minimal_eq h, takeWhile_append_dropWhile]
  have hlen := congrArg List.length hsplit
  rw [length_append, length_padded] at hlen
  have hzeros : (padded k n).takeWhile (· = 0) = replicate (k - (minimal n).length) 0 := by
    refine eq_replicate_iff.mpr ⟨by omega, fun c hc => ?_⟩
    simpa using mem_takeWhile_imp hc
  rw [← hzeros, hsplit]

end Octets
