import NetatalkClient.Common.Octets
/-!
# Little-endian fields

The octets a little-endian host stores for a 32-bit or a 64-bit number,
and reading them back.
-/

namespace Octets

open List

variable {n : ℕ}

/-- The four octets of a 32-bit number, least significant first. -/
def le32Octets (n : ℕ) : Octets :=
  [UInt8.ofNat n, UInt8.ofNat (n / 256), UInt8.ofNat (n / 65536), UInt8.ofNat (n / 16777216)]

@[simp] theorem length_le32Octets (n : ℕ) : (le32Octets n).length = 4 := rfl

/-- Reading a number back. -/
theorem le32_le32Octets_append (rest : Octets) (h : n < 4294967296) :
    (le32Octets n ++ rest).le32 0 = n := by
  simp only [le32, le16, byte, le32Octets, cons_append, getD_cons_zero,
    getD_cons_succ, UInt8.toNat_ofNat']
  omega

/-- The eight octets of a 64-bit number, least significant first. -/
def le64Octets (n : ℕ) : Octets := le32Octets (n % 4294967296) ++ le32Octets (n / 4294967296)

@[simp] theorem length_le64Octets (n : ℕ) : (le64Octets n).length = 8 := rfl

theorem le32_append_right (a c : Octets) (i : ℕ) : (a ++ c).le32 (a.length + i) = c.le32 i := by
  simp only [le32, le16, Nat.add_assoc, byte_append_right]

theorem le64_le64Octets_append (rest : Octets) (h : n < 18446744073709551616) :
    (le64Octets n ++ rest).le64 0 = n := by
  have hlow : (le64Octets n ++ rest).le32 0 = n % 4294967296 := by
    rw [le64Octets, append_assoc]
    exact le32_le32Octets_append _ (Nat.mod_lt _ (by decide))
  have hhigh : (le64Octets n ++ rest).le32 (0 + 4) = n / 4294967296 := by
    rw [le64Octets, append_assoc]
    exact (le32_append_right (le32Octets (n % 4294967296)) _ 0).trans
      (le32_le32Octets_append _ (by omega))
  rw [le64, hlow, hhigh]
  omega

/-! Reading behind a number is reading what follows it. -/

section Skip

variable (n i : ℕ) (rest : Octets)

@[simp] theorem le32_skip_cons (o : UInt8) : le32 (o :: rest) (i + 1) = rest.le32 i := rfl

@[simp] theorem le64_skip_cons (o : UInt8) : le64 (o :: rest) (i + 1) = rest.le64 i := rfl

@[simp] theorem le32_skip_le32Octets : (le32Octets n ++ rest).le32 (i + 4) = rest.le32 i := rfl

@[simp] theorem le64_skip_le32Octets : (le32Octets n ++ rest).le64 (i + 4) = rest.le64 i := rfl

@[simp] theorem le32_skip_le64Octets : (le64Octets n ++ rest).le32 (i + 8) = rest.le32 i := rfl

@[simp] theorem le64_skip_le64Octets : (le64Octets n ++ rest).le64 (i + 8) = rest.le64 i := rfl

end Skip

/-- A number that stands behind `a` is read back there. -/
theorem le32_behind {k : ℕ} (a rest : Octets) (h : n < 4294967296) (hk : a.length = k) :
    (a ++ (le32Octets n ++ rest)).le32 k = n := by
  rw [← hk]
  exact (le32_append_right a _ 0).trans (le32_le32Octets_append _ h)

/-- A number written into a string is read back there. -/
theorem le32_overwrite (b : Octets) (pos : ℕ) (h : n < 4294967296) :
    (b.overwrite pos (le32Octets n)).le32 pos = n := by
  rw [overwrite, append_assoc]
  exact le32_behind _ _ h (length_window b pos)

end Octets
