import NetatalkClient.Common.Octets
/-!
# Type-length-value lists

A list of options, each with an octet for its type, one for the length of
its value, and the value. A string holds a list of options as far as the
first option that is cut off, and it holds exactly one.
-/

namespace Octets

open List

/-- An option. -/
structure TypedValue where
  kind : UInt8
  value : Octets
  length_le : value.length ≤ 255

namespace TypedValue

def encode (o : TypedValue) : Octets := o.kind :: UInt8.ofNat o.value.length :: o.value

/-- No whole option is at the front. -/
def Cut (p : Octets) : Prop := p.length < 2 ∨ p.length < 2 + p.byte 1

/-- The options that `p` holds. -/
def Holds (p : Octets) (os : List TypedValue) : Prop :=
  ∃ rest, p = os.flatMap encode ++ rest ∧ Cut rest

variable {p : Octets} {os : List TypedValue} {o : TypedValue}

theorem holds_nil (h : Cut p) : Holds p [] := ⟨p, rfl, h⟩

theorem holds_cons (h : Holds p os) : Holds (o.encode ++ p) (o :: os) := by
  obtain ⟨rest, rfl, hcut⟩ := h
  exact ⟨rest, by rw [flatMap_cons, append_assoc], hcut⟩

theorem length_encode (o : TypedValue) : o.encode.length = 2 + o.value.length := by
  rw [encode, length_cons, length_cons]
  omega

theorem byte_one_encode (o : TypedValue) (p : Octets) :
    (o.encode ++ p).byte 1 = o.value.length := by
  have hle := o.length_le
  show (UInt8.ofNat o.value.length).toNat = o.value.length
  rw [UInt8.toNat_ofNat']
  omega

theorem not_cut_encode (o : TypedValue) (p : Octets) : ¬Cut (o.encode ++ p) := by
  rintro (hshort | hcut)
  · rw [length_append, length_encode] at hshort
    omega
  · rw [length_append, length_encode, byte_one_encode] at hcut
    omega

/-- The option at the front, of a string that starts with a whole one. -/
def first (kind len : UInt8) (rest : Octets) : TypedValue where
  kind := kind
  value := rest.take len.toNat
  length_le := by
    have := len.toNat_lt
    rw [length_take]
    omega

theorem encode_first {kind len : UInt8} {rest : Octets} (h : len.toNat ≤ rest.length) :
    (first kind len rest).encode ++ rest.drop len.toNat = kind :: len :: rest := by
  have hlen : (rest.take len.toNat).length = len.toNat := by
    rw [length_take, Nat.min_eq_left h]
  show kind :: UInt8.ofNat (rest.take len.toNat).length :: (rest.take len.toNat) ++ _ = _
  rw [hlen, UInt8.ofNat_toNat, cons_append, cons_append, take_append_drop]

/-- **Every string holds some list of options.** -/
theorem exists_holds (p : Octets) : ∃ os, Holds p os := by
  induction hn : p.length using Nat.strongRecOn generalizing p with
  | ind n ih =>
    match p with
    | [] => exact ⟨[], holds_nil (.inl (by decide))⟩
    | [_] => exact ⟨[], holds_nil (.inl (Nat.lt_succ_self 1))⟩
    | kind :: len :: rest =>
      rcases Nat.lt_or_ge rest.length len.toNat with hcut | hwhole
      · refine ⟨[], holds_nil (.inr ?_)⟩
        show rest.length + 1 + 1 < 2 + len.toNat
        omega
      · obtain ⟨os, hos⟩ := ih (rest.drop len.toNat).length (by
          subst hn
          rw [length_drop, length_cons, length_cons]
          omega) _ rfl
        refine ⟨first kind len rest :: os, ?_⟩
        rw [← encode_first hwhole]
        exact holds_cons hos

/-- What is behind the first option holds the others. -/
theorem Holds.tail (h : Holds p (o :: os)) : ∃ q, p = o.encode ++ q ∧ Holds q os := by
  obtain ⟨rest, rfl, hcut⟩ := h
  exact ⟨os.flatMap encode ++ rest, by rw [flatMap_cons, append_assoc], rest, rfl, hcut⟩

theorem Holds.cut (h : Holds p []) : Cut p := by
  obtain ⟨rest, rfl, hcut⟩ := h
  exact hcut

theorem encode_append_inj {o' : TypedValue} {p' : Octets}
    (h : o.encode ++ p = o'.encode ++ p') : o = o' ∧ p = p' := by
  have hlen : o.value.length = o'.value.length := by
    rw [← byte_one_encode o p, h, byte_one_encode]
  obtain ⟨hencode, hrest⟩ := append_inj h (by rw [length_encode, length_encode, hlen])
  refine ⟨?_, hrest⟩
  obtain ⟨hkind, -, hvalue⟩ : o.kind = o'.kind ∧ _ ∧ o.value = o'.value := by
    simpa only [encode, List.cons.injEq] using hencode
  cases o
  cases o'
  cases hkind
  cases hvalue
  rfl

/-- **A string holds one list of options only.** -/
theorem Holds.unique {os' : List TypedValue} (h : Holds p os) (h' : Holds p os') : os = os' := by
  induction os generalizing p os' with
  | nil =>
    cases os' with
    | nil => rfl
    | cons o' os' =>
      obtain ⟨q, rfl, -⟩ := h'.tail
      exact absurd h.cut (not_cut_encode o' q)
  | cons o os ih =>
    obtain ⟨q, rfl, hq⟩ := h.tail
    cases os' with
    | nil => exact absurd h'.cut (not_cut_encode o q)
    | cons o' os' =>
      obtain ⟨q', heq, hq'⟩ := h'.tail
      obtain ⟨rfl, rfl⟩ := encode_append_inj heq
      rw [ih hq hq']

end TypedValue

end Octets
