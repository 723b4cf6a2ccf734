import NetatalkClient.Afp.Model.ServerInfo
import Mathlib.Data.List.Nodup
/-!
# AFP: names in a reply

Which octets of a buffer a name, and a list of names, depends on. A name
that is copied as it is depends on all of its octets. A name in a list is
only looked up in a table, and may end outside the reply where no way of
going on is in the table, or none tells anything new.
-/

namespace NetatalkClient

open Octets List

variable {n p maxLen : ℕ} {b b' : Octets}

/-! ## One name -/

/-- How many octets of the string at `p` are copied. -/
def copyLen (b : Octets) (p maxLen : ℕ) : ℕ := min (b.byte p) (maxLen - 1)

/-- The length octet at `p` and all octets that are copied are among the
first `n`. -/
def PascalInside (n : ℕ) (b : Octets) (p maxLen : ℕ) : Prop :=
  p < n ∧ p + 1 + copyLen b p maxLen ≤ n

theorem copyFromPascal_fst (b : Octets) (p maxLen : ℕ) :
    (copyFromPascal b p maxLen).1 = b.byte p := rfl

theorem copyFromPascal_snd (b : Octets) (p : ℕ) (hmax : 0 < maxLen) :
    (copyFromPascal b p maxLen).2 = (b.octetsAt (p + 1) (copyLen b p maxLen)).window maxLen := by
  have hlen : (if maxLen ≤ b.byte p then maxLen - 1 else b.byte p) = copyLen b p maxLen := by
    unfold copyLen
    split <;> omega
  rw [← hlen]
  rfl

theorem byte_copyFromPascal {i : ℕ} (b : Octets) (p : ℕ) (hi : i < copyLen b p maxLen) :
    (copyFromPascal b p maxLen).2.byte i = b.byte (p + 1 + i) := by
  have hlt : copyLen b p maxLen ≤ maxLen - 1 := min_le_right _ _
  rw [copyFromPascal_snd b p (by omega), byte_window (by omega), byte_octetsAt b hi]

theorem copyLen_of_empty (h : b.byte p = 0) : copyLen b p maxLen = 0 := by
  rw [copyLen, h]
  exact Nat.zero_min _

theorem byte_copyFromPascal_of_empty (hmax : 0 < maxLen) (h : b.byte p = 0) (i : ℕ) :
    (copyFromPascal b p maxLen).2.byte i = 0 := by
  have hmem : (window ([] : Octets) maxLen).getD i 0 = 0 := by
    rw [window, take_nil, nil_append, getD_eq_getElem?_getD, getElem?_replicate]
    split <;> rfl
  rw [copyFromPascal_snd b p hmax, copyLen_of_empty h, octetsAt, window_zero, byte, hmem]
  rfl

theorem copyFromPascal_congr (h : Agree n b b') (hin : PascalInside n b p maxLen) :
    copyFromPascal b' p maxLen = copyFromPascal b p maxLen := by
  obtain ⟨hp, hend⟩ := hin
  have hlen : b'.byte p = b.byte p := (h p hp).symm
  rcases Nat.eq_zero_or_pos maxLen with rfl | hmax
  · unfold copyFromPascal
    rw [hlen]
    simp
  · refine Prod.ext hlen ?_
    have hcopy : copyLen b' p maxLen = copyLen b p maxLen := by
      unfold copyLen
      rw [hlen]
    rw [copyFromPascal_snd b' p hmax, copyFromPascal_snd b p hmax, hcopy,
      octetsAt_congr fun j _ hj => (h j (by omega)).symm]

/-- A copied name is settled if and only if all of it is inside. -/
theorem settled_copyFromPascal_iff (hmax : 2 ≤ maxLen) :
    Settled n (fun b => (copyFromPascal b p maxLen).2) b ↔ PascalInside n b p maxLen := by
  constructor
  · intro h
    rcases lt_or_ge p n with hp | hp
    · refine ⟨hp, ?_⟩
      by_contra hend
      have hpos : 0 < copyLen b p maxLen := by omega
      -- the last octet that is copied is outside
      have hlast : ∀ c : UInt8, (copyFromPascal (b.window (p + copyLen b p maxLen) ++ [c]) p
          maxLen).2.byte (copyLen b p maxLen - 1) = c.toNat := by
        intro c
        have hlen : copyLen (b.window (p + copyLen b p maxLen) ++ [c]) p maxLen =
            copyLen b p maxLen := by
          conv_lhs => rw [copyLen, byte_before_tail b [c] (by omega)]
          rfl
        have hidx : p + 1 + (copyLen b p maxLen - 1) = p + copyLen b p maxLen + 0 := by omega
        rw [byte_copyFromPascal _ p (by omega), hidx, byte_tail]
        rfl
      have heq := congrArg (fun o => byte o (copyLen b p maxLen - 1))
        (h.eq_tails (m := p + copyLen b p maxLen) (k := p + copyLen b p maxLen) (by omega)
          (by omega) [0] [1])
      rw [hlast 0, hlast 1] at heq
      exact absurd heq (by decide)
    · exfalso
      have heq := congrArg (fun o => byte o 0) (h.eq_tails hp hp [0] [1, 1])
      have h0 : (b.window p ++ [0]).byte p = 0 := byte_tail b [0] p 0
      have h1 : (b.window p ++ [1, 1]).byte p = 1 := byte_tail b [1, 1] p 0
      have hlen : 0 < copyLen (b.window p ++ [1, 1]) p maxLen := by
        rw [copyLen, h1]
        omega
      have hone : (b.window p ++ [1, 1]).byte (p + 1 + 0) = 1 := byte_tail b [1, 1] p 1
      rw [byte_copyFromPascal_of_empty (by omega) h0, byte_copyFromPascal _ p hlen, hone] at heq
      exact absurd heq (by decide)
  · intro hin b' hb'
    exact congrArg Prod.snd (copyFromPascal_congr hb' hin)

/-! ## The string a name is -/

theorem cString_append (x y : Octets) :
    cString (x ++ y) = if 0 ∈ x then cString x else x ++ cString y := by
  induction x with
  | nil => simp [cString]
  | cons c x ih =>
    by_cases hc : c = 0
    · simp [cString, hc]
    · have hstep : ∀ z : Octets, cString (c :: z) = c :: cString z := fun z => by
        simp [cString, hc]
      have hmem : 0 ∈ c :: x ↔ 0 ∈ x := mem_cons.trans (or_iff_right (Ne.symm hc))
      rw [cons_append, hstep, ih, hstep]
      by_cases hx : 0 ∈ x
      · rw [if_pos hx, if_pos (hmem.mpr hx)]
      · rw [if_neg hx, if_neg (mt hmem.mp hx), cons_append]

theorem cString_of_not_mem {x : Octets} (h : 0 ∉ x) : cString x = x := by
  have happ := cString_append x []
  rw [append_nil, if_neg h] at happ
  rwa [show cString [] = [] from rfl, append_nil] at happ

/-- Zeros in the room that is left do not change a string. -/
theorem cString_window (x : Octets) {w : ℕ} (h : x.length ≤ w) :
    cString (x.window w) = cString x := by
  have hzeros : ∀ k, cString (replicate k 0) = [] := by
    intro k
    cases k <;> simp [cString, replicate_succ]
  rw [window, take_of_length_le h, cString_append, hzeros]
  split
  · rfl
  · next hx => rw [append_nil, cString_of_not_mem hx]

/-- The name at `p`, as a string. -/
def nameAt (b : Octets) (p maxLen : ℕ) : Octets := cString (copyFromPascal b p maxLen).2

theorem nameAt_eq (b : Octets) (p : ℕ) (hmax : 0 < maxLen) :
    nameAt b p maxLen = cString (b.octetsAt (p + 1) (copyLen b p maxLen)) := by
  have hle : copyLen b p maxLen ≤ maxLen - 1 := min_le_right _ _
  rw [nameAt, copyFromPascal_snd b p hmax, cString_window _ (by rw [length_octetsAt]; omega)]

theorem nameAt_of_empty (hmax : 0 < maxLen) (h : b.byte p = 0) : nameAt b p maxLen = [] := by
  rw [nameAt_eq b p hmax, copyLen_of_empty h, octetsAt, window_zero]
  rfl

/-- The octets of the name at `p` that are among the first `n`, where
there are more. -/
def insidePart (n : ℕ) (b : Octets) (p : ℕ) : Octets := b.octetsAt (p + 1) (n - (p + 1))

theorem length_insidePart (n : ℕ) (b : Octets) (p : ℕ) :
    (insidePart n b p).length = n - (p + 1) := length_octetsAt _ _ _

theorem insidePart_congr (h : Agree n b b') : insidePart n b' p = insidePart n b p :=
  octetsAt_congr fun j _ hj => (h j (by omega)).symm

/-- A name that ends outside begins with what is inside. -/
theorem nameAt_outside (hmax : 0 < maxLen) (hp : p < n) (hout : n ≤ p + 1 + copyLen b p maxLen) :
    nameAt b p maxLen = if 0 ∈ insidePart n b p then cString (insidePart n b p)
      else insidePart n b p ++ cString (b.octetsAt n (p + 1 + copyLen b p maxLen - n)) := by
  have hlen : copyLen b p maxLen = n - (p + 1) + (p + 1 + copyLen b p maxLen - n) := by omega
  have hsplit : b.octetsAt (p + 1) (copyLen b p maxLen) =
      insidePart n b p ++ b.octetsAt n (p + 1 + copyLen b p maxLen - n) := by
    conv_lhs => rw [hlen, octetsAt_add]
    rw [insidePart, show p + 1 + (n - (p + 1)) = n by omega]
  rw [nameAt_eq b p hmax, hsplit, cString_append]

/-- The same with a tail behind the first `n` octets that goes on with
`t`, and zeros behind it. -/
theorem nameAt_tail (hmax : 0 < maxLen) (hp : p < n) (h0 : 0 ∉ insidePart n b p) {t : Octets}
    (ht : 0 ∉ t) (hlen : n + t.length ≤ p + 1 + copyLen b p maxLen) :
    nameAt (b.window n ++ t) p maxLen = insidePart n b p ++ t := by
  have hag := agree_tail b t (le_refl n)
  have hcopy : copyLen (b.window n ++ t) p maxLen = copyLen b p maxLen := by
    rw [copyLen, copyLen, byte_before_tail b t hp]
  rw [nameAt_outside hmax hp (by omega), insidePart_congr hag, if_neg h0, octetsAt_tail, hcopy,
    cString_window t (by omega), cString_of_not_mem ht]

theorem length_nameAt_le (hmax : 0 < maxLen) : (nameAt b p maxLen).length ≤ copyLen b p maxLen := by
  have hle := (takeWhile_sublist (· ≠ 0) (l := b.octetsAt (p + 1) (copyLen b p maxLen))).length_le
  rw [length_octetsAt] at hle
  rw [nameAt_eq b p hmax]
  exact hle

/-! ## Known names -/

/-- A table of names, each with a number. What is looked up is brought
into the form of the table first, octet by octet. -/
structure KnownNames where
  fold : UInt8 → UInt8
  names : List (Octets × ℕ)
  fold_one : fold 1 = 1
  nodup : (names.map Prod.fst).Nodup
  folded : ∀ v ∈ names, v.1.map fold = v.1
  no_nul : ∀ v ∈ names, 0 ∉ v.1
  no_one : ∀ v ∈ names, 1 ∉ v.1
  ne_nil : ∀ v ∈ names, v.1 ≠ []
  short : ∀ v ∈ names, v.1.length < 24

namespace KnownNames

variable (K : KnownNames)

def lookup (name : Octets) : Option ℕ :=
  (K.names.find? fun v => v.1 = name.map K.fold).map Prod.snd

variable {K} {name : Octets} {x : ℕ} {v : Octets × ℕ}

theorem mem_of_lookup (h : K.lookup name = some x) :
    ∃ v ∈ K.names, v.1 = name.map K.fold ∧ v.2 = x := by
  obtain ⟨v, hv, rfl⟩ := Option.map_eq_some_iff.mp h
  exact ⟨v, mem_of_find?_eq_some hv, by simpa using find?_some hv, rfl⟩

theorem lookup_of_mem (hv : v ∈ K.names) (h : name.map K.fold = v.1) :
    K.lookup name = some v.2 := by
  cases hl : K.lookup name with
  | none =>
    rw [lookup, Option.map_eq_none_iff, find?_eq_none] at hl
    exact absurd h.symm (by simpa using hl v hv)
  | some x =>
    obtain ⟨u, hu, hname, rfl⟩ := mem_of_lookup hl
    have huv : u.1 = v.1 := hname.trans h
    rw [inj_on_of_nodup_map K.nodup hu hv huv]

theorem lookup_nil : K.lookup [] = none := by
  cases hl : K.lookup [] with
  | none => rfl
  | some x =>
    obtain ⟨v, hv, hname, -⟩ := mem_of_lookup hl
    exact absurd hname (K.ne_nil v hv)

/-- No name goes on with the octet 1. -/
theorem lookup_of_one (h : 1 ∈ name) : K.lookup name = none := by
  cases hl : K.lookup name with
  | none => rfl
  | some x =>
    obtain ⟨v, hv, hname, -⟩ := mem_of_lookup hl
    have hone : (1 : UInt8) ∈ v.1 := by
      rw [hname]
      exact mem_map.mpr ⟨1, h, K.fold_one⟩
    exact absurd hone (K.no_one v hv)

variable (K) {α : Type*} (add : α → ℕ → α)

/-- What a name adds to `acc`. -/
def note (acc : α) (name : Octets) : α := (K.lookup name).elim acc (add acc)

/-- Whatever is outside, the name at `p` adds the same: all of the name is
inside, or its end is, or no known name that it can still become adds
anything. -/
def NameSettled (n : ℕ) (b : Octets) (p maxLen : ℕ) (acc : α) : Prop :=
  p + 1 + copyLen b p maxLen ≤ n ∨ 0 ∈ insidePart n b p ∨
    ∀ v ∈ K.names, (insidePart n b p).map K.fold <+: v.1 → v.1.length ≤ copyLen b p maxLen →
      add acc v.2 = acc

/-- Whatever is outside, the names from `p` on add the same. -/
def NamesSettled (n : ℕ) (b : Octets) (maxLen : ℕ) : ℕ → ℕ → α → Prop
  | 0, _, _ => True
  | i + 1, p, acc =>
      if p < n then
        K.NameSettled add n b p maxLen acc ∧
          NamesSettled n b maxLen i (p + (b.byte p + 1) % 256)
            (K.note add acc (nameAt b p maxLen))
      else ∀ v ∈ K.names, add acc v.2 = acc

variable {K add} {acc : α} {i : ℕ}

theorem note_of_none (h : K.lookup name = none) : K.note add acc name = acc := by
  rw [note, h, Option.elim_none]

theorem note_of_mem (hv : v ∈ K.names) (h : name.map K.fold = v.1) :
    K.note add acc name = add acc v.2 := by
  rw [note, lookup_of_mem hv h, Option.elim_some]

/-- A name adds nothing if the known name it is, if any, does not. -/
theorem note_eq_self (h : ∀ v ∈ K.names, v.1 = name.map K.fold → add acc v.2 = acc) :
    K.note add acc name = acc := by
  cases hl : K.lookup name with
  | none => exact note_of_none hl
  | some x =>
    obtain ⟨v, hv, hname, rfl⟩ := mem_of_lookup hl
    rw [note_of_mem hv hname.symm, h v hv hname]

/-! ## A list of names -/

theorem overNames_succ (b : Octets) (i p : ℕ) (acc : α) :
    overNames maxLen (K.note add) b (i + 1) p acc =
      overNames maxLen (K.note add) b i (p + (b.byte p + 1) % 256)
        (K.note add acc (nameAt b p maxLen)) := rfl

theorem exists_overNames_eq_foldl (K : KnownNames) (add : α → ℕ → α) (maxLen : ℕ) (b : Octets)
    (i p : ℕ) (acc : α) :
    ∃ xs : List ℕ, overNames maxLen (K.note add) b i p acc = xs.foldl add acc := by
  induction i generalizing p acc with
  | zero => exact ⟨[], rfl⟩
  | succ i ih =>
    rw [overNames_succ, note]
    cases K.lookup (nameAt b p maxLen) with
    | none => exact ih _ _
    | some x =>
      obtain ⟨xs, hxs⟩ := ih (p + (b.byte p + 1) % 256) (add acc x)
      exact ⟨x :: xs, hxs⟩

/-- Where no known name adds anything, nothing is added. -/
theorem overNames_eq_self (h : ∀ v ∈ K.names, add acc v.2 = acc) (b : Octets) (i p : ℕ) :
    overNames maxLen (K.note add) b i p acc = acc := by
  induction i generalizing p with
  | zero => rfl
  | succ i ih => rw [overNames_succ, note_eq_self fun v hv _ => h v hv, ih]

/-- From a place where names are unknown, and followed by such a place,
nothing is added. -/
theorem overNames_quiet (quiet : ℕ → Prop)
    (h : ∀ q, quiet q → K.lookup (nameAt b q maxLen) = none ∧ quiet (q + (b.byte q + 1) % 256))
    (hp : quiet p) (i : ℕ) : overNames maxLen (K.note add) b i p acc = acc := by
  induction i generalizing p with
  | zero => rfl
  | succ i ih =>
    obtain ⟨hnone, hnext⟩ := h p hp
    rw [overNames_succ, note_of_none hnone, ih hnext]

/-! ## Which names a list depends on -/

/-- A settled name adds the same in every buffer that agrees. -/
theorem note_congr (hmax : 0 < maxLen) (hp : p < n) (h : Agree n b b')
    (hset : K.NameSettled add n b p maxLen acc) :
    K.note add acc (nameAt b' p maxLen) = K.note add acc (nameAt b p maxLen) := by
  have hcopy : copyLen b' p maxLen = copyLen b p maxLen := by
    rw [copyLen, copyLen, h p hp]
  have hpart := insidePart_congr h (p := p)
  by_cases hin : p + 1 + copyLen b p maxLen ≤ n
  · rw [nameAt, nameAt, copyFromPascal_congr h ⟨hp, hin⟩]
  by_cases h0 : 0 ∈ insidePart n b p
  · rw [nameAt_outside hmax hp (by omega), nameAt_outside hmax hp (by omega), hpart, if_pos h0,
      if_pos h0]
  have hlast := (hset.resolve_left hin).resolve_left h0
  -- in either buffer the name begins with what is inside
  have hnothing : ∀ c : Octets, copyLen c p maxLen = copyLen b p maxLen →
      insidePart n c p = insidePart n b p → K.note add acc (nameAt c p maxLen) = acc := by
    intro c hc hcp
    refine note_eq_self fun v hv hname => hlast v hv ?_ ?_
    · rw [hname, nameAt_outside hmax hp (by omega), hcp, if_neg h0, map_append]
      exact prefix_append _ _
    · rw [hname, length_map, ← hc]
      exact length_nameAt_le hmax
  rw [hnothing b' hcopy hpart, hnothing b rfl rfl]

/-- A name that is settled in all buffers that agree adds nothing where it
may become a known name. -/
theorem nameSettled_of_settled (hmax : 24 ≤ maxLen) (hp : p < n)
    (hadd : ∀ acc x xs, (x :: xs).foldl add acc = acc → add acc x = acc)
    (h : Settled n (fun b => overNames maxLen (K.note add) b (i + 1) p acc) b) :
    K.NameSettled add n b p maxLen acc := by
  by_cases hin : p + 1 + copyLen b p maxLen ≤ n
  · exact .inl hin
  by_cases h0 : 0 ∈ insidePart n b p
  · exact .inr (.inl h0)
  refine .inr (.inr fun v hv hpre hlen => ?_)
  obtain ⟨t, ht⟩ := hpre
  have hmem : ∀ c ∈ t, c ∈ v.1 := fun c hc => ht ▸ mem_append_right _ hc
  have hfold : t.map K.fold = t := by
    have hv' := K.folded v hv
    rw [← ht, map_append] at hv'
    exact (append_inj hv' (by simp)).2
  have htlen : (insidePart n b p).length + t.length = v.1.length := by
    rw [← ht, length_append, length_map]
  rw [length_insidePart] at htlen
  -- one tail makes it the known name
  have hknown : K.note add acc (nameAt (b.window n ++ t) p maxLen) = add acc v.2 := by
    refine note_of_mem hv ?_
    rw [nameAt_tail (by omega) hp h0 (fun hc => K.no_nul v hv (hmem 0 hc)) (by omega),
      map_append, hfold, ht]
  -- and another one an unknown name, with nothing but zeros behind it
  have hquiet : overNames maxLen (K.note add) (b.window n ++ [1]) (i + 1) p acc = acc := by
    refine overNames_quiet (fun q => q = p ∨ n < q) (fun q hq => ?_) (.inl rfl) (i + 1)
    rcases hq with rfl | hq
    · refine ⟨lookup_of_one ?_, ?_⟩
      · rw [nameAt_tail (by omega) hp h0 (by decide) (by simp; omega)]
        exact mem_append_right _ mem_cons_self
      · rw [byte_before_tail b [1] hp]
        have hle : copyLen b q maxLen ≤ b.byte q := min_le_left _ _
        have hlt : b.byte q < 256 := UInt8.toNat_lt _
        omega
    · have hzero : (b.window n ++ [1]).byte q = 0 := byte_behind_tail b [1] hq
      rw [nameAt_of_empty (by omega) hzero, hzero]
      exact ⟨lookup_nil, .inr (by omega)⟩
  obtain ⟨xs, hxs⟩ := exists_overNames_eq_foldl K add maxLen (b.window n ++ t) i
    (p + ((b.window n ++ t).byte p + 1) % 256) (add acc v.2)
  have heq := h.eq_tails (le_refl n) (le_refl n) t [1]
  rw [hquiet, overNames_succ, hknown, hxs] at heq
  exact hadd acc v.2 xs heq

/-- Where the names begin outside, no known name adds anything. -/
theorem add_eq_self_of_settled (hmax : 24 ≤ maxLen) (hp : n ≤ p)
    (hadd : ∀ acc x xs, (x :: xs).foldl add acc = acc → add acc x = acc)
    (h : Settled n (fun b => overNames maxLen (K.note add) b (i + 1) p acc) b) :
    ∀ v ∈ K.names, add acc v.2 = acc := by
  intro v hv
  have hshort := K.short v hv
  have hquiet : overNames maxLen (K.note add) (b.window p ++ []) (i + 1) p acc = acc := by
    refine overNames_quiet (p ≤ ·) (fun q hq => ?_) (le_refl p) (i + 1)
    have hzero : (b.window p ++ []).byte q = 0 := byte_behind_tail b [] hq
    rw [nameAt_of_empty (by omega) hzero, hzero]
    exact ⟨lookup_nil, by omega⟩
  -- the known name, with its length
  have hlen : (b.window p ++ (UInt8.ofNat v.1.length :: v.1)).byte p = v.1.length := by
    have hfirst := byte_tail b (UInt8.ofNat v.1.length :: v.1) p 0
    rw [add_zero] at hfirst
    rw [hfirst]
    exact UInt8.toNat_ofNat_of_lt' (by rw [UInt8.size]; omega)
  have hcopy : copyLen (b.window p ++ (UInt8.ofNat v.1.length :: v.1)) p maxLen = v.1.length := by
    rw [copyLen, hlen]
    omega
  have hname : nameAt (b.window p ++ (UInt8.ofNat v.1.length :: v.1)) p maxLen = v.1 := by
    rw [nameAt_eq _ p (by omega), hcopy]
    have hown : octetsAt (b.window p ++ (UInt8.ofNat v.1.length :: v.1)) (p + 1) v.1.length =
        v.1 := by
      refine ext_byte (by simp) fun j hj => ?_
      rw [length_octetsAt] at hj
      rw [byte_octetsAt _ hj, add_assoc, byte_tail, add_comm 1 j]
      rfl
    rw [hown, cString_of_not_mem (K.no_nul v hv)]
  have hknown : K.note add acc v.1 = add acc v.2 := note_of_mem hv (K.folded v hv)
  obtain ⟨xs, hxs⟩ := exists_overNames_eq_foldl K add maxLen
    (b.window p ++ (UInt8.ofNat v.1.length :: v.1)) i (p + (v.1.length + 1) % 256) (add acc v.2)
  have heq := h.eq_tails hp hp (UInt8.ofNat v.1.length :: v.1) []
  rw [hquiet, overNames_succ, hlen, hname, hknown, hxs] at heq
  exact hadd acc v.2 xs heq

/-- A list of names is settled if and only if each of its names is. -/
theorem settled_overNames_iff (hmax : 24 ≤ maxLen)
    (hadd : ∀ acc x xs, (x :: xs).foldl add acc = acc → add acc x = acc) :
    Settled n (fun b => overNames maxLen (K.note add) b i p acc) b ↔
      K.NamesSettled add n b maxLen i p acc := by
  induction i generalizing p acc with
  | zero => exact iff_of_true (settled_const acc) trivial
  | succ i ih =>
    rw [NamesSettled]
    by_cases hp : p < n
    · rw [if_pos hp, ← ih]
      -- with its first name settled, the list is settled where its rest is
      have hrest : K.NameSettled add n b p maxLen acc →
          (Settled n (fun b => overNames maxLen (K.note add) b (i + 1) p acc) b ↔
            Settled n (fun b' => overNames maxLen (K.note add) b' i (p + (b.byte p + 1) % 256)
              (K.note add acc (nameAt b p maxLen))) b) := by
        intro hset
        refine settled_congr fun b' hb' => ?_
        rw [overNames_succ, note_congr (by omega) hp hb' hset, hb' p hp]
      exact ⟨fun h => ⟨nameSettled_of_settled hmax hp hadd h,
          (hrest (nameSettled_of_settled hmax hp hadd h)).mp h⟩, fun h => (hrest h.1).mpr h.2⟩
    · rw [if_neg hp]
      constructor
      · exact add_eq_self_of_settled hmax (by omega) hadd
      · intro h b' _
        exact (overNames_eq_self h b' (i + 1) p).trans (overNames_eq_self h b (i + 1) p).symm

/-- The same with the number of names before them, of which no more than
`lim` are looked at. -/
theorem settled_counted_iff {msg lim : ℕ} (hmax : 24 ≤ maxLen) (hlim : 1 ≤ lim)
    (hadd : ∀ acc x xs, (x :: xs).foldl add acc = acc → add acc x = acc) :
    Settled n (fun b => overNames maxLen (K.note add) b (min (b.byte msg) lim) (msg + 1) acc) b ↔
      if msg < n then K.NamesSettled add n b maxLen (min (b.byte msg) lim) (msg + 1) acc
      else ∀ v ∈ K.names, add acc v.2 = acc := by
  by_cases hmsg : msg < n
  · rw [if_pos hmsg, ← settled_overNames_iff hmax hadd]
    exact settled_congr fun b' hb' => by rw [hb' msg hmsg]
  · rw [if_neg hmsg]
    constructor
    · intro h
      -- a count of 1 in front of whatever the only name is, against a count of 0
      refine add_eq_self_of_settled (n := msg + 1) (p := msg + 1) (b := b.window msg ++ [1])
        (i := 0) hmax (le_rfl) hadd fun b' hb' => ?_
      have hnone := h _ (agree_tail b [] (by omega : n ≤ msg))
      have hzero : (b.window msg ++ []).byte msg = 0 := byte_behind_tail b [] (le_rfl)
      have hbase : Agree n b (b.window msg ++ [1]) := agree_tail b [1] (by omega)
      have hone : (b.window msg ++ [1]).byte msg = 1 := byte_tail b [1] msg 0
      have hcount : ∀ c, Agree (msg + 1) (b.window msg ++ [1]) c →
          overNames maxLen (K.note add) c (0 + 1) (msg + 1) acc = acc := by
        intro c hc
        have hbyte : c.byte msg = 1 := by rw [← hc msg (by omega), hone]
        have hsame : overNames maxLen (K.note add) c (min (c.byte msg) lim) (msg + 1) acc =
            overNames maxLen (K.note add) (b.window msg ++ [])
              (min ((b.window msg ++ []).byte msg) lim) (msg + 1) acc :=
          (h c (hbase.trans (hc.mono (by omega)))).trans hnone.symm
        rw [hbyte, hzero, min_eq_left hlim, Nat.zero_min] at hsame
        exact hsame
      exact (hcount b' hb').trans (hcount _ (Agree.refl _ _)).symm
    · intro h b' _
      exact (overNames_eq_self h b' _ _).trans (overNames_eq_self h b _ _).symm

end KnownNames

end NetatalkClient
