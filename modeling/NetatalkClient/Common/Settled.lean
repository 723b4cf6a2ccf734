import NetatalkClient.Common.Fields
import NetatalkClient.Common.Files
/-!
# What a prefix settles

A function of a buffer is settled at `n` by a buffer if it takes the same
value on every buffer with the same first `n` octets. Whatever only looks
at these octets is settled; what is settled takes the same value behind
any two tails, so a pair of tails that are told apart shows that something
is not. Both directions together say which fields of a block without
bounds are read from inside it.
-/

namespace Octets

open List

variable {α β : Type*} {a b : Octets} {n m k : ℕ}

instance : Decidable (Agree n a b) := inferInstanceAs (Decidable (∀ i < n, a.byte i = b.byte i))

/-- The value of `f` at `b` is settled by the first `n` octets of `b`. -/
def Settled (n : ℕ) (f : Octets → α) (b : Octets) : Prop := ∀ b', Agree n b b' → f b' = f b

section
variable {f g : Octets → α}

theorem Agree.refl (n : ℕ) (b : Octets) : Agree n b b := fun _ _ => rfl

theorem Agree.trans {c : Octets} (h : Agree n a b) (h' : Agree n b c) : Agree n a c :=
  fun i hi => (h i hi).trans (h' i hi)

theorem Agree.mono (h : Agree n a b) (hm : m ≤ n) : Agree m a b :=
  fun i hi => h i (lt_of_lt_of_le hi hm)

/-- The same octets up to some point, and another tail. -/
theorem agree_tail (b t : Octets) (h : n ≤ m) : Agree n b (b.window m ++ t) := by
  intro i hi
  rw [byte_append (by rw [length_window]; omega), byte_window (by omega)]

theorem byte_tail (b t : Octets) (m i : ℕ) : (b.window m ++ t).byte (m + i) = t.byte i := by
  have h := byte_append_right (b.window m) t i
  rwa [length_window] at h

theorem byte_before_tail {i : ℕ} (b t : Octets) (h : i < m) : (b.window m ++ t).byte i = b.byte i :=
  (agree_tail b t (le_refl m) i h).symm

/-- Behind the end of the tail there are zeros. -/
theorem byte_behind_tail {i : ℕ} (b t : Octets) (h : m + t.length ≤ i) :
    (b.window m ++ t).byte i = 0 := by
  rw [byte, getD_eq_default _ _ (by rw [length_append, length_window]; exact h)]
  rfl

theorem settled_const (x : α) : Settled n (fun _ => x) b := fun _ _ => rfl

theorem Settled.map (h : Settled n f b) (φ : α → β) : Settled n (fun b => φ (f b)) b :=
  fun b' hb' => congrArg φ (h b' hb')

/-- What is read alike from all buffers in question is settled alike. -/
theorem settled_congr (h : ∀ b', Agree n b b' → f b' = g b') : Settled n f b ↔ Settled n g b := by
  have hb := h b (Agree.refl n b)
  constructor
  · intro hf b' hb'
    rw [← h b' hb', ← hb, hf b' hb']
  · intro hg b' hb'
    rw [h b' hb', hb, hg b' hb']

/-- An offset that is inside leads to a fixed place. -/
theorem settled_offset_iff (f : Octets → ℕ → α) {q : ℕ} (hq : q + 2 ≤ n) :
    Settled n (fun b => f b (b.be16 q)) b ↔ Settled n (fun b' => f b' (b.be16 q)) b :=
  settled_congr fun b' hb' => by rw [hb'.be16 (by omega)]

/-- With more of the buffer fixed, no less is settled. -/
theorem Settled.mono (h : Settled n f b) (hb : Agree n b a) (hm : n ≤ m) : Settled m f a :=
  fun b' hb' => (h b' (hb.trans (hb'.mono hm))).trans (h a hb).symm

/-- Two tails that a settled function does not tell apart. -/
theorem Settled.eq_tails (h : Settled n f b) (hm : n ≤ m) (hk : n ≤ k) (t u : Octets) :
    f (b.window m ++ t) = f (b.window k ++ u) :=
  (h _ (agree_tail b t hm)).trans (h _ (agree_tail b u hk)).symm

end

/-! ## Octets at a fixed position -/

theorem octetsAt_add (b : Octets) (p v w : ℕ) :
    b.octetsAt p (v + w) = b.octetsAt p v ++ b.octetsAt (p + v) w := by
  refine ext_byte (by simp) fun i hi => ?_
  rw [length_octetsAt] at hi
  rw [byte_octetsAt b hi]
  rcases lt_or_ge i v with hiv | hiv
  · rw [byte_append (by rwa [length_octetsAt]), byte_octetsAt b hiv]
  · obtain ⟨j, rfl⟩ := Nat.exists_eq_add_of_le hiv
    have h := byte_append_right (b.octetsAt p v) (b.octetsAt (p + v) w) j
    rw [length_octetsAt] at h
    rw [h, byte_octetsAt b (by omega), add_assoc]

theorem octetsAt_tail (b t : Octets) (m w : ℕ) : octetsAt (b.window m ++ t) m w = t.window w := by
  refine ext_byte (by simp) fun i hi => ?_
  rw [length_octetsAt] at hi
  rw [byte_octetsAt _ hi, byte_tail, byte_window hi]

theorem byte_last_octetsAt {w : ℕ} (b : Octets) (c : UInt8) (p : ℕ) (hw : 0 < w) :
    (octetsAt (b.window (p + w - 1) ++ [c]) p w).byte (w - 1) = c.toNat := by
  have hpos : p + (w - 1) = p + w - 1 + 0 := by omega
  rw [byte_octetsAt _ (by omega), hpos, byte_tail]
  rfl

/-- A run of octets is settled if and only if its last octet is inside. -/
theorem settled_octetsAt_iff (p w : ℕ) (hw : 0 < w) :
    Settled n (fun b => b.octetsAt p w) b ↔ p + w ≤ n := by
  constructor
  · intro h
    by_contra hout
    have heq := h.eq_tails (m := p + w - 1) (k := p + w - 1) (by omega) (by omega) [0] [1]
    have hlast := congrArg (fun o => byte o (w - 1)) heq
    rw [byte_last_octetsAt b 0 p hw, byte_last_octetsAt b 1 p hw] at hlast
    exact absurd hlast (by decide)
  · intro h b' hb'
    exact (octetsAt_congr fun j _ hj => hb' j (by omega)).symm

/-! ## Fields that are read wherever they are -/

section
variable {σ : Type*} {bitmap size p : ℕ} {fs : List (Field σ)} {s : σ} {stored : Field σ → Prop}

/-- A big-endian number that is read wherever it is. -/
def Field.unbounded (bit width : ℕ) (store : ℕ → σ → σ) : Field σ where
  bit := bit
  width := width
  read buf _ p s := some (store (buf.octetsAt p width).value s)

/-- A field that is left unread. -/
def Field.skipped (bit width : ℕ) : Field σ where
  bit := bit
  width := width
  read _ _ _ s := some s

/-- A field whose reader keeps what its octets say, wherever they are. -/
structure Field.Stores (f : Field σ) : Prop where
  width_pos : 0 < f.width
  exists_store : ∃ store : Octets → σ → σ,
    (∀ buf size p s, f.read buf size p s = some (store (buf.octetsAt p f.width) s)) ∧
    ∀ o o' s, o.length = f.width → o'.length = f.width → store o s = store o' s → o = o'

/-- A field that is passed over. -/
def Field.Passed (f : Field σ) : Prop := ∀ buf size p s, f.read buf size p s = some s

theorem Field.passed_skipped (bit width : ℕ) : (Field.skipped bit width : Field σ).Passed :=
  fun _ _ _ _ => rfl

theorem Field.stores_unbounded {bit width : ℕ} {store : ℕ → σ → σ} (hw : 0 < width)
    (h : ∀ i j s, i < 256 ^ width → j < 256 ^ width → store i s = store j s → i = j) :
    (Field.unbounded bit width store).Stores := by
  refine ⟨hw, fun own => store own.value, fun _ _ _ _ => rfl, fun o o' s ho ho' heq => ?_⟩
  have hlt : ∀ o : Octets, o.length = width → o.value < 256 ^ width := by
    intro o ho
    rw [← ho]
    exact value_lt o
  have hval := h _ _ s (hlt o ho) (hlt o' ho') heq
  rw [← padded_value o, ← padded_value o', hval, ho, ho']

theorem walk_passed (h : ∀ f ∈ fs, ¬ stored f → f.Passed)
    (hp : ∀ x ∈ placed bitmap fs p, ¬ stored x.1) : walk bitmap b size fs p s = .ok s := by
  induction fs generalizing p with
  | nil => rfl
  | cons f fs ih =>
    rw [placed] at hp
    rw [walk]
    have htl := fun g hg => h g (mem_cons_of_mem f hg)
    split
    · next hbit =>
      rw [if_pos hbit, forall_mem_cons] at hp
      rw [h f mem_cons_self hp.1]
      exact ih htl hp.2
    · next hbit =>
      rw [if_neg hbit] at hp
      exact ih htl hp

/-- Fields that never stop a walk and keep an invariant. -/
theorem exists_walk_ok {P : σ → Prop}
    (h : ∀ f ∈ fs, ∀ p s, P s → ∃ s', f.read b size p s = some s' ∧ P s') (hs : P s) :
    ∃ s', walk bitmap b size fs p s = .ok s' ∧ P s' := by
  induction fs generalizing p s with
  | nil => exact ⟨s, rfl, hs⟩
  | cons f fs ih =>
    have htl := fun g hg => h g (mem_cons_of_mem f hg)
    rw [walk]
    split
    · obtain ⟨s', hread, hs'⟩ := h f mem_cons_self p s hs
      rw [hread]
      exact ih htl hs'
    · exact ih htl hs

theorem le_of_placed {x : Field σ × ℕ} (h : x ∈ placed bitmap fs p) : p ≤ x.2 := by
  induction fs generalizing p with
  | nil => exact absurd h not_mem_nil
  | cons f fs ih =>
    rw [placed] at h
    split at h
    · rcases mem_cons.mp h with rfl | h
      · exact le_rfl
      · exact le_trans (Nat.le_add_right _ _) (ih h)
    · exact ih h

/-- A stored field that ends outside: the last such field is told apart
by its last octet. -/
theorem exists_tails_walk_ne (size : ℕ) (hst : ∀ f ∈ fs, stored f → f.Stores)
    (hpass : ∀ f ∈ fs, ¬ stored f → f.Passed)
    (hout : ∃ x ∈ placed bitmap fs p, stored x.1 ∧ n < x.2 + x.1.width) :
    ∃ m, n ≤ m ∧ p ≤ m ∧ walk bitmap (b.window m ++ [0]) size fs p s ≠
      walk bitmap (b.window m ++ [1]) size fs p s := by
  induction fs generalizing p s with
  | nil => exact absurd hout (by simp [placed])
  | cons f fs ih =>
    have hst' := fun g hg => hst g (mem_cons_of_mem f hg)
    have hpass' := fun g hg => hpass g (mem_cons_of_mem f hg)
    rw [placed] at hout
    by_cases hbit : bitmap &&& f.bit ≠ 0
    · rw [if_pos hbit] at hout
      by_cases htl : ∃ x ∈ placed bitmap fs (p + f.width), stored x.1 ∧ n < x.2 + x.1.width
      · -- the head field is read alike from both, and as from `b`
        by_cases hf : stored f
        · obtain ⟨-, store, hread, -⟩ := hst f mem_cons_self hf
          obtain ⟨m, hn, hp, hne⟩ := ih (s := store (b.octetsAt p f.width) s) hst' hpass' htl
          refine ⟨m, hn, by omega, ?_⟩
          have hown : ∀ t, octetsAt (b.window m ++ t) p f.width = b.octetsAt p f.width := fun t =>
            octetsAt_congr fun j _ hj => byte_before_tail b t (by omega)
          rwa [walk, walk, if_pos hbit, if_pos hbit, hread, hread, hown, hown]
        · obtain ⟨m, hn, hp, hne⟩ := ih (s := s) hst' hpass' htl
          refine ⟨m, hn, by omega, ?_⟩
          have hread := hpass f mem_cons_self hf
          rwa [walk, walk, if_pos hbit, if_pos hbit, hread, hread]
      · -- nothing is stored behind the head field
        obtain ⟨x, hx, hfx, hend⟩ := hout
        rcases mem_cons.mp hx with rfl | hx
        · obtain ⟨hw, store, hread, hinj⟩ := hst f mem_cons_self hfx
          have hrest : ∀ y ∈ placed bitmap fs (p + f.width), ¬ stored y.1 := by
            intro y hy hsy
            have hle := le_of_placed hy
            exact htl ⟨y, hy, hsy, by dsimp only at hend; omega⟩
          refine ⟨p + f.width - 1, by dsimp only at hend; omega, by omega, ?_⟩
          rw [walk, walk, if_pos hbit, if_pos hbit, hread, hread]
          dsimp only
          rw [walk_passed hpass' hrest, walk_passed hpass' hrest]
          intro heq
          have howns := hinj _ _ s (length_octetsAt _ _ _) (length_octetsAt _ _ _)
            (Except.ok.inj heq)
          have hlast := congrArg (fun o => byte o (f.width - 1)) howns
          rw [byte_last_octetsAt b 0 p hw, byte_last_octetsAt b 1 p hw] at hlast
          exact absurd hlast (by decide)
        · exact absurd ⟨x, hx, hfx, hend⟩ htl
    · rw [if_neg hbit] at hout
      obtain ⟨m, hn, hp, hne⟩ := ih (s := s) hst' hpass' hout
      refine ⟨m, hn, hp, ?_⟩
      rwa [walk, walk, if_neg hbit, if_neg hbit]

/-- A walk is settled if and only if every field it stores ends inside. -/
theorem settled_walk_iff (hst : ∀ f ∈ fs, stored f → f.Stores)
    (hpass : ∀ f ∈ fs, ¬ stored f → f.Passed) :
    Settled n (fun b => walk bitmap b size fs p s) b ↔
      ∀ x ∈ placed bitmap fs p, stored x.1 → x.2 + x.1.width ≤ n := by
  constructor
  · intro h x hx hsx
    by_contra hend
    obtain ⟨m, hn, -, hne⟩ := exists_tails_walk_ne size (b := b) (n := n) (s := s)
      hst hpass ⟨x, hx, hsx, by omega⟩
    exact hne (h.eq_tails hn hn [0] [1])
  · intro h b' hb'
    refine walk_congr fun x hx s => ?_
    have hmem := mem_of_placed hx
    by_cases hsx : stored x.1
    · obtain ⟨-, store, hread, -⟩ := hst x.1 hmem hsx
      have hend := h x hx hsx
      rw [hread, hread, octetsAt_congr fun j _ hj => (hb' j (by omega)).symm]
    · rw [hpass x.1 hmem hsx, hpass x.1 hmem hsx]

end

end Octets
