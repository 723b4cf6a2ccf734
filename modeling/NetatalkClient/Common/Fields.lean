import NetatalkClient.Common.BigEndian
import Mathlib
/-!
# Blocks of optional fields

A block holds, one behind the other, those fields of a list that a bitmap
announces. Which fields a reader meets and where is decided by the bitmap
alone (`placed`), so what two buffers do to a reader, and whether it gets
to the end, is said field by field. A block that was assembled from pieces
is read as the pieces, whatever else its fields look at.
-/

namespace Octets

open List

variable {σ : Type*}

/-- A field: the bit that announces it, its width, and what a reader makes
of it. The reader has the buffer, the size of the block and the position,
and may stop. -/
structure Field (σ : Type*) where
  bit : ℕ
  width : ℕ
  read : Octets → ℕ → ℕ → σ → Option σ

/-- A field that is read only where all of it is inside the block. The
reader gets the buffer, the size and the field's own octets. -/
def Field.bounded (bit width : ℕ) (read : Octets → ℕ → Octets → σ → Option σ) : Field σ where
  bit := bit
  width := width
  read buf size p s := if size < p + width then none else read buf size (buf.octetsAt p width) s

/-- Reads the announced fields from `p` on. A reader that stops leaves the
record as it is. -/
def walk (bitmap : ℕ) (buf : Octets) (size : ℕ) : List (Field σ) → ℕ → σ → Except σ σ
  | [], _, s => .ok s
  | f :: fs, p, s =>
      if bitmap &&& f.bit ≠ 0 then
        match f.read buf size p s with
        | none => .error s
        | some s => walk bitmap buf size fs (p + f.width) s
      else walk bitmap buf size fs p s

/-- The announced fields, each with its position. -/
def placed (bitmap : ℕ) : List (Field σ) → ℕ → List (Field σ × ℕ)
  | [], _ => []
  | f :: fs, p =>
      if bitmap &&& f.bit ≠ 0 then (f, p) :: placed bitmap fs (p + f.width)
      else placed bitmap fs p

variable {bitmap size p : ℕ} {buf buf' : Octets} {fs : List (Field σ)} {s : σ}

/-! ## Field by field -/

theorem mem_of_placed {x : Field σ × ℕ} (h : x ∈ placed bitmap fs p) : x.1 ∈ fs := by
  induction fs generalizing p with
  | nil => exact absurd h not_mem_nil
  | cons f fs ih =>
    rw [placed] at h
    split at h
    · rcases mem_cons.mp h with rfl | h
      · exact mem_cons_self
      · exact mem_cons_of_mem f (ih h)
    · exact mem_cons_of_mem f (ih h)

/-- Two buffers that every field reads alike are walked alike. -/
theorem walk_congr
    (h : ∀ x ∈ placed bitmap fs p, ∀ s, x.1.read buf size x.2 s = x.1.read buf' size x.2 s) :
    walk bitmap buf size fs p s = walk bitmap buf' size fs p s := by
  induction fs generalizing p s with
  | nil => rfl
  | cons f fs ih =>
    rw [placed] at h
    rw [walk, walk]
    split
    · next hbit =>
      rw [if_pos hbit] at h
      have hf : f.read buf size p s = f.read buf' size p s := h (f, p) mem_cons_self s
      rw [hf]
      cases f.read buf' size p s with
      | none => rfl
      | some s' => exact ih fun x hx => h x (mem_cons_of_mem _ hx)
    · next hbit =>
      rw [if_neg hbit] at h
      exact ih h

/-- A walk gets to the end if and only if no field stops it. -/
theorem exists_walk_ok_iff {fits : Field σ × ℕ → Prop}
    (h : ∀ x ∈ placed bitmap fs p, ∀ s, (x.1.read buf size x.2 s).isSome ↔ fits x) :
    (∃ s', walk bitmap buf size fs p s = .ok s') ↔ ∀ x ∈ placed bitmap fs p, fits x := by
  induction fs generalizing p s with
  | nil => exact iff_of_true ⟨s, rfl⟩ fun x hx => absurd hx not_mem_nil
  | cons f fs ih =>
    rw [placed] at h ⊢
    rw [walk]
    split
    · next hbit =>
      rw [if_pos hbit] at h
      have hf := h (f, p) mem_cons_self s
      have htl := fun x hx => h x (mem_cons_of_mem _ hx)
      rw [forall_mem_cons, ← hf]
      cases hread : f.read buf size p s with
      | none => simp
      | some s' => simpa using ih htl
    · next hbit =>
      rw [if_neg hbit] at h
      exact ih h

/-- A bounded field looks at its own octets inside the block only. -/
theorem Field.bounded_congr {bit width : ℕ} {read : Octets → ℕ → Octets → σ → Option σ}
    (h : Agree size buf buf') (hread : ∀ own s, read buf size own s = read buf' size own s)
    (p : ℕ) (s : σ) :
    (Field.bounded bit width read).read buf size p s =
      (Field.bounded bit width read).read buf' size p s := by
  dsimp only [Field.bounded]
  by_cases hout : size < p + width
  · rw [if_pos hout, if_pos hout]
  · rw [if_neg hout, if_neg hout, octetsAt_congr fun j _ hj => h j (by omega), hread]

/-! ## Where the fields are -/

/-- The announced fields' widths together. -/
def announcedWidth (bitmap : ℕ) (fs : List (ℕ × ℕ)) : ℕ :=
  ((fs.filter fun f => bitmap &&& f.1 ≠ 0).map Prod.snd).sum

/-- The bit and the width of a field. -/
def Field.shape (f : Field σ) : ℕ × ℕ := (f.bit, f.width)

theorem announcedWidth_cons (f : ℕ × ℕ) (fs : List (ℕ × ℕ)) :
    announcedWidth bitmap (f :: fs) =
      (if bitmap &&& f.1 ≠ 0 then f.2 else 0) + announcedWidth bitmap fs := by
  unfold announcedWidth
  rw [filter_cons]
  by_cases hbit : bitmap &&& f.1 ≠ 0
  · rw [if_pos (decide_eq_true hbit), if_pos hbit, map_cons, sum_cons]
  · rw [if_neg (by simpa using hbit), if_neg hbit, zero_add]

/-- In the order of their bits, a field stands behind the announced fields
of lower bits. -/
theorem mem_placed (hfs : (fs.map Field.shape).Pairwise (·.1 < ·.1)) {g : Field σ} {q : ℕ} :
    (g, q) ∈ placed bitmap fs p ↔ g ∈ fs ∧ bitmap &&& g.bit ≠ 0 ∧
      q = p + announcedWidth bitmap ((fs.map Field.shape).filter (·.1 < g.bit)) := by
  induction fs generalizing p with
  | nil => simp [placed]
  | cons f fs ih =>
    rw [map_cons, pairwise_cons] at hfs
    obtain ⟨hf, htl⟩ := hfs
    have hlater : ∀ g ∈ fs, f.bit < g.bit := fun g hg => hf g.shape (mem_map.mpr ⟨g, hg, rfl⟩)
    have hfirst : ((f :: fs).map Field.shape).filter (·.1 < f.bit) = [] := by
      rw [filter_eq_nil_iff, map_cons]
      refine forall_mem_cons.mpr ⟨by simp [Field.shape], fun y hy => ?_⟩
      have hlt := hf y hy
      simp only [Field.shape] at hlt
      simp only [decide_eq_true_eq]
      omega
    have hother : ∀ g ∈ fs, announcedWidth bitmap
        (((f :: fs).map Field.shape).filter (·.1 < g.bit)) =
        (if bitmap &&& f.bit ≠ 0 then f.width else 0) +
          announcedWidth bitmap ((fs.map Field.shape).filter (·.1 < g.bit)) := by
      intro g hg
      have hlt : decide (f.shape.1 < g.bit) = true := decide_eq_true (hlater g hg)
      rw [map_cons, filter_cons, if_pos hlt, announcedWidth_cons]
      rfl
    rw [placed, mem_cons]
    split
    · next hbit =>
      rw [mem_cons, ih htl, Prod.mk.injEq]
      constructor
      · rintro (⟨rfl, rfl⟩ | ⟨hg, hbit', hq⟩)
        · exact ⟨.inl rfl, hbit, by rw [hfirst]; rfl⟩
        · refine ⟨.inr hg, hbit', ?_⟩
          rw [hother g hg, if_pos hbit, hq]
          omega
      · rintro ⟨rfl | hg, hbit', hq⟩
        · rw [hfirst] at hq
          exact .inl ⟨rfl, hq⟩
        · rw [hother g hg, if_pos hbit] at hq
          refine .inr ⟨hg, hbit', ?_⟩
          rw [hq]
          omega
    · next hbit =>
      rw [ih htl]
      constructor
      · rintro ⟨hg, hbit', hq⟩
        refine ⟨.inr hg, hbit', ?_⟩
        rw [hother g hg, if_neg hbit, hq]
        omega
      · rintro ⟨rfl | hg, hbit', hq⟩
        · exact absurd hbit' hbit
        · rw [hother g hg, if_neg hbit] at hq
          refine ⟨hg, hbit', ?_⟩
          rw [hq]
          omega

/-- All announced fields end within the block if and only if together they
are no longer. -/
theorem placed_within_iff (hp : p ≤ size) :
    (∀ x ∈ placed bitmap fs p, x.2 + x.1.width ≤ size) ↔
      p + announcedWidth bitmap (fs.map Field.shape) ≤ size := by
  induction fs generalizing p with
  | nil => exact iff_of_true (fun x hx => absurd hx not_mem_nil) hp
  | cons f fs ih =>
    rw [placed, map_cons, announcedWidth_cons]
    by_cases hbit : bitmap &&& f.bit ≠ 0
    · have hshape : (if bitmap &&& f.shape.1 ≠ 0 then f.shape.2 else 0) = f.width := if_pos hbit
      rw [if_pos hbit, hshape, forall_mem_cons]
      constructor
      · rintro ⟨hf, htl⟩
        have hlater := (ih hf).mp htl
        dsimp only at hlater
        omega
      · intro h
        have hf : p + f.width ≤ size := by omega
        exact ⟨hf, (ih hf).mpr (by omega)⟩
    · have hshape : (if bitmap &&& f.shape.1 ≠ 0 then f.shape.2 else 0) = 0 := if_neg hbit
      rw [if_neg hbit, hshape, ih hp, zero_add]

/-! ## Assembled blocks -/

/-- What is to be read as a field: its octets, and what they say. -/
structure Piece (σ : Type*) where
  bit : ℕ
  octets : Octets
  store : σ → σ

/-- The announced pieces, one behind the other. -/
def assemble (bitmap : ℕ) (ws : List (Piece σ)) : Octets :=
  ws.flatMap fun w => if bitmap &&& w.bit ≠ 0 then w.octets else []

/-- What the announced pieces say. -/
def storeAll (bitmap : ℕ) (ws : List (Piece σ)) (s : σ) : σ :=
  ws.foldl (fun s w => if bitmap &&& w.bit ≠ 0 then w.store s else s) s

section
variable {α β : Type*} {bit : ℕ} {octets : Octets} {ws : List (Piece σ)}

theorem assemble_cons {w : Piece σ} : assemble bitmap (w :: ws) =
    (if bitmap &&& w.bit ≠ 0 then w.octets else []) ++ assemble bitmap ws := flatMap_cons

theorem assemble_append {vs : List (Piece σ)} :
    assemble bitmap (vs ++ ws) = assemble bitmap vs ++ assemble bitmap ws := flatMap_append

/-- Pieces that are not announced leave no trace. -/
theorem assemble_eq_nil (h : ∀ w ∈ ws, bitmap &&& w.bit = 0) : assemble bitmap ws = [] :=
  flatMap_eq_nil_iff.mpr fun w hw => if_neg (not_not.mpr (h w hw))

theorem storeAll_nil : storeAll bitmap [] s = s := rfl

theorem storeAll_cons {w : Piece σ} : storeAll bitmap (w :: ws) s =
    storeAll bitmap ws (if bitmap &&& w.bit ≠ 0 then w.store s else s) := rfl

theorem storeAll_skip : storeAll bitmap (⟨bit, octets, fun s => s⟩ :: ws) s =
    storeAll bitmap ws s := by
  rw [storeAll_cons, ite_self]

/-- A piece that sets one component of the record. -/
theorem storeAll_set (set : α → σ → σ) (get : σ → α) (h : ∀ s, set (get s) s = s) (v : α) :
    storeAll bitmap (⟨bit, octets, set v⟩ :: ws) s =
      storeAll bitmap ws (set (if bitmap &&& bit ≠ 0 then v else get s) s) := by
  rw [storeAll_cons]
  split
  · rfl
  · rw [h]

/-- A piece that sets two components of the record. -/
theorem storeAll_set₂ (set : α → β → σ → σ) (get : σ → α) (get' : σ → β)
    (h : ∀ s, set (get s) (get' s) s = s) (v : α) (w : β) :
    storeAll bitmap (⟨bit, octets, set v w⟩ :: ws) s =
      storeAll bitmap ws (set (if bitmap &&& bit ≠ 0 then v else get s)
        (if bitmap &&& bit ≠ 0 then w else get' s) s) := by
  rw [storeAll_cons]
  split
  · rfl
  · rw [h]

end

/-- A field takes a piece for what it is, wherever in the block it finds
it, if the field is announced. -/
structure Field.Reads (bitmap : ℕ) (buf : Octets) (size : ℕ) (f : Field σ) (w : Piece σ) :
    Prop where
  bit_eq : f.bit = w.bit
  width_eq : f.width = w.octets.length
  read_eq : bitmap &&& w.bit ≠ 0 → ∀ p s, buf.octetsAt p w.octets.length = w.octets →
    p + w.octets.length ≤ size → f.read buf size p s = some (w.store s)

/-- **An assembled block is read as its pieces.** -/
theorem walk_assemble {ws : List (Piece σ)} {done rest : Octets}
    (hrel : List.Forall₂ (Field.Reads bitmap buf size) fs ws)
    (hbuf : buf = done ++ (assemble bitmap ws ++ rest))
    (hsize : done.length + (assemble bitmap ws).length ≤ size) :
    walk bitmap buf size fs done.length s = .ok (storeAll bitmap ws s) := by
  induction hrel generalizing done s with
  | nil => rfl
  | @cons f w fs ws hread hrel ih =>
    rw [walk, hread.bit_eq, hread.width_eq]
    by_cases hbit : bitmap &&& w.bit ≠ 0
    · have hfront : assemble bitmap (w :: ws) = w.octets ++ assemble bitmap ws := by
        rw [assemble, flatMap_cons, if_pos hbit, assemble]
      rw [hfront, length_append] at hsize
      rw [hfront, append_assoc] at hbuf
      have hown : buf.octetsAt done.length w.octets.length = w.octets := by
        rw [hbuf, octetsAt_append]
      rw [if_pos hbit, hread.read_eq hbit _ s hown (by omega), storeAll, foldl_cons,
        if_pos hbit, ← length_append]
      refine ih ?_ ?_
      · rw [hbuf, append_assoc]
      · rw [length_append]
        omega
    · have hfront : assemble bitmap (w :: ws) = assemble bitmap ws := by
        rw [assemble, flatMap_cons, if_neg hbit, nil_append, assemble]
      rw [hfront] at hsize hbuf
      rw [if_neg hbit, storeAll, foldl_cons, if_neg hbit]
      exact ih hbuf hsize

end Octets
