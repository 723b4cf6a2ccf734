import NetatalkClient.Common.Octets
/-!
# Printing into a buffer piece by piece

`snprintf` at a position that is advanced by what it returns, the length
of the whole piece, with the room that is left computed by subtraction.
Past the end of the buffer the room is negative, which is taken for a
large number. As long as everything fits, the pieces stand one behind the
other with a NUL after them.
-/

namespace Octets

open List

/-- `pos += snprintf(buf + pos, size - pos, piece)`, where `size` is that of
the buffer: `none` if it writes outside. -/
def printAt (buf : Octets) (pos : ℕ) (piece : Octets) : Option (Octets × ℕ) :=
  if buf.length < pos then none
  else if buf.length = pos then some (buf, pos + piece.length)
  else some (buf.overwrite pos (piece.take (buf.length - pos - 1) ++ [0]), pos + piece.length)

def printAll : List Octets → Octets → ℕ → Option (Octets × ℕ)
  | [], buf, pos => some (buf, pos)
  | piece :: pieces, buf, pos =>
      (printAt buf pos piece).bind fun (buf, pos) => printAll pieces buf pos

variable {done rest piece buf buf' : Octets} {pieces : List Octets} {pos pos' : ℕ}

/-- The position advances by the length of the piece, stored or not. -/
theorem pos_of_printAll (h : printAll pieces buf pos = some (buf', pos')) :
    pos' = pos + pieces.flatten.length := by
  induction pieces generalizing buf pos with
  | nil =>
    cases h
    rfl
  | cons piece pieces ih =>
    obtain ⟨⟨buf₁, pos₁⟩, hat, hrest⟩ := Option.bind_eq_some_iff.mp h
    have hpos : pos₁ = pos + piece.length := by
      unfold printAt at hat
      split_ifs at hat
      · cases hat
        rfl
      · cases hat
        rfl
    rw [ih hrest, hpos, flatten_cons, length_append, Nat.add_assoc]

theorem printAt_of_lt (h : piece.length < rest.length) :
    printAt (done ++ rest) done.length piece =
      some (done ++ piece ++ 0 :: rest.drop (piece.length + 1), (done ++ piece).length) := by
  have hlen : (done ++ rest).length = done.length + rest.length := length_append
  have hroom : piece.length ≤ (done ++ rest).length - done.length - 1 := by omega
  have hwindow : (done ++ rest).window done.length = done := by
    rw [window, take_left, hlen, Nat.sub_eq_zero_of_le (Nat.le_add_right _ _),
      replicate_zero, append_nil]
  rw [printAt, if_neg (by omega), if_neg (by omega), take_of_length_le hroom, overwrite,
    hwindow, drop_append, drop_eq_nil_of_le (by omega), nil_append,
    Nat.add_sub_cancel_left, length_append, length_append]
  simp

/-- What fits is printed, and the last piece leaves a NUL. -/
theorem printAll_of_lt (h : pieces.flatten.length < rest.length) :
    ∃ rest', printAll pieces (done ++ rest) done.length =
      some (done ++ pieces.flatten ++ rest', (done ++ pieces.flatten).length) ∧
        (pieces ≠ [] ∨ [0] <+: rest → [0] <+: rest') := by
  induction pieces generalizing done rest with
  | nil => exact ⟨rest, by simp [printAll], by simp⟩
  | cons piece pieces ih =>
    rw [flatten_cons, length_append] at h
    have hrest : pieces.flatten.length < (0 :: rest.drop (piece.length + 1)).length := by
      rw [length_cons, length_drop]
      omega
    obtain ⟨rest', hprint, hzero⟩ := @ih (done ++ piece) _ hrest
    refine ⟨rest', ?_, fun _ => hzero (.inr ⟨_, rfl⟩)⟩
    rw [printAll, printAt_of_lt (by omega), Option.bind_some, flatten_cons, ← append_assoc done]
    exact hprint

/-- **What is printed and what is counted agree exactly if all fits**, in a
buffer that is not empty. -/
theorem prints_prefix_iff (hpos : 0 < buf.length) :
    (∃ out, printAll pieces buf 0 = some (out, min (buf.length - 1) pieces.flatten.length) ∧
      pieces.flatten.take (buf.length - 1) ++ (if pieces = [] then [] else [0]) <+: out) ↔
      pieces.flatten.length < buf.length := by
  constructor
  · rintro ⟨out, hprint, -⟩
    have hcount := pos_of_printAll hprint
    omega
  · intro hlt
    obtain ⟨rest, hprint, hzero⟩ := @printAll_of_lt [] buf pieces hlt
    rw [Nat.min_eq_right (by omega), take_of_length_le (by omega)]
    refine ⟨_, hprint, (prefix_append_right_inj _).mpr ?_⟩
    split_ifs with hnil
    · exact nil_prefix
    · exact hzero (.inl hnil)

end Octets
