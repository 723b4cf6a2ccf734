import NetatalkClient.Common.Octets
/-!
# Sources whose reads are interrupted

A source that may fail a read and go on (`Alive`), where `Flowing` admits
no failure. Every read of such a source uses some of it up (`weight`), so
a loop that tries again after a failure comes to an end.
-/

namespace Source

open List

variable {n : ℕ} {src src' : Source} {got : Octets}

/-- A source that does not end before its octets are gone. -/
def Alive (src : Source) : Prop := ∀ run, Arrival.data run ∈ src → run ≠ []

/-- What is left of a source: its arrivals and its octets. -/
def weight (src : Source) : ℕ := src.length + (pending src).length

theorem Alive.tail {a : Arrival} (h : Alive (a :: src)) : Alive src :=
  fun run hrun => h run (mem_cons_of_mem _ hrun)

/-- A failed read used an arrival up. -/
theorem read_none (h : read n src = (none, src')) :
    weight src' < weight src ∧ (Alive src → Alive src') := by
  unfold read at h
  split at h
  · cases h
  · cases h
    refine ⟨?_, Alive.tail⟩
    rw [weight, weight, pending, length_cons]
    omega
  · cases h

/-- A read brings nothing only when the source has ended. -/
theorem read_nil (hn : 0 < n) (h : read n src = (some [], src')) (halive : Alive src) :
    pending src = [] := by
  unfold read at h
  split at h
  · rfl
  · cases h
  · next run rest =>
    have hnil : run.take n = [] := Option.some.inj (Prod.mk.inj h).1
    rcases take_eq_nil_iff.mp hnil with hz | hrun
    · omega
    · exact absurd hrun (halive run mem_cons_self)

/-- A read that brought something used it up. -/
theorem read_some (hn : 0 < n) (h : read n src = (some got, src')) (hgot : got ≠ []) :
    weight src' < weight src ∧ (Alive src → Alive src') := by
  unfold read at h
  split at h
  · exact absurd (Option.some.inj (Prod.mk.inj h).1).symm hgot
  · cases h
  · next run rest =>
    obtain ⟨-, rfl⟩ := Prod.mk.inj h
    split
    · refine ⟨?_, Alive.tail⟩
      rw [weight, weight, pending, length_cons, length_append]
      omega
    · next hlong =>
      refine ⟨?_, fun halive run' hrun' => ?_⟩
      · rw [weight, weight, pending, pending, length_cons, length_cons,
          length_append, length_append, length_drop]
        omega
      · rcases mem_cons.mp hrun' with heq | hrest
        · rw [Arrival.data.inj heq, Ne, drop_eq_nil_iff]
          exact hlong
        · exact halive run' (mem_cons_of_mem _ hrest)

end Source
