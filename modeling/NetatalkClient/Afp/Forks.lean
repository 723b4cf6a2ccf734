import NetatalkClient.Afp.Model.Forks
/-!
# Fork numbers and the session they belong to

Nothing in the client ties a record's fork number to the connection it
came from: a record made before a reconnect is used after it, and a
request built before it is sent after it. Within one session there is a
second way to send a number that is not open: a record stays listed while
its FPCloseFork is under way, so that another thread may copy its number
for a flush. `fresh` excludes both, and then every number sent is open in
the session it is sent to (`sent_forkid_open`).
-/

namespace NetatalkClient

open List

namespace Forks

open Machine

variable {s s' : Forks} {e : ForkEvent} {b : ForkRequest}

/-- The condition on a step: a new session begins with no open fork on
record and no request built; a fork is closed when no other request with
its number is built; and no request is built from a record whose
FPCloseFork was sent. -/
def fresh (s : Forks) : ForkEvent → Bool
  | .establish => s.built.isEmpty && (List.range s.made).all fun o => s.phase o != .opened
  | .send b =>
      b.command != .closeFork || (s.built.erase b).all fun b' => b'.forkid != b.forkid
  | .build _ o => s.phase o == .opened
  | _ => true

/-- The machine all of whose steps meet the condition. -/
def freshStep : Forks → ForkEvent → Option Forks :=
  guarded step fun s e => s.fresh e = true

/-- Every record in use names a fork of its own that is open in this
session, and so does every request built. -/
structure Inv (s : Forks) : Prop where
  nodup : s.serverForks.Nodup
  opened : ∀ o < s.made, s.phase o = .opened → s.forkid o ∈ s.serverForks
  distinct : ∀ o < s.made, ∀ o' < s.made, s.phase o = .opened → s.phase o' = .opened →
    s.forkid o = s.forkid o' → o = o'
  built : ∀ b ∈ s.built, b.forkid ∈ s.serverForks
  owner : ∀ b ∈ s.built, ∀ o < s.made, s.phase o = .opened → s.forkid o = b.forkid → o = b.fork

theorem inv_init : init.Inv := by
  refine ⟨nodup_nil, ?_, ?_, ?_, ?_⟩
  all_goals simp [init]

theorem inv_openFork (h : s.Inv) {n : ℕ} (hs : s.step (.openFork n) = some s') : s'.Inv := by
  simp only [step] at hs
  split at hs
  · next hcond =>
    cases hs
    have hold : ∀ o < s.made + 1, o ≠ s.made → o < s.made := fun o ho hne => by omega
    -- no record in use has the new number
    have hnew : ∀ o < s.made, s.phase o = .opened → s.forkid o ≠ n := fun o ho hopen heq =>
      hcond.2 (heq ▸ h.opened o ho hopen)
    refine ⟨nodup_cons.mpr ⟨hcond.2, h.nodup⟩, ?_, ?_, ?_, ?_⟩
    · intro o ho hopen
      by_cases hne : o = s.made
      · simp [hne]
      · have hopen' : s.phase o = .opened := by simpa [hne] using hopen
        simpa [hne] using Or.inr (h.opened o (hold o ho hne) hopen')
    · intro o ho o' ho' hopen hopen' heq
      by_cases hne : o = s.made <;> by_cases hne' : o' = s.made
      · rw [hne, hne']
      · subst hne
        have hopen'' : s.phase o' = .opened := by simpa [hne'] using hopen'
        have heq' : n = s.forkid o' := by simpa [hne'] using heq
        exact absurd heq'.symm (hnew o' (hold o' ho' hne') hopen'')
      · subst hne'
        have hopen'' : s.phase o = .opened := by simpa [hne] using hopen
        have heq' : s.forkid o = n := by simpa [hne] using heq
        exact absurd heq' (hnew o (hold o ho hne) hopen'')
      · exact h.distinct o (hold o ho hne) o' (hold o' ho' hne') (by simpa [hne] using hopen)
          (by simpa [hne'] using hopen') (by simpa [hne, hne'] using heq)
    · exact fun b hb => mem_cons_of_mem _ (h.built b hb)
    · intro b hb o ho hopen heq
      by_cases hne : o = s.made
      · subst hne
        have heq' : n = b.forkid := by simpa using heq
        exact absurd (heq' ▸ h.built b hb) hcond.2
      · exact h.owner b hb o (hold o ho hne) (by simpa [hne] using hopen) (by simpa [hne] using heq)
  · cases hs

theorem inv_build (h : s.Inv) {c : ForkCommand} {o : ℕ} (hok : s.fresh (.build c o) = true)
    (hs : s.step (.build c o) = some s') : s'.Inv := by
  simp only [step] at hs
  split at hs
  · next hcond =>
    cases hs
    have hopen : s.phase o = .opened := by simpa [fresh] using hok
    refine ⟨h.nodup, h.opened, h.distinct, ?_, ?_⟩
    · intro b hb
      rcases mem_cons.mp hb with rfl | hb
      · exact h.opened o hcond.1 hopen
      · exact h.built b hb
    · intro b hb o' ho' hopen' heq
      rcases mem_cons.mp hb with rfl | hb
      · exact h.distinct o' ho' o hcond.1 hopen' hopen heq
      · exact h.owner b hb o' ho' hopen' heq
  · cases hs

/-- Requests leave, with no other change. -/
theorem Inv.erase (h : s.Inv) (b : ForkRequest) : Inv { s with built := s.built.erase b } where
  nodup := h.nodup
  opened := h.opened
  distinct := h.distinct
  built b' hb' := h.built b' (mem_of_mem_erase hb')
  owner b' hb' := h.owner b' (mem_of_mem_erase hb')

/-- A record that stops being in use. -/
theorem Inv.setPhase (h : s.Inv) {o : ℕ} {phase : ForkPhase} (hphase : phase ≠ .opened) :
    (s.setPhase o phase).Inv := by
  have hkeep : ∀ q, (s.setPhase o phase).phase q = .opened → s.phase q = .opened := by
    intro q hq
    by_cases hne : q = o
    · subst hne
      exact absurd (by simpa [Forks.setPhase] using hq) hphase
    · simpa [Forks.setPhase, hne] using hq
  exact ⟨h.nodup, fun q hq hopen => h.opened q hq (hkeep q hopen),
    fun q hq q' hq' hopen hopen' => h.distinct q hq q' hq' (hkeep q hopen) (hkeep q' hopen'),
    h.built, fun b hb q hq hopen => h.owner b hb q hq (hkeep q hopen)⟩

/-- The server closes a fork that nothing built names any more. -/
theorem Inv.close (h : s.Inv) (hb : b ∈ s.built)
    (hlast : ∀ b' ∈ s.built.erase b, b'.forkid ≠ b.forkid) {phase : ℕ → ForkPhase}
    (hself : phase b.fork ≠ .opened) (hother : ∀ o, o ≠ b.fork → phase o = s.phase o) :
    Inv { s with
      built := s.built.erase b
      phase
      serverForks := s.serverForks.erase b.forkid } := by
  -- a record still in use is not the one that is closed, and has another number
  have hkeep : ∀ o < s.made, phase o = .opened → s.phase o = .opened ∧ s.forkid o ≠ b.forkid := by
    intro o ho hopen
    have hne : o ≠ b.fork := by
      rintro rfl
      exact hself hopen
    have hopen' : s.phase o = .opened := by rw [← hother o hne, hopen]
    exact ⟨hopen', fun heq => hne (h.owner b hb o ho hopen' heq)⟩
  refine ⟨h.nodup.erase _, ?_, ?_, ?_, ?_⟩
  · intro o ho hopen
    obtain ⟨hopen', hne⟩ := hkeep o ho hopen
    exact (mem_erase_of_ne hne).mpr (h.opened o ho hopen')
  · intro o ho o' ho' hopen hopen'
    exact h.distinct o ho o' ho' (hkeep o ho hopen).1 (hkeep o' ho' hopen').1
  · intro b' hb'
    exact (mem_erase_of_ne (hlast b' hb')).mpr (h.built b' (mem_of_mem_erase hb'))
  · intro b' hb' o ho hopen
    exact h.owner b' (mem_of_mem_erase hb') o ho (hkeep o ho hopen).1

theorem inv_send (h : s.Inv) (hok : s.fresh (.send b) = true)
    (hs : s.step (.send b) = some s') : s'.Inv := by
  simp only [step] at hs
  split at hs
  · next hcond =>
    split at hs
    · next hclose =>
      cases hs
      have hlast : ∀ b' ∈ s.built.erase b, b'.forkid ≠ b.forkid := by
        simpa [fresh, hclose] using hok
      refine h.close hcond.2 hlast ?_ fun o hne => by simp [Forks.setPhase, hne]
      simp only [Forks.setPhase, Function.update_self]
      split
      · decide
      · next hnot => exact hnot
    · cases hs
      exact h.erase b
  · cases hs

/-- **One step that meets the condition keeps the invariant.** -/
theorem inv_step (h : s.Inv) (hs : freshStep s e = some s') : s'.Inv := by
  obtain ⟨hok, hstep⟩ := guarded_eq_some.mp hs
  cases e with
  | openFork n => exact inv_openFork h hstep
  | build c o => exact inv_build h hok hstep
  | send b => exact inv_send h hok hstep
  | abandon b =>
    simp only [step] at hstep
    split at hstep
    · cases hstep
      exact h.erase b
    · cases hstep
  | drop o =>
    simp only [step] at hstep
    split at hstep
    · cases hstep
      exact h.setPhase (by decide)
    · cases hstep
  | lose =>
    cases hstep
    exact ⟨h.nodup, h.opened, h.distinct, h.built, h.owner⟩
  | establish =>
    cases hstep
    -- nothing from the old session is left
    simp only [fresh, Bool.and_eq_true, List.isEmpty_iff, all_eq_true, mem_range, bne_iff_ne] at hok
    obtain ⟨hbuilt, hphase⟩ := hok
    refine ⟨nodup_nil, ?_, h.distinct, ?_, h.owner⟩
    · exact fun o ho hopen => absurd hopen (hphase o ho)
    · intro b hb
      have hb' : b ∈ s.built := hb
      rw [hbuilt] at hb'
      cases hb'

theorem inv_of_reachable (h : Reachable freshStep init s) : s.Inv := h.invariant inv_init inv_step

/-- **A fork number is sent only to the session that gave it out.** In
every run whose steps meet the condition, whatever the threads, losses and
reconnects: a request that is sent carries a number that the server
returned to an FPOpenFork on the present connection and that has not been
closed since. -/
theorem sent_forkid_open (h : Reachable freshStep init s) (hs : s.step (.send b) = some s') :
    b.forkid ∈ s.serverForks := by
  have hmem : b ∈ s.built := by
    simp only [step] at hs
    split at hs
    · next hcond => exact hcond.2
    · cases hs
  exact (inv_of_reachable h).built b hmem

/-- A file is opened, written to and closed, the connection is lost and
another made, and a file is opened there under the same number. -/
def reopened : List ForkEvent :=
  [.openFork 1, .build .write 0, .send ⟨.write, 0, 1⟩, .build .closeFork 0,
    .send ⟨.closeFork, 0, 1⟩, .drop 0, .lose, .establish, .openFork 1, .build .read 1]

theorem sent_forkid_open_reopened :
    ∃ s s', run freshStep init reopened = some s ∧ s.step (.send ⟨.read, 1, 1⟩) = some s' ∧
      1 ∈ s.serverForks := by
  have hsome : (run freshStep init reopened).isSome = true := by decide
  obtain ⟨s, hs⟩ := Option.isSome_iff_exists.mp hsome
  have hsend : ((run freshStep init reopened).bind fun s =>
      s.step (.send ⟨.read, 1, 1⟩)).isSome = true := by decide
  rw [hs, Option.bind_some] at hsend
  obtain ⟨s', hs'⟩ := Option.isSome_iff_exists.mp hsend
  exact ⟨s, s', hs, hs', sent_forkid_open (reachable_of_run hs) hs'⟩

/-- **A write with a number of the session before.** Two files are open on the old
connection; after the loss the send of a write to the second reconnects,
and in the new session its number is not open. -/
theorem write_after_reconnect :
    ∃ s, run step init [.openFork 1, .openFork 2, .lose, .build .write 1, .establish] = some s ∧
      (s.step (.send ⟨.write, 1, 2⟩)).isSome = true ∧ 2 ∉ s.serverForks :=
  ⟨_, rfl, rfl, by decide⟩

end Forks

end NetatalkClient
