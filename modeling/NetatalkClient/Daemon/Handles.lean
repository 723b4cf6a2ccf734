import NetatalkClient.Daemon.Model.Handles
/-!
# What a file handle names

A READ, WRITE or CLOSE gives a volume and a handle. The handle is looked
up in one table for all volumes, and the volume is not compared with the
one the handle was opened on; and a detach frees the records of a volume
without a look at the table. `Careful` is what a request must meet for
neither to matter. Along runs of such requests the table and the records
stay in correspondence (`Inv`), so a handle finds the fork that was opened
under it.
-/

namespace NetatalkClient

open List Function Machine Option

namespace Handles

variable {s : Handles} {e : FileRequest} {v h f : ℕ} {lookup : Lookup} {ret : ℤ}

/-- An OPEN on `v` returned `h` for the fork `f`, which has not been
closed and whose volume has not been detached since. -/
def Names (s : Handles) (v h f : ℕ) : Prop :=
  f < s.made ∧ (s.fork f).volume = v ∧ (s.fork f).handle = h ∧ (s.fork f).ended = false

/-- Every entry of the table is a fork that is still open. -/
def Sound (s : Handles) : Prop :=
  ∀ h f, s.table h = some f → (s.fork f).ended = false ∧ (s.fork f).freed = false

/-- The volume and the handle that a READ, WRITE or CLOSE gives. -/
def target : FileRequest → Option (ℕ × ℕ)
  | .openFile _ _ _ => none
  | .read volume fileid _ _ _ => some (volume, fileid)
  | .write volume fileid _ _ _ _ => some (volume, fileid)
  | .close volume fileid _ _ => some (volume, fileid)
  | .detach _ _ => none

/-- A request acts on a fork only that its volume and handle name, and if
they name none it is answered with an error and acts on none. -/
def ActsRight (s : Handles) (e : FileRequest) : Prop :=
  ∀ v h, target e = some (v, h) →
    (∀ f ∈ (s.handle e).2.touched, s.Names v h f) ∧
      ((∀ f, ¬ s.Names v h f) →
        ∃ r, (s.handle e).2.result = some r ∧ r ≠ 0 ∧ (s.handle e).2.touched = [])

/-- The volume on which the fork under a handle was opened. -/
def handleVolume (s : Handles) (h : ℕ) : Option ℕ :=
  (s.getFileHandle h).map fun f => (s.fork f).volume

/-- The handle is empty, or was opened on the volume. -/
def Agrees (s : Handles) (v h : ℕ) : Prop :=
  s.handleVolume h = none ∨ s.handleVolume h = some v

instance (s : Handles) (v h : ℕ) : Decidable (s.Agrees v h) :=
  inferInstanceAs (Decidable (_ ∨ _))

/-- What a request must meet: one that gets to the table gives a handle
that is empty or was opened on its volume, a READ has memory for its
answer unless it is for a handle of its volume, and a volume is detached
with no handle on it. -/
def Careful (s : Handles) : FileRequest → Prop
  | .openFile _ _ _ => True
  | .read volume fileid lookup memory _ =>
      if memory then lookup = .held → s.Agrees volume fileid
      else s.handleVolume fileid = some volume
  | .write volume fileid lookup memory data _ =>
      lookup = .held → memory = true → data = true → s.Agrees volume fileid
  | .close volume fileid lookup _ => lookup = .held → s.Agrees volume fileid
  | .detach volume found =>
      found = true → s.attached volume = true → ∀ h < maxOpenFiles, s.handleVolume h ≠ some volume

instance (s : Handles) (e : FileRequest) : Decidable (s.Careful e) := by
  unfold Careful
  split <;> infer_instance

/-! ## The table and the records -/

/-- The table and the records are in correspondence, and a record is
listed where it was opened. -/
structure Inv (s : Handles) : Prop where
  entry : ∀ h f, s.table h = some f → 0 < h ∧ h < maxOpenFiles ∧ f < s.made ∧
    (s.fork f).handle = h ∧ (s.fork f).ended = false ∧ (s.fork f).freed = false
  named : ∀ f < s.made, (s.fork f).ended = false → s.table (s.fork f).handle = some f
  listed : ∀ v, ∀ f ∈ s.openForks v, f < s.made ∧ (s.fork f).volume = v

theorem Inv.sound (hs : Inv s) : s.Sound := fun h f hf =>
  ⟨(hs.entry h f hf).2.2.2.2.1, (hs.entry h f hf).2.2.2.2.2⟩

theorem Inv.getFileHandle_eq (hs : Inv s) (h : ℕ) : s.getFileHandle h = s.table h := by
  unfold getFileHandle
  split
  · next hrange =>
    cases hf : s.table h with
    | none => rfl
    | some f =>
      obtain ⟨hpos, hlt, -⟩ := hs.entry h f hf
      omega
  · rfl

/-- What a handle of a volume names is what the table has under it. -/
theorem Inv.names_iff (hs : Inv s) :
    s.Names v h f ↔ s.getFileHandle h = some f ∧ (s.fork f).volume = v := by
  rw [hs.getFileHandle_eq]
  constructor
  · rintro ⟨hf, hvol, hhandle, hopen⟩
    exact ⟨hhandle ▸ hs.named f hf hopen, hvol⟩
  · rintro ⟨hf, hvol⟩
    obtain ⟨-, -, hmade, hhandle, hopen, -⟩ := hs.entry h f hf
    exact ⟨hmade, hvol, hhandle, hopen⟩

theorem Inv.exists_names_iff (hs : Inv s) : (∃ f, s.Names v h f) ↔ s.handleVolume h = some v := by
  simp only [hs.names_iff, handleVolume, map_eq_some_iff]

/-- A handle that agrees with the volume is found in the table exactly
where it names a fork. -/
theorem Inv.agrees_iff (hs : Inv s) :
    s.Agrees v h ↔ ∀ f, s.getFileHandle h = some f → s.Names v h f := by
  unfold Agrees handleVolume
  cases hf : s.getFileHandle h with
  | none => simp
  | some f => simp [hs.names_iff, hf]

/-! ## Each request -/

theorem lookup_result_ne (h : lookup ≠ .held) : lookup.result ≠ 0 := by
  cases lookup with
  | malformed => decide
  | notFound => decide
  | notConnected => decide
  | held => exact absurd rfl h

/-- A request that was answered with an error, without an operation. -/
theorem actsRight_refused {r : ℤ} (h : (s.handle e).2 = refused r) (hr : r ≠ 0) :
    s.ActsRight e := by
  intro v fileid _
  rw [h]
  exact ⟨by simp [refused], fun _ => ⟨r, rfl, hr, rfl⟩⟩

/-- A request that acted on what the table has under its handle acted
right exactly when the handle agrees with the volume. -/
theorem actsRight_touched (hs : Inv s) (ht : target e = some (v, h))
    (hf : s.getFileHandle h = some f) (htouched : (s.handle e).2.touched = [f]) :
    s.ActsRight e ↔ s.Agrees v h := by
  rw [hs.agrees_iff, hf]
  constructor
  · intro hact f' hf'
    cases hf'
    exact (hact v h ht).1 f (by simp [htouched])
  · intro hagree v' h' ht'
    rw [ht] at ht'
    cases ht'
    have hname := hagree f rfl
    refine ⟨by simpa [htouched] using hname, fun hno => absurd hname (hno f)⟩

/-- A READ or WRITE past its checks, where `reply` is the operation on the
fork under the handle. -/
theorem actsRight_getFileHandle (hs : Inv s) (ht : target e = some (v, h))
    (hnone : s.getFileHandle h = none → (s.handle e).2 = refused afpslIpcResultError)
    (hsome : ∀ f, s.getFileHandle h = some f → (s.handle e).2.touched = [f]) :
    s.ActsRight e ↔ s.Agrees v h := by
  cases hf : s.getFileHandle h with
  | none =>
    refine iff_of_true (actsRight_refused (hnone hf) (by decide)) (.inl ?_)
    rw [handleVolume, hf, map_none]
  | some f => exact actsRight_touched hs ht hf (hsome f hf)

theorem actsRight_read_iff (hs : Inv s) {memory : Bool} :
    s.ActsRight (.read v h lookup memory ret) ↔ s.Careful (.read v h lookup memory ret) := by
  have ht : target (.read v h lookup memory ret) = some (v, h) := rfl
  cases memory with
  | false =>
    -- nothing is answered, so the handle has to name a fork
    simp only [Careful, Bool.false_eq_true, if_false, ← hs.exists_names_iff]
    constructor
    · intro hact
      by_contra hno
      obtain ⟨r, hr, -⟩ := (hact v h ht).2 (fun f hf => hno ⟨f, hf⟩)
      cases hr
    · rintro ⟨f, hname⟩ v' h' ht'
      rw [ht] at ht'
      cases ht'
      exact ⟨by simp [handle, processRead], fun hno => absurd hname (hno f)⟩
  | true =>
    simp only [Careful, if_true]
    by_cases hheld : lookup = .held
    · simp only [hheld, true_imp_iff]
      refine actsRight_getFileHandle hs rfl (fun hf => ?_) (fun f hf => ?_)
      · simp [handle, processRead, hf]
      · simp [handle, processRead, hf]
    · refine iff_of_true (actsRight_refused ?_ (lookup_result_ne hheld)) (absurd · hheld)
      simp [handle, processRead, hheld]

theorem actsRight_write_iff (hs : Inv s) {memory data : Bool} :
    s.ActsRight (.write v h lookup memory data ret) ↔
      s.Careful (.write v h lookup memory data ret) := by
  by_cases hheld : lookup = .held ∧ memory = true ∧ data = true
  · obtain ⟨rfl, rfl, rfl⟩ := hheld
    simp only [Careful, true_imp_iff]
    refine actsRight_getFileHandle hs rfl (fun hf => ?_) (fun f hf => ?_)
    · simp [handle, processWrite, hf]
    · simp [handle, processWrite, hf]
  · refine iff_of_true ?_ (fun h₁ h₂ h₃ => absurd ⟨h₁, h₂, h₃⟩ hheld)
    by_cases h₁ : lookup = .held
    · refine actsRight_refused (r := afpslIpcResultError) ?_ (by decide)
      by_cases h₂ : memory = true
      · have h₃ : data = false := by simpa [h₁, h₂] using hheld
        simp [handle, processWrite, h₁, h₂, h₃]
      · simp [handle, processWrite, h₁, h₂]
    · refine actsRight_refused ?_ (lookup_result_ne h₁)
      simp [handle, processWrite, h₁]

theorem actsRight_close_iff (hs : Inv s) :
    s.ActsRight (.close v h lookup ret) ↔ s.Careful (.close v h lookup ret) := by
  by_cases hheld : lookup = .held
  · simp only [Careful, hheld, true_imp_iff]
    refine actsRight_getFileHandle hs rfl (fun hf => ?_) (fun f hf => ?_)
    · simp [handle, processClose, hf]
    · simp [handle, processClose, hf]
  · refine iff_of_true (actsRight_refused ?_ (lookup_result_ne hheld)) (absurd · hheld)
    simp [handle, processClose, hheld]

/-! ## The correspondence is kept -/

theorem inv_init (attached : ℕ → Bool) : Inv (init attached) where
  entry := by rintro h f ⟨⟩
  named := by
    intro f hf
    exact absurd hf (Nat.not_lt_zero f)
  listed := by
    intro v f hf
    cases hf

/-- A new record keeps the correspondence: it is ended and not in the
table, or it is under a handle of its own. -/
theorem Inv.grown {s' : Handles} (hs : Inv s) (hmade : s'.made = s.made + 1)
    (hold : ∀ f < s.made, s'.fork f = s.fork f)
    (htable : ∀ h f, s'.table h = some f ↔ s.table h = some f ∨
      f = s.made ∧ (s'.fork s.made).ended = false ∧ h = (s'.fork s.made).handle)
    (hnew : (s'.fork s.made).ended = false → 0 < (s'.fork s.made).handle ∧
      (s'.fork s.made).handle < maxOpenFiles ∧ (s'.fork s.made).freed = false)
    (hlisted : ∀ v, ∀ f ∈ s'.openForks v,
      f ∈ s.openForks v ∨ f = s.made ∧ (s'.fork s.made).volume = v) : Inv s' where
  entry := by
    intro h f hf
    rcases (htable h f).mp hf with hf | ⟨rfl, hopen, rfl⟩
    · obtain ⟨hpos, hlt, hlt', hrest⟩ := hs.entry h f hf
      rw [hold f hlt']
      exact ⟨hpos, hlt, by omega, hrest⟩
    · obtain ⟨hpos, hlt, hfreed⟩ := hnew hopen
      exact ⟨hpos, hlt, by omega, rfl, hopen, hfreed⟩
  named := by
    intro f hf hopen
    rw [htable]
    rcases Nat.lt_or_eq_of_le (Nat.le_of_lt_succ (hmade ▸ hf)) with hlt | rfl
    · rw [hold f hlt] at hopen ⊢
      exact .inl (hs.named f hlt hopen)
    · exact .inr ⟨rfl, hopen, rfl⟩
  listed := by
    intro v f hf
    rcases hlisted v f hf with hf | ⟨rfl, hvol⟩
    · obtain ⟨hlt, hvol⟩ := hs.listed v f hf
      rw [hold f hlt]
      exact ⟨by omega, hvol⟩
    · exact ⟨by omega, hvol⟩

@[simp]
theorem make_fork_made (r : Fork) (listed : Bool) : (s.make r listed).fork s.made = r := by
  simp [make]

theorem make_fork_of_lt (r : Fork) (listed : Bool) (hf : f < s.made) :
    (s.make r listed).fork f = s.fork f := update_of_ne (Nat.ne_of_lt hf) _ _

theorem mem_make_openForks {r : Fork} {listed : Bool} (hf : f ∈ (s.make r listed).openForks v) :
    f ∈ s.openForks v ∨ f = s.made ∧ r.volume = v := by
  cases listed with
  | false => exact .inl hf
  | true =>
    by_cases hv : r.volume = v
    · subst hv
      simp only [make, if_true, update_self, mem_cons] at hf
      exact hf.symm.imp_right fun h => ⟨h, rfl⟩
    · simp only [make, if_true, update_of_ne (Ne.symm hv)] at hf
      exact .inl hf

theorem mem_of_mem_closeFork {f' v' : ℕ} (hf : f' ∈ (s.closeFork v f).openForks v') :
    f' ∈ s.openForks v' := by
  by_cases hv : v' = v
  · subst hv
    simp only [closeFork, update_self] at hf
    exact mem_of_mem_erase hf
  · simpa only [closeFork, update_of_ne hv] using hf

/-- A handle that is given out is free, and in the table. -/
theorem registerFileHandle_spec (h : s.registerFileHandle ≠ 0) :
    s.registerFileHandle < maxOpenFiles ∧ s.table s.registerFileHandle = none := by
  unfold registerFileHandle at h ⊢
  cases hfind : (List.range' 1 (maxOpenFiles - 1)).find? fun i => (s.table i).isNone with
  | none =>
    rw [hfind] at h
    exact absurd rfl h
  | some i =>
    have hmem := mem_of_find?_eq_some hfind
    have hfree := find?_some hfind
    rw [mem_range'_1] at hmem
    refine ⟨?_, by simpa using hfree⟩
    simp only [getD_some, maxOpenFiles] at hmem ⊢
    omega

theorem inv_open (hs : Inv s) (lookup : Lookup) (outcome : OpenEnd) :
    Inv (s.processOpen v lookup outcome).1 := by
  unfold processOpen
  split
  · exact hs
  · match outcome with
    | .failed ret => exact hs
    | .truncateFailed ret =>
      refine hs.grown rfl (fun f hf => make_fork_of_lt _ _ hf) (fun h f => ?_) (fun hopen => ?_)
        (fun v' f hf => ?_)
      · simp [make]
      · simp at hopen
      · simpa using mem_make_openForks hf
    | .opened listed =>
      dsimp only
      split
      · -- the table is full: the new record is closed again
        refine hs.grown rfl (fun f hf => ?_) (fun h f => ?_) (fun hopen => ?_) (fun v' f hf => ?_)
        · exact (update_of_ne (Nat.ne_of_lt hf) _ _).trans (make_fork_of_lt _ _ hf)
        · simp [make, closeFork]
        · simp [closeFork] at hopen
        · simpa [closeFork] using mem_make_openForks (mem_of_mem_closeFork hf)
      · next hhandle =>
        obtain ⟨hlt, hfree⟩ := registerFileHandle_spec hhandle
        refine hs.grown rfl (fun f hf => make_fork_of_lt _ listed hf) (fun h f => ?_)
          (fun hopen => ?_) (fun v' f hf => ?_)
        · simp only [make_fork_made, true_and]
          by_cases hh : h = s.registerFileHandle
          · simp [hh, hfree, eq_comm]
          · simp [hh, make]
        · simp only [make_fork_made]
          exact ⟨by omega, hlt, trivial⟩
        · simpa using mem_make_openForks hf

/-- Closing the fork under a handle and emptying the handle keeps the
correspondence, on whatever volume the CLOSE was. -/
theorem inv_close (hs : Inv s) (lookup : Lookup) (ret : ℤ) :
    Inv (s.processClose v h lookup ret).1 := by
  unfold processClose
  split
  · exact hs
  · split
    · exact hs
    · next f hf =>
      rw [hs.getFileHandle_eq] at hf
      obtain ⟨hpos, hlt, hmade, hhandle, -, -⟩ := hs.entry h f hf
      -- no other entry is this fork, since its record has one handle
      have hother : ∀ h' f', h' ≠ h → s.table h' = some f' → f' ≠ f := by
        rintro h' f' hne hf' rfl
        exact hne ((hs.entry h' f' hf').2.2.2.1.symm.trans hhandle)
      rw [releaseFileHandle, if_neg (by omega)]
      refine ⟨fun h' f' hf' => ?_, fun f' hf' hopen => ?_, fun v' f' hf' => ?_⟩
      · by_cases hh : h' = h
        · simp [hh] at hf'
        · simp only [update_of_ne hh] at hf'
          have hne := hother h' f' hh hf'
          simp only [closeFork, update_of_ne hne]
          exact hs.entry h' f' hf'
      · by_cases hff : f' = f
        · simp [hff, closeFork] at hopen
        · simp only [closeFork, update_of_ne hff] at hopen ⊢
          have hentry := hs.named f' hf' hopen
          rw [update_of_ne]
          · exact hentry
          · intro hh
            rw [hh, hf] at hentry
            exact hff (some.inj hentry).symm
      · obtain ⟨hlt', hvol⟩ := hs.listed v' f' (mem_of_mem_closeFork hf')
        refine ⟨hlt', ?_⟩
        by_cases hff : f' = f
        · subst hff
          simpa [closeFork] using hvol
        · simpa [closeFork, update_of_ne hff] using hvol

/-- A detach keeps the correspondence where no handle is on the volume. -/
theorem inv_afpDetachVolume (hs : Inv s) (hno : ∀ h < maxOpenFiles, s.handleVolume h ≠ some v) :
    Inv (s.afpDetachVolume v) := by
  have hvol : ∀ h f, s.table h = some f → (s.fork f).volume ≠ v := by
    intro h f hf heq
    refine hno h (hs.entry h f hf).2.1 ?_
    rw [handleVolume, hs.getFileHandle_eq, hf, map_some, heq]
  refine ⟨fun h f hf => ?_, fun f hf hopen => ?_, fun v' f hf => ?_⟩
  · obtain ⟨hpos, hlt, hmade, hhandle, hopen, hfreed⟩ := hs.entry h f hf
    have hne := hvol h f hf
    have hnot : f ∉ s.openForks v := fun hmem => hne (hs.listed v f hmem).2
    refine ⟨hpos, hlt, hmade, hhandle, ?_, ?_⟩
    · simp [afpDetachVolume, hopen, hne]
    · simp [afpDetachVolume, hfreed, hnot]
  · have hopen' : (s.fork f).ended = false := by
      simp only [afpDetachVolume, Bool.or_eq_false_iff] at hopen
      exact hopen.1
    exact hs.named f hf hopen'
  · by_cases hv : v' = v
    · subst hv
      simp [afpDetachVolume] at hf
    · simp only [afpDetachVolume, update_of_ne hv] at hf
      exact hs.listed v' f hf

/-- A detach with a handle on the volume leaves a fork in the table that
is not open. -/
theorem not_sound_afpDetachVolume (hs : Inv s) (hon : s.handleVolume h = some v) :
    ¬ (s.afpDetachVolume v).Sound := by
  intro hsound
  obtain ⟨f, hf, hvol⟩ := map_eq_some_iff.mp hon
  rw [hs.getFileHandle_eq] at hf
  have hopen := (hsound h f hf).1
  simp [afpDetachVolume, hvol] at hopen

theorem inv_step (hs : Inv s) (hcare : s.Careful e) : Inv (s.handle e).1 := by
  cases e with
  | openFile volume lookup outcome => exact inv_open hs lookup outcome
  | read volume fileid lookup memory ret => exact hs
  | write volume fileid lookup memory data ret => exact hs
  | close volume fileid lookup ret => exact inv_close hs lookup ret
  | detach volume found =>
    simp only [handle, processDetach]
    split
    · exact hs
    · next hfound =>
      split
      · exact hs
      · next hatt =>
        exact inv_afpDetachVolume hs (hcare (by simpa using hfound) (by simpa using hatt))

/-- **The step lemma.** A request leaves every entry open and acts right
exactly when it is careful. -/
theorem sound_and_actsRight_iff (hs : Inv s) (e : FileRequest) :
    (s.handle e).1.Sound ∧ s.ActsRight e ↔ s.Careful e := by
  cases e with
  | openFile volume lookup outcome =>
    refine iff_of_true ⟨(inv_open hs lookup outcome).sound, ?_⟩ trivial
    rintro v h ⟨⟩
  | read volume fileid lookup memory ret =>
    rw [← actsRight_read_iff hs]
    exact and_iff_right hs.sound
  | write volume fileid lookup memory data ret =>
    rw [← actsRight_write_iff hs]
    exact and_iff_right hs.sound
  | close volume fileid lookup ret =>
    rw [← actsRight_close_iff hs]
    exact and_iff_right (inv_close hs lookup ret).sound
  | detach volume found =>
    have hact : s.ActsRight (.detach volume found) := by rintro v h ⟨⟩
    refine (and_iff_left hact).trans ⟨fun hsound => ?_, fun hcare => (inv_step hs hcare).sound⟩
    intro hfound hatt h _ hon
    rw [handle, processDetach, hfound, hatt] at hsound
    exact not_sound_afpDetachVolume hs hon hsound

end Handles

end NetatalkClient
