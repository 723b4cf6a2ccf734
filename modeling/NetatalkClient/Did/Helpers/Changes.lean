import NetatalkClient.Did.Resolve
/-!
# Directories: what a change of the tree leaves of the cache

A correct entry rests on the directories along its path and on nothing
else. So it stays correct through every change that leaves these in place,
which is every change to an object it does not pass through.
-/

namespace NetatalkClient

open Separated Catalog List

variable {t t' : Catalog} {e : DidCacheEntry} {o d : Object} {did : ℕ} {name : Octets}
variable {refuse : ℤ} {srcDid dstDid : ℕ} {srcPath dstPath newName : Octets}

/-- The names that lead to the directory of an entry. -/
def DidCacheEntry.path (e : DidCacheEntry) : List Octets := names (pieces slash e.dirname)

namespace DidCacheEntry

theorem Correct.exists_object (h : e.Correct t) :
    ∃ o ∈ t.objects, o.path = e.path ∧ o.isdir = true ∧ o.fileid = e.did :=
  dirAt_eq_some.mp h.dirname

/-- No file is on the path of a correct entry. -/
theorem Correct.not_file_prefix (h : e.Correct t) (ho : o ∈ t.objects) (hfile : o.isdir = false) :
    ¬ o.path <+: e.path := fun hpre => not_throughFile_of_dirAt h.dirname ⟨o, ho, hfile, hpre⟩

/-- **What an entry rests on.** It is correct for any tree that still has
the objects along its path. -/
theorem Correct.of_kept (h : e.Correct t)
    (hkept : ∀ q ∈ t.objects, q.path <+: e.path → q ∈ t'.objects) : e.Correct t' := by
  obtain ⟨o, ho, hpath, hdir, hid⟩ := h.exists_object
  have ho' : o ∈ t'.objects := hkept o ho (hpath ▸ prefix_rfl)
  refine ⟨dirAt_eq_some.mpr ⟨o, ho', hpath, hdir, hid⟩, ?_⟩
  -- the parent is the object's directory, so it is on the path as well
  have hchild := h.child
  rw [getfiledirparms] at hchild
  cases haddr : t.addressed e.parentdid e.name with
  | none =>
    rw [haddr] at hchild
    cases hchild
  | some q =>
    simp only [haddr, Except.ok.injEq, FileInfo.mk.injEq] at hchild
    have hq : q = o := eq_of_fileid_eq (t.mem_of_addressed haddr) ho (hchild.1.trans hid.symm)
    subst hq
    obtain ⟨p, hp, hat⟩ := Option.bind_eq_some_iff.mp haddr
    obtain ⟨hpmem, hpid, hpdir⟩ := t.directory_eq_some hp
    have hqpath := (objectAt_eq_some.mp hat).2
    have hpre : p.path <+: e.path := by
      rw [← hpath, hqpath, names_append, names_path hpmem]
      exact prefix_append _ _
    have hdirectory : t'.directory e.parentdid = some p :=
      hpid ▸ directory_of_mem (hkept p hpmem hpre) hpdir
    have haddr' : t'.addressed e.parentdid e.name = some q := by
      rw [addressed, hdirectory, Option.bind_some]
      exact objectAt_eq_some.mpr ⟨ho', hqpath⟩
    simp only [getfiledirparms, haddr', hdir, hid]

end DidCacheEntry

namespace Catalog

/-- The walk down ends in a directory at or below the one it starts in. -/
theorem exists_dirAt_of_descend {cs pre : List Octets} {did did' : ℕ}
    (hd : t.dirAt pre = some did) (h : t.descend did cs = .ok did') :
    ∃ ds, t.dirAt (pre ++ ds) = some did' := by
  induction cs generalizing pre did with
  | nil =>
    cases h
    exact ⟨[], by rwa [append_nil]⟩
  | cons c cs ih =>
    rw [descend] at h
    cases hgot : t.getfiledirparms did c with
    | error ret =>
      rw [hgot] at h
      cases h
    | ok fi =>
      simp only [hgot] at h
      split at h
      · next hdir =>
        obtain ⟨ds, hds⟩ := ih (dirAt_of_getfiledirparms hd hgot hdir) h
        exact ⟨c :: ds, by simpa using hds⟩
      · cases h
        exact ⟨[], by rwa [append_nil]⟩

/-- What a name addresses is at or below the directory it is looked up in. -/
theorem prefix_of_addressed (hd : t.directory did = some d) (ho : t.addressed did name = some o) :
    d.path <+: o.path := by
  rw [addressed, hd, Option.bind_some] at ho
  rw [(objectAt_eq_some.mp ho).2, names_append, names_path (t.directory_eq_some hd).1]
  exact prefix_append _ _

/-! ## What the requests do -/

theorem createdir_kept {newid : ℕ} {q : Object} (hq : q ∈ t.objects) :
    q ∈ (t.createdir refuse newid did name).2.objects := by
  unfold createdir
  split
  · exact hq
  split
  · exact hq
  split
  · split
    · split
      · exact mem_cons_of_mem _ hq
      · exact hq
    · exact hq
  · exact hq

/-- A deletion removes the object it addresses, or changes nothing. -/
theorem delete_cases (t : Catalog) (refuse : ℤ) (did : ℕ) (name : Octets) :
    (t.delete refuse did name).2 = t ∨
      ∃ o, t.addressed did name = some o ∧ (t.delete refuse did name).1 = 0 ∧
        (t.delete refuse did name).2.objects = t.objects.filter fun q => q ≠ o := by
  unfold delete
  split
  · exact .inl rfl
  split
  · exact .inl rfl
  · next o ho =>
    split
    · split
      · exact .inr ⟨o, ho, rfl, rfl⟩
      · exact .inl rfl
    · exact .inl rfl

/-- What has something below it is not deleted. -/
theorem delete_of_nonempty (ho : t.addressed did name = some o) {q : Object} (hq : q ∈ t.objects)
    (hne : q ≠ o) (hpre : o.path <+: q.path) : (t.delete refuse did name).2 = t := by
  unfold delete
  split
  · rfl
  · rw [ho]
    dsimp only
    split
    · rw [dif_neg (fun hleaf => hleaf q hq hne hpre)]
    · rfl

/-- What a move does: everything at or below the object it addresses gets
a new path, or nothing changes. In the first case nothing was at the new
path; and if the answer is that something is, it is in the directory the
object was to move into. -/
theorem moveandrename_cases (t : Catalog) (refuse : ℤ) (srcDid dstDid : ℕ)
    (srcPath dstPath newName : Octets) :
    ((t.moveandrename refuse srcDid dstDid srcPath dstPath newName).2 = t ∧
      ((t.moveandrename refuse srcDid dstDid srcPath dstPath newName).1 = kFPObjectExists →
        ∃ o d, t.addressed srcDid srcPath = some o ∧ t.addressed dstDid dstPath = some d ∧
          ¬ o.path <+: d.path ∧ ∃ q ∈ t.objects, q ≠ d ∧ d.path <+: q.path)) ∨
      ∃ o d, t.addressed srcDid srcPath = some o ∧ t.addressed dstDid dstPath = some d ∧
        ¬ o.path <+: d.path ∧
        (t.moveandrename refuse srcDid dstDid srcPath dstPath newName).1 = 0 ∧
        ∀ q ∈ t.objects, ¬ o.path <+: q.path →
          q ∈ (t.moveandrename refuse srcDid dstDid srcPath dstPath newName).2.objects := by
  unfold moveandrename
  split
  · next href =>
    refine .inl ⟨rfl, fun hexists => ?_⟩
    simp [refused, show refuse = kFPObjectExists from hexists] at href
  split
  · exact .inl ⟨rfl, fun h => by cases h⟩
  · exact .inl ⟨rfl, fun h => by cases h⟩
  · next o d ho hd =>
    generalize (if newName = [] then o.path.getLastD [] else newName) = name
    dsimp only
    split
    · split
      · next hroot =>
        split
        · exact .inl ⟨rfl, fun h => by cases h⟩
        · split
          · split
            · -- the move takes place
              refine .inr ⟨o, d, ho, hd, hroot.2, rfl, fun q hq hout => ?_⟩
              refine mem_map.mpr ⟨q, hq, ?_⟩
              rw [rebase_outside hout]
            · next hnew =>
              refine .inl ⟨rfl, fun _ => ⟨o, d, ho, hd, hroot.2, ?_⟩⟩
              push Not at hnew
              obtain ⟨q, hq, hpre⟩ := hnew
              refine ⟨q, hq, ?_, (prefix_append _ _).trans hpre⟩
              rintro rfl
              have hlen := hpre.length_le
              rw [length_append, length_singleton] at hlen
              omega
          · exact .inl ⟨rfl, fun h => by cases h⟩
      · exact .inl ⟨rfl, fun h => by cases h⟩
    · exact .inl ⟨rfl, fun h => by cases h⟩

/-- A directory does not move into itself. -/
theorem moveandrename_inside (ho : t.addressed srcDid srcPath = some o)
    (hin : ∀ d, t.addressed dstDid dstPath = some d → o.path <+: d.path)
    (refuse : ℤ) (newName : Octets) :
    (t.moveandrename refuse srcDid dstDid srcPath dstPath newName).2 = t ∧
      (t.moveandrename refuse srcDid dstDid srcPath dstPath newName).1 ≠ kFPObjectExists := by
  rcases moveandrename_cases t refuse srcDid dstDid srcPath dstPath newName with
    ⟨hsame, hexists⟩ | ⟨o', d, ho', hd, hout, -, -⟩
  · refine ⟨hsame, fun hrc => ?_⟩
    obtain ⟨o', d, ho', hd, hout, -⟩ := hexists hrc
    cases ho.symm.trans ho'
    exact hout (hin d hd)
  · cases ho.symm.trans ho'
    exact absurd (hin d hd) hout

/-- A directory is not exchanged. -/
theorem exchangefiles_eq_zero (h : t.exchangefiles refuse srcDid dstDid srcPath dstPath = 0)
    (ho : t.addressed srcDid srcPath = some o) : o.isdir = false := by
  unfold exchangefiles at h
  split at h
  · next href =>
    simp [refused, h] at href
  · rw [ho] at h
    split at h
    · next o' d ho' hd =>
      cases ho'
      split at h
      · cases h
      · next hfile => simpa using fun h => hfile (.inl h)
    · cases h

/-- A smaller tree addresses no other objects. -/
theorem addressed_of_subset (h : t'.objects ⊆ t.objects) (ho : t'.addressed did name = some o) :
    t.addressed did name = some o := by
  obtain ⟨p, hp, hat⟩ := Option.bind_eq_some_iff.mp ho
  obtain ⟨hpmem, rfl, hpdir⟩ := t'.directory_eq_some hp
  obtain ⟨hmem, hpath⟩ := objectAt_eq_some.mp hat
  rw [addressed, directory_of_mem (h hpmem) hpdir, Option.bind_some]
  exact objectAt_eq_some.mpr ⟨h hmem, hpath⟩

end Catalog

namespace DidCacheEntry

theorem Correct.createdir (h : e.Correct t) (newid : ℕ) :
    e.Correct (t.createdir refuse newid did name).2 := h.of_kept fun _ hq _ => createdir_kept hq

/-- An entry survives the deletion of anything but a directory on its
path. -/
theorem Correct.delete (h : e.Correct t)
    (hout : ∀ o, t.addressed did name = some o → o.isdir = true → ¬ o.path <+: e.path) :
    e.Correct (t.delete refuse did name).2 := by
  rcases delete_cases t refuse did name with heq | ⟨o, ho, -, hobjects⟩
  · rwa [heq]
  · refine h.of_kept fun q hq hpre => ?_
    rw [hobjects]
    refine mem_filter.mpr ⟨hq, decide_eq_true ?_⟩
    rintro rfl
    cases hdir : q.isdir with
    | true => exact hout q ho hdir hpre
    | false => exact h.not_file_prefix hq hdir hpre

/-- An entry survives the move of anything but a directory on its path. -/
theorem Correct.moveandrename (h : e.Correct t)
    (hout : ∀ o, t.addressed srcDid srcPath = some o → o.isdir = true → ¬ o.path <+: e.path) :
    e.Correct (t.moveandrename refuse srcDid dstDid srcPath dstPath newName).2 := by
  rcases moveandrename_cases t refuse srcDid dstDid srcPath dstPath newName with
    ⟨heq, -⟩ | ⟨o, d, ho, -, -, -, hkept⟩
  · rwa [heq]
  · have hoe : ¬ o.path <+: e.path := by
      cases hdir : o.isdir with
      | true => exact hout o ho hdir
      | false => exact h.not_file_prefix (t.mem_of_addressed ho) hdir
    exact h.of_kept fun q hq hpre => hkept q hq fun hoq => hoe (hoq.trans hpre)

end DidCacheEntry

end NetatalkClient
