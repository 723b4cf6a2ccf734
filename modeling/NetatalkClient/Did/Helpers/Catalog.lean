import NetatalkClient.Did.Model.Catalog
/-!
# Directories: lookups in the server's tree

Paths and IDs both determine an object, so a walk by directory IDs, one
name at a time, follows the path (`addressed_of_dirAt`). `descend` is that
walk, with the stop at a file that `get_dirid` makes.
-/

namespace NetatalkClient

open Separated List

variable {cs ds : List Octets} {c : Octets}

theorem names_append : names (cs ++ ds) = names cs ++ names ds := filter_append _ _

theorem names_prefix_append : names cs <+: names (cs ++ ds) := by
  rw [names_append]
  exact prefix_append _ _

@[simp] theorem names_names : names (names cs) = names cs := by
  simp [names, filter_filter]

theorem names_concat_names : names (names cs ++ [c]) = names (cs ++ [c]) := by
  simp [names_append]

namespace Catalog

variable {t : Catalog} {d d' : ℕ} {o : Object}

theorem names_path (ho : o ∈ t.objects) : names o.path = o.path :=
  filter_eq_self.mpr fun c hc => decide_eq_true (t.plain o ho c hc).1

theorem eq_of_path_eq {q : Object} (ho : o ∈ t.objects) (hq : q ∈ t.objects)
    (h : o.path = q.path) : o = q := inj_on_of_nodup_map t.paths ho hq h

theorem eq_of_fileid_eq {q : Object} (ho : o ∈ t.objects) (hq : q ∈ t.objects)
    (h : o.fileid = q.fileid) : o = q := inj_on_of_nodup_map t.ids ho hq h

theorem objectAt_eq_some : t.objectAt cs = some o ↔ o ∈ t.objects ∧ o.path = names cs := by
  constructor
  · intro h
    exact ⟨mem_of_find?_eq_some h, by simpa using find?_some h⟩
  · rintro ⟨ho, hpath⟩
    obtain ⟨q, hq⟩ : ∃ q, t.objectAt cs = some q := by
      rw [← Option.isSome_iff_exists]
      exact find?_isSome.mpr ⟨o, ho, decide_eq_true hpath⟩
    have hqpath : q.path = names cs := by simpa using find?_some hq
    rw [hq, eq_of_path_eq (mem_of_find?_eq_some hq) ho (hqpath.trans hpath.symm)]

theorem directory_of_mem (ho : o ∈ t.objects) (hdir : o.isdir = true) :
    t.directory o.fileid = some o := by
  obtain ⟨q, hq⟩ : ∃ q, t.directory o.fileid = some q := by
    rw [← Option.isSome_iff_exists]
    exact find?_isSome.mpr ⟨o, ho, by simp [hdir]⟩
  obtain ⟨hmem, hid, -⟩ := t.directory_eq_some hq
  rw [hq, eq_of_fileid_eq hmem ho hid]

theorem dirAt_eq_some :
    t.dirAt cs = some d ↔ ∃ o ∈ t.objects, o.path = names cs ∧ o.isdir = true ∧ o.fileid = d := by
  rw [dirAt, Option.bind_eq_some_iff]
  constructor
  · rintro ⟨o, ho, hd⟩
    obtain ⟨hmem, hpath⟩ := objectAt_eq_some.mp ho
    split at hd
    · next hdir => exact ⟨o, hmem, hpath, hdir, Option.some.inj hd⟩
    · cases hd
  · rintro ⟨o, hmem, hpath, hdir, hid⟩
    exact ⟨o, objectAt_eq_some.mpr ⟨hmem, hpath⟩, by rw [if_pos hdir, hid]⟩

@[simp] theorem dirAt_nil : t.dirAt [] = some afpRootDid :=
  dirAt_eq_some.mpr ⟨_, t.root, rfl, rfl, rfl⟩

theorem dirAt_congr (h : names cs = names ds) : t.dirAt cs = t.dirAt ds := by
  simp only [dirAt, objectAt, h]

/-- **A name looked up in a directory is the next one on its path.** -/
theorem addressed_of_dirAt (h : t.dirAt cs = some d) :
    t.addressed d c = t.objectAt (cs ++ [c]) := by
  obtain ⟨o, ho, hpath, hdir, rfl⟩ := dirAt_eq_some.mp h
  rw [addressed, directory_of_mem ho hdir, Option.bind_some, hpath]
  simp only [objectAt, names_concat_names]

theorem getfiledirparms_of_dirAt (h : t.dirAt (cs ++ [c]) = some d') (hd : t.dirAt cs = some d) :
    t.getfiledirparms d c = .ok ⟨d', true⟩ := by
  obtain ⟨o, ho, hpath, hdir, rfl⟩ := dirAt_eq_some.mp h
  have haddr : t.addressed d c = some o :=
    (addressed_of_dirAt hd).trans (objectAt_eq_some.mpr ⟨ho, hpath⟩)
  simp only [getfiledirparms, haddr, hdir]

theorem dirAt_of_getfiledirparms (hd : t.dirAt cs = some d) {fi : FileInfo}
    (h : t.getfiledirparms d c = .ok fi) (hdir : fi.isdir = true) :
    t.dirAt (cs ++ [c]) = some fi.fileid := by
  rw [getfiledirparms, addressed_of_dirAt hd] at h
  split at h
  · next o ho =>
    cases h
    obtain ⟨hmem, hpath⟩ := objectAt_eq_some.mp ho
    exact dirAt_eq_some.mpr ⟨o, hmem, hpath, hdir, rfl⟩
  · cases h

/-- Everything above an object is a directory. -/
theorem exists_dir_above (ho : o ∈ t.objects) {p : List Octets} (hp : p <+: o.path)
    (hne : p ≠ o.path) : ∃ q ∈ t.objects, q.path = p ∧ q.isdir = true := by
  -- from the object up to `p`, one directory at a time
  induction hlen : o.path.length generalizing o with
  | zero =>
    have hnil : o.path = [] := length_eq_zero_iff.mp hlen
    rw [hnil] at hp hne
    exact absurd (prefix_nil.mp hp) hne
  | succ n ih =>
    have hone : o.path ≠ [] := fun h => by simp [h] at hlen
    obtain ⟨q, hq, hpath, hdir⟩ := t.closed o ho hone
    have hpq : p <+: q.path := by
      rw [hpath]
      rw [← dropLast_append_getLast hone] at hp hne
      rcases prefix_concat_iff.mp hp with heq | hpre
      · exact absurd heq hne
      · exact hpre
    by_cases heq : p = q.path
    · exact ⟨q, hq, heq.symm, hdir⟩
    · exact ih hq hpq heq (by rw [hpath, length_dropLast, hlen]; rfl)

theorem exists_dirAt_of_append (h : t.dirAt (cs ++ ds) = some d) : ∃ d', t.dirAt cs = some d' := by
  obtain ⟨o, ho, hpath, hdir, -⟩ := dirAt_eq_some.mp h
  have hpre : names cs <+: o.path := by
    rw [hpath]
    exact names_prefix_append
  by_cases heq : names cs = o.path
  · exact ⟨_, dirAt_eq_some.mpr ⟨o, ho, heq.symm, hdir, rfl⟩⟩
  · obtain ⟨q, hq, hqpath, hqdir⟩ := exists_dir_above ho hpre heq
    exact ⟨_, dirAt_eq_some.mpr ⟨q, hq, hqpath, hqdir, rfl⟩⟩

/-! ## The walk down -/

/-- The walk from the directory `d` along the names `cs`, one request for
each. It ends at the first name that is a file, in the directory it was
looked up in. -/
def descend (t : Catalog) : ℕ → List Octets → Except ℤ ℕ
  | d, [] => .ok d
  | d, c :: cs =>
      match t.getfiledirparms d c with
      | .error ret => .error ret
      | .ok fi => if fi.isdir then t.descend fi.fileid cs else .ok d

/-- Along directories, the walk goes on from where they lead. -/
theorem descend_append {pre : List Octets} (hd : t.dirAt pre = some d)
    (h : t.dirAt (pre ++ cs) = some d') : t.descend d (cs ++ ds) = t.descend d' ds := by
  induction cs generalizing pre d with
  | nil =>
    rw [append_nil, hd] at h
    cases h
    rfl
  | cons c cs ih =>
    have happ : pre ++ c :: cs = pre ++ [c] ++ cs := by simp
    rw [happ] at h
    obtain ⟨d₁, hd₁⟩ := exists_dirAt_of_append h
    rw [cons_append, descend, getfiledirparms_of_dirAt hd₁ hd]
    exact ih hd₁ h

end Catalog

end NetatalkClient
