import NetatalkClient.Did.Helpers.GetDirid
/-!
# Resolving the parent of a path

`get_dirid` is to give the ID of the directory a path's last name stands
in, or to fail. It does, unless a name before the last is a file's: there
the second loop is left without an error, with the ID of the directory the
file is in. `getDirid_resolves_iff` says that nothing else goes wrong, for
any tree and any cache correct for it.
-/

namespace NetatalkClient

open Separated List Catalog

namespace Catalog

variable {t : Catalog} {cs pre : List Octets} {d d' : ℕ}

/-- A path that leads to, or through, a file. -/
def ThroughFile (t : Catalog) (cs : List Octets) : Prop :=
  ∃ o ∈ t.objects, o.isdir = false ∧ o.path <+: names cs

instance : Decidable (t.ThroughFile cs) :=
  inferInstanceAs (Decidable (∃ o ∈ t.objects, o.isdir = false ∧ o.path <+: names cs))

theorem not_throughFile_of_dirAt (h : t.dirAt cs = some d) : ¬ t.ThroughFile cs := by
  rintro ⟨o, ho, hfile, hpre⟩
  obtain ⟨q, hq, hpath, hdir, -⟩ := dirAt_eq_some.mp h
  rw [← hpath] at hpre
  by_cases heq : o.path = q.path
  · rw [eq_of_path_eq ho hq heq, hdir] at hfile
    cases hfile
  · obtain ⟨a, ha, hapath, hadir⟩ := exists_dir_above hq hpre heq
    rw [← eq_of_path_eq ha ho hapath, hadir] at hfile
    cases hfile

theorem descend_eq_error {ret : ℤ} (h : t.descend d cs = .error ret) : ret = kFPObjectNotFound := by
  induction cs generalizing d with
  | nil => cases h
  | cons c cs ih =>
    rw [descend, getfiledirparms] at h
    cases hobj : t.addressed d c with
    | none =>
      rw [hobj] at h
      exact (Except.error.inj h).symm
    | some o =>
      simp only [hobj] at h
      split at h
      · exact ih h
      · cases h

/-- Where no file is on the path, the walk ends in the directory the path
names. -/
theorem dirAt_of_descend (hd : t.dirAt pre = some d) (hfile : ¬ t.ThroughFile (pre ++ cs))
    (h : t.descend d cs = .ok d') : t.dirAt (pre ++ cs) = some d' := by
  induction cs generalizing pre d with
  | nil =>
    cases h
    rw [append_nil, hd]
  | cons c cs ih =>
    have happ : pre ++ c :: cs = pre ++ [c] ++ cs := by simp
    rw [happ] at hfile ⊢
    rw [descend] at h
    cases hgot : t.getfiledirparms d c with
    | error ret =>
      rw [hgot] at h
      cases h
    | ok fi =>
      simp only [hgot] at h
      split at h
      · next hdir => exact ih (dirAt_of_getfiledirparms hd hgot hdir) hfile h
      · -- the name is a file's, and it is on the path
        next hdir =>
        refine absurd ?_ hfile
        rw [getfiledirparms, addressed_of_dirAt hd] at hgot
        split at hgot
        · next o ho =>
          cases hgot
          obtain ⟨hmem, hpath⟩ := objectAt_eq_some.mp ho
          refine ⟨o, hmem, by simpa using hdir, ?_⟩
          rw [hpath]
          exact names_prefix_append
        · cases hgot

/-- Where a file is on the path, the walk ends without an error. -/
theorem exists_descend_of_throughFile (hd : t.dirAt pre = some d)
    (hfile : t.ThroughFile (pre ++ cs)) : ∃ d', t.descend d cs = .ok d' := by
  induction cs generalizing pre d with
  | nil => exact ⟨d, rfl⟩
  | cons c cs ih =>
    have happ : pre ++ c :: cs = pre ++ [c] ++ cs := by simp
    rw [happ] at hfile
    rw [descend]
    cases hdir : t.dirAt (pre ++ [c]) with
    | some d₁ =>
      rw [getfiledirparms_of_dirAt hdir hd]
      exact ih hdir hfile
    | none =>
      -- the next object is the file itself: above a file there are directories
      obtain ⟨o, ho, hisfile, hpre⟩ := hfile
      have hp : names (pre ++ [c]) <+: names (pre ++ [c] ++ cs) := names_prefix_append
      have hopath : o.path = names (pre ++ [c]) := by
        by_contra hne
        rcases List.prefix_or_prefix_of_prefix hpre hp with hop | hop
        · rw [names_append] at hop hne
          have habove : o.path <+: names pre := by
            by_cases hc : c = []
            · simpa [names, hc] using hop
            · have hone : names [c] = [c] := by simp [names, hc]
              rw [hone] at hop hne
              exact (prefix_concat_iff.mp hop).resolve_left hne
          exact not_throughFile_of_dirAt hd ⟨o, ho, hisfile, habove⟩
        · obtain ⟨q, hq, hqpath, hqdir⟩ := exists_dir_above ho hop (Ne.symm hne)
          rw [dirAt_eq_some.mpr ⟨q, hq, hqpath, hqdir, rfl⟩] at hdir
          cases hdir
      have haddr : t.addressed d c = some o :=
        (addressed_of_dirAt hd).trans (objectAt_eq_some.mpr ⟨ho, hopath⟩)
      refine ⟨d, ?_⟩
      simp [getfiledirparms, haddr, hisfile]

end Catalog

namespace Volume

variable {t : Catalog} {v : Volume} {cs : List Octets} {name : Octets}

/-- What `get_dirid` is to return for the name `name` in the directory
`cs`: if it succeeds, that directory and that name; and an error if there
is no such directory. -/
def Resolves (t : Catalog) (cs : List Octets) (name : Octets) (r : Dirid) : Prop :=
  (r.ret = 0 → ∃ d, t.dirAt cs = some d ∧ r.dirid = some d ∧ r.basename = some name) ∧
    (t.dirAt cs = none → r.ret ≠ 0)

/-- **The parent, or an error.** For every tree, every cache correct for
it, every reading of the clock and every absolute path: the result is as
it should be if and only if the name is refused for its length or no name
before it is a file's. -/
theorem getDirid_resolves_iff (hv : v.Correct t) (hcs : Plain slash cs) (hname : slash ∉ name) :
    Resolves t cs name (getDirid t v (joined slash (cs ++ [name]))).2 ↔
      afpcMaxNameBytes ≤ name.length ∨ ¬ t.ThroughFile cs := by
  rw [(getDirid_joined hv hcs hname).1, parentDirid]
  by_cases hlong : afpcMaxNameBytes ≤ name.length
  · rw [if_pos hlong]
    have hret : (-enametoolong : ℤ) ≠ 0 := by decide
    exact ⟨fun _ => .inl hlong, fun _ => ⟨fun h => absurd h hret, fun _ => hret⟩⟩
  · rw [if_neg hlong]
    constructor
    · rintro ⟨hok, -⟩
      refine .inr fun hfile => ?_
      obtain ⟨d, hd⟩ := exists_descend_of_throughFile dirAt_nil hfile
      simp only [hd] at hok
      obtain ⟨d', hdir, -⟩ := hok trivial
      exact not_throughFile_of_dirAt hdir hfile
    · rintro (h | hfile)
      · exact absurd h hlong
      · cases hwalk : t.descend afpRootDid cs with
        | error ret =>
          have hret : ret ≠ 0 := by
            rw [descend_eq_error hwalk]
            decide
          exact ⟨fun h => absurd h hret, fun _ => hret⟩
        | ok d =>
          have hdir : t.dirAt cs = some d :=
            dirAt_of_descend dirAt_nil hfile hwalk
          refine ⟨fun _ => ⟨d, hdir, rfl, rfl⟩, fun hnone => ?_⟩
          rw [hdir] at hnone
          cases hnone

/-- A volume as it is mounted, with a clock that stands still. -/
def mounted : Volume := ⟨[], ⟨0, 0, 0, 0⟩, fun _ => 0⟩

/-- A tree with the directory `/a` and in it the directory `/a/b`. -/
def twoDirectories : Catalog where
  objects := [⟨[], afpRootDid, true⟩, ⟨[[97]], 20, true⟩, ⟨[[97], [98]], 21, true⟩]
  root := mem_cons_self
  paths := by decide
  ids := by decide
  closed := by decide
  plain := by decide

/-- The path `/a/b/x`, with `/a` cached. -/
theorem getDirid_resolves_below_cached :
    Resolves twoDirectories [[97], [98]] [120]
      (getDirid twoDirectories { mounted with didCache := [⟨[47, 97], 20, afpRootDid, [97], 0⟩] }
        (joined slash ([[97], [98]] ++ [[120]]))).2 := by
  have hv : Correct twoDirectories
      { mounted with didCache := [⟨[47, 97], 20, afpRootDid, [97], 0⟩] } := by
    intro e he
    rw [mem_singleton.mp he]
    exact ⟨by decide, by decide⟩
  exact (getDirid_resolves_iff hv (by decide) (by decide)).mpr (.inr (by decide))

/-- A tree with a file `/f`. -/
def oneFile : Catalog where
  objects := [⟨[], afpRootDid, true⟩, ⟨[[102]], 20, false⟩]
  root := mem_cons_self
  paths := by decide
  ids := by decide
  closed := by decide
  plain := by decide

/-- **Through a file.** The path `/f/x`, where `/f` is a file: success, with
the root's ID. -/
theorem getDirid_through_file :
    (getDirid oneFile mounted [47, 102, 47, 120]).2 = ⟨0, some afpRootDid, some [120]⟩ ∧
      oneFile.dirAt [[102]] = none := by
  decide

end Volume

end NetatalkClient
