import NetatalkClient.Midlevel.Model.Namespace
import NetatalkClient.Did.Helpers.Changes
/-!
# The cache and the calls that change names

A cache that is correct for the tree changes no answer of `get_dirid`. It
is correct at the start, and every call keeps it so except where a
directory goes away that the cache has entries through: `ml_rename` drops
no entry at all, and `ml_rmdir` drops one, by the path it was given.
`coherent` excludes such calls, and then no answer is changed in any run
(`getDirid_eq_uncached`).
-/

namespace NetatalkClient

open Separated Machine Volume List Catalog

/-- The names before the last on a path. -/
def parentNames (path : Octets) : List Octets := (pieces slash path).dropLast

/-- The last name on a path. -/
def lastName (path : Octets) : Octets := (pieces slash path).getLastD []

theorem joined_parentNames {path : Octets} (h : path.head? = some slash) :
    joined slash (parentNames path ++ [lastName path]) = path := by
  have hne : pieces slash path ≠ [] := by
    intro hnil
    have hjoined := joined_pieces_of_head h
    rw [hnil, joined_nil] at hjoined
    rw [← hjoined] at h
    cases h
  have hlast : lastName path = (pieces slash path).getLast hne := by
    rw [lastName, getLastD_eq_getLast?, getLast?_eq_getLast_of_ne_nil hne]
    rfl
  rw [parentNames, hlast, dropLast_append_getLast hne, joined_pieces_of_head h]

theorem plain_parentNames (path : Octets) : Plain slash (parentNames path) :=
  fun c hc => plain_pieces c (dropLast_subset _ hc)

theorem not_mem_lastName (path : Octets) : slash ∉ lastName path := by
  rw [lastName, getLastD_eq_getLast?]
  cases hlast : (pieces slash path).getLast? with
  | none => exact not_mem_nil
  | some c => exact plain_pieces c (mem_of_getLast? hlast)

/-- The object that a call addresses by a path: found from the root, or
in a directory it was left with. -/
def target (t : Catalog) (now : Moment) (path : Octets) : Option Object :=
  let got := parentDirid t (parentNames path) (lastName path)
  t.addressed (got.dirid.getD now.dirid) (got.basename.getD now.basename)

namespace Mount

variable {cfg : NamespaceConfig} {now : Moment} {m m' : Mount} {path : Octets} {o : Object}
variable {v : Volume} {t : Catalog} {e : DidCacheEntry} {name : Octets}

/-- No directory that the call addresses is one that these entries, or the
path itself on the way to its last name, pass through. -/
def clear (m : Mount) (now : Moment) (path : Octets) (cache : List DidCacheEntry) : Bool :=
  (target m.catalog now path).all fun o =>
    !o.isdir || (!decide (o.path <+: names (parentNames path)) &&
      cache.all fun e => !decide (o.path <+: e.path))

/-- A condition on the converted path, if there is one. -/
def converted (cfg : NamespaceConfig) (path : Octets) (ok : Octets → Bool) : Bool :=
  match cfg.convertPathToAfpAlloc path with
  | .error _ => true
  | .ok p => p.head? = some slash && ok p

/-- The condition on a call: paths are absolute; no cached path leads
through the directory that `ml_rename` moves; and none but one with the
given name leads through the directory that `ml_rmdir` removes. -/
def coherent (cfg : NamespaceConfig) (m : Mount) (e : Moment × NamespaceCall) : Bool :=
  match e.2 with
  | .getDirid path => path.head? = some slash
  | .mkdir path | .unlink path => converted cfg path fun _ => true
  | .rmdir path =>
      converted cfg path fun p =>
        m.clear e.1 p (m.volume.didCache.eraseP fun d => d.dirname = p)
  | .rename pathFrom pathTo =>
      converted cfg pathFrom (fun p => m.clear e.1 p m.volume.didCache) &&
        converted cfg pathTo fun _ => true

/-- The machine all of whose calls meet the condition. -/
def coherentStep (cfg : NamespaceConfig) : Mount → Moment × NamespaceCall → Option Mount :=
  guarded (step cfg) fun m e => coherent cfg m e = true

/-- The invariant: the cache is correct for the tree. -/
def Inv (m : Mount) : Prop := m.volume.Correct m.catalog

theorem clear_spec {cache : List DidCacheEntry} (h : m.clear now path cache = true)
    (ho : target m.catalog now path = some o) (hdir : o.isdir = true) :
    ¬ o.path <+: names (parentNames path) ∧ ∀ e ∈ cache, ¬ o.path <+: e.path := by
  simpa [clear, ho, hdir] using h

theorem converted_spec {ok : Octets → Bool} (h : converted cfg path ok = true) {p : Octets}
    (hp : cfg.convertPathToAfpAlloc path = .ok p) : p.head? = some slash ∧ ok p = true := by
  simpa [converted, hp] using h

/-! ## `get_dirid` and `is_dir` -/

theorem getDirid_absolute (hv : v.Correct t) (h : path.head? = some slash) :
    (getDirid t v path).2 = parentDirid t (parentNames path) (lastName path) ∧
      Leaves (EntryOn t (parentNames path)) v (getDirid t v path).1 := by
  have hjoined := getDirid_joined hv (plain_parentNames path) (not_mem_lastName path)
  rwa [joined_parentNames h] at hjoined

theorem correct_getDirid (hv : v.Correct t)
    (h : path.head? = some slash) : (getDirid t v path).1.Correct t :=
  (getDirid_absolute hv h).2.correct (fun _ he => he.1) hv

/-- The entries made for a path lie on it. -/
theorem prefix_of_entryOn {cs : List Octets}
    (hcs : Plain slash cs) (h : EntryOn t cs e) : e.path <+: names cs := by
  obtain ⟨-, p, hp, hname⟩ := h
  have hplain : Plain slash p := fun c hc => hcs c (hp.subset hc)
  rw [DidCacheEntry.path, hname, pieces_joined hplain]
  exact hp.filter _

theorem isDir_sublist (t : Catalog) (v : Volume) (did : ℕ) (name : Octets) :
    List.Sublist (isDir t v did name).2.didCache v.didCache := by
  have hsub := DidCacheWalk.left_sublist_byParent (v.clock 0) did name v.didCache
  simp only [isDir]
  split
  · exact hsub
  · split
    · exact hsub
    · exact hsub

theorem correct_isDir {did : ℕ} (h : v.Correct t) : (isDir t v did name).2.Correct t :=
  fun e he => h e ((isDir_sublist t v did name).subset he)

/-- What `is_dir` denies is not a directory. -/
theorem isDir_eq_false {did : ℕ}
    (h : (isDir t v did name).1 = false) (ho : t.addressed did name = some o) :
    o.isdir = false := by
  simp only [isDir] at h
  split at h
  · cases h
  · simpa only [getfiledirparms, ho] using h

theorem didCache_removeDidEntry (v : Volume) (name : Octets) :
    (v.removeDidEntry name).didCache = v.didCache.eraseP fun d => d.dirname = name := by
  unfold removeDidEntry
  split
  · rfl
  · next hany =>
    refine (eraseP_of_forall_not fun d hd heq => hany ?_).symm
    exact any_eq_true.mpr ⟨d, hd, heq⟩

/-! ## The steps -/

theorem inv_mkdir (h : m.Inv) (hok : converted cfg path (fun _ => true) = true) :
    (m.mlMkdir cfg now path).2.Inv := by
  simp only [mlMkdir]
  split
  · exact h
  · next p hp =>
    have habs := (converted_spec hok hp).1
    split_ifs
    · exact h
    · exact h
    · exact h
    · exact h
    · exact fun e he => (correct_getDirid h habs e he).createdir _

theorem inv_unlink (h : m.Inv) (hok : converted cfg path (fun _ => true) = true) :
    (m.mlUnlink cfg now path).2.Inv := by
  simp only [mlUnlink]
  split
  · exact h
  · next p hp =>
    have habs := (converted_spec hok hp).1
    have hgot := correct_getDirid h habs
    split_ifs with hro hdouble hdone hdir hinvalid
    · exact h
    · exact h
    · exact h
    · exact correct_isDir hgot
    · exact correct_isDir hgot
    · -- what is deleted is no directory, so no entry passes through it
      have hkept : ∀ e ∈ (getDirid m.catalog m.volume p).1.didCache,
          e.Correct (m.catalog.delete (now.refuse 0)
            ((getDirid m.catalog m.volume p).2.dirid.getD now.dirid)
            ((getDirid m.catalog m.volume p).2.basename.getD now.basename)).2 := by
        intro e he
        refine (hgot e he).delete fun o ho hisdir => ?_
        rw [isDir_eq_false (by simpa using hdir) ho] at hisdir
        cases hisdir
      split
      · exact fun e he => hkept e ((isDir_sublist _ _ _ _).subset he)
      · intro e he
        dsimp only at he
        rw [didCache_removeDidEntry] at he
        exact hkept e ((isDir_sublist _ _ _ _).subset (mem_of_mem_eraseP he))

/-- The entries that remain after `get_dirid` and the removal of one by
the path itself: none leads through what the path addresses. -/
theorem not_prefix_of_mem_erased (h : m.Inv) (habs : path.head? = some slash)
    (hclear : m.clear now path (m.volume.didCache.eraseP fun d => d.dirname = path) = true)
    (ho : target m.catalog now path = some o) (hdir : o.isdir = true)

    (he : e ∈ (getDirid m.catalog m.volume path).1.didCache.eraseP fun d => d.dirname = path) :
    ¬ o.path <+: e.path := by
  obtain ⟨hown, hcache⟩ := clear_spec hclear ho hdir
  obtain ⟨added, left, heq, hleft, hnew⟩ := (getDirid_absolute h habs).2
  -- the new entries are for directories above the path, so none of them is the one removed
  have hkeep : ∀ e ∈ added, ¬ decide (e.dirname = path) = true := by
    intro e he heq
    obtain ⟨-, p, hp, hname⟩ := hnew e he
    have hplain : Plain slash p := fun c hc => plain_parentNames path c (hp.subset hc)
    have hpieces : p = parentNames path ++ [lastName path] := by
      rw [← pieces_joined hplain, ← hname, of_decide_eq_true heq]
      conv_lhs => rw [← joined_parentNames habs]
      refine pieces_joined (plain_append.mpr ⟨plain_parentNames path, fun c hc => ?_⟩)
      exact mem_singleton.mp hc ▸ not_mem_lastName path
    have hlen := hp.length_le
    rw [hpieces, length_append, length_singleton] at hlen
    omega
  rw [heq, eraseP_append_right _ hkeep] at he
  rcases mem_append.mp he with he | he
  · exact fun hpre => hown (hpre.trans (prefix_of_entryOn (plain_parentNames path) (hnew e he)))
  · exact hcache e ((hleft.eraseP).subset he)

theorem inv_rmdir (h : m.Inv)
    (hok : converted cfg path (fun p =>
      m.clear now p (m.volume.didCache.eraseP fun d => d.dirname = p)) = true) :
    (m.mlRmdir cfg now path).2.Inv := by
  simp only [mlRmdir]
  split
  · exact h
  split
  · exact h
  · next p hp =>
    obtain ⟨habs, hclear⟩ := converted_spec hok hp
    have hgot := correct_getDirid h habs
    split_ifs with hro hdouble hdone hdir
    · exact h
    · exact h
    · exact h
    · exact correct_isDir hgot
    · have htarget : m.catalog.addressed
          ((getDirid m.catalog m.volume p).2.dirid.getD now.dirid)
          ((getDirid m.catalog m.volume p).2.basename.getD now.basename) =
            target m.catalog now p := by
        rw [(getDirid_absolute h habs).1]
        rfl
      split
      · -- an error: nothing was deleted
        next err herr =>
        rcases delete_cases m.catalog (now.refuse 0)
          ((getDirid m.catalog m.volume p).2.dirid.getD now.dirid)
          ((getDirid m.catalog m.volume p).2.basename.getD now.basename) with hsame | ⟨o, -, hrc, -⟩
        · simp only [hsame]
          exact correct_isDir hgot
        · rw [hrc] at herr
          cases herr
      · intro e he
        dsimp only at he
        rw [didCache_removeDidEntry] at he
        have he' := ((isDir_sublist m.catalog _ _ _).eraseP).subset he
        refine (hgot e (mem_of_mem_eraseP he')).delete fun o ho hisdir => ?_
        rw [htarget] at ho
        exact not_prefix_of_mem_erased h habs hclear ho hisdir he'

/-! ### `ml_rename` -/

section Rename

variable {didFrom didTo : ℕ} {basenameFrom basenameTo : Octets} {rc : ℤ} {e : DidCacheEntry}

theorem renamed_of_ne (h : rc ≠ kFPObjectExists) :
    (renamed now m rc didFrom didTo basenameFrom basenameTo).2 = m := by
  simp only [renamed, if_neg h]
  split_ifs <;> rfl

theorem volume_renamed :
    (renamed now m rc didFrom didTo basenameFrom basenameTo).2.volume = m.volume := by
  simp only [renamed]
  split_ifs <;> rfl

theorem volume_rename :
    (rename cfg now m didFrom didTo basenameFrom basenameTo).2.volume = m.volume := by
  simp only [rename]
  split
  · exact volume_renamed
  · split_ifs
    · rfl
    · exact volume_renamed

/-- The second attempt: what had the new name is deleted first. -/
theorem correct_renamed (h : e.Correct m.catalog)
    (hagain : rc = kFPObjectExists →
      e.Correct (m.catalog.delete (now.refuse 2) didTo basenameTo).2 ∧
      ∀ o, m.catalog.addressed didFrom basenameFrom = some o → o.isdir = true →
        ¬ o.path <+: e.path) :
    e.Correct (renamed now m rc didFrom didTo basenameFrom basenameTo).2.catalog := by
  by_cases hrc : rc = kFPObjectExists
  · obtain ⟨hdeleted, hout⟩ := hagain hrc
    subst hrc
    refine hdeleted.moveandrename fun o ho => hout o (addressed_of_subset ?_ ho)
    rcases delete_cases m.catalog (now.refuse 2) didTo basenameTo with hsame | ⟨q, -, -, hq⟩
    · rw [hsame]
      exact List.Subset.refl _
    · rw [hq]
      exact filter_subset_self _
  · rw [renamed_of_ne hrc]
    exact h

/-- An entry survives a rename of anything but a directory on its path. -/
theorem correct_rename (h : e.Correct m.catalog)
    (hout : ∀ o, m.catalog.addressed didFrom basenameFrom = some o → o.isdir = true →
      ¬ o.path <+: e.path) :
    e.Correct (rename cfg now m didFrom didTo basenameFrom basenameTo).2.catalog := by
  simp only [rename]
  split
  · -- into a directory: if the name is taken there, the directory is not empty
    refine correct_renamed (h.moveandrename hout) fun hrc => ?_
    rcases moveandrename_cases m.catalog (now.refuse 0) didFrom didTo basenameFrom
      basenameTo basenameFrom with ⟨hsame, hexists⟩ | hmoved
    · obtain ⟨-, d, -, hd, -, q, hq, hne, hpre⟩ := hexists hrc
      simp only [hsame]
      rw [delete_of_nonempty hd hq hne hpre]
      exact ⟨h, hout⟩
    · obtain ⟨-, -, -, -, -, hzero, -⟩ := hmoved
      rw [hzero] at hrc
      cases hrc
  · -- onto a file or a free name
    next hdst =>
    split_ifs
    · exact h.delete hout
    · refine correct_renamed (h.moveandrename hout) fun hrc => ?_
      rcases moveandrename_cases m.catalog (now.refuse 1) didFrom didTo basenameFrom []
        basenameTo with ⟨hsame, -⟩ | ⟨-, -, -, -, -, hzero, -⟩
      · simp only [hsame]
        refine ⟨h.delete fun o ho hdir => ?_, hout⟩
        refine absurd ?_ (hdst o.fileid)
        simp only [getfiledirparms, ho, hdir]
      · rw [hzero] at hrc
        cases hrc

/-- A directory is not renamed to a path through itself. -/
theorem rename_inside {o d : Object}
    (ho : m.catalog.addressed didFrom basenameFrom = some o) (hdir : o.isdir = true)
    (hd : m.catalog.directory didTo = some d) (hin : o.path <+: d.path) :
    (rename cfg now m didFrom didTo basenameFrom basenameTo).2 = m := by
  have hbelow : ∀ name q, m.catalog.addressed didTo name = some q → o.path <+: q.path :=
    fun _ _ hq => hin.trans (prefix_of_addressed hd hq)
  simp only [rename]
  split
  · obtain ⟨hsame, hne⟩ := moveandrename_inside ho (hbelow basenameTo) (now.refuse 0)
      basenameFrom
    simp only [renamed_of_ne hne, hsame]
  · split_ifs with hexchange
    · have hfile := exchangefiles_eq_zero hexchange.2.2 ho
      rw [hdir] at hfile
      cases hfile
    · obtain ⟨hsame, hne⟩ := moveandrename_inside ho (hbelow []) (now.refuse 1) basenameTo
      simp only [renamed_of_ne hne, hsame]

end Rename

/-- If the destination resolves, the entries made on the way to it lie
above its directory. -/
theorem prefix_directory_of_entryOn {cs : List Octets}
    (hcs : Plain slash cs) (hret : ¬ (parentDirid t cs name).ret < 0)
    (he : EntryOn t cs e) (did : ℕ) :
    ∃ d, t.directory ((parentDirid t cs name).dirid.getD did) = some d ∧ e.path <+: d.path := by
  obtain ⟨hcorrect, p, ⟨rest, rfl⟩, hname⟩ := he
  have hp : t.dirAt p = some e.did := by
    have hdir := hcorrect.dirname
    rwa [hname, pieces_joined (plain_append.mp hcs).1] at hdir
  unfold parentDirid at hret ⊢
  split at hret
  · exact absurd (by decide) hret
  · next hlong =>
    rw [if_neg hlong]
    cases hwalk : t.descend afpRootDid (p ++ rest) with
    | error ret =>
      rw [hwalk, descend_eq_error hwalk] at hret
      have hneg : kFPObjectNotFound < 0 := by decide
      exact absurd hneg hret
    | ok d =>
      rw [descend_append dirAt_nil hp] at hwalk
      obtain ⟨ds, hds⟩ := exists_dirAt_of_descend hp hwalk
      obtain ⟨o, ho, hpath, hdir, rfl⟩ := dirAt_eq_some.mp hds
      refine ⟨o, directory_of_mem ho hdir, ?_⟩
      rw [hpath, DidCacheEntry.path, hname, pieces_joined (plain_append.mp hcs).1]
      exact names_prefix_append

/-- Two paths are resolved one after the other; what is cached then lies
clear of the directory to be renamed, or the destination lies in it. -/
theorem inv_rename {pathFrom pathTo : Octets} (h : m.Inv)
    (hfrom : converted cfg pathFrom (fun p => m.clear now p m.volume.didCache) = true)
    (hto : converted cfg pathTo (fun _ => true) = true) :
    (m.mlRename cfg now pathFrom pathTo).2.Inv := by
  simp only [mlRename]
  split
  · exact h
  next p hp =>
  split
  · exact h
  next q hq =>
  obtain ⟨habs, hclear⟩ := converted_spec hfrom hp
  have habs' := (converted_spec hto hq).1
  obtain ⟨hgot, hleaves⟩ := getDirid_absolute h habs
  have hv := correct_getDirid h habs
  obtain ⟨hgot', hleaves'⟩ := getDirid_absolute hv habs'
  have hv' := correct_getDirid hv habs'
  split_ifs with hro hret hret'
  · exact h
  · exact hv
  · exact hv'
  · rw [hgot'] at hret' ⊢
    rw [hgot]
    intro e he
    rw [volume_rename] at he
    by_cases hout : ∀ o, target m.catalog now p = some o → o.isdir = true → ¬ o.path <+: e.path
    · exact correct_rename (hv' e he) hout
    · push Not at hout
      obtain ⟨o, ho, hdir, hpre⟩ := hout
      obtain ⟨hown, hcache⟩ := clear_spec hclear ho hdir
      rcases hleaves'.mem he with hon | hmem
      · -- an entry made for the destination: the server does not move `o` there
        obtain ⟨d, hd, hin⟩ := prefix_directory_of_entryOn (plain_parentNames q) hret' hon now.dirid
        rw [rename_inside
          (m := ⟨m.catalog, (getDirid m.catalog (getDirid m.catalog m.volume p).1 q).1⟩)
          ho hdir hd (hpre.trans hin)]
        exact hv' e he
      · rcases hleaves.mem hmem with hon | hmem
        · exact absurd (hpre.trans (prefix_of_entryOn (plain_parentNames p) hon)) hown
        · exact absurd hpre (hcache e hmem)

theorem inv_step {e : Moment × NamespaceCall} (h : m.Inv)
    (hs : coherentStep cfg m e = some m') : m'.Inv := by
  obtain ⟨hok, hstep⟩ := guarded_eq_some.mp hs
  obtain ⟨now, call⟩ := e
  -- the clock is no concern of the invariant
  have h' : Inv { m with volume := { m.volume with clock := now.clock } } := h
  cases call with
  | getDirid path =>
    cases hstep
    exact correct_getDirid h' (of_decide_eq_true hok)
  | mkdir path =>
    cases hstep
    exact inv_mkdir h' hok
  | unlink path =>
    cases hstep
    exact inv_unlink h' hok
  | rmdir path =>
    cases hstep
    exact inv_rmdir h' hok
  | rename pathFrom pathTo =>
    cases hstep
    obtain ⟨hfrom, hto⟩ := Bool.and_eq_true_iff.mp hok
    exact inv_rename h' hfrom hto

/-- **The cache changes no answer.** From any tree and an empty cache, in
every run of calls that meet the condition, whatever expires and whatever
the server refuses: a call of `get_dirid` returns what it would return with
an empty cache. -/
theorem getDirid_eq_uncached {t : Catalog} {v : Volume} (hv : v.didCache = [])
    (h : Reachable (coherentStep cfg) ⟨t, v⟩ m)
    (hok : coherent cfg m (now, .getDirid path) = true) (clock : ℕ → ℕ) :
    (getDirid m.catalog { m.volume with clock } path).2 =
      (getDirid m.catalog { m.volume with didCache := [] } path).2 := by
  have hinit : Inv ⟨t, v⟩ := by
    intro e he
    rw [hv] at he
    cases he
  have hm : m.Inv := h.invariant hinit inv_step
  have hempty : Volume.Correct m.catalog { m.volume with didCache := [] } :=
    fun e he => absurd he not_mem_nil
  have habs : path.head? = some slash := of_decide_eq_true hok
  have hm' : Volume.Correct m.catalog { m.volume with clock } := hm
  rw [(getDirid_absolute hm' habs).1, (getDirid_absolute hempty habs).1]

/-- A volume that converts no name and refuses nothing. -/
def plainConfig : NamespaceConfig where
  convertPathToAfpAlloc := .ok
  invalidFilename := fun _ => false
  volumeIsReadonly := false
  appledouble := fun _ => 0
  noExchangeFiles := true

/-- A moment at which nothing expires and the server refuses nothing. -/
def calm : Moment := ⟨fun _ => 0, fun _ => 0, 30, 0, []⟩

/-- With `/a` and `/a/b` cached, `/a/b` is removed and made again. -/
def removedAndMade : List (Moment × NamespaceCall) :=
  [(calm, .getDirid [47, 97, 47, 98, 47, 120]), (calm, .rmdir [47, 97, 47, 98]),
    (calm, .mkdir [47, 97, 47, 98])]

theorem getDirid_eq_uncached_removedAndMade :
    ∃ m, run (coherentStep plainConfig) ⟨twoDirectories, mounted⟩ removedAndMade = some m ∧
      (getDirid m.catalog { m.volume with clock := fun _ => 5 } [47, 97, 47, 98, 47, 120]).2 =
        (getDirid m.catalog { m.volume with didCache := [] } [47, 97, 47, 98, 47, 120]).2 := by
  have hsome : (run (coherentStep plainConfig) ⟨twoDirectories, mounted⟩
      removedAndMade).isSome = true := by decide
  obtain ⟨m, hm⟩ := Option.isSome_iff_exists.mp hsome
  have hok : coherent plainConfig m (calm, .getDirid [47, 97, 47, 98, 47, 120]) = true := rfl
  exact ⟨m, hm, getDirid_eq_uncached rfl (reachable_of_run hm) hok _⟩

/-- **A directory that has moved away.** `/a` is cached and then renamed to
`/c`. With the cache, `/a/x` resolves to what is now `/c`; without, it does
not resolve. -/
theorem renamed_still_cached :
    ((run (step plainConfig) ⟨twoDirectories, mounted⟩
      [(calm, .getDirid [47, 97, 47, 120]), (calm, .rename [47, 97] [47, 99])]).map fun m =>
        ((getDirid m.catalog m.volume [47, 97, 47, 120]).2,
          (getDirid m.catalog { m.volume with didCache := [] } [47, 97, 47, 120]).2)) =
      some (⟨0, some 20, some [120]⟩, ⟨kFPObjectNotFound, none, some [120]⟩) := by
  decide

end Mount

end NetatalkClient
