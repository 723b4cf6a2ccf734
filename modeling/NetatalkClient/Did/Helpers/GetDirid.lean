import NetatalkClient.Did.Model.Cache
import NetatalkClient.Did.Helpers.Catalog
/-!
# Directories: what `get_dirid` computes

With a cache that is correct for the tree, the two loops of `get_dirid`
come to what the walk down from the root gives, at whatever depth the
cache has an entry and whatever expires on the way
(`getDirid_joined`); and the cache stays correct.
-/

namespace NetatalkClient

open Separated List Catalog DidCacheWalk
open scoped List

variable {t : Catalog} {v : Volume} {cs ds : List Octets} {c name : Octets} {d : ℕ}

/-- An entry is correct for a tree: its full name is the directory with
its ID, and so is its name in its parent. -/
structure DidCacheEntry.Correct (t : Catalog) (e : DidCacheEntry) : Prop where
  dirname : t.dirAt (pieces slash e.dirname) = some e.did
  child : t.getfiledirparms e.parentdid e.name = .ok ⟨e.did, true⟩

namespace DidCacheWalk

theorem left_sublist_byFullname (now : ℕ) (path : Octets) (l : List DidCacheEntry) :
    (byFullname now path l).left <+ l := by
  induction l with
  | nil => exact List.Sublist.refl _
  | cons p next ih =>
    simp only [byFullname]
    split
    · split
      · exact sublist_cons_self p next
      · exact ih.cons p
    · split
      · exact List.Sublist.refl _
      · exact ih.cons_cons p

theorem left_sublist_byParent (now parentdid : ℕ) (name : Octets) (l : List DidCacheEntry) :
    (byParent now parentdid name l).left <+ l := by
  induction l with
  | nil => exact List.Sublist.refl _
  | cons p next ih =>
    simp only [byParent]
    split
    · exact ih.cons p
    · split
      · exact List.Sublist.refl _
      · exact ih.cons_cons p

/-- What is found under a name was cached under it. -/
theorem exists_of_byFullname {now : ℕ} {path : Octets} {l : List DidCacheEntry}
    (h : (byFullname now path l).did ≠ 0) :
    ∃ e ∈ l, e.dirname = path ∧ e.did = (byFullname now path l).did := by
  induction l with
  | nil => exact absurd rfl h
  | cons p next ih =>
    simp only [byFullname] at h ⊢
    split at h
    · split at h
      · exact absurd rfl h
      · next hexp hne =>
        rw [if_pos hexp, if_neg hne]
        obtain ⟨e, he, hname, hdid⟩ := ih h
        exact ⟨e, mem_cons_of_mem p he, hname, hdid⟩
    · next hexp =>
      rw [if_neg hexp]
      split at h
      · next heq =>
        rw [if_pos heq]
        exact ⟨p, mem_cons_self, heq, rfl⟩
      · next hne =>
        rw [if_neg hne]
        obtain ⟨e, he, hname, hdid⟩ := ih h
        exact ⟨e, mem_cons_of_mem p he, hname, hdid⟩

end DidCacheWalk

namespace Volume

variable {v₁ v₂ v₃ : Volume} {new : DidCacheEntry → Prop}

/-- The cache content is correct for a tree. -/
def Correct (t : Catalog) (v : Volume) : Prop := ∀ e ∈ v.didCache, e.Correct t

/-! ## What a call leaves in the cache -/

/-- A call leaves some of what was cached, with new entries before it. -/
def Leaves (new : DidCacheEntry → Prop) (v v' : Volume) : Prop :=
  ∃ added left, v'.didCache = added ++ left ∧ left <+ v.didCache ∧ ∀ e ∈ added, new e

theorem leaves_of_sublist (h : v₂.didCache <+ v₁.didCache) : Leaves new v₁ v₂ :=
  ⟨[], v₂.didCache, rfl, h, fun _ he => absurd he not_mem_nil⟩

theorem Leaves.refl : Leaves new v v := leaves_of_sublist (List.Sublist.refl _)

theorem Leaves.trans (h : Leaves new v₁ v₂) (h' : Leaves new v₂ v₃) : Leaves new v₁ v₃ := by
  obtain ⟨added, left, heq, hleft, hnew⟩ := h
  obtain ⟨added', left', heq', hleft', hnew'⟩ := h'
  rw [heq] at hleft'
  obtain ⟨kept, rest, rfl, hkept, hrest⟩ := sublist_append_iff.mp hleft'
  refine ⟨added' ++ kept, rest, by rw [heq', append_assoc], hrest.trans hleft, ?_⟩
  intro e he
  rcases mem_append.mp he with he | he
  · exact hnew' e he
  · exact hnew e (hkept.subset he)

theorem Leaves.mem (h : Leaves new v₁ v₂) {e : DidCacheEntry} (he : e ∈ v₂.didCache) :
    new e ∨ e ∈ v₁.didCache := by
  obtain ⟨added, left, heq, hleft, hnew⟩ := h
  rw [heq] at he
  rcases mem_append.mp he with he | he
  · exact .inl (hnew e he)
  · exact .inr (hleft.subset he)

theorem Leaves.correct (h : Leaves new v₁ v₂) (hnew : ∀ e, new e → e.Correct t)
    (hv : v₁.Correct t) : v₂.Correct t := by
  intro e he
  rcases h.mem he with he | he
  · exact hnew e he
  · exact hv e he

theorem leaves_find (v : Volume) (path : Octets) : Leaves new v (v.findDiridByFullname path).2 :=
  leaves_of_sublist (left_sublist_byFullname _ _ _)

theorem Correct.find (h : v.Correct t) (path : Octets) : (v.findDiridByFullname path).2.Correct t :=
  fun e he => h e ((left_sublist_byFullname _ _ _).subset he)

/-- A lookup by full name finds the directory with that name, if it finds
anything. -/
theorem Correct.dirAt_of_find (h : v.Correct t) (hcs : Plain slash cs)
    (hfound : (v.findDiridByFullname (joined slash cs)).1 ≠ 0) :
    t.dirAt cs = some (v.findDiridByFullname (joined slash cs)).1 := by
  obtain ⟨e, he, hname, hdid⟩ := exists_of_byFullname hfound
  have hdir := (h e he).dirname
  rw [hname, pieces_joined hcs] at hdir
  rw [hdir, hdid]
  rfl

/-! ## The two loops -/

/-- The entries `get_dirid` makes for a path: for it and what is above. -/
def EntryOn (t : Catalog) (cs : List Octets) (e : DidCacheEntry) : Prop :=
  e.Correct t ∧ ∃ p, p <+: cs ∧ e.dirname = joined slash p

/-- **The nearest cached parent.** The first loop comes to a directory on
the path, with its ID: a cached one, or the root. -/
theorem findKnownParent_joined {fuel : ℕ} (hv : v.Correct t) (hcs : Plain slash cs)
    (hne : cs ≠ []) (hfuel : (joined slash cs).length ≤ fuel) (parentDid : ℕ) :
    ∃ k ≤ cs.length,
      t.dirAt (cs.take k) = some (findKnownParent fuel v (joined slash cs) parentDid).2.1 ∧
      (findKnownParent fuel v (joined slash cs) parentDid).2.2 =
        (if k = 0 then 1 else (joined slash (cs.take k)).length) ∧
      (findKnownParent fuel v (joined slash cs) parentDid).1.didCache <+ v.didCache := by
  induction fuel generalizing v cs parentDid with
  | zero =>
    have hpos : 0 < (joined slash cs).length := joined_ne_nil hne
    omega
  | succ fuel ih =>
    obtain ⟨cs, c, rfl⟩ := (eq_nil_or_concat' cs).resolve_left hne
    obtain ⟨hplain, hc⟩ := plain_append.mp hcs
    have hlast : lastIdx? slash (joined slash (cs ++ [c])) = some (joined slash cs).length :=
      lastIdx?_joined (hc c (by simp))
    by_cases hcs0 : cs = []
    · -- one name: the only slash is the first byte
      subst hcs0
      refine ⟨0, Nat.zero_le _, ?_⟩
      simp only [findKnownParent, hlast]
      exact ⟨dirAt_nil, rfl, List.Sublist.refl _⟩
    · have hpos : 0 < (joined slash cs).length := joined_ne_nil hcs0
      have hlen : (joined slash (cs ++ [c])).length = (joined slash cs).length + 1 + c.length := by
        rw [joined_concat]
        simp
        omega
      obtain ⟨i, hi⟩ : ∃ i, (joined slash cs).length = i + 1 := ⟨_, (Nat.sub_add_cancel hpos).symm⟩
      have htake : (joined slash (cs ++ [c])).take (i + 1) = joined slash cs := by
        rw [joined_concat, ← hi, take_left]
      rw [hi] at hlast
      simp only [findKnownParent, hlast, htake]
      split
      · next hfound =>
        refine ⟨cs.length, by simp, ?_, ?_, left_sublist_byFullname _ _ _⟩
        · rw [take_left]
          exact hv.dirAt_of_find hplain hfound
        · rw [take_left, if_neg (fun h => hcs0 (length_eq_zero_iff.mp h))]
      · obtain ⟨k, hk, hdir, hn, hsub⟩ :=
          ih (hv.find (joined slash cs)) hplain hcs0 (by omega)
            (v.findDiridByFullname (joined slash cs)).1
        have hkeep : (cs ++ [c]).take k = cs.take k := take_append_of_le_length hk
        refine ⟨k, by simp; omega, ?_⟩
        rw [hkeep]
        exact ⟨hdir, hn, hsub.trans (left_sublist_byFullname _ _ _)⟩

/-- **The components.** From a directory on the path, the second loop
walks down as `descend` does, and adds entries for the directories it comes
through. -/
theorem findComponents_joined {fuel : ℕ} {pre : List Octets} (hd : t.dirAt pre = some d)
    (hpre : Plain slash pre) (hds : Plain slash ds) (hname : slash ∉ name)
    (hfuel : (joined slash (ds ++ [name])).tail.length ≤ fuel) (v : Volume) :
    (findComponents t fuel v (joined slash pre ++ [slash])
        (joined slash (ds ++ [name])).tail d).2 = t.descend d ds ∧
      Leaves (EntryOn t (pre ++ ds)) v (findComponents t fuel v (joined slash pre ++ [slash])
        (joined slash (ds ++ [name])).tail d).1 := by
  induction ds generalizing fuel pre d v with
  | nil =>
    have hfirst : firstIdx? slash (joined slash ([] ++ [name])).tail = none := by
      simpa using firstIdx?_eq_none hname
    cases fuel with
    | zero => exact ⟨rfl, Leaves.refl⟩
    | succ fuel =>
      simp only [findComponents, hfirst]
      exact ⟨rfl, Leaves.refl⟩
  | cons c ds ih =>
    have hc : slash ∉ c := hds c mem_cons_self
    have hds' : Plain slash ds := fun e he => hds e (mem_cons_of_mem c he)
    -- the component, its slash, and what follows
    have htail : (joined slash (c :: ds ++ [name])).tail =
        c ++ slash :: (joined slash (ds ++ [name])).tail := by
      rw [cons_append, joined_cons, tail_cons, cons_tail_joined]
    rw [htail] at hfuel ⊢
    obtain ⟨fuel, rfl⟩ : ∃ f, fuel = f + 1 := by
      cases fuel with
      | zero => simp at hfuel
      | succ f => exact ⟨f, rfl⟩
    have hfuel' : (joined slash (ds ++ [name])).tail.length ≤ fuel := by
      rw [length_append, length_cons] at hfuel
      omega
    have hdrop : (c ++ slash :: (joined slash (ds ++ [name])).tail).drop (c.length + 1) =
        (joined slash (ds ++ [name])).tail := by simp
    simp only [findComponents, firstIdx?_append hc, take_left, hdrop, descend]
    cases hgot : t.getfiledirparms d c with
    | error ret => exact ⟨rfl, leaves_of_sublist (List.Sublist.refl _)⟩
    | ok fi =>
      by_cases hdir : fi.isdir = true
      · have hd' := dirAt_of_getfiledirparms hd hgot hdir
        have hpre' : Plain slash (pre ++ [c]) :=
          plain_append.mpr ⟨hpre, fun e he => mem_singleton.mp he ▸ hc⟩
        have hfull : joined slash pre ++ [slash] ++ c = joined slash (pre ++ [c]) := by
          rw [joined_concat]
          simp
        simp only [hdir, if_true, hfull]
        obtain ⟨hret, hleaves⟩ := ih hd' hpre' hds' hfuel'
          (v.countMiss.addDidCacheEntry d fi.fileid (joined slash (pre ++ [c])) c)
        rw [append_assoc, singleton_append] at hleaves
        refine ⟨hret, Leaves.trans ⟨[_], v.didCache, rfl, List.Sublist.refl _, ?_⟩ hleaves⟩
        intro e he
        rw [mem_singleton.mp he]
        refine ⟨⟨?_, ?_⟩, pre ++ [c], ⟨ds, by simp⟩, rfl⟩
        · rw [pieces_joined hpre', hd']
        · rw [hgot, ← hdir]
      · simp only [hdir]
        exact ⟨rfl, leaves_of_sublist (List.Sublist.refl _)⟩

/-! ## The whole function -/

/-- What `get_dirid` comes to: the walk down from the root. -/
def parentDirid (t : Catalog) (cs : List Octets) (name : Octets) : Dirid :=
  if afpcMaxNameBytes ≤ name.length then ⟨-enametoolong, none, none⟩
  else
    match t.descend afpRootDid cs with
    | .error ret => ⟨ret, none, some name⟩
    | .ok d => ⟨0, some d, some name⟩

/-- The cut of the path that the second loop starts from. -/
theorem exists_start {k n : ℕ} (hk : k ≤ cs.length) (hcs : Plain slash cs) (hne : cs ≠ [])
    (hd : t.dirAt (cs.take k) = some d)
    (hn : n = if k = 0 then 1 else (joined slash (cs.take k)).length) (name : Octets) :
    ∃ j ≤ cs.length, t.dirAt (cs.take j) = some d ∧
      (if ((joined slash (cs ++ [name])).drop n).head? = some slash then
          ((joined slash (cs ++ [name])).take n ++ [slash],
            ((joined slash (cs ++ [name])).drop n).tail)
        else ((joined slash (cs ++ [name])).take n, (joined slash (cs ++ [name])).drop n)) =
      (joined slash (cs.take j) ++ [slash], (joined slash (cs.drop j ++ [name])).tail) := by
  have hcut : ∀ j, joined slash (cs ++ [name]) =
      joined slash (cs.take j) ++ joined slash (cs.drop j ++ [name]) := by
    intro j
    rw [← joined_append, ← append_assoc, take_append_drop]
  by_cases hk0 : k = 0
  · -- the root: a first name that is empty is skipped with its slash
    subst hk0
    rw [if_pos rfl] at hn
    subst hn
    obtain ⟨c, rest, rfl⟩ := exists_cons_of_ne_nil hne
    cases c with
    | nil =>
      refine ⟨1, by simp, ?_, ?_⟩
      · rw [← hd]
        exact dirAt_congr rfl
      · obtain ⟨tail, htail⟩ : ∃ l, joined slash (rest ++ [name]) = slash :: l :=
          ⟨_, cons_tail_joined.symm⟩
        simp [htail]
    | cons b c =>
      refine ⟨0, Nat.zero_le _, hd, ?_⟩
      have hb : b ≠ slash := fun h => hcs _ mem_cons_self (h ▸ mem_cons_self)
      simp [hb]
  · refine ⟨k, hk, hd, ?_⟩
    rw [if_neg hk0] at hn
    subst hn
    rw [hcut k, drop_left, take_left, ← cons_tail_joined]
    simp

/-- **What `get_dirid` computes.** With a correct cache, whatever is in it
and whatever expires, the result is that of the walk down from the root;
and the cache gets entries for directories on the path only. -/
theorem getDirid_joined (hv : v.Correct t) (hcs : Plain slash cs) (hname : slash ∉ name) :
    (getDirid t v (joined slash (cs ++ [name]))).2 = parentDirid t cs name ∧
      Leaves (EntryOn t cs) v (getDirid t v (joined slash (cs ++ [name]))).1 := by
  have hlast : lastIdx? slash (joined slash (cs ++ [name])) = some (joined slash cs).length :=
    lastIdx?_joined hname
  have hdrop : (joined slash (cs ++ [name])).drop ((joined slash cs).length + 1) = name := by
    simp [joined_concat]
  have htake : (joined slash (cs ++ [name])).take (joined slash cs).length = joined slash cs := by
    rw [joined_concat, take_left]
  simp only [getDirid, hlast, hdrop, htake, parentDirid]
  by_cases hlong : afpcMaxNameBytes ≤ name.length
  · rw [if_pos hlong, if_pos hlong]
    exact ⟨rfl, Leaves.refl⟩
  rw [if_neg hlong, if_neg hlong]
  by_cases hne : cs = []
  · subst hne
    exact ⟨rfl, Leaves.refl⟩
  have hpos : 0 < (joined slash cs).length := joined_ne_nil hne
  rw [if_neg (Nat.ne_of_gt hpos)]
  by_cases hfound : (v.findDiridByFullname (joined slash cs)).1 ≠ 0
  · -- the parent itself is cached
    rw [if_pos hfound]
    have hdir := hv.dirAt_of_find hcs hfound
    have hwalk : t.descend afpRootDid (cs ++ []) =
        t.descend (v.findDiridByFullname (joined slash cs)).1 [] := descend_append dirAt_nil hdir
    rw [append_nil] at hwalk
    rw [hwalk]
    exact ⟨rfl, leaves_find _ _⟩
  · rw [if_neg hfound]
    obtain ⟨k, hk, hdir, hlen, hsub⟩ := findKnownParent_joined (hv.find (joined slash cs)) hcs hne
      (le_rfl) afpRootDid
    obtain ⟨j, hj, hdir', hstart⟩ := exists_start hk hcs hne hdir hlen name
    simp only [hstart]
    have hplain : Plain slash (cs.take j) := hcs.take j
    obtain ⟨hret, hleaves⟩ := findComponents_joined hdir' hplain (hcs.drop j) hname
      (le_rfl) (findKnownParent (joined slash cs).length
        (v.findDiridByFullname (joined slash cs)).2 (joined slash cs) afpRootDid).1
    have hwalk : t.descend afpRootDid cs = t.descend
        (findKnownParent (joined slash cs).length (v.findDiridByFullname (joined slash cs)).2
          (joined slash cs) afpRootDid).2.1 (cs.drop j) := by
      conv_lhs => rw [← take_append_drop j cs]
      exact descend_append dirAt_nil hdir'
    rw [take_append_drop] at hleaves
    rw [hwalk, ← hret]
    refine ⟨?_, ?_⟩
    · split <;> simp_all
    · refine ((leaves_find v _).trans (leaves_of_sublist hsub)).trans ?_
      split <;> simp_all

end Volume

end NetatalkClient
