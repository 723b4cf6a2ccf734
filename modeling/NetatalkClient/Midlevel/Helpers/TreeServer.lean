import NetatalkClient.Codepage.Helpers.Separators
import NetatalkClient.Midlevel.Coherence
import NetatalkClient.Midlevel.Helpers.Requests
/-!
# Helpers: a server with a tree

A server that answers the lookups of `get_dirid` as a tree says, and other
requests in any way. With it `get_dirid` comes to what it comes to on the
tree itself, and the cache stays correct for the tree.
-/

namespace NetatalkClient

open Volume Separated

/-- The answer to a lookup. -/
def Catalog.lookupReply (t : Catalog) (did : ℕ) (name : Octets) : AfpReply :=
  match t.getfiledirparms did name with
  | .error ret => .ofCode ret
  | .ok fi => { AfpReply.ofCode 0 with isdir := fi.isdir, fileid := fi.fileid }

/-- The directory above the root. The root is the one object in it. -/
def rootParentDid : ℕ := 1

/-- Whether the tree has a directory of this name there. -/
def Catalog.isDirectory (t : Catalog) (did : ℕ) (name : Octets) : Bool :=
  did = rootParentDid || (t.addressed did name).any fun o => o.isdir

/-- A server that answers lookups from the tree, and tells a directory from
a file there. The parent that it reports is the one it was asked about. -/
def Catalog.server {σ : Type} (t : Catalog) (serve : AfpRequest → StateM σ AfpReply) :
    AfpRequest → StateM σ AfpReply
  | .getfiledirparms .nodeId did name => return t.lookupReply did name
  | .getfiledirparms what did name => do
      let reply ← serve (.getfiledirparms what did name)
      return { reply with isdir := t.isDirectory did name, parentdid := did }
  | r => serve r

/-- A server that answers lookups from the tree. -/
def Catalog.AnswersLookups {σ : Type} (t : Catalog) (serve : AfpRequest → StateM σ AfpReply) :
    Prop :=
  ∀ did name, serve (.getfiledirparms .nodeId did name) = pure (t.lookupReply did name)

theorem Catalog.answersLookups_server {σ : Type} (t : Catalog)
    (serve : AfpRequest → StateM σ AfpReply) : t.AnswersLookups (t.server serve) := fun _ _ => rfl

/-- What `get_dirid` finds for a path: the parent and the last component. -/
def Catalog.found (t : Catalog) (v : Volume) (path : Octets) : Option (ℕ × Octets) :=
  if (getDirid t v path).2.ret = 0 then some ((getDirid t v path).2.stored ⟨0, []⟩) else none

namespace Client

variable {σ : Type} {t : Catalog} {serve : AfpRequest → StateM σ AfpReply} {v : Volume}
variable {path : Octets}

/-! ## `get_dirid` -/

theorem neg_of_getfiledirparms {did : ℕ} {name : Octets} {ret : ℤ}
    (h : t.getfiledirparms did name = .error ret) : ret < 0 := by
  unfold Catalog.getfiledirparms at h
  split at h
  · cases h
  · cases h
    decide

theorem lookup_of_answers (hserve : t.AnswersLookups serve) (did : ℕ) (name : Octets)
    (c : Client σ) :
    (lookup serve did name).run c =
      (t.lookupReply did name, { c with
        volume := c.volume.countMiss
        journal := .lookup (t.lookupReply did name).rc :: c.journal }) := by
  show (((serve (.getfiledirparms .nodeId did name)).run c.server).1, _) = _
  rw [hserve did name]
  rfl

/-- What a call leaves of the client: its result and the volume. -/
def outcome {α : Type} (m : StateM (Client σ) α) (c : Client σ) : Volume × α :=
  ((m.run c).2.volume, (m.run c).1)

theorem findComponents_of_answers (hserve : t.AnswersLookups serve) (fuel : ℕ)
    (before component : Octets) (parentDid : ℕ) (c : Client σ) :
    outcome (findComponents serve fuel before component parentDid) c =
      Volume.findComponents t fuel c.volume before component parentDid := by
  induction fuel generalizing before component parentDid c with
  | zero => rfl
  | succ fuel ih =>
    unfold findComponents Volume.findComponents
    cases hidx : firstIdx? slash component with
    | none => rfl
    | some componentLen =>
      dsimp only
      cases hgot : t.getfiledirparms parentDid (component.take componentLen) with
      | error ret =>
        have hret : ret ≠ 0 := ne_of_lt (neg_of_getfiledirparms hgot)
        have hreply : t.lookupReply parentDid (component.take componentLen) = .ofCode ret := by
          rw [Catalog.lookupReply, hgot]
        have hrc : (AfpReply.ofCode ret).rc ≠ 0 := hret
        rw [outcome, run_bind, lookup_of_answers hserve, hreply]
        dsimp only
        rw [if_pos hrc]
        rfl
      | ok fi =>
        have hreply : t.lookupReply parentDid (component.take componentLen) =
            { AfpReply.ofCode 0 with isdir := fi.isdir, fileid := fi.fileid } := by
          rw [Catalog.lookupReply, hgot]
        rw [outcome, run_bind, lookup_of_answers hserve, hreply]
        dsimp only
        cases hdir : fi.isdir with
        | false => rfl
        | true => exact ih _ _ _ _

/-- The end of `get_dirid`, on a tree. -/
def stored (basename : Octets) : Volume × Except ℤ ℕ → Volume × Dirid
  | (v, .error ret) => (v, ⟨ret, none, some basename⟩)
  | (v, .ok did) => (v, ⟨0, some did, some basename⟩)

/-- `get_dirid` on a tree, cut where the lookups start. -/
theorem volumeGetDirid_eq (path : Octets) (v : Volume) :
    Volume.getDirid t v path =
      match startDirid path v with
      | (.inl got, v') => (v', got)
      | (.inr (basename, start), v') =>
          stored basename (Volume.findComponents t start.component.length v' start.before
            start.component start.parentDid) := by
  unfold Volume.getDirid startDirid
  cases lastIdx? slash path with
  | none => rfl
  | some lastSlash =>
    dsimp only
    split
    · rfl
    split
    · rfl
    split
    · rfl
    generalize findKnownParent (path.take lastSlash).length
      (v.findDiridByFullname (path.take lastSlash)).2 (path.take lastSlash) afpRootDid = known
    obtain ⟨v', parentDid, n⟩ := known
    have hstored : ∀ (basename : Octets) (r : Volume × Except ℤ ℕ),
        (match r with
          | (v, .error ret) => (v, (⟨ret, none, some basename⟩ : Dirid))
          | (v, .ok parentDid) => (v, ⟨0, some parentDid, some basename⟩)) =
          stored basename r := by
      rintro basename ⟨v, ret | did⟩
      · rfl
      · rfl
    dsimp only
    by_cases hslash : (path.drop n).head? = some slash
    · rw [if_pos hslash, if_pos hslash]
      exact hstored _ _
    · rw [if_neg hslash, if_neg hslash]
      exact hstored _ _

/-- **On a tree's server, `get_dirid` does what it does on the tree.** -/
theorem getDirid_of_answers (hserve : t.AnswersLookups serve) (path : Octets) (c : Client σ) :
    outcome (getDirid serve path) c = Volume.getDirid t c.volume path := by
  have hstart : (onVolume (startDirid path)).run c =
      ((startDirid path c.volume).1, { c with volume := (startDirid path c.volume).2 }) := rfl
  have hstarted := started_startDirid path c.volume
  rw [volumeGetDirid_eq, outcome, getDirid, run_bind, hstart]
  generalize startDirid path c.volume = started at hstarted
  obtain ⟨step, v'⟩ := started
  dsimp only at hstarted ⊢
  cases hstarted with
  | stored _ => rfl
  | noParent _ _ => rfl
  | @below basename start _ =>
    dsimp only
    rw [← findComponents_of_answers hserve _ _ _ _ { c with volume := v' }, outcome, run_bind]
    generalize (findComponents serve start.component.length start.before
      start.component start.parentDid).run { c with volume := v' } = found
    obtain ⟨ret | did, c'⟩ := found
    · rfl
    · rfl

theorem neg_of_findComponents {fuel : ℕ} {before component : Octets} {parentDid : ℕ} {ret : ℤ}
    (h : (Volume.findComponents t fuel v before component parentDid).2 = .error ret) : ret < 0 := by
  induction fuel generalizing v before component parentDid with
  | zero => cases h
  | succ fuel ih =>
    unfold Volume.findComponents at h
    cases hidx : firstIdx? slash component with
    | none =>
      rw [hidx] at h
      cases h
    | some n =>
      rw [hidx] at h
      dsimp only at h
      cases hgot : t.getfiledirparms parentDid (component.take n) with
      | error ret' =>
        rw [hgot] at h
        cases h
        exact neg_of_getfiledirparms hgot
      | ok fi =>
        rw [hgot] at h
        dsimp only at h
        cases hdir : fi.isdir with
        | false =>
          rw [hdir] at h
          cases h
        | true =>
          rw [hdir] at h
          exact ih h

/-- On a tree, a path is resolved or `get_dirid` returns a number below 0. -/
theorem getDirid_neg_or_found (t : Catalog) (v : Volume) (path : Octets) :
    (Volume.getDirid t v path).2.ret < 0 ∧ t.found v path = none ∨
      ∃ did name, (Volume.getDirid t v path).2 = ⟨0, some did, some name⟩ ∧
        t.found v path = some (did, name) := by
  have hcases : (Volume.getDirid t v path).2.ret < 0 ∨
      ∃ did name, (Volume.getDirid t v path).2 = ⟨0, some did, some name⟩ := by
    have hstarted := started_startDirid path v
    rw [volumeGetDirid_eq]
    generalize startDirid path v = started at hstarted
    obtain ⟨step, v'⟩ := started
    dsimp only at hstarted
    cases hstarted with
    | stored _ => exact .inr ⟨_, _, rfl⟩
    | noParent _ hret => exact .inl hret
    | @below basename start _ =>
      dsimp only
      generalize hwalk : Volume.findComponents t start.component.length v' start.before
        start.component start.parentDid = walk
      obtain ⟨v'', ret | did⟩ := walk
      · exact .inl (neg_of_findComponents (congrArg Prod.snd hwalk))
      · exact .inr ⟨_, _, rfl⟩
  rcases hcases with hret | ⟨did, name, hgot⟩
  · exact .inl ⟨hret, if_neg (ne_of_lt hret)⟩
  · refine .inr ⟨did, name, hgot, ?_⟩
    rw [Catalog.found, hgot, if_pos rfl]
    rfl

/-- With a correct cache, what is found does not depend on it. -/
theorem getDirid_rooted {v' : Volume} (hv : v.Correct t) (hv' : v'.Correct t)
    (hpath : Rooted path) :
    (Volume.getDirid t v' path).2 = (Volume.getDirid t v path).2 ∧
      (Volume.getDirid t v' path).1.Correct t := by
  rcases hpath with habs | hnone
  · refine ⟨?_, Mount.correct_getDirid hv' habs⟩
    rw [(Mount.getDirid_absolute hv habs).1, (Mount.getDirid_absolute hv' habs).1]
  · have hidx : lastIdx? slash path = none := lastIdx?_eq_none hnone
    unfold Volume.getDirid
    rw [hidx]
    exact ⟨rfl, hv'⟩

theorem rooted_convertPathToAfpAlloc {host : ByteOrder} {encoding : PathEncoding}
    {q : Octets} (hpath : path.head? = some slash)
    (h : convertPathToAfpAlloc host encoding path = .ok q) : Rooted q := by
  unfold convertPathToAfpAlloc at h
  split at h
  · cases h
  · dsimp only at h
    split at h
    · cases h
    split at h
    · cases h
    · cases h
      exact rooted_convertPathToAfp hpath

/-- `get_dirid` finds what it finds on the tree, and keeps what its lookups
keep. -/
theorem finds_getDirid {P : Client σ → Prop}
    (hserve : t.AnswersLookups serve) (hkeep : LookupsKeep serve P) (hv : v.Correct t)
    (hpath : Rooted path) :
    Ensures (fun c => c.volume.Correct t ∧ P c) (getDirid serve path)
      fun got c => got = (Volume.getDirid t v path).2 ∧ c.volume.Correct t ∧ P c := by
  rintro c ⟨hc, hP⟩
  have houtcome := getDirid_of_answers hserve path c
  have hgot := getDirid_rooted hv hc hpath
  rw [← houtcome] at hgot
  exact ⟨hgot.1, hgot.2, hkeep.getDirid path c hP⟩

/-- The same, as the calls on metadata take it. -/
theorem finds_resolve {P : Client σ → Prop} {converted p : Octets}
    {cfg : MidlevelConfig} (hserve : t.AnswersLookups serve) (hkeep : LookupsKeep serve P)
    (hv : v.Correct t) (hp : Rooted p) :
    Ensures (fun c => c.volume.Correct t ∧ P c) ((Client.calls serve cfg path converted).getDirid p)
      fun res c => ((t.found v p = none → res.1 < 0) ∧ ∀ o, t.found v p = some o → res = (0, o)) ∧
        c.volume.Correct t ∧ P c := by
  refine .bind (finds_getDirid hserve hkeep hv hp) fun got => .assume fun hgot => ?_
  refine .pure fun c hc => ⟨?_, hc⟩
  rw [hgot]
  rcases getDirid_neg_or_found t v p with ⟨hneg, hnone⟩ | ⟨did, name, hres, hfound⟩
  · rw [hnone]
    exact ⟨fun _ => hneg, nofun⟩
  · rw [hfound, hres]
    refine ⟨nofun, ?_⟩
    rintro o ⟨⟩
    rfl

/-- Lookups change nothing on such a server. -/
theorem lookupsKeep_server {P : σ → Prop} (hserve : t.AnswersLookups serve) :
    LookupsKeep serve fun c => P c.server where
  lookup did name c hc := by
    rw [lookup_of_answers hserve]
    exact hc
  note _ _ _ hc := hc
  volume _ _ hc := hc

end Client

end NetatalkClient
