import NetatalkClient.Afp.Listing
/-!
# When a listing ends

`ll_readdir` asks for entries until a reply ends it. It sorts the replies by
their code and has no branch for a code it does not list: after such a
reply it asks for the same entries again. And a directory that has gone
away ends a listing like its last entry does. So a listing ends after a
request for each entry and one more, and reports every error, exactly if
the replies are as in `listing_ends_iff`.
-/

namespace NetatalkClient

open Volume

/-- What comes of a request: a code, and entries. -/
abbrev EnumerateReply := ℤ × List AfpFileInfo

namespace EnumerateReply

/-- The code is that of an error that `ll_readdir` returns. -/
def Fails (r : EnumerateReply) : Prop :=
  r.1 = -1 ∨ r.1 = kFPAccessDenied ∨ r.1 ∈ readdirFailures

/-- The reply ends the listing. -/
def Ends (r : EnumerateReply) : Prop :=
  r.Fails ∨ r.1 = kFPObjectNotFound ∨ r.1 = kFPDirNotFound ∨ r.1 = 0 ∧ r.2 = []

/-- The code is neither success nor `kFPObjectNotFound`. -/
def IsError (r : EnumerateReply) : Prop := r.1 ≠ 0 ∧ r.1 ≠ kFPObjectNotFound

instance (r : EnumerateReply) : Decidable r.Fails := inferInstanceAs (Decidable (_ ∨ _))

instance (r : EnumerateReply) : Decidable r.Ends := inferInstanceAs (Decidable (_ ∨ _))

instance (r : EnumerateReply) : Decidable r.IsError := inferInstanceAs (Decidable (_ ∧ _))

/-- The entries that `ll_readdir` takes from the reply. -/
def entries (r : EnumerateReply) : List AfpFileInfo :=
  if r.1 = 0 ∨ r.1 = kFPObjectNotFound then r.2 else []

/-- What `ll_readdir` leaves its loop with after a reply, if it does. -/
def result (r : EnumerateReply) (filebase : List AfpFileInfo) :
    Option (Except ℤ (List AfpFileInfo)) :=
  if r.1 = -1 then some (.error (-eio))
  else if r.1 = 0 ∨ r.1 = kFPObjectNotFound then
    if r.2 = [] ∨ r.1 = kFPObjectNotFound then some (.ok (filebase ++ r.2)) else none
  else if r.1 = kFPAccessDenied then some (.error (-eacces))
  else if r.1 = kFPDirNotFound then some (.ok filebase)
  else if r.1 ∈ readdirFailures then some (.error (-eio))
  else none

variable {r : EnumerateReply} {filebase : List AfpFileInfo}

/-- It does if the reply ends the listing, with an error exactly if the code is
that of one. -/
inductive Left (r : EnumerateReply) : Option (Except ℤ (List AfpFileInfo)) → Prop
  | goesOn (hends : ¬r.Ends) : Left r none
  | failed {ret : ℤ} (hfails : r.Fails) (hret : ret ≠ 0) : Left r (some (.error ret))
  | listed {files : List AfpFileInfo} (hends : r.Ends) (hfails : ¬r.Fails) :
      Left r (some (.ok files))

theorem left_result (r : EnumerateReply) (filebase : List AfpFileInfo) :
    r.Left (r.result filebase) := by
  unfold result
  by_cases hlost : r.1 = -1
  · rw [if_pos hlost]
    exact .failed (.inl hlost) (by decide)
  rw [if_neg hlost]
  by_cases hlists : r.1 = 0 ∨ r.1 = kFPObjectNotFound
  · have hfails : ¬r.Fails := by
      rintro (h | h | h)
      · exact hlost h
      · rw [h] at hlists
        exact absurd hlists (by decide)
      · rcases hlists with hzero | hend
        · rw [hzero] at h
          exact absurd h (by decide)
        · rw [hend] at h
          exact absurd h (by decide)
    rw [if_pos hlists]
    split
    · next hlast =>
      refine .listed (.inr ?_) hfails
      rcases hlists with hzero | hend
      · exact hlast.elim (fun hempty => .inr (.inr ⟨hzero, hempty⟩)) .inl
      · exact .inl hend
    · next hmore =>
      obtain ⟨hsome, hend⟩ := not_or.mp hmore
      have hzero : r.1 = 0 := hlists.resolve_right hend
      refine .goesOn ?_
      rintro (h | h | h | h)
      · exact hfails h
      · exact hend h
      · rw [hzero] at h
        exact absurd h (by decide)
      · exact hsome h.2
  rw [if_neg hlists]
  by_cases hdenied : r.1 = kFPAccessDenied
  · rw [if_pos hdenied]
    exact .failed (.inr (.inl hdenied)) (by decide)
  rw [if_neg hdenied]
  by_cases hgone : r.1 = kFPDirNotFound
  · rw [if_pos hgone]
    refine .listed (.inr (.inr (.inl hgone))) ?_
    rintro (h | h | h)
    · exact hlost h
    · exact hdenied h
    · rw [hgone] at h
      exact absurd h (by decide)
  rw [if_neg hgone]
  split
  · next hfailure => exact .failed (.inr (.inr hfailure)) (by decide)
  · next hother =>
    refine .goesOn ?_
    rintro ((h | h | h) | h | h | h)
    · exact hlost h
    · exact hdenied h
    · exact hother h
    · exact hlists (.inr h)
    · exact hgone h
    · exact hlists (.inl h.1)

end EnumerateReply

section Replies

variable (volume : ReaddirVolume) (send : EnumerateServer) (dirid : ℕ) (basename : Octets)
variable (resource : Bool)

/-- What comes of a request from this index on, after `sent` others. -/
def enumerated (sent startindex : ℕ) : EnumerateReply :=
  volume.enumerateResult (send sent (volume.enumerateRequest dirid (volume.filebitmap resource)
    volume.dirbitmap readdirReqcount startindex basename))

/-- The number of entries in the replies to so many requests, each of which
asks for what comes after those. -/
def received : ℕ → ℕ
  | 0 => 0
  | n + 1 => received n +
      (enumerated volume send dirid basename resource n (1 + received n)).entries.length

/-- The reply to a request, by its number. -/
def reply (n : ℕ) : EnumerateReply :=
  enumerated volume send dirid basename resource n
    (1 + received volume send dirid basename resource n)

/-- The number of the reply that ends the listing. -/
def EndsAt (k : ℕ) : Prop :=
  (reply volume send dirid basename resource k).Ends ∧
    ∀ i < k, ¬(reply volume send dirid basename resource i).Ends

end Replies

variable {volume : ReaddirVolume} {send : EnumerateServer} {dirid : ℕ} {basename : Octets}
variable {resource : Bool} {turns n k : ℕ} {filebase : List AfpFileInfo}

/-! ## The loop -/

/-- **One turn.** -/
theorem llReaddirLoop_succ :
    llReaddirLoop volume send dirid basename resource (turns + 1) n
        (1 + received volume send dirid basename resource n) filebase =
      match (reply volume send dirid basename resource n).result filebase with
      | some out => some out
      | none => llReaddirLoop volume send dirid basename resource turns (n + 1)
          (1 + received volume send dirid basename resource (n + 1))
          (filebase ++ (reply volume send dirid basename resource n).entries) := by
  rw [llReaddirLoop, received, ← add_assoc]
  unfold reply
  rw [show ∀ start, volume.enumerateResult (send n (volume.enumerateRequest dirid
      (volume.filebitmap resource) volume.dirbitmap readdirReqcount start basename)) =
    enumerated volume send dirid basename resource n start from fun _ => rfl]
  generalize enumerated volume send dirid basename resource n
    (1 + received volume send dirid basename resource n) = r
  obtain ⟨rc, base⟩ := r
  unfold EnumerateReply.result EnumerateReply.entries
  dsimp only
  by_cases hlost : rc = -1
  · rw [if_pos hlost, if_pos hlost]
  rw [if_neg hlost, if_neg hlost]
  by_cases hlists : rc = 0 ∨ rc = kFPObjectNotFound
  · rw [if_pos hlists, if_pos hlists, if_pos hlists]
    split
    · rfl
    · rfl
  rw [if_neg hlists, if_neg hlists, if_neg hlists, List.append_nil]
  by_cases hdenied : rc = kFPAccessDenied
  · rw [if_pos hdenied, if_pos hdenied]
  rw [if_neg hdenied, if_neg hdenied]
  by_cases hgone : rc = kFPDirNotFound
  · rw [if_pos hgone, if_pos hgone]
  rw [if_neg hgone, if_neg hgone]
  split
  · rfl
  · rfl

/-- A loop whose turns all go on does not come to an end. -/
theorem llReaddirLoop_none
    (hends : ∀ i, n ≤ i → i < n + turns → ¬(reply volume send dirid basename resource i).Ends) :
    llReaddirLoop volume send dirid basename resource turns n
      (1 + received volume send dirid basename resource n) filebase = none := by
  induction turns generalizing n filebase with
  | zero => rfl
  | succ turns ih =>
    have hleft := (reply volume send dirid basename resource n).left_result filebase
    rw [llReaddirLoop_succ]
    generalize (reply volume send dirid basename resource n).result filebase = out at hleft ⊢
    have hhere := hends n le_rfl (by omega)
    cases hleft with
    | goesOn => exact ih fun i hi hlt => hends i (by omega) (by omega)
    | failed hfails => exact absurd (.inl hfails) hhere
    | listed hlast => exact absurd hlast hhere

/-- A loop with enough turns ends with the reply that ends the listing. -/
theorem llReaddirLoop_some (filebase : List AfpFileInfo)
    (hk : (reply volume send dirid basename resource k).Ends)
    (hends : ∀ i, n ≤ i → i < k → ¬(reply volume send dirid basename resource i).Ends)
    (hn : n ≤ k) (hturns : k < n + turns) :
    ∃ out, llReaddirLoop volume send dirid basename resource turns n
        (1 + received volume send dirid basename resource n) filebase = some out ∧
      (reply volume send dirid basename resource k).Left (some out) := by
  induction turns generalizing n filebase with
  | zero => exact absurd hturns (by omega)
  | succ turns ih =>
    have hleft := (reply volume send dirid basename resource n).left_result filebase
    rw [llReaddirLoop_succ]
    generalize (reply volume send dirid basename resource n).result filebase = out at hleft ⊢
    rcases hn.eq_or_lt with rfl | hlt
    · cases hleft with
      | goesOn hhere => exact absurd hk hhere
      | failed hfails hret => exact ⟨_, rfl, .failed hfails hret⟩
      | listed hlast hfails => exact ⟨_, rfl, .listed hlast hfails⟩
    · have hhere := hends n le_rfl hlt
      cases hleft with
      | goesOn => exact ih _ (fun i hi => hends i (by omega)) hlt (by omega)
      | failed hfails => exact absurd (.inl hfails) hhere
      | listed hlast => exact absurd hlast hhere

/-! ## The listing -/

/-- The directory whose entries `ll_readdir` asks for, if it gets that far. -/
def listedDirectory (volume : ReaddirVolume) (tree : Catalog) (cache : Volume) (path : Octets) :
    Option (ℕ × Octets) :=
  if invalidPath volume.avNumber volume.pathEncoding path then none
  else
    match (cache.getDirid tree path).2 with
    | ⟨ret, some dirid, some basename⟩ => if ret < 0 then none else some (dirid, basename)
    | _ => none

section Listing

variable {host : ByteOrder} {tree : Catalog} {cache : Volume} {path : Octets}

/-- Without a directory it sends no request, and fails. -/
theorem llReaddir_refused (h : listedDirectory volume tree cache path = none) :
    ∃ ret, ret ≠ 0 ∧
      ∀ turns, llReaddir host volume tree cache send turns path resource = some (ret, none) := by
  unfold listedDirectory at h
  unfold llReaddir
  by_cases hinvalid : invalidPath volume.avNumber volume.pathEncoding path = true
  · exact ⟨-enametoolong, by decide, fun _ => if_pos hinvalid⟩
  rw [if_neg hinvalid] at h
  simp only [if_neg hinvalid]
  refine ⟨-enoent, by decide, fun turns => ?_⟩
  generalize (cache.getDirid tree path).2 = got at h ⊢
  obtain ⟨ret, _ | dirid, _ | basename⟩ := got
  · rfl
  · rfl
  · rfl
  · by_cases hneg : ret < 0
    · exact if_pos hneg
    · dsimp only at h
      rw [if_neg hneg] at h
      cases h

/-- With one, it is the loop. -/
theorem llReaddir_listed (host : ByteOrder) (send : EnumerateServer) (resource : Bool)
    (h : listedDirectory volume tree cache path = some (dirid, basename)) :
    ∃ files : List AfpFileInfo → List AfpFileInfo, ∀ turns,
      llReaddir host volume tree cache send turns path resource =
        (llReaddirLoop volume send dirid basename resource turns 0 1 []).map fun
          | .error ret => (ret, none)
          | .ok filebase => (0, some (files filebase)) := by
  unfold listedDirectory at h
  unfold llReaddir
  by_cases hinvalid : invalidPath volume.avNumber volume.pathEncoding path = true
  · rw [if_pos hinvalid] at h
    cases h
  rw [if_neg hinvalid] at h
  simp only [if_neg hinvalid]
  generalize (cache.getDirid tree path).2 = got at h ⊢
  obtain ⟨ret, _ | dirid', _ | basename'⟩ := got
  · cases h
  · cases h
  · cases h
  · dsimp only at h ⊢
    by_cases hneg : ret < 0
    · rw [if_pos hneg] at h
      cases h
    · rw [if_neg hneg] at h
      obtain ⟨rfl, rfl⟩ := Prod.mk.inj (Option.some.inj h)
      refine ⟨fun filebase => if volume.avNumber < 30 then
        (filebase.map (toUnixName host volume)).map (fillNonunix volume)
        else filebase.map (toUnixName host volume), fun _ => if_neg hneg⟩

/-- **The requests of a listing** are those up to the reply that ends it, and
it fails exactly if that reply does. -/
theorem llReaddir_endsAt (host : ByteOrder)
    (h : listedDirectory volume tree cache path = some (dirid, basename))
    (hk : EndsAt volume send dirid basename resource k) :
    (∀ turns, turns ≤ k → llReaddir host volume tree cache send turns path resource = none) ∧
      ∀ turns, k < turns → ∃ out,
        llReaddir host volume tree cache send turns path resource = some out ∧
          (out.1 ≠ 0 ↔ (reply volume send dirid basename resource k).Fails) := by
  obtain ⟨files, hrun⟩ := llReaddir_listed host send resource h
  refine ⟨fun turns hle => ?_, fun turns hlt => ?_⟩
  · rw [hrun, show 1 = 1 + received volume send dirid basename resource 0 from rfl,
      llReaddirLoop_none fun i _ hi => hk.2 i (by omega)]
    rfl
  · obtain ⟨out, hout, hleft⟩ := llReaddirLoop_some [] hk.1 (fun i _ => hk.2 i) (Nat.zero_le k)
      (by omega : k < 0 + turns)
    rw [hrun, show 1 = 1 + received volume send dirid basename resource 0 from rfl, hout]
    cases hleft with
    | failed hfails hret => exact ⟨_, rfl, iff_of_true hret hfails⟩
    | listed _ hfails => exact ⟨_, rfl, iff_of_false (fun h => h rfl) hfails⟩

/-- Where no reply ends it, it goes on for ever. -/
theorem llReaddir_endless (h : listedDirectory volume tree cache path = some (dirid, basename))
    (hends : ∀ i, ¬(reply volume send dirid basename resource i).Ends) (turns : ℕ) :
    llReaddir host volume tree cache send turns path resource = none := by
  obtain ⟨files, hrun⟩ := llReaddir_listed host send resource h
  rw [hrun, show 1 = 1 + received volume send dirid basename resource 0 from rfl,
    llReaddirLoop_none fun i _ _ => hends i]
  rfl

/-- A listing ends after so many requests that there is one for each entry and
one more at most, and reports every error. -/
def EndsOrderly (host : ByteOrder) (volume : ReaddirVolume) (tree : Catalog) (cache : Volume)
    (send : EnumerateServer) (path : Octets) (resource : Bool) : Prop :=
  ∃ k out, llReaddir host volume tree cache send k path resource = some out ∧
    (∀ turns < k, llReaddir host volume tree cache send turns path resource = none) ∧
    ∀ dirid basename, listedDirectory volume tree cache path = some (dirid, basename) →
      k ≤ received volume send dirid basename resource k + 1 ∧
        ((∃ i < k, (reply volume send dirid basename resource i).IsError) → out.1 ≠ 0)

variable (volume send dirid basename resource) in
/-- There is a reply that ends the listing, after as many entries as replies;
and if any reply was an error, it is that of an error which is returned. -/
def RepliesOrderly : Prop :=
  ∃ k, EndsAt volume send dirid basename resource k ∧
    k ≤ received volume send dirid basename resource (k + 1) ∧
    ((∃ i ≤ k, (reply volume send dirid basename resource i).IsError) →
      (reply volume send dirid basename resource k).Fails)

/-- A listing that ends has a reply that ends it. -/
theorem exists_endsAt (h : listedDirectory volume tree cache path = some (dirid, basename))
    {turns : ℕ} {out : ℤ × Option (List AfpFileInfo)}
    (hout : llReaddir host volume tree cache send turns path resource = some out) :
    ∃ k, EndsAt volume send dirid basename resource k := by
  classical
  by_contra hnone
  have hends : ∀ i, ¬(reply volume send dirid basename resource i).Ends := by
    intro i hi
    have hex : ∃ i, (reply volume send dirid basename resource i).Ends := ⟨i, hi⟩
    exact hnone ⟨Nat.find hex, Nat.find_spec hex, fun j hj => Nat.find_min hex hj⟩
  rw [llReaddir_endless h hends] at hout
  cases hout

/-- **When a listing ends, and hides no error.** -/
theorem listing_ends_iff (host : ByteOrder) (volume : ReaddirVolume) (tree : Catalog)
    (cache : Volume) (send : EnumerateServer) (path : Octets) (resource : Bool) :
    EndsOrderly host volume tree cache send path resource ↔
      ∀ dirid basename, listedDirectory volume tree cache path = some (dirid, basename) →
        RepliesOrderly volume send dirid basename resource := by
  constructor
  · rintro ⟨requests, out, hout, hbefore, horderly⟩ dirid basename h
    obtain ⟨k, hk⟩ := exists_endsAt h hout
    obtain ⟨hgoing, hended⟩ := llReaddir_endsAt host h hk
    obtain ⟨out', hout', hfails⟩ := hended (k + 1) k.lt_succ_self
    -- it ends with the request that is answered by that reply
    have hrequests : requests = k + 1 := by
      rcases lt_trichotomy requests (k + 1) with hlt | heq | hgt
      · rw [hgoing requests (Nat.le_of_lt_succ hlt)] at hout
        cases hout
      · exact heq
      · rw [hbefore (k + 1) hgt] at hout'
        cases hout'
    subst hrequests
    obtain rfl := Option.some.inj (hout.symm.trans hout')
    obtain ⟨hbound, herror⟩ := horderly dirid basename h
    refine ⟨k, hk, Nat.le_of_succ_le_succ hbound, ?_⟩
    rintro ⟨i, hi, hstrange⟩
    exact hfails.mp (herror ⟨i, Nat.lt_succ_of_le hi, hstrange⟩)
  · intro horderly
    cases hdir : listedDirectory volume tree cache path with
    | none =>
      obtain ⟨ret, -, hrun⟩ := llReaddir_refused hdir
      refine ⟨0, _, hrun 0, fun turns h => absurd h turns.not_lt_zero, ?_⟩
      intro dirid basename h
      rw [hdir] at h
      cases h
    | some dir =>
      obtain ⟨dirid, basename⟩ := dir
      obtain ⟨k, hk, hbound, herror⟩ := horderly dirid basename hdir
      obtain ⟨hgoing, hended⟩ := llReaddir_endsAt host hdir hk
      obtain ⟨out, hout, hfails⟩ := hended (k + 1) k.lt_succ_self
      refine ⟨k + 1, out, hout, fun turns h => hgoing turns (Nat.le_of_lt_succ h), ?_⟩
      intro dirid' basename' h
      obtain ⟨rfl, rfl⟩ := Prod.mk.inj (Option.some.inj (hdir.symm.trans h))
      refine ⟨Nat.succ_le_succ hbound, ?_⟩
      rintro ⟨i, hi, hstrange⟩
      exact hfails.mpr (herror ⟨i, Nat.le_of_lt_succ hi, hstrange⟩)

end Listing

/-! ## Replies that are not -/

/-- A server that does not answer in time. -/
def timedOut : EnumerateServer := fun _ _ => .error etimedout

/-- A server on which the directory has gone away. -/
def dirGone : EnumerateServer := fun _ _ => .error kFPDirNotFound

/-- A listing that times out goes on for ever, and one of a directory that has
gone away is empty and successful. -/
theorem listing_endless_or_silent :
    ¬EndsOrderly .little utf8Volume twoDirectories mounted timedOut [47, 97] false ∧
      (llReaddir .little utf8Volume twoDirectories mounted dirGone 1 [47, 97] false =
          some (0, some []) ∧
        ¬EndsOrderly .little utf8Volume twoDirectories mounted dirGone [47, 97]
          false) := by
  have hdir : listedDirectory utf8Volume twoDirectories mounted [47, 97] =
      some (afpRootDid, [97]) := by
    decide
  have hone : llReaddir .little utf8Volume twoDirectories mounted dirGone 1 [47, 97]
      false = some (0, some []) := rfl
  refine ⟨?_, hone, ?_⟩
  · rintro ⟨k, out, hout, -⟩
    have hends : ∀ i, ¬(reply utf8Volume timedOut afpRootDid [97] false i).Ends := by
      intro i
      show ¬EnumerateReply.Ends (etimedout, [])
      decide
    rw [llReaddir_endless hdir hends] at hout
    cases hout
  · rintro ⟨k, out, hout, hbefore, horderly⟩
    obtain rfl | rfl | hk : k = 0 ∨ k = 1 ∨ 1 < k := by omega
    · cases hout
    · obtain rfl := Option.some.inj (hone.symm.trans hout)
      refine (horderly _ _ hdir).2 ⟨0, Nat.one_pos, ?_⟩ rfl
      show EnumerateReply.IsError (kFPDirNotFound, [])
      decide
    · rw [hbefore 1 hk] at hone
      cases hone

end NetatalkClient
