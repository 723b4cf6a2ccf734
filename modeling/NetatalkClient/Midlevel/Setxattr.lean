import NetatalkClient.Midlevel.Helpers.AttributeServer
/-!
# Midlevel: what `ml_setxattr` leaves

What is on a server that keeps attributes when `ml_setxattr` has returned
0, whatever the server refused on the way: the resource fork with the
value laid over it, the FinderInfo, or the attribute.
-/

namespace NetatalkClient

open Volume AfpCalls Client Octets AttributeServer List Function

/-! ## Setting the resource fork -/

/-- The attributes with another resource fork of one object. -/
def withResource (store : ℕ → Attributes) (fileid : ℕ) (b : Octets) : ℕ → Attributes :=
  update store fileid { store fileid with resource := b }

@[simp]
theorem withResource_self (store : ℕ → Attributes) (fileid : ℕ) (b : Octets) :
    withResource store fileid b fileid = { store fileid with resource := b } := update_self _ _ _

theorem withResource_same (store : ℕ → Attributes) (fileid : ℕ) :
    withResource store fileid (store fileid).resource = store := Function.update_eq_self _ _

section Setting

variable {server : AttributeServer} {cfg : MidlevelConfig} {volume : MetadataVolume}
variable {host : ByteOrder} {cache : Volume} {path converted value : Octets}
variable {store : ℕ → Attributes} {forkid fileid : ℕ} {b : Octets}
variable {J : (ℕ → Attributes) → Prop}

/-- An open fork and what is in it. -/
def ForkHolds (t : Catalog) (store : ℕ → Attributes) (fileid forkid : ℕ) (b : Octets) :
    Client AttributeState → Prop :=
  StoreHolds t fun store' forks => store' = withResource store fileid b ∧ forks forkid = some fileid

/-- What a request on an open fork does to it. -/
theorem ForkHolds.onFork {s : AttributeState} {f : Attributes → AfpReply × Attributes}
    (hs : s.store = withResource store fileid b ∧ s.forks forkid = some fileid) {b' : Octets}
    (hf : (f { store fileid with resource := b }).2 = { store fileid with resource := b' }) :
    (onFork forkid f s).2.store = withResource store fileid b' ∧
      (onFork forkid f s).2.forks forkid = some fileid := by
  rw [onFork_some hs.2, hs.1, withResource_self, hf]
  refine ⟨?_, hs.2⟩
  show update (withResource store fileid b) fileid _ = _
  exact update_idem _ _ _

/-- Requests that change no attribute. -/
theorem holds_sameFork {I : (ℕ → Attributes) → (ℕ → Option ℕ) → Prop} {about : List Octets}
    {r : AfpRequest} {reply : AfpReply} {forkid : ℕ} (hr : server.serve r = server.answer r)
    (hperform : ∀ taken s, server.perform taken r s =
      onFork forkid (fun m => (reply, m)) s) :
    Keeps (StoreHolds server.tree I) (ask server.serve about r) := by
  refine holds_ask hr fun taken s hs => ?_
  rw [hperform, onFork_same fun _ => rfl]
  exact hs

theorem stores_calls :
    Stores (server.calls cfg path converted) forkid
      (ForkHolds server.tree store fileid forkid) where
  lock b offset n := by
    refine .orKept <| keeps_tryLock ?_
    exact holds_sameFork rfl fun _ _ => rfl
  unlock b offset n := by
    refine .orKept <| .bind ?_ fun _ => .kept
    exact holds_sameFork rfl fun _ _ => rfl
  write b offset chunk := by
    have hask : Ensures (ForkHolds server.tree store fileid forkid b)
        (ask server.serve [] (.write forkid offset chunk)) fun reply c => reply.rc = 0 →
          StoreHolds server.tree (fun store' forks => ∃ n ≤ chunk.length, reply.size = offset + n ∧
            store' = withResource store fileid (b.pwrite (chunk.take n) offset) ∧
              forks forkid = some fileid) c := by
      refine carriedOut_ask rfl fun taken s hs _ => ?_
      refine ⟨min taken chunk.length, min_le_right _ _, ?_, ForkHolds.onFork hs rfl⟩
      show (onFork forkid _ s).1.size = _
      rw [onFork_some hs.2]
    refine .bind hask fun reply => .pure fun c hc hrc => ?_
    obtain ⟨hvolume, n, hn, hsize, hstore⟩ := hc hrc
    exact ⟨n, hn, hsize, hvolume, hstore⟩

/-- Closing a fork changes no attribute. -/
theorem holds_closeResource {dirty : Bool} :
    Keeps (StoreHas server.tree J)
      ((server.calls cfg path converted).closeResource forkid dirty) := by
  have hflush : Keeps (StoreHas server.tree J)
      ((server.calls cfg path converted).flushResource forkid dirty) := by
    refine .ite (fun _ => .bind ?_ fun _ => .kept) fun _ => .kept
    exact holds_sameFork rfl fun _ _ => rfl
  have hclose : Keeps (StoreHas server.tree J)
      ((server.calls cfg path converted).afpClosefork forkid) := by
    exact .bind (holds_ask rfl fun _ _ hs => hs) fun _ => .kept
  refine .bind hflush fun ret => .bind hclose fun rc => ?_
  exact .orKept <| .kept

/-- The truncation leaves some contents: that it was refused may not be
noticed. -/
theorem holds_zeroResource {position : ℤ} :
    Ensures (ForkHolds server.tree store fileid forkid b)
      ((server.calls cfg path converted).zeroResource forkid value position) fun _ =>
        StoreHas server.tree fun store' => ∃ b, store' = withResource store fileid b := by
  have hany : ∀ c, ForkHolds server.tree store fileid forkid b c →
      StoreHas server.tree (fun store' => ∃ b, store' = withResource store fileid b) c :=
    fun c hc => ⟨hc.1, b, hc.2.1⟩
  have hask : Keeps (StoreHolds server.tree fun store' forks =>
      (∃ b, store' = withResource store fileid b) ∧ forks forkid = some fileid)
      (ask server.serve [] (.setforkparms forkid 0)) := by
    refine holds_ask rfl ?_
    rintro taken s ⟨⟨b, hb⟩, hfork⟩
    obtain ⟨hstore, hfork'⟩ := ForkHolds.onFork
      (f := fun m => (.ofCode 0, { m with resource := m.resource.ftruncate 0 })) ⟨hb, hfork⟩ rfl
    exact ⟨⟨_, hstore⟩, hfork'⟩
  refine .ite (fun _ => .bind (.bind ?_ fun _ => .kept) fun _ => .kept) fun _ => .pure hany
  refine hask.mono (fun c hc => ⟨hc.1, ⟨b, hc.2.1⟩, hc.2.2⟩) fun _ c hc => ⟨hc.1, hc.2.1⟩

/-- The resource fork of an object was set to `b`. -/
structure ResourceSet (t : Catalog) (cache : Volume) (volume : MetadataVolume) (host : ByteOrder)
    (path value : Octets) (store : ℕ → Attributes) (o : Object) (b : Octets)
    (c : Client AttributeState) : Prop where
  object : ∃ did name, t.special cache volume host path = some (did, name) ∧
    t.object did name = some o
  file : o.isdir = false
  contents : value ≠ [] → b = (store o.fileid).resource.overwrite 0 value
  holds : StoreHas t (fun store' => store' = withResource store o.fileid b) c

section Resolved

variable (hcache : cache.Correct server.tree) (hpath : path.head? = some slash) {name : Octets}
variable {flags : ℕ} {I : (ℕ → Attributes) → (ℕ → Option ℕ) → Prop}

include hcache hpath

/-- What `ml_setresourcefork` leaves where it returns 0. An empty value may
leave anything: a server may refuse with a code that counts as success. -/
theorem set_mlSetresourcefork (hvalue : value.length ≤ afpExtattrDataMax) :
    Ensures (StoreHas server.tree fun store' => store' = store)
      ((server.calls cfg path converted).mlSetresourcefork volume host path value 0)
      fun ret c => ret = 0 →
        ∃ o b, ResourceSet server.tree cache volume host path value store o b c := by
  unfold mlSetresourcefork
  refine .orFail (by decide) <| .orFail (by decide) ?_
  refine .orFail (by decide) ?_
  refine afterOpenResource hcache hpath (fun ret hret => .fail (ne_of_lt hret)) ?_
  intro did name o forkid hspecial ho hfile
  have hstart : ∀ c, StoreHolds server.tree
      (fun store' forks => store' = store ∧ forks forkid = some o.fileid) c →
        ForkHolds server.tree store o.fileid forkid (store o.fileid).resource c := by
    rintro c ⟨hvolume, hstore, hfork⟩
    exact ⟨hvolume, by rw [hstore, withResource_same], hfork⟩
  refine Ensures.mono ?_ hstart fun _ _ hc => hc
  by_cases hempty : value = []
  · refine .bind holds_zeroResource fun ret => ?_
    refine .ite (fun hret => .bind_any fun _ => .fail (neg_ne_zero.mpr hret)) fun _ => ?_
    refine .ite (fun _ => ?_) fun h => absurd hempty h
    refine holds_closeResource.mono (fun _ hc => hc) ?_
    rintro ret c ⟨hvolume, b, hb⟩ -
    exact ⟨o, b, ⟨did, name, hspecial, ho⟩, hfile, fun h => absurd hempty h, hvolume, hb⟩
  · have hwrite : Ensures (ForkHolds server.tree store o.fileid forkid (store o.fileid).resource)
        ((server.calls cfg path converted).llWrite volume forkid value 0) fun r c =>
          (r.1 = 0 → ForkHolds server.tree store o.fileid forkid
            ((store o.fileid).resource.overwrite 0 (value.take r.2.1)) c) ∧ IsStatus r.1 := by
      have hsmall : afpExtattrDataMax < 0x100000000 := by decide
      exact (stores_calls.llWrite (hvalue.trans_lt hsmall)).and returns_llWrite.ensures
    have hzero : (server.calls cfg path converted).zeroResource forkid value 0 =
        pure 0 := if_neg fun h => hempty h.2
    dsimp only
    rw [hzero, pure_bind, if_neg (not_not.mpr rfl), if_neg hempty]
    refine .bind hwrite ?_
    rintro ⟨ret, written, dirty⟩
    refine .ite (fun hret => .bind_any fun _ => .fail (ne_of_lt hret)) fun hret => ?_
    refine .ite (fun _ => .bind_any fun _ => .fail (by decide)) fun hwritten => ?_
    have hset : ∀ c, (ret = 0 → ForkHolds server.tree store o.fileid forkid
        ((store o.fileid).resource.overwrite 0 (value.take written)) c) ∧ IsStatus ret →
          StoreHas server.tree (fun store' => store' = withResource store o.fileid
            ((store o.fileid).resource.overwrite 0 value)) c := by
      rintro c ⟨hc, hstatus⟩
      obtain ⟨hvolume, hstore, -⟩ := hc (le_antisymm hstatus.2 (not_lt.mp hret))
      have hall : written = value.length := not_not.mp hwritten
      rw [hall, take_length] at hstore
      exact ⟨hvolume, hstore⟩
    refine holds_closeResource.mono hset fun ret c hc _ => ?_
    exact ⟨o, _, ⟨did, name, hspecial, ho⟩, hfile, fun _ => rfl, hc⟩

/-- The question that a call with flags asks. -/
theorem holds_queryResource :
    Keeps (StoreHas server.tree J)
      ((server.calls cfg path converted).mlGetresourcefork volume host path false 0 0) := by
  unfold mlGetresourcefork
  refine .orKept ?_
  split
  · exact .kept
  next q hq =>
  have hrooted := rooted_convertPathToAfpAlloc hpath hq
  have hgetattr : Keeps (StoreHas server.tree J)
      ((server.calls cfg path converted).llGetattr q) := by
    refine .orKept ?_
    refine .bind (holds_getDirid server.answersLookups hcache hrooted) fun got => ?_
    refine .assume fun _ => .orKept ?_
    refine .bind (holds_getfiledirparms (by decide)) fun reply => .orKept ?_
    split
    · exact .kept
    · exact .kept
  refine .bind hgetattr ?_
  rintro ⟨ret, stSize⟩
  refine .orKept <| .orKept ?_
  exact .ite (fun _ => .orKept <| .kept) fun h => absurd rfl h

/-! ## Setting the FinderInfo -/

/-- A property of the attributes of an object under a name. -/
abbrev NamedHas (t : Catalog) (did : ℕ) (basename : Octets) (P : Attributes → Prop) :
    Client AttributeState → Prop :=
  StoreHas t fun store => ∃ o, t.object did basename = some o ∧ P (store o.fileid)

theorem holds_queryFinderinfo :
    Keeps (StoreHas server.tree J)
      ((server.calls cfg path converted).mlGetfinderinfo volume host path false 0) := by
  refine .bind (holds_openMeta server.answersLookups hcache hpath) ?_
  rintro (ret | ⟨did, basename⟩)
  · exact .assume fun _ => .kept
  refine .assume fun _ => ?_
  have hread : Keeps (StoreHas server.tree J)
      ((server.calls cfg path converted).readFinderinfo did basename) := by
    refine .bind (.bind (holds_getfiledirparms (by decide)) fun _ => .kept) ?_
    rintro ⟨rc, finderinfo⟩
    exact .orKept <| .kept
  refine .bind hread ?_
  rintro ⟨ret, finderinfo⟩
  refine .orKept <| .orKept ?_
  exact .ite (fun _ => .kept) fun h => absurd rfl h

/-- The FinderInfo of an object was set. -/
structure FinderinfoSet (t : Catalog) (cache : Volume) (volume : MetadataVolume) (host : ByteOrder)
    (path value : Octets) (o : Object) (c : Client AttributeState) : Prop where
  length : value.length = 32
  object : ∃ did name, t.special cache volume host path = some (did, name) ∧
    t.object did name = some o
  holds : StoreHas t (fun store => (store o.fileid).finderinfo = value) c

theorem set_mlSetfinderinfo :
    Ensures (StoreHas server.tree J)
      ((server.calls cfg path converted).mlSetfinderinfo volume host path value)
      fun ret c => ret = 0 → ∃ o, FinderinfoSet server.tree cache volume host path value o c := by
  refine .ite (fun _ => .fail (by decide)) fun hlen => ?_
  refine .orFail (by decide) ?_
  have hlen : value.length = 32 := not_not.mp hlen
  refine .bind (holds_openMeta server.answersLookups hcache hpath) ?_
  rintro (ret | ⟨did, basename⟩)
  · exact .assume fun hres => .fail (ne_of_lt (hres.1 ret rfl))
  refine .assume fun hres => ?_
  have hspecial := (hres.2 (did, basename)).mp rfl
  -- all 32 octets are new, whatever was there
  have hvalue : ∀ previous : Octets,
      (previous.window 32).overwrite 0 (value.take (min value.length 32)) = value := by
    intro previous
    have hnone : (previous.window 32).drop (0 + value.length) = [] := by
      refine drop_eq_nil_of_le ?_
      rw [length_window, hlen]
    rw [overwrite, window_zero, take_of_length_le (by omega), hnone, append_nil, nil_append]
  have hask : Ensures (StoreHas server.tree J)
      (ask server.serve [converted] (.setfiledirparms did basename (.finderInfo value)))
      fun reply c => reply.rc = 0 → NamedHas server.tree did basename (·.finderinfo = value) c := by
    refine carriedOut_ask rfl fun taken s _ hrc => ?_
    obtain ⟨o, ho⟩ := object_of_onObject hrc
    refine ⟨o, ho, ?_⟩
    show ((server.onObject did basename _ s).2.store o.fileid).finderinfo = value
    rw [onObject_some ho]
    dsimp only
    rw [update_self]
  have hwrite : Ensures (StoreHas server.tree J)
      ((server.calls cfg path converted).writeFinderinfo did basename value)
      fun r c => ¬r.1 < 0 → NamedHas server.tree did basename (·.finderinfo = value) c := by
    refine .bind (.bind (holds_getfiledirparms (by decide)) fun _ => .kept) ?_
    rintro ⟨rc, previous⟩
    refine .ite (fun hrc => .pure fun _ _ h => absurd hrc h) fun _ => ?_
    rw [hvalue]
    have hset : Ensures (StoreHas server.tree J)
        ((server.calls cfg path converted).afpSetfiledirparms did basename value)
        fun rc c => rc = 0 → NamedHas server.tree did basename (·.finderinfo = value) c :=
      .bind hask fun _ => .pure fun _ hc => hc
    refine .bind hset fun rc => ?_
    refine .ite (fun hrc => .pure fun _ _ h => absurd hrc h) fun hrc => .pure fun c hc _ => ?_
    exact hc (eq_zero_of_fileDirParmsErrno hrc)
  refine .bind hwrite ?_
  rintro ⟨ret, written⟩
  refine .ite (fun hret => .fail (ne_of_lt hret)) fun hret => ?_
  refine .orFail (by decide) <| .pure fun c hc _ => ?_
  obtain ⟨hvolume, o, ho, hset⟩ := hc hret
  exact ⟨o, hlen, ⟨did, basename, hspecial, ho⟩, hvolume, hset⟩

/-! ## Setting an attribute -/

/-- What an attribute was set to, for a name that is neither of the two. -/
structure ExtattrSet (t : Catalog) (cache : Volume) (path name value : Octets) (o : Object)
    (c : Client AttributeState) : Prop where
  object : ∃ did basename, t.found cache path = some (did, basename) ∧
    t.object did basename = some o
  holds : ∃ afpName, normalizeXattrName name = .ok afpName ∧
    StoreHas t (fun store => (store o.fileid).attrs afpName = some value) c

omit hcache hpath in
theorem setExtattrErrno_eq_zero {rc : ℤ} : setExtattrErrno rc = 0 ↔ rc = 0 := by
  unfold setExtattrErrno
  repeat' split
  all_goals simp_all [eacces, enoent, eexist, enoattr, enodata, eio]

omit hcache hpath in
/-- The request that sets an attribute. -/
theorem set_setextattr {about : List Octets} {did bitmap : ℕ} {basename attr : Octets} :
    Ensures (StoreHolds server.tree I)
      (ask server.serve about (.setextattr did bitmap basename attr value)) fun reply c =>
        reply.rc = 0 → NamedHas server.tree did basename (·.attrs attr = some value) c := by
  refine carriedOut_ask rfl fun taken s _ => ?_
  show (server.onObject did basename _ s).1.rc = 0 → ∃ o : Object, _ ∧
    ((server.onObject did basename _ s).2.store o.fileid).attrs attr = some value
  intro hrc
  obtain ⟨o, ho⟩ := object_of_onObject hrc
  refine ⟨o, ho, ?_⟩
  rw [onObject_some ho] at hrc ⊢
  dsimp only at hrc ⊢
  rw [update_self]
  unfold setextattr at hrc ⊢
  split at hrc
  · exact absurd hrc (show kFPObjectExists ≠ 0 by decide)
  next hcreate =>
  split at hrc
  · exact absurd hrc (show kFPItemNotFound ≠ 0 by decide)
  next hreplace =>
  rw [if_neg hcreate, if_neg hreplace]
  exact update_self _ _ _

/-- What `ml_setxattr` leaves where it returns 0, for a name that is neither
of the two. -/
theorem set_extattr
    (hroot : path ≠ rootPath) (hsupports : volume.attributes &&& kSupportsExtAttrs ≠ 0)
    (hinternal : isInternalServerXattr name = false) (hresource : isResourceforkXattr name = false)
    (hfinder : isFinderinfoXattr name = false) :
    Ensures (StoreHolds server.tree I)
      ((server.calls cfg path converted).mlSetxattr volume host path name value flags)
      fun ret c => ret = 0 → ∃ o, ExtattrSet server.tree cache path name value o c := by
  unfold mlSetxattr
  refine .ite (fun hflags => .fail (ne_of_lt hflags)) fun _ => ?_
  rw [hresource, hfinder, hinternal, if_neg nofun, if_neg nofun, if_neg hsupports, if_neg nofun,
    if_neg hroot]
  refine .bind (holds_extattrTarget server.answersLookups hcache hpath) ?_
  rintro (ret | ⟨did, basename, afpName⟩)
  · exact .assume fun hres => .fail (hres.1 ret rfl)
  refine .assume fun hres => ?_
  obtain ⟨hfound, hname⟩ := (hres.2 did basename afpName).mp rfl
  have hset : Ensures (StoreHolds server.tree I)
      ((server.calls cfg path converted).afpSetextattr did flags basename afpName
        value) fun rc c =>
          rc = 0 → NamedHas server.tree did basename (·.attrs afpName = some value) c :=
    .bind set_setextattr fun _ => .pure fun _ hc => hc
  refine .bind hset fun rc => .pure fun c hc hrc => ?_
  obtain ⟨hvolume, o, ho, hstored⟩ := hc (setExtattrErrno_eq_zero.mp hrc)
  exact ⟨o, ⟨did, basename, hfound, ho⟩, afpName, hname, hvolume, hstored⟩

/-- `ml_setxattr` of the resource fork. -/
theorem set_resource (hvalue : value.length ≤ afpExtattrDataMax)
    (hresource : isResourceforkXattr name = true) :
    Ensures (StoreHas server.tree fun store' => store' = store)
      ((server.calls cfg path converted).mlSetxattr volume host path name value flags)
      fun ret c => ret = 0 →
        ∃ o b, ResourceSet server.tree cache volume host path value store o b c := by
  unfold mlSetxattr mlSetresourceforkFlags
  rw [hresource, if_pos rfl]
  refine .ite (fun h => .fail (ne_of_lt h)) fun _ => .ite (fun h => .fail (ne_of_lt h)) fun _ => ?_
  refine .bind (ensures_checkSpecialFlags (fun _ hc => hc) (holds_queryResource hcache hpath)) ?_
  intro ret
  exact .ite (fun h => .fail (ne_of_lt h)) fun _ => set_mlSetresourcefork hcache hpath hvalue

/-- `ml_setxattr` of the FinderInfo. -/
theorem set_finderinfo
    (hresource : isResourceforkXattr name = false) (hfinder : isFinderinfoXattr name = true) :
    Ensures (StoreHas server.tree J)
      ((server.calls cfg path converted).mlSetxattr volume host path name value flags)
      fun ret c => ret = 0 → ∃ o, FinderinfoSet server.tree cache volume host path value o c := by
  unfold mlSetxattr mlSetfinderinfoFlags
  refine .ite (fun h => .fail (ne_of_lt h)) fun _ => ?_
  rw [hresource, hfinder, if_neg nofun, if_pos rfl]
  refine .ite (fun h => .fail (ne_of_lt h)) fun _ => ?_
  refine .bind (ensures_checkSpecialFlags (fun _ hc => hc) (holds_queryFinderinfo hcache hpath)) ?_
  intro ret
  exact .ite (fun h => .fail (ne_of_lt h)) fun _ => set_mlSetfinderinfo hcache hpath

end Resolved

end Setting

end NetatalkClient
