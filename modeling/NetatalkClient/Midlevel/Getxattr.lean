import NetatalkClient.Midlevel.Setxattr
/-!
# Midlevel: what `ml_getxattr` brings

What `ml_getxattr` returns on a server that keeps attributes and refuses
nothing: an attribute as it is, the FinderInfo unless it is all zeros, and
of the resource fork what fits into the buffer, if the fork can be read.
-/

namespace NetatalkClient

open Volume AfpCalls Client Octets AttributeServer List Function

/-! ## Getting an attribute -/

section Getting

variable {server : AttributeServer} {cfg : MidlevelConfig} {volume : MetadataVolume}
variable {host : ByteOrder} {cache : Volume} {path converted name value : Octets}
variable {did size : ℕ} {basename : Octets} {o : Object} {m : Attributes} {about : List Octets}

/-- The server keeps these attributes of the object. -/
abbrev ObjectHas (t : Catalog) (o : Object) (m : Attributes) : Client AttributeState → Prop :=
  StoreHas t fun store => store o.fileid = m

/-- What a willing server tells of an object. -/
theorem told_getfiledirparms {what : Parameters} (hwhat : what ≠ .nodeId)
    (ho : server.tree.object did basename = some o) :
    Ensures (ObjectHas server.tree o m)
      (ask server.willing.serve about (.getfiledirparms what did basename)) fun reply c =>
        reply = m.reply did o ∧ ObjectHas server.tree o m c := by
  have hask : Ensures (ObjectHas server.tree o m)
      (ask server.willing.serve about (.getfiledirparms what did basename)) fun reply =>
        StoreHas server.tree fun store => reply = m.reply did o ∧ store o.fileid = m := by
    refine willing_ask ?_ fun taken s hs => ?_
    · cases what with
      | nodeId => exact absurd rfl hwhat
      | _ => rfl
    · show (server.onObject did basename _ s).1 = _ ∧
        (server.onObject did basename _ s).2.store o.fileid = m
      rw [onObject_some ho]
      dsimp only
      rw [update_self, hs]
      exact ⟨rfl, rfl⟩
  exact hask.mono (fun _ hc => hc) fun _ c hc => ⟨hc.2.1, hc.1, hc.2.2⟩

/-- An attribute comes back as it is kept. -/
theorem get_extattr {afpName : Octets} (hcache : cache.Correct server.tree)
    (hpath : path.head? = some slash) (hroot : path ≠ rootPath)
    (hsupports : volume.attributes &&& kSupportsExtAttrs ≠ 0)
    (hinternal : isInternalServerXattr name = false) (hresource : isResourceforkXattr name = false)
    (hfinder : isFinderinfoXattr name = false)
    (hfound : server.tree.found cache path = some (did, basename))
    (ho : server.tree.object did basename = some o) (hname : normalizeXattrName name = .ok afpName)
    (hvalue : value.length ≤ afpExtattrDataMax) (hpos : 0 < size) (hsize : value.length ≤ size) :
    Ensures (StoreHas server.tree fun store => (store o.fileid).attrs afpName = some value)
      ((server.willing.calls cfg path converted).mlGetxattr volume host path name true
        size) fun r _ => r = ((value.length : ℤ), value) := by
  unfold mlGetxattr
  rw [hresource, hfinder, hinternal, if_neg nofun, if_neg nofun, if_neg hsupports, if_neg nofun,
    if_neg hroot]
  refine .bind (holds_extattrTarget server.willing.answersLookups hcache hpath) fun res => ?_
  refine .assume fun hres => ?_
  rw [(hres.2 did basename afpName).mpr ⟨hfound, hname⟩]
  have hask : Ensures
      (StoreHas server.tree fun store => (store o.fileid).attrs afpName = some value)
      (ask server.willing.serve [path] (.getextattr did basename afpName)) fun reply =>
        StoreHolds server.tree fun _ _ => reply =
          { AfpReply.ofCode 0 with size := value.length, data := value } := by
    refine willing_ask rfl fun taken s hs => ?_
    show (server.onObject did basename _ s).1 = _
    rw [onObject_some ho]
    unfold AttributeServer.getextattr
    rw [hs]
  have hget : Ensures
      (StoreHas server.tree fun store => (store o.fileid).attrs afpName = some value)
      ((server.willing.calls cfg path converted).afpGetextattr did basename afpName)
      fun r _ => r = (0, ⟨UInt32.ofNat value.length, value⟩) := by
    refine .bind hask fun reply => .pure fun c hc => ?_
    rw [hc.2]
    rfl
  have hlen : (UInt32.ofNat value.length).toNat = value.length := by
    refine UInt32.toNat_ofNat_of_lt' (hvalue.trans_lt ?_)
    decide
  have hint : toInt value.length = value.length := if_pos (hvalue.trans_lt (by decide))
  refine .bind_eq hget ?_
  refine .skip (by decide) <| .skip hpos.ne' ?_
  dsimp only
  rw [hlen, hint, take_of_length_le hvalue, take_length]
  refine .skip (not_lt.mpr hsize) ?_
  exact .skip (lt_irrefl _) <| .pure fun _ _ => rfl

/-- The FinderInfo comes back as it is kept, if it is not all zeros. -/
theorem get_finderinfo (hcache : cache.Correct server.tree) (hpath : path.head? = some slash)
    (hspecial : server.tree.special cache volume host path = some (did, basename))
    (ho : server.tree.object did basename = some o) (hlen : m.finderinfo.length = 32)
    (hsize : 32 ≤ size) :
    Ensures (ObjectHas server.tree o m)
      ((server.willing.calls cfg path converted).mlGetfinderinfo volume host path true
        size) fun r _ => r = if m.finderinfo = replicate 32 0 then (-enoattr, [])
          else (32, m.finderinfo) := by
  refine .bind (holds_openMeta server.willing.answersLookups hcache hpath) fun res => ?_
  refine .assume fun hres => ?_
  rw [(hres.2 (did, basename)).mpr hspecial]
  have hread : Ensures (ObjectHas server.tree o m)
      ((server.willing.calls cfg path converted).readFinderinfo did basename)
      fun r _ => r = (1, m.finderinfo) := by
    have hget : Ensures (ObjectHas server.tree o m)
        ((server.willing.calls cfg path converted).afpGetfiledirparms did basename)
        fun r _ => r = (0, m.finderinfo) := by
      refine .bind (told_getfiledirparms (by decide) ho) fun reply => .pure fun c hc => ?_
      rw [hc.1]
      rfl
    refine .bind_eq hget (.skip (by decide) <| .pure fun _ _ => ?_)
    rw [← hlen, window_length]
  refine .bind_eq hread (.skip (by decide) ?_)
  refine .ite (fun hzero => .pure fun _ _ => (if_pos hzero).symm) fun hzero => ?_
  rw [if_neg hzero]
  refine .skip (by omega) ?_
  refine .ite (fun h => ?_) fun _ => .pure fun _ _ => rfl
  rcases h with h | h
  · exact absurd rfl h
  · omega

/-! ## Getting the resource fork -/

/-- The path of the root leads to a directory. -/
theorem isdir_of_rootPath {t : Catalog} (hfound : t.found cache rootPath = some (did, basename))
    (ho : t.object did basename = some o) : o.isdir = true := by
  have hroot : t.found cache rootPath = some (afpRootDid, []) := rfl
  obtain ⟨rfl, rfl⟩ := Prod.mk.inj (Option.some.inj (hfound.symm.trans hroot))
  have haddressed : t.object afpRootDid [] = t.objectAt [[]] :=
    Catalog.addressed_of_dirAt Catalog.dirAt_nil
  obtain ⟨hmem, hpath⟩ := Catalog.objectAt_eq_some.mp (haddressed.symm.trans ho)
  rw [Catalog.eq_of_path_eq hmem t.root hpath]

/-- The length of a file's resource fork, as `ll_getattr` takes it from the
reply. -/
theorem statSize_reply (hfile : o.isdir = false) :
    statSize cfg true (m.reply did o) = m.resource.length := by
  have hbits : ∀ mode : ℕ, (0o100000 + mode % 0o10000) &&& sIfdir = 0 := by
    intro mode
    have htest : (0o100000 + mode % 0o10000).testBit 14 = false := by
      rw [Nat.testBit_eq_decide_div_mod_eq]
      refine decide_eq_false ?_
      omega
    rw [show sIfdir = 2 ^ 14 from rfl, Nat.and_two_pow, htest]
    rfl
  have hpermissions : (m.reply did o).unixprivs.permissions &&& sIfdir = 0 := by
    unfold Attributes.reply
    rw [hfile]
    cases m.mode with
    | none => exact Nat.zero_and _
    | some mode => exact hbits mode
  have hmode : statMode cfg (m.reply did o) &&& sIfdir = 0 := by
    unfold statMode
    rw [show (m.reply did o).isdir = false from hfile]
    split
    · exact hpermissions
    · rfl
  rw [statSize, if_neg (not_not.mpr hmode)]
  rfl

/-- Whether `ll_getattr` can tell the length of a resource fork. -/
theorem statted_llGetattr {q : Octets} (hcache : cache.Correct server.tree) (hrooted : Rooted q)
    (hvalid : invalidPath volume.avNumber volume.pathEncoding q = false)
    (hfound : server.tree.found cache q = some (did, basename))
    (ho : server.tree.object did basename = some o) (hfile : o.isdir = false) :
    Ensures (ObjectHas server.tree o m)
      (Client.llGetattr server.willing.serve (cfg.on volume host) q true) fun r c =>
        (if cfg.translateUidgidToClient m.owner.1 m.owner.2 = none then r.1.val = -eio
          else r.1.val = 0 ∧ r.2 = m.resource.length) ∧ ObjectHas server.tree o m c := by
  have hplain : q ≠ rootPath := by
    rintro rfl
    rw [isdir_of_rootPath hfound ho] at hfile
    cases hfile
  have hgot : (Volume.getDirid server.tree cache q).2 = ⟨0, some did, some basename⟩ := by
    rcases getDirid_neg_or_found server.tree cache q with ⟨-, hnone⟩ | ⟨did', name', hres, hsome⟩
    · rw [hnone] at hfound
      cases hfound
    · obtain ⟨rfl, rfl⟩ := Prod.mk.inj (Option.some.inj (hsome.symm.trans hfound))
      exact hres
  unfold Client.llGetattr
  rw [show (cfg.on volume host).invalidFilename q = false from hvalid, if_neg nofun]
  refine .bind (holds_getDirid server.willing.answersLookups hcache hrooted) fun got => ?_
  refine .assume fun hdirid => ?_
  have haddress : attributesOf (cfg.on volume host) q ⟨0, some did, some basename⟩ =
      (did, basename) := if_neg fun h => hplain h.2
  rw [hdirid, hgot, haddress]
  refine .skip (lt_irrefl 0) ?_
  refine .bind (told_getfiledirparms (by decide) ho) fun reply => .assume fun hreply => ?_
  have htranslate : (cfg.on volume host).translateUidgidToClient (m.reply did o).unixprivs.uid
      (m.reply did o).unixprivs.gid = cfg.translateUidgidToClient m.owner.1 m.owner.2 := rfl
  rw [hreply, htranslate]
  refine .skip (show ¬fileDirParmsErrno 0 < 0 by decide) ?_
  cases cfg.translateUidgidToClient m.owner.1 m.owner.2 with
  | none => exact .pure fun c hc => ⟨(if_pos rfl).mpr rfl, hc⟩
  | some ids =>
    refine .pure fun c hc => ⟨?_, hc⟩
    rw [if_neg nofun]
    exact ⟨rfl, statSize_reply hfile⟩

/-- Before AFP 3.0, `ll_open` refuses a fork that is too long. -/
def Opens (volume : MetadataVolume) (m : Attributes) : Prop :=
  volume.avNumber < 30 → m.resource.length < afpMaxAfp2Filesize - 1

/-- A file's resource fork is opened on a willing server exactly if it is not
too long. -/
theorem opens_llOpen (ho : server.tree.object did basename = some o) (hfile : o.isdir = false) :
    Ensures (ObjectHas server.tree o m)
      (Client.llOpen server.willing.serve (cfg.on volume host) about ⟨did, basename, true, 0, 0⟩
        { oRdonly with write := false }) fun res _ => (∃ fp, res = .ok fp) ↔ Opens volume m := by
  have hlookup : volume.avNumber < 30 →
      LooksUp server.willing.serve about ⟨did, basename, true, 0, 0⟩
        (ObjectHas server.tree o m)
        (fun ret _ => (∃ fp, (.error ret : Except ℤ OpenFile) = .ok fp) ↔ Opens volume m)
        fun fp c => ((∃ size, fp = ⟨did, basename, true, 0, size⟩) ∧ Opens volume m) ∧
          ObjectHas server.tree o m c := by
    intro hav
    refine (told_getfiledirparms (by decide) ho).mono (fun _ hc => hc) fun reply c hc => ?_
    have hparsed : (⟨did, basename, true, 0, 0⟩ : OpenFile).parsed (m.reply did o) =
        ⟨did, basename, true, 0, m.resource.length⟩ := by
      rw [OpenFile.parsed, show (m.reply did o).isdir = false from hfile]
      rfl
    have hzero : ¬fileDirParmsErrno (m.reply did o).rc < 0 :=
      show ¬fileDirParmsErrno 0 < 0 by decide
    rw [hc.1, hparsed, if_neg hzero]
    split_ifs with hlong
    · exact iff_of_false nofun fun h => absurd hlong (not_le.mpr (h hav))
    · exact ⟨⟨⟨_, rfl⟩, fun _ => not_le.mp hlong⟩, hc.2⟩
  have hask : Ensures (ObjectHas server.tree o m)
      (ask server.willing.serve about (.openfork true false did basename)) fun reply =>
        StoreHolds server.tree fun _ _ => reply.rc = 0 := by
    refine willing_ask rfl fun taken s _ => ?_
    show (server.openfork did basename s).1.rc = 0
    rw [openfork, ho]
    dsimp only
    rw [hfile]
    rfl
  have hnew : 30 ≤ volume.avNumber → Opens volume m := fun hav h => absurd hav (not_le.mpr h)
  refine ensures_llOpen nofun (fun hav _ hc => ⟨⟨⟨0, rfl⟩, hnew hav⟩, hc⟩) hlookup fun fp => ?_
  refine .assume ?_
  rintro ⟨⟨size, rfl⟩, hopens⟩
  refine hask.mono (fun _ hc => hc) fun reply c hc => ?_
  rw [hc.2, if_neg (by decide)]
  exact iff_of_true ⟨_, rfl⟩ hopens

theorem opens_openResource (hcache : cache.Correct server.tree) (hpath : path.head? = some slash)
    (hspecial : server.tree.special cache volume host path = some (did, basename))
    (ho : server.tree.object did basename = some o) (hfile : o.isdir = false) :
    Ensures (ObjectHas server.tree o m)
      ((server.willing.calls (cfg.on volume host) path converted).openResource volume
        host path false) fun res _ => (∃ forkid, res = .ok forkid) ↔ Opens volume m := by
  refine .bind (holds_openMeta server.willing.answersLookups hcache hpath) fun res => ?_
  refine .assume fun hres => ?_
  rw [(hres.2 (did, basename)).mpr hspecial]
  have hopen : Ensures (ObjectHas server.tree o m)
      (llOpenResource server.willing.serve (cfg.on volume host) [converted] did basename false)
      fun r _ => ¬r.1.val < 0 ↔ Opens volume m := by
    have hopened := @opened_llOpen server.willing (cfg.on volume host) [converted]
      (fun store => store o.fileid = m) did basename false
    refine .bind (hopened.and (opens_llOpen ho hfile)) ?_
    rintro (ret | fp) c ⟨herr, hiff⟩
    · have hneg := errorStatus_neg herr
      refine iff_of_false (fun h => h hneg) fun h => ?_
      obtain ⟨fp, hfp⟩ := hiff.mpr h
      cases hfp
    · exact iff_of_true (lt_irrefl 0) (hiff.mp ⟨fp, rfl⟩)
  refine .bind hopen ?_
  rintro ⟨ret, forkid⟩
  refine .ite (fun hret => .pure fun _ hiff => ?_) fun hret => .pure fun _ hiff => ?_
  · refine iff_of_false ?_ fun h => hiff.mpr h hret
    rintro ⟨forkid, h⟩
    cases h
  · exact iff_of_true ⟨_, rfl⟩ (hiff.mp hret)

/-- What a willing server tells of an open fork, and keeps. -/
theorem told_fork {r : AfpRequest} {forkid fileid : ℕ}
    {f : Attributes → AfpReply × Attributes} (hr : server.willing.serve r = server.willing.answer r)
    (hperform : ∀ taken s, server.perform taken r s = AttributeServer.onFork forkid f s)
    (hsame : (f m).2 = m) :
    Ensures
      (StoreHolds server.tree fun store forks => store fileid = m ∧ forks forkid = some fileid)
      (ask server.willing.serve about r) fun reply c => reply = (f m).1 ∧
        StoreHolds server.tree (fun store forks =>
          store fileid = m ∧ forks forkid = some fileid) c := by
  have hask : Ensures
      (StoreHolds server.tree fun store forks => store fileid = m ∧ forks forkid = some fileid)
      (ask server.willing.serve about r) fun reply => StoreHolds server.tree fun store forks =>
        reply = (f m).1 ∧ store fileid = m ∧ forks forkid = some fileid := by
    refine willing_ask hr fun taken s hs => ?_
    rw [hperform, onFork_some hs.2, hs.1]
    refine ⟨rfl, ?_, hs.2⟩
    show update s.store fileid _ fileid = m
    rw [update_self, hsame]
  exact hask.mono (fun _ hc => hc) fun _ c hc => ⟨hc.2.1, hc.1, hc.2.2⟩

/-- A willing server reads an open fork as it is. -/
theorem reads_calls {forkid fileid : ℕ} :
    Reads (server.willing.calls cfg path converted) forkid m.resource
      (StoreHolds server.tree fun store forks =>
        store fileid = m ∧ forks forkid = some fileid) where
  flushDirty := keeps_flushForks fun forkid =>
    @holds_sameFork server.willing _ [] (.flushfork forkid) _ forkid rfl fun _ _ => rfl
  lock offset n := by
    refine .orPure (fun _ hc => ⟨rfl, hc⟩) ?_
    refine .bind (told_fork (f := fun m => (.ofCode 0, m)) rfl (fun _ _ => rfl) rfl) ?_
    refine fun reply => .assume fun hreply => ?_
    rw [hreply]
    exact .ite (fun _ => .pure fun _ hc => ⟨rfl, hc⟩) fun h => absurd rfl h
  unlock offset n := by
    refine .orPure (fun _ hc => ⟨rfl, hc⟩) ?_
    refine .bind (told_fork (f := fun m => (.ofCode 0, m)) rfl (fun _ _ => rfl) rfl) ?_
    refine fun reply => .assume fun hreply => ?_
    rw [hreply]
    exact .pure fun _ hc => ⟨rfl, hc⟩
  read offset n := by
    refine .bind (told_fork (f := readFork offset n) rfl (fun _ _ => rfl) rfl) ?_
    refine fun reply => .assume fun hreply => ?_
    rw [hreply]
    exact .pure fun _ hc => ⟨rfl, hc⟩

/-- The resource fork can be read. -/
structure ForkReadable (cfg : MidlevelConfig) (volume : MetadataVolume) (m : Attributes) :
    Prop where
  owner : cfg.translateUidgidToClient m.owner.1 m.owner.2 ≠ none
  some : m.resource ≠ []
  opens : Opens volume m
  quantum : volume.rxQuantum ≠ 0

/-- A resource fork that can be read comes back as far as the buffer goes, and
any other is an error. -/
theorem get_resourcefork (hcache : cache.Correct server.tree) (hpath : path.head? = some slash)
    (hspecial : server.tree.special cache volume host path = some (did, basename))
    (ho : server.tree.object did basename = some o) (hfile : o.isdir = false) (hpos : 0 < size)
    (hsmall : min size m.resource.length ≤ intMax) :
    Ensures (ObjectHas server.tree o m)
      ((server.willing.calls (cfg.on volume host) path converted).mlGetresourcefork
        volume host path true size 0) fun r _ =>
          (ForkReadable cfg volume m →
            r = (((min size m.resource.length : ℕ) : ℤ), m.resource.take size)) ∧
          (¬ForkReadable cfg volume m → r.1 < 0) := by
  obtain ⟨q, hq, hvalid, hfound⟩ := Catalog.special_eq_some.mp hspecial
  have hrooted := rooted_convertPathToAfpAlloc hpath hq
  have herror : ∀ {pre : Client AttributeState → Prop} {ret : ℤ}, ret < 0 →
      ¬ForkReadable cfg volume m →
        Ensures pre (pure (ret, []) : StateM (Client AttributeState) (ℤ × Octets)) fun r _ =>
          (ForkReadable cfg volume m →
            r = (((min size m.resource.length : ℕ) : ℤ), m.resource.take size)) ∧
          (¬ForkReadable cfg volume m → r.1 < 0) :=
    fun hret hnot => .pure fun _ _ => ⟨fun h => absurd h hnot, fun _ => hret⟩
  unfold mlGetresourcefork
  rw [hq]
  refine .ite (fun h => absurd rfl h.1) fun _ => ?_
  refine .bind (statted_llGetattr hcache hrooted hvalid hfound ho hfile) ?_
  rintro ⟨⟨ret, hstatus⟩, stSize⟩
  refine .assume fun hstat => ?_
  by_cases howner : cfg.translateUidgidToClient m.owner.1 m.owner.2 = none
  · rw [if_pos howner] at hstat
    obtain rfl : ret = -eio := hstat
    have hneg : -eio < 0 ∧ -eio ≠ -efbig := by decide
    exact .ite (fun _ => herror hneg.1 fun h => h.owner howner) fun h => absurd hneg h
  rw [if_neg howner] at hstat
  obtain ⟨rfl, rfl⟩ : ret = 0 ∧ stSize = m.resource.length := hstat
  refine .ite (fun h => absurd h.1 (lt_irrefl 0)) fun _ => ?_
  refine .ite (fun hnone => ?_) fun hsome => ?_
  · exact herror (by decide) fun h => h.some (length_eq_zero_iff.mp hnone)
  refine .skip hpos.ne' <| .skip (by omega) ?_
  have hopened := @opened_openResource server.willing (cfg.on volume host) volume host cache path
    converted (fun store => store o.fileid = m) false hcache hpath
  refine .bind (hopened.and (opens_openResource hcache hpath hspecial ho hfile)) ?_
  rintro (ret | forkid)
  · refine .pure fun _ hc => ⟨fun h => ?_, fun _ => hc.1⟩
    obtain ⟨forkid, hforkid⟩ := hc.2.mpr h.opens
    cases hforkid
  have hheld : ∀ c, ((∃ o', server.tree.special cache volume host path = some o' ∧
      OpenOn server.tree (fun store => store o.fileid = m) o'.1 o'.2 forkid c) ∧
        ((∃ id : ℕ, (.ok forkid : Except ℤ ℕ) = .ok id) ↔ Opens volume m)) →
      Opens volume m ∧ StoreHolds server.tree (fun store forks =>
        store o.fileid = m ∧ forks forkid = some o.fileid) c := by
    rintro c ⟨⟨⟨did', name'⟩, hspecial', o', ho', -, hc⟩, hiff⟩
    obtain ⟨rfl, rfl⟩ := Prod.mk.inj (Option.some.inj (hspecial'.symm.trans hspecial))
    obtain rfl := Option.some.inj (ho'.symm.trans ho)
    exact ⟨hiff.mp ⟨_, rfl⟩, hc⟩
  refine Ensures.mono ?_ hheld fun _ _ h => h
  refine .assume fun hopens => ?_
  have hlen : 0 < min size m.resource.length := by omega
  by_cases hquantum : volume.rxQuantum = 0
  · have hnot : ¬ForkReadable cfg volume m := fun h => h.quantum hquantum
    refine .bind_eq (getResourceLoop_no_quantum hquantum hlen).ensures (.bind_any fun _ => ?_)
    exact herror (by decide) hnot
  have hloop : Ensures (StoreHolds server.tree fun store forks =>
      store o.fileid = m ∧ forks forkid = some o.fileid)
      ((server.willing.calls (cfg.on volume host) path converted).getResourceLoop
        volume forkid size 0 m.resource.length size []) fun r _ => r = .ok (m.resource.take size) :=
    (reads_calls.getResourceLoop (Nat.pos_of_ne_zero hquantum) hlen hsmall).mono (fun _ hc => hc)
      fun _ _ hc => hc.1
  refine .bind_eq hloop (.bind_any fun _ => ?_)
  have htake : (m.resource.take size).length = min size m.resource.length := length_take
  refine .skip (by omega) <| .pure fun _ _ => ⟨fun _ => ?_, fun h => ?_⟩
  · rw [htake]
  · have hsome : m.resource ≠ [] := fun h => hsome (length_eq_zero_iff.mpr h)
    exact absurd ⟨howner, hsome, hopens, hquantum⟩ h

end Getting

end NetatalkClient
