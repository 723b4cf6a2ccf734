import NetatalkClient.Midlevel.Addressing
import NetatalkClient.Midlevel.Helpers.ForkContents
import NetatalkClient.Midlevel.Helpers.TreeServer
/-!
# Helpers: a server that keeps attributes

A server with a tree that keeps the FinderInfo, the resource fork and the
extended attributes of each object as its requests set them. It may refuse
any request, carry out a request whose reply is lost, and take only a part
of a write. What a request to it does, and how the calls on attributes
resolve a path and open a resource fork on it.
-/

namespace NetatalkClient

open Volume AfpCalls Client Octets Function AfpReply

/-! ## The server -/

/-- What is kept of an object beside its data. -/
structure Attributes where
  finderinfo : Octets
  resource : Octets
  attrs : Octets → Option Octets
  owner : ℕ × ℕ
  /-- The permissions, on a server that tells them. -/
  mode : Option ℕ

/-- The attributes by the ID of the object, the open resource forks with the
IDs of their objects, and the number of requests so far. -/
structure AttributeState where
  store : ℕ → Attributes
  forks : ℕ → Option ℕ
  turn : ℕ

/-- A tree, and what becomes of each request by its number. -/
structure AttributeServer where
  tree : Catalog
  /-- The code that the request is refused with, if not 0. -/
  refusal : ℕ → ℤ
  /-- Whether a refused request is carried out all the same. -/
  lost : ℕ → Bool
  /-- How much of a write is taken. -/
  accepts : ℕ → ℕ

/-- The object that a request is about. The root is the one object in the
directory above it, and 0 is the ID of no directory. -/
def Catalog.object (t : Catalog) (did : ℕ) (name : Octets) : Option Object :=
  if did = 0 then none
  else if did = rootParentDid then t.directory afpRootDid
  else t.addressed did name

/-- What FPGetFileDirParms tells of an object. -/
def Attributes.reply (m : Attributes) (did : ℕ) (o : Object) : AfpReply :=
  { ofCode 0 with
    isdir := o.isdir
    fileid := o.fileid
    parentdid := did
    unixprivs := ⟨m.owner.1, m.owner.2, match m.mode with
      | none => 0
      | some mode => (if o.isdir then 0o040000 else 0o100000) + mode % 0o10000⟩
    size := m.resource.length
    data := m.finderinfo }

namespace AttributeServer

variable (server : AttributeServer)

/-- A request about an object. -/
def onObject (did : ℕ) (name : Octets) (f : Object → Attributes → AfpReply × Attributes)
    (s : AttributeState) : AfpReply × AttributeState :=
  match server.tree.object did name with
  | none => (.ofCode kFPObjectNotFound, s)
  | some o =>
      let (reply, m) := f o (s.store o.fileid)
      (reply, { s with store := update s.store o.fileid m })

/-- A request about an open fork. -/
def onFork (forkid : ℕ) (f : Attributes → AfpReply × Attributes) (s : AttributeState) :
    AfpReply × AttributeState :=
  match s.forks forkid with
  | none => (.ofCode kFPParamErr, s)
  | some fileid =>
      let (reply, m) := f (s.store fileid)
      (reply, { s with store := update s.store fileid m })

/-- A resource fork is opened: a directory has none. -/
def openfork (did : ℕ) (name : Octets) (s : AttributeState) : AfpReply × AttributeState :=
  match server.tree.object did name with
  | none => (.ofCode kFPObjectNotFound, s)
  | some o =>
      if o.isdir then (.ofCode kFPObjectTypeErr, s)
      else
        ({ ofCode 0 with forkid := s.turn },
          { s with forks := update s.forks s.turn (some o.fileid) })

/-- An extended attribute is set, if it may be new or may be there. -/
def setextattr (bitmap : ℕ) (attr value : Octets) (m : Attributes) : AfpReply × Attributes :=
  if bitmap &&& kXAttrCreate ≠ 0 ∧ (m.attrs attr).isSome then (.ofCode kFPObjectExists, m)
  else if bitmap &&& kXAttrReplace ≠ 0 ∧ (m.attrs attr).isNone then (.ofCode kFPItemNotFound, m)
  else (.ofCode 0, { m with attrs := update m.attrs attr (some value) })

def getextattr (attr : Octets) (m : Attributes) : AfpReply × Attributes :=
  match m.attrs attr with
  | none => (.ofCode kFPItemNotFound, m)
  | some value => ({ ofCode 0 with size := value.length, data := value }, m)

/-- A fork is read as far as it goes. -/
def readFork (offset count : ℕ) (m : Attributes) : AfpReply × Attributes :=
  ({ ofCode (if m.resource.length < offset + count then kFPEOFErr else 0) with
      data := (m.resource.drop offset).take count }, m)

/-- A request is carried out; `taken` octets of a write are taken. Requests
that no call on attributes sends are not supported. -/
def perform (taken : ℕ) : AfpRequest → AttributeState → AfpReply × AttributeState
  | .getfiledirparms _ did name => server.onObject did name fun o m => (m.reply did o, m)
  | .setfiledirparms did name (.finderInfo data) =>
      server.onObject did name fun _ m => (.ofCode 0, { m with finderinfo := data })
  | .openfork true _ did name => server.openfork did name
  | .setforkparms forkid size =>
      onFork forkid fun m => (.ofCode 0, { m with resource := m.resource.ftruncate size })
  | .read forkid offset count => onFork forkid (readFork offset count)
  | .write forkid offset data => onFork forkid fun m =>
      ({ ofCode 0 with size := offset + min taken data.length },
        { m with resource := m.resource.pwrite (data.take (min taken data.length)) offset })
  | .byterangelock _ forkid _ _ | .flushfork forkid => onFork forkid fun m => (.ofCode 0, m)
  | .closefork forkid => fun s =>
      (.ofCode 0, { s with forks := update s.forks forkid none })
  | .getextattr did name attr => server.onObject did name fun _ m => getextattr attr m
  | .setextattr did bitmap name attr value =>
      server.onObject did name fun _ m => setextattr bitmap attr value m
  | _ => fun s => (.ofCode kFPCallNotSupported, s)

/-- A request by its number: refused, or carried out. -/
def answer (r : AfpRequest) : StateM AttributeState AfpReply := fun s =>
  let after := server.perform (server.accepts s.turn) r { s with turn := s.turn + 1 }
  if server.refusal s.turn ≠ 0 then
    (.ofCode (server.refusal s.turn),
      if server.lost s.turn then after.2 else { s with turn := s.turn + 1 })
  else after

/-- Lookups are answered from the tree. -/
def serve : AfpRequest → StateM AttributeState AfpReply
  | .getfiledirparms .nodeId did name => return server.tree.lookupReply did name
  | r => server.answer r

/-- The same server, when it refuses nothing. -/
def willing : AttributeServer := { server with refusal := fun _ => 0 }

theorem answersLookups : server.tree.AnswersLookups server.serve := fun _ _ => rfl

/-- The calls on such a server. -/
abbrev calls (cfg : MidlevelConfig) (path converted : Octets) : AfpCalls (Client AttributeState) :=
  Client.calls server.serve cfg path converted

/-! ## What requests do -/

/-- The cache is correct, and the server keeps what `I` says. -/
def StoreHolds (t : Catalog) (I : (ℕ → Attributes) → (ℕ → Option ℕ) → Prop)
    (c : Client AttributeState) : Prop :=
  c.volume.Correct t ∧ I c.server.store c.server.forks

/-- The same, where it is about the attributes. -/
abbrev StoreHas (t : Catalog) (J : (ℕ → Attributes) → Prop) : Client AttributeState → Prop :=
  StoreHolds t fun store _ => J store

variable {server} {I : (ℕ → Attributes) → (ℕ → Option ℕ) → Prop} {r : AfpRequest}
variable {about : List Octets} {s : AttributeState}
variable {J : AfpReply → (ℕ → Attributes) → (ℕ → Option ℕ) → Prop}

section OnObject

variable {did : ℕ} {name : Octets} {f : Object → Attributes → AfpReply × Attributes}

/-- A request about an object that is there. -/
theorem onObject_some {o : Object} (ho : server.tree.object did name = some o) :
    server.onObject did name f s =
      ((f o (s.store o.fileid)).1,
        { s with store := update s.store o.fileid (f o (s.store o.fileid)).2 }) := by
  rw [onObject, ho]

/-- A request that is carried out is about an object that is there. -/
theorem object_of_onObject (h : (server.onObject did name f s).1.rc = 0) :
    ∃ o, server.tree.object did name = some o := by
  cases ho : server.tree.object did name with
  | none =>
    rw [onObject, ho] at h
    exact absurd h (show kFPObjectNotFound ≠ 0 by decide)
  | some o => exact ⟨o, rfl⟩

/-- A request that only asks changes nothing. -/
theorem onObject_same (hf : ∀ o m, (f o m).2 = m) : (server.onObject did name f s).2 = s := by
  cases ho : server.tree.object did name with
  | none => rw [onObject, ho]
  | some o => rw [onObject_some ho, hf, Function.update_eq_self]

end OnObject

section OnFork

variable {forkid fileid : ℕ} {f : Attributes → AfpReply × Attributes}

/-- A request about a fork that is open. -/
theorem onFork_some (ho : s.forks forkid = some fileid) :
    onFork forkid f s =
      ((f (s.store fileid)).1,
        { s with store := update s.store fileid (f (s.store fileid)).2 }) := by
  rw [onFork, ho]

theorem onFork_same (hf : ∀ m, (f m).2 = m) : (onFork forkid f s).2 = s := by
  cases ho : s.forks forkid with
  | none => rw [onFork, ho]
  | some fileid => rw [onFork_some ho, hf, Function.update_eq_self]

end OnFork

/-- What the request keeps when it is carried out is kept. -/
theorem holds_ask (hr : server.serve r = server.answer r)
    (hkeep : ∀ taken s, I s.store s.forks →
      I (server.perform taken r s).2.store (server.perform taken r s).2.forks) :
    Keeps (StoreHolds server.tree I) (ask server.serve about r) := by
  rintro c ⟨hvolume, hI⟩
  have hdone := hkeep (server.accepts c.server.turn) { c.server with turn := c.server.turn + 1 } hI
  refine ⟨hvolume, ?_⟩
  show I ((server.serve r).run c.server).2.store ((server.serve r).run c.server).2.forks
  rw [hr]
  unfold answer StateT.run
  dsimp only
  split
  · split
    · exact hdone
    · exact hI
  · exact hdone

/-- A request that is answered with 0 was carried out. -/
theorem carriedOut_ask (hr : server.serve r = server.answer r)
    (hdone : ∀ taken s, I s.store s.forks → (server.perform taken r s).1.rc = 0 →
      J (server.perform taken r s).1 (server.perform taken r s).2.store
        (server.perform taken r s).2.forks) :
    Ensures (StoreHolds server.tree I) (ask server.serve about r) fun reply c =>
      reply.rc = 0 → StoreHolds server.tree (J reply) c := by
  rintro c ⟨hvolume, hI⟩
  show ((server.serve r).run c.server).1.rc = 0 → _ ∧
    J ((server.serve r).run c.server).1 ((server.serve r).run c.server).2.store
      ((server.serve r).run c.server).2.forks
  rw [hr]
  unfold answer StateT.run
  dsimp only
  split
  · next hrefused => exact fun hrc => absurd hrc hrefused
  · exact fun hrc => ⟨hvolume, hdone _ _ hI hrc⟩

/-- A willing server carries every request out. -/
theorem willing_ask (hr : server.willing.serve r = server.willing.answer r)
    (hdone : ∀ taken s, I s.store s.forks →
      J (server.perform taken r s).1 (server.perform taken r s).2.store
        (server.perform taken r s).2.forks) :
    Ensures (StoreHolds server.tree I) (ask server.willing.serve about r) fun reply =>
      StoreHolds server.tree (J reply) := by
  rintro c ⟨hvolume, hI⟩
  refine ⟨hvolume, ?_⟩
  show J ((server.willing.serve r).run c.server).1 ((server.willing.serve r).run c.server).2.store
    ((server.willing.serve r).run c.server).2.forks
  rw [hr]
  exact hdone _ { c.server with turn := c.server.turn + 1 } hI

end AttributeServer

open AttributeServer

/-! ## The path -/

/-- What the calls on the FinderInfo and the resource fork resolve a path
to. -/
def Catalog.special (t : Catalog) (cache : Volume) (volume : MetadataVolume) (host : ByteOrder)
    (path : Octets) : Option (ℕ × Octets) :=
  match convertPathToAfpAlloc host volume.pathEncoding path with
  | .error _ => none
  | .ok q => if invalidPath volume.avNumber volume.pathEncoding q then none else t.found cache q

theorem Catalog.special_eq_some {t : Catalog} {cache : Volume} {volume : MetadataVolume}
    {host : ByteOrder} {path : Octets} {o : ℕ × Octets} :
    t.special cache volume host path = some o ↔
      ∃ q, convertPathToAfpAlloc host volume.pathEncoding path = .ok q ∧
        invalidPath volume.avNumber volume.pathEncoding q = false ∧ t.found cache q = some o := by
  unfold Catalog.special
  cases convertPathToAfpAlloc host volume.pathEncoding path with
  | error ret => exact ⟨nofun, fun ⟨_, h, _⟩ => nomatch h⟩
  | ok q =>
    dsimp only
    cases hvalid : invalidPath volume.avNumber volume.pathEncoding q with
    | true =>
      rw [if_pos rfl]
      refine ⟨nofun, ?_⟩
      rintro ⟨q', ⟨⟩, h, -⟩
      rw [hvalid] at h
      cases h
    | false =>
      rw [if_neg nofun]
      refine ⟨fun h => ⟨q, rfl, hvalid, h⟩, ?_⟩
      rintro ⟨q', ⟨⟩, -, h⟩
      exact h

section Path

variable {t : Catalog} {serve : AfpRequest → StateM AttributeState AfpReply}
variable {cfg : MidlevelConfig} {volume : MetadataVolume} {host : ByteOrder} {cache : Volume}
variable {path converted : Octets} {I : (ℕ → Attributes) → (ℕ → Option ℕ) → Prop} {p : Octets}

theorem neg_of_convertPathToAfpAlloc {encoding : PathEncoding} {ret : ℤ}
    (h : convertPathToAfpAlloc host encoding path = .error ret) : ret < 0 := by
  unfold convertPathToAfpAlloc at h
  split at h
  · cases h
    decide
  dsimp only at h
  split at h
  · cases h
    decide
  split at h
  · cases h
    decide
  · cases h

theorem holds_getDirid (hserve : t.AnswersLookups serve) (hcache : cache.Correct t)
    (hp : Rooted p) :
    Ensures (StoreHolds t I) (Client.getDirid serve p) fun got c =>
      got = (Volume.getDirid t cache p).2 ∧ StoreHolds t I c :=
  finds_getDirid hserve (lookupsKeep_server (P := fun s => I s.store s.forks) hserve) hcache hp

theorem holds_resolve (hserve : t.AnswersLookups serve) (hcache : cache.Correct t) (hp : Rooted p) :
    Ensures (StoreHolds t I) ((Client.calls serve cfg path converted).getDirid p) fun res c =>
      ((t.found cache p = none → res.1 < 0) ∧ ∀ o, t.found cache p = some o → res = (0, o)) ∧
        StoreHolds t I c :=
  finds_resolve hserve (lookupsKeep_server (P := fun s => I s.store s.forks) hserve) hcache hp

theorem holds_openMeta (hserve : t.AnswersLookups serve) (hcache : cache.Correct t)
    (hpath : path.head? = some slash) :
    Ensures (StoreHolds t I) ((Client.calls serve cfg path converted).openMeta volume host path)
      fun res c => ((∀ ret, res = .error ret → ret < 0) ∧
        ∀ o, res = .ok o ↔ t.special cache volume host path = some o) ∧ StoreHolds t I c := by
  unfold openMeta Catalog.special
  cases hq : convertPathToAfpAlloc host volume.pathEncoding path with
  | error ret =>
    refine .pure fun c hc => ⟨⟨?_, fun o => ⟨nofun, nofun⟩⟩, hc⟩
    rintro _ ⟨⟩
    exact neg_of_convertPathToAfpAlloc hq
  | ok q =>
    dsimp only
    refine .ite (fun hinvalid => .pure fun c hc => ⟨⟨?_, fun o => ?_⟩, hc⟩) fun hvalid => ?_
    · rintro _ ⟨⟩
      decide
    · rw [if_pos hinvalid]
      exact ⟨nofun, nofun⟩
    rw [if_neg hvalid]
    refine .bind (holds_resolve hserve hcache (rooted_convertPathToAfpAlloc hpath hq)) ?_
    rintro ⟨ret, did, basename⟩
    refine .assume fun hres => .ite (fun hret => .pure fun c hc => ⟨⟨?_, fun o => ?_⟩, hc⟩) ?_
    · rintro _ ⟨⟩
      decide
    · refine ⟨nofun, fun ho => ?_⟩
      obtain rfl := congrArg Prod.fst (hres.2 o ho)
      exact absurd hret (lt_irrefl 0)
    · refine fun hret => .pure fun c hc => ⟨⟨nofun, fun o => ?_⟩, hc⟩
      cases hfound : t.found cache q with
      | none => exact absurd (hres.1 hfound) hret
      | some o' =>
        have ho' : (did, basename) = o' := congrArg Prod.snd (hres.2 o' hfound)
        rw [ho']
        refine ⟨fun h => congrArg some (Except.ok.inj h), fun h => ?_⟩
        exact congrArg Except.ok (Option.some.inj h)

theorem holds_extattrTarget {name : Octets} (hserve : t.AnswersLookups serve)
    (hcache : cache.Correct t) (hpath : path.head? = some slash) :
    Ensures (StoreHolds t I) ((Client.calls serve cfg path converted).extattrTarget path name)
      fun res c => ((∀ ret, res = .error ret → ret ≠ 0) ∧
        ∀ did basename afpName, res = .ok (did, basename, afpName) ↔
          t.found cache path = some (did, basename) ∧ normalizeXattrName name = .ok afpName) ∧
        StoreHolds t I c := by
  unfold extattrTarget
  cases hname : normalizeXattrName name with
  | error ret =>
    refine .pure fun c hc => ⟨⟨?_, fun _ _ _ => ⟨nofun, nofun⟩⟩, hc⟩
    rintro _ ⟨⟩
    unfold normalizeXattrName at hname
    split at hname
    · cases hname
      decide
    · cases hname
  | ok afpName =>
    dsimp only
    refine .bind (holds_resolve hserve hcache (.inl hpath)) ?_
    rintro ⟨ret, did, basename⟩
    refine .assume fun hres => .ite (fun hret => .pure fun c hc => ⟨⟨?_, ?_⟩, hc⟩) ?_
    · rintro _ ⟨⟩
      exact hret
    · refine fun did' basename' afpName' => ⟨nofun, fun h => ?_⟩
      exact absurd (congrArg Prod.fst (hres.2 _ h.1)) hret
    · refine fun hret => .pure fun c hc => ⟨⟨nofun, fun did' basename' afpName' => ?_⟩, hc⟩
      have hzero : ret = 0 := not_not.mp hret
      cases hfound : t.found cache path with
      | none => exact absurd (hres.1 hfound) (not_lt.mpr hzero.ge)
      | some o =>
        have ho : (did, basename) = o := congrArg Prod.snd (hres.2 o hfound)
        subst ho
        constructor
        · rintro ⟨⟩
          exact ⟨rfl, rfl⟩
        · rintro ⟨⟨⟩, ⟨⟩⟩
          rfl

end Path

/-! ## Opening the resource fork -/

theorem errorStatus_neg {err : ℤ} (h : 0 < err) : (errorStatus err).val < 0 := by
  by_cases hstatus : IsStatus (-err)
  · rw [show errorStatus err = ⟨-err, hstatus⟩ from dif_pos hstatus]
    exact Int.neg_neg_of_pos h
  · rw [show errorStatus err = ⟨-eio, isStatus_neg_eio⟩ from dif_neg hstatus]
    exact (by decide : -eio < 0)

theorem openforkErrno_nonneg (rc : ℤ) : 0 ≤ openforkErrno rc := by
  unfold openforkErrno
  repeat' split
  all_goals decide

section Opening

variable {server : AttributeServer} {cfg : MidlevelConfig} {volume : MetadataVolume}
variable {host : ByteOrder} {cache : Volume} {path converted : Octets} {about : List Octets}
variable {J : (ℕ → Attributes) → Prop} {did : ℕ} {name : Octets} {write : Bool}

/-- FPGetFileDirParms changes nothing. -/
theorem holds_getfiledirparms {I : (ℕ → Attributes) → (ℕ → Option ℕ) → Prop} {what : Parameters}
    (hwhat : what ≠ .nodeId) :
    Keeps (StoreHolds server.tree I) (ask server.serve about (.getfiledirparms what did name)) := by
  refine holds_ask ?_ fun taken s hs => ?_
  · cases what with
    | nodeId => exact absurd rfl hwhat
    | _ => rfl
  · have hsame : (server.perform taken (.getfiledirparms what did name) s).2 = s :=
      onObject_same fun _ _ => rfl
    rw [hsame]
    exact hs

/-- A fork that is open: the object is a file. -/
def OpenOn (t : Catalog) (J : (ℕ → Attributes) → Prop) (did : ℕ) (name : Octets) (forkid : ℕ)
    (c : Client AttributeState) : Prop :=
  ∃ o, t.object did name = some o ∧ o.isdir = false ∧
    StoreHolds t (fun store forks => J store ∧ forks forkid = some o.fileid) c

/-- A fork that FPOpenFork opens. -/
theorem opened_openfork :
    Ensures (StoreHas server.tree J)
      (ask server.serve about (.openfork true write did name)) fun reply c =>
        reply.rc = 0 → OpenOn server.tree J did name reply.forkid c := by
  have hask : Ensures (StoreHas server.tree J)
      (ask server.serve about (.openfork true write did name)) fun reply c =>
        reply.rc = 0 → StoreHolds server.tree (fun store forks => ∃ o,
          server.tree.object did name = some o ∧ o.isdir = false ∧
            J store ∧ forks reply.forkid = some o.fileid) c := by
    refine carriedOut_ask rfl fun taken s hs => ?_
    show (server.openfork did name s).1.rc = 0 → ∃ o, _ ∧ _ ∧
      J (server.openfork did name s).2.store ∧
        (server.openfork did name s).2.forks (server.openfork did name s).1.forkid = _
    unfold openfork
    cases ho : server.tree.object did name with
    | none => exact fun h => absurd h (show kFPObjectNotFound ≠ 0 by decide)
    | some o =>
      dsimp only
      cases hdir : o.isdir with
      | true => exact fun h => absurd h (show kFPObjectTypeErr ≠ 0 by decide)
      | false => exact fun _ => ⟨o, rfl, hdir, hs, update_self _ _ _⟩
  refine hask.mono (fun _ hc => hc) fun reply c hc hrc => ?_
  obtain ⟨hvolume, o, ho, hdir, hJ, hfork⟩ := hc hrc
  exact ⟨o, ho, hdir, hvolume, hJ, hfork⟩

theorem opened_llOpen :
    Ensures (StoreHas server.tree J)
      (Client.llOpen server.serve cfg about ⟨did, name, true, 0, 0⟩ { oRdonly with write })
      fun res c =>
        match res with
        | .error ret => 0 < ret
        | .ok fp => OpenOn server.tree J did name fp.forkid c := by
  have hask : Ensures (StoreHas server.tree J)
      (ask server.serve about (.getfiledirparms .forkLength did name)) fun reply c =>
        reply.rc = 0 → StoreHolds server.tree (fun _ _ => reply.parentdid = did) c := by
    refine carriedOut_ask rfl fun taken s _ hrc => ?_
    obtain ⟨o, ho⟩ := object_of_onObject hrc
    show (server.onObject did name _ s).1.parentdid = did
    rw [onObject_some ho]
    rfl
  -- the lookup leaves the ID that it was given, or 0
  have hlookup : LooksUp server.serve about ⟨did, name, true, 0, 0⟩
      (StoreHas server.tree J) (fun ret _ => 0 < ret) fun fp c =>
        (fp.basename = name ∧ fp.resource = true ∧ (fp.did = did ∨ fp.did = 0)) ∧
          StoreHas server.tree J c := by
    refine (hask.and (holds_getfiledirparms (by decide))).mono (fun _ hc => hc) ?_
    intro reply c hc
    split_ifs with hneg hbig
    · exact Int.neg_pos_of_neg hneg
    · exact (by decide : 0 < eoverflow)
    have hparent : reply.parentdid = did := (hc.1 (eq_zero_of_fileDirParmsErrno hneg)).2
    refine ⟨⟨rfl, rfl, ?_⟩, hc.2⟩
    show (if reply.isdir then 0 else reply.parentdid) = did ∨
      (if reply.isdir then 0 else reply.parentdid) = 0
    rw [hparent]
    split
    · exact .inr rfl
    · exact .inl rfl
  refine ensures_llOpen (fun _ _ _ _ => (by decide : 0 < eperm))
    (fun _ c hc => ⟨⟨rfl, rfl, .inl rfl⟩, hc⟩) (fun _ => hlookup) fun fp => .assume ?_
  rintro ⟨hname, hresource, hdid⟩
  rw [hname, hresource]
  refine opened_openfork.mono (fun _ hc => hc) fun reply c hc => ?_
  by_cases hrc : openforkErrno reply.rc ≠ 0
  · rw [if_pos hrc]
    exact lt_of_le_of_ne (openforkErrno_nonneg _) (Ne.symm hrc)
  rw [if_neg hrc]
  have hopen := hc (openforkErrno_eq_zero.mp (not_not.mp hrc))
  rcases hdid with hdid | hdid
  · rwa [hdid] at hopen
  · obtain ⟨o, ho, -⟩ := hopen
    rw [hdid] at ho
    cases ho

/-- `open_appledouble_meta` of a resource fork. -/
theorem opened_openResource (hcache : cache.Correct server.tree) (hpath : path.head? = some slash) :
    Ensures (StoreHas server.tree J)
      ((server.calls cfg path converted).openResource volume host path write)
      fun res c =>
        match res with
        | .error ret => ret < 0
        | .ok forkid => ∃ o, server.tree.special cache volume host path = some o ∧
            OpenOn server.tree J o.1 o.2 forkid c := by
  refine .bind (holds_openMeta server.answersLookups hcache hpath) ?_
  rintro (ret | ⟨did, basename⟩)
  · exact .assume fun hres => .pure fun _ _ => hres.1 ret rfl
  refine .assume fun hres => ?_
  have hopen : Ensures (StoreHas server.tree J)
      (llOpenResource server.serve cfg [converted] did basename write) fun res c =>
        ¬res.1.val < 0 → OpenOn server.tree J did basename res.2 c := by
    refine .bind opened_llOpen ?_
    rintro (ret | fp)
    · exact .pure fun _ hret h => absurd (errorStatus_neg hret) h
    · exact .pure fun _ hc _ => hc
  refine .bind hopen ?_
  rintro ⟨ret, forkid⟩
  refine .ite (fun hret => .pure fun _ _ => hret) fun hret => .pure fun c hc => ?_
  exact ⟨(did, basename), (hres.2 (did, basename)).mp rfl, hc hret⟩

/-- After the resource fork is opened: an error, or an open fork of a file. -/
theorem afterOpenResource {α : Type}
    {m : Except ℤ ℕ → StateM (Client AttributeState) α} {post : α → Client AttributeState → Prop}
    (hcache : cache.Correct server.tree) (hpath : path.head? = some slash)
    (herror : ∀ ret < 0, Ensures (fun _ => True) (m (.error ret)) post)
    (hok : ∀ did name o forkid, server.tree.special cache volume host path = some (did, name) →
      server.tree.object did name = some o → o.isdir = false →
        Ensures (StoreHolds server.tree fun store forks => J store ∧ forks forkid = some o.fileid)
          (m (.ok forkid)) post) :
    Ensures (StoreHas server.tree J)
      ((server.calls cfg path converted).openResource volume host path write >>= m)
      post := by
  refine .bind (opened_openResource hcache hpath) ?_
  rintro (ret | forkid) c hopen
  · exact herror ret hopen c trivial
  · obtain ⟨⟨did, name⟩, hspecial, o, ho, hfile, hc⟩ := hopen
    exact hok did name o forkid hspecial ho hfile c hc

end Opening

end NetatalkClient
