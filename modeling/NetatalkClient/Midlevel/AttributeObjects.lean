import NetatalkClient.Midlevel.Addressing
import NetatalkClient.Midlevel.Helpers.TreeServer
/-!
# Midlevel: the object whose attributes are asked for

`ml_getattr` converts its path and asks about what the converted path is
resolved to. The calls on extended attributes resolve the path as it was
given, except for the resource fork and the FinderInfo. Whatever a server
answers beside its lookups, their requests carry what that of `ml_getattr`
carries exactly if the two paths come to the same directory and the same
name on the wire, the path is no emulated one, and before AFP 3.0 it is
not a directory's.
-/

namespace NetatalkClient

open Volume AfpCalls Client List

/-! ## What requests carry -/

/-- The objects that a request is about: a directory ID and a name. -/
def AfpRequest.objects : AfpRequest → List (ℕ × Octets)
  | .getfiledirparms _ did name | .createfile _ did name | .createdir did name => [(did, name)]
  | .delete did name => [(did, name)]
  | .moveandrename srcDid dstDid srcPath dstPath _ => [(srcDid, srcPath), (dstDid, dstPath)]
  | .exchangefiles srcDid dstDid srcPath dstPath => [(srcDid, srcPath), (dstDid, dstPath)]
  | .setdirparms did name _ | .setfileparms did name _ | .setfiledirparms did name _ =>
      [(did, name)]
  | .openfork _ _ did name => [(did, name)]
  | .setforkparms _ _ | .read _ _ _ | .write _ _ _ | .byterangelock _ _ _ _ => []
  | .flushfork _ | .closefork _ => []
  | .getextattr did name _ | .setextattr did _ name _ _ | .listextattr did name => [(did, name)]
  | .removeextattr did name _ => [(did, name)]

theorem AfpRequest.objects_eq_nil {r : AfpRequest} (h : r.dirids = []) : r.objects = [] := by
  cases r
  all_goals first | rfl | cases h

/-- An object with its name as it is sent. -/
def onWire (encoding : PathEncoding) (o : ℕ × Octets) : ℕ × Octets :=
  (o.1, unixpathToAfppath encoding (copyPath encoding o.2 o.2.length))

/-- What the requests of a journal carry. -/
def carried (encoding : PathEncoding) : List Event → List (ℕ × Octets)
  | [] => []
  | .request _ r _ :: j => r.objects.map (onWire encoding) ++ carried encoding j
  | .lookup _ :: j | .resolved _ _ :: j => carried encoding j

/-! ## `ml_getattr` -/

/-- The path whose object `ml_getattr` asks about, for a converted path. -/
def MidlevelConfig.statPath (cfg : MidlevelConfig) (converted : Octets) : Option Octets :=
  match cfg.extraTranslate converted with
  | .none => some converted
  | .resource newpath | .finderinfo newpath | .comment newpath => some newpath
  | .appledouble | .serverIcon => none

/-- The object that is asked about for a path that is resolved to `o`. -/
def MidlevelConfig.statAddress (cfg : MidlevelConfig) (path : Octets) (o : ℕ × Octets) :
    ℕ × Octets :=
  if cfg.avNumber < 30 ∧ path = rootPath then (1, cfg.volumeName) else o

/-- The object that `ll_getattr` asks about. -/
def Catalog.statObject (t : Catalog) (cache : Volume) (cfg : MidlevelConfig) (path : Octets) :
    Option (ℕ × Octets) :=
  if cfg.invalidFilename path then none else (t.found cache path).map (cfg.statAddress path)

/-- The object that `ml_getattr` asks about. -/
def Catalog.listed (t : Catalog) (cache : Volume) (cfg : MidlevelConfig) (path : Octets) :
    Option (ℕ × Octets) :=
  match cfg.convertPathToAfpAlloc path with
  | .error _ => none
  | .ok q => (cfg.statPath q).bind (t.statObject cache cfg)

section Getattr

variable {σ : Type} {t : Catalog} {serve : AfpRequest → StateM σ AfpReply} {cfg : MidlevelConfig}
variable {cache : Volume} {server : σ} {encoding : PathEncoding} {path : Octets}
variable {L : List (ℕ × Octets)}

theorem attributesOf_found {did : ℕ} {name : Octets} :
    attributesOf cfg path ⟨0, some did, some name⟩ = cfg.statAddress path (did, name) := rfl

theorem carried_getDirid (path : Octets) :
    Keeps (fun c : Client σ => carried encoding c.journal = L) (Client.getDirid serve path) :=
  keeps_getDirid (P := fun j => carried encoding j = L) (fun _ _ h => h) (fun _ _ _ h => h) path

/-- What `get_dirid` finds in a given cache. -/
theorem finds_from (path : Octets) :
    Ensures (fun c => c.volume = cache ∧ carried encoding c.journal = [])
      (Client.getDirid (t.server serve) path) fun got c =>
        got = (Volume.getDirid t cache path).2 ∧ carried encoding c.journal = [] := by
  rintro c ⟨rfl, hc⟩
  have houtcome := congrArg Prod.snd (getDirid_of_answers (t.answersLookups_server serve) path c)
  exact ⟨houtcome, carried_getDirid path c hc⟩

theorem carried_llGetattr {resource : Bool} :
    Ensures (fun c => c.volume = cache ∧ carried encoding c.journal = [])
      (Client.llGetattr (t.server serve) cfg path resource) fun _ c =>
        carried encoding c.journal =
          (t.statObject cache cfg path).toList.map (onWire encoding) := by
  unfold Client.llGetattr Catalog.statObject
  refine .ite (fun hinvalid => .pure fun c hc => ?_) fun hvalid => ?_
  · rw [if_pos hinvalid]
    exact hc.2
  rw [if_neg hvalid]
  refine .bind (finds_from path) fun got => .assume fun hgot => ?_
  rcases getDirid_neg_or_found t cache path with ⟨hret, hnone⟩ | ⟨did, name, hres, hfound⟩
  · rw [← hgot] at hret
    rw [hnone]
    exact .ite (fun _ => .pure fun c hc => hc) fun h => absurd hret h
  · rw [hres] at hgot
    rw [hgot, hfound]
    refine .skip (Int.lt_irrefl 0) ?_
    have hask : Ensures (fun c => carried encoding c.journal = [])
        (ask (t.server serve) [path] (.getfiledirparms .attributes
          (cfg.statAddress path (did, name)).1 (cfg.statAddress path (did, name)).2))
        fun _ c => carried encoding c.journal =
          [onWire encoding (cfg.statAddress path (did, name))] := by
      intro c hc
      show _ :: carried encoding c.journal = _
      rw [hc]
    refine .bind hask fun reply => .orKept ?_
    split
    · exact .kept
    · exact .kept

/-- The result of `appledouble_getattr`, which ends `ml_getattr` or not. -/
theorem carried_afterAppledouble {pre : Client σ → Prop}
    {m : StateM (Client σ) (ℤ × ℕ)} {rest : StateM (Client σ) (ℤ × ℕ)}
    (hm : Ensures pre m fun r c => r.1 ≠ 0 ∧ carried encoding c.journal = L) :
    Ensures pre (m >>= fun (ret, stSize) =>
      if ret < 0 then pure (ret, stSize) else if 0 < ret then pure (0, stSize) else rest)
      fun _ c => carried encoding c.journal = L := by
  refine .bind hm ?_
  rintro ⟨ret, stSize⟩
  refine .assume fun hret => .ite (fun _ => .kept) fun hneg => .ite (fun _ => .kept) fun hpos => ?_
  exact absurd (le_antisymm (not_lt.mp hpos) (not_lt.mp hneg)) hret

/-- **What `ml_getattr` carries.** -/
theorem carried_mlGetattr (getCommentSize : Octets → ℕ → ℤ) :
    carried encoding ((mlGetattr (t.server serve) cfg getCommentSize path).run
        (.fresh cache server)).2.journal =
      (t.listed cache cfg path).toList.map (onWire encoding) := by
  have hstart : ∀ {path : Octets} {resource : Bool}, Ensures
      (fun c => c = Client.fresh cache server)
      (Client.llGetattr (t.server serve) cfg path resource) fun _ c =>
        carried encoding c.journal = (t.statObject cache cfg path).toList.map (onWire encoding) :=
    carried_llGetattr.mono (fun c hc => hc ▸ ⟨rfl, rfl⟩) fun _ _ h => h
  suffices h : Ensures (fun c => c = Client.fresh cache server)
      (mlGetattr (t.server serve) cfg getCommentSize path) fun _ c =>
        carried encoding c.journal = (t.listed cache cfg path).toList.map (onWire encoding) from
    h _ rfl
  have hone : (1 : ℤ) ≠ 0 := by decide
  unfold mlGetattr Catalog.listed
  cases hconv : cfg.convertPathToAfpAlloc path with
  | error ret => exact .pure fun c hc => hc ▸ rfl
  | ok q =>
    dsimp only
    unfold appledoubleGetattr MidlevelConfig.statPath
    cases hextra : cfg.extraTranslate q with
    | none =>
      rw [pure_bind]
      exact .bind hstart fun _ => .kept
    | resource newpath =>
      exact carried_afterAppledouble (.bind hstart fun _ => .pure fun _ h => ⟨hone, h⟩)
    | appledouble =>
      exact carried_afterAppledouble (.pure fun c hc => hc ▸ ⟨hone, rfl⟩)
    | finderinfo newpath =>
      exact carried_afterAppledouble (.bind hstart fun _ => .pure fun _ h => ⟨hone, h⟩)
    | serverIcon =>
      exact carried_afterAppledouble (.pure fun c hc => hc ▸ ⟨hone, rfl⟩)
    | comment newpath =>
      refine carried_afterAppledouble (.bind hstart ?_)
      rintro ⟨ret, stSize⟩
      refine .ite (fun h => .pure fun _ hc => ⟨h.ne, hc⟩) fun _ => ?_
      refine .bind (carried_getDirid newpath) fun got => ?_
      refine .ite (fun h => .pure fun _ hc => ⟨h.ne, hc⟩) fun _ => ?_
      exact .ite (fun h => .pure fun _ hc => ⟨h.ne, hc⟩) fun _ => .pure fun _ hc => ⟨hone, hc⟩

end Getattr

/-! ## The calls on extended attributes -/

/-- A call on the extended attributes of a path. -/
inductive XattrCall where
  | get (name : Octets) (value : Bool) (size : ℕ)
  | set (name value : Octets) (flags : ℕ)
  | list (value : Bool) (size : ℕ)
  | remove (name : Octets)
  deriving DecidableEq, Repr

def XattrCall.on (path : Octets) : XattrCall → ResolvingCall
  | get name value size => .getxattr path name value size
  | set name value flags => .setxattr path name value flags
  | list value size => .listxattr path value size
  | remove name => .removexattr path name

section Conditions

variable (t : Catalog) (cache : Volume) (cfg : MidlevelConfig) (volume : MetadataVolume)
variable (host : ByteOrder) (path : Octets)

/-- What `ml_getattr` carries for the path, on a volume. -/
def carriedByStat : List (ℕ × Octets) :=
  (t.listed cache (cfg.on volume host) path).toList.map (onWire volume.pathEncoding)

/-- The path as it was given, the converted path and what `ll_open` makes of
it are resolved to what `ml_getattr` asks about, where they are resolved. -/
structure SameObject : Prop where
  /-- For an extended attribute, where the volume has them. -/
  own : volume.attributes &&& kSupportsExtAttrs ≠ 0 → path ≠ rootPath →
    ∀ o, t.found cache path = some o →
      onWire volume.pathEncoding o ∈ carriedByStat t cache cfg volume host path
  /-- For the resource fork and the FinderInfo. -/
  special : ∀ q o, convertPathToAfpAlloc host volume.pathEncoding path = .ok q →
    invalidPath volume.avNumber volume.pathEncoding q = false → t.found cache q = some o →
      onWire volume.pathEncoding o ∈ carriedByStat t cache cfg volume host path ∧
        onWire volume.pathEncoding ((cfg.on volume host).statAddress q o) ∈
          carriedByStat t cache cfg volume host path
  /-- Before AFP 3.0 `ll_open` takes the ID 0 for a directory's. -/
  opened : ∀ q o, convertPathToAfpAlloc host volume.pathEncoding path = .ok q →
    invalidPath volume.avNumber volume.pathEncoding q = false → t.found cache q = some o →
      volume.avNumber < 30 → volume.readonly = false → t.isDirectory o.1 o.2 = true →
        onWire volume.pathEncoding (0, o.2) ∈ carriedByStat t cache cfg volume host path

/-- A fork may be opened: `ll_open` goes on with what it was given, or with
what is listed. -/
def MayOpen : Prop :=
  ∀ q o, convertPathToAfpAlloc host volume.pathEncoding path = .ok q →
    invalidPath volume.avNumber volume.pathEncoding q = false → t.found cache q = some o →
      volume.avNumber < 30 → t.isDirectory o.1 o.2 = true →
        onWire volume.pathEncoding (0, o.2) ∈ carriedByStat t cache cfg volume host path

/-- What the converted path is resolved to, and it is listed. -/
def IsSpecial (did : ℕ) (name : Octets) : Prop :=
  (∃ q, convertPathToAfpAlloc host volume.pathEncoding path = .ok q ∧
    invalidPath volume.avNumber volume.pathEncoding q = false ∧
      t.found cache q = some (did, name)) ∧
    onWire volume.pathEncoding (did, name) ∈ carriedByStat t cache cfg volume host path

end Conditions

/-- The cache is correct for the tree, and every object that was asked about
is in `L`. -/
def Within (t : Catalog) (encoding : PathEncoding) (L : List (ℕ × Octets)) {σ : Type}
    (c : Client σ) : Prop :=
  c.volume.Correct t ∧ carried encoding c.journal ⊆ L

/-- Every object that was asked about is what `ml_getattr` asks about. -/
def AsListed (t : Catalog) (cache : Volume) (cfg : MidlevelConfig) (volume : MetadataVolume)
    (host : ByteOrder) (path : Octets) {σ : Type} : Client σ → Prop :=
  Within t volume.pathEncoding (carriedByStat t cache cfg volume host path)

section Sufficient

variable {σ : Type} {t : Catalog} {serve : AfpRequest → StateM σ AfpReply} {cfg : MidlevelConfig}
variable {volume : MetadataVolume} {host : ByteOrder} {cache : Volume} {path : Octets}
variable {encoding : PathEncoding} {L : List (ℕ × Octets)} {r : AfpRequest} {about : List Octets}
variable {q : Octets} {did : ℕ} {name : Octets}

theorem within_ask (h : ∀ o ∈ r.objects, onWire encoding o ∈ L) :
    Keeps (Within t encoding L) (ask serve about r) := by
  rintro c ⟨hcorrect, hc⟩
  refine ⟨hcorrect, fun o ho => ?_⟩
  rcases mem_append.mp ho with ho | ho
  · obtain ⟨o', ho', rfl⟩ := mem_map.mp ho
    exact h o' ho'
  · exact hc ho

theorem within_askOne (hr : r.objects = [(did, name)]) (h : onWire encoding (did, name) ∈ L) :
    Keeps (Within t encoding L) (ask serve about r) := by
  refine within_ask fun o ho => ?_
  rw [hr, mem_singleton] at ho
  exact ho ▸ h

theorem forkCallsKeep_within :
    ForkCallsKeep (Client.calls serve cfg path q) (Within t encoding L) :=
  ForkRequestsKeep.calls fun r hr => within_ask fun o ho => by
    rw [AfpRequest.objects_eq_nil hr] at ho
    exact absurd ho not_mem_nil

/-- `get_dirid` finds what it finds in the cache at the start. -/
theorem within_getDirid (hcache : cache.Correct t) (hpath : Rooted path) :
    Ensures (Within t encoding L) (Client.getDirid (t.server serve) path) fun got c =>
      got = (Volume.getDirid t cache path).2 ∧ Within t encoding L c :=
  finds_getDirid (P := fun c => carried encoding c.journal ⊆ L) (t.answersLookups_server serve)
    ⟨fun _ _ _ h => h, fun _ _ _ h => h, fun _ _ h => h⟩ hcache hpath

/-- Before AFP 3.0 a directory has no resource fork. -/
theorem statSize_directory {reply : AfpReply} (hav : cfg.avNumber < 30)
    (hdir : reply.isdir = true) : statSize cfg true reply = 0 := by
  have hmode : statMode cfg reply = 0o040700 := by
    unfold statMode
    rw [if_neg fun h => absurd h.1 (not_le.mpr hav), if_pos hdir]
  unfold statSize
  rw [hmode]
  rfl

theorem within_llGetattr {mayOpen : Prop} (hcache : cache.Correct t) (hq : Rooted q)
    (hstat : cfg.invalidFilename q = false → ∀ o, t.found cache q = some o →
      onWire encoding (cfg.statAddress q o) ∈ L)
    (hopen : (cfg.invalidFilename q = false → ∀ o, t.found cache q = some o →
      cfg.avNumber < 30 →
      t.isDirectory (cfg.statAddress q o).1 (cfg.statAddress q o).2 = false) → mayOpen) :
    Ensures (Within t encoding L) (Client.llGetattr (t.server serve) cfg q true) fun r c =>
      (r.2 ≠ 0 → mayOpen) ∧ Within t encoding L c := by
  have hnone : ∀ {ret : Status}, Ensures (Within t encoding L)
      (pure (ret, 0) : StateM (Client σ) (Status × ℕ)) fun r c =>
        (r.2 ≠ 0 → mayOpen) ∧ Within t encoding L c := .pure fun _ hc => ⟨fun h => absurd rfl h, hc⟩
  unfold Client.llGetattr
  refine .ite (fun _ => hnone) fun hvalid => ?_
  have hvalid : cfg.invalidFilename q = false := Bool.eq_false_of_not_eq_true hvalid
  refine .bind (within_getDirid hcache hq) fun got => .assume fun hgot => ?_
  refine .ite (fun _ => hnone) fun hret => ?_
  rcases getDirid_neg_or_found t cache q with ⟨hneg, -⟩ | ⟨did, name, hres, hfound⟩
  · exact absurd (hgot ▸ hneg) hret
  rw [hgot, hres, attributesOf_found]
  have hask : Ensures (Within t encoding L) (ask (t.server serve) [q] (.getfiledirparms .attributes
      (cfg.statAddress q (did, name)).1 (cfg.statAddress q (did, name)).2)) fun reply c =>
        reply.isdir = t.isDirectory (cfg.statAddress q (did, name)).1
          (cfg.statAddress q (did, name)).2 ∧ Within t encoding L c := fun c hc =>
    ⟨rfl, within_askOne rfl (hstat hvalid _ hfound) c hc⟩
  refine .bind hask fun reply => .assume fun hdir => .ite (fun _ => hnone) fun _ => ?_
  split
  · exact hnone
  · refine .pure fun c hc => ⟨fun hsize => hopen fun _ o ho hav => ?_, hc⟩
    obtain rfl := Option.some.inj (hfound.symm.trans ho)
    by_contra htrue
    exact hsize (statSize_directory hav (hdir.trans (Bool.eq_true_of_not_eq_false htrue)))

/-- `ll_open` of a resource fork. -/
theorem within_llOpenResource {write : Bool} (hobject : onWire encoding (did, name) ∈ L)
    (hopened : cfg.avNumber < 30 → t.isDirectory did name = true → onWire encoding (0, name) ∈ L) :
    Keeps (Within t encoding L) (llOpenResource (t.server serve) cfg about did name write) := by
  have hask : Ensures (Within t encoding L)
      (ask (t.server serve) about (.getfiledirparms .forkLength did name)) fun reply c =>
        (reply.isdir = t.isDirectory did name ∧ reply.parentdid = did) ∧ Within t encoding L c :=
    fun c hc => ⟨⟨rfl, rfl⟩, within_askOne rfl hobject c hc⟩
  have hlookup : cfg.avNumber < 30 → LooksUp (t.server serve) about ⟨did, name, true, 0, 0⟩
      (Within t encoding L) (fun _ => Within t encoding L)
      fun fp c => onWire encoding (fp.did, fp.basename) ∈ L ∧ Within t encoding L c := by
    intro hav
    refine hask.mono (fun _ hc => hc) fun reply c hc => ?_
    split_ifs
    · exact hc.2
    · exact hc.2
    refine ⟨?_, hc.2⟩
    show onWire encoding (if reply.isdir then 0 else reply.parentdid, name) ∈ L
    rw [hc.1.1, hc.1.2]
    cases hdir : t.isDirectory did name with
    | true => exact hopened hav hdir
    | false => exact hobject
  exact ensures_llOpenResource (fun _ _ _ hc => hc) (fun _ _ hc => ⟨hobject, hc⟩) hlookup
    fun fp => .assume fun hfp => within_askOne rfl hfp

/-- `get_dirid`, as the calls on metadata take it. -/
theorem within_resolve {r : Octets} (hcache : cache.Correct t) (hr : Rooted r) :
    Ensures (Within t encoding L) ((Client.calls (t.server serve) cfg path q).getDirid r)
      fun res c => (¬res.1 < 0 → t.found cache r = some res.2) ∧ Within t encoding L c := by
  have hkeep : LookupsKeep (t.server serve) fun c : Client σ => carried encoding c.journal ⊆ L :=
    ⟨fun _ _ _ h => h, fun _ _ _ h => h, fun _ _ h => h⟩
  refine (finds_resolve (t.answersLookups_server serve) hkeep hcache hr).mono (fun _ h => h) ?_
  rintro res c ⟨⟨hnone, hsome⟩, hc⟩
  refine ⟨fun hret => ?_, hc⟩
  cases hfound : t.found cache r with
  | none => exact absurd (hnone hfound) hret
  | some o => rw [hsome o hfound]

section Listed

variable (hcache : cache.Correct t) (hpath : path.head? = some slash)
variable (hsame : SameObject t cache cfg volume host path)

include hcache hpath hsame

/-- `ll_getattr` of the converted path asks about what is listed, and gives a
length only to what may be opened. -/
theorem within_stat {q : Octets}
    (hq : convertPathToAfpAlloc host volume.pathEncoding path = .ok q) :
    Ensures (AsListed t cache cfg volume host path)
      (Client.llGetattr (t.server serve) (cfg.on volume host) q true) fun r c =>
        (r.2 ≠ 0 → MayOpen t cache cfg volume host path) ∧
          AsListed t cache cfg volume host path c := by
  refine within_llGetattr hcache (rooted_convertPathToAfpAlloc hpath hq) ?_ ?_
  · exact fun hvalid o ho => (hsame.special q o hq hvalid ho).2
  · intro hnot q' o hq' hvalid ho hav hdir
    obtain rfl := Except.ok.inj (hq.symm.trans hq')
    have hstat := hnot hvalid o ho hav
    unfold MidlevelConfig.statAddress at hstat
    split at hstat
    · cases hstat
    · rw [hdir] at hstat
      cases hstat

/-- The calls on the resource fork and the FinderInfo ask about what is
listed. -/
theorem asksSpecial_within :
    AsksSpecial (callsFor (t.server serve) (cfg.on volume host) path) volume host path
      (AsListed t cache cfg volume host path) (AsListed t cache cfg volume host path)
      (AsListed t cache cfg volume host path)
      (fun did name c => IsSpecial t cache cfg volume host path did name ∧
        AsListed t cache cfg volume host path c) (MayOpen t cache cfg volume host path) where
  begun _ hc := hc
  forks := forkCallsKeep_within
  closed _ hc := hc
  mayWrite hro q o hq hvalid ho hav hdir := hsame.opened q o hq hvalid ho hav hro hdir
  resolve q hq hvalid := by
    have hrooted := rooted_convertPathToAfpAlloc hpath hq
    refine (within_resolve hcache hrooted).mono (fun _ hc => hc) ?_
    rintro res c ⟨hfound, hc⟩
    split_ifs with hret
    · exact hc
    · exact ⟨⟨⟨q, hq, hvalid, hfound hret⟩, (hsame.special q _ hq hvalid (hfound hret)).1⟩, hc⟩
  llGetattr q hq := within_stat hcache hpath hsame hq
  llOpen did name write _ hopen := .assume fun hobject => by
    obtain ⟨⟨q, hq, hvalid, hfound⟩, hlisted⟩ := hobject
    have hopened : volume.avNumber < 30 → t.isDirectory did name = true →
        onWire volume.pathEncoding (0, name) ∈ carriedByStat t cache cfg volume host path :=
      hopen q (did, name) hq hvalid hfound
    exact within_llOpenResource hlisted hopened
  getfiledirparms did name := .assume fun hobject =>
    .bind (within_askOne rfl hobject.2) fun _ => .pure fun _ hc => ⟨hc, hobject, hc⟩
  setfiledirparms did name data := .assume fun hobject =>
    .bind (within_askOne rfl hobject.2) fun _ => .kept

/-- What the path as it was given is resolved to is listed. -/
theorem within_own (hsupports : volume.attributes &&& kSupportsExtAttrs ≠ 0)
    (hroot : path ≠ rootPath) :
    Ensures (AsListed t cache cfg volume host path)
      ((callsFor (t.server serve) (cfg.on volume host) path).getDirid path) fun res c =>
        if res.1 = 0 then
          onWire volume.pathEncoding (res.2.1, res.2.2) ∈
              carriedByStat t cache cfg volume host path ∧ AsListed t cache cfg volume host path c
        else AsListed t cache cfg volume host path c := by
  refine (within_resolve hcache (.inl hpath)).mono (fun _ hc => hc) ?_
  rintro res c ⟨hfound, hc⟩
  split_ifs with hret
  · exact ⟨hsame.own hsupports hroot _ (hfound (hret ▸ Int.lt_irrefl 0)), hc⟩
  · exact hc

theorem asksOwn_within {name : Octets} :
    AsksOwn (callsFor (t.server serve) (cfg.on volume host) path) volume path name
      (AsListed t cache cfg volume host path) (AsListed t cache cfg volume host path)
      fun did name c =>
        onWire volume.pathEncoding (did, name) ∈ carriedByStat t cache cfg volume host path ∧
          AsListed t cache cfg volume host path c where
  begun _ hc := hc
  resolve hsupports hroot _ _ := within_own hcache hpath hsame hsupports hroot
  getextattr _ _ := .assume fun hown => .bind (within_askOne rfl hown) fun _ => .kept
  setextattr _ _ _ _ := .assume fun hown => .bind (within_askOne rfl hown) fun _ => .kept
  removeextattr _ _ := .assume fun hown => .bind (within_askOne rfl hown) fun _ => .kept

theorem within_run (call : XattrCall) :
    Keeps (AsListed t cache cfg volume host path)
      ((call.on path).run (t.server serve) (cfg.on volume host) volume host) := by
  have hspecial := @asksSpecial_within σ t serve cfg volume host cache path hcache hpath hsame
  have hown := fun name =>
    @asksOwn_within σ t serve cfg volume host cache path hcache hpath hsame name
  cases call with
  | get name value size =>
    refine .bind ?_ fun _ => .kept
    cases hname : isSpecialXattr name with
    | true => exact hspecial.mlGetxattr hname
    | false => exact (hown name).mlGetxattr hname
  | set name value flags =>
    refine .bind ?_ fun _ => .kept
    cases hname : isSpecialXattr name with
    | true => exact hspecial.mlSetxattr hname
    | false => exact (hown name).mlSetxattr hname
  | list value size =>
    refine .bind (ensures_mlListxattr (fun did basename c =>
      onWire volume.pathEncoding (did, basename) ∈ carriedByStat t cache cfg volume host path ∧
        AsListed t cache cfg volume host path c)
      (fun _ hc => hc) (within_own hcache hpath hsame) ?_) fun _ => .kept
    exact fun did basename => .assume fun hown => .bind (within_askOne rfl hown) fun _ => .kept
  | remove name =>
    refine .bind ?_ fun _ => .kept
    cases hname : isSpecialXattr name with
    | true => exact hspecial.mlRemovexattr hname
    | false => exact (hown name).mlRemovexattr hname

end Listed

end Sufficient

/-! ## The other way -/

section Necessary

variable {t : Catalog} {cfg : MidlevelConfig} {volume : MetadataVolume} {host : ByteOrder}
variable {cache : Volume} {path q : Octets} {o : ℕ × Octets} {encoding : PathEncoding}
variable {σ : Type} {serve : AfpRequest → StateM σ AfpReply} {r : AfpRequest} {about : List Octets}

/-- A client that has asked about nothing yet. -/
def Unasked (cache : Volume) (encoding : PathEncoding) (c : Client σ) : Prop :=
  c.volume = cache ∧ carried encoding c.journal = []

/-- An object that was asked about. -/
def Asked (encoding : PathEncoding) (o : ℕ × Octets) (c : Client σ) : Prop :=
  onWire encoding o ∈ carried encoding c.journal

theorem asked_ask {pre : Client σ → Prop} (hr : r.objects = [o]) :
    Ensures pre (ask serve about r) fun _ c => Asked encoding o c := by
  intro c _
  show onWire encoding o ∈ r.objects.map (onWire encoding) ++ carried encoding c.journal
  rw [hr]
  exact mem_cons_self

theorem asked_cons (e : Event) (j : List Event) (h : onWire encoding o ∈ carried encoding j) :
    onWire encoding o ∈ carried encoding (e :: j) := by
  cases e with
  | lookup rc => exact h
  | resolved p did => exact h
  | request about r reply => exact mem_append_right _ h

/-- Requests on a fork do not undo it. -/
theorem forkCallsKeep_asked :
    ForkCallsKeep (Client.calls serve cfg path q) fun c => Asked encoding o c :=
  ForkRequestsKeep.calls (forkRequestsKeep_of_cons asked_cons)

theorem found_resolve {p : Octets} (hfound : t.found cache p = some o) :
    Ensures (Unasked cache encoding) ((Client.calls (t.server serve) cfg path q).getDirid p)
      fun res _ => res = (0, o) := by
  refine .bind (finds_from p) fun got => .assume fun hgot => .pure fun _ _ => ?_
  rcases getDirid_neg_or_found t cache p with ⟨-, hnone⟩ | ⟨did, name, hres, hsome⟩
  · rw [hnone] at hfound
    cases hfound
  · rw [hgot, hres, ← Option.some.inj (hsome.symm.trans hfound)]
    rfl

/-- The list of attributes asks about what the path itself is resolved to. -/
theorem asked_list (hsupports : volume.attributes &&& kSupportsExtAttrs ≠ 0)
    (hroot : path ≠ rootPath) (hfound : t.found cache path = some o) :
    Ensures (Unasked cache encoding)
      ((callsFor (t.server serve) cfg path).mlListxattr volume path false 0) fun _ c =>
        Asked encoding o c := by
  obtain ⟨did, basename⟩ := o
  refine .ite (fun _ => .bind_eq (found_resolve hfound) ?_) fun h => absurd ⟨hsupports, hroot⟩ h
  refine .ite (fun h => absurd rfl h) fun _ => ?_
  have hlist : Ensures (fun _ => True)
      ((callsFor (t.server serve) cfg path).afpListextattr did basename) fun _ c =>
        Asked encoding (did, basename) c := .bind (asked_ask rfl) fun _ => .kept
  refine .bind hlist ?_
  rintro ⟨rc, info⟩
  refine .orKept <| .orKept ?_
  exact .orKept <| .orKept <| .kept

/-- Before AFP 3.0, `ll_open` of a directory asks about the ID 0. -/
theorem asked_llOpenResource (hav : volume.avNumber < 30)
    (hro : volume.readonly = false) (hdir : t.isDirectory o.1 o.2 = true) :
    Ensures (fun _ => True)
      (llOpenResource (t.server (answering 0)) (cfg.on volume host) about o.1 o.2 true)
      fun _ c => Asked encoding (0, o.2) c := by
  have hlookup : LooksUp (t.server (answering 0)) about ⟨o.1, o.2, true, 0, 0⟩ (fun _ => True)
      (fun _ c => Asked encoding (0, o.2) c) fun fp _ => fp = ⟨0, o.2, true, 0, 0⟩ := by
    have hask : Ensures (fun _ => True)
        (ask (t.server (answering 0)) about (.getfiledirparms .forkLength o.1 o.2)) fun reply _ =>
          reply.isdir = true ∧ reply.rc = 0 := fun _ _ => ⟨hdir, rfl⟩
    refine hask.mono (fun _ _ => trivial) ?_
    rintro reply c ⟨hisdir, hrc⟩
    have hparsed : (⟨o.1, o.2, true, 0, 0⟩ : OpenFile).parsed reply = ⟨0, o.2, true, 0, 0⟩ := by
      rw [OpenFile.parsed, hisdir]
      rfl
    have hsmall : ¬afpMaxAfp2Filesize - 1 ≤ 0 := by decide
    rw [hrc, if_neg (by decide), hparsed, if_neg hsmall]
  have hask : Ensures (fun _ => True)
      (ask (t.server (answering 0)) about (.openfork true true 0 o.2)) fun _ c =>
        Asked encoding (0, o.2) c := asked_ask rfl
  refine ensures_llOpenResource (fun _ h => ?_) (fun h => ?_) (fun _ => hlookup) ?_
  · exact absurd (hro.symm.trans h) nofun
  · exact absurd h (not_le.mpr hav)
  · rintro fp c rfl
    exact hask c trivial

section Special

variable (hq : convertPathToAfpAlloc host volume.pathEncoding path = .ok q)
variable (hvalid : invalidPath volume.avNumber volume.pathEncoding q = false)
variable (hfound : t.found cache q = some o)

include hq hvalid hfound

theorem found_openMeta :
    Ensures (Unasked cache encoding)
      ((callsFor (t.server serve) cfg path).openMeta volume host path)
      fun res _ => res = .ok o := by
  unfold openMeta
  rw [hq]
  refine .ite (fun h => ?_) fun _ => .bind_eq (found_resolve hfound) ?_
  · rw [hvalid] at h
    cases h
  · exact .skip (Int.lt_irrefl 0) <| .pure fun _ _ => rfl

/-- The FinderInfo is asked for under what the converted path is resolved
to. -/
theorem asked_finderinfo :
    Ensures (Unasked cache encoding) ((callsFor (t.server serve) cfg path).mlGetxattr volume host
      path (text "com.apple.FinderInfo") false 0) fun _ c => Asked encoding o c := by
  have hresource : isResourceforkXattr (text "com.apple.FinderInfo") = false := by decide
  have hfinder : isFinderinfoXattr (text "com.apple.FinderInfo") = true := by decide
  unfold mlGetxattr
  rw [hresource, hfinder, if_neg nofun, if_pos rfl]
  refine .bind_eq (found_openMeta hq hvalid hfound) ?_
  have hask : Ensures (fun _ => True)
      ((callsFor (t.server serve) cfg path).afpGetfiledirparms o.1 o.2) fun _ c =>
        Asked encoding o c := .bind (asked_ask rfl) fun _ => .kept
  have hread : Ensures (fun _ => True)
      ((callsFor (t.server serve) cfg path).readFinderinfo o.1 o.2) fun _ c =>
        Asked encoding o c := by
    refine .bind hask ?_
    rintro ⟨rc, finderinfo⟩
    exact .orKept <| .kept
  refine .bind hread ?_
  rintro ⟨ret, finderinfo⟩
  refine .orKept <| .orKept ?_
  exact .orKept <| .orKept <| .kept

/-- The resource fork's length is asked for as `ll_getattr` asks. -/
theorem asked_resourcefork :
    Ensures (Unasked cache encoding) ((callsFor (t.server serve) (cfg.on volume host)
      path).mlGetxattr volume host path (text "com.apple.ResourceFork") false 0) fun _ c =>
        Asked encoding ((cfg.on volume host).statAddress q o) c := by
  have hresource : isResourceforkXattr (text "com.apple.ResourceFork") = true := by decide
  unfold mlGetxattr mlGetresourcefork
  rw [hresource, if_pos rfl, if_neg (by decide), hq]
  have hstat : t.statObject cache (cfg.on volume host) q =
      some ((cfg.on volume host).statAddress q o) := by
    unfold Catalog.statObject
    rw [show (cfg.on volume host).invalidFilename q = false from hvalid, hfound]
    rfl
  have hget : Ensures (Unasked cache encoding)
      ((callsFor (t.server serve) (cfg.on volume host) path).llGetattr q) fun _ c =>
        Asked encoding ((cfg.on volume host).statAddress q o) c := by
    refine carried_llGetattr.mono (fun _ hc => hc) fun _ c hc => ?_
    rw [hstat] at hc
    show _ ∈ carried encoding c.journal
    rw [hc]
    exact mem_cons_self
  refine .bind hget ?_
  rintro ⟨ret, stSize⟩
  refine .orKept <| .orKept ?_
  exact .ite (fun _ => .orKept <| .kept) fun h => absurd rfl h

/-- Before AFP 3.0, an empty resource fork of a directory is set under the
ID 0. -/
theorem asked_setresourcefork (hav : volume.avNumber < 30) (hro : volume.readonly = false)
    (hdir : t.isDirectory o.1 o.2 = true) :
    Ensures (Unasked cache encoding) ((callsFor (t.server (answering 0)) (cfg.on volume host)
      path).mlSetxattr volume host path (text "com.apple.ResourceFork") [] 0) fun _ c =>
        Asked encoding (0, o.2) c := by
  have hresource : isResourceforkXattr (text "com.apple.ResourceFork") = true := by decide
  have hkeep : ForkCallsKeep (callsFor (t.server (answering 0)) (cfg.on volume host) path)
      fun c => Asked encoding (0, o.2) c := forkCallsKeep_asked
  have hopen : Ensures (fun _ => True)
      ((callsFor (t.server (answering 0)) (cfg.on volume host) path).llOpen o.1 o.2 true)
      fun _ c => Asked encoding (0, o.2) c := asked_llOpenResource hav hro hdir
  have hfork : Ensures (Unasked cache encoding)
      ((callsFor (t.server (answering 0)) (cfg.on volume host) path).openResource volume host
        path true) fun _ c => Asked encoding (0, o.2) c := by
    refine .bind_eq (found_openMeta hq hvalid hfound) (.bind hopen ?_)
    rintro ⟨ret, forkid⟩
    exact .orKept <| .kept
  have hset : Ensures (Unasked cache encoding)
      ((callsFor (t.server (answering 0)) (cfg.on volume host) path).mlSetresourcefork volume host
        path [] 0) fun _ c => Asked encoding (0, o.2) c := by
    refine .skip (by decide) ?_
    refine .skip (by decide) <| .ite (fun h => ?_) fun _ => ?_
    · rw [hro] at h
      cases h
    refine .bind hfork ?_
    rintro (ret | forkid)
    · exact .kept
    refine .bind hkeep.zeroResource fun ret => ?_
    refine .ite (fun _ => .bind hkeep.closeResource fun _ => .kept) fun _ => ?_
    exact .ite (fun _ => hkeep.closeResource) fun h => absurd rfl h
  unfold mlSetxattr mlSetresourceforkFlags
  rw [if_neg (by decide), hresource, if_pos rfl, if_neg (by decide)]
  have hflags : ∀ get : StateM (Client Unit) (ℤ × Octets),
      checkSpecialFlags 0 get = pure 0 := fun get => if_neg (by decide)
  rw [hflags, pure_bind, if_neg (by decide)]
  exact hset

end Special

end Necessary

/-! ## The whole -/

/-- **The requests for a path's extended attributes carry what that of
`ml_getattr` carries**, whatever the call and whatever the server answers,
exactly if all that the calls resolve comes to the same object. -/
theorem attributes_of_listed_iff (t : Catalog) (cache : Volume) (hcache : cache.Correct t)
    (cfg : MidlevelConfig) (volume : MetadataVolume) (host : ByteOrder)
    (getCommentSize : Octets → ℕ → ℤ) (path : Octets) (hpath : path.head? = some slash) :
    (∀ (σ : Type) (serve : AfpRequest → StateM σ AfpReply) (server : σ) (call : XattrCall),
      carried volume.pathEncoding (((call.on path).run (t.server serve) (cfg.on volume host) volume
          host).run (.fresh cache server)).2.journal ⊆
        carried volume.pathEncoding ((mlGetattr (t.server serve) (cfg.on volume host)
          getCommentSize path).run (.fresh cache server)).2.journal) ↔
      SameObject t cache cfg volume host path := by
  simp only [carried_mlGetattr]
  constructor
  · intro h
    -- a call shows an object if it asks about it when it starts
    have hasked : ∀ {call : XattrCall} {o : ℕ × Octets},
        Ensures (Unasked cache volume.pathEncoding) ((call.on path).run (t.server (answering 0))
          (cfg.on volume host) volume host) (fun _ c => Asked volume.pathEncoding o c) →
        onWire volume.pathEncoding o ∈ carriedByStat t cache cfg volume host path :=
      fun {call o} hcall => h Unit (answering 0) () call (hcall (.fresh cache ()) ⟨rfl, rfl⟩)
    refine ⟨fun hsupports hroot o ho => ?_, fun q o hq hvalid ho => ⟨?_, ?_⟩, ?_⟩
    · exact @hasked (.list false 0) o (.bind (asked_list hsupports hroot ho) fun _ => .kept)
    · exact @hasked (.get (text "com.apple.FinderInfo") false 0) o
        (.bind (asked_finderinfo hq hvalid ho) fun _ => .kept)
    · exact @hasked (.get (text "com.apple.ResourceFork") false 0) _
        (.bind (asked_resourcefork hq hvalid ho) fun _ => .kept)
    · intro q o hq hvalid ho hav hro hdir
      exact @hasked (.set (text "com.apple.ResourceFork") [] 0) _
        (.bind (asked_setresourcefork hq hvalid ho hav hro hdir) fun _ => .kept)
  · intro hsame σ serve server call
    have hstart : AsListed t cache cfg volume host path
        (Client.fresh cache server) := ⟨hcache, nil_subset _⟩
    exact (within_run hcache hpath hsame call _ hstart).2

/-- From AFP 3.0 on, for a path that is not emulated, what counts is how the
path is resolved as it was given. -/
theorem sameObject_iff {t : Catalog} {cache : Volume} {cfg : MidlevelConfig}
    {volume : MetadataVolume} {host : ByteOrder} {path : Octets} (hav : 30 ≤ volume.avNumber)
    (hextra : ∀ q, cfg.extraTranslate q = .none) :
    SameObject t cache cfg volume host path ↔
      (volume.attributes &&& kSupportsExtAttrs ≠ 0 → path ≠ rootPath →
        ∀ o, t.found cache path = some o →
          onWire volume.pathEncoding o ∈ carriedByStat t cache cfg volume host path) := by
  have hplain : ∀ q o, (cfg.on volume host).statAddress q o = o := fun q o =>
    if_neg fun h => absurd h.1 (not_lt.mpr hav)
  refine ⟨fun h => h.own, fun hown => ⟨hown, fun q o hq hvalid ho => ?_, fun _ _ _ _ _ h => ?_⟩⟩
  · have hlisted : t.listed cache (cfg.on volume host) path = some o := by
      unfold Catalog.listed MidlevelConfig.statPath
      rw [show (cfg.on volume host).convertPathToAfpAlloc path = .ok q from hq]
      dsimp only
      rw [show (cfg.on volume host).extraTranslate q = .none from hextra q]
      show t.statObject cache (cfg.on volume host) q = some o
      unfold Catalog.statObject
      rw [show (cfg.on volume host).invalidFilename q = false from hvalid, ho]
      show some ((cfg.on volume host).statAddress q o) = some o
      rw [hplain]
    have hmem : onWire volume.pathEncoding o ∈ carriedByStat t cache cfg volume host path := by
      unfold carriedByStat
      rw [hlisted]
      exact mem_cons_self
    rw [hplain]
    exact ⟨hmem, hmem⟩
  · exact absurd h (not_lt.mpr hav)

/-- A plain name: what is asked about is what is listed. -/
theorem plain_attributes_of_listed :
    carried .kFPUTF8Name (((XattrCall.list false 0).on (text "/f")).run
        (twoDirectories.server (answering 0)) (plainConfig.on attributeVolume .little)
        attributeVolume .little |>.run (.fresh mounted ())).2.journal ⊆
      carried .kFPUTF8Name ((mlGetattr (twoDirectories.server (answering 0))
        (plainConfig.on attributeVolume .little) (fun _ _ => 0) (text "/f")).run
          (.fresh mounted ())).2.journal := by
  have hmem : onWire .kFPUTF8Name (2, text "f") ∈
      carriedByStat twoDirectories mounted plainConfig attributeVolume .little (text "/f") := by
    decide +kernel
  have hsame :
      SameObject twoDirectories mounted plainConfig attributeVolume .little (text "/f") := by
    refine (sameObject_iff (by decide) fun _ => rfl).mpr fun _ _ o ho => ?_
    have hfound : twoDirectories.found mounted (text "/f") = some (2, text "f") := by decide
    rw [← Option.some.inj (hfound.symm.trans ho)]
    exact hmem
  exact (attributes_of_listed_iff twoDirectories mounted nofun plainConfig attributeVolume .little
    (fun _ _ => 0) (text "/f") rfl).mpr hsame Unit (answering 0) () (.list false 0)

/-- A path with one accented letter: `ml_getattr` asks about the name with the
accent as a character of its own, `ml_listxattr` about the name as it was
given. -/
theorem accented_attributes_elsewhere :
    ¬carried .kFPUTF8Name (((XattrCall.list false 0).on [0x2f, 0xc3, 0xa9]).run
        (twoDirectories.server (answering 0)) (plainConfig.on attributeVolume .little)
        attributeVolume .little |>.run (.fresh mounted ())).2.journal ⊆
      carried .kFPUTF8Name ((mlGetattr (twoDirectories.server (answering 0))
        (plainConfig.on attributeVolume .little) (fun _ _ => 0) [0x2f, 0xc3, 0xa9]).run
          (.fresh mounted ())).2.journal := by
  decide +kernel

end NetatalkClient
