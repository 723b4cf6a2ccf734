import NetatalkClient.Midlevel.Helpers.Metadata
/-!
# Helpers: what the metadata calls ask for

A call on a file's metadata asks about two kinds of object only: what its
path resolves to, for an extended attribute, and what the converted path
resolves to, for the resource fork and the FinderInfo. Where requests about
such objects lead from one kind of state to another, the calls do.
-/

namespace NetatalkClient

/-- The names that stand for the resource fork and the FinderInfo. -/
def isSpecialXattr (name : Octets) : Bool :=
  AfpCalls.isResourceforkXattr name || AfpCalls.isFinderinfoXattr name

namespace AfpCalls

variable {σ : Type} {afp : AfpCalls σ} {volume : MetadataVolume} {host : ByteOrder}
variable {path name : Octets} {start done opened : σ → Prop} {ready : ℕ → Octets → σ → Prop}
variable {mayOpen : Prop}

/-- A call on what the converted path resolves to begins in `start` and ends
in `done`. Once it has found the object it is `ready` for requests about it,
and while it has a fork open it is in `opened`. A fork is opened only on a
volume that may be written, or after `ll_getattr` has given it a length. -/
structure AsksSpecial (afp : AfpCalls σ) (volume : MetadataVolume) (host : ByteOrder)
    (path : Octets) (start done opened : σ → Prop) (ready : ℕ → Octets → σ → Prop)
    (mayOpen : Prop) : Prop where
  begun : ∀ s, start s → done s
  forks : ForkCallsKeep afp opened
  closed : ∀ s, opened s → done s
  mayWrite : volume.readonly = false → mayOpen
  resolve : ∀ q, convertPathToAfpAlloc host volume.pathEncoding path = .ok q →
    invalidPath volume.avNumber volume.pathEncoding q = false →
      Ensures done (afp.getDirid q) fun r s => if r.1 < 0 then done s else ready r.2.1 r.2.2 s
  llGetattr : ∀ q, convertPathToAfpAlloc host volume.pathEncoding path = .ok q →
    Ensures start (afp.llGetattr q) fun r s => (r.2 ≠ 0 → mayOpen) ∧ done s
  llOpen : ∀ did name write, (write = true → volume.readonly = false) → mayOpen →
    Ensures (ready did name) (afp.llOpen did name write) fun _ => opened
  getfiledirparms : ∀ did name,
    Ensures (ready did name) (afp.afpGetfiledirparms did name) fun _ s => done s ∧ ready did name s
  setfiledirparms : ∀ did name data,
    Ensures (ready did name) (afp.afpSetfiledirparms did name data) fun _ => done

/-- A call on an extended attribute begins in `start` and ends in `done`, and
is `ready` for its request once it has found what the path resolves to. -/
structure AsksOwn (afp : AfpCalls σ) (volume : MetadataVolume) (path name : Octets)
    (start done : σ → Prop) (ready : ℕ → Octets → σ → Prop) : Prop where
  begun : ∀ s, start s → done s
  resolve : volume.attributes &&& kSupportsExtAttrs ≠ 0 → path ≠ rootPath →
    isInternalServerXattr name = false → name.length ≤ afpXattrNameMax →
      Ensures start (afp.getDirid path) fun r s => if r.1 = 0 then ready r.2.1 r.2.2 s else done s
  getextattr : ∀ did basename, Ensures (ready did basename)
    (afp.afpGetextattr did basename (afpXattrStripUserPrefix name)) fun _ => done
  setextattr : ∀ did bitmap basename value, Ensures (ready did basename)
    (afp.afpSetextattr did bitmap basename (afpXattrStripUserPrefix name) value) fun _ => done
  removeextattr : ∀ did basename, Ensures (ready did basename)
    (afp.afpRemoveextattr did basename (afpXattrStripUserPrefix name)) fun _ => done

/-- The check of the flags of a call that asks for the attribute by `get`. -/
theorem ensures_checkSpecialFlags {flags : ℕ} {get : StateM σ (ℤ × Octets)}
    (hbegun : ∀ s, start s → done s) (hget : Ensures start get fun _ => done) :
    Ensures start (checkSpecialFlags flags get) fun _ => done :=
  .ite (fun _ => .bind hget fun _ => .kept) fun _ => .pure hbegun

namespace AsksSpecial

variable (h : AsksSpecial afp volume host path start done opened ready mayOpen)

include h

/-! ## Opening and closing -/

theorem openMeta :
    Ensures done (afp.openMeta volume host path) fun r s =>
      match r with
      | .error _ => done s
      | .ok (did, name) => ready did name s := by
  unfold AfpCalls.openMeta
  split
  · exact .kept
  next q hq =>
  refine .ite (fun _ => .kept) fun hvalid => ?_
  refine .bind (h.resolve q hq (Bool.eq_false_of_not_eq_true hvalid)) ?_
  rintro ⟨ret, did, basename⟩
  refine .ite (fun hret => .pure fun s hs => ?_) fun hret => .pure fun s hs => ?_
  · exact (if_pos hret).mp hs
  · exact (if_neg hret).mp hs

theorem openResource {write : Bool} (hwrite : write = true → volume.readonly = false)
    (hopen : mayOpen) :
    Ensures done (afp.openResource volume host path write) fun r s =>
      match r with
      | .error _ => done s
      | .ok _ => opened s := by
  refine .bind h.openMeta ?_
  rintro (ret | ⟨did, name⟩)
  · exact .kept
  refine .bind (h.llOpen did name write hwrite hopen) ?_
  rintro ⟨ret, forkid⟩
  exact .orPure h.closed <| .kept

theorem closeResource {forkid : ℕ} {dirty : Bool} :
    Ensures opened (afp.closeResource forkid dirty) fun _ => done :=
  h.forks.closeResource.mono (fun _ hs => hs) fun _ => h.closed

/-! ## The resource fork -/

theorem mlGetresourcefork {value : Bool} {size : ℕ} {position : ℤ} :
    Ensures start (afp.mlGetresourcefork volume host path value size position) fun _ => done := by
  unfold AfpCalls.mlGetresourcefork
  refine .orPure h.begun ?_
  split
  · exact .pure h.begun
  next q hq =>
  refine .bind (h.llGetattr q hq) ?_
  rintro ⟨ret, stSize⟩
  refine .assume fun hopen => .orKept <| .ite (fun _ => .kept) fun hsize => ?_
  refine .ite (fun _ => .orKept <| .kept) fun _ => .orKept ?_
  refine .bind (h.openResource nofun (hopen hsize)) ?_
  rintro (ret | forkid)
  · exact .kept
  refine .bind h.forks.getResourceLoop ?_
  rintro (ret | got)
  · exact .bind h.closeResource fun _ => .kept
  · exact .bind h.closeResource fun _ => .orKept <| .kept

theorem mlSetresourcefork {value : Octets} {position : ℤ} :
    Keeps done (afp.mlSetresourcefork volume host path value position) := by
  unfold AfpCalls.mlSetresourcefork
  refine .orKept <| .orKept ?_
  refine .ite (fun _ => .kept) fun hro => ?_
  have hwrite : volume.readonly = false := Bool.eq_false_of_not_eq_true hro
  refine .bind (h.openResource (fun _ => hwrite) (h.mayWrite hwrite)) ?_
  have hclosed : ∀ {ret : ℤ} {forkid : ℕ} {dirty : Bool},
      Ensures opened (afp.closeResource forkid dirty >>= fun _ => pure ret) fun _ => done :=
    .bind h.closeResource fun _ => .kept
  rintro (ret | forkid)
  · exact .kept
  refine .bind h.forks.zeroResource fun ret => .ite (fun _ => hclosed) fun _ => ?_
  refine .ite (fun _ => h.closeResource) fun _ => .bind h.forks.llWrite ?_
  rintro ⟨ret, written, dirty⟩
  exact .ite (fun _ => hclosed) fun _ => .ite (fun _ => hclosed) fun _ => h.closeResource

theorem mlSetresourceforkFlags {value : Octets} {position : ℤ} {flags : ℕ} :
    Ensures start (afp.mlSetresourceforkFlags volume host path value position flags)
      fun _ => done := by
  refine .orPure h.begun ?_
  refine .bind (ensures_checkSpecialFlags h.begun h.mlGetresourcefork) fun ret => ?_
  exact .orKept <| h.mlSetresourcefork

theorem mlRemoveresourcefork :
    Ensures start (afp.mlRemoveresourcefork volume host path) fun _ => done := by
  refine .bind h.mlGetresourcefork ?_
  rintro ⟨ret, data⟩
  exact .orKept <| h.mlSetresourcefork

/-! ## The FinderInfo -/

theorem mlGetfinderinfo {value : Bool} {size : ℕ} :
    Keeps done (afp.mlGetfinderinfo volume host path value size) := by
  refine .bind h.openMeta ?_
  rintro (ret | ⟨did, name⟩)
  · exact .kept
  have hread : Ensures (ready did name) (afp.readFinderinfo did name) fun _ => done := by
    refine .bind (h.getfiledirparms did name) ?_
    rintro ⟨rc, finderinfo⟩
    exact .orPure (fun _ hs => hs.1) <| .pure fun _ hs => hs.1
  refine .bind hread ?_
  rintro ⟨ret, finderinfo⟩
  refine .orKept <| .orKept ?_
  exact .orKept <| .orKept <| .kept

theorem mlSetfinderinfo {value : Octets} :
    Keeps done (afp.mlSetfinderinfo volume host path value) := by
  refine .orKept <| .orKept <| .bind h.openMeta ?_
  rintro (ret | ⟨did, name⟩)
  · exact .kept
  have hwrite : Ensures (ready did name) (afp.writeFinderinfo did name value) fun _ => done := by
    refine .bind (h.getfiledirparms did name) ?_
    rintro ⟨rc, previous⟩
    refine .orPure (fun _ hs => hs.1) ?_
    refine .bind ((h.setfiledirparms did name _).mono (fun _ hs => hs.2) fun _ _ hs => hs) ?_
    exact fun rc => .orKept <| .kept
  refine .bind hwrite ?_
  rintro ⟨ret, written⟩
  exact .orKept <| .orKept <| .kept

theorem mlSetfinderinfoFlags {value : Octets} {flags : ℕ} :
    Ensures start (afp.mlSetfinderinfoFlags volume host path value flags) fun _ => done := by
  have hget := (@mlGetfinderinfo _ _ _ _ _ _ _ _ _ _ h false 0).mono h.begun fun _ _ hs => hs
  refine .orPure h.begun ?_
  refine .bind (ensures_checkSpecialFlags h.begun hget) fun ret => ?_
  exact .orKept <| h.mlSetfinderinfo

/-! ## By name -/

theorem mlGetxattr {value : Bool} {size : ℕ} (hname : isSpecialXattr name = true) :
    Ensures start (afp.mlGetxattr volume host path name value size) fun _ => done := by
  refine .ite (fun _ => h.mlGetresourcefork) fun hresource => ?_
  refine .ite (fun _ => h.mlGetfinderinfo.mono h.begun fun _ _ hs => hs) fun hfinder => ?_
  exact absurd hname (by simp [isSpecialXattr, hresource, hfinder])

theorem mlSetxattr {value : Octets} {flags : ℕ} (hname : isSpecialXattr name = true) :
    Ensures start (afp.mlSetxattr volume host path name value flags) fun _ => done := by
  refine .orPure h.begun ?_
  refine .ite (fun _ => h.mlSetresourceforkFlags) fun hresource => ?_
  refine .ite (fun _ => h.mlSetfinderinfoFlags) fun hfinder => ?_
  exact absurd hname (by simp [isSpecialXattr, hresource, hfinder])

theorem mlRemovexattr (hname : isSpecialXattr name = true) :
    Ensures start (afp.mlRemovexattr volume host path name) fun _ => done := by
  refine .ite (fun _ => h.mlRemoveresourcefork) fun hresource => ?_
  refine .ite (fun _ => h.mlSetfinderinfo.mono h.begun fun _ _ hs => hs) fun hfinder => ?_
  exact absurd hname (by simp [isSpecialXattr, hresource, hfinder])

end AsksSpecial

/-! ## Extended attributes of other names -/

namespace AsksOwn

variable (h : AsksOwn afp volume path name start done ready)

include h

/-- After the checks of a call on an extended attribute its path is
resolved. -/
theorem afterExtattrTarget {α : Type} {m : Except ℤ (ℕ × Octets × Octets) → StateM σ α}
    {a₁ a₂ a₃ : α} (herror : ∀ ret, Keeps done (m (.error ret)))
    (hok : ∀ did basename, Ensures (ready did basename)
      (m (.ok (did, basename, afpXattrStripUserPrefix name))) fun _ => done) :
    Ensures start
      (if volume.attributes &&& kSupportsExtAttrs = 0 then pure a₁
      else if isInternalServerXattr name then pure a₂
      else if path = rootPath then pure a₃
      else afp.extattrTarget path name >>= m) fun _ => done := by
  refine .ite (fun _ => .pure h.begun) fun hsupports => ?_
  refine .ite (fun _ => .pure h.begun) fun hunseen => .ite (fun _ => .pure h.begun) fun hroot => ?_
  unfold extattrTarget normalizeXattrName
  by_cases hlong : afpXattrNameMax < name.length
  · rw [if_pos hlong]
    exact (herror _).mono h.begun fun _ _ hs => hs
  rw [if_neg hlong]
  dsimp only
  rw [bind_assoc]
  refine .bind (h.resolve hsupports hroot (Bool.eq_false_of_not_eq_true hunseen)
    (not_lt.mp hlong)) ?_
  rintro ⟨ret, did, basename⟩
  by_cases hret : ret = 0
  · rw [if_neg (not_not.mpr hret), pure_bind]
    exact (hok did basename).mono (fun _ hs => (if_pos hret).mp hs) fun _ _ hs => hs
  · rw [if_pos hret, pure_bind]
    exact (herror ret).mono (fun _ hs => (if_neg hret).mp hs) fun _ _ hs => hs

theorem mlGetxattr {value : Bool} {size : ℕ} (hname : isSpecialXattr name = false) :
    Ensures start (afp.mlGetxattr volume host path name value size) fun _ => done := by
  obtain ⟨hresource, hfinder⟩ := Bool.or_eq_false_iff.mp hname
  unfold AfpCalls.mlGetxattr
  rw [hresource, hfinder, if_neg nofun, if_neg nofun]
  refine h.afterExtattrTarget (fun _ => .kept) fun did basename => ?_
  refine .bind (h.getextattr did basename) ?_
  rintro ⟨rc, info⟩
  refine .orKept <| .orKept ?_
  exact .orKept <| .orKept <| .kept

theorem mlSetxattr {value : Octets} {flags : ℕ} (hname : isSpecialXattr name = false) :
    Ensures start (afp.mlSetxattr volume host path name value flags) fun _ => done := by
  obtain ⟨hresource, hfinder⟩ := Bool.or_eq_false_iff.mp hname
  refine .orPure h.begun ?_
  rw [hresource, hfinder, if_neg nofun, if_neg nofun]
  refine h.afterExtattrTarget (fun _ => .kept) fun did basename => ?_
  exact .bind (h.setextattr did _ basename value) fun _ => .kept

theorem mlRemovexattr (hname : isSpecialXattr name = false) :
    Ensures start (afp.mlRemovexattr volume host path name) fun _ => done := by
  obtain ⟨hresource, hfinder⟩ := Bool.or_eq_false_iff.mp hname
  unfold AfpCalls.mlRemovexattr
  rw [hresource, hfinder, if_neg nofun, if_neg nofun]
  refine h.afterExtattrTarget (fun _ => .kept) fun did basename => ?_
  exact .bind (h.removeextattr did basename) fun _ => .kept

end AsksOwn

/-- The list of the attributes of what the path resolves to. -/
theorem ensures_mlListxattr {value : Bool} {size : ℕ} (ready : ℕ → Octets → σ → Prop)
    (hbegun : ∀ s, start s → done s)
    (hresolve : volume.attributes &&& kSupportsExtAttrs ≠ 0 → path ≠ rootPath →
      Ensures start (afp.getDirid path) fun r s => if r.1 = 0 then ready r.2.1 r.2.2 s else done s)
    (hlist : ∀ did basename,
      Ensures (ready did basename) (afp.afpListextattr did basename) fun _ => done) :
    Ensures start (afp.mlListxattr volume path value size) fun _ => done := by
  refine .ite (fun hsupports => .bind (hresolve hsupports.1 hsupports.2) ?_) fun _ => .pure hbegun
  rintro ⟨ret, did, basename⟩
  refine .ite (fun hret => .pure fun s hs => (if_neg hret).mp hs) fun hret => ?_
  refine .bind ((hlist did basename).mono (fun s hs => ?_) fun _ _ hs => hs) ?_
  · exact (if_pos (not_not.mp hret)).mp hs
  rintro ⟨rc, info⟩
  refine .orKept <| .orKept ?_
  exact .orKept <| .orKept <| .kept

end AfpCalls

end NetatalkClient
