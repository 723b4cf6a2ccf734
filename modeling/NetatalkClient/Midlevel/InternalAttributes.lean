import NetatalkClient.Midlevel.AttributeObjects
import NetatalkClient.Midlevel.XattrLists
/-!
# The attributes of the server itself

Names that start with `org.netatalk.Metadata` belong to the server. The
calls on extended attributes look for them in the name they are given, and
take the prefix `user.` off that name afterwards. So what they hold back is
the name without the prefix: `internal_out_of_reach_iff` says which names
get through, and that none is ever listed.
-/

namespace NetatalkClient

open Octets Volume AfpCalls Client Terminated List

/-- The attribute that a request names. -/
def AfpRequest.attribute : AfpRequest → Option Octets
  | .getextattr _ _ attr | .setextattr _ _ _ attr _ | .removeextattr _ _ attr => some attr
  | .getfiledirparms _ _ _ | .createfile _ _ _ | .createdir _ _ | .delete _ _ => none
  | .moveandrename _ _ _ _ _ | .exchangefiles _ _ _ _ | .setdirparms _ _ _ => none
  | .setfileparms _ _ _ | .setfiledirparms _ _ _ | .openfork _ _ _ _ => none
  | .setforkparms _ _ | .read _ _ _ | .write _ _ _ | .byterangelock _ _ _ _ => none
  | .flushfork _ | .closefork _ | .listextattr _ _ => none

/-- No request in the journal names an attribute of the server itself. -/
def Withheld (j : List Event) : Prop :=
  ∀ about r reply, .request about r reply ∈ j → ∀ attr, r.attribute = some attr →
    isInternalServerXattr attr = false

/-- The attribute that a call is about. -/
def XattrCall.name : XattrCall → Option Octets
  | get name _ _ | set name _ _ | remove name => some name
  | list _ _ => none

/-! ## What is held back -/

section Keeps

variable {σ : Type} {serve : AfpRequest → StateM σ AfpReply} {cfg : MidlevelConfig}
variable {volume : MetadataVolume} {host : ByteOrder} {path name : Octets} {about : List Octets}
variable {r : AfpRequest}

theorem withheld_cons {e : Event} {j : List Event} (hj : Withheld j)
    (he : ∀ about r reply, e = .request about r reply → ∀ attr, r.attribute = some attr →
      isInternalServerXattr attr = false) : Withheld (e :: j) := by
  intro about r reply hmem
  rcases mem_cons.mp hmem with heq | hmem
  · exact he about r reply heq.symm
  · exact hj about r reply hmem

theorem withheld_ask (hr : ∀ attr, r.attribute = some attr → isInternalServerXattr attr = false) :
    Keeps (fun c : Client σ => Withheld c.journal) (ask serve about r) := by
  intro c hc
  refine withheld_cons hc ?_
  rintro _ _ _ ⟨⟩
  exact hr

/-- A request without an attribute holds everything back. -/
theorem withheld_ask_none (hr : r.attribute = none) :
    Keeps (fun c : Client σ => Withheld c.journal) (ask serve about r) :=
  withheld_ask fun _ hattr => absurd (hr.symm.trans hattr) nofun

theorem attribute_eq_none (h : r.dirids = []) : r.attribute = none := by
  cases r with
  | getextattr did name attr => cases h
  | setextattr did bitmap name attr value => cases h
  | removeextattr did name attr => cases h
  | _ => rfl

theorem withheld_getDirid (path : Octets) :
    Keeps (fun c : Client σ => Withheld c.journal) (Client.getDirid serve path) :=
  keeps_getDirid (fun _ _ hj => withheld_cons hj nofun) (fun _ _ _ hj => withheld_cons hj nofun)
    path

theorem withheld_llGetattr {q : Octets} {resource : Bool} :
    Keeps (fun c : Client σ => Withheld c.journal) (Client.llGetattr serve cfg q resource) := by
  unfold Client.llGetattr
  refine .orKept <| .bind (withheld_getDirid _) fun got => ?_
  refine .orKept <| .bind (withheld_ask_none rfl) fun reply => ?_
  refine .orKept ?_
  split
  · exact .kept
  · exact .kept

/-- What the calls on the resource fork and the FinderInfo ask for. -/
theorem asksSpecial_withheld :
    AsksSpecial (callsFor serve cfg path) volume host path
      (fun c : Client σ => Withheld c.journal) (fun c => Withheld c.journal)
      (fun c => Withheld c.journal) (fun _ _ c => Withheld c.journal) True where
  begun _ hc := hc
  forks := ForkRequestsKeep.calls fun _ hr => withheld_ask_none (attribute_eq_none hr)
  closed _ hc := hc
  mayWrite _ := trivial
  resolve q _ _ := .bind (withheld_getDirid q) fun _ => .pure fun _ hc => by
    split_ifs
    · exact hc
    · exact hc
  llGetattr _ _ := withheld_llGetattr.mono (fun _ hc => hc) fun _ _ hc => ⟨fun _ => trivial, hc⟩
  llOpen did name write _ _ := by
    have hlookup : LooksUp serve [cfg.converted path] ⟨did, name, true, 0, 0⟩
        (fun c : Client σ => Withheld c.journal) (fun _ c => Withheld c.journal)
        fun _ c => Withheld c.journal := by
      refine (withheld_ask_none rfl).mono (fun _ hc => hc) fun _ c hc => ?_
      split_ifs
      all_goals exact hc
    exact ensures_llOpenResource (fun _ _ _ hc => hc) (fun _ _ hc => hc) (fun _ => hlookup)
      fun _ => withheld_ask_none rfl
  getfiledirparms _ _ := .bind (withheld_ask_none rfl) fun _ => .pure fun _ hc => ⟨hc, hc⟩
  setfiledirparms _ _ _ := .bind (withheld_ask_none rfl) fun _ => .kept

/-- What is resolved has a parent. -/
theorem withheld_resolve (path : Octets) :
    Ensures (fun c : Client σ => Withheld c.journal) ((callsFor serve cfg path).getDirid path)
      fun r c => (r.1 = 0 → HasParent path) ∧ Withheld c.journal := by
  have hparent : Ensures (fun c : Client σ => Withheld c.journal) (Client.getDirid serve path)
      fun got c => (got.ret = 0 → HasParent path) ∧ Withheld c.journal := by
    intro c hc
    refine ⟨fun hret => ?_, withheld_getDirid path c hc⟩
    have hres := @resolution_getDirid σ serve c.journal path c rfl
    generalize (Client.getDirid serve path).run c = r at hres hret
    obtain ⟨got, c'⟩ := r
    dsimp only at hres hret
    generalize c'.journal = j at hres
    cases hres with
    | resolved hparent hls => exact hparent
    | noParent hparent hneg => exact absurd hret (ne_of_lt hneg)
    | unanswered hparent hls hne => exact absurd hret hne
  exact .bind hparent fun got => .pure fun _ hc => hc

/-- A name gets through: the filter does not see it, and what is sent is a
name of the server itself. -/
structure Slips (volume : MetadataVolume) (path name : Octets) : Prop where
  supported : volume.attributes &&& kSupportsExtAttrs ≠ 0
  path_ne : path ≠ rootPath
  parent : HasParent path
  short : name.length ≤ afpXattrNameMax
  unseen : isInternalServerXattr name = false
  sent : isInternalServerXattr (afpXattrStripUserPrefix name) = true

/-- A request for an attribute that is not internal. -/
theorem withheld_attribute {attr : Octets} (hr : r.attribute = some attr) :
    Ensures (fun c : Client σ => isInternalServerXattr attr = false ∧ Withheld c.journal)
      (ask serve about r) fun _ c => Withheld c.journal := by
  refine .assume fun hattr => withheld_ask fun attr' hattr' => ?_
  obtain rfl := Option.some.inj (hr.symm.trans hattr')
  exact hattr

/-- What the calls on a name that does not slip ask for. -/
theorem asksOwn_withheld (hslips : ¬ Slips volume path name) :
    AsksOwn (callsFor serve cfg path) volume path name (fun c : Client σ => Withheld c.journal)
      (fun c => Withheld c.journal) fun _ _ c =>
        isInternalServerXattr (afpXattrStripUserPrefix name) = false ∧ Withheld c.journal where
  begun _ hc := hc
  resolve hsupports hroot hunseen hshort := by
    refine (withheld_resolve path).mono (fun _ hc => hc) fun r c hc => ?_
    split_ifs with hret
    · refine ⟨Bool.eq_false_of_not_eq_true fun hsent => ?_, hc.2⟩
      exact hslips ⟨hsupports, hroot, hc.1 hret, hshort, hunseen, hsent⟩
    · exact hc.2
  getextattr _ _ := .bind (withheld_attribute rfl) fun _ => .kept
  setextattr _ _ _ _ := .bind (withheld_attribute rfl) fun _ => .kept
  removeextattr _ _ := .bind (withheld_attribute rfl) fun _ => .kept

/-- **A name that does not slip is held back**, by every call. -/
theorem withheld_run {call : XattrCall} (hcall : call.name = some name)
    (hslips : ¬ Slips volume path name) :
    Keeps (fun c : Client σ => Withheld c.journal) ((call.on path).run serve cfg volume host) := by
  have hspecial := @asksSpecial_withheld σ serve cfg volume host path
  have hown := @asksOwn_withheld σ serve cfg volume path name hslips
  cases call with
  | get name' value size =>
    obtain rfl := Option.some.inj hcall
    refine .bind ?_ fun _ => .kept
    cases hname : isSpecialXattr name' with
    | true => exact hspecial.mlGetxattr hname
    | false => exact hown.mlGetxattr hname
  | set name' value flags =>
    obtain rfl := Option.some.inj hcall
    refine .bind ?_ fun _ => .kept
    cases hname : isSpecialXattr name' with
    | true => exact hspecial.mlSetxattr hname
    | false => exact hown.mlSetxattr hname
  | list value size => cases hcall
  | remove name' =>
    obtain rfl := Option.some.inj hcall
    refine .bind ?_ fun _ => .kept
    cases hname : isSpecialXattr name' with
    | true => exact hspecial.mlRemovexattr hname
    | false => exact hown.mlRemovexattr hname

end Keeps

/-! ## What gets through -/

variable {name : Octets} {path list : Octets} {platform : Platform}

/-- Such a name is not special. -/
theorem isSpecialXattr_of_sent (h : isInternalServerXattr (afpXattrStripUserPrefix name) = true) :
    isResourceforkXattr name = false ∧ isFinderinfoXattr name = false := by
  constructor
  · refine Bool.eq_false_of_not_eq_true fun hspecial => ?_
    rw [of_decide_eq_true hspecial] at h
    exact absurd h (by decide)
  · refine Bool.eq_false_of_not_eq_true fun hspecial => ?_
    rw [of_decide_eq_true hspecial] at h
    exact absurd h (by decide)

/-- Where all lookups succeed, a path with a parent is resolved. -/
theorem resolves_answering (hparent : HasParent path) :
    Ensures (fun c : Client Unit => c.journal = []) (Client.getDirid (answering 0) path)
      fun got _ => got.ret = 0 := by
  intro c hc
  refine (getDirid_eq_zero_iff hc).mpr ⟨hparent, ?_⟩
  have hzero : LookupsKeep (answering 0) fun c : Client Unit =>
      ∀ rc, .lookup rc ∈ c.journal → rc = 0 := by
    refine ⟨fun did name c hc rc hrc => ?_, fun p dirid c hc rc hrc => ?_, fun _ _ hc => hc⟩
    · rcases mem_cons.mp hrc with heq | hrc
      · cases heq
        rfl
      · exact hc rc hrc
    · rcases mem_cons.mp hrc with heq | hrc
      · cases heq
      · exact hc rc hrc
  refine hzero.getDirid path c fun rc hrc => ?_
  rw [hc] at hrc
  exact absurd hrc not_mem_nil

/-- **A name that slips is sent**, to a server that answers every request. -/
theorem not_withheld_getxattr {cfg : MidlevelConfig} {volume : MetadataVolume} {host : ByteOrder}
    (h : Slips volume path name) :
    Ensures (fun c : Client Unit => c.journal = [])
      (((XattrCall.get name false 0).on path).run (answering 0) cfg volume host)
      fun _ c => ¬ Withheld c.journal := by
  obtain ⟨hresource, hfinder⟩ := isSpecialXattr_of_sent h.sent
  have hresolved : Ensures (fun c : Client Unit => c.journal = [])
      ((callsFor (answering 0) cfg path).getDirid path) fun r _ => r.1 = 0 :=
    .bind (resolves_answering h.parent) fun got => .pure fun _ hgot => hgot
  have hasked : ∀ did basename, Ensures (fun _ : Client Unit => True)
      ((callsFor (answering 0) cfg path).afpGetextattr did basename (afpXattrStripUserPrefix name))
      fun _ c => ¬ Withheld c.journal := by
    intro did basename c _ hwithheld
    have hseen := hwithheld _ _ _ mem_cons_self _ rfl
    exact absurd (h.sent.symm.trans hseen) nofun
  refine .bind ?_ fun _ => .kept
  unfold mlGetxattr extattrTarget normalizeXattrName
  rw [hresource, hfinder, h.unseen, if_neg nofun, if_neg nofun, if_neg h.supported, if_neg nofun,
    if_neg h.path_ne, if_neg (not_lt.mpr h.short)]
  dsimp only
  rw [bind_assoc]
  refine .bind hresolved ?_
  rintro ⟨ret, did, basename⟩
  by_cases hret : ret = 0
  · rw [if_neg (not_not.mpr hret), pure_bind]
    refine .bind ((hasked did basename).mono (fun _ _ => trivial) fun _ _ hc => hc) ?_
    rintro ⟨rc, info⟩
    refine .orKept <| .orKept ?_
    exact .orKept <| .orKept <| .kept
  · exact fun _ hzero => absurd hzero hret

/-! ## What is listed -/

/-- A list of names, none of which is a name of the server itself, or what
the platform makes of one. -/
def Hidden (platform : Platform) (out : Octets) : Prop :=
  ∃ entries, out = terminated 0 entries ∧ ∀ entry ∈ entries, 0 ∉ entry ∧
    isInternalServerXattr entry = false ∧
    ∃ name, entry = platform.namespacePrefix ++ name ∧ isInternalServerXattr name = false

theorem hidden_nil (platform : Platform) : Hidden platform [] :=
  ⟨[], rfl, fun _ h => absurd h not_mem_nil⟩

/-- One name more. -/
theorem Hidden.append (h : Hidden platform list)
    (hname : 0 ∉ name) (hinternal : isInternalServerXattr name = false) :
    Hidden platform (list ++ (platform.namespacePrefix ++ name ++ [0])) := by
  obtain ⟨entries, rfl, hentries⟩ := h
  refine ⟨entries ++ [platform.namespacePrefix ++ name], terminated_concat.symm, ?_⟩
  intro entry hentry
  rcases mem_append.mp hentry with hentry | hentry
  · exact hentries entry hentry
  · obtain rfl := mem_singleton.mp hentry
    cases platform with
    | apple => exact ⟨hname, hinternal, name, rfl, hinternal⟩
    | other =>
      refine ⟨fun hzero => ?_, rfl, name, rfl, hinternal⟩
      rcases mem_append.mp hzero with hzero | hzero
      · exact absurd hzero (by decide)
      · exact hname hzero

/-- The loop lists no name of the server itself. -/
theorem hidden_listNamesOn {value : Bool} {size turns : ℕ}
    {src list' : Octets} (hlist : Hidden platform list)
    (h : listNamesOn platform value size turns src list = .ok list') : Hidden platform list' := by
  induction turns generalizing src list with
  | zero =>
    cases h
    exact hlist
  | succ turns ih =>
    unfold listNamesOn at h
    dsimp only at h
    split at h
    · cases h
      exact hlist
    split at h
    · cases h
    split at h
    · exact ih hlist h
    next hinternal =>
    have hname : 0 ∉ src.takeWhile (· ≠ 0) := fun hzero => by
      simpa using mem_takeWhile_imp hzero
    have hgrown := hlist.append hname (Bool.eq_false_of_not_eq_true hinternal)
    revert h
    generalize src.takeWhile (· ≠ 0) = name at hgrown
    intro h
    by_cases hlong : afpXattrNameMax < name.length
    · rw [appendListedXattrName, if_pos hlong] at h
      cases h
    by_cases hfull : value = true ∧ 0 < size ∧
        size < (list ++ (platform.namespacePrefix ++ name ++ [0])).length
    · rw [appendListedXattrName, if_neg hlong, if_pos hfull] at h
      cases h
    · rw [appendListedXattrName, if_neg hlong, if_neg hfull] at h
      exact ih hgrown h

theorem hidden_mlListxattrOn {σ : Type} (afp : AfpCalls σ) (platform : Platform)
    (volume : MetadataVolume) (path : Octets) (value : Bool) (size : ℕ) :
    Returns (afp.mlListxattrOn platform volume path value size) fun r => Hidden platform r.2 := by
  have hlisted : ∀ info, Hidden platform (listedXattrsOn platform info value size).2 := by
    intro info
    unfold listedXattrsOn
    dsimp only
    split
    · exact hidden_nil platform
    split
    · exact hidden_nil platform
    next list hlist =>
    split
    · exact hidden_nil platform
    dsimp only
    split
    · exact hidden_listNamesOn (hidden_nil platform) hlist
    · exact hidden_nil platform
  have hnone : ∀ {ret : ℤ}, Returns (σ := σ) (pure (ret, ([] : Octets))) fun r =>
      Hidden platform r.2 := .pure (hidden_nil platform)
  unfold mlListxattrOn
  refine .ite (fun _ => .bind_any ?_) fun _ => .pure (hlisted _)
  rintro ⟨ret, dirid, basename⟩
  refine .ite (fun _ => hnone) fun _ => .bind_any ?_
  rintro ⟨rc, info⟩
  refine .orPure (hlisted _) <| .ite (fun _ => hnone) fun _ => ?_
  exact .ite (fun _ => hnone) fun _ => .orPure (hlisted _) <| hnone

/-! ## Names of the server itself are out of reach -/

/-- The names that the filter does not see. -/
theorem behind_user_iff :
    isInternalServerXattr name = false ∧
        isInternalServerXattr (afpXattrStripUserPrefix name) = true ↔
      text "user.org.netatalk.Metadata" <+: name := by
  have hwhole : text "user.org.netatalk.Metadata" =
      afpXattrUserPrefix ++ text "org.netatalk.Metadata" := rfl
  unfold isInternalServerXattr afpXattrStripUserPrefix
  rw [hwhole]
  constructor
  · rintro ⟨hunseen, hsent⟩
    split at hsent
    · next huser =>
      obtain ⟨rest, rfl⟩ := isPrefixOf_iff_prefix.mp huser
      rw [drop_left] at hsent
      exact prefix_append_right_inj _ |>.mpr ( isPrefixOf_iff_prefix.mp hsent)
    · exact absurd (hunseen.symm.trans hsent) nofun
  · rintro ⟨rest, rfl⟩
    rw [append_assoc]
    refine ⟨rfl, ?_⟩
    rw [if_pos ( isPrefixOf_iff_prefix.mpr ⟨_, rfl⟩), drop_left]
    exact isPrefixOf_iff_prefix.mpr ⟨rest, rfl⟩

/-- No call on a name sends a name of the server itself, and no list shows
one. -/
def OutOfReach (platform : Platform) (volume : MetadataVolume) (path name : Octets) : Prop :=
  (∀ (σ : Type) (serve : AfpRequest → StateM σ AfpReply) (cfg : MidlevelConfig)
    (host : ByteOrder) (cache : Volume) (server : σ) (call : XattrCall), call.name = some name →
      Withheld (((call.on path).run serve (cfg.on volume host) volume host).run
        (.fresh cache server)).2.journal) ∧
  ∀ (σ : Type) (afp : AfpCalls σ) (value : Bool) (size : ℕ),
    Returns (afp.mlListxattrOn platform volume path value size) fun r => Hidden platform r.2

/-- **Which names are out of reach**: all but those that the filter does not
see and that are names of the server itself once the prefix is off. -/
theorem internal_out_of_reach_iff (platform : Platform) (volume : MetadataVolume)
    (path name : Octets) :
    OutOfReach platform volume path name ↔
      ¬ (volume.attributes &&& kSupportsExtAttrs ≠ 0 ∧ path ≠ rootPath ∧ HasParent path ∧
        name.length ≤ afpXattrNameMax ∧ text "user.org.netatalk.Metadata" <+: name) := by
  have hslips : Slips volume path name ↔ volume.attributes &&& kSupportsExtAttrs ≠ 0 ∧
      path ≠ rootPath ∧ HasParent path ∧ name.length ≤ afpXattrNameMax ∧
        text "user.org.netatalk.Metadata" <+: name := by
    constructor
    · intro h
      exact ⟨h.supported, h.path_ne, h.parent, h.short, behind_user_iff.mp ⟨h.unseen, h.sent⟩⟩
    · rintro ⟨hsupported, hpath, hparent, hshort, hname⟩
      obtain ⟨hunseen, hsent⟩ := behind_user_iff.mpr hname
      exact ⟨hsupported, hpath, hparent, hshort, hunseen, hsent⟩
  rw [← hslips]
  constructor
  · rintro ⟨hcalls, -⟩ h
    exact not_withheld_getxattr h _ rfl
      (hcalls Unit (answering 0) plainConfig .little mounted () (.get name false 0) rfl)
  · intro h
    refine ⟨fun σ serve cfg host cache server call hcall => ?_, fun σ afp value size =>
      hidden_mlListxattrOn afp platform volume path value size⟩
    exact withheld_run hcall h _ fun _ _ _ hmem => absurd hmem not_mem_nil

/-- What a call on `/a` leaves in the journal, where all requests succeed. -/
def journalOf (call : XattrCall) : List Event :=
  (((call.on (text "/a")).run (answering 0) (plainConfig.on attributeVolume .little)
    attributeVolume .little).run (.fresh mounted ())).2.journal

/-- Behind the prefix, the server's own metadata is read, set and removed. -/
theorem metadata_behind_user :
    .request [text "/a"] (.getextattr 2 (text "a") (text "org.netatalk.Metadata")) (.ofCode 0) ∈
        journalOf (.get (text "user.org.netatalk.Metadata") true 64) ∧
      .request [text "/a"] (.setextattr 2 0 (text "a") (text "org.netatalk.Metadata") (text "x"))
          (.ofCode 0) ∈
        journalOf (.set (text "user.org.netatalk.Metadata") (text "x") 0) ∧
      .request [text "/a"] (.removeextattr 2 (text "a") (text "org.netatalk.Metadata"))
          (.ofCode 0) ∈
        journalOf (.remove (text "user.org.netatalk.Metadata")) :=
  ⟨mem_cons_self, mem_cons_self, mem_cons_self⟩

end NetatalkClient
