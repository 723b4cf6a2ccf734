import NetatalkClient.Midlevel.Helpers.Addressing
import NetatalkClient.Midlevel.Helpers.MetadataTargets
/-!
# Helpers: the directory IDs of the metadata calls

`ll_getattr` and `open_appledouble_meta` take a result of `get_dirid` for an
error only below 0, and `ll_open` on a server before AFP 3.0 goes on with
the parent that the server reports. `Cleared` says of the replies in a
journal that none of this led to an ID that was not stored; `Settled` says
that the requests are addressed exactly then.
-/

namespace NetatalkClient

open Volume AfpCalls Client List

/-! ## What the replies lead to -/

section Cleared

variable (cfg : MidlevelConfig) (q : Octets)

/-- A reply does not lead to an ID that was not stored. On a server before
AFP 3.0 the attributes of the root are asked for with an ID of their own. -/
def Clears : AfpRequest → AfpReply → List Event → Prop
  | .getfiledirparms .attributes _ _, _, _ => ¬(cfg.avNumber < 30 ∧ q = rootPath)
  | .getfiledirparms .forkLength _ _, reply, j =>
      reply.rc = 0 → (if reply.isdir then 0 else reply.size) < afpMaxAfp2Filesize - 1 →
        .resolved q (if reply.isdir then 0 else reply.parentdid) ∈ j
  | _, _, _ => True

/-- No reply of a journal does. A lookup that times out leaves an ID of 0. -/
def Cleared : List Event → Prop
  | [] => True
  | .lookup rc :: j => (rc ≤ 0 ∨ .resolved q 0 ∈ j) ∧ Cleared j
  | .resolved _ _ :: j => Cleared j
  | .request _ r reply :: j => Clears cfg q r reply j ∧ Cleared j

def Settled (j : List Event) : Prop := Addressed j ↔ Cleared cfg q j

/-- Before a request that carries `did`. -/
def ReadyFor (did : ℕ) (j : List Event) : Prop := Ready q did (Cleared cfg q j) j

/-- After it: requests on a fork may follow. -/
def SettledFork (j : List Event) : Prop := Done (Cleared cfg q j) j

end Cleared

section Journal

variable {cfg : MidlevelConfig} {q : Octets} {did : ℕ} {j j' ls : List Event}

theorem settled_nil : Settled cfg q [] := Iff.rfl

theorem cleared_found (h : Found ls) : Cleared cfg q (ls ++ j) ↔ Cleared cfg q j := by
  induction ls with
  | nil => rfl
  | cons e ls ih =>
    obtain rfl := h e mem_cons_self
    refine Iff.trans ?_ (ih fun e' he' => h e' (mem_cons_of_mem _ he'))
    exact ⟨fun hcleared => hcleared.2, fun hcleared => ⟨.inl (le_refl 0), hcleared⟩⟩

/-- A call that ends where `get_dirid` fails. -/
theorem settled_of_resolution {got : Dirid} (h : Resolution q j got j') (hj : Settled cfg q j)
    (hneg : got.ret < 0) : Settled cfg q j' := by
  cases h with
  | resolved _ _ => exact absurd hneg (lt_irrefl 0)
  | noParent _ _ => exact hj
  | unanswered _ hls _ =>
    refine (addressed_found hls).trans (hj.trans ((cleared_found hls).symm.trans ?_))
    exact ⟨fun h => ⟨.inl (le_of_lt hneg), h⟩, fun h => h.2⟩

/-- A call that goes on where it does not, with an ID of 0 where none was
stored, or in a journal where none was ever stored. -/
theorem ready_of_resolution_from {got : Dirid} {before : Locals} (h : Resolution q j got j')
    (hj : Settled cfg q j) (hnonneg : ¬got.ret < 0) (hbefore : before.dirid = 0 ∨ j = []) :
    ReadyFor cfg q (got.stored before).1 j' := by
  have haddr : ∀ {ls : List Event}, Found ls →
      (Addressed (ls ++ j) ↔ Cleared cfg q (ls ++ j)) := fun hls =>
    (addressed_found hls).trans (hj.trans (cleared_found hls).symm)
  cases h with
  | resolved _ hls =>
    exact ⟨fun h => (haddr hls).mp h.1, fun h => ⟨(haddr hls).mpr h, mem_cons_self⟩⟩
  | noParent _ hret => exact absurd hret hnonneg
  | @unanswered ls ret basename _ hls hret =>
    have hzero : .resolved q before.dirid ∈ j ↔ .resolved q 0 ∈ j := by
      rcases hbefore with h | rfl
      · rw [h]
      · exact iff_of_false not_mem_nil not_mem_nil
    have hmem : .resolved q before.dirid ∈ .lookup ret :: (ls ++ j) ↔ .resolved q 0 ∈ ls ++ j := by
      rw [resolved_mem_lookup, resolved_mem_found hls, resolved_mem_found hls, hzero]
    have hpos : ¬ret ≤ 0 := fun h => hnonneg (lt_of_le_of_ne h hret)
    show Addressed (ls ++ j) ∧ .resolved q before.dirid ∈ .lookup ret :: (ls ++ j) ↔
      (ret ≤ 0 ∨ .resolved q 0 ∈ ls ++ j) ∧ Cleared cfg q (ls ++ j)
    rw [hmem, haddr hls, or_iff_right hpos, and_comm]

end Journal

/-! ## Requests -/

section Rules

variable {σ : Type} {serve : AfpRequest → StateM σ AfpReply} {cfg : MidlevelConfig}
variable {q : Octets} {did : ℕ} {r : AfpRequest} {reply : AfpReply} {j : List Event}

/-- A request whose reply leads nowhere. -/
theorem readyFor_ask (hr : r.dirids = [did]) (hclears : ∀ reply j, Clears cfg q r reply j) :
    Ensures (fun c => ReadyFor cfg q did c.journal) (ask serve [q] r) fun _ c =>
      SettledFork cfg q c.journal ∧ ReadyFor cfg q did c.journal := by
  intro c hc
  have hsame :
      ∀ reply, Cleared cfg q (.request [q] r reply :: c.journal) = Cleared cfg q c.journal :=
    fun reply => propext ⟨fun h => h.2, fun h => ⟨hclears _ _, h⟩⟩
  unfold SettledFork ReadyFor
  rw [show Cleared cfg q ((ask serve [q] r).run c).2.journal = Cleared cfg q c.journal from hsame _]
  exact ready_ask hr c hc

theorem clears_onFork (hr : r.dirids = []) : Clears cfg q r reply j := by
  unfold Clears
  split
  · cases hr
  · cases hr
  · trivial

/-- A request on a fork. -/
theorem settledFork_ask (hr : r.dirids = []) :
    Keeps (fun c => SettledFork cfg q c.journal) (ask serve [] r) := by
  intro c hc
  have hsame :
      ∀ reply, Cleared cfg q (.request [] r reply :: c.journal) = Cleared cfg q c.journal :=
    fun reply => propext ⟨fun h => h.2, fun h => ⟨clears_onFork hr, h⟩⟩
  unfold SettledFork
  rw [show Cleared cfg q ((ask serve [] r).run c).2.journal = Cleared cfg q c.journal from hsame _]
  exact done_ask hr c hc

/-! ## `ll_open` -/

/-- What a request adds to the journal. -/
theorem asked {about : List Octets} {pre : List Event → Prop} :
    Ensures (fun c : Client σ => pre c.journal) (ask serve about r) fun reply c =>
      ∃ j, pre j ∧ c.journal = .request about r reply :: j := fun c hc => ⟨c.journal, hc, rfl⟩

/-- Such a request is addressed exactly if no reply before it has led
astray. -/
theorem addressed_request (hr : r.dirids = [did])
    (h : ReadyFor cfg q did j) : Addressed (.request [q] r reply :: j) ↔ Cleared cfg q j := by
  rw [Addressed, carries_one hr, and_comm]
  exact h

/-- A reply that leads nowhere, to a request that might. -/
theorem settledFork_request (hr : r.dirids = [did])
    (hclears : Clears cfg q r reply j) (h : ReadyFor cfg q did j) :
    SettledFork cfg q (.request [q] r reply :: j) := by
  refine ⟨(addressed_request hr h).trans ⟨fun hj => ⟨hclears, hj⟩, fun hj => hj.2⟩, fun hj => ?_⟩
  exact ⟨q, did, resolved_mem_request.mpr (h.mpr hj.2).2⟩

/-- After the lookup of `ll_open`: it has failed, or the file has an ID to go
on with. -/
theorem looksUp_ready (fp : OpenFile) :
    LooksUp serve [q] fp (fun c => ReadyFor cfg q fp.did c.journal)
      (fun _ c => SettledFork cfg q c.journal) fun fp c => ReadyFor cfg q fp.did c.journal := by
  refine asked.mono (fun _ hc => hc) ?_
  rintro reply c ⟨j, hj, hjournal⟩
  dsimp only
  rw [hjournal]
  split_ifs with hneg hbig
  · refine settledFork_request rfl (fun hrc _ => ?_) hj
    rw [fileDirParmsErrno_eq_zero.mpr hrc] at hneg
    exact absurd hneg (lt_irrefl 0)
  · exact settledFork_request rfl (fun _ hlt => absurd hlt (not_lt.mpr hbig)) hj
  · show Ready q (fp.parsed reply).did _ _
    rw [Ready, addressed_request rfl hj, resolved_mem_request]
    refine ⟨fun h => ⟨fun _ _ => h.2, h.1⟩, fun h => ⟨h.2, ?_⟩⟩
    exact h.1 (eq_zero_of_fileDirParmsErrno hneg) (Nat.lt_of_not_le hbig)

/-- `ll_open` of a resource fork, on a volume that may be written if the fork
is opened to write. -/
theorem llOpenResource_settled {basename : Octets} {write : Bool}
    (hwrite : write = true → cfg.volumeIsReadonly = false) :
    Ensures (fun c => ReadyFor cfg q did c.journal)
      (llOpenResource serve cfg [q] did basename write) fun _ c => SettledFork cfg q c.journal := by
  refine ensures_llOpenResource (fun hw hro => ?_) (fun _ _ hc => hc)
    (fun _ => looksUp_ready ⟨did, basename, true, 0, 0⟩) fun fp => ?_
  · rw [hwrite hw] at hro
    cases hro
  · have hfork : Ensures (fun c => ReadyFor cfg q fp.did c.journal)
        (ask serve [q] (.openfork fp.resource write fp.did fp.basename)) fun _ c =>
          SettledFork cfg q c.journal ∧ ReadyFor cfg q fp.did c.journal :=
      readyFor_ask rfl fun _ _ => trivial
    exact hfork.mono (fun _ hc => hc) fun _ _ hc => hc.1

/-! ## `ll_getattr` -/

/-- What `get_dirid` leaves in an empty journal, and of the root: it is the
directory 2. -/
theorem resolution_or_root :
    Ensures (fun c => c.journal = []) (getDirid serve q) fun got c =>
      Resolution q [] got c.journal ∧
        (q = rootPath → c.journal = [.resolved rootPath afpRootDid]) := by
  intro c hc
  refine ⟨resolution_getDirid q c hc, ?_⟩
  rintro rfl
  show .resolved rootPath afpRootDid :: c.journal = _
  rw [hc]

/-- The request of `ll_getattr`. -/
theorem settled_attributes {got : Dirid} {name : Octets}
    (hres : Resolution q [] got j) (hnonneg : ¬got.ret < 0)
    (hroot : q = rootPath → j = [.resolved rootPath afpRootDid]) :
    Settled cfg q
      (.request [q] (.getfiledirparms .attributes (attributesOf cfg q got).1 name) reply :: j) := by
  unfold attributesOf
  split
  · next h =>
    refine iff_of_false (fun haddr => ?_) fun hcleared => absurd h hcleared.1
    have hmem := (carries_one rfl).mp haddr.1
    rw [hroot h.2, mem_singleton] at hmem
    exact absurd (Event.resolved.inj hmem).2 (by decide : (1 : ℕ) ≠ afpRootDid)
  · next h =>
    have hready : ReadyFor cfg q (got.stored cfg.locals).1 j :=
      ready_of_resolution_from hres settled_nil hnonneg (.inr rfl)
    have hclears :
        Clears cfg q (.getfiledirparms .attributes (got.stored cfg.locals).1 name) reply j := h
    exact (settledFork_request rfl hclears hready).1

theorem settled_llGetattr {resource : Bool} :
    Ensures (fun c => c.journal = []) (Client.llGetattr serve cfg q resource) fun _ c =>
      Settled cfg q c.journal := by
  unfold Client.llGetattr
  refine .orPure (fun c hc => hc ▸ settled_nil) ?_
  refine .bind resolution_or_root fun got => ?_
  refine .ite (fun hneg => .pure fun c hc => settled_of_resolution hc.1 settled_nil hneg) ?_
  intro hneg
  have hask : ∀ name, Ensures
      (fun c => Resolution q [] got c.journal ∧
        (q = rootPath → c.journal = [.resolved rootPath afpRootDid]))
      (ask serve [q] (.getfiledirparms .attributes (attributesOf cfg q got).1 name)) fun _ c =>
        Settled cfg q c.journal := fun name c hc => settled_attributes hc.1 hneg hc.2
  refine .bind (hask _) fun reply => .orKept ?_
  split
  · exact .kept
  · exact .kept

end Rules

/-! ## The calls on metadata -/

section Calls

variable {σ : Type} {serve : AfpRequest → StateM σ AfpReply} {cfg : MidlevelConfig}
variable {volume : MetadataVolume} {host : ByteOrder} {path q : Octets}

/-- What the calls on the resource fork and the FinderInfo ask for, of a path
that is converted to `q` if at all. -/
theorem asksSpecial_settled
    (hq : ∀ p, convertPathToAfpAlloc host volume.pathEncoding path = .ok p → p = q)
    (hread : cfg.volumeIsReadonly = volume.readonly) :
    AsksSpecial (Client.calls serve cfg path q) volume host path (fun c => c.journal = [])
      (fun c => Settled cfg q c.journal) (fun c => SettledFork cfg q c.journal)
      (fun did _ c => ReadyFor cfg q did c.journal) True where
  begun _ hc := hc ▸ settled_nil
  forks := ForkRequestsKeep.calls fun _ hr => settledFork_ask hr
  closed _ hc := hc.1
  mayWrite _ := trivial
  resolve p hp _ := by
    rw [hq p hp]
    intro c hc
    have hres : Resolution q c.journal ((getDirid serve q).run c).1
        ((getDirid serve q).run c).2.journal := resolution_getDirid q c rfl
    show if ((getDirid serve q).run c).1.ret < 0 then _ else _
    split
    · next hneg => exact settled_of_resolution hres hc hneg
    · next hneg => exact ready_of_resolution_from hres hc hneg (.inl rfl)
  llGetattr p hp := by
    rw [hq p hp]
    exact settled_llGetattr.mono (fun _ hc => hc) fun _ _ hc => ⟨fun _ => trivial, hc⟩
  llOpen _ _ _ hwrite _ := llOpenResource_settled fun h => hread.trans (hwrite h)
  getfiledirparms _ _ := .bind (readyFor_ask rfl fun _ _ => trivial) fun _ =>
    .pure fun _ hc => ⟨hc.1.1, hc.2⟩
  setfiledirparms _ _ _ := .bind (readyFor_ask rfl fun _ _ => trivial) fun _ =>
    .pure fun _ hc => hc.1.1

/-! ## Extended attributes of other names -/

/-- `get_dirid`, for a caller that takes any other result than 0 for an
error. -/
theorem addressed_getDirid :
    Ensures (fun c => c.journal = []) ((Client.calls serve cfg path q).getDirid path) fun r c =>
      if r.1 = 0 then Addressed c.journal ∧ .resolved path r.2.1 ∈ c.journal
      else Addressed c.journal := by
  intro c hc
  have hres : Resolution path [] ((getDirid serve path).run c).1
      ((getDirid serve path).run c).2.journal := resolution_getDirid path c hc
  have hready : Ready path (((getDirid serve path).run c).1.stored ⟨0, []⟩).1
      (((getDirid serve path).run c).1.ret = 0) ((getDirid serve path).run c).2.journal :=
    ready_of_resolution hres
  show if ((getDirid serve path).run c).1.ret = 0 then _ else _
  split
  · next hret => exact hready.mpr hret
  · exact hres.addressed.mpr trivial

/-- A request with the ID that was stored. -/
theorem addressed_ask {did : ℕ} {r : AfpRequest} (hr : r.dirids = [did]) :
    Ensures (fun c : Client σ => Addressed c.journal ∧ .resolved path did ∈ c.journal)
      (ask serve [path] r) fun _ c => Addressed c.journal := fun _ hc =>
  ⟨(carries_one hr).mpr hc.2, hc.1⟩

theorem asksOwn_addressed {name : Octets} :
    AsksOwn (Client.calls serve cfg path q) volume path name (fun c => c.journal = [])
      (fun c => Addressed c.journal)
      fun did _ c => Addressed c.journal ∧ .resolved path did ∈ c.journal where
  begun _ hc := hc ▸ trivial
  resolve _ _ _ _ := addressed_getDirid
  getextattr _ _ := .bind (addressed_ask rfl) fun _ => .kept
  setextattr _ _ _ _ := .bind (addressed_ask rfl) fun _ => .kept
  removeextattr _ _ := .bind (addressed_ask rfl) fun _ => .kept

end Calls

end NetatalkClient
