import NetatalkClient.Midlevel.Helpers.Requests
/-!
# Helpers: the directory IDs that requests carry

A request is addressed if every directory ID it carries was stored for the
path it is about, by a call of `get_dirid` before it. `Ready` follows this
from a resolution to the first request that carries what it left in the
caller's variables, and `Done` from there on.
-/

namespace NetatalkClient

open Volume AfpCalls Client List

/-! ## Addressed requests -/

/-- Every directory ID of a request was stored for the path it is about, and
some ID was stored at all. -/
def Carries (about : List Octets) (r : AfpRequest) (j : List Event) : Prop :=
  List.Forall₂ (fun path dirid => .resolved path dirid ∈ j) about r.dirids ∧
    ∃ path dirid, .resolved path dirid ∈ j

/-- Every request of a journal is addressed by what stood in it before. -/
def Addressed : List Event → Prop
  | [] => True
  | .request about r _ :: j => Carries about r j ∧ Addressed j
  | .lookup _ :: j | .resolved _ _ :: j => Addressed j

section Journal

variable {about : List Octets} {r : AfpRequest} {reply : AfpReply} {j ls : List Event}
variable {path path' : Octets} {did did' : ℕ}

theorem carries_one (hr : r.dirids = [did]) : Carries [path] r j ↔ .resolved path did ∈ j := by
  rw [Carries, hr, forall₂_cons]
  exact ⟨fun h => h.1.1, fun h => ⟨⟨h, .nil⟩, _, _, h⟩⟩

theorem carries_two (hr : r.dirids = [did, did']) :
    Carries [path, path'] r j ↔ .resolved path did ∈ j ∧ .resolved path' did' ∈ j := by
  rw [Carries, hr, forall₂_cons, forall₂_cons]
  exact ⟨fun h => ⟨h.1.1, h.1.2.1⟩, fun h => ⟨⟨h.1, h.2, .nil⟩, _, _, h.1⟩⟩

theorem carries_none (hr : r.dirids = []) :
    Carries [] r j ↔ ∃ path dirid, .resolved path dirid ∈ j := by
  rw [Carries, hr]
  exact ⟨fun h => h.2, fun h => ⟨.nil, h⟩⟩

theorem addressed_found (h : Found ls) : Addressed (ls ++ j) ↔ Addressed j := by
  induction ls with
  | nil => rfl
  | cons e ls ih =>
    obtain rfl := h e mem_cons_self
    exact ih fun e' he' => h e' (mem_cons_of_mem _ he')

theorem resolved_mem_found (h : Found ls) :
    .resolved path did ∈ ls ++ j ↔ .resolved path did ∈ j := by
  rw [mem_append]
  exact ⟨fun hmem => hmem.resolve_left fun hin => absurd (h _ hin) nofun, .inr⟩

theorem resolved_mem_request :
    .resolved path did ∈ .request about r reply :: j ↔ .resolved path did ∈ j := by
  rw [mem_cons]
  exact ⟨fun h => h.resolve_left nofun, .inr⟩

theorem resolved_mem_lookup {rc : ℤ} :
    .resolved path did ∈ .lookup rc :: j ↔ .resolved path did ∈ j := by
  rw [mem_cons]
  exact ⟨fun h => h.resolve_left nofun, .inr⟩

/-- `get_dirid` sends no request that is not addressed. -/
theorem Client.Resolution.addressed {got : Dirid} {j' : List Event}
    (h : Resolution path j got j') : Addressed j' ↔ Addressed j := by
  cases h with
  | resolved _ hls => exact addressed_found hls
  | noParent _ _ => rfl
  | unanswered _ hls _ => exact addressed_found hls

end Journal

/-! ## From a resolution to the requests -/

/-- Before a request that carries `did`: it will be addressed, with all
before it, exactly if `P`. -/
def Ready (path : Octets) (did : ℕ) (P : Prop) (j : List Event) : Prop :=
  Addressed j ∧ .resolved path did ∈ j ↔ P

/-- After such a request. -/
def Done (P : Prop) (j : List Event) : Prop :=
  (Addressed j ↔ P) ∧ (P → ∃ path dirid, .resolved path dirid ∈ j)

section Rules

variable {σ : Type} {serve : AfpRequest → StateM σ AfpReply} {cfg : MidlevelConfig}
variable {path : Octets} {did : ℕ} {P : Prop} {r : AfpRequest} {name : Octets} {c : Client σ}

theorem ready_ask (hr : r.dirids = [did]) :
    Ensures (fun c => Ready path did P c.journal) (ask serve [path] r) fun _ c =>
      Done P c.journal ∧ Ready path did P c.journal := by
  intro c hc
  have hiff : Addressed (.request [path] r ((serve r).run c.server).1 :: c.journal) ↔ P := by
    rw [Addressed, carries_one hr, and_comm]
    exact hc
  refine ⟨⟨hiff, fun hP => ?_⟩, ?_⟩
  · exact ⟨path, did, resolved_mem_request.mpr (hc.mpr hP).2⟩
  · refine ⟨fun h => hiff.mp h.1, fun hP => ⟨hiff.mpr hP, ?_⟩⟩
    exact resolved_mem_request.mpr (hc.mpr hP).2

theorem done_ask (hr : r.dirids = []) : Keeps (fun c => Done P c.journal) (ask serve [] r) := by
  intro c hc
  have hmem : (∃ path dirid, .resolved path dirid ∈
      Event.request [] r ((serve r).run c.server).1 :: c.journal) ↔
      ∃ path dirid, .resolved path dirid ∈ c.journal := by
    simp only [resolved_mem_request]
  refine ⟨?_, fun hP => hmem.mpr (hc.2 hP)⟩
  show Carries [] r c.journal ∧ Addressed c.journal ↔ P
  rw [carries_none hr, hc.1]
  exact ⟨fun h => h.2, fun hP => ⟨hc.2 hP, hP⟩⟩

/-- What a resolution leaves in the caller's variables, from a journal
without requests. -/
theorem ready_of_resolution {got : Dirid} {before : Locals} {j : List Event}
    (h : Resolution path [] got j) : Ready path (got.stored before).1 (got.ret = 0) j := by
  have haddr : Addressed j := h.addressed.mpr trivial
  cases h with
  | resolved _ _ => exact iff_of_true ⟨haddr, mem_cons_self⟩ rfl
  | noParent _ hret => exact iff_of_false (fun h => absurd h.2 not_mem_nil) (ne_of_lt hret)
  | unanswered _ hls hret =>
    refine iff_of_false (fun h => ?_) hret
    have hmem := (resolved_mem_found hls).mp (resolved_mem_lookup.mp h.2)
    exact absurd hmem not_mem_nil

theorem ready_setVolume (f : Volume → Volume) :
    Keeps (fun c : Client σ => Ready path did P c.journal) (setVolume f) := fun _ hc => hc

theorem done_setVolume (f : Volume → Volume) :
    Keeps (fun c : Client σ => Done P c.journal) (setVolume f) := fun _ hc => hc

/-- The request of `is_dir`, if the cache does not answer it. -/
theorem done_isDir :
    Ensures (fun c => (c.volume.findCachedDirectory did name).1 = 0 ∧ Ready path did P c.journal)
      (isDir serve [path] did name) fun _ c => Done P c.journal ∧ Ready path did P c.journal := by
  have hcache : Ensures
      (fun c : Client σ =>
        (c.volume.findCachedDirectory did name).1 = 0 ∧ Ready path did P c.journal)
      (onVolume fun v => v.findCachedDirectory did name) fun found c =>
        found = 0 ∧ Ready path did P c.journal := fun _ h => h
  refine .bind hcache fun found => .assume fun hfound => ?_
  refine .ite (fun hne => absurd hfound hne) fun _ => .bind (ready_setVolume _) fun _ => ?_
  refine .bind (ready_ask rfl) fun reply => .orKept <| .kept

theorem isDir_cached (h : (c.volume.findCachedDirectory did name).1 ≠ 0) :
    (isDir serve [path] did name).run c =
      (true, { c with volume := (c.volume.findCachedDirectory did name).2 }) := by
  rw [Client.isDir, run_bind]
  exact congrArg (fun m => StateT.run m _) (if_pos h)

/-- What it leaves in any case: a directory it does not know of was asked
for. -/
theorem ready_isDir :
    Ensures (fun c => Ready path did P c.journal) (isDir serve [path] did name) fun dir c =>
      (dir = false → Done P c.journal) ∧ Ready path did P c.journal := by
  intro c hc
  by_cases hmiss : (c.volume.findCachedDirectory did name).1 = 0
  · exact (done_isDir c ⟨hmiss, hc⟩).imp_left fun h _ => h
  · rw [isDir_cached hmiss]
    exact ⟨nofun, hc⟩

/-- A call that goes on with what `get_dirid` has left, whatever it has
returned, is addressed exactly if that was 0. -/
theorem addressed_resolved (before : Locals) {α : Type} {rest : Dirid → StateM (Client σ) α}
    (h : ∀ got P, Ensures (fun c => Ready path (got.stored before).1 P c.journal) (rest got)
      fun _ c => Addressed c.journal ↔ P) (hc : c.journal = []) :
    Addressed ((getDirid serve path >>= rest).run c).2.journal ↔
      ((getDirid serve path).run c).1.ret = 0 :=
  h _ _ _ (ready_of_resolution (resolution_getDirid path c hc))

end Rules

/-! ## The calls that do not look at the result of `get_dirid` -/

section Calls

variable {σ : Type} {serve : AfpRequest → StateM σ AfpReply} {cfg : MidlevelConfig}
variable {path q : Octets} {c : Client σ} {name : Octets} {P : Prop} {did : ℕ} {j' j : List Event}
variable {got : Dirid}

theorem addressed_mkdir (hq : mkdirChecks cfg path = .ok q) (hc : c.journal = []) :
    Addressed ((mlMkdir serve cfg path).run c).2.journal ↔
      ((getDirid serve q).run c).1.ret = 0 := by
  unfold mlMkdir
  rw [hq]
  refine addressed_resolved cfg.locals (fun got P => ?_) hc
  exact .bind (ready_ask rfl) fun _ => .pure fun _ h => h.1.1

theorem addressed_rmdir (hq : rmdirChecks cfg path = .ok q) (hc : c.journal = []) :
    Addressed ((mlRmdir serve cfg path).run c).2.journal ↔
      ((getDirid serve q).run c).1.ret = 0 := by
  unfold mlRmdir
  rw [hq]
  refine addressed_resolved cfg.locals (fun got P => .bind ready_isDir fun dir => ?_) hc
  refine .ite (fun hdir => .pure fun c h => (h.1 (by simpa using hdir)).1) fun _ => ?_
  refine .bind ((ready_ask rfl).mono (fun _ h => h.2) fun _ _ h => h.1) fun reply => ?_
  split
  · exact .pure fun _ h => h.1
  · exact .bind (done_setVolume _) fun _ => .pure fun _ h => h.1

theorem addressed_utime {modtime : ℤ} (hq : utimeChecks cfg path = .ok q) (hc : c.journal = []) :
    Addressed ((mlUtime serve cfg path modtime).run c).2.journal ↔
      ((getDirid serve q).run c).1.ret = 0 := by
  unfold mlUtime
  rw [hq]
  refine addressed_resolved cfg.locals (fun got P => .bind ready_isDir fun dir => ?_) hc
  cases dir
  all_goals
    refine .bind ((ready_ask rfl).mono (fun _ h => h.2) fun _ _ h => h.1) fun reply => ?_
    exact .pure fun _ h => h.1

theorem addressed_readlink {size : ℕ} (hq : readlinkChecks cfg path size = .ok q)
    (hc : c.journal = []) :
    Addressed ((mlReadlink serve cfg path size).run c).2.journal ↔
      ((getDirid serve q).run c).1.ret = 0 := by
  unfold mlReadlink
  rw [hq]
  refine addressed_resolved cfg.locals (fun got P => ?_) hc
  refine .bind ((ready_ask rfl).mono (fun _ h => h) fun _ _ h => h.1) fun opened => ?_
  refine .orPure (fun _ h => h.1) ?_
  refine .bind (done_ask rfl) fun reply => .bind (done_ask rfl) fun closed => ?_
  refine .orPure (fun _ h => h.1) ?_
  exact .orPure (fun _ h => h.1) <| .pure fun _ h => h.1

theorem done_unlinkObject :
    Ensures (fun c => (c.volume.findCachedDirectory did name).1 = 0 ∧ Ready q did P c.journal)
      (unlinkObject serve cfg q did name) fun _ c => Addressed c.journal ↔ P := by
  refine .bind done_isDir fun dir => .orPure (fun _ h => h.1.1) ?_
  refine .orPure (fun _ h => h.1.1) ?_
  refine .bind ((ready_ask rfl).mono (fun _ h => h.2) fun _ _ h => h.1) fun reply => ?_
  split
  · exact .pure fun _ h => h.1
  · exact .bind (done_setVolume _) fun _ => .pure fun _ h => h.1

/-- `ml_unlink` ends without a request if the cache has a directory under
what its variables hold. -/
theorem addressed_unlink (hq : unlinkChecks cfg path = .ok q) (hc : c.journal = []) :
    Addressed ((mlUnlink serve cfg path).run c).2.journal ↔
      ((getDirid serve q).run c).1.ret = 0 ∨
        (((getDirid serve q).run c).2.volume.findCachedDirectory
          (((getDirid serve q).run c).1.stored cfg.locals).1
          (((getDirid serve q).run c).1.stored cfg.locals).2).1 ≠ 0 := by
  have hres : Resolution q [] ((getDirid serve q).run c).1 ((getDirid serve q).run c).2.journal :=
    resolution_getDirid q c hc
  unfold mlUnlink
  rw [hq]
  dsimp only
  rw [run_bind]
  generalize (getDirid serve q).run c = p at hres
  obtain ⟨got, c'⟩ := p
  have hready : Ready q (got.stored cfg.locals).1 (got.ret = 0) c'.journal :=
    ready_of_resolution hres
  by_cases hmiss : (c'.volume.findCachedDirectory (got.stored cfg.locals).1
      (got.stored cfg.locals).2).1 = 0
  · rw [or_iff_left (not_not.mpr hmiss)]
    exact done_unlinkObject c' ⟨hmiss, hready⟩
  · refine iff_of_true ?_ (.inr hmiss)
    show Addressed ((unlinkObject serve cfg q _ _).run c').2.journal
    rw [unlinkObject, run_bind, isDir_cached hmiss]
    exact hres.addressed.mpr trivial

/-! ## Unix privileges -/

/-- `ml_chmod` and `ml_chown` after `get_unixprivs`. -/
theorem done_setUnixprivs {isdir : Bool} {privs : UnixPrivs} :
    Ensures (fun c => Ready q did P c.journal) (setUnixprivs serve [q] did name isdir privs)
      fun _ c => Done P c.journal := by
  unfold setUnixprivs
  cases isdir
  all_goals
    refine .bind ((ready_ask rfl).mono (fun _ h => h) fun _ _ h => h.1) fun reply => .kept

theorem addressed_chmod {mode : ℕ} (hq : chmodChecks cfg path = .ok q)
    (hunix : cfg.supportsUnix = true) (hplain : cfg.emulated path = none) (hc : c.journal = []) :
    Addressed ((mlChmod serve cfg path mode).run c).2.journal ↔
      ((getDirid serve q).run c).1.ret = 0 := by
  unfold mlChmod
  rw [hq, hunix, hplain]
  refine addressed_resolved cfg.locals (fun got P => ?_) hc
  refine .bind (.bind (ready_ask rfl) fun reply => .kept) fun r => ?_
  refine .orPure (fun _ h => h.1.1) ?_
  unfold changeMode
  refine .orPure (fun _ h => h.1.1) ?_
  split
  · exact .pure fun _ h => h.1.1
  · refine .orPure (fun _ h => h.1.1) ?_
    exact done_setUnixprivs.mono (fun _ h => h.2) fun _ _ h => h.1

theorem addressed_chown (hq : chownChecks cfg path = .ok q) (hunix : cfg.supportsUnix = true)
    (hc : c.journal = []) :
    Addressed ((mlChown serve cfg path).run c).2.journal ↔
      ((getDirid serve q).run c).1.ret = 0 := by
  unfold mlChown
  rw [hq, hunix]
  refine addressed_resolved cfg.locals (fun got P => ?_) hc
  refine .bind (.bind (ready_ask rfl) fun reply => .kept) fun r => ?_
  refine .orPure (fun _ h => h.1.1) ?_
  refine .bind (done_setUnixprivs.mono (fun _ h => h.2) fun _ _ h => h) fun rc => ?_
  refine .orPure (fun _ h => h.1) <| .orPure (fun _ h => h.1) ?_
  exact .orPure (fun _ h => h.1) <| .pure fun _ h => h.1

/-! ## `ml_rename` -/

/-- What `get_dirid` has left is among what was stored, if it has returned 0;
if it has not, the variable holds what it held before. -/
theorem Client.Resolution.stored_mem {before : Locals} {k : List Event}
    (h : Resolution path j got j') (hk : j' ⊆ k) :
    .resolved path (got.stored before).1 ∈ k ↔ got.ret = 0 ∨ .resolved path before.dirid ∈ k := by
  cases h with
  | resolved _ _ => exact iff_of_true (hk mem_cons_self) (.inl rfl)
  | noParent _ hret => exact (or_iff_right (ne_of_lt hret)).symm
  | unanswered _ _ hret => exact (or_iff_right hret).symm

theorem Client.Resolution.subset (h : Resolution path j got j') : j ⊆ j' := by
  cases h with
  | resolved _ _ => exact fun e he => mem_cons_of_mem _ (mem_append_right _ he)
  | noParent _ _ => exact fun e he => he
  | unanswered _ _ _ => exact fun e he => mem_cons_of_mem _ (mem_append_right _ he)

/-- Before the requests of `ml_rename`: they will be addressed exactly if
`P`. -/
def ReadyBoth (n : Renaming) (P : Prop) (j : List Event) : Prop :=
  Addressed j ∧ .resolved n.pathFrom n.diridFrom ∈ j ∧ .resolved n.pathTo n.diridTo ∈ j ↔ P

section Rename

variable {n : Renaming} {P : Prop} {r : AfpRequest}

/-- A request that carries no more than the two IDs. -/
theorem readyBoth_request {about : List Octets} {reply : AfpReply} {j : List Event}
    (hr : .resolved n.pathFrom n.diridFrom ∈ j → .resolved n.pathTo n.diridTo ∈ j →
      Carries about r j) (h : ReadyBoth n P j) : ReadyBoth n P (.request about r reply :: j) := by
  unfold ReadyBoth
  rw [resolved_mem_request, resolved_mem_request]
  refine Iff.trans ?_ h
  refine ⟨fun ⟨haddr, hmem⟩ => ⟨haddr.2, hmem⟩, fun ⟨haddr, hmem⟩ => ⟨⟨?_, haddr⟩, hmem⟩⟩
  exact hr hmem.1 hmem.2

/-- A request about the target. -/
theorem readyBoth_askTo (hr : r.dirids = [n.diridTo]) :
    Keeps (fun c => ReadyBoth n P c.journal) (ask serve [n.pathTo] r) := fun _ hc =>
  readyBoth_request (fun _ hto => (carries_one hr).mpr hto) hc

/-- A request about both. -/
theorem done_askBoth (hr : r.dirids = [n.diridFrom, n.diridTo]) :
    Ensures (fun c => ReadyBoth n P c.journal) (ask serve [n.pathFrom, n.pathTo] r) fun _ c =>
      (Addressed c.journal ↔ P) ∧ ReadyBoth n P c.journal := by
  intro c hc
  refine ⟨?_, readyBoth_request (fun hfrom hto => (carries_two hr).mpr ⟨hfrom, hto⟩) hc⟩
  show Carries [n.pathFrom, n.pathTo] r c.journal ∧ Addressed c.journal ↔ P
  rw [carries_two hr, and_comm]
  exact hc

/-- One more request, about one of the two, after one about both. -/
theorem done_askAgain {path : Octets} {did : ℕ} (hr : r.dirids = [did])
    (hone : (path, did) = (n.pathFrom, n.diridFrom) ∨ (path, did) = (n.pathTo, n.diridTo)) :
    Keeps (fun c => (Addressed c.journal ↔ P) ∧ ReadyBoth n P c.journal) (ask serve [path] r) := by
  rintro c ⟨haddr, hc⟩
  have hcarries : .resolved n.pathFrom n.diridFrom ∈ c.journal →
      .resolved n.pathTo n.diridTo ∈ c.journal → Carries [path] r c.journal := by
    intro hfrom hto
    rw [carries_one hr]
    rcases hone with h | h
    · obtain ⟨rfl, rfl⟩ := Prod.mk.inj h
      exact hfrom
    · obtain ⟨rfl, rfl⟩ := Prod.mk.inj h
      exact hto
  refine ⟨?_, readyBoth_request hcarries hc⟩
  show Carries [path] r c.journal ∧ Addressed c.journal ↔ P
  refine ⟨fun h => haddr.mp h.2, fun hP => ⟨?_, haddr.mpr hP⟩⟩
  exact hcarries (hc.mpr hP).2.1 (hc.mpr hP).2.2

theorem done_renamed {rc : ℤ} :
    Ensures (fun c => (Addressed c.journal ↔ P) ∧ ReadyBoth n P c.journal) (renamed serve n rc)
      fun _ c => Addressed c.journal ↔ P := by
  unfold Client.renamed
  refine .orPure (fun _ h => h.1) <| .orPure (fun _ h => h.1) ?_
  refine .ite (fun _ => ?_) fun _ => .orPure (fun _ h => h.1) ?_
  · refine .bind (done_askAgain rfl (.inr rfl)) fun _ => ?_
    refine .bind ((done_askBoth rfl).mono (fun _ h => h.2) fun _ _ h => h) fun reply => ?_
    exact .pure fun _ h => h.1
  · exact .orPure (fun _ h => h.1) <| .pure fun _ h => h.1

theorem done_rename :
    Ensures (fun c => ReadyBoth n P c.journal) (rename serve cfg n) fun _ c =>
      Addressed c.journal ↔ P := by
  have hmove : ∀ dst new, Ensures (fun c => ReadyBoth n P c.journal)
      (ask serve [n.pathFrom, n.pathTo]
        (.moveandrename n.diridFrom n.diridTo n.basenameFrom dst new) >>= fun reply =>
          renamed serve n reply.rc) fun _ c => Addressed c.journal ↔ P := fun dst new =>
    .bind (done_askBoth rfl) fun reply => done_renamed
  have hexchange : ∀ found, Ensures (fun c => ReadyBoth n P c.journal)
      (exchanged serve cfg n found) fun done c =>
        (done = true → (Addressed c.journal ↔ P)) ∧ ReadyBoth n P c.journal := fun found => by
    refine .orPure (fun _ h => ⟨nofun, h⟩) <| .bind (done_askBoth rfl) fun reply => ?_
    exact .pure fun _ h => ⟨fun _ => h.1, h.2⟩
  unfold Client.rename
  refine .bind (readyBoth_askTo rfl) fun found => .ite (fun _ => hmove _ _) fun _ => ?_
  refine .bind (hexchange found) fun done => .ite (fun hdone => ?_) fun _ => ?_
  · refine .bind ((done_askAgain rfl (.inl rfl)).mono (fun _ h => ⟨h.1 hdone, h.2⟩)
      fun _ _ h => h) fun _ => ?_
    exact .pure fun _ h => h.1
  · exact (hmove _ _).mono (fun _ h => h.2) fun _ _ h => h

/-- **`ml_rename` looks at the result, but for a number below 0 only.** -/
theorem addressed_rename {pathFrom pathTo p q : Octets}
    (hq : renameChecks cfg pathFrom pathTo = .ok (p, q)) (hc : c.journal = []) :
    Addressed ((mlRename serve cfg pathFrom pathTo).run c).2.journal ↔
      let from' := (getDirid serve p).run c
      let to' := (getDirid serve q).run from'.2
      from'.1.ret < 0 ∨ to'.1.ret < 0 ∨
        (from'.1.ret = 0 ∨ .resolved p cfg.locals.dirid ∈ to'.2.journal) ∧
          (to'.1.ret = 0 ∨ .resolved q cfg.localsTo.dirid ∈ to'.2.journal) := by
  have hfrom : Resolution p [] ((getDirid serve p).run c).1 ((getDirid serve p).run c).2.journal :=
    resolution_getDirid p c hc
  have hto : ∀ c', Resolution q c'.journal ((getDirid serve q).run c').1
      ((getDirid serve q).run c').2.journal := fun c' => resolution_getDirid q c' rfl
  unfold mlRename
  rw [hq]
  dsimp only
  rw [run_bind]
  generalize (getDirid serve p).run c = r at hfrom
  obtain ⟨got, c₁⟩ := r
  have hto := hto c₁
  dsimp only at hfrom ⊢
  by_cases hneg : got.ret < 0
  · rw [if_pos hneg]
    exact iff_of_true (hfrom.addressed.mpr trivial) (.inl hneg)
  rw [if_neg hneg, run_bind]
  generalize (getDirid serve q).run c₁ = r at hto
  obtain ⟨gotTo, c₂⟩ := r
  dsimp only at hto ⊢
  have haddr : Addressed c₂.journal := hto.addressed.mpr (hfrom.addressed.mpr trivial)
  by_cases hnegTo : gotTo.ret < 0
  · rw [if_pos hnegTo]
    exact iff_of_true haddr (.inr (.inl hnegTo))
  rw [if_neg hnegTo, or_iff_right hneg, or_iff_right hnegTo]
  refine done_rename c₂ ?_
  show Addressed c₂.journal ∧ _ ∈ _ ∧ _ ∈ _ ↔ _
  rw [hfrom.stored_mem hto.subset, hto.stored_mem (List.Subset.refl _)]
  exact ⟨fun h => h.2, fun h => ⟨haddr, h⟩⟩

end Rename

end Calls

end NetatalkClient
