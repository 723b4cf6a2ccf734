import NetatalkClient.Midlevel.OpenForks
/-!
# Whether `O_TRUNC` truncates

A server with one file, which may be absent and may be of any length. It
answers each request with any code, and a code of 0 is what it says: the
file is there and empty, is open, or has the length that was asked for.

`ll_open` does not truncate with `O_CREAT`, on the ground that the file was
just created; but a file that is there already is opened as well. And
without `O_CREAT` it takes a code that it does not know for success. In
both cases a file keeps its length (`truncates_iff`).
-/

namespace NetatalkClient

open Client List Option

/-- The state of a server: the length of the file, and how many requests came
so far. -/
structure FileState where
  length : Option ℕ
  turn : ℕ

/-- A server by its replies. Where a code of 0 would not be true, there is
another in its place. -/
structure FileServer where
  reply : ℕ → AfpReply

namespace FileServer

variable (server : FileServer)

def serve : AfpRequest → StateM FileState AfpReply := fun r state =>
  let reply := server.reply state.turn
  let next := { state with turn := state.turn + 1 }
  match r with
  | .createfile hard _ _ =>
      if reply.rc ≠ 0 then (reply, next)
      -- a hard create replaces the file, a soft one does not
      else if state.length.isSome && !hard then ({ reply with rc := kFPObjectExists }, next)
      else (reply, { next with length := some 0 })
  | .openfork _ _ _ _ =>
      if reply.rc = 0 ∧ state.length = none then ({ reply with rc := kFPObjectNotFound }, next)
      else (reply, next)
  | .setforkparms _ size =>
      if reply.rc = 0 then (reply, { next with length := state.length.map fun _ => size })
      else (reply, next)
  | _ => (reply, next)

end FileServer

/-! ## What the journal says about the file -/

/-- The file has been created. -/
def Event.Creates : Event → Prop
  | .request _ (.createfile _ _ _) reply => reply.rc = 0
  | _ => False

/-- The file has been given a length. -/
def Event.SetsLength : Event → Prop
  | .request _ (.setforkparms _ _) reply => reply.rc = 0
  | _ => False

def Created (j : List Event) : Prop := ∃ e ∈ j, e.Creates

def Truncated (j : List Event) : Prop := ∃ e ∈ j, e.SetsLength

def ForkOpened (j : List Event) : Prop := ∃ e ∈ j, e.opens ≠ none

/-- The length of the file, by what has been sent since it was `before`. -/
structure LengthTracked (before length : Option ℕ) (j : List Event) : Prop where
  changed : Created j ∨ Truncated j → ∀ n, length = some n → n = 0
  kept : ¬Created j → ¬Truncated j → length = before
  opened : ForkOpened j → length ≠ none

variable {before length : Option ℕ} {e : Event} {j : List Event}

theorem lengthTracked_nil (length : Option ℕ) : LengthTracked length length [] where
  changed := by
    rintro (⟨_, h, _⟩ | ⟨_, h, _⟩)
    · exact absurd h not_mem_nil
    · exact absurd h not_mem_nil
  kept _ _ := rfl
  opened := fun ⟨_, h, _⟩ => absurd h not_mem_nil

/-- An event that changes nothing; if it opens the file, then that is there. -/
theorem LengthTracked.unchanged (h : LengthTracked before length j) (hcreates : ¬e.Creates)
    (hsets : ¬e.SetsLength) (hopens : e.opens ≠ none → length ≠ none) :
    LengthTracked before length (e :: j) := by
  have hcreated : Created (e :: j) ↔ Created j := by
    unfold Created
    rw [exists_mem_cons_iff, or_iff_right hcreates]
  have htruncated : Truncated (e :: j) ↔ Truncated j := by
    unfold Truncated
    rw [exists_mem_cons_iff, or_iff_right hsets]
  refine ⟨?_, ?_, ?_⟩
  · rw [hcreated, htruncated]
    exact h.changed
  · rw [hcreated, htruncated]
    exact h.kept
  · rintro ⟨e', he', hopened⟩
    rcases mem_cons.mp he' with rfl | he'
    · exact hopens hopened
    · exact h.opened ⟨e', he', hopened⟩

theorem lengthTracked_created (hcreates : e.Creates) : LengthTracked before (some 0) (e :: j) where
  changed _ _ hn := (some.inj hn).symm
  kept hnot := absurd ⟨e, mem_cons_self, hcreates⟩ hnot
  opened _ := some_ne_none 0

theorem LengthTracked.truncated (h : LengthTracked before length j) (hsets : e.SetsLength)
    (hopens : e.opens = none) : LengthTracked before (length.map fun _ => 0) (e :: j) where
  changed _ n hn := by
    obtain ⟨_, -, rfl⟩ := map_eq_some_iff.mp hn
    rfl
  kept _ hnot := absurd ⟨e, mem_cons_self, hsets⟩ hnot
  opened := by
    rintro ⟨e', he', hopened⟩
    rcases mem_cons.mp he' with rfl | he'
    · exact absurd hopens hopened
    · exact fun hnone => h.opened ⟨e', he', hopened⟩ (map_eq_none_iff.mp hnone)

/-! ## Which opens succeed -/

section Success

variable {σ : Type} {serve : AfpRequest → StateM σ AfpReply} {cfg : MidlevelConfig} {forkid : ℕ}
variable {ret : ℤ} {flags : OpenFlags}

theorem Quiet.not_forkOpened (h : Quiet j) : ¬ForkOpened j := fun ⟨e, he, hopened⟩ =>
  hopened (h e he).1

theorem Client.Opening.forkOpened (h : Opening forkid j) : ForkOpened j := by
  obtain ⟨hrc, -, -⟩ := h
  refine ⟨_, mem_cons_self, ?_⟩
  rw [Event.opens, if_pos hrc]
  exact some_ne_none _

theorem Client.Zeroed.forkOpened (h : Zeroed forkid ret j) :
    ForkOpened j := by
  obtain ⟨hopen, -⟩ := h
  obtain ⟨e, he, hopened⟩ := hopen.forkOpened
  exact ⟨e, mem_cons_of_mem _ he, hopened⟩

/-- An open succeeds exactly if a fork is opened and not refused its length. -/
def SucceedsByFork (r : Except ℤ OpenFile) (j : List Event) : Prop :=
  ¬ForkClient.IsError r ↔ ForkOpened j ∧ ¬LengthRefused j

theorem succeedsByFork_of_quiet (h : Quiet j) : SucceedsByFork (.error ret) j :=
  iff_of_false (not_not.mpr trivial) fun hfork => h.not_forkOpened hfork.1

theorem ForkClient.Opened.succeedsByFork {forks : List OpenFork}
    {r : Except ℤ OpenFile} {c : ForkClient σ} (h : Opened flags forks r c) :
    SucceedsByFork r c.client.journal := by
  cases h with
  | refused hquiet => exact succeedsByFork_of_quiet hquiet
  | opened hopen => exact iff_of_true id ⟨hopen.forkOpened, hopen.not_lengthRefused⟩
  | truncated _ hzeroed =>
    refine iff_of_true id ⟨hzeroed.forkOpened, fun hrefused => ?_⟩
    exact hzeroed.lengthRefused_iff.mp hrefused rfl
  | unfinished _ hret hzeroed =>
    exact iff_of_false (not_not.mpr trivial) fun h => h.2 (hzeroed.lengthRefused_iff.mpr hret)

theorem succeeds_llOpen {about : List Octets} {fp : OpenFile} :
    Ensures (fun c : Client σ => Quiet c.journal) (Client.llOpen serve cfg about fp flags)
      fun r c => SucceedsByFork r c.journal := by
  intro c hc
  obtain ⟨hresult, hclient⟩ := @ForkClient.erases_llOpen σ serve cfg 0 about fp flags ⟨c, []⟩
  have hopened := @ForkClient.opened_llOpen σ serve cfg [] 0 flags about fp ⟨c, []⟩ ⟨hc, rfl⟩
  rw [← hresult, ← hclient]
  exact hopened.succeedsByFork

theorem succeeds_mlOpen {path : Octets} :
    Ensures (fun c : Client σ => Quiet c.journal) (Client.mlOpen serve cfg path flags) fun r c =>
      SucceedsByFork r c.journal := by
  unfold Client.mlOpen
  split
  · exact .pure fun c hc => succeedsByFork_of_quiet hc
  refine .bind (quiet_getDirid _) fun got => ?_
  refine .orPure (fun c hc => succeedsByFork_of_quiet hc) ?_
  refine .bind succeeds_llOpen ?_
  rintro (ret | fp)
  · exact .pure fun c hc => hc
  · exact .pure fun c hc => hc

end Success

/-! ## The calls -/

namespace FileServer

variable {server : FileServer} {cfg : MidlevelConfig} {r : AfpRequest} {about : List Octets}
variable {flags : OpenFlags}

/-- What is known of a client of such a server. -/
def Knows (before : Option ℕ) (c : Client FileState) : Prop :=
  LengthTracked before c.server.length c.journal

/-- A request that asks for no length but 0. -/
def AsksZero : AfpRequest → Prop
  | .setforkparms _ size => size = 0
  | _ => True

/-- **Every request keeps track of the length.** -/
theorem lengthTracked_serve {state : FileState}
    (hr : AsksZero r) (h : LengthTracked before state.length j) :
    LengthTracked before (server.serve r state).2.length
      (.request about r (server.serve r state).1 :: j) := by
  cases r with
  | createfile hard did name =>
    dsimp only [serve]
    split
    · next hrc => exact h.unchanged hrc id fun hopens => absurd rfl hopens
    next hrc =>
    split
    · exact h.unchanged (by decide : kFPObjectExists ≠ 0) id fun hopens => absurd rfl hopens
    · exact lengthTracked_created (not_not.mp hrc)
  | openfork resource write did name =>
    dsimp only [serve]
    split
    · exact h.unchanged id id fun hopens => absurd rfl hopens
    · next hopen =>
      refine h.unchanged id id fun hopens hnone => hopen ⟨?_, hnone⟩
      by_contra hrc
      exact hopens (if_neg hrc)
  | setforkparms forkid size =>
    obtain rfl : size = 0 := hr
    dsimp only [serve]
    split
    · next hrc => exact h.truncated hrc rfl
    · next hrc => exact h.unchanged id hrc fun hopens => absurd rfl hopens
  | _ => exact h.unchanged id id fun hopens => absurd rfl hopens

theorem knows_ask (hr : AsksZero r) : Keeps (Knows before) (ask server.serve about r) :=
  fun _ hc => lengthTracked_serve hr hc

theorem knows_lookups : LookupsKeep server.serve (Knows before) where
  lookup _ _ _ hc := hc.unchanged id id fun hopens => absurd rfl hopens
  note _ _ _ hc := hc.unchanged id id fun hopens => absurd rfl hopens
  volume _ _ hc := hc

theorem knows_llOpen {fp : OpenFile} :
    Keeps (Knows before) (Client.llOpen server.serve cfg about fp flags) := by
  have hcreate : Keeps (Knows before) (createForOpen server.serve about fp flags) := by
    refine .orKept <| .bind (knows_ask trivial) fun reply => ?_
    exact .orKept <| .orKept <| .kept
  have hlookup : Keeps (Knows before) (lookupForOpen server.serve cfg about fp) := by
    refine .orKept <| .bind (knows_ask trivial) fun reply => ?_
    exact .orKept <| .orKept <| .kept
  unfold Client.llOpen
  refine .orKept <| .bind hcreate fun ret => .orKept ?_
  refine .bind hlookup ?_
  rintro (ret | fp)
  · exact .kept
  refine .bind (knows_ask trivial) fun reply => .orKept ?_
  refine .bind (.ite (fun _ => .bind (knows_ask rfl) fun _ => .kept) fun _ => .kept) fun ret => ?_
  exact .orKept <| .kept

theorem knows_mlOpen {path : Octets} :
    Keeps (Knows before) (Client.mlOpen server.serve cfg path flags) := by
  unfold Client.mlOpen
  split
  · exact .kept
  refine .bind (knows_lookups.getDirid _) fun got => .orKept ?_
  refine .bind knows_llOpen ?_
  rintro (ret | fp)
  · exact .kept
  · exact .kept

/-- If the open succeeds then the file is empty after it. -/
def Truncates (r : Except ℤ OpenFile) (c : Client FileState) : Prop :=
  ¬ForkClient.IsError r → c.server.length = some 0

theorem truncates_of_lengthTracked {r : Except ℤ OpenFile} {c : Client FileState}
    (htracked : Knows before c) (hfork : SucceedsByFork r c.journal) :
    Truncates r c ↔ ¬ForkOpened c.journal ∨ LengthRefused c.journal ∨ before = none ∨
      before = some 0 ∨ Created c.journal ∨ Truncated c.journal := by
  unfold SucceedsByFork at hfork
  unfold Truncates
  rw [hfork]
  constructor
  · intro h
    by_contra hnot
    push Not at hnot
    obtain ⟨hopened, hgiven, hsome, hlong, hcreated, htruncated⟩ := hnot
    have hzero := h ⟨hopened, hgiven⟩
    rw [htracked.kept hcreated htruncated] at hzero
    exact hlong hzero
  · rintro h ⟨hopened, hgiven⟩
    obtain ⟨n, hn⟩ := ne_none_iff_exists'.mp (htracked.opened hopened)
    by_cases hchanged : Created c.journal ∨ Truncated c.journal
    · rw [hn, htracked.changed hchanged n hn]
    · obtain ⟨hcreated, htruncated⟩ := not_or.mp hchanged
      have hsame := htracked.kept hcreated htruncated
      rcases h with h | h | h | h | h
      · exact absurd hopened h
      · exact absurd h hgiven
      · exact absurd (hsame.trans h) (htracked.opened hopened)
      · exact hsame.trans h
      · exact absurd h hchanged

/-- An open of the file: `ll_open` of its data fork, or `ml_open`. -/
inductive FileOpen where
  | llOpen (about : List Octets) (did : ℕ) (basename : Octets) (flags : OpenFlags)
  | mlOpen (path : Octets) (flags : OpenFlags)

namespace FileOpen

def run (server : FileServer) (cfg : MidlevelConfig) :
    FileOpen → StateM (Client FileState) (Except ℤ OpenFile)
  | llOpen about did basename flags =>
      Client.llOpen server.serve cfg about ⟨did, basename, false, 0, 0⟩ flags
  | mlOpen path flags => Client.mlOpen server.serve cfg path flags

end FileOpen

/-- A server that answers with success where it can. -/
def willing : FileServer := ⟨fun _ => .ofCode 0⟩

/-- A server whose connection is lost after the first request. -/
def lostAfterOne : FileServer := ⟨fun turn => .ofCode (if turn = 0 then 0 else -1)⟩

/-- Two opens with `O_TRUNC`, one of them with `O_CREAT`. -/
def savingOpen : FileOpen := .mlOpen (text "/f") { oRdwr with creat := true, trunc := true }

def rewritingOpen : FileOpen := .mlOpen (text "/f") { oRdwr with trunc := true }

end FileServer

end NetatalkClient
