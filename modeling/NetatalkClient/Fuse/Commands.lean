import NetatalkClient.Fuse.Model.Commands
/-!
# FUSE daemon: which requests are acted on

A request is performed as it was sent only if one `read` returns all of
it. The first part of any other request is taken for the whole, and what
follows it for another one.
-/

namespace NetatalkClient

open FuseClient List FuseCommand

/-- **The daemon acts on complete requests only.** Whenever the thread gets
to run, it performs the request if all of it is sent, after all of it has
arrived, and nothing otherwise. -/
def ActsOnWhole (command : FuseCommand) (body : Octets) (chunks : List Octets) : Prop :=
  ∀ before chunk after, chunks = before ++ chunk :: after →
    (afterReads (before ++ [chunk])).performed? =
      if chunks.flatten = command.code :: body then some ⟨command, body, body.length + 1⟩ else none

/-- A chunk that is refused where it is taken for a request. -/
def ChunkRefused (chunk : Octets) : Prop :=
  ∀ command, ofCode? (chunk.headD 0) = some command →
    command.checksSize = true ∧ chunk.length < command.requestSize + 1

variable {command : FuseCommand} {body chunk : Octets} {before chunks : List Octets}

theorem afterReads_concat :
    afterReads (before ++ [chunk]) = (afterReads before).processCommand chunk := by
  rw [afterReads, foldl_append, foldl_cons, foldl_nil, afterReads]

/-- What a thread does depends on the chunk read last. -/
theorem performed?_eq_none_iff (hne : chunk ≠ []) :
    (afterReads (before ++ [chunk])).performed? = none ↔ ChunkRefused chunk := by
  obtain ⟨b, chunk, rfl⟩ := exists_cons_of_ne_nil hne
  have hhead : (afterReads (before ++ [b :: chunk])).incomingString.headD 0 = b := by
    rw [afterReads_concat, FuseClient.processCommand, Octets.overwrite, Octets.window_zero]
    rfl
  have hsize : (afterReads (before ++ [b :: chunk])).incomingSize = (b :: chunk).length := by
    rw [afterReads_concat]
    rfl
  unfold performed? ChunkRefused
  rw [hhead, hsize, headD_cons]
  cases ofCode? b with
  | none => simp
  | some command => simp

theorem performed?_whole (hbody : body.length = command.requestSize) :
    (afterReads [command.code :: body]).performed? = some ⟨command, body, body.length + 1⟩ := by
  have hcode : ofCode? command.code = some command := by
    cases command <;> rfl
  have hbuf : (afterReads [command.code :: body]).incomingString =
      command.code :: (body ++ (replicate afpfsdClientIncomingBuf 0).drop (body.length + 1)) := by
    show Octets.overwrite _ _ _ = _
    rw [Octets.overwrite, Octets.window_zero, nil_append, Nat.zero_add]
    rfl
  have hsize : (afterReads [command.code :: body]).incomingSize = body.length + 1 := rfl
  have harrived : (afterReads [command.code :: body]).arrived = body.length + 1 := Nat.zero_add _
  unfold performed?
  rw [hbuf, hsize, harrived, headD_cons, hcode]
  dsimp only
  rw [if_neg (by omega), drop_succ_cons, drop_zero, ← hbody, take_left]

/-- **Which requests the FUSE daemon acts on.** For every command with its
structure and every way that octets arrive, all of the request or less:
the request is performed as it was sent, or nothing if it is incomplete,
exactly if a complete request comes in one piece, and each part of an
incomplete one is refused where it is taken for a request. -/
theorem acts_on_whole_iff (command : FuseCommand) (body : Octets)
    (hbody : body.length = command.requestSize) (chunks : List Octets)
    (hne : ∀ chunk ∈ chunks, chunk ≠ []) :
    ActsOnWhole command body chunks ↔
      if chunks.flatten = command.code :: body then chunks = [command.code :: body]
      else ∀ chunk ∈ chunks, ChunkRefused chunk := by
  unfold ActsOnWhole
  split
  · next hwhole =>
    constructor
    · intro h
      cases chunks with
      | nil => cases hwhole
      | cons first rest =>
        -- the thread may run before anything else is read
        have hfirst := h [] first rest rfl
        rw [nil_append] at hfirst
        have hlen : first.length = body.length + 1 := by
          unfold performed? at hfirst
          split at hfirst
          · cases hfirst
          split at hfirst
          · cases hfirst
          · exact (Nat.zero_add _).symm.trans (congrArg Performed.arrived (Option.some.inj hfirst))
        have hsplit : first ++ rest.flatten = (command.code :: body) ++ [] := by
          rw [append_nil]
          exact hwhole
        obtain ⟨rfl, hflat⟩ := append_inj hsplit hlen
        cases rest with
        | nil => rfl
        | cons chunk rest =>
          exact absurd (append_eq_nil_iff.mp hflat).1 (hne chunk (by simp))
    · rintro rfl before chunk after hsplit
      obtain ⟨rfl, hcons⟩ : before = [] ∧ chunk :: after = [command.code :: body] := by
        cases before with
        | nil => exact ⟨rfl, hsplit.symm⟩
        | cons first before => simp at hsplit
      cases hcons
      exact performed?_whole hbody
  · constructor
    · intro h chunk hchunk
      obtain ⟨before, after, rfl⟩ := append_of_mem hchunk
      exact (performed?_eq_none_iff (hne chunk hchunk)).mp (h before chunk after rfl)
    · rintro h before chunk after rfl
      have hchunk : chunk ∈ before ++ chunk :: after := by simp
      exact (performed?_eq_none_iff (hne chunk hchunk)).mpr (h chunk hchunk)

/-- A request to exit is one octet. -/
theorem exit_acted_on : ActsOnWhole .exit [] [[12]] :=
  (acts_on_whole_iff .exit [] rfl [[12]] (by decide)).mpr ((if_pos rfl).mpr rfl)

/-- **The first octet of an unmount request is enough for the daemon**: it
unmounts what is mounted on the empty path. -/
theorem unmount_of_nothing :
    (afterReads [[6]]).performed? = some ⟨.unmount, replicate 255 0, 1⟩ ∧
      ¬ ActsOnWhole .unmount (replicate 255 97) [[6], replicate 255 97] := by
  have hfirst : (afterReads [[6]]).performed? = some ⟨.unmount, replicate 255 0, 1⟩ := by
    decide +kernel
  refine ⟨hfirst, ?_⟩
  have hlen : (replicate 255 97 : Octets).length = 255 := length_replicate
  generalize (replicate 255 97 : Octets) = body at hlen ⊢
  intro h
  have hflat : [[6], body].flatten = unmount.code :: body := by simp [code]
  have hwhole := hfirst.symm.trans ((h [] [6] [body] rfl).trans (if_pos hflat))
  have harrived : 1 = body.length + 1 := congrArg Performed.arrived (Option.some.inj hwhole)
  omega

end NetatalkClient
