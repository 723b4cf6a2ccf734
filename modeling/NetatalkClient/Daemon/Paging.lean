import Mathlib.Data.List.Sort
import NetatalkClient.Daemon.Helpers.Pages
/-!
# Listings by pages

Three loops page through a directory: the daemon fills a response,
`afp_sl_readdir` asks until it has as many files as it wants, and
`remote_readdir_all` asks `afp_sl_readdir` until it has them all. Each
round goes on where the last one stopped, so the files are those of the
whole sorted list, whatever fits in one response.
-/

namespace NetatalkClient

open Octets List

section Paging

variable {env : ReaddirEnv} {daemon : Transport ReaddirRequest} {volid : ℕ} {path : Octets}
variable {files : List AfpcFileInfo} {start : ℕ} {fd : ℤ}

/-- **The run lemma of `afp_sl_readdir`**, by induction on what it still
wants: it has the first `t` files from `start` on, and there are more
unless it has none. -/
theorem readdirLoop_eq (hs : Serves env daemon volid path files) (h0 : 0 ≤ fd)
    (hset : fd < fdSetsize) {requested : ℕ} (hreq : 0 < requested) (hmax : requested ≤ intMax)
    {t : ℕ} (ht : t ≤ requested) (hin : start + t ≤ files.length)
    (hmore : t = 0 ∨ start + t < files.length) :
    readdirLoop fd daemon volid path requested (((sortedFiles env files).drop start).take t)
        (start + t : ℕ) =
      (0, ((sortedFiles env files).drop start).take requested,
        decide (files.length ≤ start + requested)) := by
  have hlen := (perm_sortedFiles env files).length_eq
  have hfiles := hs.files_le
  -- all the files from `start` on are what any longer prefix of them is
  have hall : ∀ k, files.length ≤ start + k → k ≤ requested →
      ((sortedFiles env files).drop start).take k =
        ((sortedFiles env files).drop start).take requested := by
    intro k hk hkr
    rw [take_of_length_le (by rw [length_drop]; omega),
      take_of_length_le (by rw [length_drop]; omega)]
  induction hw : requested - t using Nat.strong_induction_on generalizing t with
  | h w ih =>
    have htake : (((sortedFiles env files).drop start).take t).length = t := by
      rw [length_take, length_drop]
      omega
    rw [readdirLoop, htake]
    split
    · next hlt =>
      obtain ⟨i, hbatch, hi, hend, hsome⟩ := readdirBatch_eq hs h0 hset hin (requested - t) t
        (by omega) (by omega) (by omega)
      have hjoin : ((sortedFiles env files).drop start).take t ++
          ((sortedFiles env files).drop (start + t)).take i =
            ((sortedFiles env files).drop start).take (t + i) := by
        rw [take_add, drop_drop]
      have hbatchLen : (((sortedFiles env files).drop (start + t)).take i).length = i := by
        rw [length_take, length_drop]
        omega
      rw [hbatch]
      generalize hb : ((sortedFiles env files).drop (start + t)).take i = batch at hjoin hbatchLen
      cases batch with
      | nil =>
        -- nothing came, so the directory is at its end
        rw [length_nil] at hbatchLen
        have hlast : files.length ≤ start + t := by
          by_contra hnot
          have := hsome (by omega)
          omega
        dsimp only
        rw [hall t hlast ht, decide_eq_true (by omega), decide_eq_true (by omega)]
      | cons f batch =>
        rw [length_cons] at hbatchLen
        by_cases hlast : files.length ≤ start + t + i
        · rw [decide_eq_true hlast]
          dsimp only
          rw [hjoin, hall (t + i) (by omega) (by omega), decide_eq_true (by omega)]
        · rw [decide_eq_false hlast]
          dsimp only
          rw [hjoin, length_cons, hbatchLen]
          have hnext := ih (requested - (t + i)) (by omega) (t := t + i) (by omega) (by omega)
            (.inr (by omega)) rfl
          rw [← add_assoc, Int.natCast_add] at hnext
          exact hnext
    · next hge =>
      obtain rfl : t = requested := by omega
      rw [decide_eq_false (by omega)]

/-- `afp_sl_readdir` returns the files it was asked for. -/
theorem afpSlReaddir_eq (hs : Serves env daemon volid path files) (h0 : 0 ≤ fd)
    (hset : fd < fdSetsize) (count : ℕ) (hstart : start ≤ files.length) (hpos : 0 < count)
    (hcount : count ≤ intMax) :
    afpSlReaddir fd daemon volid path start count =
      (0, ((sortedFiles env files).drop start).take (max count 256),
        decide (files.length ≤ start + max count 256)) := by
  have hrequested : (if 0 < (count : ℤ) ∧ (count : ℤ) < 256 then 256
      else ((count : ℤ) % 4294967296).toNat) = max count 256 := by
    simp only [intMax] at hcount
    split <;> omega
  unfold afpSlReaddir
  rw [if_neg (not_lt.mpr hs.path_le), hrequested]
  exact readdirLoop_eq hs h0 hset (by omega) (by simp only [intMax] at *; omega) (t := 0)
    (Nat.zero_le _) hstart (.inl rfl)

/-- **The run lemma of `remote_readdir_all`**: it has the first `t` files,
and there are more unless it has none. -/
theorem remoteReaddirLoop_eq (hs : Serves env daemon volid path files) (h0 : 0 ≤ fd)
    (hset : fd < fdSetsize) {t : ℕ} (hin : t ≤ files.length) (hmore : t = 0 ∨ t < files.length) :
    remoteReaddirLoop fd daemon volid path ((sortedFiles env files).take t) =
      (0, sortedFiles env files) := by
  have hlen := (perm_sortedFiles env files).length_eq
  have hfiles := hs.files_le
  induction hw : files.length - t using Nat.strong_induction_on generalizing t with
  | h w ih =>
    have htake : ((sortedFiles env files).take t).length = t := by
      rw [length_take]
      omega
    have hpage := afpSlReaddir_eq hs h0 hset 256 hin (by decide) (by decide)
    have hjoin : (sortedFiles env files).take t ++ ((sortedFiles env files).drop t).take 256 =
        (sortedFiles env files).take (t + 256) := take_add.symm
    rw [remoteReaddirLoop, htake, if_neg (by omega)]
    rw [show afpSlReaddir fd daemon volid path t 256 = _ from hpage]
    dsimp only
    rw [if_neg (by decide), Nat.max_self]
    generalize hb : ((sortedFiles env files).drop t).take 256 = page at hjoin
    cases page with
    | nil =>
      have hnil := congrArg List.length hb
      rw [length_take, length_drop, length_nil] at hnil
      dsimp only
      rw [take_of_length_le (by omega)]
    | cons f page =>
      dsimp only
      by_cases hlast : files.length ≤ t + 256
      · rw [decide_eq_true hlast, if_pos rfl, hjoin, take_of_length_le (by omega)]
      · rw [decide_eq_false hlast, if_neg (by decide), hjoin]
        exact ih (files.length - (t + 256)) (by omega) (by omega) (.inr (by omega)) rfl

theorem pairwise_sortedFiles (hs : Serves env daemon volid path files) :
    (sortedFiles env files).Pairwise compareAfpFileInfo := by
  unfold sortedFiles
  split
  · rw [hs.fileArray, if_pos rfl]
    exact env.qsort.sorted files
  · next hshort =>
    match files, hshort with
    | [], _ => exact .nil
    | [f], _ => exact pairwise_singleton _ _
    | _ :: _ :: _, h => exact absurd (Nat.succ_lt_succ (Nat.succ_pos _)) h

end Paging

/-! ## A directory of two files -/

theorem strcasecmpLe_total (a b : Octets) : strcasecmpLe a b = true ∨ strcasecmpLe b a = true := by
  induction a generalizing b with
  | nil => exact .inl rfl
  | cons c a ih =>
    cases b with
    | nil => exact .inr rfl
    | cons d b =>
      simp only [strcasecmpLe, Bool.or_eq_true, Bool.and_eq_true, decide_eq_true_eq, beq_iff_eq]
      by_cases heq : tolower c = tolower d
      · exact (ih b).imp (fun h => .inr ⟨heq, h⟩) fun h => .inr ⟨heq.symm, h⟩
      · exact (UInt8.lt_or_lt_of_ne heq).imp .inl .inl

theorem strcasecmpLe_trans {a b c : Octets} (hab : strcasecmpLe a b = true)
    (hbc : strcasecmpLe b c = true) : strcasecmpLe a c = true := by
  induction a generalizing b c with
  | nil => rfl
  | cons x a ih =>
    match b, c with
    | [], _ => cases hab
    | _ :: _, [] => cases hbc
    | y :: b, z :: c =>
      simp only [strcasecmpLe, Bool.or_eq_true, Bool.and_eq_true, decide_eq_true_eq, beq_iff_eq]
        at hab hbc ⊢
      rcases hab with hxy | ⟨hxy, hab⟩
      · rcases hbc with hyz | ⟨hyz, -⟩
        · exact .inl (UInt8.lt_trans hxy hyz)
        · exact .inl (hyz ▸ hxy)
      · rw [hxy]
        exact hbc.imp_right fun h => ⟨h.1, ih hab h.2⟩

instance : Std.Total compareAfpFileInfo := ⟨fun _ _ => strcasecmpLe_total _ _⟩

instance : IsTrans AfpcFileInfo compareAfpFileInfo := ⟨fun _ _ _ => strcasecmpLe_trans⟩

/-- A `qsort` that inserts each file into those sorted before. -/
def Qsort.insertion : Qsort where
  sort fs := fs.insertionSort compareAfpFileInfo
  perm := perm_insertionSort compareAfpFileInfo
  sorted := pairwise_insertionSort compareAfpFileInfo

/-- Every response of `process_readdir` fits. -/
theorem length_processReaddir (env : ReaddirEnv) (req : ReaddirRequest) :
    ipcReaddirResponseSize ≤ (processReaddir env req).length ∧
      (processReaddir env req).length ≤ afpslIpcMaxResponse := by
  have hshort : ∀ result, ipcReaddirResponseSize ≤ (readdirResponse result 0 false []).length ∧
      (readdirResponse result 0 false []).length ≤ afpslIpcMaxResponse := by
    intro result
    rw [length_readdirResponse]
    decide
  unfold processReaddir
  dsimp only
  split
  · exact hshort _
  · split
    · exact hshort _
    · split
      · exact hshort _
      · exact hshort _
      · split
        · exact hshort _
        · next files _ =>
          split
          · exact hshort _
          · obtain ⟨i, hpack, -, -, hlens, -⟩ := packFiles_eq
              (min files.length (req.count % 4294967296).toNat)
              (afpslIpcMaxResponse - ipcReaddirResponseSize)
              ((sortedFiles env files).drop req.start.toNat)
            rw [hpack, length_readdirResponse]
            exact ⟨Nat.le_add_right _ _, le_trans (Nat.add_le_add_left hlens _) (by decide)⟩

/-- A daemon that has nothing to say and answers in one piece. -/
def directDaemon (env : ReaddirEnv) : Transport ReaddirRequest := fun req =>
  some [.ready ((frameResponse true (outgoingString []) (processReaddir env req)).getD [])]

theorem directDaemon_exchanged (env : ReaddirEnv) (req : ReaddirRequest) :
    ∃ ws, directDaemon env req = some ws ∧ Exchanged (processReaddir env req) ws := by
  obtain ⟨hge, hle⟩ := length_processReaddir env req
  obtain ⟨frame, hframe, hframed⟩ := exists_framed ⟨processReaddir env req,
    le_trans (by decide) hge, le_trans hle (by decide)⟩ []
  have hpos := hframed.le_length
  refine ⟨_, rfl, ?_, [], ?_⟩
  · intro w hw
    rw [mem_singleton.mp hw, hframe, Option.getD_some]
    exact length_pos_iff.mp (by simp only [ipcLogFooterSize] at hpos; omega)
  · rw [hframe, Option.getD_some, Wakeup.pending, Wakeup.pending, append_nil]

/-- A small file. -/
def smallListed (name : FileName) : AfpcFileInfo where
  name := name
  creationDate := 0
  modificationDate := 0
  uid := 501
  gid := 20
  permissions := 0o100644
  uaPermissions := 0
  size := 3

def fileA : AfpcFileInfo := smallListed (.ofBuffer [97])

def fileB : AfpcFileInfo := smallListed (.ofBuffer [98])

/-- A daemon that knows one directory, of a file `b` and a file `a`. -/
def twoFiles : ReaddirEnv where
  volume := fun _ => some true
  mlReaddir := fun _ => some [fileB, fileA]
  qsort := .insertion
  fileArray := true

end NetatalkClient
