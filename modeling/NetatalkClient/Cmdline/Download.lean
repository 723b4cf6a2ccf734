import NetatalkClient.Cmdline.Model.Download
import NetatalkClient.Daemon.Read
/-!
# A download that succeeds is the file

However the reads come in pieces and however the local writes do: at the top
of each turn of `retrieve_file`, what was written is the file up to `offset`,
and `total` is `offset`. So what was written in the end is the file up to
`total`, and 0 is returned only if that is the size that `afp_sl_stat` gave.
-/

namespace NetatalkClient

open Octets List

namespace Download

variable {σ φ : Type} {cfg : DownloadConfig σ} {content w : Octets}

/-! ## One piece -/

/-- A call of the daemon writes nothing to the descriptor. -/
theorem onDaemon_written {α : Type} {m : StateM σ α} {p : α → Prop} (h : Returns m p) :
    Ensures (fun d => d.written = w) (onDaemon m) fun a d => p a ∧ d.written = w := by
  intro d hd
  exact ⟨h d.daemon trivial, hd⟩

/-- One `write` fails, or writes some of the octets. -/
theorem ensures_write (data : Octets) :
    Ensures (fun d => d.written = w) (write cfg data) fun r d =>
      (∀ errno, r = .error errno → 0 < errno) ∧ ∀ n, r = .ok n → d.written = w ++ data.take n := by
  intro d hd
  cases hw : cfg.write d.writes with
  | failed errno =>
    have hrun : (write cfg data).run d = (.error errno.val, { d with writes := d.writes + 1 }) := by
      simp only [write, StateT.run, hw]
    rw [hrun]
    refine ⟨?_, fun _ h => nomatch h⟩
    rintro _ ⟨⟩
    exact errno.property
  | wrote n =>
    have hrun : (write cfg data).run d = (.ok (min n data.length),
        { d with written := d.written ++ data.take n, writes := d.writes + 1 }) := by
      simp only [write, StateT.run, hw]
    rw [hrun]
    refine ⟨fun _ h => (nomatch h), ?_⟩
    rintro _ ⟨⟩
    rw [hd, append_cancel_left_eq, take_eq_take_iff]
    omega

/-- The loop of `write_all_fd` either fails or ends with all of it written. -/
theorem ensures_writeAllLoop (data : Octets) : ∀ turns done, data.length - done ≤ turns →
    Ensures (fun d => d.written = w ++ data.take done) (writeAllLoop cfg data turns done)
      fun ret d => 0 ≤ ret → d.written = w ++ data := by
  intro turns
  induction turns with
  | zero =>
    intro done hturns d hd _
    rw [take_of_length_le (by omega)] at hd
    exact hd
  | succ turns ih =>
    intro done hturns
    unfold writeAllLoop
    refine .ite (fun hall => .pure fun d hd _ => ?_) fun hmore => ?_
    · rw [take_of_length_le hall] at hd
      exact hd
    refine .bind (ensures_write (data.drop done)) fun r => ?_
    cases r with
    | error errno =>
      refine .pure fun d hd hret => ?_
      have hpos := hd.1 errno rfl
      omega
    | ok n =>
      refine .ite (fun _ => .pure fun _ _ hret => absurd hret (by decide)) fun hsome => ?_
      refine (ih (done + n) (by omega)).mono (fun d hd => ?_) fun _ _ h => h
      rw [hd.2 n rfl, append_assoc, take_add]

/-- `write_all_fd`. -/
theorem ensures_writeAllFd (data : Octets) :
    Ensures (fun d => d.written = w) (writeAllFd cfg data)
      fun ret d => 0 ≤ ret → d.written = w ++ data :=
  (ensures_writeAllLoop data data.length 0 (by omega)).mono
    (fun d hd => by rw [take_zero, append_nil, hd]) fun _ _ h => h

/-! ## The file -/

/-- The daemon opens a file with these contents, and reads it. -/
structure Serves (content : Octets) (daemon : ReadDaemon σ φ) (cfg : DownloadConfig σ)
    (path : Octets) : Prop where
  short : content.length < 0x10000000000000000
  carries : CarriesReads daemon cfg.exchange
  opened : Returns (cfg.afpSlOpen path) fun r => r.1 = 0 → r.2 < 4294967296 ∧
    Returns (daemon.getFileHandle r.2) fun fp =>
      ∀ f, fp = some f → ReadsFile content (daemon.mlRead f)

/-- How the loop of `retrieve_file` leaves things: with an error, or with the
file up to `total` behind what was written before. -/
def CopiedUpTo (content w : Octets) (result : Except ℤ ℕ) (d : Download σ) : Prop :=
  match result with
  | .error ret => ret = -1
  | .ok total => total ≤ content.length ∧ d.written = w ++ content.take total

/-- A prefix of what stands at an offset, taken up to its end. -/
theorem take_append_of_prefix {offset : ℕ} {data : Octets} (h : data <+: content.drop offset) :
    content.take offset ++ data = content.take (offset + data.length) := by
  rw [take_add, prefix_iff_eq_take.mp h, length_take]
  congr 1
  rw [take_eq_take_iff]
  omega

/-- **The loop of `retrieve_file`** comes to an end, and either fails or has
written the file up to `total`. -/
theorem ensures_retrieveLoop {daemon : ReadDaemon σ φ} {volid fileid : ℕ}
    (hcarries : CarriesReads daemon cfg.exchange) (hshort : content.length < 0x10000000000000000)
    (hfileid : fileid < 4294967296)
    (hhandle : Returns (daemon.getFileHandle fileid) fun fp =>
      ∀ f, fp = some f → ReadsFile content (daemon.mlRead f)) :
    ∀ turns offset, offset ≤ content.length → content.length - offset < turns →
      Ensures (fun d => d.written = w ++ content.take offset)
        (retrieveLoop cfg volid fileid turns offset offset) fun r d =>
          ∃ result, r = some result ∧ CopiedUpTo content w result d := by
  intro turns
  induction turns with
  | zero =>
    intro offset _ hturns
    omega
  | succ turns ih =>
    intro offset hoffset hturns
    unfold retrieveLoop
    refine .bind (onDaemon_written (returns_afpSlRead hcarries hfileid (by omega) hhandle)) ?_
    intro r
    cases r with
    | error ret => exact .pure fun _ _ => ⟨_, rfl, rfl⟩
    | ok out =>
      refine .assume fun hout => ?_
      obtain ⟨hreceived, hdata⟩ := hout out rfl
      refine .ite (fun _ => .pure fun _ hd => ⟨.ok offset, rfl, hoffset, hd⟩) fun hsome => ?_
      have hfit : offset + out.data.length ≤ content.length := by
        have hle := hdata.length_le
        rw [length_drop] at hle
        omega
      refine .bind (ensures_writeAllFd _) fun ret => ?_
      refine .ite (fun _ => .pure fun _ _ => ⟨_, rfl, rfl⟩) fun hret => ?_
      -- nothing wraps, and what is there now is the file up to the new offset
      rw [hreceived, window_length, Nat.mod_eq_of_lt (by omega), append_assoc,
        take_append_of_prefix hdata]
      refine .orPure (fun _ hd => ⟨.ok _, rfl, hfit, hd (by omega)⟩) ?_
      exact (ih _ hfit (by omega)).mono (fun d hd => hd (by omega)) fun _ _ h => h

/-- **A download that returns 0 has written the file** from its beginning up
to the size that the stat gave, and it always returns. -/
theorem retrieve_file_exact {daemon : ReadDaemon σ φ} {arg : Octets} {turns : ℕ}
    (hserves : ∀ path, cfg.getServerPath arg = some path → Serves content daemon cfg path)
    (hturns : content.length < turns) (d : Download σ) :
    Ensures (fun d' => d' = d) (retrieveFile cfg turns arg) fun r d' =>
      ∃ ret amount, r = some (ret, amount) ∧ (ret = 0 → ∃ path, cfg.getServerPath arg = some path ∧
        ((cfg.afpSlStat path).run d.daemon).1.2 = amount ∧ amount ≤ content.length ∧
          d'.written = d.written ++ content.take amount) := by
  have hfailed {p : Prop} (h : (-1 : ℤ) = 0) : p := absurd h (by decide)
  unfold retrieveFile
  cases cfg.volid with
  | none => exact .pure fun _ _ => ⟨-1, 0, rfl, hfailed⟩
  | some volid =>
  cases hpath : cfg.getServerPath arg with
  | none => exact .pure fun _ _ => ⟨-1, 0, rfl, hfailed⟩
  | some path =>
  obtain ⟨hshort, hcarries, hopened⟩ := hserves path hpath
  have hstat : Ensures (fun d' => d' = d) (onDaemon (cfg.afpSlStat path)) fun r d' =>
      r = ((cfg.afpSlStat path).run d.daemon).1 ∧ d'.written = d.written := by
    rintro _ rfl
    exact ⟨rfl, rfl⟩
  refine .bind hstat ?_
  rintro ⟨ret, size⟩
  refine .assume fun hsize => .orPure (fun _ _ => ⟨-1, 0, rfl, hfailed⟩) ?_
  refine .bind (onDaemon_written hopened) ?_
  rintro ⟨ret, fileid⟩
  refine .assume fun hfile => .ite (fun _ => .pure fun _ _ => ⟨-1, 0, rfl, hfailed⟩) fun hret => ?_
  obtain ⟨hfileid, hhandle⟩ := hfile (not_not.mp hret)
  have hloop := @ensures_retrieveLoop σ φ cfg content d.written daemon volid fileid hcarries hshort
    hfileid hhandle turns 0 (Nat.zero_le _) (by omega)
  rw [take_zero, append_nil] at hloop
  refine .bind hloop fun r => .exists_pre fun result => .assume fun hresult => ?_
  subst hresult
  have hclose : Keeps (CopiedUpTo content d.written result) (onDaemon (cfg.afpSlClose fileid)) := by
    intro d' hd'
    cases result with
    | error ret => exact hd'
    | ok total => exact hd'
  suffices hend : Ensures (CopiedUpTo content d.written result)
      (pure (some (retrieved size result))) _ from
    .ite (fun _ => .bind hclose fun _ => hend) fun _ => hend
  refine .pure fun d' hd' => ⟨_, _, rfl, fun hzero => ⟨path, rfl, ?_⟩⟩
  cases result with
  | error ret => exact hfailed (hd'.symm.trans hzero)
  | ok total =>
    obtain ⟨hfit, hwritten⟩ := hd'
    dsimp only at hzero ⊢
    split at hzero
    · exact absurd hzero (by decide)
    · next hsame =>
      rw [if_neg hsame, ← hsize]
      exact ⟨by omega, hfit, hwritten⟩

/-! ## A short file, in pieces -/

/-- A file of three octets, of which a read brings two at most. -/
def shortFile : Octets := [7, 8, 9]

def shortFileDaemon : ReadDaemon Unit Unit where
  connected _ := some true
  getFileHandle _ := pure (some ())
  mlRead _ size offset :=
    let data := if offset < 0 then [] else (shortFile.drop offset.toNat).take (min 2 size)
    pure (data.length, data, 0)

/-- Each `write` takes one octet. -/
def shortFileConfig : DownloadConfig Unit where
  volid := some 1
  getServerPath arg := some arg
  afpSlStat _ := pure (0, 3)
  afpSlOpen _ := pure (0, 5)
  afpSlClose _ := pure ()
  exchange p := do
    let response ← processRead shortFileDaemon p
    return .ok [.ready ((frameResponse true (outgoingString []) response).getD [])]
  write _ := .wrote 1

theorem shortFile_serves (path : Octets) :
    Serves shortFile shortFileDaemon shortFileConfig path where
  short := by decide
  carries := by
    rintro p s _ ⟨⟩
    refine ⟨true, [], ?_⟩
    simp only [Wakeup.pending, append_nil]
    exact prefix_rfl
  opened := .pure fun _ => ⟨by decide, .pure fun f _ size offset => .pure fun hpos => by
    dsimp only at hpos ⊢
    split at hpos
    · exact absurd hpos (by decide)
    · next hoffset =>
      rw [if_neg hoffset, Int.toNat_natCast, window_length]
      exact ⟨by omega, take_prefix _ _⟩⟩

/-- The short file is downloaded as it is. -/
theorem retrieve_short_file :
    ((retrieveFile shortFileConfig 4 [102]).run ⟨(), [], 0⟩).1 = some (0, 3) ∧
      ((retrieveFile shortFileConfig 4 [102]).run ⟨(), [], 0⟩).2.written = shortFile := by
  have hrun : ((retrieveFile shortFileConfig 4 [102]).run ⟨(), [], 0⟩).1 = some (0, 3) := by
    decide +kernel
  obtain ⟨ret, amount, hret, hdone⟩ := @retrieve_file_exact _ _ shortFileConfig _ _ [102] 4
    (fun path _ => shortFile_serves path) (by decide) ⟨(), [], 0⟩ _ rfl
  obtain ⟨rfl, rfl⟩ : ret = 0 ∧ amount = 3 := by
    rw [hrun] at hret
    cases hret
    exact ⟨rfl, rfl⟩
  obtain ⟨_, _, _, _, hwritten⟩ := hdone rfl
  exact ⟨hrun, hwritten⟩

end Download

end NetatalkClient
