import NetatalkClient.Common.Calls
import NetatalkClient.Midlevel.Model.Metadata
/-!
# Helpers: what the metadata calls return

A call that sets or removes returns zero or a negative error number,
whatever the server answers. A call that reads returns such a number, or
how many octets there are; with a buffer that is no more than fits, and
that many octets are in the buffer.
-/

namespace NetatalkClient

open Octets List

theorem isStatus_zero : IsStatus 0 := by decide

theorem isStatus_neg_eio : IsStatus (-eio) := by decide

theorem isStatus_neg_enoent : IsStatus (-enoent) := by decide

theorem isStatus_neg_enametoolong : IsStatus (-enametoolong) := by decide

/-- What a reading call returns and has put into its buffer. -/
structure Filled (value : Bool) (size : ℕ) (r : ℤ × Octets) : Prop where
  low : -(intMax : ℤ) - 1 ≤ r.1
  high : r.1 ≤ intMax
  fits : value = true → 0 < size → r.1 ≤ size
  octets : value = true → 0 < size → 0 < r.1 → (r.2.length : ℤ) = r.1
  query : size = 0 → 0 < r.1 → r.2 = []

variable {value : Bool} {size : ℕ}

theorem Filled.of_status {ret : ℤ} (h : IsStatus ret) (data : Octets) :
    Filled value size (ret, data) where
  low := h.1
  high := le_trans h.2 (Int.natCast_nonneg _)
  fits _ _ := le_trans h.2 (Int.natCast_nonneg _)
  octets _ _ hpos := absurd h.2 (not_le.mpr hpos)
  query _ hpos := absurd h.2 (not_le.mpr hpos)

/-- A length of what is in the buffer. -/
theorem Filled.of_length {data : Octets} (hmax : data.length ≤ intMax) (hfit : data.length ≤ size) :
    Filled value size (data.length, data) where
  low := by
    dsimp only
    omega
  high := Int.ofNat_le.mpr hmax
  fits _ _ := Int.ofNat_le.mpr hfit
  octets _ _ _ := rfl
  query hzero _ := length_eq_zero_iff.mp (Nat.le_zero.mp (hzero ▸ hfit))

/-- A length where there is no buffer. -/
theorem Filled.of_query {n : ℤ} (hlow : -(intMax : ℤ) - 1 ≤ n) (hhigh : n ≤ intMax) :
    Filled value 0 (n, []) where
  low := hlow
  high := hhigh
  fits _ h := absurd h (lt_irrefl 0)
  octets _ h := absurd h (lt_irrefl 0)
  query _ _ := rfl

namespace AfpCalls

variable {σ : Type} {afp : AfpCalls σ} {volume : MetadataVolume} {host : ByteOrder}
variable {path name : Octets} {forkid flags : ℕ} {data : Octets} {position : ℤ} {turns : ℕ}
variable {rc ret : ℤ} {did offset : ℕ} {basename got : Octets}

/-! ## Below -/

theorem isStatus_ite {c : Prop} [Decidable c] {a b : ℤ} (ha : IsStatus a) (hb : IsStatus b) :
    IsStatus (if c then a else b) := by
  split
  · exact ha
  · exact hb

theorem isStatus_neg_forkParmsErrno (rc : ℤ) : IsStatus (-forkParmsErrno rc) := by
  unfold forkParmsErrno
  simp only [apply_ite Neg.neg]
  exact isStatus_ite (by decide) (isStatus_ite (by decide) (isStatus_ite (by decide)
    (isStatus_ite (by decide) (by decide))))

theorem isStatus_fileDirParmsErrno (rc : ℤ) : IsStatus (fileDirParmsErrno rc) :=
  isStatus_ite (by decide) (isStatus_ite (by decide) (isStatus_ite (by decide) (by decide)))

theorem fileDirParmsErrno_eq_zero : fileDirParmsErrno rc = 0 ↔ rc = 0 := by
  unfold fileDirParmsErrno
  split_ifs with h₁ h₂ h₃
  · exact ⟨fun _ => h₁, fun _ => rfl⟩
  all_goals exact ⟨fun h => absurd h (by decide), fun h => absurd h h₁⟩

theorem eq_zero_of_fileDirParmsErrno (h : ¬fileDirParmsErrno rc < 0) : rc = 0 := by
  have hle := (isStatus_fileDirParmsErrno rc).2
  exact fileDirParmsErrno_eq_zero.mp (by omega)

theorem isStatus_extattrErrno (rc : ℤ) : IsStatus (extattrErrno rc) :=
  isStatus_ite (by decide) (isStatus_ite (by decide) (isStatus_ite (by decide)
    (isStatus_ite (by decide) (by decide))))

theorem isStatus_setExtattrErrno (rc : ℤ) : IsStatus (setExtattrErrno rc) :=
  isStatus_ite (by decide) (isStatus_ite (by decide) (isStatus_ite (by decide)
    (isStatus_ite (by decide) (isStatus_ite (by decide) (by decide)))))

theorem isStatus_validateXattrFlags (flags : ℕ) : IsStatus (validateXattrFlags flags) :=
  isStatus_ite (by decide) (by decide)

/-- The error of a path that cannot be converted. -/
theorem isStatus_convertPathToAfpAlloc {encoding : PathEncoding}
    (h : convertPathToAfpAlloc host encoding path = .error ret) : IsStatus ret := by
  unfold convertPathToAfpAlloc at h
  split at h
  · cases h
    decide
  dsimp only at h
  split at h
  · cases h
    decide
  split at h
  · cases h
    decide
  · cases h

/-- An error is a status, and a success is as `p` says. -/
def StatusOr {α : Type} (p : α → Prop) : Except ℤ α → Prop
  | .error ret => IsStatus ret
  | .ok a => p a

theorem returns_llSetforkSize :
    Returns (afp.llSetforkSize forkid size) fun ret => IsStatus (-ret) :=
  .bind_any fun rc => .pure (isStatus_neg_forkParmsErrno rc)

theorem returns_zeroResource :
    Returns (afp.zeroResource forkid data position) fun ret => IsStatus (-ret) :=
  .ite (fun _ => returns_llSetforkSize) fun _ => .pure (by decide)

/-- The FinderInfo that is read has its 32 octets. -/
theorem returns_readFinderinfo :
    Returns (afp.readFinderinfo did basename) fun r =>
      (r.1 < 0 → IsStatus r.1) ∧ (¬r.1 < 0 → r.2.length = 32) := by
  unfold readFinderinfo
  refine .bind_any ?_
  rintro ⟨rc, finderinfo⟩
  refine .ite (fun hneg => .pure ⟨fun _ => isStatus_fileDirParmsErrno rc, fun h => ?_⟩) fun _ => ?_
  · exact absurd hneg h
  · exact .pure ⟨fun h => absurd h (by omega), fun _ => length_window _ _⟩

theorem returns_writeFinderinfo :
    Returns (afp.writeFinderinfo did basename data) fun r => r.1 < 0 → IsStatus r.1 := by
  unfold writeFinderinfo
  refine .bind_any ?_
  rintro ⟨rc, previous⟩
  refine .orPure (fun _ => isStatus_fileDirParmsErrno rc) ?_
  refine .bind_any fun rc => .ite (fun _ => .pure fun _ => isStatus_fileDirParmsErrno rc) ?_
  exact fun _ => .pure fun h => absurd h (by omega)

theorem returns_openMeta : Returns (afp.openMeta volume host path) (StatusOr fun _ => True) := by
  unfold openMeta
  split
  · next ret hret => exact .pure (isStatus_convertPathToAfpAlloc hret)
  · refine .ite (fun _ => .pure ?_) fun _ => .bind_any ?_
    · exact (by decide : IsStatus (-enametoolong))
    · rintro ⟨ret, did, basename⟩
      exact .orPure (by decide : IsStatus (-enoent)) <| .pure trivial

theorem returns_openResource {write : Bool} :
    Returns (afp.openResource volume host path write) (StatusOr fun _ => True) := by
  unfold openResource
  refine .bind returns_openMeta ?_
  rintro (ret | ⟨did, basename⟩) hopen
  · exact .pure hopen
  · refine .bind_any ?_
    rintro ⟨ret, fork⟩
    exact .orPure ret.property <| .pure trivial

theorem returns_closeResource {dirty : Bool} :
    Returns (afp.closeResource forkid dirty) IsStatus := by
  unfold closeResource
  refine .bind_any fun _ => .bind_any fun _ => ?_
  refine .ite (fun _ => .pure ?_) fun _ => .pure ?_
  · exact (by decide : IsStatus (-eio))
  · exact isStatus_ite (by decide) (by decide)

/-! ## Reading a fork -/

/-- The error number that the loop of `ll_read` ends with, or what it has
read. -/
theorem returns_llReadLoop (hgot : got.length ≤ size) :
    Returns (afp.llReadLoop volume forkid size offset turns got) fun
      | .error err => IsStatus (-err) ∧ err ≠ 0
      | .ok (data, _) => data.length ≤ size := by
  induction turns generalizing got with
  | zero => exact .pure hgot
  | succ turns ih =>
    unfold llReadLoop
    refine .ite (fun _ => .pure hgot) fun hmore => ?_
    refine .orPure (by decide : IsStatus (-efbig) ∧ efbig ≠ 0) ?_
    refine .bind_any ?_
    rintro ⟨rc, data⟩
    have hgrown : (got ++ data.take (min volume.rxQuantum (size - got.length))).length ≤ size := by
      rw [length_append, length_take]
      omega
    refine .orPure (by decide : IsStatus (-eacces) ∧ eacces ≠ 0) ?_
    refine .orPure (by decide : IsStatus (-ebusy) ∧ ebusy ≠ 0) ?_
    refine .orPure (by decide : IsStatus (-eio) ∧ eio ≠ 0) ?_
    refine .orPure hgrown ?_
    exact .orPure hgot <| ih hgrown

/-- **What `ll_read` returns**: a negative error number, or the length of
what it read, which is no more than was asked for. -/
theorem returns_llRead {offset : ℤ} :
    Returns (afp.llRead volume forkid size offset) fun r =>
      (IsStatus r.1 ∧ r.1 ≠ 0) ∨ (r.1 = r.2.1.length ∧ r.2.1.length ≤ size) := by
  unfold llRead
  refine .orPure (.inr ⟨rfl, Nat.zero_le _⟩) ?_
  refine .orPure (.inl (by decide)) <| .bind_any fun _ => ?_
  refine .orPure (.inl (by decide)) <| .bind_any fun locked => ?_
  refine .orPure (.inl (by decide)) ?_
  refine .bind (returns_llReadLoop (Nat.zero_le _)) ?_
  rintro (err | ⟨got, eof⟩) hloop
  · exact .bind_any fun _ => .pure (.inl ⟨hloop.1, Int.neg_ne_zero.mpr hloop.2⟩)
  · refine .bind_any fun unlocked => .ite (fun _ => .bind_any fun _ => .pure (.inl ?_)) ?_
    · exact (by decide : IsStatus (-eio) ∧ -eio ≠ 0)
    exact fun _ => .pure (.inr ⟨rfl, le_trans hloop (min_le_left _ _)⟩)

theorem returns_getResourceLoop {position remaining : ℕ} (hgot : got.length ≤ size) :
    Returns (afp.getResourceLoop volume forkid size position remaining turns got)
      (StatusOr fun data => data.length ≤ size) := by
  induction turns generalizing got with
  | zero => exact .pure hgot
  | succ turns ih =>
    unfold getResourceLoop
    refine .ite (fun _ => .pure hgot) fun hmore => .bind returns_llRead ?_
    rintro ⟨ret, data, eof⟩ hread
    refine .ite (fun hneg => .pure ?_) fun hok => ?_
    · rcases hread with ⟨hstatus, -⟩ | ⟨hlen, -⟩
      · exact hstatus
      · dsimp only at hlen
        omega
    · have hgrown : (got ++ data).length ≤ size := by
        rcases hread with ⟨hstatus, hne⟩ | ⟨-, hdata⟩
        · have := hstatus.2
          dsimp only at this hne
          omega
        · rw [length_append]
          dsimp only at hdata
          omega
      exact .orPure hgot <| .orPure hgrown <| ih hgrown

theorem filled_mlGetresourcefork :
    Returns (afp.mlGetresourcefork volume host path value size position) (Filled value size) := by
  unfold mlGetresourcefork
  refine .orPure (.of_status (by decide) _) ?_
  split
  · next ret hret => exact .pure (.of_status (isStatus_convertPathToAfpAlloc hret) _)
  · refine .bind_any ?_
    rintro ⟨ret, stSize⟩
    refine .orPure (.of_status ret.property _) ?_
    refine .orPure (.of_status (by decide) _) ?_
    refine .ite (fun hzero => ?_) fun hsize => ?_
    · subst hzero
      refine .ite (fun _ => .pure (.of_status (by decide) _)) fun hmax => .pure ?_
      exact .of_query (by omega) (by omega)
    · refine .orPure (.of_status (by decide) _) ?_
      refine .bind returns_openResource ?_
      rintro (ret | fork) hopen
      · exact .pure (.of_status hopen _)
      · refine .bind (returns_getResourceLoop (Nat.zero_le _)) ?_
        rintro (ret | got) hloop
        · exact .bind_any fun _ => .pure (.of_status hloop _)
        · refine .bind_any fun _ => .ite (fun _ => .pure (.of_status (by decide) _)) fun hmax => ?_
          exact .pure (.of_length (Nat.le_of_not_lt hmax) hloop)

/-! ## Writing a fork -/

theorem returns_llWriteLoop {total : ℕ} :
    Returns (afp.llWriteLoop volume forkid data offset turns total) fun r => IsStatus (-r.1) := by
  induction turns generalizing total with
  | zero => exact .pure (by decide : IsStatus (-0))
  | succ turns ih =>
    unfold llWriteLoop
    refine .orPure (by decide : IsStatus (-0)) <| .bind_any ?_
    rintro ⟨rc, reply⟩
    refine .orPure (by decide : IsStatus (-eacces)) ?_
    refine .orPure (by decide : IsStatus (-enospc)) ?_
    refine .orPure (by decide : IsStatus (-einval)) ?_
    refine .orPure (by decide : IsStatus (-eio)) ?_
    refine .orPure (by decide : IsStatus (-eio)) ?_
    exact .orPure (by decide : IsStatus (-eio)) <| ih

theorem returns_llWrite {offset : ℤ} :
    Returns (afp.llWrite volume forkid data offset) fun r => IsStatus r.1 := by
  unfold llWrite
  refine .orPure (by decide : IsStatus (-eio)) <| .bind_any fun locked => ?_
  refine .orPure (by decide : IsStatus (-ebusy)) ?_
  refine .bind returns_llWriteLoop ?_
  rintro ⟨err, total⟩ hloop
  refine .ite (fun _ => .bind_any fun _ => .pure hloop) fun _ => ?_
  refine .bind_any fun unlocked => .ite (fun _ => .bind_any fun _ => .pure ?_) fun _ => .pure ?_
  · exact (by decide : IsStatus (-eio))
  · exact (by decide : IsStatus 0)

theorem returns_mlSetresourcefork :
    Returns (afp.mlSetresourcefork volume host path data position) IsStatus := by
  unfold mlSetresourcefork
  refine .orPure (by decide) <| .orPure (by decide) ?_
  refine .orPure (by decide) <| .bind returns_openResource ?_
  rintro (ret | fork) hopen
  · exact .pure hopen
  · refine .bind returns_zeroResource fun ret hzero => ?_
    refine .ite (fun _ => .bind_any fun _ => .pure hzero) fun _ => ?_
    refine .ite (fun _ => returns_closeResource) fun _ => .bind returns_llWrite ?_
    rintro ⟨ret, written, dirty⟩ hwrite
    refine .ite (fun _ => .bind_any fun _ => .pure hwrite) fun _ => ?_
    refine .ite (fun _ => .bind_any fun _ => .pure ?_) fun _ => returns_closeResource
    exact (by decide : IsStatus (-eio))

theorem isStatus_validateSpecialXattrFlags (hlow : -(intMax : ℤ) - 1 ≤ ret) :
    IsStatus (validateSpecialXattrFlags flags ret) := by
  unfold validateSpecialXattrFlags
  dsimp only
  refine isStatus_ite (by decide) ?_
  split
  · next hneg => exact ⟨hlow, by omega⟩
  · exact isStatus_ite (by decide) (isStatus_ite (by decide) (by decide))

theorem returns_checkSpecialFlags {get : StateM σ (ℤ × Octets)}
    (hget : Returns get (Filled value size)) : Returns (checkSpecialFlags flags get) IsStatus := by
  unfold checkSpecialFlags
  refine .ite (fun _ => .bind hget ?_) fun _ => .pure (by decide)
  rintro ⟨ret, data⟩ hret
  exact .pure (isStatus_validateSpecialXattrFlags hret.low)

theorem returns_mlSetresourceforkFlags :
    Returns (afp.mlSetresourceforkFlags volume host path data position flags) IsStatus := by
  unfold mlSetresourceforkFlags
  refine .orPure (isStatus_validateXattrFlags flags) ?_
  refine .bind (returns_checkSpecialFlags filled_mlGetresourcefork) fun ret hret => ?_
  exact .orPure hret <| returns_mlSetresourcefork

theorem returns_mlTruncateresourcefork :
    Returns (afp.mlTruncateresourcefork volume host path size) IsStatus := by
  unfold mlTruncateresourcefork
  refine .orPure (by decide) <| .orPure (by decide) ?_
  refine .bind returns_openResource ?_
  rintro (ret | fork) hopen
  · exact .pure hopen
  · refine .bind returns_llSetforkSize fun ret hret => .bind returns_closeResource ?_
    intro closeRet hclose
    exact .orPure hret <| .pure (isStatus_ite hclose (by decide))

theorem returns_mlRemoveresourcefork :
    Returns (afp.mlRemoveresourcefork volume host path) IsStatus := by
  unfold mlRemoveresourcefork
  refine .bind filled_mlGetresourcefork ?_
  rintro ⟨ret, data⟩ hget
  refine .ite (fun hneg => .pure ⟨hget.low, ?_⟩) fun _ => returns_mlSetresourcefork
  exact le_of_lt hneg.1

/-! ## The FinderInfo -/

theorem filled_mlGetfinderinfo :
    Returns (afp.mlGetfinderinfo volume host path value size) (Filled value size) := by
  unfold mlGetfinderinfo
  refine .bind returns_openMeta ?_
  rintro (ret | ⟨did, basename⟩) hopen
  · exact .pure (.of_status hopen _)
  · refine .bind returns_readFinderinfo ?_
    rintro ⟨ret, finderinfo⟩ hread
    refine .ite (fun hneg => .pure (.of_status (hread.1 hneg) _)) fun hok => ?_
    have hlen : finderinfo.length = 32 := hread.2 hok
    refine .orPure (.of_status (by decide) _) ?_
    refine .ite (fun hzero => .pure ?_) fun _ => .ite (fun _ => .pure ?_) fun hfit => .pure ?_
    · subst hzero
      exact .of_query (by decide) (by decide)
    · exact .of_status (by decide) _
    · rw [show (32 : ℤ) = finderinfo.length by rw [hlen]; rfl]
      refine .of_length (by rw [hlen]; decide) ?_
      exact Nat.le_of_not_lt fun hlt => hfit (.inr (hlen ▸ hlt))

theorem returns_mlSetfinderinfo : Returns (afp.mlSetfinderinfo volume host path data) IsStatus := by
  unfold mlSetfinderinfo
  refine .orPure (by decide) <| .orPure (by decide) ?_
  refine .bind returns_openMeta ?_
  rintro (ret | ⟨did, basename⟩) hopen
  · exact .pure hopen
  · refine .bind returns_writeFinderinfo ?_
    rintro ⟨ret, written⟩ hwrite
    refine .ite (fun hneg => .pure (hwrite hneg)) fun _ => ?_
    exact .orPure (by decide) <| .pure (by decide)

theorem returns_mlSetfinderinfoFlags :
    Returns (afp.mlSetfinderinfoFlags volume host path data flags) IsStatus := by
  unfold mlSetfinderinfoFlags
  refine .orPure (isStatus_validateXattrFlags flags) ?_
  refine .bind (returns_checkSpecialFlags filled_mlGetfinderinfo) fun ret hret => ?_
  exact .orPure hret <| returns_mlSetfinderinfo

theorem returns_mlRemovefinderinfo :
    Returns (afp.mlRemovefinderinfo volume host path) IsStatus := returns_mlSetfinderinfo

/-! ## Extended attributes -/

/-- No lookup of the directories of a path times out, in this state. -/
def Resolves (afp : AfpCalls σ) (path : Octets) (s : σ) : Prop :=
  IsStatus ((afp.getDirid path).run s).1.1

theorem ensures_getDirid :
    Ensures (afp.Resolves path) (afp.getDirid path) fun r _ => IsStatus r.1 := fun _ h => h

theorem ensures_extattrTarget :
    Ensures (afp.Resolves path) (afp.extattrTarget path name) fun r _ =>
      StatusOr (fun _ => True) r := by
  unfold extattrTarget
  split
  · next ret hret =>
    refine .pure fun _ _ => ?_
    unfold normalizeXattrName at hret
    split at hret
    · cases hret
      exact (by decide : IsStatus (-enametoolong))
    · cases hret
  · refine .bind ensures_getDirid ?_
    rintro ⟨ret, dirid, basename⟩
    exact .orPure (fun _ hret => hret) <| .pure fun _ _ => trivial

/-- The size of an attribute as the `int` that is returned. -/
theorem toInt_size (info : AfpExtattrInfo) :
    -(intMax : ℤ) - 1 ≤ toInt info.size.toNat ∧ toInt info.size.toNat ≤ intMax ∧
      toInt info.size.toNat ≤ info.size.toNat := by
  have hword := info.size.toNat_lt
  simp only [toInt, intMax]
  split
  all_goals omega

theorem filled_mlGetxattr :
    Ensures (afp.Resolves path) (afp.mlGetxattr volume host path name value size) fun r _ =>
      Filled value size r := by
  unfold mlGetxattr
  refine .ite (fun _ => filled_mlGetresourcefork.ensures) fun _ => ?_
  refine .ite (fun _ => filled_mlGetfinderinfo.ensures) fun _ => ?_
  refine .orPure (fun _ _ => .of_status (by decide) _) ?_
  refine .orPure (fun _ _ => .of_status (by decide) _) ?_
  refine .orPure (fun _ _ => .of_status (by decide) _) ?_
  refine .bind ensures_extattrTarget ?_
  rintro (ret | ⟨dirid, basename, afpName⟩)
  · exact .pure fun _ htarget => .of_status htarget _
  · refine Returns.ensures (.bind_any ?_)
    rintro ⟨rc, info⟩
    refine .orPure (.of_status (isStatus_extattrErrno rc) _) ?_
    refine .ite (fun hzero => .pure ?_) fun hne => ?_
    · subst hzero
      exact .of_query (toInt_size info).1 (toInt_size info).2.1
    · refine .ite (fun _ => .pure (.of_status (by decide) _)) fun hsize => ?_
      refine .ite (fun _ => .pure (.of_status (by decide) _)) fun hcopied => .pure ?_
      rw [not_lt] at hsize hcopied
      obtain ⟨hlow, hhigh, hle⟩ := toInt_size info
      refine ⟨hlow, hhigh, fun _ _ => le_trans hle (Int.ofNat_le.mpr hsize), ?_, fun h _ => ?_⟩
      · intro hvalue _ hpos
        rw [if_pos hvalue, length_take, min_eq_left hcopied]
        simp only [toInt] at hpos ⊢
        split at hpos
        · next hsmall => rw [if_pos hsmall]
        · have := info.size.toNat_lt
          omega
      · exact absurd h hne

theorem ensures_mlSetxattr :
    Ensures (afp.Resolves path) (afp.mlSetxattr volume host path name data flags) fun ret _ =>
      IsStatus ret := by
  unfold mlSetxattr
  refine .orPure (fun _ _ => isStatus_validateXattrFlags flags) ?_
  refine .ite (fun _ => returns_mlSetresourceforkFlags.ensures) fun _ => ?_
  refine .ite (fun _ => returns_mlSetfinderinfoFlags.ensures) fun _ => ?_
  refine .orPure (fun _ _ => isStatus_zero) ?_
  refine .orPure (fun _ _ => isStatus_zero) ?_
  refine .orPure (fun _ _ => isStatus_zero) <| .bind ensures_extattrTarget ?_
  rintro (ret | ⟨dirid, basename, afpName⟩)
  · exact .pure fun _ htarget => htarget
  · exact Returns.ensures (.bind_any fun rc => .pure (isStatus_setExtattrErrno rc))

theorem ensures_mlRemovexattr :
    Ensures (afp.Resolves path) (afp.mlRemovexattr volume host path name) fun ret _ =>
      IsStatus ret := by
  unfold mlRemovexattr
  refine .ite (fun _ => returns_mlRemoveresourcefork.ensures) fun _ => ?_
  refine .ite (fun _ => returns_mlRemovefinderinfo.ensures) fun _ => ?_
  refine .orPure (fun _ _ => by decide) ?_
  refine .orPure (fun _ _ => by decide) ?_
  refine .orPure (fun _ _ => by decide) <| .bind ensures_extattrTarget ?_
  rintro (ret | ⟨dirid, basename, afpName⟩)
  · exact .pure fun _ htarget => htarget
  · exact Returns.ensures (.bind_any fun rc => .pure (isStatus_extattrErrno rc))

/-- An error, or a list no longer than the buffer it is made in. -/
def ListFits (value : Bool) (size : ℕ) : Except ℤ Octets → Prop
  | .error ret => IsStatus ret
  | .ok list => value = true → 0 < size → list.length ≤ size

theorem listFits_listNames (turns : ℕ) (src list : Octets)
    (hlist : value = true → 0 < size → list.length ≤ size) :
    ListFits value size (listNames value size turns src list) := by
  induction turns generalizing src list with
  | zero => exact hlist
  | succ turns ih =>
    unfold listNames
    dsimp only
    split
    · exact hlist
    split
    · exact (by decide : IsStatus (-eio))
    split
    · exact ih _ _ hlist
    split
    · exact (by decide : IsStatus (-enametoolong))
    split
    · exact (by decide : IsStatus (-erange))
    · next hfit =>
      exact ih _ _ fun hvalue hsize => Nat.le_of_not_lt fun hlt => hfit ⟨hvalue, hsize, hlt⟩

/-- Without a size it makes no difference whether there is a buffer. -/
theorem listNames_no_size (turns : ℕ) (src list : Octets) :
    listNames true 0 turns src list = listNames false 0 turns src list := by
  induction turns generalizing src list with
  | zero => rfl
  | succ turns ih => simp only [listNames, ih, lt_irrefl, false_and, and_false, if_false]

theorem listedXattrs_no_size (info : AfpExtattrInfo) :
    listedXattrs info true 0 = listedXattrs info false 0 := by
  simp only [listedXattrs, listNames_no_size, lt_irrefl, and_false, if_false]

theorem filled_listedXattrs (info : AfpExtattrInfo) :
    Filled value size (listedXattrs info value size) := by
  unfold listedXattrs
  dsimp only
  split
  · exact .of_status (by decide) _
  have hfits := listFits_listNames (info.data.take afpExtattrListMax).length
    (info.data.take afpExtattrListMax) [] fun (_ : value = true) (_ : 0 < size) => Nat.zero_le _
  split
  · next ret hret => exact .of_status (by rwa [hret] at hfits) _
  · next list hlist =>
    rw [hlist] at hfits
    split
    · exact .of_status (by decide) _
    · next hmax =>
      refine ⟨by omega, by omega, fun hvalue hsize => ?_, fun hvalue hsize _ => ?_, fun h _ => ?_⟩
      · exact Int.ofNat_le.mpr (hfits hvalue hsize)
      · rw [if_pos ⟨hvalue, hsize⟩]
      · exact if_neg fun hboth => absurd hboth.2 (by omega)

theorem filled_mlListxattr :
    Ensures (afp.Resolves path) (afp.mlListxattr volume path value size) fun r _ =>
      Filled value size r := by
  unfold mlListxattr
  refine .ite (fun _ => .bind ensures_getDirid ?_) fun _ => .pure fun _ _ => filled_listedXattrs _
  rintro ⟨ret, dirid, basename⟩
  refine .orPure (fun _ hret => .of_status hret _) <| Returns.ensures ?_
  refine .bind_any ?_
  rintro ⟨rc, info⟩
  refine .orPure (filled_listedXattrs _) ?_
  refine .orPure (.of_status (by decide) _) ?_
  refine .orPure (.of_status (by decide) _) ?_
  exact .orPure (filled_listedXattrs _) <| .pure (.of_status (by decide) _)

/-! ## What calls on an open fork keep -/

/-- The calls on a fork that is open keep `P`. -/
structure ForkCallsKeep (afp : AfpCalls σ) (P : σ → Prop) : Prop where
  lock : ∀ forkid offset n, Ensures P (afp.llHandleLocking forkid offset n) fun _ => P
  unlock : ∀ forkid offset n, Ensures P (afp.llHandleUnlocking forkid offset n) fun _ => P
  flushDirty : ∀ forkid, Ensures P (afp.flushDirtyForksForFile forkid) fun _ => P
  read : ∀ forkid offset n, Ensures P (afp.afpRead forkid offset n) fun _ => P
  write : ∀ forkid offset data, Ensures P (afp.afpWrite forkid offset data) fun _ => P
  flush : ∀ forkid, Ensures P (afp.afpFlushfork forkid) fun _ => P
  close : ∀ forkid, Ensures P (afp.afpClosefork forkid) fun _ => P
  setforkparms : ∀ forkid size, Ensures P (afp.afpSetforkparms forkid size) fun _ => P

namespace ForkCallsKeep

variable {P : σ → Prop} (h : ForkCallsKeep afp P) {turns : ℕ} {data : Octets} {got : Octets}
variable {offset : ℕ}

include h

theorem llReadLoop : Keeps P (afp.llReadLoop volume forkid size offset turns got) := by
  induction turns generalizing got with
  | zero => exact .kept
  | succ turns ih =>
    unfold AfpCalls.llReadLoop
    refine .orKept <| .orKept ?_
    refine .bind (h.read _ _ _) ?_
    rintro ⟨rc, data⟩
    refine .orKept <| .orKept ?_
    refine .orKept <| .orKept ?_
    exact .orKept <| ih

theorem llRead {offset : ℤ} : Keeps P (afp.llRead volume forkid size offset) := by
  unfold AfpCalls.llRead
  refine .orKept <| .orKept ?_
  refine .bind (h.flushDirty _) fun _ => .orKept ?_
  refine .bind (h.lock _ _ _) fun _ => .orKept ?_
  refine .bind h.llReadLoop ?_
  rintro (err | ⟨got, eof⟩)
  · exact .bind (h.unlock _ _ _) fun _ => .kept
  · refine .bind (h.unlock _ _ _) fun _ => .ite (fun _ => ?_) fun _ => .kept
    exact .bind (h.unlock _ _ _) fun _ => .kept

theorem getResourceLoop {position remaining : ℕ} :
    Keeps P (afp.getResourceLoop volume forkid size position remaining turns got) := by
  induction turns generalizing got with
  | zero => exact .kept
  | succ turns ih =>
    unfold AfpCalls.getResourceLoop
    refine .orKept <| .bind h.llRead ?_
    rintro ⟨ret, data, eof⟩
    refine .orKept <| .orKept ?_
    exact .orKept <| ih

theorem llWriteLoop {total : ℕ} :
    Keeps P (afp.llWriteLoop volume forkid data offset turns total) := by
  induction turns generalizing total with
  | zero => exact .kept
  | succ turns ih =>
    unfold AfpCalls.llWriteLoop
    refine .orKept <| .bind (h.write _ _ _) ?_
    rintro ⟨rc, reply⟩
    refine .orKept <| .orKept ?_
    refine .orKept <| .orKept ?_
    refine .orKept ?_
    exact .orKept <| ih

theorem llWrite {offset : ℤ} : Keeps P (afp.llWrite volume forkid data offset) := by
  unfold AfpCalls.llWrite
  refine .orKept <| .bind (h.lock _ _ _) fun _ => ?_
  refine .orKept <| .bind h.llWriteLoop ?_
  rintro ⟨err, total⟩
  refine .ite (fun _ => .bind (h.unlock _ _ _) fun _ => .kept) fun _ => ?_
  refine .bind (h.unlock _ _ _) fun _ => .ite (fun _ => ?_) fun _ => .kept
  exact .bind (h.unlock _ _ _) fun _ => .kept

theorem closeResource {dirty : Bool} : Keeps P (afp.closeResource forkid dirty) := by
  have hflush : Keeps P (afp.flushResource forkid dirty) :=
    .ite (fun _ => h.flush forkid) fun _ => .kept
  unfold AfpCalls.closeResource
  refine .bind hflush fun _ => .bind (h.close _) fun _ => ?_
  exact .orKept <| .kept

theorem zeroResource {position : ℤ} : Keeps P (afp.zeroResource forkid data position) :=
  .ite (fun _ => .bind (h.setforkparms _ _) fun _ => .kept) fun _ => .kept

end ForkCallsKeep

end AfpCalls

end NetatalkClient
