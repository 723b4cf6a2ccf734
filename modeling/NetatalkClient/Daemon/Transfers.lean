import NetatalkClient.Daemon.Model.Transfers
import NetatalkClient.Daemon.Read
import NetatalkClient.Lowlevel.Model.Transfers
/-!
# The sizes of READ and WRITE

A READ is answered with what `ml_read` has put into the response, as long
as the response and the length together are less than 2^32: beyond that the
allocation is smaller than the head of the response. The data of a WRITE
reaches `ml_write` as long as its size is an `int`: beyond that none of it
is read, and `ml_write` is given the memory as it was found.
`transfers_honoured_iff` says both.
-/

namespace NetatalkClient

open Octets List

/-! ## What `ml_read` delivers -/

/-- A result that is an error, or the number of octets in the buffer, and no
more than were asked for. -/
def Delivered (size : ℕ) (r : ℤ × Octets × ℕ) : Prop :=
  0 ≤ r.1 → r.1 = r.2.1.length ∧ r.2.1.length ≤ size

variable {size length : ℕ} {σ φ : Type} {data p : Octets} {daemon : ReadDaemon σ φ} {s : σ}
variable {result : ReadResult} {resource fileid volid : ℕ}

theorem delivered_of_neg {r : ℤ × Octets × ℕ} (h : r.1 < 0) : Delivered size r :=
  fun hnonneg => absurd h (not_lt.mpr hnonneg)

theorem convertPathToAfpAlloc_neg {host : ByteOrder} {encoding : PathEncoding} {path : Octets}
    {ret : ℤ} (h : convertPathToAfpAlloc host encoding path = .error ret) : ret < 0 := by
  unfold convertPathToAfpAlloc at h
  split at h
  · cases h
    decide
  dsimp only at h
  split at h
  · cases h
    decide
  split at h
  · cases h
    decide
  · cases h

theorem afpGetcommentReply_le {allocated : Bool} {maxsize : ℕ} {buf comment : Octets}
    (h : afpGetcommentReply allocated maxsize buf = .ok comment) : comment.length ≤ maxsize := by
  unfold afpGetcommentReply at h
  split at h
  · cases h
  split at h
  · cases h
  dsimp only at h
  split at h
  · cases h
  next hroom =>
  cases h
  rw [length_take]
  omega

section Reading

variable {σ : Type} (afp : FileCalls σ) (volume : MetadataVolume) (host : ByteOrder)
variable (malloc : ℕ → Bool) (icon : Octets)

/-- `appledouble_read` reads no more than was asked for. -/
theorem returns_appledoubleRead (fp : OpenedFile) (size : ℕ) (offset : ℤ) :
    Returns (afp.appledoubleRead volume malloc icon fp size offset) fun r =>
      r.2.1.length ≤ size := by
  have hnone : ∀ {ret : ℤ} {eof : ℕ}, Returns (σ := σ) (pure (ret, ([] : Octets), eof)) fun r =>
      r.2.1.length ≤ size := .pure (Nat.zero_le _)
  unfold FileCalls.appledoubleRead
  cases fp.resource with
  | none => exact hnone
  | resource =>
    refine .bind AfpCalls.returns_llRead ?_
    rintro ⟨ret, data, eof⟩ hread
    refine .ite (fun _ => hnone) fun hret => .pure ?_
    rcases hread with ⟨⟨-, hle⟩, hne⟩ | ⟨-, hle⟩
    · exact absurd (lt_of_le_of_ne hle hne) hret
    · exact hle
  | appledouble => exact hnone
  | finderinfo =>
    refine .ite (fun _ => hnone) fun _ => .bind_any ?_
    rintro ⟨rc, finderinfo⟩
    refine .ite (fun _ => hnone) fun _ => .pure ?_
    exact (length_window _ _).trans_le (min_le_left _ _)
  | comment =>
    refine .ite (fun _ => hnone) fun _ => .bind_any fun atEnd => .ite (fun _ => hnone) fun _ => ?_
    refine .bind_any fun reply => ?_
    rcases reply with rc | reply
    · exact hnone
    dsimp only
    cases hreply : afpGetcommentReply (malloc size) size reply with
    | error rc => exact hnone
    | ok comment => exact .bind_any fun _ => .pure (afpGetcommentReply_le hreply)
  | serverIcon =>
    refine .ite (fun _ => hnone) fun _ => .bind_any fun _ => .pure ?_
    exact (length_window _ _).trans_le (min_le_left _ _)

/-- **`ml_read` delivers no more than it was asked for.** -/
theorem returns_mlRead (path : Option Octets) (fp : OpenedFile) (size : ℕ) (offset : ℤ) :
    Returns (afp.mlRead volume host malloc icon path fp size offset) (Delivered size) := by
  have hread : Returns (afp.appledoubleRead volume malloc icon fp size offset >>= fun r =>
      if r.1 < 0 then pure (r.1, [], r.2.2)
      else if r.1 = 1 then pure ((r.2.1.length : ℤ), r.2.1, r.2.2)
      else afp.llRead volume fp.forkid size offset >>= fun r => pure (r.1, r.2.1, r.2.2.toNat))
      (Delivered size) := by
    refine .bind (returns_appledoubleRead afp volume malloc icon fp size offset) fun r hr => ?_
    refine .ite (fun hret => .pure (delivered_of_neg hret)) fun _ => ?_
    refine .orPure (fun _ => ⟨rfl, hr⟩) ?_
    refine .bind AfpCalls.returns_llRead fun r hr => .pure fun hret => ?_
    rcases hr with ⟨⟨-, hle⟩, hne⟩ | hdelivered
    · exact absurd (le_antisymm hle hret) hne
    · exact hdelivered
  unfold FileCalls.mlRead
  cases path with
  | none => exact hread
  | some path =>
    dsimp only [Option.map_some]
    cases hconverted : convertPathToAfpAlloc host volume.pathEncoding path with
    | error ret => exact .pure (delivered_of_neg (convertPathToAfpAlloc_neg hconverted))
    | ok converted => exact hread

open AfpCalls in
/-- **What is read fits where it goes**, whatever the server answers: a call
stores what it says, and no more than there is room for. -/
theorem reads_fit (path : Option Octets) (fp : OpenedFile) (size : ℕ) (offset : ℤ)
    (file name : Octets) (value : Bool) :
    Returns (afp.mlRead volume host malloc icon path fp size offset) (Delivered size) ∧
      Returns (afp.mlGetresourcefork volume host file value size offset) (Filled value size) ∧
      Returns (afp.mlGetfinderinfo volume host file value size) (Filled value size) ∧
      Ensures (afp.Resolves file) (afp.mlGetxattr volume host file name value size)
        (fun r _ => Filled value size r) ∧
      Ensures (afp.Resolves file) (afp.mlListxattr volume file value size)
        fun r _ => Filled value size r :=
  ⟨returns_mlRead _ _ _ _ _ _ _ _ _, filled_mlGetresourcefork, filled_mlGetfinderinfo,
    filled_mlGetxattr, filled_mlListxattr⟩

end Reading

/-! ## READ -/

/-- How a READ is to be answered: with an error, or with what `ml_read` has
delivered, at most the length that was asked for, in a response with room
for it. Where there is no memory for a response, the connection is closed. -/
inductive ReadHonoured {σ φ : Type} (daemon : ReadDaemon σ φ) (p : Octets) (s : σ) :
    ReadAnswer → Prop
  | refused : ReadHonoured daemon p s .refused
  | error {allocated eof : ℕ} {result : ReadResult} (hresult : result ≠ .ok) :
      ReadHonoured daemon p s (.sent allocated result eof [])
  | delivered {allocated eof : ℕ} {data : Octets} {fp : φ} {s' : σ}
      (hhandle : (daemon.getFileHandle (ReadPacket.fileid p)).run s = (some fp, s'))
      (hread : ((daemon.mlRead fp (ReadPacket.length p) (offT (ReadPacket.start p))).run s').1 =
        ((data.length : ℤ), data, eof))
      (hlength : data.length ≤ ReadPacket.length p)
      (hroom : ipcReadResponseSize + data.length ≤ allocated) :
      ReadHonoured daemon p s (.sent allocated .ok eof data)

theorem ReadHonoured.room {allocated eof : ℕ}
    (h : ReadHonoured daemon p s (.sent allocated .ok eof data)) :
    ipcReadResponseSize + data.length ≤ allocated := by
  cases h with
  | error hresult => exact absurd rfl hresult
  | delivered _ _ _ hroom => exact hroom

/-- Every READ of a length is honoured, whatever the daemon finds. -/
def ReadsHonoured (length : ℕ) : Prop :=
  ∀ (σ : Type) (daemon : FileDaemon σ) (p : Octets) (s : σ), ReadPacket.length p = length →
    ReadHonoured daemon.reading p s
      ((processReadAllocating daemon.reading daemon.malloc p).run s).1

theorem readHonoured_answerAlone (malloc : ℕ → Bool) (hresult : result ≠ .ok) :
    ReadHonoured daemon p s (answerAlone malloc result) := by
  unfold answerAlone
  split
  · exact .error hresult
  · exact .refused

/-- **A READ is honoured if its response can be allocated.** -/
theorem readsHonoured_of_lt (h : length + ipcReadResponseSize < 4294967296) :
    ReadsHonoured length := by
  intro σ daemon p s hlength
  unfold processReadAllocating
  rw [apply_ite (fun m : StateM σ ReadAnswer => (m.run s).1)]
  split
  · exact readHonoured_answerAlone daemon.malloc (by decide)
  rcases daemon.reading.connected (ReadPacket.volumeid p) with _ | _ | _
  · exact readHonoured_answerAlone daemon.malloc (by decide)
  · exact readHonoured_answerAlone daemon.malloc (by decide)
  have hroom : readAllocation (ReadPacket.length p) = ipcReadResponseSize + length := by
    rw [readAllocation, hlength]
    exact Nat.mod_eq_of_lt (by omega)
  dsimp only
  split
  · exact .refused
  rw [run_bind, hroom]
  cases hfp : (daemon.reading.getFileHandle (ReadPacket.fileid p)).run s with
  | mk handle s' =>
    cases handle with
    | none => exact .error (by decide)
    | some fp =>
      dsimp only
      rw [run_bind]
      have hread := returns_mlRead daemon.afp daemon.volume daemon.host daemon.malloc daemon.icon
        none fp (ReadPacket.length p) (offT (ReadPacket.start p)) s' trivial
      change Delivered _ ((daemon.reading.mlRead fp _ _).run s').1 at hread
      cases hresult : ((daemon.reading.mlRead fp (ReadPacket.length p)
          (offT (ReadPacket.start p))).run s').1 with
      | mk ret rest =>
        obtain ⟨data, eof⟩ := rest
        rw [hresult] at hread
        dsimp only
        rcases lt_or_ge ret 0 with hneg | hnonneg
        · rw [if_neg (by omega), if_pos hneg]
          exact .error (by decide)
        obtain ⟨rfl, hle⟩ : ret = data.length ∧ data.length ≤ ReadPacket.length p := hread hnonneg
        have hdata : ReadHonoured daemon.reading p s
            (.sent (ipcReadResponseSize + length) .ok eof data) :=
          .delivered hfp hresult hle (by omega)
        split
        · rwa [Int.toNat_natCast, window_length]
        · next hzero =>
          have hnil : data = [] := eq_nil_of_length_eq_zero (by omega)
          rw [if_neg (not_lt.mpr hnonneg)]
          rwa [hnil] at hdata

/-! ## WRITE -/

/-- What the loop collects is what was pending. -/
theorem collectPayload_eq_some {n : ℕ} {src src' : Source} {got : Octets}
    (h : collectPayload n src = (some got, src')) :
    got.length = n ∧ src.pending = got ++ src'.pending := by
  fun_induction collectPayload n src generalizing got src' with
  | case1 src =>
    cases h
    exact ⟨rfl, rfl⟩
  | case2 src n src' hread => cases h
  | case3 src n src' hread => cases h
  | case4 src n o os mid hread got' left hrest ih =>
    obtain ⟨more, rfl, rfl⟩ := Option.map_eq_some_iff.mp (Prod.mk.inj h).1
    obtain rfl := (Prod.mk.inj h).2
    obtain ⟨hlen, hpend⟩ := ih hrest
    have hos := Source.length_read_le hread
    rw [length_cons] at hos
    refine ⟨?_, ?_⟩
    · rw [length_append, length_cons, hlen]
      omega
    · rw [Source.pending_of_read hread, hpend, append_assoc]

/-- How a WRITE of a payload is to be handled: `ml_write` is called with the
payload, or it is not called and the answer is an error. -/
inductive WriteHonoured (payload : Octets) : WriteOutcome → Prop
  | passed {result : ReadResult} {written : ℕ} :
      WriteHonoured payload ⟨result, written, some payload⟩
  | error {result : ReadResult} {written : ℕ} (hresult : result ≠ .ok) :
      WriteHonoured payload ⟨result, written, none⟩

theorem WriteHonoured.eq_of_passed {payload : Octets} {written : ℕ}
    (h : WriteHonoured payload ⟨result, written, some data⟩) : data = payload := by
  cases h with
  | passed => rfl

/-- Every WRITE of a size is honoured, whatever the daemon finds and in
whatever pieces the payload comes. -/
def WritesHonoured (size : ℕ) : Prop :=
  ∀ (σ φ : Type) (daemon : WriteDaemon σ φ) (p : Octets) (s : σ) (fd : Source)
    (payload later : Octets), Packet.size p = size → payload.length = size →
      fd.pending = payload ++ later →
      WriteHonoured payload ((processWriteFrom daemon p fd).run s).1.1

/-- **A WRITE is honoured if its size is an `int`.** -/
theorem writesHonoured_of_lt (h : size < 2147483648) : WritesHonoured size := by
  intro σ φ daemon p s fd payload later hsize hpayload hpending
  have hremaining : (toInt (Packet.size p)).toNat = size := by
    rw [toInt, hsize, if_pos h, Int.toNat_natCast]
  unfold processWriteFrom
  rw [apply_ite (fun m : StateM σ (WriteOutcome × Source) => (m.run s).1.1)]
  split
  · exact .error (by decide)
  rcases daemon.connected (Packet.volumeid p) with _ | _ | _
  · exact .error (by decide)
  · exact .error (by decide)
  cases daemon.malloc (Packet.size p) with
  | none => exact .error (by decide)
  | some block =>
    dsimp only
    rw [hremaining]
    cases hcollect : collectPayload size fd with
    | mk got left =>
      cases got with
      | none => exact .error (by decide)
      | some got =>
        obtain ⟨hlen, hpend⟩ := collectPayload_eq_some hcollect
        obtain ⟨rfl, -⟩ := append_inj (hpend.symm.trans hpending) (hlen.trans hpayload.symm)
        have hdata : (block.window (Packet.size p)).overwrite 0 got = got := by
          have hwhole := @overwrite_middle [] (block.window (Packet.size p)) [] got
            (by rw [length_window, hsize, hlen])
          simpa using hwhole
        dsimp only
        rw [hdata, run_bind]
        cases ((daemon.getFileHandle (WritePacket.fileid p)).run s).1 with
        | none => exact .error (by decide)
        | some fp =>
          dsimp only
          rw [run_bind]
          split
          · exact .passed
          split
          · exact .passed
          · exact .passed

/-! ## Sizes out of range -/

theorem length_readRequest {start : ℕ} (hlt : length < 4294967296) :
    ReadPacket.length (readRequest volid fileid start length resource) = length := by
  simp only [ReadPacket.length, readRequest, cons_append, nil_append, le32_skip_cons,
    le32_skip_le32Octets, le32_skip_le64Octets]
  exact le32_le32Octets_append _ hlt

theorem size_writePacket {offset : ℕ} (hlt : size < 4294967296) :
    Packet.size (writePacket volid fileid offset size resource) = size := by
  simp only [Packet.size, writePacket, cons_append, nil_append, le32_skip_cons,
    le32_skip_le32Octets, le32_skip_le64Octets]
  exact le32_le32Octets_append _ hlt

/-- A daemon with one open file, of two octets. -/
def greetingDaemon : FileDaemon ℕ where
  connected _ := some true
  getFileHandle _ := return some ⟨1, 2, text "a", .none⟩
  malloc _ := true
  afp :=
    { ReadServer.calls ⟨text "hi", fun _ => kFPEOFErr, fun _ => 2, false, false⟩ with
      sendGetcomment := fun _ _ => return .error (-1)
      fpEof := fun _ => return false
      setFpEof := fun _ => return () }
  volume := ⟨0, false, .kFPUTF8Name, 32, 1024, 1024⟩
  icon := []
  host := .little

/-- However much is asked for, it reads the two octets. -/
theorem run_mlRead_greeting (hsize : intMax ≤ size) :
    (greetingDaemon.reading.mlRead ⟨1, 2, text "a", .none⟩ size 0).run 0 =
      ((2, text "hi", 1), 1) := by
  have hmin : min size intMax = intMax := min_eq_right hsize
  have hne : size ≠ 0 := by
    intro hzero
    rw [hzero] at hsize
    exact absurd hsize (by decide)
  unfold greetingDaemon FileDaemon.reading FileCalls.mlRead
  dsimp only [Option.map_none]
  unfold FileCalls.appledoubleRead
  dsimp only
  unfold AfpCalls.llRead
  rw [if_neg hne, hmin]
  rfl

/-- A READ with a length for which the response cannot be allocated. -/
theorem processReadAllocating_greeting (hlt : length < 4294967296)
    (hge : 4294967296 ≤ length + ipcReadResponseSize) :
    ((processReadAllocating greetingDaemon.reading greetingDaemon.malloc
        (readRequest 1 1 0 length 0)).run 0).1 =
      .sent (length + ipcReadResponseSize - 4294967296) .ok 1 (text "hi") := by
  have hlength : ReadPacket.length (readRequest 1 1 0 length 0) = length := length_readRequest hlt
  have hsmall : readAllocation length = length + ipcReadResponseSize - 4294967296 := by
    simp only [readAllocation, ipcReadResponseSize] at hge ⊢
    omega
  have hread := run_mlRead_greeting (show intMax ≤ length by
    simp only [intMax, ipcReadResponseSize] at hge ⊢
    omega)
  have hstart : offT (ReadPacket.start (readRequest 1 1 0 length 0)) = 0 := rfl
  have hconnected (n : ℕ) : greetingDaemon.reading.connected n = some true := rfl
  have hmalloc (n : ℕ) : greetingDaemon.malloc n = true := rfl
  have hhandle (n : ℕ) : (greetingDaemon.reading.getFileHandle n).run 0 =
      (some ⟨1, 2, text "a", .none⟩, 0) := rfl
  unfold processReadAllocating
  rw [if_neg (by simp [readRequest, ipcReadRequestSize]), hlength, hstart, hsmall, hconnected]
  dsimp only
  rw [hmalloc, if_neg (by decide), run_bind, hhandle]
  dsimp only
  rw [run_bind, hread]
  rfl

/-- **A length for which the response cannot be allocated is not honoured**:
what is sent is longer than the allocation. -/
theorem not_readsHonoured (hlt : length < 4294967296)
    (hge : 4294967296 ≤ length + ipcReadResponseSize) : ¬ ReadsHonoured length := by
  intro h
  have honoured := h ℕ greetingDaemon (readRequest 1 1 0 length 0) 0 (length_readRequest hlt)
  rw [processReadAllocating_greeting hlt hge] at honoured
  have hroom := honoured.room
  omega

/-- A daemon with one open file, which finds zeros in its memory. -/
def zeroedDaemon : WriteDaemon Unit Unit where
  connected _ := some true
  malloc n := some (replicate n 0)
  getFileHandle _ := return some ()
  mlWrite _ _ _ := return 1

/-- A WRITE with a size that is no `int`: `ml_write` is called with the
memory as it was found. -/
theorem processWriteFrom_zeroed (hlt : size < 4294967296) (hge : 2147483648 ≤ size) (fd : Source) :
    ((processWriteFrom zeroedDaemon (writePacket 1 1 0 size 0) fd).run ()).1 =
      (⟨.ok, 1, some (replicate size 0)⟩, fd) := by
  have hsize : Packet.size (writePacket 1 1 0 size 0) = size := size_writePacket hlt
  have hconnected (n : ℕ) : zeroedDaemon.connected n = some true := rfl
  have hmalloc (n : ℕ) : zeroedDaemon.malloc n = some (replicate n 0) := rfl
  have hdata : (window (replicate size 0) size).overwrite 0 [] = replicate size 0 := by
    have hwindow := window_length (replicate size 0)
    rw [length_replicate] at hwindow
    simp [overwrite, hwindow]
  have hnothing : collectPayload (toInt size).toNat fd = (some [], fd) := by
    rw [toInt, if_neg (not_lt.mpr hge), Int.toNat_of_nonpos (by omega), collectPayload]
  unfold processWriteFrom
  rw [if_neg (by simp [writePacket, ipcWriteSize]), hsize, hnothing, hconnected, hmalloc]
  dsimp only
  rw [run_bind, hdata]
  rfl

/-- **A size that is no `int` is not honoured.** -/
theorem not_writesHonoured (hlt : size < 4294967296) (hge : 2147483648 ≤ size) :
    ¬ WritesHonoured size := by
  intro h
  have honoured := h Unit Unit zeroedDaemon (writePacket 1 1 0 size 0) ()
    [.data (replicate size 1)] (replicate size 1) [] (size_writePacket hlt) length_replicate rfl
  rw [processWriteFrom_zeroed hlt hge] at honoured
  have hsame : replicate size (0 : UInt8) = replicate size 1 := honoured.eq_of_passed
  obtain ⟨n, rfl⟩ : ∃ n, size = n + 1 := ⟨size - 1, by omega⟩
  cases hsame

/-- **Which sizes are honoured.** For every 32-bit length of a READ and
every 32-bit size of a WRITE. -/
theorem transfers_honoured_iff (length size : UInt32) :
    ReadsHonoured length.toNat ∧ WritesHonoured size.toNat ↔
      length.toNat + ipcReadResponseSize < 4294967296 ∧ size.toNat < 2147483648 := by
  constructor
  · rintro ⟨hread, hwrite⟩
    constructor
    · by_contra hge
      exact not_readsHonoured length.toNat_lt (not_lt.mp hge) hread
    · by_contra hge
      exact not_writesHonoured size.toNat_lt (not_lt.mp hge) hwrite
  · rintro ⟨hread, hwrite⟩
    exact ⟨readsHonoured_of_lt hread, writesHonoured_of_lt hwrite⟩

/-- A READ of 2^32 - 15 octets is answered with 18 octets out of an
allocation of one, and a WRITE of 2^31 octets, all 1, writes zeros. -/
theorem read_into_one_octet :
    ((processReadAllocating greetingDaemon.reading greetingDaemon.malloc
        (readRequest 1 1 0 4294967281 0)).run 0).1 = .sent 1 .ok 1 (text "hi") ∧
      (readResponse .ok 1 (text "hi")).length = 18 ∧
      ((processWriteFrom zeroedDaemon (writePacket 1 1 0 2147483648 0)
          [.data (replicate 2147483648 1)]).run ()).1.1.passed =
        some (replicate 2147483648 0) := by
  refine ⟨processReadAllocating_greeting (by decide) (by decide), rfl, ?_⟩
  rw [processWriteFrom_zeroed (by decide) (by decide)]

end NetatalkClient
