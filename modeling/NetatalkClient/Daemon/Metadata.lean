import NetatalkClient.Daemon.Helpers.Metadata
/-!
# A metadata call through the daemon is the direct call

The eleven calls of the library on the metadata of a file, each as it goes
through the daemon (`throughIpc`) and as the call of `midlevel.c` that it
stands for (`direct`). Whatever the server answers, in whatever pieces the
daemon's answer comes and whatever messages are behind it, the two return
the same and leave the same, provided that a reading call has a buffer
whenever it gives a size, and that the offset into a resource fork is one
that `off_t` has.
-/

namespace NetatalkClient

open Octets List AfpCalls

/-- A call on the metadata of a file. The octets of a value that is set have
its size; `value` and `list` say whether there is a buffer. -/
inductive MetadataOp where
  | getxattr (name : Octets) (value : Bool) (size : ℕ)
  | setxattr (name value : Octets) (flags : ℕ)
  | listxattr (list : Bool) (size : ℕ)
  | removexattr (name : Octets)
  | getfinderinfo (value : Bool) (size : ℕ)
  | setfinderinfo (value : Octets)
  | removefinderinfo
  | getresourcefork (value : Bool) (size offset : ℕ)
  | setresourcefork (value : Octets) (offset : ℕ)
  | truncateresourcefork (size : ℕ)
  | removeresourcefork
  deriving DecidableEq, Repr

namespace MetadataOp

section Calls

variable {σ : Type}

/-- The call of the library. -/
def throughIpc (exchange : Octets → StateM σ (Except ℤ (List Wakeup))) (volid : ℕ)
    (path : Octets) : MetadataOp → StateM σ (ℤ × Octets)
  | getxattr name value size => afpSlGetxattr exchange volid path name value size
  | setxattr name value flags => afpSlSetxattr exchange volid path name value flags
  | listxattr list size => afpSlListxattr exchange volid path list size
  | removexattr name => afpSlRemovexattr exchange volid path name
  | getfinderinfo value size => afpSlGetfinderinfo exchange volid path value size
  | setfinderinfo value => afpSlSetfinderinfo exchange volid path value
  | removefinderinfo => afpSlRemovefinderinfo exchange volid path
  | getresourcefork value size offset => afpSlGetresourcefork exchange volid path value size offset
  | setresourcefork value offset => afpSlSetresourcefork exchange volid path value offset
  | truncateresourcefork size => afpSlTruncateresourcefork exchange volid path size
  | removeresourcefork => afpSlRemoveresourcefork exchange volid path

/-- The call of `midlevel.c`. The flags of the library are those of AFP under
other numbers. -/
def direct (m : MountedVolume σ) (host : ByteOrder) (path : Octets) :
    MetadataOp → StateM σ (ℤ × Octets)
  | getxattr name value size => m.afp.mlGetxattr m.volume host path name value size
  | setxattr name value flags =>
      withoutData (m.afp.mlSetxattr m.volume host path name value (wireFlags flags))
  | listxattr list size => m.afp.mlListxattr m.volume path list size
  | removexattr name => withoutData (m.afp.mlRemovexattr m.volume host path name)
  | getfinderinfo value size => m.afp.mlGetfinderinfo m.volume host path value size
  | setfinderinfo value => withoutData (m.afp.mlSetfinderinfo m.volume host path value)
  | removefinderinfo => withoutData (m.afp.mlRemovefinderinfo m.volume host path)
  | getresourcefork value size offset =>
      m.afp.mlGetresourcefork m.volume host path value size (offT offset)
  | setresourcefork value offset =>
      withoutData (m.afp.mlSetresourcefork m.volume host path value (offT offset))
  | truncateresourcefork size =>
      withoutData (m.afp.mlTruncateresourcefork m.volume host path size)
  | removeresourcefork => withoutData (m.afp.mlRemoveresourcefork m.volume host path)

end Calls

/-! ## What the library accepts -/

/-- The request of a call. -/
def fields (volid : ℕ) (path : Octets) : MetadataOp → MetadataFields
  | getxattr name _ size => ⟨.getxattr, volid, path, name, [], size, 0, 0⟩
  | setxattr name value flags =>
      ⟨.setxattr, volid, path, name, value, value.length, 0, wireFlags flags⟩
  | listxattr _ size => ⟨.listxattr, volid, path, [], [], size, 0, 0⟩
  | removexattr name => ⟨.removexattr, volid, path, name, [], 0, 0, 0⟩
  | getfinderinfo _ size => ⟨.getfinderinfo, volid, path, [], [], size, 0, 0⟩
  | setfinderinfo value => ⟨.setfinderinfo, volid, path, [], value, value.length, 0, 0⟩
  | removefinderinfo => ⟨.removefinderinfo, volid, path, [], [], 0, 0, 0⟩
  | getresourcefork _ size offset => ⟨.getresourcefork, volid, path, [], [], size, offset, 0⟩
  | setresourcefork value offset =>
      ⟨.setresourcefork, volid, path, [], value, value.length, offset, 0⟩
  | truncateresourcefork size => ⟨.truncateresourcefork, volid, path, [], [], 0, size, 0⟩
  | removeresourcefork => ⟨.removeresourcefork, volid, path, [], [], 0, 0, 0⟩

/-- Whether there is a buffer for what is read. -/
def value : MetadataOp → Bool
  | getxattr _ value _ => value
  | setxattr _ _ _ => true
  | listxattr list _ => list
  | getfinderinfo value _ => value
  | setfinderinfo _ => true
  | getresourcefork value _ _ => value
  | setresourcefork _ _ => true
  | _ => false

/-- The size of the buffer, or of what is sent. -/
def size (op : MetadataOp) : ℕ := (op.fields 0 []).size

/-- The offset into the resource fork. -/
def offset (op : MetadataOp) : ℕ := (op.fields 0 []).offset

/-- The library sends the call: its arguments are of their C types, and no
check refuses them. -/
structure Accepted (volid : ℕ) (path : Octets) (op : MetadataOp) : Prop where
  volid_lt : volid < 18446744073709551616
  offset_lt : op.offset < 18446744073709551616
  path_noNul : 0 ∉ path
  path_le : path.length ≤ afpcMaxUtf8PathBytes
  name_noNul : 0 ∉ (op.fields volid path).name
  name_lt : (op.fields volid path).name.length < 256
  named : namesXattr (some (op.fields volid path).command) = true →
    (op.fields volid path).name ≠ []
  size_le : op.size ≤ payloadLimit (some (op.fields volid path).command)
  finderinfo : ∀ v, op = setfinderinfo v → v.length = 32
  flags_mem : ∀ name v flags, op = setxattr name v flags →
    flags ∈ [0, afpSlXattrCreate, afpSlXattrReplace]
  resource_le : ∀ v offset, op = setresourcefork v offset → offset + v.length ≤ intMax
  truncate_le : ∀ n, op = truncateresourcefork n → n ≤ intMax

variable {volid : ℕ} {path : Octets} {op : MetadataOp}

theorem wireFlags_mem {flags : ℕ} (h : flags ∈ [0, afpSlXattrCreate, afpSlXattrReplace]) :
    wireFlags flags ∈ [0, kXAttrCreate, kXAttrReplace] := by
  simp only [mem_cons, not_mem_nil, or_false] at h
  rcases h with rfl | rfl | rfl
  all_goals decide

theorem fields_volid : (op.fields volid path).volid = volid := by cases op <;> rfl

theorem fields_size : (op.fields volid path).size = op.size := by cases op <;> rfl

theorem Accepted.fields (h : Accepted volid path op) : (op.fields volid path).Accepted where
  volid_lt := by
    have := h.volid_lt
    cases op <;> exact this
  offset_lt := by
    have := h.offset_lt
    cases op <;> exact this
  size_le := by
    have := h.size_le
    cases op <;> exact this
  data_eq := by cases op <;> rfl
  path_noNul := by
    have := h.path_noNul
    cases op <;> exact this
  path_le := by
    have := h.path_le
    cases op <;> exact this
  name_noNul := h.name_noNul
  name_lt := h.name_lt
  named := h.named
  finderinfo := by
    have := h.finderinfo
    cases op with
    | setfinderinfo v => exact fun _ => this v rfl
    | _ => nofun
  flags_mem := by
    have := h.flags_mem
    cases op with
    | setxattr name v flags => exact wireFlags_mem (this name v flags rfl)
    | _ => exact mem_cons_self
  resource_le := by
    have := h.resource_le
    cases op with
    | setresourcefork v offset => exact fun _ => this v offset rfl
    | _ => nofun
  truncate_le := by
    have := h.truncate_le
    cases op with
    | truncateresourcefork n => exact fun _ => this n rfl
    | _ => nofun

section Equal

variable {σ : Type} {exchange : Octets → StateM σ (Except ℤ (List Wakeup))}
variable {m : MountedVolume σ} {host : ByteOrder} {size : ℕ} {value : Bool}

/-- A request sent and its answer read. -/
def exchanged (exchange : Octets → StateM σ (Except ℤ (List Wakeup))) (r : MetadataFields)
    (value : Bool) : StateM σ (ℤ × Octets) := do
  let reached ← exchange r.packet
  match reached with
  | .error ret => return (ret, [])
  | .ok ws => return readMetadata (payloadLimit (some r.command)) value r.size ws

/-- No check of `metadata_call` refuses an accepted request. -/
theorem metadataCall_accepted {r : MetadataFields} (h : r.Accepted) (name sent : Option Octets)
    (value : Bool) (hname : name.getD [] = r.name) (hsent : sent.getD [] = r.data)
    (hvalue : sent.isSome = true → value = true) :
    metadataCall exchange r.command r.volid r.path name value r.size r.offset r.flags sent =
      exchanged exchange r value := by
  have hchecks : ¬(payloadLimit (some r.command) < r.size ∨
      (namesXattr (some r.command) = true ∧ name.getD [] = []) ∨
      (r.command = .setfinderinfo ∧ r.size ≠ 32) ∨
      (value = false ∧ 0 < r.size ∧ sent.isSome = true)) := by
    rintro (hlimit | ⟨hnames, hnil⟩ | ⟨hcommand, hsize⟩ | ⟨hnone, -, hsome⟩)
    · exact absurd h.size_le (not_le.mpr hlimit)
    · exact h.named hnames (hname ▸ hnil)
    · exact hsize (h.finderinfo hcommand)
    · rw [hvalue hsome] at hnone
      cases hnone
  unfold metadataCall
  rw [if_neg hchecks, if_neg (not_lt.mpr h.path_le), hname, hsent, if_neg (not_le.mpr h.name_lt)]
  rfl

/-- What an accepted call does: it sends its request and reads the
answer. -/
theorem throughIpc_eq (h : Accepted volid path op) :
    op.throughIpc exchange volid path = exchanged exchange (op.fields volid path) op.value := by
  have hf := h.fields
  cases op with
  | getxattr name value size => exact metadataCall_accepted hf (some name) none value rfl rfl nofun
  | setxattr name value flags =>
    show ite _ _ _ = _
    rw [if_neg (not_not.mpr (h.flags_mem name value flags rfl))]
    exact metadataCall_accepted hf (some name) (some value) true rfl rfl fun _ => rfl
  | listxattr list size => exact metadataCall_accepted hf none none list rfl rfl nofun
  | removexattr name => exact metadataCall_accepted hf (some name) none false rfl rfl nofun
  | getfinderinfo value size => exact metadataCall_accepted hf none none value rfl rfl nofun
  | setfinderinfo value =>
    exact metadataCall_accepted hf none (some value) true rfl rfl fun _ => rfl
  | removefinderinfo => exact metadataCall_accepted hf none none false rfl rfl nofun
  | getresourcefork value size offset =>
    exact metadataCall_accepted hf none none value rfl rfl nofun
  | setresourcefork value offset =>
    have hle := h.resource_le value offset rfl
    show ite _ _ _ = _
    rw [if_neg (by omega)]
    exact metadataCall_accepted hf none (some value) true rfl rfl fun _ => rfl
  | truncateresourcefork size =>
    show ite _ _ _ = _
    rw [if_neg (not_lt.mpr (h.truncate_le size rfl))]
    exact metadataCall_accepted hf none none false rfl rfl nofun
  | removeresourcefork => exact metadataCall_accepted hf none none false rfl rfl nofun

/-- The call that the daemon makes has a buffer exactly if it has a size. -/
def daemonSide : MetadataOp → MetadataOp
  | getxattr name _ size => getxattr name (0 < size) size
  | listxattr _ size => listxattr (0 < size) size
  | getfinderinfo _ size => getfinderinfo (0 < size) size
  | getresourcefork _ size offset => getresourcefork (0 < size) size offset
  | op => op

theorem callMetadata_packet (h : Accepted volid path op) (hoffset : op.offset ≤ int64Max) :
    callMetadata host m (op.fields volid path).packet = op.daemonSide.direct m host path := by
  have hf := h.fields
  unfold callMetadata
  rw [MetadataFields.command_packet, hf.size_packet, hf.offset_packet, hf.flags_packet,
    MetadataFields.path_packet, hf.name_packet, hf.data_packet,
    cString_append_zero fun _ hc hzero => hf.path_noNul (hzero ▸ hc),
    cString_append_zero fun _ hc hzero => hf.name_noNul (hzero ▸ hc)]
  cases op with
  | getxattr name value size => rfl
  | setxattr name value flags =>
    show withoutData (m.afp.mlSetxattr _ _ _ _ (value.take value.length) _) = _
    rw [take_length]
    rfl
  | listxattr list size => rfl
  | removexattr name => rfl
  | getfinderinfo value size => rfl
  | setfinderinfo value =>
    show withoutData (m.afp.mlSetfinderinfo _ _ _ (value.take value.length)) = _
    rw [take_length]
    rfl
  | removefinderinfo => rfl
  | getresourcefork value size offset =>
    have hoff : offset ≤ int64Max := hoffset
    show (if int64Max < offset then _ else _) = m.afp.mlGetresourcefork _ _ _ _ _ (offT offset)
    rw [if_neg (not_lt.mpr hoff), offT, if_pos hoff]
    rfl
  | setresourcefork value offset =>
    have hoff : offset ≤ int64Max := hoffset
    show (if int64Max < offset then _ else
      withoutData (m.afp.mlSetresourcefork _ _ _ (value.take value.length) _)) =
      withoutData (m.afp.mlSetresourcefork _ _ _ _ (offT offset))
    rw [if_neg (not_lt.mpr hoff), take_length, offT, if_pos hoff]
    rfl
  | truncateresourcefork size => rfl
  | removeresourcefork => rfl

/-- A call that does not look at its buffer when there is no size. -/
theorem buffer_of_size {α : Type} (f : Bool → ℕ → α) (hzero : f true 0 = f false 0)
    (h : value = true ∨ size = 0) : f (0 < size) size = f value size := by
  rcases Nat.eq_zero_or_pos size with rfl | hpos
  · cases value with
    | false => rfl
    | true => exact hzero.symm
  · obtain rfl : value = true := h.resolve_right (Nat.ne_of_gt hpos)
    rw [decide_eq_true hpos]

/-- Without a size it makes no difference whether there is a buffer. -/
theorem direct_daemonSide (hvalue : op.value = true ∨ op.size = 0) :
    op.daemonSide.direct m host path = op.direct m host path := by
  have hresource : ∀ position, m.afp.mlGetresourcefork m.volume host path true 0 position =
      m.afp.mlGetresourcefork m.volume host path false 0 position := fun position => by
    simp only [mlGetresourcefork, lt_irrefl, and_false, if_false]
  have hfinder : m.afp.mlGetfinderinfo m.volume host path true 0 =
      m.afp.mlGetfinderinfo m.volume host path false 0 := by
    simp only [mlGetfinderinfo, if_true]
  cases op with
  | getxattr name value size =>
    refine buffer_of_size (m.afp.mlGetxattr m.volume host path name) ?_ hvalue
    simp only [mlGetxattr, hresource, hfinder, if_true]
  | listxattr list size =>
    refine buffer_of_size (m.afp.mlListxattr m.volume path) ?_ hvalue
    simp only [mlListxattr, listedXattrs_no_size]
  | getfinderinfo value size => exact buffer_of_size _ hfinder hvalue
  | getresourcefork value size offset =>
    exact buffer_of_size (fun value size => m.afp.mlGetresourcefork m.volume host path value size _)
      (hresource _) hvalue
  | _ => rfl

theorem filled_withoutData {pre : σ → Prop} {c : StateM σ ℤ}
    (h : Ensures pre c fun ret _ => IsStatus ret) :
    Ensures pre (withoutData c) fun r _ => Filled value size r :=
  .bind h fun _ => .pure fun _ hret => .of_status hret _

/-- Where a call on extended attributes resolves its path, no lookup times
out. The other calls take such a path for resolved. -/
def Resolves (m : MountedVolume σ) (path : Octets) : MetadataOp → σ → Prop
  | getxattr _ _ _ | setxattr _ _ _ | listxattr _ _ | removexattr _ => m.afp.Resolves path
  | _ => fun _ => True

theorem filled_direct :
    Ensures (op.Resolves m path) (op.direct m host path) fun r _ => Filled op.value op.size r := by
  cases op with
  | getxattr name value size => exact filled_mlGetxattr
  | setxattr name value flags => exact filled_withoutData ensures_mlSetxattr
  | listxattr list size => exact filled_mlListxattr
  | removexattr name => exact filled_withoutData ensures_mlRemovexattr
  | getfinderinfo value size => exact filled_mlGetfinderinfo
  | setfinderinfo value => exact filled_withoutData returns_mlSetfinderinfo
  | removefinderinfo => exact filled_withoutData returns_mlRemovefinderinfo
  | getresourcefork value size offset => exact filled_mlGetresourcefork
  | setresourcefork value offset => exact filled_withoutData returns_mlSetresourcefork
  | truncateresourcefork size =>
    exact filled_withoutData returns_mlTruncateresourcefork
  | removeresourcefork => exact filled_withoutData returns_mlRemoveresourcefork

/-! ## The answer -/

/-- What a call returns, with the octets that its result says are in the
buffer. -/
def reported (r : ℤ × Octets) : ℤ × Octets := (r.1, r.2.take r.1.toNat)

/-- The client returns what the daemon's call returned. -/
theorem readMetadata_answer {limit : ℕ} {r : ℤ × Octets} {ws : List Wakeup}
    (hr : Filled value size r) (hvalue : value = true ∨ size = 0)
    (h : Arrives (answerMetadata size r) ws) (hsize : size ≤ limit)
    (hlimit : limit ≤ afpSlXattrListMax) :
    reported (readMetadata limit value size ws) = reported r := by
  have hhigh := hr.high
  have hnone : IsStatus 0 := by decide
  unfold answerMetadata at h
  split at h
  · next hpos =>
    have hcast : (r.1.toNat : ℤ) = r.1 := Int.toNat_of_nonneg (le_of_lt hpos)
    split at h
    · next hfilled =>
      have htrue : value = true := hvalue.resolve_right (Nat.ne_of_gt hfilled)
      have hfits := hr.fits htrue hfilled
      have hlen : r.2.length = r.1.toNat := by
        have := hr.octets htrue hfilled hpos
        omega
      rw [if_neg (by omega), ← hlen, window_length] at h
      rw [readMetadata_arrives h hnone (by omega) (by omega) hlimit
        fun _ => ⟨rfl, htrue, by omega⟩, if_neg (lt_irrefl 0), hlen, hcast]
    · next hempty =>
      have hdata : r.2 = [] := hr.query (Nat.eq_zero_of_not_pos hempty) hpos
      rw [readMetadata_arrives h hnone (by omega) (Nat.zero_le _) hlimit fun h =>
        absurd h (lt_irrefl 0), if_neg (lt_irrefl 0), hcast, reported, reported, hdata]
  · next hneg =>
    rw [not_lt] at hneg
    rw [readMetadata_arrives h ⟨hr.low, hneg⟩ (Nat.zero_le _) (Nat.zero_le _) hlimit fun h =>
      absurd h (lt_irrefl 0)]
    have hzero : r.1.toNat = 0 := Int.toNat_of_nonpos hneg
    have hret : (if r.1 < 0 then r.1 else ((0 : ℕ) : ℤ)) = r.1 := by
      split
      · rfl
      · omega
    rw [hret, reported, reported, hzero, take_zero, take_zero]

/-- A way to the daemon that works: a request that the daemon takes is
processed, and the answer arrives. -/
def Delivers (host : ByteOrder) (find : ℕ → Option (MountedVolume σ))
    (exchange : Octets → StateM σ (Except ℤ (List Wakeup))) : Prop :=
  ∀ p s, IpcFrame p → ∃ ws,
    (exchange p).run s = (.ok ws, ((processMetadata host find p).run s).2) ∧
      Arrives ((processMetadata host find p).run s).1 ws

/-- **A call through the daemon returns and leaves what the direct call
does.** -/
theorem metadata_through_ipc {find : ℕ → Option (MountedVolume σ)}
    (hdelivers : Delivers host find exchange) (hfind : find volid = some m)
    (hconnected : m.connected = true) (h : Accepted volid path op)
    (hoffset : op.offset ≤ int64Max) (hvalue : op.value = true ∨ op.size = 0) (s : σ)
    (hresolves : op.Resolves m path s) :
    reported ((op.throughIpc exchange volid path).run s).1 =
        reported ((op.direct m host path).run s).1 ∧
      ((op.throughIpc exchange volid path).run s).2 = ((op.direct m host path).run s).2 := by
  have hf := h.fields
  obtain ⟨ws, hrun, harrives⟩ := hdelivers _ s hf.ipcFrame
  have hprocess : (processMetadata host find (op.fields volid path).packet).run s =
      (answerMetadata op.size ((op.direct m host path).run s).1,
        ((op.direct m host path).run s).2) := by
    rw [← direct_daemonSide hvalue, ← callMetadata_packet h hoffset, processMetadata,
      hf.checkMetadata_packet, hf.volumeid_packet, hf.size_packet, fields_volid, hfind, fields_size]
    dsimp only
    rw [hconnected]
    rfl
  rw [hprocess] at hrun harrives
  have hthrough : (op.throughIpc exchange volid path).run s =
      (readMetadata (payloadLimit (some (op.fields volid path).command)) op.value op.size ws,
        ((op.direct m host path).run s).2) := by
    rw [throughIpc_eq h, exchanged, StateT.run_bind, hrun, fields_size]
    rfl
  rw [hthrough]
  refine ⟨?_, rfl⟩
  exact readMetadata_answer (filled_direct s hresolves) hvalue harrives h.size_le
    (payloadLimit_le _)

end Equal

/-! ## A daemon that answers at once -/

section Answered

variable {σ : Type} (host : ByteOrder) (find : ℕ → Option (MountedVolume σ))

/-- The way to a daemon that has no messages and whose answers come in one
piece. -/
def answered (p : Octets) : StateM σ (Except ℤ (List Wakeup)) := do
  let content ← processMetadata host find p
  match frameResponse true [] content with
  | none => return .error (-econnreset)
  | some frame => return .ok [.ready frame]

/-- An answer has a head, and no more behind it than was asked for. -/
def AnswerSized (content : Octets) : Prop :=
  ipcMetadataResponseSize ≤ content.length ∧
    content.length ≤ ipcMetadataResponseSize + afpSlXattrListMax

theorem answerSized_metadataResponse (error : ℤ) {data : Octets} (reportedSize : ℕ)
    (h : data.length ≤ afpSlXattrListMax) :
    AnswerSized (metadataResponse error data reportedSize) := by
  rw [AnswerSized, length_metadataResponse]
  omega

theorem answerSized_answerMetadata {size : ℕ} (hsize : size ≤ afpSlXattrListMax)
    (r : ℤ × Octets) : AnswerSized (answerMetadata size r) := by
  have hnone : ([] : Octets).length ≤ afpSlXattrListMax := Nat.zero_le _
  unfold answerMetadata
  split
  · split
    · split
      · exact answerSized_metadataResponse _ _ hnone
      · refine answerSized_metadataResponse _ _ ?_
        rw [length_window]
        omega
    · exact answerSized_metadataResponse _ _ hnone
  · exact answerSized_metadataResponse _ _ hnone

theorem size_le_of_checked {p : Octets} (h : checkMetadata p = none) :
    MetadataPacket.size p ≤ afpSlXattrListMax := by
  by_contra hbig
  have hlt : payloadLimit (MetadataPacket.command p) < MetadataPacket.size p :=
    lt_of_le_of_lt (payloadLimit_le _) (Nat.lt_of_not_le hbig)
  simp only [checkMetadata, hlt, true_or, if_true] at h
  split at h
  · cases h
  split at h
  · cases h
  · cases h

theorem returns_processMetadata (p : Octets) :
    Returns (processMetadata host find p) AnswerSized := by
  have hnone : ([] : Octets).length ≤ afpSlXattrListMax := Nat.zero_le _
  unfold processMetadata
  split
  · exact .pure (answerSized_metadataResponse _ _ hnone)
  · next hchecked =>
    split
    · exact .pure (answerSized_metadataResponse _ _ hnone)
    · refine .orPure (answerSized_metadataResponse _ _ hnone) ?_
      exact .bind_any fun r => .pure (answerSized_answerMetadata (size_le_of_checked hchecked) r)

theorem delivers_answered : Delivers host find (answered host find) := by
  intro p s _
  obtain ⟨hmin, hmax⟩ := returns_processMetadata host find p s trivial
  have hhead : ipcResponseHeaderSize ≤ ((processMetadata host find p).run s).1.length :=
    le_trans (by decide) hmin
  have hlen : ((processMetadata host find p).run s).1.length ≤
      uintMax - afpslIpcLogBufferSize - ipcLogFooterSize := le_trans hmax (by decide)
  obtain ⟨frame, hframe, hframed⟩ := exists_framed ⟨_, hhead, hlen⟩ []
  have hne : frame ≠ [] := by
    have := hframed.le_length
    rintro rfl
    simp only [ipcLogFooterSize, length_nil] at this
    omega
  refine ⟨[.ready frame], ?_, ?_, [], ?_⟩
  · have hsome : frameResponse true [] ((processMetadata host find p).run s).1 = some frame :=
      hframe
    rw [answered, StateT.run_bind]
    show StateT.run (match frameResponse true [] ((processMetadata host find p).run s).1 with
      | none => _ | some frame => _) _ = _
    rw [hsome]
    rfl
  · intro w hw
    rw [mem_singleton.mp hw]
    exact hne
  · rw [hframe]
    exact congrArg some (append_nil frame).symm

end Answered

/-! ## Where the two differ -/

/-- A server with one file, which has a FinderInfo, a resource fork of eight
octets and an extended attribute of four. -/
def oneFile : AfpCalls Unit where
  getDirid path := pure (0, 2, path)
  llGetattr _ := pure (⟨0, isStatus_zero⟩, 8)
  llOpen _ _ _ := pure (⟨0, isStatus_zero⟩, 1)
  llHandleLocking _ _ _ := pure false
  llHandleUnlocking _ _ _ := pure false
  flushDirtyForksForFile _ := pure ()
  afpRead _ _ n := pure (0, replicate n 7)
  afpWrite _ offset data := pure (0, offset + data.length)
  afpFlushfork _ := pure 0
  afpClosefork _ := pure 0
  afpSetforkparms _ _ := pure 0
  afpGetfiledirparms _ _ := pure (0, replicate 32 1)
  afpSetfiledirparms _ _ _ := pure 0
  afpGetextattr _ _ _ := pure (0, ⟨4, [1, 2, 3, 4]⟩)
  afpSetextattr _ _ _ _ _ := pure 0
  afpListextattr _ _ := pure (0, ⟨2, [97, 0]⟩)
  afpRemoveextattr _ _ _ := pure 0

/-- A connected volume with that file. -/
def oneFileVolume : MountedVolume Unit where
  connected := true
  volume := ⟨kSupportsExtAttrs, false, .kFPUTF8Name, 30, 1024, 1024⟩
  afp := oneFile

/-- `/f`. -/
def pathF : Octets := text "/f"

/-- The four octets of the attribute come through the daemon. -/
theorem metadata_through_ipc_xattr :
    reported (((getxattr (text "a") true 8).throughIpc
        (answered .little fun _ => some oneFileVolume) 1 pathF).run ()).1 = (4, [1, 2, 3, 4]) := by
  have haccepted : Accepted 1 pathF (getxattr (text "a") true 8) := by
    refine ⟨by decide, by decide, by decide, by decide, by decide, by decide, by decide, by decide,
      nofun, nofun, nofun, nofun⟩
  have hsame := metadata_through_ipc (delivers_answered .little fun _ => some oneFileVolume)
    (show (fun _ => some oneFileVolume) 1 = some oneFileVolume from rfl) rfl haccepted (by decide)
    (.inl rfl) () isStatus_zero
  rw [hsame.1]
  rfl

/-- A read that gives a size and no buffer succeeds directly and not through
the daemon, which has a buffer of its own. A resource fork read from an
offset that `off_t` does not have is beyond the end directly, and an error
through the daemon. The library accepts both calls. -/
theorem null_buffer_and_large_offset_differ :
    Accepted 1 pathF (getxattr (text "a") false 8) ∧
      (((getxattr (text "a") false 8).throughIpc
        (answered .little fun _ => some oneFileVolume) 1 pathF).run ()).1 = (-erange, []) ∧
      (((getxattr (text "a") false 8).direct oneFileVolume .little pathF).run ()).1 = (4, []) ∧
    Accepted 1 pathF (getresourcefork true 4 9223372036854775808) ∧
      (((getresourcefork true 4 9223372036854775808).throughIpc
        (answered .little fun _ => some oneFileVolume) 1 pathF).run ()).1 = (-eoverflow, []) ∧
      (((getresourcefork true 4 9223372036854775808).direct oneFileVolume .little pathF).run ()).1 =
        (0, []) := by
  refine ⟨?_, by decide +kernel, by decide +kernel, ?_, by decide +kernel, by decide +kernel⟩
  · exact ⟨by decide, by decide, by decide, by decide, by decide, by decide, by decide, by decide,
      nofun, nofun, nofun, nofun⟩
  · exact ⟨by decide, by decide, by decide, by decide, by decide, by decide, by decide, by decide,
      nofun, nofun, nofun, nofun⟩

end MetadataOp

end NetatalkClient
