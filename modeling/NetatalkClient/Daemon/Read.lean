import NetatalkClient.Daemon.Helpers.Metadata
import NetatalkClient.Daemon.Model.Read
/-!
# A read through the daemon brings what the daemon read

Whatever of a response reaches the client, in whatever pieces and with
whatever messages behind it: if `afp_sl_read` returns 0, it has stored what
`process_read` has sent. So if `ml_read` reads a file, what `afp_sl_read`
stores stands in that file at the offset that was asked for.
-/

namespace NetatalkClient

open Octets List Wakeup

/-! ## What reaches the client -/

/-- A part of a response, perhaps all, reaches the client. -/
def ReachesPart (content : Octets) (ws : List Wakeup) : Prop :=
  ∃ malloc ms, pending ws <+:
    (frameResponse malloc (outgoingString ms) content).getD []

/-- What is read stands at the front of what was under way. -/
theorem readBytesWithTimeout_eq_some {len : ℕ} {ws left : List Wakeup} {got : Octets}
    (h : readBytesWithTimeout len ws = some (got, left)) :
    got.length = len ∧ pending ws = got ++ pending left := by
  induction ws generalizing len got with
  | nil =>
    unfold readBytesWithTimeout at h
    split at h
    · next hlen =>
      cases h
      exact ⟨hlen.symm, rfl⟩
    · cases h
  | cons w rest ih =>
    rw [readBytesWithTimeout.eq_def] at h
    dsimp only at h
    split at h
    · next hlen =>
      cases h
      exact ⟨hlen.symm, rfl⟩
    cases w with
    | timeout => cases h
    | selectFailed interrupted => cases h
    | readFailed interrupted =>
      dsimp only at h
      split at h
      · exact ih h
      · cases h
    | ready run =>
      dsimp only at h
      split at h
      · cases h
      split at h
      · next hlt =>
        cases h
        refine ⟨length_take_of_le (le_of_lt hlt), ?_⟩
        rw [pending, pending, ← append_assoc, take_append_drop]
      · next hge =>
        cases hmore : readBytesWithTimeout (len - run.length) rest with
        | none =>
          rw [hmore] at h
          cases h
        | some more =>
          obtain ⟨got', left'⟩ := more
          rw [hmore] at h
          cases h
          obtain ⟨hlen, hpend⟩ := ih hmore
          refine ⟨?_, ?_⟩
          · rw [length_append, hlen]
            omega
          · rw [pending, hpend, append_assoc]

/-- The head of a response to a read, with the length of the frame in it. -/
def readHead (total : ℕ) (result : ReadResult) (eof : ℕ) (received : ℕ) : Octets :=
  [UInt8.ofNat result.code, 0, 0, 0] ++ (le32Octets total ++
    (le32Octets received ++ le32Octets eof))

theorem length_readResponse (result : ReadResult) (eof : ℕ) (data : Octets) :
    (readResponse result eof data).length = ipcReadResponseSize + data.length := by
  simp [readResponse, ipcReadResponseSize]
  omega

/-- The frame of a response to a read. -/
theorem frameResponse_readResponse {malloc : Bool} {log frame data : Octets}
    {result : ReadResult} {eof : ℕ}
    (h : frameResponse malloc log (readResponse result eof data) = some frame) :
    ∃ total < 4294967296, total = ipcReadResponseSize + data.length +
        (log.length + ipcLogFooterSize) ∧ log.length ≤ afpslIpcLogBufferSize ∧
      frame = readHead total result eof data.length ++ (data ++ (log ++ logFooter log.length)) := by
  have hlen : (readResponse result eof data ++ (log ++ logFooter log.length)).length =
      ipcReadResponseSize + data.length + (log.length + ipcLogFooterSize) := by
    rw [length_append, length_readResponse, length_append]
    rfl
  unfold frameResponse at h
  split at h
  · cases h
  split at h
  · cases h
  next hroom =>
  split at h
  · cases h
  simp only [uintMax, afpslIpcLogBufferSize, ipcLogFooterSize, length_readResponse,
    ipcReadResponseSize, not_or, not_lt] at hroom
  refine ⟨_, ?_, rfl, hroom.1, ?_⟩
  · simp only [ipcReadResponseSize, ipcLogFooterSize]
    omega
  · rw [← Option.some.inj h, hlen, overwrite_append (by
      rw [length_le32Octets, length_readResponse, ipcReadResponseSize]
      omega)]
    have hhead (t : ℕ) : (readResponse result eof data).overwrite 4 (le32Octets t) =
        readHead t result eof data.length ++ data :=
      overwrite_middle (a := [UInt8.ofNat result.code, 0, 0, 0]) rfl
    rw [hhead, append_assoc]

/-- The members of the head, as the client reads them. -/
theorem readHead_members {total received : ℕ} {result : ReadResult} {eof : ℕ}
    (htotal : total < 4294967296) (hreceived : received < 4294967296) :
    Response.len (readHead total result eof received) = total ∧
      (readHead total result eof received).le32 8 = received ∧
      (readHead total result eof received).byte 0 = result.code := by
  simp only [Response.len, readHead, cons_append, nil_append, le32_skip_cons, le32_skip_le32Octets]
  refine ⟨le32_le32Octets_append _ htotal, le32_le32Octets_append _ hreceived, ?_⟩
  cases result
  all_goals rfl

/-- The rest of a response, if all of it came. -/
theorem readResponseTail_eq_some {total prefixLen n : ℕ} {data log tail t : Octets}
    {ws : List Wakeup} (hlog : log.length ≤ afpslIpcLogBufferSize)
    (hlen : (data ++ (log ++ logFooter log.length)).length = total - prefixLen)
    (hpend : pending ws ++ t = data ++ (log ++ logFooter log.length))
    (h : readResponseTail total prefixLen ws = some (tail, n)) :
    n = data.length ∧ tail.take n = data := by
  unfold readResponseTail at h
  split at h
  · cases h
  cases hrest : readBytesWithTimeout (total - prefixLen) ws with
  | none =>
    rw [hrest] at h
    cases h
  | some got =>
    obtain ⟨tail', left⟩ := got
    rw [hrest] at h
    dsimp only at h
    obtain ⟨htail, hleft⟩ := readBytesWithTimeout_eq_some hrest
    rw [hleft, append_assoc] at hpend
    obtain ⟨rfl, -⟩ := append_inj (hpend.trans (append_nil _).symm) (htail.trans hlen.symm)
    rw [responseContentLength_footer hlog] at h
    dsimp only at h
    split at h
    · cases h
    · cases h
      exact ⟨rfl, take_left⟩

/-- **The client stores what the daemon sent**, or returns an error. -/
theorem readAnswered_reaches {result : ReadResult} {eof length : ℕ} {data : Octets}
    {ws : List Wakeup} {r : SlRead} (h : ReachesPart (readResponse result eof data) ws)
    (hr : readAnswered length ws = .ok r) :
    result = .ok ∧ r.received = data.length ∧ r.data = data := by
  obtain ⟨malloc, ms, hpart⟩ := h
  unfold readAnswered at hr
  cases hhead : readBytesWithTimeout ipcReadResponseSize ws with
  | none =>
    rw [hhead] at hr
    cases hr
  | some first =>
    obtain ⟨response, rest⟩ := first
    rw [hhead] at hr
    dsimp only at hr
    obtain ⟨hresponse, hpend⟩ := readBytesWithTimeout_eq_some hhead
    cases hframe : frameResponse malloc (outgoingString ms) (readResponse result eof data) with
    | none =>
      rw [hframe, hpend] at hpart
      have hnil := prefix_nil.mp hpart
      rw [(append_eq_nil_iff.mp hnil).1] at hresponse
      cases hresponse
    | some frame =>
      obtain ⟨total, hsmall, htotal, hlog, hparts⟩ := frameResponse_readResponse hframe
      generalize outgoingString ms = log at hlog hparts htotal
      rw [hframe, Option.getD_some, hparts, hpend] at hpart
      obtain ⟨t, ht⟩ := hpart
      rw [append_assoc] at ht
      obtain ⟨rfl, htail⟩ := append_inj ht hresponse
      have hreceived : data.length < 4294967296 := by omega
      obtain ⟨hlen, hsize, hcode⟩ := @readHead_members total data.length result eof hsmall hreceived
      rw [hlen, hsize, hcode] at hr
      cases hrest : readResponseTail total ipcReadResponseSize rest with
      | none =>
        rw [hrest] at hr
        cases hr
      | some got =>
        obtain ⟨tail, n⟩ := got
        have htailLen : (data ++ (log ++ logFooter log.length)).length =
            total - ipcReadResponseSize := by
          have hfooter : (logFooter log.length).length = ipcLogFooterSize := rfl
          rw [length_append, length_append, hfooter]
          omega
        obtain ⟨rfl, hdata⟩ := readResponseTail_eq_some hlog htailLen htail hrest
        rw [hrest] at hr
        dsimp only at hr
        cases result with
        | ok =>
          rw [if_neg (not_not.mpr rfl)] at hr
          split at hr
          · cases hr
          · cases hr
            exact ⟨rfl, rfl, hdata⟩
        | error => cases hr
        | notconnected => cases hr
        | notattached => cases hr

/-! ## Reading a file -/

/-- `ml_read` of an open file reads these contents. -/
def ReadsFile {σ : Type} (content : Octets) (mlRead : ℕ → ℤ → StateM σ (ℤ × Octets × ℕ)) : Prop :=
  ∀ size offset, Returns (mlRead size offset) fun r =>
    0 < r.1 → 0 ≤ offset ∧ r.2.1.window r.1.toNat <+: content.drop offset.toNat

section Reading

variable {σ φ : Type} {daemon : ReadDaemon σ φ} {content : Octets}
variable {volid fileid start length resource : ℕ}

theorem readRequest_members (hfileid : fileid < 4294967296)
    (hstart : start < 18446744073709551616) :
    ReadPacket.fileid (readRequest volid fileid start length resource) = fileid ∧
      ReadPacket.start (readRequest volid fileid start length resource) = start := by
  simp only [ReadPacket.fileid, ReadPacket.start, readRequest, cons_append, nil_append,
    le32_skip_cons, le64_skip_cons, le32_skip_le32Octets, le64_skip_le32Octets,
    le32_skip_le64Octets, le64_skip_le64Octets]
  exact ⟨le32_le32Octets_append _ hfileid, le64_le64Octets_append _ hstart⟩

/-- What `process_read` sends of a file. -/
theorem returns_processRead (hfileid : fileid < 4294967296) (hstart : start < 18446744073709551616)
    (hhandle : Returns (daemon.getFileHandle fileid) fun fp =>
      ∀ f, fp = some f → ReadsFile content (daemon.mlRead f)) :
    Returns (processRead daemon (readRequest volid fileid start length resource)) fun response =>
      ∃ result eof data, response = readResponse result eof data ∧
        (result = .ok → data <+: content.drop start) := by
  obtain ⟨hid, hpos⟩ := @readRequest_members volid fileid start length resource hfileid hstart
  have hrefused : ∀ {result : ReadResult} {eof : ℕ}, result ≠ .ok →
      Returns (σ := σ) (pure (readResponse result eof [])) fun response =>
        ∃ result eof data, response = readResponse result eof data ∧
          (result = .ok → data <+: content.drop start) :=
    fun {result eof} h => .pure ⟨result, eof, [], rfl, fun hok => absurd hok h⟩
  unfold processRead
  refine .ite (fun _ => hrefused (by decide)) fun _ => ?_
  split
  · exact hrefused (by decide)
  · exact hrefused (by decide)
  rw [hid, hpos]
  refine .bind hhandle fun fp hfp => ?_
  cases fp with
  | none => exact hrefused (by decide)
  | some f =>
    refine .bind (hfp f rfl _ _) ?_
    rintro ⟨ret, data, eof⟩ hread
    refine .ite (fun hret => ?_) fun _ => .ite (fun _ => hrefused (by decide)) fun _ => ?_
    · obtain ⟨hoffset, hdata⟩ := hread hret
      have hstart' : (offT start).toNat = start := by
        unfold offT at hoffset ⊢
        split at hoffset
        · next hle => rw [if_pos hle, Int.toNat_natCast]
        · omega
      rw [hstart'] at hdata
      exact .pure ⟨.ok, eof, _, rfl, fun _ => hdata⟩
    · exact .pure ⟨.ok, eof, [], rfl, fun _ => nil_prefix⟩

/-- A way to the daemon on which responses may be lost, in part or whole. -/
def CarriesReads (daemon : ReadDaemon σ φ) (exchange : Octets → StateM σ (Except ℤ (List Wakeup))) :
    Prop :=
  ∀ p s ws, ((exchange p).run s).1 = .ok ws → ReachesPart ((processRead daemon p).run s).1 ws

/-- **What `afp_sl_read` stores stands in the file**, at the offset that was
asked for. -/
theorem returns_afpSlRead {exchange : Octets → StateM σ (Except ℤ (List Wakeup))}
    (hcarries : CarriesReads daemon exchange) (hfileid : fileid < 4294967296)
    (hstart : start < 18446744073709551616)
    (hhandle : Returns (daemon.getFileHandle fileid) fun fp =>
      ∀ f, fp = some f → ReadsFile content (daemon.mlRead f)) :
    Returns (afpSlRead exchange volid fileid resource start length) fun r => ∀ out, r = .ok out →
      out.received = out.data.length ∧ out.data <+: content.drop start := by
  intro s _
  have hprocess := @returns_processRead σ φ daemon content volid fileid start length resource
    hfileid hstart hhandle s trivial
  have hreach := hcarries (readRequest volid fileid start length resource) s
  obtain ⟨result, eof, data, hresponse, hdata⟩ := hprocess
  rw [hresponse] at hreach
  intro out hout
  unfold afpSlRead at hout
  rw [run_bind] at hout
  cases hexchange : ((exchange (readRequest volid fileid start length resource)).run s).1 with
  | error ret =>
    rw [hexchange] at hout
    cases hout
  | ok ws =>
    rw [hexchange] at hout
    obtain ⟨hok, hreceived, hsent⟩ := readAnswered_reaches (hreach ws hexchange) hout
    rw [hreceived, hsent]
    exact ⟨rfl, hdata hok⟩

end Reading

end NetatalkClient
