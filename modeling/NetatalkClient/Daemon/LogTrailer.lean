import Mathlib
import NetatalkClient.Common.Files
import NetatalkClient.Daemon.Model.Response
/-!
# The messages behind a response

The client finds the content of a response and the messages that were
kept of its command. What is kept are the messages since the buffer was
last emptied (`recent`), as far as they fit (`fitting`): all of them, the
last one shortened, unless the buffer became full to its last octet. The
next message then takes the buffer for overrun and empties it, so the
messages before it are lost (`Spills`).
-/

namespace NetatalkClient

open Octets List LogMessage

/-! ## Packed messages -/

namespace LogMessage

/-- A message with at most `n` octets of its text. -/
def shorten (n : ℕ) (m : LogMessage) : LogMessage :=
  ⟨m.level, m.text.take n, fun h => m.noNul (mem_of_mem_take h)⟩

@[simp] theorem shorten_level (n : ℕ) (m : LogMessage) : (m.shorten n).level = m.level := rfl

@[simp] theorem shorten_text (n : ℕ) (m : LogMessage) : (m.shorten n).text = m.text.take n := rfl

theorem shorten_eq_self {n : ℕ} {m : LogMessage} (h : m.text.length ≤ n) : m.shorten n = m := by
  cases m
  simp only [shorten, take_of_length_le h]

/-- A text read from a buffer is the text that was put there. -/
theorem ofBuffer_text (m : LogMessage) : ofBuffer m.level m.text = m := by
  have htext : m.text.takeWhile (· ≠ 0) = m.text := by
    rw [takeWhile_eq_self_iff]
    intro o ho
    simpa using fun h : o = 0 => m.noNul (h ▸ ho)
  cases m
  simp only [ofBuffer, htext]

end LogMessage

/-- The octets that messages take in the buffer. -/
def encoded (ms : List LogMessage) : Octets :=
  ms.flatMap fun m => logRecord m.level m.text.length ++ m.text

/-- How many octets messages take in the buffer. -/
def packed (ms : List LogMessage) : ℕ := (ms.map fun m => ipcLogRecordSize + m.text.length).sum

/-- The messages that fit in `room` octets, the last one shortened. -/
def fitting : ℕ → List LogMessage → List LogMessage
  | _, [] => []
  | room, m :: ms =>
    if ipcLogRecordSize < room then
      m.shorten (room - ipcLogRecordSize) ::
        fitting (room - (ipcLogRecordSize + m.text.length)) ms
    else []

/-- The messages since the buffer was last emptied, where `block` is those
before `ms`: a message that finds the buffer full empties it. -/
def recent (block : List LogMessage) : List LogMessage → List LogMessage
  | [] => block
  | m :: ms =>
    if packed (fitting afpslIpcLogBufferSize block) = afpslIpcLogBufferSize then recent [m] ms
    else recent (block ++ [m]) ms

section Packed

variable {room : ℕ} {m : LogMessage} {ms block : List LogMessage}

theorem packed_cons (m : LogMessage) (ms : List LogMessage) :
    packed (m :: ms) = ipcLogRecordSize + m.text.length + packed ms := by
  simp [packed]

theorem encoded_append (ms ns : List LogMessage) : encoded (ms ++ ns) = encoded ms ++ encoded ns :=
  flatMap_append

theorem length_logRecord (level : BitVec 32) (n : ℕ) :
    (logRecord level n).length = ipcLogRecordSize := rfl

theorem length_encoded (ms : List LogMessage) : (encoded ms).length = packed ms := by
  induction ms with
  | nil => rfl
  | cons m ms ih =>
    rw [encoded, flatMap_cons, length_append, length_append, length_logRecord,
      packed_cons, ← ih, encoded]

theorem packed_fitting_le (room : ℕ) (ms : List LogMessage) : packed (fitting room ms) ≤ room := by
  induction ms generalizing room with
  | nil => exact Nat.zero_le _
  | cons m ms ih =>
    rw [fitting]
    split
    · have := ih (room - (ipcLogRecordSize + m.text.length))
      rw [packed_cons, shorten_text, length_take]
      omega
    · exact Nat.zero_le _

/-- What fits of a list and of what follows it. -/
theorem fitting_append (room : ℕ) (ms ns : List LogMessage) :
    fitting room (ms ++ ns) = fitting room ms ++ fitting (room - packed (fitting room ms)) ns := by
  induction ms generalizing room with
  | nil => rfl
  | cons m ms ih =>
    rw [cons_append, fitting, fitting]
    split
    · next hroom =>
      rw [ih, cons_append, packed_cons, shorten_text, length_take]
      congr 3
      omega
    · next hroom =>
      cases ns with
      | nil => rfl
      | cons n ns =>
        rw [fitting, if_neg (by omega)]
        rfl

/-- What fits of messages begins them: all of them but the last are
whole. -/
theorem fitting_cases (room : ℕ) (ms : List LogMessage) :
    fitting room ms = [] ∨ ∃ init m n rest, ms = init ++ m :: rest ∧
      fitting room ms = init ++ [m.shorten n] := by
  induction ms generalizing room with
  | nil => exact .inl rfl
  | cons m ms ih =>
    rw [fitting]
    split
    · right
      by_cases hwhole : m.text.length ≤ room - ipcLogRecordSize
      · rcases ih (room - (ipcLogRecordSize + m.text.length)) with
          hnil | ⟨init, m', n, rest, hms, hfit⟩
        · exact ⟨[], m, _, ms, rfl, by rw [hnil]; rfl⟩
        · refine ⟨m :: init, m', n, rest, by rw [hms]; rfl, ?_⟩
          rw [hfit, shorten_eq_self hwhole]
          rfl
      · -- the buffer ends within this message
        have hzero : room - (ipcLogRecordSize + m.text.length) = 0 := by omega
        refine ⟨[], m, room - ipcLogRecordSize, ms, rfl, ?_⟩
        rw [hzero]
        cases ms <;> rfl
    · exact .inl rfl

/-- **The buffer is full to its last octet** exactly when one of the
messages starts within it and reaches its end. -/
theorem packed_fitting_eq_iff (hroom : 0 < room) :
    packed (fitting room ms) = room ↔ ∃ init m rest, ms = init ++ m :: rest ∧
      packed init + ipcLogRecordSize < room ∧
      room ≤ packed init + (ipcLogRecordSize + m.text.length) := by
  induction ms generalizing room with
  | nil => simp [fitting, packed, hroom.ne]
  | cons m ms ih =>
    rw [fitting]
    split
    · next hrec =>
      rw [packed_cons, shorten_text, length_take]
      by_cases hlong : room ≤ ipcLogRecordSize + m.text.length
      · have := packed_fitting_le (room - (ipcLogRecordSize + m.text.length)) ms
        constructor
        · intro
          exact ⟨[], m, ms, rfl, by simpa [packed] using hrec, by simpa [packed] using hlong⟩
        · intro
          omega
      · have hiff := @ih (room - (ipcLogRecordSize + m.text.length)) (by omega)
        constructor
        · intro heq
          obtain ⟨init, m', rest, rfl, hlt, hle⟩ := hiff.mp (by omega)
          refine ⟨m :: init, m', rest, rfl, ?_, ?_⟩ <;> rw [packed_cons] <;> omega
        · rintro ⟨init, m', rest, heq, hlt, hle⟩
          cases init with
          | nil =>
            obtain ⟨rfl, rfl⟩ := List.cons.inj heq
            simp only [packed, map_nil, sum_nil] at hle
            omega
          | cons m'' init =>
            obtain ⟨rfl, rfl⟩ := List.cons.inj heq
            rw [packed_cons] at hlt hle
            have := hiff.mpr ⟨init, m', rest, rfl, by omega, by omega⟩
            omega
    · next hrec =>
      constructor
      · intro heq
        simp only [packed, map_nil, sum_nil] at heq
        omega
      · rintro ⟨init, m', rest, -, hlt, -⟩
        omega

end Packed

/-! ## What the daemon keeps -/

section Kept

variable {block ms : List LogMessage}

/-- The record that `daemon_log_for_client` adds where `available` octets
are left. -/
theorem record_eq_encoded {available : ℕ} (m : LogMessage) (buf : Octets)
    (h : available ≤ afpslIpcLogBufferSize) :
    (if ipcLogRecordSize < available then
        buf ++
          (logRecord m.level (min (min m.text.length uintMax) (available - ipcLogRecordSize)) ++
          m.text.take (min (min m.text.length uintMax) (available - ipcLogRecordSize)))
      else buf) = buf ++ encoded (fitting available [m]) := by
  rw [fitting]
  split
  · have hmin : min (min m.text.length uintMax) (available - ipcLogRecordSize) =
        min (available - ipcLogRecordSize) m.text.length := by
      simp only [afpslIpcLogBufferSize, uintMax] at h ⊢
      omega
    rw [hmin, fitting]
    simp [encoded, shorten, length_take, take_eq_take_iff]
  · simp [encoded]

/-- **One message**: the buffer holds what fits of the messages since it
was emptied, and then of these with the message behind them. -/
theorem daemonLogForClient_encoded (block : List LogMessage) (m : LogMessage) :
    daemonLogForClient (encoded (fitting afpslIpcLogBufferSize block)) m =
      encoded (fitting afpslIpcLogBufferSize
        (if packed (fitting afpslIpcLogBufferSize block) = afpslIpcLogBufferSize then [m]
          else block ++ [m])) := by
  have hle := packed_fitting_le afpslIpcLogBufferSize block
  unfold daemonLogForClient
  rw [length_encoded]
  split
  · next hfull =>
    rw [if_pos (le_antisymm hle hfull)]
    exact record_eq_encoded m [] (le_rfl)
  · next hroom =>
    have hnot : ¬ packed (fitting afpslIpcLogBufferSize block) = afpslIpcLogBufferSize := by omega
    rw [if_neg hnot, fitting_append, encoded_append]
    dsimp only
    rw [length_encoded]
    exact record_eq_encoded m _ (Nat.sub_le _ _)

/-- **All messages of a command**, by induction on them. -/
theorem foldl_daemonLogForClient (block ms : List LogMessage) :
    ms.foldl daemonLogForClient (encoded (fitting afpslIpcLogBufferSize block)) =
      encoded (fitting afpslIpcLogBufferSize (recent block ms)) := by
  induction ms generalizing block with
  | nil => rfl
  | cons m ms ih =>
    rw [foldl_cons, daemonLogForClient_encoded, ih, recent]
    split <;> rfl

theorem outgoingString_eq (ms : List LogMessage) :
    outgoingString ms = encoded (fitting afpslIpcLogBufferSize (recent [] ms)) :=
  foldl_daemonLogForClient [] ms

/-- A message follows one that reached the end of the buffer. -/
def Spills (ms : List LogMessage) : Prop :=
  ∃ init m rest, ms = init ++ m :: rest ∧ rest ≠ [] ∧
    packed init + ipcLogRecordSize < afpslIpcLogBufferSize ∧
    afpslIpcLogBufferSize ≤ packed init + (ipcLogRecordSize + m.text.length)

/-- Without such a message the buffer is never emptied. -/
theorem recent_of_not_spills (h : ¬ Spills (block ++ ms)) : recent block ms = block ++ ms := by
  induction ms generalizing block with
  | nil => rw [recent, append_nil]
  | cons m ms ih =>
    have hroom : packed (fitting afpslIpcLogBufferSize block) ≠ afpslIpcLogBufferSize := by
      intro hfull
      obtain ⟨init, m', rest, rfl, hlt, hle⟩ := (packed_fitting_eq_iff (by decide)).mp hfull
      exact h ⟨init, m', rest ++ m :: ms, by simp, by simp, hlt, hle⟩
    rw [recent, if_neg hroom, ih (by rwa [append_assoc])]
    rw [append_assoc]
    rfl

end Kept

/-! ## What the client finds -/

/-- Some messages begin others: all of them but the last are whole. -/
def Begins (recs ms : List LogMessage) : Prop :=
  recs = [] ∨ ∃ init m n rest, ms = init ++ m :: rest ∧ recs = init ++ [m.shorten n]

/-- The content of a response: it has a header, and its frame has a
length, however many messages are behind it. -/
structure ResponseContent where
  data : Octets
  header_le : ipcResponseHeaderSize ≤ data.length
  len_le : data.length ≤ uintMax - afpslIpcLogBufferSize - ipcLogFooterSize

/-- The messages that were packed are dispatched, in order and with their
levels. -/
theorem dispatchLogs_encoded {ms : List LogMessage}
    (h : ∀ m ∈ ms, m.text.length ≤ afpslIpcLogBufferSize) :
    dispatchLogs (encoded ms) = (0, ms) := by
  induction ms with
  | nil => rw [encoded, flatMap_nil, dispatchLogs, dif_pos rfl]
  | cons m ms ih =>
    have hm := h m mem_cons_self
    have ih := ih fun m' hm' => h m' (mem_cons_of_mem _ hm')
    have hsmall : m.text.length < 4294967296 := lt_of_le_of_lt hm (by decide)
    have hcons : encoded (m :: ms) =
        le32Octets m.level.toNat ++ (le32Octets m.text.length ++ (m.text ++ encoded ms)) := by
      simp [encoded, logRecord]
    have hlevel : (encoded (m :: ms)).le32 0 = m.level.toNat := by
      rw [hcons, le32_le32Octets_append _ m.level.isLt]
    have hlen : (encoded (m :: ms)).le32 4 = m.text.length := by
      rw [hcons]
      exact (le32_append_right (le32Octets m.level.toNat) _ 0).trans
        (le32_le32Octets_append _ hsmall)
    have hrest : (encoded (m :: ms)).drop ipcLogRecordSize = m.text ++ encoded ms := by
      rw [hcons]
      rfl
    have hlens : (encoded (m :: ms)).length =
        ipcLogRecordSize + m.text.length + (encoded ms).length := by
      rw [length_encoded, length_encoded, packed_cons]
    have hne : encoded (m :: ms) ≠ [] := by
      rw [Ne, ← length_eq_zero_iff, hlens]
      simp only [ipcLogRecordSize]
      omega
    rw [dispatchLogs, dif_neg hne, if_neg (by omega)]
    simp only [hlevel, hlen, hrest]
    rw [if_neg (by rw [length_append]; omega), drop_left, take_left, ih,
      BitVec.ofNat_toNat, BitVec.setWidth_eq, ofBuffer_text]

/-- What was written over the front of a string leaves what follows it. -/
theorem overwrite_append {a b c : Octets} {pos : ℕ} (h : pos + c.length ≤ a.length) :
    (a ++ b).overwrite pos c = a.overwrite pos c ++ b := by
  have hwin : (a ++ b).window pos = a.window pos := window_congr fun i hi => byte_append (by omega)
  rw [overwrite, overwrite, hwin, drop_append_of_le_length h]
  simp only [append_assoc]

section Found

variable {content log : Octets}

/-- The footer says where the content ends. -/
theorem responseContentLength_footer (hlog : log.length ≤ afpslIpcLogBufferSize) :
    responseContentLength (content ++ (log ++ logFooter log.length)) = some content.length := by
  have hlen : (content ++ (log ++ logFooter log.length)).length =
      (content ++ log).length + ipcLogFooterSize := by
    simp [logFooter, ipcLogFooterSize, add_assoc]
  have hend : (content ++ (log ++ logFooter log.length)).length - ipcLogFooterSize =
      (content ++ log).length := by
    omega
  have hmagic : (content ++ (log ++ logFooter log.length)).le32 (content ++ log).length =
      afpslIpcLogMagic := by
    rw [← append_assoc]
    exact (le32_append_right _ _ 0).trans (le32_le32Octets_append _ (by decide))
  have hlogLen : (content ++ (log ++ logFooter log.length)).le32 ((content ++ log).length + 4) =
      log.length := by
    rw [← append_assoc, le32_append_right, ← append_nil (logFooter log.length),
      logFooter, append_assoc]
    exact (le32_append_right (le32Octets afpslIpcLogMagic) _ 0).trans
      (le32_le32Octets_append _ (lt_of_le_of_lt hlog (by decide)))
  unfold responseContentLength
  rw [if_neg (by omega)]
  simp only [hend, hmagic, hlogLen]
  rw [if_neg, length_append, Nat.add_sub_cancel]
  rw [length_append]
  omega

/-- The messages of a frame are dispatched as they were packed. -/
theorem dispatchResponseLogs_footer (hlog : log.length ≤ afpslIpcLogBufferSize) :
    dispatchResponseLogs (content ++ (log ++ logFooter log.length)) = dispatchLogs log := by
  have hend : (content ++ (log ++ logFooter log.length)).length - ipcLogFooterSize =
      (content ++ log).length := by
    simp [logFooter, ipcLogFooterSize, ← add_assoc]
  rw [dispatchResponseLogs, responseContentLength_footer hlog]
  dsimp only
  rw [hend, ← append_assoc, take_left, drop_left]

end Found

/-- What `send_command` gets out in whole is the response. -/
theorem writeLoop_zero {response sent : Octets} {total : ℕ} {ws : List WriteCall}
    (htotal : total ≤ response.length) (h : writeLoop response total ws = (0, sent)) :
    sent = response := by
  have hdone : ∀ {total : ℕ}, ¬ total < response.length → response.take total = response :=
    fun hge => take_of_length_le (Nat.le_of_not_lt hge)
  induction ws generalizing total with
  | nil =>
    rw [writeLoop] at h
    obtain ⟨hret, rfl⟩ := Prod.mk.inj h
    split at hret
    · cases hret
    · next hge => exact hdone hge
  | cons w ws ih =>
    rw [writeLoop.eq_def] at h
    dsimp only at h
    split at h
    · split at h
      · exact ih htotal h
      · cases h
      · cases h
      · exact ih (min_le_right _ _) h
    · next hge =>
      obtain ⟨-, rfl⟩ := Prod.mk.inj h
      exact hdone hge

/-- The frame of a content and a log: the content, with the length of the
frame in its header, the log and the footer. -/
theorem frameResponse_eq (c : ResponseContent) {log : Octets}
    (hlog : log.length ≤ afpslIpcLogBufferSize) :
    frameResponse true log c.data = some (c.data.overwrite 4 (le32Octets
      (c.data ++ (log ++ logFooter log.length)).length) ++ (log ++ logFooter log.length)) := by
  have hhead := c.header_le
  have hlen := c.len_le
  simp only [ipcResponseHeaderSize, ipcLogFooterSize, uintMax, afpslIpcLogBufferSize]
    at hhead hlen hlog
  unfold frameResponse
  rw [if_neg (by simp only [ipcResponseHeaderSize]; omega),
    if_neg (by simp only [ipcLogFooterSize, uintMax, afpslIpcLogBufferSize]; omega),
    if_neg (by decide)]
  dsimp only
  rw [overwrite_append (by rw [length_le32Octets]; omega)]

/-- What the frame of a content and the messages of its command is to the
client. -/
structure Framed (c : ResponseContent) (ms : List LogMessage) (frame : Octets) : Prop where
  len_eq : Response.len frame = frame.length
  le_length : c.data.length + ipcLogFooterSize ≤ frame.length
  length_le : frame.length ≤ c.data.length + afpslIpcLogBufferSize + ipcLogFooterSize
  contentLength : responseContentLength frame = some c.data.length
  content : frame.take c.data.length = c.data.overwrite 4 (le32Octets frame.length)
  logs : dispatchResponseLogs frame = (0, fitting afpslIpcLogBufferSize (recent [] ms))

theorem text_length_le {room : ℕ} {m : LogMessage} {ms : List LogMessage}
    (h : m ∈ fitting room ms) : m.text.length ≤ room := by
  induction ms generalizing room with
  | nil => cases h
  | cons m' ms ih =>
    rw [fitting] at h
    split at h
    · rcases mem_cons.mp h with rfl | hrest
      · rw [shorten_text, length_take]
        omega
      · have := ih hrest
        omega
    · cases h

/-- The messages of a command as they stand behind its response. -/
theorem outgoingString_dispatched (ms : List LogMessage) :
    (outgoingString ms).length ≤ afpslIpcLogBufferSize ∧
      dispatchLogs (outgoingString ms) = (0, fitting afpslIpcLogBufferSize (recent [] ms)) := by
  rw [outgoingString_eq, length_encoded]
  exact ⟨packed_fitting_le _ _, dispatchLogs_encoded fun _ hm => text_length_le hm⟩

/-- **Every response is framed**: the client finds the content whatever the
messages, and dispatches those that were kept. -/
theorem exists_framed (c : ResponseContent) (ms : List LogMessage) :
    ∃ frame, frameResponse true (outgoingString ms) c.data = some frame ∧ Framed c ms frame := by
  obtain ⟨hlog, hdispatch⟩ := outgoingString_dispatched ms
  generalize outgoingString ms = log at hlog hdispatch ⊢
  have hframe := frameResponse_eq c hlog
  generalize htotal : (c.data ++ (log ++ logFooter log.length)).length = total at hframe
  have hcontent : (c.data.overwrite 4 (le32Octets total)).length = c.data.length := by
    have := c.header_le
    rw [length_overwrite, length_le32Octets]
    simp only [ipcResponseHeaderSize] at this
    omega
  have hlens : (c.data.overwrite 4 (le32Octets total) ++
      (log ++ logFooter log.length)).length = total := by
    rw [length_append, hcontent, ← htotal]
    exact length_append.symm
  have hsum : total = c.data.length + (log.length + ipcLogFooterSize) := by
    rw [← htotal, length_append, length_append]
    rfl
  have hsmall : total < 4294967296 := by
    have := c.len_le
    simp only [uintMax, afpslIpcLogBufferSize, ipcLogFooterSize] at this hlog hsum
    omega
  rw [hframe]
  refine ⟨_, rfl, ?_⟩
  constructor
  · rw [hlens, Response.len, le32_append (by rw [hcontent]; exact c.header_le),
      le32_overwrite _ _ hsmall]
  · rw [hlens]
    omega
  · rw [hlens]
    omega
  · rw [responseContentLength_footer hlog, hcontent]
  · rw [hlens, ← hcontent, take_left]
  · rw [dispatchResponseLogs_footer hlog, hdispatch]

/-- **The trailer is transparent**: what the client is sent is one frame
of the length its header says, the client finds the content in it, with
that length in its header, and dispatches messages that begin those of the
command. -/
def Transparent (data : Octets) (ms : List LogMessage) : Prop :=
  ∃ frame recs, frameResponse true (outgoingString ms) data = some frame ∧
    (∀ ws sent, sendCommand true (outgoingString ms) data ws = (0, sent) → sent = frame) ∧
    Response.len frame = frame.length ∧
    responseContentLength frame = some data.length ∧
    frame.take data.length = data.overwrite 4 (le32Octets frame.length) ∧
    dispatchResponseLogs frame = (0, recs) ∧ Begins recs ms

section Transparent

variable {c : ResponseContent} {ms : List LogMessage}

/-- All that can go wrong is what was kept. -/
theorem transparent_iff_begins (c : ResponseContent) (ms : List LogMessage) :
    Transparent c.data ms ↔ Begins (fitting afpslIpcLogBufferSize (recent [] ms)) ms := by
  obtain ⟨frame, hframe, hframed⟩ := exists_framed c ms
  constructor
  · rintro ⟨frame', recs, hsome, -, -, -, -, hrecs, hbegins⟩
    cases Option.some.inj (hframe.symm.trans hsome)
    rw [hframed.logs] at hrecs
    rw [(Prod.mk.inj hrecs).2]
    exact hbegins
  · intro hbegins
    refine ⟨frame, _, hframe, ?_, hframed.len_eq, hframed.contentLength, hframed.content,
      hframed.logs, hbegins⟩
    intro ws sent hsent
    rw [sendCommand, hframe] at hsent
    exact writeLoop_zero (Nat.zero_le _) hsent

end Transparent

/-! ## Four messages that fill the buffer, and a fifth -/

/-- A response of a header only. -/
def headerOnly : ResponseContent := ⟨replicate 8 0, by decide, by decide⟩

/-- A message that takes a quarter of the buffer. -/
def quarterMessage : LogMessage :=
  ⟨6, replicate 1016 97, fun h => absurd (eq_of_mem_replicate h) (by decide)⟩

/-- A message of one octet. -/
def shortMessage : LogMessage := ⟨3, [98], by decide⟩

/-- Four messages that fill the buffer, and a fifth. -/
def fiveMessages : List LogMessage :=
  [quarterMessage, quarterMessage, quarterMessage, quarterMessage, shortMessage]

end NetatalkClient
