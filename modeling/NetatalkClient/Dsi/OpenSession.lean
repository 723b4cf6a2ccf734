import Mathlib.Data.List.Induction
import NetatalkClient.Common.TypedValues
import NetatalkClient.Dsi.Helpers.Recv
import NetatalkClient.Dsi.Model.OpenSession
/-!
# What a server's OpenSession replies say

The options of a reply are those the payload holds (`TypedValue.Holds`), up
to the first that is cut off. The quantum of a server is always that of its
last reply. Its replay cache is not: nothing takes back what a reply has
announced, so a server that once had a replay cache keeps it over every
reconnect. What it has of the cache is as its last reply says exactly if
that reply announces one, or no reply ever did.
-/

namespace NetatalkClient

open Octets List AfpServer Option

variable {σ : Type} {os : List TypedValue}

/-! ## The options of one reply -/

/-- The value that the last option of a kind has, of those with a number of
32 bits. -/
def sentNumber (kind : ℕ) (os : List TypedValue) : Option ℕ :=
  ((os.filter fun o => o.kind.toNat = kind ∧ o.value.length = 4).getLast?).map (·.value.be32 0)

/-- The payload of a packet. -/
def payloadOf (packet : Octets) : Octets := packet.drop headerSize

/-- A reply announces a replay cache. -/
def AnnouncesCache (packet : Octets) : Prop :=
  ∃ os, TypedValue.Holds (payloadOf packet) os ∧ (sentNumber kServerReplayCacheSize os).isSome

theorem sentNumber_cons (kind : ℕ) (o : TypedValue) (os : List TypedValue) :
    sentNumber kind (o :: os) = (sentNumber kind os).or
      (if o.kind.toNat = kind ∧ o.value.length = 4 then some (o.value.be32 0) else none) := by
  have hlast : ∀ (o : TypedValue) (l : List TypedValue),
      (o :: l).getLast? = l.getLast?.or (some o) := fun o l => by
    rw [getLast?_cons]
    cases l.getLast? <;> rfl
  unfold sentNumber
  by_cases hkind : o.kind.toNat = kind ∧ o.value.length = 4
  · rw [filter_cons_of_pos (by simpa using hkind), hlast, if_pos hkind, map_or]
    rfl
  · rw [filter_cons_of_neg (by simpa using hkind), if_neg hkind, or_none]

/-- What the options of a reply do to the server. -/
structure OptionsRead (os : List TypedValue) (s s' : AfpServer σ) : Prop where
  quantum : s'.txQuantum = (sentNumber 0 os).getD s.txQuantum
  size : s'.replayCacheSize = (sentNumber kServerReplayCacheSize os).getD s.replayCacheSize
  supports : s'.supportsReplayCache =
    (s.supportsReplayCache || (sentNumber kServerReplayCacheSize os).isSome)

/-- One option, and then the others. -/
theorem OptionsRead.cons {o : TypedValue} {s s' : AfpServer σ}
    (h : OptionsRead os
      (if o.kind.toNat = 0 ∧ o.value.length = 4 then { s with txQuantum := o.value.be32 0 }
        else if o.kind.toNat = kServerReplayCacheSize ∧ o.value.length = 4 then
          { s with replayCacheSize := o.value.be32 0, supportsReplayCache := true }
        else s) s') : OptionsRead (o :: os) s s' := by
  have hor : ∀ (a b : Option ℕ) (d : ℕ), (a.or b).getD d = a.getD (b.getD d) := fun a b d => by
    cases a <;> rfl
  have hsome : ∀ a b : Option ℕ, (a.or b).isSome = (b.isSome || a.isSome) := fun a b => by
    cases a <;> cases b <;> rfl
  constructor
  all_goals rw [sentNumber_cons]
  · rw [hor, h.quantum]
    split
    · rfl
    · split
      · rfl
      · rfl
  · rw [hor, h.size]
    split
    · next hzero =>
      rw [if_neg (by rintro ⟨hkind, -⟩; simp only [kServerReplayCacheSize] at hkind; omega)]
      rfl
    · split
      · rfl
      · rfl
  · rw [hsome, h.supports, ← Bool.or_assoc]
    split
    · next hzero =>
      rw [if_neg (by rintro ⟨hkind, -⟩; simp only [kServerReplayCacheSize] at hkind; omega)]
      exact congrArg (· || _) (Bool.or_false _).symm
    · split
      · exact congrArg (· || _) (Bool.or_true _).symm
      · exact congrArg (· || _) (Bool.or_false _).symm

/-- **The option loop reads the options that the payload holds.** The
induction is on the options; the loop stops at what is behind the last. -/
theorem optionsRead_opensessionOptions {p : Octets}
    (h : TypedValue.Holds p os) {fuel : ℕ} (hfuel : p.length ≤ fuel) (s : AfpServer σ) :
    OptionsRead os s (opensessionOptions fuel p s) := by
  induction os generalizing p fuel s with
  | nil =>
    have hstop : opensessionOptions fuel p s = s := by
      match fuel, p, h.cut with
      | 0, _, _ => rfl
      | _ + 1, [], _ => rfl
      | _ + 1, [_], _ => rfl
      | fuel + 1, kind :: len :: rest, hcut =>
        have hshort : rest.length < len.toNat := by
          rcases hcut with hlt | hlt
          · exact absurd hlt (Nat.not_lt.mpr (Nat.le_add_left 2 _))
          · have hbyte : byte (kind :: len :: rest) 1 = len.toNat := rfl
            rw [hbyte, length_cons, length_cons] at hlt
            omega
        rw [opensessionOptions, if_pos hshort]
    rw [hstop]
    exact ⟨rfl, rfl, (Bool.or_false _).symm⟩
  | cons o os ih =>
    obtain ⟨q, rfl, hq⟩ := h.tail
    rw [length_append, TypedValue.length_encode] at hfuel
    obtain ⟨fuel, rfl⟩ : ∃ n, fuel = n + 1 := ⟨fuel - 1, by omega⟩
    have hle := o.length_le
    have hlen : (UInt8.ofNat o.value.length).toNat = o.value.length := by
      rw [UInt8.toNat_ofNat']
      omega
    have hvalue : o.value.length = 4 → (o.value ++ q).be32 0 = o.value.be32 0 := fun hfour =>
      be32_congr fun j _ hj => byte_append (by omega)
    show OptionsRead (o :: os) s (opensessionOptions (fuel + 1)
      (o.kind :: UInt8.ofNat o.value.length :: (o.value ++ q)) s)
    rw [opensessionOptions, hlen, if_neg (by rw [length_append]; omega)]
    refine .cons ?_
    rw [drop_left]
    by_cases hfour : o.value.length = 4
    · rw [hvalue hfour]
      exact ih hq (by omega) _
    · simp only [hfour, and_false, if_false]
      exact ih hq (by omega) _

/-- The quantum that a server takes from a reply. -/
def quantumOf (os : List TypedValue) : ℕ :=
  match sentNumber 0 os with
  | none => dsiDefaultTxQuantum
  | some 0 => dsiDefaultTxQuantum
  | some quantum => quantum

/-! ## A reply to a server -/

section Reply

variable {packet : Octets} {os : List TypedValue} {s : AfpServer σ}

/-- **One reply**: the quantum is as sent, and the cache is as sent where
one was. -/
theorem sessionStep_reply (h : TypedValue.Holds (payloadOf packet) os) (s : AfpServer σ) :
    (s.sessionStep (.opensessionReply packet)).txQuantum = quantumOf os ∧
      (s.sessionStep (.opensessionReply packet)).replayCacheSize =
        (sentNumber kServerReplayCacheSize os).getD s.replayCacheSize ∧
      (s.sessionStep (.opensessionReply packet)).supportsReplayCache =
        (s.supportsReplayCache || (sentNumber kServerReplayCacheSize os).isSome) := by
  have hreceived : AfpServer.received
      { s with incomingBuffer := packet, dataRead := packet.length } = packet :=
    window_length packet
  have hread := optionsRead_opensessionOptions h
    (show (payloadOf packet).length ≤ packet.length by rw [payloadOf, length_drop]; omega)
    { s with incomingBuffer := packet, dataRead := packet.length, txQuantum := 0 }
  show (opensessionReply _).txQuantum = _ ∧
    (opensessionReply _).replayCacheSize = _ ∧ (opensessionReply _).supportsReplayCache = _
  unfold opensessionReply
  rw [hreceived]
  dsimp only
  refine ⟨?_, ?_, ?_⟩
  · have hquantum := hread.quantum
    rw [quantumOf]
    cases hsent : sentNumber 0 os with
    | none =>
      rw [hsent] at hquantum
      exact congrArg txQuantum (if_pos hquantum)
    | some n =>
      rw [hsent] at hquantum
      cases n with
      | zero => exact congrArg txQuantum (if_pos hquantum)
      | succ n =>
        refine (congrArg txQuantum (if_neg fun hzero => ?_)).trans hquantum
        exact absurd (hquantum.symm.trans hzero) (Nat.succ_ne_zero n)
  · rw [← hread.size]
    split
    · rfl
    · rfl
  · rw [← hread.supports]
    split
    · rfl
    · rfl

end Reply

/-! ## A server over its connections -/

/-- The packets of the replies that came, in order. -/
def opensessionReplies (es : List SessionEvent) : List Octets :=
  es.filterMap fun
    | .opensessionReply packet => some packet
    | _ => none

/-- The server is as its last reply says. -/
structure ReadAsSent (s : AfpServer σ) (replies : List Octets) : Prop where
  quantum : ∀ packet os, replies.getLast? = some packet →
    TypedValue.Holds (payloadOf packet) os → s.txQuantum = quantumOf os
  size : ∀ packet os, replies.getLast? = some packet → TypedValue.Holds (payloadOf packet) os →
    s.replayCacheSize = (sentNumber kServerReplayCacheSize os).getD 0
  supports : s.supportsReplayCache = true ↔
    ∃ packet, replies.getLast? = some packet ∧ AnnouncesCache packet

/-- What a server has of its replies: the quantum is that of the last, and
a cache is there if any announced one. -/
structure Remembers (s : AfpServer σ) (replies : List Octets) : Prop where
  quantum : ∀ packet os, replies.getLast? = some packet →
    TypedValue.Holds (payloadOf packet) os → s.txQuantum = quantumOf os
  supports : s.supportsReplayCache = true ↔ ∃ packet ∈ replies, AnnouncesCache packet
  size_none : (∀ packet ∈ replies, ¬AnnouncesCache packet) → s.replayCacheSize = 0
  size_last : ∀ packet os, replies.getLast? = some packet → AnnouncesCache packet →
    TypedValue.Holds (payloadOf packet) os →
    s.replayCacheSize = (sentNumber kServerReplayCacheSize os).getD 0

theorem announcesCache_iff {packet : Octets} (h : TypedValue.Holds (payloadOf packet) os) :
    AnnouncesCache packet ↔ (sentNumber kServerReplayCacheSize os).isSome = true := by
  constructor
  · rintro ⟨os', h', hsome⟩
    rwa [h.unique h']
  · intro hsome
    exact ⟨os, h, hsome⟩

theorem remembers_init (session : σ) : Remembers (afpServerInit session) [] where
  quantum := nofun
  supports := ⟨nofun, fun ⟨_, hmem, _⟩ => absurd hmem not_mem_nil⟩
  size_none _ := rfl
  size_last := nofun

/-- A step that is no reply leaves the fields as they are. -/
theorem sessionStep_other {e : SessionEvent} (he : ∀ packet, e ≠ .opensessionReply packet)
    (s : AfpServer σ) : (s.sessionStep e).txQuantum = s.txQuantum ∧
      (s.sessionStep e).supportsReplayCache = s.supportsReplayCache ∧
      (s.sessionStep e).replayCacheSize = s.replayCacheSize := by
  cases e with
  | connect fd => cases fd <;> exact ⟨rfl, rfl, rfl⟩
  | disconnect =>
    show (loopDisconnect s).txQuantum = _ ∧
      (loopDisconnect s).supportsReplayCache = _ ∧ (loopDisconnect s).replayCacheSize = _
    unfold loopDisconnect
    split
    · exact ⟨rfl, rfl, rfl⟩
    · exact ⟨rfl, rfl, rfl⟩
  | setupHeader => exact ⟨rfl, rfl, rfl⟩
  | opensessionReply packet => exact absurd rfl (he packet)

/-- **The step lemma.** -/
theorem Remembers.step {s : AfpServer σ} {replies : List Octets} (h : Remembers s replies)
    (e : SessionEvent) : Remembers (s.sessionStep e) (replies ++ opensessionReplies [e]) := by
  by_cases he : ∃ packet, e = .opensessionReply packet
  · obtain ⟨packet, rfl⟩ := he
    show Remembers _ (replies ++ [packet])
    obtain ⟨os, hos⟩ := TypedValue.exists_holds (payloadOf packet)
    obtain ⟨hquantum, hsize, hsupports⟩ := sessionStep_reply hos s
    have hlast : ∀ packet', (replies ++ [packet]).getLast? = some packet' → packet = packet' :=
      fun packet' h => some.inj (getLast?_concat.symm.trans h)
    constructor
    · intro packet' os' h' hos'
      obtain rfl := hlast packet' h'
      rw [hquantum, hos.unique hos']
    · rw [hsupports, Bool.or_eq_true, h.supports, ← announcesCache_iff hos]
      simp only [mem_append, mem_singleton, or_and_right, exists_or, exists_eq_left]
    · intro hnone
      have hnot := hnone packet (mem_append_right _ (mem_singleton.mpr rfl))
      rw [announcesCache_iff hos, Bool.not_eq_true, isSome_eq_false_iff, isNone_iff_eq_none] at hnot
      rw [hsize, hnot]
      exact h.size_none fun packet hmem => hnone packet (mem_append_left _ hmem)
    · intro packet' os' h' hann hos'
      obtain rfl := hlast packet' h'
      obtain ⟨n, hn⟩ := isSome_iff_exists.mp ((announcesCache_iff hos).mp hann)
      rw [hsize, ← hos.unique hos', hn]
      rfl
  · have hother : ∀ packet, e ≠ .opensessionReply packet := fun packet h => he ⟨packet, h⟩
    obtain ⟨hquantum, hsupports, hsize⟩ := sessionStep_other hother s
    have hreplies : replies ++ opensessionReplies [e] = replies := by
      cases e with
      | opensessionReply packet => exact absurd rfl (hother packet)
      | _ => exact append_nil replies
    rw [hreplies]
    exact ⟨hquantum ▸ h.quantum, hsupports ▸ h.supports, hsize ▸ h.size_none, hsize ▸ h.size_last⟩

/-- **The run lemma.** -/
theorem remembers_sessionRun (session : σ) (es : List SessionEvent) :
    Remembers (sessionRun session es) (opensessionReplies es) := by
  induction es using reverseRecOn with
  | nil => exact remembers_init session
  | append_singleton es e ih =>
    have hrun : sessionRun session (es ++ [e]) =
        (sessionRun session es).sessionStep e := foldl_append
    rw [hrun, opensessionReplies, filterMap_append]
    exact ih.step e

/-- **A server is as its last reply says exactly if that reply announces a
replay cache or none ever did.** -/
theorem opensession_read_as_sent_iff (session : σ) (es : List SessionEvent) :
    ReadAsSent (sessionRun session es) (opensessionReplies es) ↔
      (∃ packet, (opensessionReplies es).getLast? = some packet ∧ AnnouncesCache packet) ∨
        ∀ packet ∈ opensessionReplies es, ¬AnnouncesCache packet := by
  have hrun := remembers_sessionRun session es
  constructor
  · intro h
    by_cases hlast : ∃ packet, (opensessionReplies es).getLast? = some packet ∧
        AnnouncesCache packet
    · exact .inl hlast
    · refine .inr fun packet hmem hann => hlast (h.supports.mp ?_)
      exact hrun.supports.mpr ⟨packet, hmem, hann⟩
  · rintro (⟨packet, hlast, hann⟩ | hnone)
    · refine ⟨hrun.quantum, ?_, ?_⟩
      · intro packet' os hlast' hos
        obtain rfl : packet = packet' := some.inj (hlast.symm.trans hlast')
        exact hrun.size_last packet os hlast hann hos
      · refine ⟨fun _ => ⟨packet, hlast, hann⟩, fun _ => hrun.supports.mpr ?_⟩
        exact ⟨packet, mem_of_getLast? hlast, hann⟩
    · refine ⟨hrun.quantum, ?_, ?_⟩
      · intro packet os hlast hos
        have hnot := hnone packet (mem_of_getLast? hlast)
        rw [announcesCache_iff hos, Bool.not_eq_true, isSome_eq_false_iff,
          isNone_iff_eq_none] at hnot
        rw [hrun.size_none hnone, hnot]
        rfl
      · constructor
        · intro htrue
          obtain ⟨packet, hmem, hann⟩ := hrun.supports.mp htrue
          exact absurd hann (hnone packet hmem)
        · rintro ⟨packet, hlast, hann⟩
          exact absurd hann (hnone packet (mem_of_getLast? hlast))

/-- The packet of an OpenSession reply with the given payload. -/
def opensessionPacket (payload : Octets) : Octets :=
  [1, 4, 0, 1, 0, 0, 0, 0, 0, 0, 0, UInt8.ofNat payload.length, 0, 0, 0, 0] ++ payload

/-- The server quantum 0x10000 and a replay cache of 32 replies. -/
def withCache : Octets := opensessionPacket [0, 4, 0, 1, 0, 0, 2, 4, 0, 0, 0, 32]

/-- The server quantum alone. -/
def withoutCache : Octets := opensessionPacket [0, 4, 0, 1, 0, 0]

/-- A server that reconnects to one without a replay cache. -/
def reconnected : List SessionEvent :=
  [.connect (some 3), .opensessionReply withCache, .disconnect, .connect (some 4),
    .opensessionReply withoutCache]

/-- The cache of the first session is still there in the second, whose reply
announces none. -/
theorem replay_cache_outlives_reconnect :
    (opensessionReplies reconnected).getLast? = some withoutCache ∧
      ¬AnnouncesCache withoutCache ∧
      (sessionRun () reconnected).supportsReplayCache = true ∧
      (sessionRun () reconnected).replayCacheSize = 32 ∧
      ¬ReadAsSent (sessionRun () reconnected) (opensessionReplies reconnected) := by
  have hholds : TypedValue.Holds (payloadOf withoutCache) [⟨0, [0, 1, 0, 0], by decide⟩] :=
    ⟨[], rfl, .inl (by decide)⟩
  have hnot : ¬AnnouncesCache withoutCache := by
    rw [announcesCache_iff hholds]
    decide
  have hsupports : (sessionRun () reconnected).supportsReplayCache = true := by decide
  refine ⟨by decide, hnot, hsupports, by decide, fun h => ?_⟩
  obtain ⟨packet, hlast, hann⟩ := h.supports.mp hsupports
  obtain rfl : withoutCache = packet := some.inj ((by decide :
    (opensessionReplies reconnected).getLast? = some withoutCache).symm.trans hlast)
  exact hnot hann

end NetatalkClient
