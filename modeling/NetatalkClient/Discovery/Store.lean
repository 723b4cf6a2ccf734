import NetatalkClient.Discovery.Model.Store
import Mathlib.Data.Finset.Basic
import Mathlib.Data.Finset.Filter
import Mathlib.Data.Fintype.Basic
/-!
# The discovery store as a map from services to sources

What the store is for: each service with the set of sources that announce
it. A source mask is a set of bits, an announcement adds its bits to the
set of the service it names, and a withdrawal takes them away. The entries
of the store are the services whose set is not empty, and the queued
events are the changes of this set of services (`discovery_refines`).
-/

namespace NetatalkClient

open List Discovery

/-! ## Masks and texts -/

/-- The bits of a mask. -/
def bits (mask : BitVec 32) : Finset (Fin 32) :=
  Finset.univ.filter fun i => mask.getLsbD i = true

variable {mask : BitVec 32} {s : DiscoveryService}

theorem mem_bits {i : Fin 32} : i ∈ bits mask ↔ mask.getLsbD i = true := by
  simp [bits]

theorem bits_or (a b : BitVec 32) : bits (a ||| b) = bits a ∪ bits b := by
  ext i
  simp [mem_bits]

theorem bits_and_not (a b : BitVec 32) : bits (a &&& ~~~b) = bits a \ bits b := by
  ext i
  simp [mem_bits]

theorem bits_eq_empty_iff : bits mask = ∅ ↔ mask = 0 := by
  constructor
  · intro h
    refine BitVec.eq_of_getLsbD_eq fun i hi => ?_
    have hno : (⟨i, hi⟩ : Fin 32) ∉ bits mask := by
      rw [h]
      exact Finset.notMem_empty _
    rw [mem_bits, Bool.not_eq_true] at hno
    simpa using hno
  · rintro rfl
    ext i
    simp [mem_bits]

theorem networkChar_networkChar (ch : UInt8) : networkChar (networkChar ch) = networkChar ch := by
  unfold networkChar
  split
  · rfl
  · rfl

theorem networkChar_eq_dot {ch : UInt8} : networkChar ch = 0x2e ↔ ch = 0x2e := by
  unfold networkChar
  constructor
  · intro h
    split at h
    · exact absurd h (by decide)
    · exact h
  · rintro rfl
    rfl

theorem cutDot_map (type : Octets) :
    cutDot (type.map networkChar) = (cutDot type).map networkChar := by
  have hlast : (type.map networkChar).getLast? = some 0x2e ↔ type.getLast? = some 0x2e := by
    rw [getLast?_map, Option.map_eq_some_iff]
    constructor
    · rintro ⟨ch, hch, hdot⟩
      rw [hch, networkChar_eq_dot.mp hdot]
    · exact fun h => ⟨0x2e, h, rfl⟩
  rw [cutDot, cutDot]
  by_cases h : type.getLast? = some 0x2e
  · rw [if_pos (hlast.mpr h), if_pos h, map_dropLast]
  · rw [if_neg (h ∘ hlast.mp), if_neg h]

/-- A service as the store keeps it. -/
def normalService (s : DiscoveryService) : DiscoveryService :=
  ⟨s.instanceName.map networkChar, cutDot (s.type.map networkChar), s.domain.map networkChar,
    s.interfaceIndex⟩

/-- A service in the arrays of a notification, whose type ends with at most
one dot. -/
structure Announceable (s : DiscoveryService) : Prop where
  instanceName : s.instanceName.length < afpcDiscoveryInstanceLen
  type : s.type.length < afpcDiscoveryTypeLen
  domain : s.domain.length < afpcDiscoveryDomainLen
  oneDot : (cutDot s.type).getLast? ≠ some 0x2e

theorem length_cutDot_le (type : Octets) : (cutDot type).length ≤ type.length := by
  unfold cutDot
  split
  · rw [length_dropLast]
    omega
  · exact le_rfl

theorem copyNetworkText_of_lt {n : ℕ} {source : Octets} (h : source.length < n) :
    copyNetworkText n source = .ok (source.map networkChar) := if_neg (not_le.mpr h)

theorem Announceable.copyService (h : Announceable s) : copyService s = .ok (normalService s) := by
  rw [NetatalkClient.copyService, copyNetworkText_of_lt h.instanceName,
    copyNetworkText_of_lt h.type, copyNetworkText_of_lt h.domain]
  rfl

/-- What the store keeps is copied as it is. -/
theorem Announceable.normal (h : Announceable s) :
    NetatalkClient.copyService (normalService s) = .ok (normalService s) := by
  have htwice : ∀ text : Octets, (text.map networkChar).map networkChar = text.map networkChar := by
    intro text
    rw [map_map]
    exact map_congr_left fun ch _ => networkChar_networkChar ch
  have htype := lt_of_le_of_lt (length_cutDot_le s.type) h.type
  have hdot : cutDot ((cutDot s.type).map networkChar) = (cutDot s.type).map networkChar := by
    rw [cutDot_map]
    exact congrArg (List.map networkChar) (if_neg h.oneDot)
  rw [normalService, cutDot_map, NetatalkClient.copyService,
    copyNetworkText_of_lt (by rw [length_map]; exact h.instanceName),
    copyNetworkText_of_lt (by rw [length_map]; exact htype),
    copyNetworkText_of_lt (by rw [length_map]; exact h.domain), htwice, htwice, htwice]
  change Except.ok (DiscoveryService.mk _ (cutDot ((cutDot s.type).map networkChar)) _ _) = _
  rw [hdot]

/-! ## The map and the replay -/

/-- The sources of a notification. -/
def sourceOf (event : DiscoveryBackendEvent) : BitVec 32 :=
  if event.source ≠ 0 then event.source else afpcDiscoverySourceUnspec

/-- Each service with the sources that announce it. -/
abbrev Announced := DiscoveryService → Finset (Fin 32)

/-- What a notification says about its service. -/
def Announced.notify (a : Announced) (event : DiscoveryBackendEvent) : Announced :=
  match event.type with
  | .add => Function.update a (normalService event.service)
      (a (normalService event.service) ∪ bits (sourceOf event))
  | .remove => Function.update a (normalService event.service)
      (a (normalService event.service) \ bits (sourceOf event))
  | _ => a

/-- One event, for a user who keeps a set of services. -/
def replayEvent (services : Finset DiscoveryService) (event : DiscoveryEvent) :
    Finset DiscoveryService :=
  match event.type with
  | .add => insert event.service services
  | .remove => services.erase event.service
  | _ => services

/-- The services of the store. -/
def Discovery.services (d : Discovery) : List DiscoveryService := d.entries.map (·.service)

/-- The store agrees with the map and with its events. -/
structure Discovery.Refines (d : Discovery) (a : Announced) : Prop where
  nodup : d.services.Nodup
  sources : ∀ entry ∈ d.entries, bits entry.sources = a entry.service
  stored : ∀ v, v ∈ d.services ↔ a v ≠ ∅
  normal : ∀ v ∈ d.services, copyService v = .ok v
  replay : d.events.foldl replayEvent ∅ = d.services.toFinset

/-! ## One notification -/

variable {d : Discovery} {a : Announced} {v : DiscoveryService}
variable {entries front back : List DiscoveryEntry} {entry : DiscoveryEntry}

theorem findEntry_eq_some (h : findEntry v entries = some (front, entry, back)) :
    entries = front ++ entry :: back ∧ entry.service = v := by
  induction entries generalizing front with
  | nil => cases h
  | cons first entries ih =>
    rw [findEntry] at h
    split at h
    · next heq =>
      cases h
      exact ⟨rfl, heq⟩
    · obtain ⟨⟨before, rest⟩, hfound, heq⟩ := Option.map_eq_some_iff.mp h
      obtain ⟨rfl, rfl⟩ := Prod.mk.inj heq
      obtain ⟨hentries, hservice⟩ := ih hfound
      exact ⟨by rw [hentries]; rfl, hservice⟩

theorem findEntry_eq_none (h : findEntry v entries = none) : v ∉ entries.map (·.service) := by
  induction entries with
  | nil => exact not_mem_nil
  | cons first entries ih =>
    rw [findEntry] at h
    split at h
    · cases h
    · next hne =>
      rw [map_cons, mem_cons, not_or]
      exact ⟨Ne.symm hne, ih (Option.map_eq_none_iff.mp h)⟩

theorem queueEvent_of_normal {type : DiscoveryEventType} (h : copyService v = .ok v) :
    queueEvent d type (some v) 0 none =
      (0, { d with events := d.events ++ [⟨type, v, 0, []⟩] }) := by
  simp only [queueEvent, Option.elim_some, Option.elim_none, h]

theorem bits_sourceOf_ne (event : DiscoveryBackendEvent) : bits (sourceOf event) ≠ ∅ := by
  rw [Ne, bits_eq_empty_iff, sourceOf]
  split
  · assumption
  · decide

namespace Discovery.Refines

variable {sources : BitVec 32}

/-- Other sources for the entry of one service, which keeps some. -/
theorem resourced (h : d.Refines a) (hd : d.entries = front ++ entry :: back) (hne : sources ≠ 0) :
    Refines { d with entries := front ++ { entry with sources } :: back }
      (Function.update a entry.service (bits sources)) := by
  have hservices : services
      { d with entries := front ++ { entry with sources } :: back } = d.services := by
    simp [services, hd]
  have hmem : entry.service ∈ d.services := by
    simp [services, hd]
  have hnodup := h.nodup
  rw [services, hd, map_append, map_cons, nodup_middle, nodup_cons] at hnodup
  refine ⟨hservices ▸ h.nodup, fun other hother => ?_, fun u => ?_, hservices ▸ h.normal,
    hservices ▸ h.replay⟩
  · have hold : ∀ other ∈ front ++ back, bits other.sources =
        Function.update a entry.service (bits sources) other.service := by
      intro other hmem
      have hother : other ∈ d.entries := by
        rw [hd]
        exact mem_append.mpr ((mem_append.mp hmem).imp_right (mem_cons_of_mem _))
      have hne : other.service ≠ entry.service := by
        intro heq
        refine hnodup.1 ?_
        rw [← map_append, ← heq]
        exact mem_map_of_mem hmem
      rw [Function.update_of_ne hne, h.sources other hother]
    rcases mem_append.mp hother with hfront | hback
    · exact hold other (mem_append_left _ hfront)
    · rcases mem_cons.mp hback with rfl | hback
      · exact (Function.update_self entry.service (bits sources) a).symm
      · exact hold other (mem_append_right _ hback)
  · rw [hservices]
    by_cases hu : u = entry.service
    · rw [hu, Function.update_self]
      exact iff_of_true hmem (hne ∘ bits_eq_empty_iff.mp)
    · rw [Function.update_of_ne hu]
      exact h.stored u

/-- One more service. -/
theorem added (h : d.Refines a) (hnew : v ∉ d.services) (hv : copyService v = .ok v)
    (hne : sources ≠ 0) :
    Refines ⟨d.entries ++ [⟨v, sources⟩], d.events ++ [⟨.add, v, 0, []⟩]⟩
      (Function.update a v (bits sources)) := by
  have hservices : services
      ⟨d.entries ++ [⟨v, sources⟩], d.events ++ [⟨.add, v, 0, []⟩]⟩ = d.services ++ [v] := by
    simp [services]
  have hother : ∀ u ∈ d.services, u ≠ v := fun u hu heq => hnew (heq ▸ hu)
  refine ⟨?_, fun other hmem => ?_, fun u => ?_, fun u hu => ?_, ?_⟩
  · rw [hservices]
    exact nodup_append.mpr ⟨h.nodup, nodup_singleton v,
      fun u hu w hw => (mem_singleton.mp hw).symm ▸ hother u hu⟩
  · rcases mem_append.mp hmem with hold | hone
    · rw [Function.update_of_ne (hother _ (mem_map_of_mem hold)), h.sources other hold]
    · rw [mem_singleton.mp hone]
      exact (Function.update_self v (bits sources) a).symm
  · rw [hservices, mem_append, mem_singleton]
    by_cases hu : u = v
    · rw [hu, Function.update_self]
      exact iff_of_true (.inr rfl) (hne ∘ bits_eq_empty_iff.mp)
    · rw [Function.update_of_ne hu, or_iff_left hu]
      exact h.stored u
  · rw [hservices, mem_append, mem_singleton] at hu
    rcases hu with hold | rfl
    · exact h.normal u hold
    · exact hv
  · rw [hservices, foldl_append, h.replay, toFinset_append]
    ext u
    simp [replayEvent]

/-- A service that no source announces any more. -/
theorem removed (h : d.Refines a) (hd : d.entries = front ++ entry :: back) :
    Refines ⟨front ++ back, d.events ++ [⟨.remove, entry.service, 0, []⟩]⟩
      (Function.update a entry.service ∅) := by
  have hnodup := h.nodup
  have hservices : d.services = front.map (·.service) ++ entry.service :: back.map (·.service) := by
    simp [services, hd]
  have hrest : services
      ⟨front ++ back, d.events ++ [⟨.remove, entry.service, 0, []⟩]⟩ =
        front.map (·.service) ++ back.map (·.service) := by
    simp [services]
  rw [hservices, nodup_middle, nodup_cons] at hnodup
  have hkept : ∀ u, u ∈ front.map (·.service) ++ back.map (·.service) ↔
      u ∈ d.services ∧ u ≠ entry.service := by
    intro u
    rw [hservices, mem_append, mem_append, mem_cons]
    constructor
    · intro hu
      exact ⟨hu.imp_right .inr, fun heq => hnodup.1 (mem_append.mpr (heq ▸ hu))⟩
    · rintro ⟨hu, hne⟩
      exact hu.imp_right fun h => h.resolve_left hne
  refine ⟨hrest ▸ hnodup.2, fun other hmem => ?_, fun u => ?_, fun u hu => ?_, ?_⟩
  · have hother : other ∈ d.entries := by
      rw [hd]
      exact mem_append.mpr ((mem_append.mp hmem).imp_right (mem_cons_of_mem _))
    have hu := mem_map_of_mem (f := (·.service)) hmem
    rw [map_append] at hu
    rw [Function.update_of_ne ((hkept _).mp hu).2, h.sources other hother]
  · rw [hrest, hkept]
    by_cases hu : u = entry.service
    · rw [hu, Function.update_self]
      exact iff_of_false (fun hand => hand.2 rfl) fun hne => hne rfl
    · rw [Function.update_of_ne hu, and_iff_left hu]
      exact h.stored u
  · rw [hrest] at hu
    exact h.normal u ((hkept u).mp hu).1
  · rw [hrest, foldl_append, h.replay]
    ext u
    rw [mem_toFinset, hkept]
    simp [replayEvent, and_comm]

/-- An event that neither adds nor removes. -/
theorem queued (h : d.Refines a) {event : DiscoveryEvent} (hadd : event.type ≠ .add)
    (hremove : event.type ≠ .remove) : Refines { d with events := d.events ++ [event] } a := by
  refine ⟨h.nodup, h.sources, h.stored, h.normal, ?_⟩
  have hsame : replayEvent d.services.toFinset event = d.services.toFinset := by
    unfold replayEvent
    split
    · exact absurd ‹_› hadd
    · exact absurd ‹_› hremove
    · rfl
  rw [foldl_append, h.replay]
  exact hsame

end Discovery.Refines

theorem update_eq_self (h : a v = ∅) (sources : Finset (Fin 32)) :
    Function.update a v (a v \ sources) = a := by
  rw [h, Finset.empty_sdiff, ← h, Function.update_eq_self]

/-- **One notification** does to the store what it says. -/
theorem Discovery.Refines.emit (h : d.Refines a) {event : DiscoveryBackendEvent}
    (hevent : Announceable event.service) :
    (afpcDiscoveryBackendEmit d event).2.Refines (a.notify event) := by
  have hnormal := hevent.normal
  have hsource := bits_sourceOf_ne event
  have hsourceOf : (if event.source ≠ 0 then event.source else afpcDiscoverySourceUnspec) =
      sourceOf event := rfl
  unfold afpcDiscoveryBackendEmit Announced.notify
  rw [hevent.copyService]
  dsimp only
  rw [hsourceOf]
  cases htype : event.type with
  | error =>
    rw [if_pos rfl, queueEvent, Option.elim_none]
    dsimp only
    split
    · exact h
    · exact h.queued nofun nofun
  | update =>
    rw [if_neg (by decide)]
    cases findEntry (normalService event.service) d.entries with
    | none => exact h
    | some found =>
      dsimp only
      rw [queueEvent_of_normal hnormal]
      exact h.queued nofun nofun
  | add =>
    rw [if_neg (by decide)]
    cases hfind : findEntry (normalService event.service) d.entries with
    | none =>
      have hnew := findEntry_eq_none hfind
      have hnone : a (normalService event.service) = ∅ := not_not.mp (hnew ∘ (h.stored _).mpr)
      dsimp only
      rw [queueEvent_of_normal hnormal, hnone, Finset.empty_union]
      exact h.added hnew hnormal (hsource ∘ bits_eq_empty_iff.mpr)
    | some found =>
      obtain ⟨front, entry, back⟩ := found
      obtain ⟨hd, hservice⟩ := findEntry_eq_some hfind
      have hsources : bits entry.sources = a entry.service :=
        h.sources entry (by rw [hd]; exact mem_append_right _ mem_cons_self)
      have hunion : bits (entry.sources ||| sourceOf event) =
          a entry.service ∪ bits (sourceOf event) := by
        rw [bits_or, hsources]
      have hne : entry.sources ||| sourceOf event ≠ 0 := by
        intro hzero
        rw [hzero, bits_eq_empty_iff.mpr rfl] at hunion
        exact hsource (Finset.union_eq_empty.mp hunion.symm).2
      dsimp only
      rw [← hservice, ← hunion]
      exact h.resourced hd hne
  | remove =>
    rw [if_neg (by decide)]
    cases hfind : findEntry (normalService event.service) d.entries with
    | none =>
      have hnone : a (normalService event.service) = ∅ :=
        not_not.mp (findEntry_eq_none hfind ∘ (h.stored _).mpr)
      dsimp only
      rw [update_eq_self hnone]
      exact h
    | some found =>
      obtain ⟨front, entry, back⟩ := found
      obtain ⟨hd, hservice⟩ := findEntry_eq_some hfind
      have hsources : bits entry.sources = a entry.service :=
        h.sources entry (by rw [hd]; exact mem_append_right _ mem_cons_self)
      have hdiff : bits (entry.sources &&& ~~~sourceOf event) =
          a entry.service \ bits (sourceOf event) := by
        rw [bits_and_not, hsources]
      dsimp only
      rw [← hservice, ← hdiff]
      by_cases hzero : entry.sources &&& ~~~sourceOf event = 0
      · rw [← hservice] at hnormal
        rw [if_neg (not_not_intro hzero), queueEvent_of_normal hnormal,
          if_neg (not_not_intro rfl), hzero, bits_eq_empty_iff.mpr rfl]
        exact h.removed hd
      · rw [if_pos hzero]
        exact h.resourced hd hzero

/-! ## Sequences of notifications -/

/-- The store after a sequence of notifications. -/
def emitAll (d : Discovery) (events : List DiscoveryBackendEvent) : Discovery :=
  events.foldl (fun d event => (afpcDiscoveryBackendEmit d event).2) d

theorem Discovery.Refines.emitAll {events : List DiscoveryBackendEvent} (h : d.Refines a)
    (hevents : ∀ event ∈ events, Announceable event.service) :
    (emitAll d events).Refines (events.foldl .notify a) := by
  induction events generalizing d a with
  | nil => exact h
  | cons event events ih =>
    obtain ⟨hevent, hrest⟩ := forall_mem_cons.mp hevents
    exact ih (h.emit hevent) hrest

theorem refines_empty : Refines ⟨[], []⟩ fun _ => ∅ :=
  ⟨nodup_nil, fun _ h => absurd h not_mem_nil,
    fun _ => iff_of_false not_mem_nil fun h => h rfl, fun _ h => absurd h not_mem_nil, rfl⟩

/-- **The discovery store is a map from services to sources.** After any
sequence of notifications the entries are the services that some source
announces, each once and with its sources, and replaying the queued events
gives the same services. -/
theorem discovery_refines (events : List DiscoveryBackendEvent)
    (hevents : ∀ event ∈ events, Announceable event.service) :
    (emitAll ⟨[], []⟩ events).services.Nodup ∧
      (∀ v, v ∈ (emitAll ⟨[], []⟩ events).services ↔
        (events.foldl .notify fun _ => ∅ : Announced) v ≠ ∅) ∧
      (∀ entry ∈ (emitAll ⟨[], []⟩ events).entries,
        bits entry.sources = (events.foldl .notify fun _ => ∅ : Announced) entry.service) ∧
      (emitAll ⟨[], []⟩ events).events.foldl replayEvent ∅ =
        (emitAll ⟨[], []⟩ events).services.toFinset := by
  have h := refines_empty.emitAll hevents
  exact ⟨h.nodup, h.stored, h.sources, h.replay⟩

/-- A service that two sources announce and one withdraws, its type once
without the dot at the end. -/
def announcedTwice : List DiscoveryBackendEvent :=
  [⟨.add, ⟨text "Attic", text "_afpovertcp._tcp.", text "local", 2⟩, 2, 0, none⟩,
    ⟨.add, ⟨text "Attic", text "_afpovertcp._tcp", text "local", 2⟩, 4, 0, none⟩,
    ⟨.remove, ⟨text "Attic", text "_afpovertcp._tcp.", text "local", 2⟩, 2, 0, none⟩]

/-- The service is still there, once. -/
theorem discovery_refines_announcedTwice :
    (emitAll ⟨[], []⟩ announcedTwice).services =
        [⟨text "Attic", text "_afpovertcp._tcp", text "local", 2⟩] ∧
      (emitAll ⟨[], []⟩ announcedTwice).services.Nodup := by
  refine ⟨by decide +kernel, (discovery_refines _ fun event hevent => ?_).1⟩
  simp only [announcedTwice, mem_cons, not_mem_nil, or_false] at hevent
  rcases hevent with rfl | rfl | rfl
  · exact ⟨by decide, by decide, by decide, by decide⟩
  · exact ⟨by decide, by decide, by decide, by decide⟩
  · exact ⟨by decide, by decide, by decide, by decide⟩

end NetatalkClient
