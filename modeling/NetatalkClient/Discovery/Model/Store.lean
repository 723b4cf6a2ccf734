import NetatalkClient.Common.Codes
/-!
# The discovery store

What the backends announce (`afpc_discovery_backend_emit`): a list of
services, each with the sources that announced it, and a queue of events
for the user. Allocation succeeds. The queue is kept as all events that
were ever put in it, in order.
-/

namespace NetatalkClient

/-- `AFPC_DISCOVERY_INSTANCE_LEN`. -/
def afpcDiscoveryInstanceLen : ℕ := 64

/-- `AFPC_DISCOVERY_TYPE_LEN`. -/
def afpcDiscoveryTypeLen : ℕ := 64

/-- `AFPC_DISCOVERY_DOMAIN_LEN`. -/
def afpcDiscoveryDomainLen : ℕ := 256

/-- `AFPC_DISCOVERY_ERROR_LEN`. -/
def afpcDiscoveryErrorLen : ℕ := 256

/-- `AFPC_DISCOVERY_SOURCE_UNSPEC`. -/
def afpcDiscoverySourceUnspec : BitVec 32 := 1

/-- `struct afpc_discovery_service`; the three texts are those before the
terminating zero of an array. -/
structure DiscoveryService where
  instanceName : Octets
  type : Octets
  domain : Octets
  interfaceIndex : BitVec 32
  deriving DecidableEq, Repr

/-- `enum afpc_discovery_event_type`. -/
inductive DiscoveryEventType where
  | add
  | update
  | remove
  | error
  deriving DecidableEq, Repr

/-- `struct discovery_entry`. -/
structure DiscoveryEntry where
  service : DiscoveryService
  sources : BitVec 32
  deriving DecidableEq, Repr

/-- `struct afpc_discovery_event`. -/
structure DiscoveryEvent where
  type : DiscoveryEventType
  service : DiscoveryService
  error : ℤ
  message : Octets
  deriving DecidableEq, Repr

/-- `struct afpc_discovery_backend_event`. -/
structure DiscoveryBackendEvent where
  type : DiscoveryEventType
  service : DiscoveryService
  source : BitVec 32
  error : ℤ
  message : Option Octets
  deriving DecidableEq, Repr

/-- `struct afpc_discovery`, without the backend. -/
structure Discovery where
  entries : List DiscoveryEntry
  events : List DiscoveryEvent
  deriving DecidableEq, Repr

/-- A character as `copy_network_text` writes it. -/
def networkChar (ch : UInt8) : UInt8 := if ch < 0x20 ∨ ch = 0x7f then 0x3f else ch

/-- `copy_network_text`. -/
def copyNetworkText (destinationSize : ℕ) (source : Octets) : Except ℤ Octets :=
  if destinationSize ≤ source.length then .error (-enametoolong)
  else .ok (source.map networkChar)

/-- A text without the dot at its end, if it has one. -/
def cutDot (type : Octets) : Octets :=
  if type.getLast? = some 0x2e then type.dropLast else type

/-- `copy_service`. -/
def copyService (source : DiscoveryService) : Except ℤ DiscoveryService := do
  let instanceName ← copyNetworkText afpcDiscoveryInstanceLen source.instanceName
  let type ← copyNetworkText afpcDiscoveryTypeLen source.type
  let domain ← copyNetworkText afpcDiscoveryDomainLen source.domain
  return ⟨instanceName, cutDot type, domain, source.interfaceIndex⟩

/-- A service as `memset` leaves it. -/
def DiscoveryService.zero : DiscoveryService := ⟨[], [], [], 0⟩

/-- `queue_event`: what it returns, and the store. -/
def queueEvent (d : Discovery) (type : DiscoveryEventType) (service : Option DiscoveryService)
    (error : ℤ) (message : Option Octets) : ℤ × Discovery :=
  match service.elim (.ok .zero) copyService with
  | .error ret => (ret, d)
  | .ok service =>
      match message.elim (.ok []) (copyNetworkText afpcDiscoveryErrorLen) with
      | .error ret => (ret, d)
      | .ok message => (0, { d with events := d.events ++ [⟨type, service, error, message⟩] })

/-- `find_entry`: the entries before the one with the service, the entry
and the entries behind it. -/
def findEntry (service : DiscoveryService) :
    List DiscoveryEntry → Option (List DiscoveryEntry × DiscoveryEntry × List DiscoveryEntry)
  | [] => none
  | entry :: entries =>
      if entry.service = service then some ([], entry, entries)
      else (findEntry service entries).map fun found => (entry :: found.1, found.2)

/-- `afpc_discovery_backend_emit`: what it returns, and the store. -/
def afpcDiscoveryBackendEmit (d : Discovery) (event : DiscoveryBackendEvent) : ℤ × Discovery :=
  if event.type = .error then queueEvent d event.type none event.error event.message
  else
    match copyService event.service with
    | .error ret => (ret, d)
    | .ok service =>
        let source := if event.source ≠ 0 then event.source else afpcDiscoverySourceUnspec
        match event.type, findEntry service d.entries with
        | .add, some (front, entry, back) =>
            (0, { d with entries :=
              front ++ { entry with sources := entry.sources ||| source } :: back })
        | .add, none =>
            queueEvent { d with entries := d.entries ++ [⟨service, source⟩] } event.type
              (some service) 0 none
        | .update, none => (-enoent, d)
        | .update, some _ => queueEvent d event.type (some service) 0 none
        | .remove, some (front, entry, back) =>
            let sources := entry.sources &&& ~~~source
            let d' := { d with entries := front ++ { entry with sources } :: back }
            if sources ≠ 0 then (0, d')
            else
              let queued := queueEvent d' event.type (some entry.service) 0 none
              if queued.1 ≠ 0 then queued
              else (0, { queued.2 with entries := front ++ back })
        | _, _ => (0, d)

end NetatalkClient
