import NetatalkClient.Common.Octets
/-!
# AFP: dates

A date is a signed number of seconds since 2000, by the server's own clock
before AFP 3.0. The client keeps Unix time.
-/

namespace NetatalkClient

/-- What `struct afp_server` says about time: the `av_number` of
`using_version`, which may be `NULL`, and `time_offset`. -/
structure AfpClock where
  usingVersion : Option ℕ
  timeOffset : ℤ
  deriving DecidableEq, Repr

/-- `AD_DATE_DELTA`. -/
def adDateDelta : ℤ := 946684800

/-- `server_uses_local_time`. -/
def serverUsesLocalTime (server : Option AfpClock) : Bool :=
  match server.bind AfpClock.usingVersion with
  | none => false
  | some number => number < 30

/-- `afp_date_to_unix`, of a 32-bit word in host order. -/
def afpDateToUnix (server : Option AfpClock) (date : ℕ) : ℤ :=
  let seconds := (if date < 0x80000000 then (date : ℤ) else (date : ℤ) - 0x100000000) + adDateDelta
  if serverUsesLocalTime server then seconds - (server.elim 0 AfpClock.timeOffset) else seconds

/-- The seconds since 2000 that `afp_date_from_unix` computes for a Unix
time. -/
def afpSeconds (server : Option AfpClock) (date : ℤ) : ℤ :=
  let seconds := date - adDateDelta
  if serverUsesLocalTime server then seconds + server.elim 0 AfpClock.timeOffset else seconds

/-- `afp_date_from_unix`: the 32-bit word, before it is put into network
order. -/
def afpDateFromUnix (server : Option AfpClock) (date : ℤ) : ℕ :=
  (afpSeconds server date % 0x100000000).toNat

/-- The word that stands for no date. -/
def unsetDate : ℕ := 0x80000000

end NetatalkClient
