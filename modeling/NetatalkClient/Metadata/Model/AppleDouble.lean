import NetatalkClient.Common.Files
import NetatalkClient.Common.BigEndian
import NetatalkClient.Common.Codes
/-!
# The AppleDouble sidecar of a file

The sidecar holds a file's FinderInfo and resource fork as two of the
entries of an AppleDouble header (`metadata.c`). The state is the content
of the sidecar, or `none` where there is no such file; the file itself
exists, and every call on the sidecar succeeds completely.
-/

namespace NetatalkClient

open Octets

/-- `AD_MAGIC`. -/
def adMagic : ℕ := 0x00051607

/-- `AD_VERSION`. -/
def adVersion : ℕ := 0x00020000

/-- `AD_HEADER_SIZE`. -/
def adHeaderSize : ℕ := 26

/-- `AD_ENTRY_SIZE`. -/
def adEntrySize : ℕ := 12

/-- `AD_FINDER_ID`. -/
def adFinderId : ℕ := 9

/-- `AD_RESOURCE_ID`. -/
def adResourceId : ℕ := 2

/-- `AD_MACOS_DATA_OFFSET`. -/
def adMacosDataOffset : ℕ := 82

/-- `AD_NETATALK_DATA_OFFSET`. -/
def adNetatalkDataOffset : ℕ := 741

/-- `struct ad_entry`. -/
structure AdEntry where
  id : ℕ
  offset : ℕ
  length : ℕ
  headerOffset : ℕ
  deriving DecidableEq, Repr

/-- `struct ad_info`. -/
structure AdInfo where
  finder : AdEntry
  resource : AdEntry
  deriving DecidableEq, Repr

/-- An entry as `memset` leaves it. -/
def AdEntry.zero : AdEntry := ⟨0, 0, 0, 0⟩

/-- What `read_ad_info` starts with. -/
def AdInfo.zero : AdInfo := ⟨.zero, .zero⟩

/-- Stores a parsed entry if it is one of the two. A second entry of the
kind is refused, unless the first has the offset 0. -/
def AdInfo.note (info : AdInfo) (parsed : AdEntry) : Option AdInfo :=
  if parsed.id = adFinderId then
    if info.finder.offset ≠ 0 then none else some { info with finder := parsed }
  else if parsed.id = adResourceId then
    if info.resource.offset ≠ 0 then none else some { info with resource := parsed }
  else some info

/-- One turn of the loop of `read_ad_info`. -/
def readAdEntry (f : Octets) (info : AdInfo) (i : ℕ) : Except ℤ AdInfo :=
  let headerOffset := adHeaderSize + i * adEntrySize
  let entry := f.pread adEntrySize headerOffset
  if entry.length ≠ adEntrySize then .error (-eio)
  else
    let parsed : AdEntry := ⟨entry.be32 0, entry.be32 4, entry.be32 8, headerOffset⟩
    if f.length < parsed.offset + parsed.length then .error (-einval)
    else
      match info.note parsed with
      | none => .error (-einval)
      | some info => .ok info

/-- `read_ad_info`. -/
def readAdInfo (f : Octets) : Except ℤ AdInfo :=
  let header := f.pread adHeaderSize 0
  if header.length ≠ adHeaderSize then .error (-eio)
  else if header.be32 0 ≠ adMagic then .error (-einval)
  else if header.be32 4 ≠ adVersion then .error (-einval)
  else
    let count := header.be16 24
    if count = 0 ∨ 32 < count then .error (-einval)
    else (List.range count).foldlM (readAdEntry f) .zero

/-- The entries `initialize_ad` writes: identifier, offset and length. -/
def initialEntries (netatalk : Bool) : List (ℕ × ℕ × ℕ) :=
  if netatalk then
    [(2, 741, 0), (3, 182, 0), (4, 437, 200), (8, 637, 16), (9, 653, 32), (11, 705, 8),
      (13, 693, 0), (14, 689, 4), (15, 685, 4), (0x80444556, 713, 8), (0x80494e4f, 721, 8),
      (0x8053594e, 729, 8), (0x8053567e, 737, 4)]
  else [(adFinderId, 50, 32), (adResourceId, adMacosDataOffset, 0)]

/-- The sixteen octets behind the version: `Netatalk` and blanks. -/
def initialFiller (netatalk : Bool) : Octets :=
  if netatalk then
    [0x4e, 0x65, 0x74, 0x61, 0x74, 0x61, 0x6c, 0x6b] ++ List.replicate 8 0x20
  else List.replicate 16 0

def initialDataOffset (netatalk : Bool) : ℕ :=
  if netatalk then adNetatalkDataOffset else adMacosDataOffset

/-- The buffer that `initialize_ad` fills. -/
def initialHeader (netatalk : Bool) : Octets :=
  (padded 4 adMagic ++ padded 4 adVersion ++ initialFiller netatalk ++
    padded 2 (initialEntries netatalk).length ++ (initialEntries netatalk).flatMap fun e =>
      padded 4 e.1 ++ padded 4 e.2.1 ++ padded 4 e.2.2).window (initialDataOffset netatalk)

/-- `initialize_ad`. -/
def initializeAd (f : Octets) (netatalk : Bool) : Octets :=
  (f.ftruncate (initialDataOffset netatalk)).pwrite (initialHeader netatalk) 0

/-- `open_ad`: what it returns, and the sidecar. A sidecar that is opened
to be written is made where there is none, and made anew where its header
is not accepted. -/
def openAd (sidecar : Option Octets) (netatalk write : Bool) :
    Except ℤ AdInfo × Option Octets :=
  if write then
    let f := sidecar.getD []
    match readAdInfo f with
    | .ok info => (.ok info, some f)
    | .error _ =>
        let f := initializeAd f netatalk
        (readAdInfo f, some f)
  else
    match sidecar with
    | none => (.error (-enoattr), none)
    | some f => (readAdInfo f, some f)

/-- `ad_finder_get`. -/
def adFinderGet (sidecar : Option Octets) (netatalk : Bool) : Except ℤ Octets :=
  match openAd sidecar netatalk false with
  | (.error ret, _) => .error ret
  | (.ok info, sidecar) =>
      if info.finder.offset = 0 ∨ info.finder.length < 32 then .error (-enoattr)
      else
        let value := (sidecar.getD []).pread 32 info.finder.offset
        if value.length ≠ 32 then .error (-eio)
        else if value = List.replicate 32 0 then .error (-enoattr)
        else .ok value

/-- `ad_finder_set`: what it returns, and the sidecar. -/
def adFinderSet (sidecar : Option Octets) (netatalk : Bool) (value : Octets) :
    ℤ × Option Octets :=
  match openAd sidecar netatalk true with
  | (.error ret, sidecar) => (ret, sidecar)
  | (.ok info, sidecar) =>
      if info.finder.offset = 0 then (-eio, sidecar)
      else (0, sidecar.map (·.pwrite value info.finder.offset))

/-- `ad_resource_size`. -/
def adResourceSize (sidecar : Option Octets) (netatalk : Bool) : ℤ :=
  match openAd sidecar netatalk false with
  | (.error ret, _) => ret
  | (.ok info, _) => if info.resource.length = 0 then -enoattr else info.resource.length

/-- `ad_resource_read`. -/
def adResourceRead (sidecar : Option Octets) (netatalk : Bool) (size : ℕ) (offset : ℤ) :
    Except ℤ Octets :=
  match openAd sidecar netatalk false with
  | (.error ret, _) => .error ret
  | (.ok info, sidecar) =>
      if offset < 0 ∨ (info.resource.length : ℤ) ≤ offset then .ok []
      else
        let available := info.resource.length - offset.toNat
        .ok ((sidecar.getD []).pread (min size available) (info.resource.offset + offset.toNat))

/-- The new length of the resource fork. -/
def resourceEnd (info : AdInfo) (size offset : ℕ) : ℕ :=
  if offset ≠ 0 ∧ offset + size < info.resource.length then info.resource.length
  else offset + size

/-- What `ad_resource_write` does to an open sidecar. -/
def resourceWritten (f : Octets) (info : AdInfo) (buf : Octets) (offset : ℕ) : Octets :=
  let f := if offset = 0 then f.ftruncate info.resource.offset else f
  let f := f.pwrite buf (info.resource.offset + offset)
  f.pwrite (padded 4 (resourceEnd info buf.length offset)) (info.resource.headerOffset + 8)

/-- `ad_resource_write`: what it returns, and the sidecar. -/
def adResourceWrite (sidecar : Option Octets) (netatalk : Bool) (buf : Octets) (offset : ℤ) :
    ℤ × Option Octets :=
  match openAd sidecar netatalk true with
  | (.error ret, sidecar) => (ret, sidecar)
  | (.ok info, sidecar) =>
      if offset < 0 ∨ info.resource.offset = 0 ∨ 0xFFFFFFFF < offset.toNat ∨
          0xFFFFFFFF - offset.toNat < buf.length then (-efbig, sidecar)
      else (0, sidecar.map (resourceWritten · info buf offset.toNat))

end NetatalkClient
