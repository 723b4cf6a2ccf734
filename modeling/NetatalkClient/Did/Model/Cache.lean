import NetatalkClient.Did.Model.Catalog
/-!
# Directories: the ID cache and `get_dirid`

The directory-ID cache of a volume, and the resolution of a path to the ID
of its parent directory. A path is the bytes of a C string; a pointer into
it is an offset, or the bytes before and after it. Every lookup reads the
clock, and expired entries go as it meets them: `clock` gives the readings
still to come, and nothing is assumed of them. Allocations succeed.
-/

namespace NetatalkClient

open Separated

/-- `timeout`, in seconds. -/
def didTimeout : ℕ := 10

structure DidCacheEntry where
  dirname : Octets
  did : ℕ
  parentdid : ℕ
  name : Octets
  time : ℕ
  deriving DecidableEq, Repr

structure DidCacheStats where
  hits : ℕ
  misses : ℕ
  expired : ℕ
  forceRemoved : ℕ
  deriving DecidableEq, Repr

/-- What a volume holds for these functions, and the clock. -/
structure Volume where
  didCache : List DidCacheEntry
  didCacheStats : DidCacheStats
  clock : ℕ → ℕ

/-- An entry's time is past, by a reading of the clock. -/
def DidCacheEntry.expired (now : ℕ) (p : DidCacheEntry) : Bool := now > p.time + didTimeout

/-- What a walk over the cache found, and what it left. -/
structure DidCacheWalk where
  did : ℕ
  left : List DidCacheEntry
  expired : ℕ
  hits : ℕ

namespace DidCacheWalk

/-- The walk has gone past an entry that stays. -/
def keep (p : DidCacheEntry) (w : DidCacheWalk) : DidCacheWalk := { w with left := p :: w.left }

/-- The walk has dropped an expired entry. -/
def drop (w : DidCacheWalk) : DidCacheWalk := { w with expired := w.expired + 1 }

/-- The loop of `find_cached_directory`. -/
def byParent (now parentdid : ℕ) (name : Octets) : List DidCacheEntry → DidCacheWalk
  | [] => ⟨0, [], 0, 0⟩
  | p :: next =>
      if p.expired now then (byParent now parentdid name next).drop
      else if p.parentdid = parentdid ∧ p.name = name then ⟨p.did, p :: next, 0, 1⟩
      else (byParent now parentdid name next).keep p

/-- The loop of `find_dirid_by_fullname`. Unlike the other it stops at an
expired entry with the name looked for, and has then found nothing. -/
def byFullname (now : ℕ) (path : Octets) : List DidCacheEntry → DidCacheWalk
  | [] => ⟨0, [], 0, 0⟩
  | p :: next =>
      if p.expired now then
        if p.dirname = path then ⟨0, next, 1, 0⟩ else (byFullname now path next).drop
      else if p.dirname = path then ⟨p.did, p :: next, 0, 1⟩
      else (byFullname now path next).keep p

end DidCacheWalk

namespace Volume

/-- `gettimeofday` has been called. -/
def tick (v : Volume) : Volume := { v with clock := fun i => v.clock (i + 1) }

/-- The cache after a walk over it. -/
def walked (v : Volume) (w : DidCacheWalk) : Volume :=
  { v.tick with
    didCache := w.left
    didCacheStats := { v.didCacheStats with
      hits := v.didCacheStats.hits + w.hits
      expired := v.didCacheStats.expired + w.expired } }

def countMiss (v : Volume) : Volume :=
  { v with didCacheStats := { v.didCacheStats with misses := v.didCacheStats.misses + 1 } }

def removeDidEntry (v : Volume) (name : Octets) : Volume :=
  if v.didCache.any fun d => d.dirname = name then
    { v with
      didCache := v.didCache.eraseP fun d => d.dirname = name
      didCacheStats :=
        { v.didCacheStats with forceRemoved := v.didCacheStats.forceRemoved + 1 } }
  else v

def addDidCacheEntry (v : Volume) (parentdid newDid : ℕ) (path name : Octets) : Volume :=
  { v.tick with didCache := ⟨path, newDid, parentdid, name, v.clock 0⟩ :: v.didCache }

def findCachedDirectory (v : Volume) (parentdid : ℕ) (name : Octets) : ℕ × Volume :=
  let w := DidCacheWalk.byParent (v.clock 0) parentdid name v.didCache
  (w.did, v.walked w)

def findDiridByFullname (v : Volume) (path : Octets) : ℕ × Volume :=
  let w := DidCacheWalk.byFullname (v.clock 0) path v.didCache
  (w.did, v.walked w)

def isDir (t : Catalog) (v : Volume) (parentdid : ℕ) (path : Octets) : Bool × Volume :=
  let (did, v) := v.findCachedDirectory parentdid path
  if did ≠ 0 then (true, v)
  else
    match t.getfiledirparms parentdid path with
    | .error _ => (false, v.countMiss)
    | .ok fi => (fi.isdir, v.countMiss)

/-! ## `get_dirid` -/

/-- The loop that looks for the nearest cached parent: the volume after
it, `parent_did` and `known_parent_len`. The first argument bounds the
turns, each of which shortens `knownParent`. -/
def findKnownParent : ℕ → Volume → Octets → ℕ → Volume × ℕ × ℕ
  | 0, v, _, parentDid => (v, parentDid, 0)
  | fuel + 1, v, knownParent, parentDid =>
      match lastIdx? slash knownParent with
      | none => (v, parentDid, 0)
      | some 0 => (v, afpRootDid, 1)
      | some i =>
          let knownParent := knownParent.take i
          let (did, v) := v.findDiridByFullname knownParent
          if did ≠ 0 then (v, did, knownParent.length)
          else findKnownParent fuel v knownParent did

/-- The loop that looks the components up, with the path cut where
`component` points to; each turn moves past a slash. -/
def findComponents (t : Catalog) : ℕ → Volume → Octets → Octets → ℕ → Volume × Except ℤ ℕ
  | 0, v, _, _, parentDid => (v, .ok parentDid)
  | fuel + 1, v, before, component, parentDid =>
      match firstIdx? slash component with
      | none => (v, .ok parentDid)
      | some componentLen =>
          let name := component.take componentLen
          let v := v.countMiss
          match t.getfiledirparms parentDid name with
          | .error ret => (v, .error ret)
          | .ok fi =>
              if fi.isdir then
                let fullParent := before ++ name
                let v := v.addDidCacheEntry parentDid fi.fileid fullParent name
                findComponents t fuel v (fullParent ++ [slash])
                  (component.drop (componentLen + 1)) fi.fileid
              else (v, .ok parentDid)

/-- What `get_dirid` returns and stores; `none` where it stores nothing. -/
structure Dirid where
  ret : ℤ
  dirid : Option ℕ
  basename : Option Octets
  deriving DecidableEq, Repr

def getDirid (t : Catalog) (v : Volume) (path : Octets) : Volume × Dirid :=
  match lastIdx? slash path with
  | none => (v, ⟨-1, none, none⟩)
  | some lastSlash =>
      let basename := path.drop (lastSlash + 1)
      if afpcMaxNameBytes ≤ basename.length then (v, ⟨-enametoolong, none, none⟩)
      else if lastSlash = 0 then (v, ⟨0, some afpRootDid, some basename⟩)
      else
        let parent := path.take lastSlash
        let (newdid, v) := v.findDiridByFullname parent
        if newdid ≠ 0 then (v, ⟨0, some newdid, some basename⟩)
        else
          let (v, parentDid, knownParentLen) := findKnownParent parent.length v parent afpRootDid
          let before := path.take knownParentLen
          let component := path.drop knownParentLen
          let (before, component) :=
            if component.head? = some slash then (before ++ [slash], component.tail)
            else (before, component)
          match findComponents t component.length v before component parentDid with
          | (v, .error ret) => (v, ⟨ret, none, some basename⟩)
          | (v, .ok parentDid) => (v, ⟨0, some parentDid, some basename⟩)

end Volume

end NetatalkClient
