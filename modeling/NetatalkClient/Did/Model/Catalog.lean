import NetatalkClient.Common.Codes
import NetatalkClient.Common.Separated
import Mathlib.Data.List.Nodup
/-!
# Directories: the server's tree and the requests on it

The tree a volume's server keeps, and its answers to the requests that
look an object up or change the namespace: FPGetFileDirParms, FPCreateDir,
FPDelete, FPMoveAndRename and FPExchangeFiles. A request addresses an
object by a directory ID and a name in that directory, and the empty name
stands for the directory itself. A server may refuse a change for reasons
of its own; then nothing changes.
-/

namespace NetatalkClient

open List

/-- The byte `/`. -/
def slash : UInt8 := 47

/-- `AFP_ROOT_DID`. -/
def afpRootDid : ℕ := 2

/-- A file or a directory: the names that lead to it from the root, and
the node ID the server gave it. -/
structure Object where
  path : List Octets
  fileid : ℕ
  isdir : Bool
  deriving DecidableEq, Repr

/-- The names on a path: empty ones stand for the directory they are
looked up in. -/
def names (cs : List Octets) : List Octets := cs.filter fun c => c ≠ []

/-- A server's tree. The root is an object with the empty path. -/
structure Catalog where
  objects : List Object
  root : ⟨[], afpRootDid, true⟩ ∈ objects
  paths : (objects.map Object.path).Nodup
  ids : (objects.map Object.fileid).Nodup
  closed : ∀ o ∈ objects, o.path ≠ [] →
    ∃ d ∈ objects, d.path = o.path.dropLast ∧ d.isdir = true
  plain : ∀ o ∈ objects, ∀ c ∈ o.path, c ≠ [] ∧ slash ∉ c

/-- What FPGetFileDirParms returns of an object. -/
structure FileInfo where
  fileid : ℕ
  isdir : Bool
  deriving DecidableEq, Repr

namespace Catalog

variable (t : Catalog) {new old path : List Octets}

/-- The object with this path. -/
def objectAt (cs : List Octets) : Option Object := t.objects.find? fun o => o.path = names cs

/-- The directory with this path, by its ID. -/
def dirAt (cs : List Octets) : Option ℕ :=
  (t.objectAt cs).bind fun o => if o.isdir then some o.fileid else none

/-- The directory with this ID. -/
def directory (did : ℕ) : Option Object := t.objects.find? fun o => o.fileid = did ∧ o.isdir

/-- The object a request addresses. -/
def addressed (did : ℕ) (name : Octets) : Option Object :=
  (t.directory did).bind fun d => t.objectAt (d.path ++ [name])

theorem directory_eq_some {did : ℕ} {d : Object} (h : t.directory did = some d) :
    d ∈ t.objects ∧ d.fileid = did ∧ d.isdir = true := by
  have hd := find?_some h
  exact ⟨mem_of_find?_eq_some h, of_decide_eq_true hd⟩

theorem mem_of_addressed {did : ℕ} {name : Octets} {o : Object}
    (h : t.addressed did name = some o) : o ∈ t.objects := by
  obtain ⟨d, -, ho⟩ := Option.bind_eq_some_iff.mp h
  exact mem_of_find?_eq_some ho

/-- `afp_getfiledirparms`. -/
def getfiledirparms (did : ℕ) (pathname : Octets) : Except ℤ FileInfo :=
  match t.addressed did pathname with
  | some o => .ok ⟨o.fileid, o.isdir⟩
  | none => .error kFPObjectNotFound

/-! ## Changes -/

/-- Whether the server refuses a change for this reason; that a name is
taken is not a reason of its own. -/
def refused (code : ℤ) : Bool := code ≠ 0 && code ≠ kFPObjectExists

/-- A new directory, where no object is. -/
def insert (path : List Octets) (name : Octets) (fileid : ℕ)
    (hdir : ∃ d ∈ t.objects, d.path = path ∧ d.isdir = true)
    (hnew : ∀ o ∈ t.objects, o.path ≠ path ++ [name])
    (hid : ∀ o ∈ t.objects, o.fileid ≠ fileid)
    (hname : name ≠ [] ∧ slash ∉ name) : Catalog where
  objects := ⟨path ++ [name], fileid, true⟩ :: t.objects
  root := mem_cons_of_mem _ t.root
  paths := by
    refine nodup_cons.mpr ⟨fun hmem => ?_, t.paths⟩
    obtain ⟨o, ho, heq⟩ := mem_map.mp hmem
    exact hnew o ho heq
  ids := by
    refine nodup_cons.mpr ⟨fun hmem => ?_, t.ids⟩
    obtain ⟨o, ho, heq⟩ := mem_map.mp hmem
    exact hid o ho heq
  closed := by
    intro o ho hne
    rcases mem_cons.mp ho with rfl | ho
    · obtain ⟨d, hd, hpath, hdir⟩ := hdir
      exact ⟨d, mem_cons_of_mem _ hd, by simp [hpath], hdir⟩
    · obtain ⟨d, hd, hpath, hdir⟩ := t.closed o ho hne
      exact ⟨d, mem_cons_of_mem _ hd, hpath, hdir⟩
  plain := by
    intro o ho c hc
    rcases mem_cons.mp ho with rfl | ho
    · rcases mem_append.mp hc with hc | hc
      · obtain ⟨d, hd, rfl, -⟩ := hdir
        exact t.plain d hd c hc
      · rw [mem_singleton.mp hc]
        exact hname
    · exact t.plain o ho c hc

/-- The tree without an object that has nothing below it. -/
def remove (o : Object) (hroot : o.path ≠ [])
    (hleaf : ∀ q ∈ t.objects, q ≠ o → ¬ o.path <+: q.path) : Catalog where
  objects := t.objects.filter fun q => q ≠ o
  root := mem_filter.mpr ⟨t.root, decide_eq_true fun heq => hroot (heq ▸ rfl)⟩
  paths := t.paths.sublist (filter_sublist.map _)
  ids := t.ids.sublist (filter_sublist.map _)
  closed := by
    intro q hq hne
    obtain ⟨hmem, hqo⟩ := mem_filter.mp hq
    obtain ⟨d, hd, hpath, hdir⟩ := t.closed q hmem hne
    refine ⟨d, mem_filter.mpr ⟨hd, decide_eq_true fun heq => ?_⟩, hpath, hdir⟩
    -- the directory of `q` is not the object removed, which has nothing below it
    subst heq
    exact hleaf q hmem (of_decide_eq_true hqo) (hpath ▸ dropLast_prefix q.path)
  plain := fun q hq => t.plain q (mem_filter.mp hq).1

/-- A path after what was at `old` has moved to `new`. -/
def rebase (old new path : List Octets) : List Octets :=
  if old <+: path then new ++ path.drop old.length else path

theorem rebase_inside (h : old <+: path) :
    rebase old new path = new ++ path.drop old.length := if_pos h

theorem rebase_outside (h : ¬ old <+: path) : rebase old new path = path := if_neg h

/-- Paths stay apart if nothing was at the new place. -/
theorem rebase_injective {p q : List Octets} (hp : ¬ new <+: p) (hq : ¬ new <+: q)
    (h : rebase old new p = rebase old new q) : p = q := by
  by_cases hop : old <+: p <;> by_cases hoq : old <+: q
  · obtain ⟨p, rfl⟩ := hop
    obtain ⟨q, rfl⟩ := hoq
    simpa [rebase] using h
  · rw [rebase_inside hop, rebase_outside hoq] at h
    exact absurd (h ▸ prefix_append _ _) hq
  · rw [rebase_outside hop, rebase_inside hoq] at h
    exact absurd (h ▸ prefix_append _ _) hp
  · rwa [rebase_outside hop, rebase_outside hoq] at h

/-- The directory of a moved object moves along, but for the one moved
itself. -/
theorem rebase_dropLast (hne : path ≠ old) (h : old <+: path) :
    rebase old new path.dropLast = (rebase old new path).dropLast := by
  obtain ⟨rest, rfl⟩ := h
  have hrest : rest ≠ [] := fun heq => hne (by simp [heq])
  rw [dropLast_append_of_ne_nil hrest, rebase_inside (prefix_append _ _),
    rebase_inside (prefix_append _ _), drop_left, drop_left, dropLast_append_of_ne_nil hrest]

/-- The tree after `o`, with all below it, has moved into the directory
`dir` under a name that is free there. -/
def relocate (o : Object) (dir : List Octets) (name : Octets) (hroot : o.path ≠ [])
    (hdir : ∃ d ∈ t.objects, d.path = dir ∧ d.isdir = true)
    (hout : ¬ o.path <+: dir) (hnew : ∀ q ∈ t.objects, ¬ dir ++ [name] <+: q.path)
    (hname : name ≠ [] ∧ slash ∉ name) : Catalog where
  objects := t.objects.map fun q => { q with path := rebase o.path (dir ++ [name]) q.path }
  root := by
    refine mem_map.mpr ⟨_, t.root, ?_⟩
    rw [rebase_outside (fun h => hroot (prefix_nil.mp h))]
  paths := by
    rw [map_map]
    refine (nodup_map_iff_inj_on t.paths.of_map).mpr fun p hp q hq heq => ?_
    have hpath := rebase_injective (hnew p hp) (hnew q hq) heq
    exact inj_on_of_nodup_map t.paths hp hq hpath
  ids := by
    rw [map_map]
    exact t.ids
  closed := by
    intro q hq hne
    obtain ⟨q, hmem, rfl⟩ := mem_map.mp hq
    by_cases heq : q.path = o.path
    · -- the object moved itself: its directory is the one it has moved to
      obtain ⟨d, hd, hpath, hdir⟩ := hdir
      refine ⟨_, mem_map.mpr ⟨d, hd, rfl⟩, ?_, hdir⟩
      simp [rebase, heq, hpath, hout]
    · have hqne : q.path ≠ [] := by
        intro hnil
        apply hne
        simp [rebase, hnil, hroot]
      obtain ⟨d, hd, hpath, hdir⟩ := t.closed q hmem hqne
      refine ⟨_, mem_map.mpr ⟨d, hd, rfl⟩, ?_, hdir⟩
      by_cases hpre : o.path <+: q.path
      · simp only [hpath]
        exact rebase_dropLast heq hpre
      · have hdpre : ¬ o.path <+: q.path.dropLast := fun h =>
          hpre (h.trans ( dropLast_prefix q.path))
        simp only [hpath, rebase_outside hpre, rebase_outside hdpre]
  plain := by
    intro q hq c hc
    obtain ⟨q, hmem, rfl⟩ := mem_map.mp hq
    by_cases hpre : o.path <+: q.path
    · rw [rebase_inside hpre] at hc
      rcases mem_append.mp hc with hc | hc
      · rcases mem_append.mp hc with hc | hc
        · obtain ⟨d, hd, rfl, -⟩ := hdir
          exact t.plain d hd c hc
        · rw [mem_singleton.mp hc]
          exact hname
      · exact t.plain q hmem c (mem_of_mem_drop hc)
    · rw [rebase_outside hpre] at hc
      exact t.plain q hmem c hc

/-! ## The requests that change the tree

Each takes the code the server refuses it with, if it does. -/

/-- `afp_createdir`, with the ID the server has picked. -/
def createdir (refuse : ℤ) (newid did : ℕ) (name : Octets) : ℤ × Catalog :=
  if refused refuse then (refuse, t)
  else
    match hd : t.directory did with
    | none => (kFPObjectNotFound, t)
    | some d =>
        if hname : name ≠ [] ∧ slash ∉ name then
          if hnew : ∀ o ∈ t.objects, o.path ≠ d.path ++ [name] then
            if hid : ∀ o ∈ t.objects, o.fileid ≠ newid then
              (0, t.insert d.path name newid
                ⟨d, (t.directory_eq_some hd).1, rfl, (t.directory_eq_some hd).2.2⟩ hnew hid hname)
            else (kFPMiscErr, t)
          else (kFPObjectExists, t)
        else (kFPParamErr, t)

/-- `afp_delete`. -/
def delete (refuse : ℤ) (did : ℕ) (name : Octets) : ℤ × Catalog :=
  if refused refuse then (refuse, t)
  else
    match t.addressed did name with
    | none => (kFPObjectNotFound, t)
    | some o =>
        if hroot : o.path ≠ [] then
          if hleaf : ∀ q ∈ t.objects, q ≠ o → ¬ o.path <+: q.path then
            (0, t.remove o hroot hleaf)
          else (kFPDirNotEmpty, t)
        else (kFPAccessDenied, t)

/-- `afp_moveandrename`: the object `srcPath` of the directory `srcDid`
moves into the directory `dstPath` of `dstDid`, under a new name or, if
that is empty, its own. A directory does not move into itself. -/
def moveandrename (refuse : ℤ) (srcDid dstDid : ℕ) (srcPath dstPath newName : Octets) :
    ℤ × Catalog :=
  if refused refuse then (refuse, t)
  else
    match t.addressed srcDid srcPath, hd : t.addressed dstDid dstPath with
    | none, _ => (kFPObjectNotFound, t)
    | some _, none => (kFPObjectNotFound, t)
    | some o, some d =>
        let name := if newName = [] then o.path.getLastD [] else newName
        if hdir : d.isdir = true then
          if hroot : o.path ≠ [] ∧ ¬ o.path <+: d.path then
            if o.path = d.path ++ [name] then (0, t)
            else if hname : name ≠ [] ∧ slash ∉ name then
              if hnew : ∀ q ∈ t.objects, ¬ d.path ++ [name] <+: q.path then
                (0, t.relocate o d.path name hroot.1 ⟨d, t.mem_of_addressed hd, rfl, hdir⟩
                  hroot.2 hnew hname)
              else (kFPObjectExists, t)
            else (kFPParamErr, t)
          else (kFPCantMove, t)
        else (kFPObjectTypeErr, t)

/-- `afp_exchangefiles`: two files swap their contents, which the tree
says nothing about. -/
def exchangefiles (refuse : ℤ) (srcDid dstDid : ℕ) (srcPath dstPath : Octets) : ℤ :=
  if refused refuse then refuse
  else
    match t.addressed srcDid srcPath, t.addressed dstDid dstPath with
    | some o, some d => if o.isdir ∨ d.isdir then kFPObjectTypeErr else 0
    | _, _ => kFPObjectNotFound

end Catalog

end NetatalkClient
