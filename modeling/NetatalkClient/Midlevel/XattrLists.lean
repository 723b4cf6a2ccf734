import NetatalkClient.Common.Terminated
import NetatalkClient.Midlevel.Helpers.Requests
import NetatalkClient.Midlevel.Model.XattrList
import NetatalkClient.Lowlevel.Model.Transfers
/-!
# What `ml_listxattr` lists

The names that a server lists, without the internal ones and with the
platform's prefix before each (`shown`), are what a query counts and a fetch
of that size copies. With the prefix a name can be too long for
`ml_getxattr`, and the FinderInfo and the resource fork are never listed
unless the server lists them: `lists_consistent_iff` says which lists are
consistent.
-/

namespace NetatalkClient

open Octets Terminated List

/-- A name of an attribute. -/
def AttributeName : Type := { name : Octets // name ≠ [] ∧ 0 ∉ name }

instance : DecidableEq AttributeName := inferInstanceAs (DecidableEq { _name : Octets // _ })

namespace AfpCalls

/-- On Linux this is the list of the other model. -/
theorem listNamesOn_other (value : Bool) (size turns : ℕ) (src list : Octets) :
    listNamesOn .other value size turns src list = listNames value size turns src list := by
  induction turns generalizing src list with
  | zero => rfl
  | succ turns ih =>
    unfold listNamesOn listNames
    simp only [ih]
    split
    · rfl
    split
    · rfl
    split
    · rfl
    generalize src.takeWhile (· ≠ 0) = name
    have happend : appendListedXattrName .other value size list name =
        if afpXattrNameMax < name.length then .error (-enametoolong)
        else if value = true ∧ 0 < size ∧
            size < (list ++ (afpXattrUserPrefix ++ name ++ [0])).length then .error (-erange)
        else .ok (list ++ (afpXattrUserPrefix ++ name ++ [0])) := rfl
    by_cases hlong : afpXattrNameMax < name.length
    · rw [happend, if_pos hlong, if_pos hlong]
    by_cases hfull : value = true ∧ 0 < size ∧
        size < (list ++ (afpXattrUserPrefix ++ name ++ [0])).length
    · rw [happend, if_neg hlong, if_neg hlong, if_pos hfull, if_pos hfull]
    · rw [happend, if_neg hlong, if_neg hlong, if_neg hfull, if_neg hfull]

theorem mlListxattrOn_other {σ : Type} (afp : AfpCalls σ) (volume : MetadataVolume)
    (path : Octets) (value : Bool) (size : ℕ) :
    afp.mlListxattrOn .other volume path value size = afp.mlListxattr volume path value size := by
  have hlisted : listedXattrsOn .other = listedXattrs := by
    have hnames : listNamesOn .other = listNames := by
      funext value size turns src list
      exact listNamesOn_other value size turns src list
    unfold listedXattrsOn
    rw [hnames]
    exact (show listedXattrs = _ from rfl).symm
  unfold mlListxattrOn mlListxattr
  rw [hlisted]

/-- The names of a list that are shown. -/
def shown (platform : Platform) (names : List Octets) : List Octets :=
  (names.filter fun name => !isInternalServerXattr name).map (platform.namespacePrefix ++ ·)

section Shown

variable {platform : Platform} {name : Octets} {names names' : List Octets}

theorem shown_append : shown platform (names ++ names') =
    shown platform names ++ shown platform names' := by
  simp [shown]

theorem shown_internal (h : isInternalServerXattr name = true) :
    shown platform (name :: names) = shown platform names := by
  simp [shown, h]

theorem shown_cons (h : isInternalServerXattr name = false) :
    shown platform (name :: names) =
      (platform.namespacePrefix ++ name) :: shown platform names := by
  simp [shown, h]

theorem mem_shown {out : Octets} : out ∈ shown platform names ↔
    ∃ name ∈ names, isInternalServerXattr name = false ∧
      out = platform.namespacePrefix ++ name := by
  simp only [shown, mem_map, mem_filter, Bool.not_eq_true']
  constructor
  · rintro ⟨name, ⟨hmem, hshown⟩, rfl⟩
    exact ⟨name, hmem, hshown, rfl⟩
  · rintro ⟨name, hmem, hshown, rfl⟩
    exact ⟨name, ⟨hmem, hshown⟩, rfl⟩

end Shown

section Loop

variable {platform : Platform} {value : Bool} {size turns : ℕ} {names : List Octets} {list : Octets}

/-- One turn of the loop. -/
theorem listNamesOn_cons {name : Octets} (hname : name ≠ [] ∧ 0 ∉ name) :
    listNamesOn platform value size (turns + 1) (terminated 0 (name :: names)) list =
      if isInternalServerXattr name then
        listNamesOn platform value size turns (terminated 0 names) list
      else
        match appendListedXattrName platform value size list name with
        | .error ret => .error ret
        | .ok list' => listNamesOn platform value size turns (terminated 0 names) list' := by
  rw [listNamesOn, terminated_cons]
  dsimp only
  rw [takeWhile_terminated hname.2, drop_terminated, if_neg hname.1]
  exact if_neg (by simp)

/-- **All names are listed** if none is too long and there is room. -/
theorem listNamesOn_eq (hnames : ∀ name ∈ names, name ≠ [] ∧ 0 ∉ name)
    (hturns : (terminated 0 names).length ≤ turns)
    (hshort : ∀ name ∈ names, isInternalServerXattr name = false → name.length ≤ afpXattrNameMax)
    (hroom : value = true → 0 < size →
      (list ++ terminated 0 (shown platform names)).length ≤ size) :
    listNamesOn platform value size turns (terminated 0 names) list =
      .ok (list ++ terminated 0 (shown platform names)) := by
  induction names generalizing turns list with
  | nil =>
    cases turns with
    | zero => simp [listNamesOn, shown]
    | succ turns => simp [listNamesOn, shown]
  | cons name names ih =>
    obtain ⟨hname, hnames⟩ := forall_mem_cons.mp hnames
    obtain ⟨hfirst, hshort⟩ := forall_mem_cons.mp hshort
    rw [terminated_cons, length_append, length_cons] at hturns
    obtain ⟨turns, rfl⟩ : ∃ n, turns = n + 1 := ⟨turns - 1, by omega⟩
    rw [listNamesOn_cons hname]
    by_cases hinternal : isInternalServerXattr name
    · rw [if_pos hinternal]
      rw [shown_internal hinternal] at hroom ⊢
      exact ih hnames (by omega) hshort hroom
    · have hshown := @shown_cons platform name names (Bool.eq_false_of_not_eq_true hinternal)
      have hgrown : list ++ terminated 0 (shown platform (name :: names)) =
          (list ++ (platform.namespacePrefix ++ name ++ [0])) ++
            terminated 0 (shown platform names) := by
        simp [hshown, terminated_cons]
      rw [hgrown] at hroom ⊢
      rw [if_neg hinternal, appendListedXattrName,
        if_neg (not_lt.mpr (hfirst (Bool.eq_false_of_not_eq_true hinternal)))]
      dsimp only
      rw [if_neg]
      · exact ih hnames (by omega) hshort hroom
      · rintro ⟨hvalue, hsize, hfull⟩
        have hlen := hroom hvalue hsize
        rw [length_append] at hlen
        omega

/-- A name that is too long ends the query. -/
theorem listNamesOn_long (hnames : ∀ name ∈ names, name ≠ [] ∧ 0 ∉ name)
    (hturns : (terminated 0 names).length ≤ turns)
    (hlong : ∃ name ∈ names, isInternalServerXattr name = false ∧ afpXattrNameMax < name.length) :
    listNamesOn platform false 0 turns (terminated 0 names) list = .error (-enametoolong) := by
  induction names generalizing turns list with
  | nil =>
    obtain ⟨name, hmem, -⟩ := hlong
    exact absurd hmem not_mem_nil
  | cons name names ih =>
    obtain ⟨hname, hnames⟩ := forall_mem_cons.mp hnames
    rw [terminated_cons, length_append, length_cons] at hturns
    obtain ⟨turns, rfl⟩ : ∃ n, turns = n + 1 := ⟨turns - 1, by omega⟩
    rw [listNamesOn_cons hname]
    by_cases hinternal : isInternalServerXattr name
    · rw [if_pos hinternal]
      obtain ⟨other, hmem, hshown, hlong⟩ := hlong
      rcases mem_cons.mp hmem with rfl | hmem
      · exact absurd hinternal (by simp [hshown])
      · exact ih hnames (by omega) ⟨other, hmem, hshown, hlong⟩
    · rw [if_neg hinternal, appendListedXattrName]
      by_cases hfirst : afpXattrNameMax < name.length
      · rw [if_pos hfirst]
      · rw [if_neg hfirst]
        dsimp only
        rw [if_neg (by simp)]
        obtain ⟨other, hmem, hshown, hlong⟩ := hlong
        rcases mem_cons.mp hmem with rfl | hmem
        · exact absurd hlong hfirst
        · exact ih hnames (by omega) ⟨other, hmem, hshown, hlong⟩

end Loop

/-! ## Which names `ml_getxattr` takes -/

/-- `ml_getxattr` takes the name: of some server, for some file, it can be
read. -/
def Accepted (name : Octets) : Prop :=
  ∃ (σ : Type) (afp : AfpCalls σ) (volume : MetadataVolume) (host : ByteOrder) (path : Octets)
    (s : σ), 0 ≤ ((afp.mlGetxattr volume host path name false 0).run s).1.1

end AfpCalls

/-- A file with attributes, as the server lists them; the list has a length
of 32 bits in the reply. -/
structure ListedFile where
  names : List AttributeName
  finderInfo : Octets
  resourceSize : ℕ
  fits : (terminated 0 (names.map Subtype.val)).length < 4294967296

namespace ListedFile

variable (file : ListedFile)

/-- The reply to FPListExtAttrs. -/
def raw : Octets := terminated 0 (file.names.map Subtype.val)

/-- The calls on a volume with this file. -/
def calls : AfpCalls Unit :=
  { AfpCalls.refusing Unit with
    getDirid := fun _ => return (0, 2, text "a")
    llGetattr := fun _ => return (⟨0, isStatus_zero⟩, file.resourceSize)
    afpGetfiledirparms := fun _ _ => return (0, file.finderInfo)
    afpGetextattr := fun _ _ _ => return (0, ⟨0, []⟩)
    afpListextattr := fun _ _ => return (0, ⟨UInt32.ofNat file.raw.length, file.raw⟩) }

/-- The special attributes that the file has: a FinderInfo that is not all
zero, and a resource fork that is not empty. -/
def special : List Octets :=
  (if file.finderInfo.window 32 = replicate 32 0 then [] else [text "com.apple.FinderInfo"]) ++
    if file.resourceSize = 0 then [] else [text "com.apple.ResourceFork"]

/-- What is to be listed: the names that the server lists, and the special
names that it does not. -/
def listing (platform : Platform) : List Octets :=
  AfpCalls.shown platform (file.names.map Subtype.val ++
    file.special.filter (· ∉ file.names.map Subtype.val))

/-- The list is consistent: a query gives its length, a fetch of that size
brings it, and `ml_getxattr` takes every name of it. -/
def Consistent (platform : Platform) (volume : MetadataVolume) (path : Octets) : Prop :=
  ∃ length : ℕ,
    (∀ value, ((file.calls.mlListxattrOn platform volume path value 0).run ()).1 =
      ((length : ℤ), [])) ∧
    ((file.calls.mlListxattrOn platform volume path true length).run ()).1 =
      ((length : ℤ), terminated 0 (file.listing platform)) ∧
    (terminated 0 (file.listing platform)).length = length ∧
    ∀ name ∈ file.listing platform, AfpCalls.Accepted name

end ListedFile

open AfpCalls

/-! ## The names one by one -/

/-- A file with both special attributes. -/
def specialFile : ListedFile := ⟨[], replicate 32 1, 1, by decide⟩

theorem convertPathToAfpAlloc_plain :
    convertPathToAfpAlloc .little attributeVolume.pathEncoding (text "/a") = .ok (text "/a") := by
  decide +kernel

/-- Both can be read. -/
theorem run_specialFile :
    ((specialFile.calls.mlGetresourcefork attributeVolume .little (text "/a") false 0 0).run ()).1.1
        = 1 ∧
      ((specialFile.calls.mlGetfinderinfo attributeVolume .little (text "/a") false 0).run ()).1.1
        = 32 := by
  constructor
  · unfold mlGetresourcefork
    rw [convertPathToAfpAlloc_plain]
    rfl
  · unfold mlGetfinderinfo openMeta
    rw [convertPathToAfpAlloc_plain]
    rfl

/-- **The names that `ml_getxattr` takes**: the special ones, and those that
are neither internal nor too long. -/
theorem accepted_iff (name : Octets) :
    Accepted name ↔ isResourceforkXattr name = true ∨ isFinderinfoXattr name = true ∨
      isInternalServerXattr name = false ∧ name.length ≤ afpXattrNameMax := by
  constructor
  · rintro ⟨σ, afp, volume, host, path, s, hret⟩
    by_contra hno
    obtain ⟨hfork, hinfo, hname⟩ := not_or.mp hno |>.imp_right not_or.mp
    have hrefused : ¬ (0 : ℤ) ≤ -enoattr := by decide
    unfold mlGetxattr at hret
    rw [if_neg hfork, if_neg hinfo] at hret
    split at hret
    · exact hrefused hret
    split at hret
    · exact hrefused hret
    next hinternal =>
    split at hret
    · exact hrefused hret
    have hlong : afpXattrNameMax < name.length := by
      by_contra hshort
      exact hname ⟨Bool.eq_false_of_not_eq_true hinternal, not_lt.mp hshort⟩
    unfold extattrTarget normalizeXattrName at hret
    rw [if_pos hlong] at hret
    exact absurd hret (show ¬ (0 : ℤ) ≤ -enametoolong by decide)
  · intro h
    refine ⟨Unit, specialFile.calls, attributeVolume, .little, text "/a", (), ?_⟩
    unfold mlGetxattr
    by_cases hfork : isResourceforkXattr name = true
    · rw [if_pos hfork, run_specialFile.1]
      decide
    by_cases hinfo : isFinderinfoXattr name = true
    · rw [if_neg hfork, if_pos hinfo, run_specialFile.2]
      decide
    obtain ⟨hinternal, hshort⟩ := h.resolve_left hfork |>.resolve_left hinfo
    unfold extattrTarget normalizeXattrName
    rw [if_neg hfork, if_neg hinfo, if_neg (by decide), if_neg (by simp [hinternal]),
      if_neg (by decide), if_neg (not_lt.mpr hshort)]
    exact le_refl 0

namespace ListedFile

variable {file : ListedFile} {platform : Platform} {volume : MetadataVolume} {path : Octets}
variable {name : Octets}

theorem raw_names : ∀ name ∈ file.names.map Subtype.val, name ≠ [] ∧ (0 : UInt8) ∉ name := by
  intro name hname
  obtain ⟨n, -, rfl⟩ := mem_map.mp hname
  exact n.property

/-- What is listed of this file. -/
theorem run_mlListxattrOn (hvolume : volume.attributes &&& kSupportsExtAttrs ≠ 0)
    (hpath : path ≠ rootPath) (value : Bool) (size : ℕ) :
    ((file.calls.mlListxattrOn platform volume path value size).run ()).1 =
      listedXattrsOn platform ⟨UInt32.ofNat file.raw.length, file.raw⟩ value size := by
  unfold mlListxattrOn
  rw [if_pos ⟨hvolume, hpath⟩]
  rfl

theorem toNat_size (file : ListedFile) :
    (UInt32.ofNat file.raw.length).toNat = file.raw.length := by
  rw [UInt32.toNat_ofNat']
  exact Nat.mod_eq_of_lt file.fits

/-- A list that is too long for the buffer. -/
theorem listedXattrsOn_long (hlong : afpExtattrListMax < file.raw.length) (value : Bool)
    (size : ℕ) :
    listedXattrsOn platform ⟨UInt32.ofNat file.raw.length, file.raw⟩ value size = (-e2big, []) := by
  unfold listedXattrsOn
  dsimp only
  rw [if_pos]
  rw [toNat_size, length_take]
  omega

/-- A list that fits. -/
theorem listedXattrsOn_short (hfits : file.raw.length ≤ afpExtattrListMax) (value : Bool)
    (size : ℕ) :
    listedXattrsOn platform ⟨UInt32.ofNat file.raw.length, file.raw⟩ value size =
      match listNamesOn platform value size file.raw.length file.raw [] with
      | .error ret => (ret, [])
      | .ok list =>
          if intMax < list.length then (-e2big, [])
          else (list.length, if value ∧ 0 < size then list else []) := by
  unfold listedXattrsOn
  dsimp only
  rw [take_of_length_le hfits, toNat_size]
  exact if_neg (lt_irrefl _)

/-- What is shown is at most six times as long. -/
theorem length_shown_le (platform : Platform) (names : List Octets) :
    (terminated 0 (shown platform names)).length ≤ 6 * (terminated 0 names).length := by
  have hprefix : platform.namespacePrefix.length ≤ 5 := by
    cases platform
    · exact Nat.zero_le _
    · exact le_rfl
  induction names with
  | nil => exact Nat.zero_le _
  | cons name names ih =>
    have hrest : (terminated (0 : UInt8) (name :: names)).length =
        name.length + ((terminated (0 : UInt8) names).length + 1) := by
      rw [terminated_cons, length_append, length_cons]
    by_cases hinternal : isInternalServerXattr name
    · rw [shown_internal hinternal]
      omega
    · rw [shown_cons (Bool.eq_false_of_not_eq_true hinternal), terminated_cons,
        length_append, length_append, length_cons]
      omega

/-- **A list of names that are short enough**, counted or copied. -/
theorem run_of_short (hvolume : volume.attributes &&& kSupportsExtAttrs ≠ 0)
    (hpath : path ≠ rootPath) (hfits : file.raw.length ≤ afpExtattrListMax)
    (hshort : ∀ name ∈ file.names.map Subtype.val, isInternalServerXattr name = false →
      name.length ≤ afpXattrNameMax) {value : Bool} {size : ℕ}
    (hroom : value = true → 0 < size →
      (terminated 0 (shown platform (file.names.map Subtype.val))).length ≤ size) :
    ((file.calls.mlListxattrOn platform volume path value size).run ()).1 =
      (((terminated 0 (shown platform (file.names.map Subtype.val))).length : ℤ),
        if value = true ∧ 0 < size then terminated 0 (shown platform (file.names.map Subtype.val))
        else []) := by
  have hloop := @listNamesOn_eq platform value size file.raw.length (file.names.map Subtype.val) []
    raw_names (le_rfl) hshort hroom
  rw [run_mlListxattrOn hvolume hpath, listedXattrsOn_short hfits]
  rw [show listNamesOn platform value size file.raw.length file.raw [] = _ from hloop]
  have hmax := length_shown_le platform (file.names.map Subtype.val)
  dsimp only
  rw [nil_append, if_neg]
  change file.raw.length ≤ 65536 at hfits
  change (terminated 0 (shown platform (file.names.map Subtype.val))).length ≤
    6 * file.raw.length at hmax
  simp only [intMax]
  omega

/-- A name that is too long fails the query. -/
theorem run_of_long (hvolume : volume.attributes &&& kSupportsExtAttrs ≠ 0)
    (hpath : path ≠ rootPath) (hfits : file.raw.length ≤ afpExtattrListMax)
    (hlong : ∃ name ∈ file.names.map Subtype.val, isInternalServerXattr name = false ∧
      afpXattrNameMax < name.length) :
    ((file.calls.mlListxattrOn platform volume path false 0).run ()).1 = (-enametoolong, []) := by
  have hloop := @listNamesOn_long platform file.raw.length (file.names.map Subtype.val) []
    raw_names (le_rfl) hlong
  rw [run_mlListxattrOn hvolume hpath, listedXattrsOn_short hfits]
  rw [show listNamesOn platform false 0 file.raw.length file.raw [] = _ from hloop]

theorem mem_special (h : name ∈ file.special) :
    name = text "com.apple.FinderInfo" ∨ name = text "com.apple.ResourceFork" := by
  unfold special at h
  rcases mem_append.mp h with h | h
  · split at h
    · exact absurd h not_mem_nil
    · exact .inl (mem_singleton.mp h)
  · split at h
    · exact absurd h not_mem_nil
    · exact .inr (mem_singleton.mp h)

theorem not_internal_special (h : name ∈ file.special) : isInternalServerXattr name = false := by
  rcases mem_special h with rfl | rfl
  · decide
  · decide

/-- The special names that the server does not list. -/
theorem listing_eq (platform : Platform) (file : ListedFile) : file.listing platform =
    shown platform (file.names.map Subtype.val) ++
      shown platform (file.special.filter (· ∉ file.names.map Subtype.val)) := shown_append

/-- Nothing is missing if the server lists all special names, and only
then. -/
theorem shown_missing_eq_nil (platform : Platform) (file : ListedFile) :
    shown platform (file.special.filter (· ∉ file.names.map Subtype.val)) = [] ↔
      ∀ name ∈ file.special, name ∈ file.names.map Subtype.val := by
  constructor
  · intro hnil name hname
    by_contra hmissing
    have hmem : platform.namespacePrefix ++ name ∈
        shown platform (file.special.filter (· ∉ file.names.map Subtype.val)) :=
      mem_shown.mpr ⟨name, mem_filter.mpr ⟨hname, decide_eq_true hmissing⟩,
        not_internal_special hname, rfl⟩
    rw [hnil] at hmem
    exact absurd hmem not_mem_nil
  · intro hlisted
    have hnone : file.special.filter (· ∉ file.names.map Subtype.val) = [] := by
      refine filter_eq_nil_iff.mpr fun name hname => ?_
      simpa using hlisted name hname
    rw [hnone]
    rfl

/-- A special name is never too long. -/
theorem length_le_of_strip
    (h : (afpXattrStripUserPrefix name).length ≤ 22) : name.length ≤ afpXattrNameMax := by
  unfold afpXattrStripUserPrefix at h
  simp only [afpXattrNameMax]
  split at h
  · rw [length_drop] at h
    have hfive : afpXattrUserPrefix.length = 5 := rfl
    omega
  · omega

theorem accepted_length (h : Accepted name) : name.length ≤ afpXattrNameMax := by
  rcases (accepted_iff name).mp h with hfork | hinfo | ⟨-, hshort⟩
  · have hname : afpXattrStripUserPrefix name = text "com.apple.ResourceFork" := by
      simpa [isResourceforkXattr] using hfork
    exact length_le_of_strip (by rw [hname]; decide)
  · have hname : afpXattrStripUserPrefix name = text "com.apple.FinderInfo" := by
      simpa [isFinderinfoXattr] using hinfo
    exact length_le_of_strip (by rw [hname]; decide)
  · exact hshort

theorem accepted_shown (hshown : isInternalServerXattr name = false)
    (hshort : (platform.namespacePrefix ++ name).length ≤ afpXattrNameMax) :
    Accepted (platform.namespacePrefix ++ name) := by
  refine (accepted_iff _).mpr (.inr (.inr ⟨?_, hshort⟩))
  cases platform
  · exact hshown
  · rfl

/-- **Which lists are consistent**: those that the buffer holds, whose names
stay short enough with the prefix, and which have the special names that
the file has. -/
theorem lists_consistent_iff (hvolume : volume.attributes &&& kSupportsExtAttrs ≠ 0)
    (hpath : path ≠ rootPath) :
    file.Consistent platform volume path ↔
      file.raw.length ≤ afpExtattrListMax ∧
      (∀ name ∈ file.names.map Subtype.val, isInternalServerXattr name = false →
        (platform.namespacePrefix ++ name).length ≤ afpXattrNameMax) ∧
      ∀ name ∈ file.special, name ∈ file.names.map Subtype.val := by
  constructor
  · rintro ⟨length, hquery, -, hlen, haccepted⟩
    have hfits : file.raw.length ≤ afpExtattrListMax := by
      by_contra hlong
      have hret := hquery false
      rw [run_mlListxattrOn hvolume hpath, listedXattrsOn_long (not_le.mp hlong)] at hret
      exact absurd (Prod.mk.inj hret).1 (by simp only [e2big]; omega)
    have hshort : ∀ name ∈ file.names.map Subtype.val, isInternalServerXattr name = false →
        name.length ≤ afpXattrNameMax := by
      intro name hname hshown
      by_contra hlong
      have hret := hquery false
      rw [run_of_long hvolume hpath hfits ⟨name, hname, hshown, not_le.mp hlong⟩] at hret
      exact absurd (Prod.mk.inj hret).1 (by simp only [enametoolong]; omega)
    refine ⟨hfits, fun name hname hshown => ?_, (shown_missing_eq_nil platform file).mp ?_⟩
    · refine accepted_length (haccepted _ ?_)
      rw [listing_eq]
      exact mem_append_left _ (mem_shown.mpr ⟨name, hname, hshown, rfl⟩)
    -- what is counted leaves no room for the special names
    · have hcount := hquery false
      rw [run_of_short hvolume hpath hfits hshort (by simp)] at hcount
      have hsame := Int.ofNat_inj.mp (Prod.mk.inj hcount).1
      rw [listing_eq, terminated_append, length_append, hsame] at hlen
      have hnone : terminated (0 : UInt8) (shown platform
          (file.special.filter (· ∉ file.names.map Subtype.val))) = [] :=
        eq_nil_of_length_eq_zero (by omega)
      exact terminated_eq_nil.mp hnone
  · rintro ⟨hfits, hshort, hlisted⟩
    have hlisting : file.listing platform = shown platform (file.names.map Subtype.val) := by
      rw [listing_eq, (shown_missing_eq_nil platform file).mpr hlisted, append_nil]
    have hnames : ∀ name ∈ file.names.map Subtype.val, isInternalServerXattr name = false →
        name.length ≤ afpXattrNameMax := by
      intro name hname hshown
      have hlen := hshort name hname hshown
      rw [length_append] at hlen
      omega
    unfold Consistent
    rw [hlisting]
    refine ⟨_, fun value => ?_, ?_, rfl, fun out hout => ?_⟩
    · rw [run_of_short hvolume hpath hfits hnames (by simp)]
      simp
    · rw [run_of_short hvolume hpath hfits hnames fun _ _ => le_rfl]
      split
      · rfl
      · next hempty =>
        have hzero : (terminated 0 (shown platform (file.names.map Subtype.val))).length = 0 := by
          have hnot : ¬ 0 < (terminated 0 (shown platform (file.names.map Subtype.val))).length :=
            fun hpos => hempty ⟨rfl, hpos⟩
          omega
        rw [eq_nil_of_length_eq_zero hzero]
    · obtain ⟨name, hname, hshown, rfl⟩ := mem_shown.mp hout
      exact accepted_shown hshown (hshort name hname hshown)

/-- An attribute, and a FinderInfo that the server lists beside it. -/
def taggedFile : ListedFile :=
  ⟨[⟨text "com.apple.FinderInfo", by decide⟩, ⟨text "tag", by decide⟩], replicate 32 1, 0,
    by decide⟩

/-- On Linux, its list is consistent. -/
theorem taggedFile_consistent :
    taggedFile.listing .other = [text "user.com.apple.FinderInfo", text "user.tag"] ∧
      taggedFile.Consistent .other attributeVolume (text "/a") := by
  refine ⟨by decide, (lists_consistent_iff (by decide) (by decide)).mpr ⟨by decide, ?_, ?_⟩⟩
  · decide
  · decide

/-- A name of `n + 1` letters. -/
def letters (n : ℕ) : AttributeName := ⟨replicate (n + 1) 97, by simp⟩

/-- A file with one attribute, whose name has 251 octets, and a FinderInfo
that the server does not list. -/
def longNamed : ListedFile where
  names := [letters 250]
  finderInfo := replicate 32 1
  resourceSize := 0
  fits := by
    change (terminated 0 [replicate 251 97]).length < 4294967296
    rw [terminated_cons, length_append, length_replicate]
    decide

/-- On Linux the name is listed with 256 octets, and `ml_getxattr` does not
take what was listed; the FinderInfo is not listed, and `ml_getxattr` reads
it. -/
theorem longNamed_inconsistent :
    ((longNamed.calls.mlListxattrOn .other attributeVolume (text "/a") true 257).run ()).1 =
        (257, text "user." ++ replicate 251 97 ++ [0]) ∧
      ((longNamed.calls.mlGetxattr attributeVolume .little (text "/a")
        (text "user." ++ replicate 251 97) false 0).run ()).1.1 = -enametoolong ∧
      ((longNamed.calls.mlGetxattr attributeVolume .little (text "/a")
        (text "user.com.apple.FinderInfo") false 0).run ()).1.1 = 32 := by
  decide +kernel

end ListedFile

end NetatalkClient
