import NetatalkClient.Common.Files
import NetatalkClient.Common.BigEndian
import NetatalkClient.Common.Codes
/-!
# Extended attributes in Netatalk's sidecar files

Netatalk's store of a file's extended attributes (`metadata.c`): a header
file with the names and sizes, and a file for each value. The state is the
content of these files. Every call on a file succeeds completely; whether
the path of an attribute's file fits in `PATH_MAX` is a parameter, and the
path of the header file does.
-/

namespace NetatalkClient

open Octets

/-- `EA_MAGIC`. -/
def eaMagic : ℕ := 0x61644541

/-- `EA_VERSION`. -/
def eaVersion : ℕ := 1

/-- `EA_HEADER_SIZE`. -/
def eaHeaderSize : ℕ := 8

/-- `AFP_XATTR_NAME_MAX`. -/
def afpXattrNameMax : ℕ := 255

/-- `AFP_XATTR_USER_PREFIX`. -/
def afpXattrUserPrefix : Octets := text "user."

/-- `SYS_NAME_SIZE`. -/
def sysNameSize : ℕ := afpXattrUserPrefix.length + afpXattrNameMax + 1

/-! ## Names -/

/-- `afp_xattr_strip_user_prefix`. -/
def afpXattrStripUserPrefix (name : Octets) : Octets :=
  if afpXattrUserPrefix.isPrefixOf name then name.drop afpXattrUserPrefix.length else name

/-- `metadata_name_filtered`. -/
def metadataNameFiltered (name : Octets) : Bool :=
  let name := afpXattrStripUserPrefix name
  (text "org.netatalk.Metadata").isPrefixOf name ||
    name == text "com.apple.finder.copy.source" ||
    name == text "com.apple.metadata:kMDItemResumableCopy" ||
    (text "com.apple.finder.copy.checkpoint#").isPrefixOf name

/-- `metadata_name_valid`, of a string that is there. -/
def metadataNameValid (name : Octets) : Bool :=
  0 < name.length && name.length ≤ afpXattrNameMax && !name.contains 0x2f

/-- `append_name`: the list of names is kept as such, and not as the buffer
in which each of them ends with a zero. -/
def appendName (list : List Octets) (name : Octets) : Except ℤ (List Octets) :=
  if sysNameSize ≤ name.length then .error (-enametoolong)
  else if list.contains name then .ok list
  else .ok (list ++ [name])

/-! ## The header file -/

/-- `struct ea_item`. -/
structure EaItem where
  name : Octets
  size : ℕ
  deriving DecidableEq, Repr

/-- The files of a store: the header, and a value under each name. -/
structure EaSidecar where
  header : Option Octets
  value : Octets → Option Octets

/-- The loop over the characters of a name: at most `n` are read, and the
last has to be a zero. -/
def scanName : ℕ → Octets → Option (Octets × Octets)
  | 0, _ => none
  | _ + 1, [] => none
  | n + 1, c :: rest =>
      if c = 0 then some ([], rest)
      else
        match scanName n rest with
        | none => none
        | some (name, rest) => some (c :: name, rest)

/-- The loop of `load_ea_items` over what is left of the header file. -/
def loadItems : ℕ → Octets → List EaItem → Except ℤ (List EaItem)
  | 0, _, items => .ok items
  | n + 1, rest, items =>
      if rest.length < 4 then .error (-eio)
      else
        match scanName 255 (rest.drop 4) with
        | none => .error (-einval)
        | some (name, rest') =>
            if items.any (·.name = name) then .error (-einval)
            else loadItems n rest' (items ++ [⟨name, rest.be32 0⟩])

/-- `load_ea_items`. -/
def loadEaItems (header : Option Octets) : Except ℤ (List EaItem) :=
  match header with
  | none => .error (-enoattr)
  | some f =>
      if f.length < eaHeaderSize then .error (-eio)
      else if f.be32 0 ≠ eaMagic ∨ f.be16 4 ≠ eaVersion ∨ 1024 < f.be16 6 then .error (-einval)
      else loadItems (f.be16 6) (f.drop eaHeaderSize) []

/-- An item as `save_ea_items` writes it. -/
def eaItemBytes (item : EaItem) : Octets := padded 4 item.size ++ (item.name ++ [0])

/-- The buffer that `save_ea_items` writes. -/
def eaHeaderBytes (items : List EaItem) : Octets :=
  padded 4 eaMagic ++ padded 2 eaVersion ++ padded 2 items.length ++ items.flatMap eaItemBytes

/-- `save_ea_items`: what it returns, and the store. -/
def saveEaItems (s : EaSidecar) (items : List EaItem) : ℤ × EaSidecar :=
  if items = [] then (0, { s with header := none })
  else if items.any fun item => afpXattrNameMax < item.name.length then (-einval, s)
  else (0, { s with header := some (eaHeaderBytes items) })

/-! ## The four calls -/

/-- `netatalk_list`. -/
def netatalkList (s : EaSidecar) : Except ℤ (List Octets) :=
  match loadEaItems s.header with
  | .error ret => if ret = -enoattr ∨ ret = -enodata then .ok [] else .error ret
  | .ok items =>
      items.foldlM (fun list item =>
        if metadataNameFiltered item.name then .ok list else appendName list item.name) []

/-- `netatalk_get`. -/
def netatalkGet (fits : Octets → Bool) (s : EaSidecar) (name : Octets) : Except ℤ Octets :=
  match loadEaItems s.header with
  | .error ret => .error ret
  | .ok items =>
      match items.find? (·.name = name) with
      | none => .error (-enoattr)
      | some item =>
          if fits name = false then .error (-enoattr)
          else
            match s.value name with
            | none => .error (-enoattr)
            | some v => if v.length < item.size then .error (-eio) else .ok (v.take item.size)

/-- The items with the size of one of them set, or with one more. The names
that were loaded are all different. -/
def setItem (items : List EaItem) (name : Octets) (size : ℕ) : List EaItem :=
  if items.any (·.name = name) then
    items.map fun item => if item.name = name then { item with size } else item
  else items ++ [⟨name, size⟩]

/-- `netatalk_set`: what it returns, and the store. -/
def netatalkSet (fits : Octets → Bool) (s : EaSidecar) (name value : Octets) : ℤ × EaSidecar :=
  if 0xFFFFFFFF < value.length then (-e2big, s)
  else
    match loadEaItems s.header with
    | .error ret => if ret = -enoattr ∨ ret = -enodata then store [] else (ret, s)
    | .ok items => store items
where
  /-- From the items that were loaded on. -/
  store (items : List EaItem) : ℤ × EaSidecar :=
    if fits name = false then (-enametoolong, s)
    else
      saveEaItems { s with value := Function.update s.value name (some value) }
        (setItem items name value.length)

/-- `netatalk_remove`: what it returns, and the store. -/
def netatalkRemove (fits : Octets → Bool) (s : EaSidecar) (name : Octets) : ℤ × EaSidecar :=
  match loadEaItems s.header with
  | .error ret => (ret, s)
  | .ok items =>
      if items.any (·.name = name) then
        if fits name = false then (-enametoolong, s)
        else
          saveEaItems { s with value := Function.update s.value name none }
            (items.eraseP (·.name = name))
      else (-enoattr, s)

end NetatalkClient
