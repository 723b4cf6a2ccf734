import NetatalkClient.Midlevel.Model.Metadata
/-!
# `ml_listxattr` on each platform

On Linux the names that are listed get the prefix that the kernel asks for;
on macOS they are listed as the server has them. The rest of
`append_listed_xattr_name` and of `ml_listxattr` is the same on both.
-/

namespace NetatalkClient

open Octets

/-- Whether `__APPLE__` is defined. -/
inductive Platform where
  | apple
  | other
  deriving DecidableEq, Repr

/-- What `append_listed_xattr_name` puts before a name. -/
def Platform.namespacePrefix : Platform → Octets
  | apple => []
  | other => afpXattrUserPrefix

/-- `append_listed_xattr_name`: the list with the name, which is counted
only where there is no buffer to copy it to. -/
def appendListedXattrName (platform : Platform) (value : Bool) (size : ℕ) (list name : Octets) :
    Except ℤ Octets :=
  if afpXattrNameMax < name.length then .error (-enametoolong)
  else
    let list' := list ++ (platform.namespacePrefix ++ name ++ [0])
    if value ∧ 0 < size ∧ size < list'.length then .error (-erange) else .ok list'

namespace AfpCalls

/-- The loop of `ml_listxattr` over the names that came. -/
def listNamesOn (platform : Platform) (value : Bool) (size : ℕ) :
    ℕ → Octets → Octets → Except ℤ Octets
  | 0, _, list => .ok list
  | turns + 1, src, list =>
      let name := src.takeWhile (· ≠ 0)
      if name = [] then .ok list
      else if name.length = src.length then .error (-eio)
      else
        let rest := src.drop (name.length + 1)
        if isInternalServerXattr name then listNamesOn platform value size turns rest list
        else
          match appendListedXattrName platform value size list name with
          | .error ret => .error ret
          | .ok list' => listNamesOn platform value size turns rest list'

/-- The list from the names that came. -/
def listedXattrsOn (platform : Platform) (info : AfpExtattrInfo) (value : Bool) (size : ℕ) :
    ℤ × Octets :=
  let data := info.data.take afpExtattrListMax
  if data.length < info.size.toNat then (-e2big, [])
  else
    match listNamesOn platform value size data.length data [] with
    | .error ret => (ret, [])
    | .ok list =>
        if intMax < list.length then (-e2big, [])
        else (list.length, if value ∧ 0 < size then list else [])

/-- `ml_listxattr`. -/
def mlListxattrOn {σ : Type} (afp : AfpCalls σ) (platform : Platform) (volume : MetadataVolume)
    (path : Octets) (value : Bool) (size : ℕ) : StateM σ (ℤ × Octets) := do
  if volume.attributes &&& kSupportsExtAttrs ≠ 0 ∧ path ≠ rootPath then
    let (ret, dirid, basename) ← afp.getDirid path
    if ret ≠ 0 then return (ret, [])
    let (rc, info) ← afp.afpListextattr dirid basename
    if rc = 0 then return listedXattrsOn platform info value size
    if rc = kFPAccessDenied then return (-eacces, [])
    if rc = kFPObjectNotFound then return (-enoent, [])
    -- taken for an empty list
    if rc = kFPParamErr then return listedXattrsOn platform { info with size := 0 } value size
    return (-eio, [])
  else return listedXattrsOn platform ⟨0, []⟩ value size

end AfpCalls

end NetatalkClient
