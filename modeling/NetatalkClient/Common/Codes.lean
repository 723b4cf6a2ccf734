import NetatalkClient.Common.Octets
/-!
# Error numbers, AFP result codes, limits and texts

The values of `errno.h` and of `afp_protocol.h` that the modelled
functions return or compare with, and string constants as octets.
-/

namespace NetatalkClient

def eperm : ℤ := 1
def enoent : ℤ := 2
def eio : ℤ := 5
def e2big : ℤ := 7
def ebadf : ℤ := 9
def enomem : ℤ := 12
def eacces : ℤ := 13
def efault : ℤ := 14
def ebusy : ℤ := 16
def eexist : ℤ := 17
def enodev : ℤ := 19
def enotdir : ℤ := 20
def eisdir : ℤ := 21
def einval : ℤ := 22
def emfile : ℤ := 24
def efbig : ℤ := 27
def enospc : ℤ := 28
def erofs : ℤ := 30
def erange : ℤ := 34
def enametoolong : ℤ := 36
def enosys : ℤ := 38
def enotempty : ℤ := 39
def enodata : ℤ := 61
def eproto : ℤ := 71
def eoverflow : ℤ := 75
def eopnotsupp : ℤ := 95
def econnreset : ℤ := 104
def enotconn : ℤ := 107
def etimedout : ℤ := 110
def econnrefused : ℤ := 111
def ehostunreach : ℤ := 113
def estale : ℤ := 116

/-- `ENOATTR`, which `xattr.h` takes from `ENODATA` where the system has none. -/
def enoattr : ℤ := enodata

/-- `ENOTSUP`, another name of `EOPNOTSUPP`. -/
def enotsup : ℤ := eopnotsupp

def kFPAccessDenied : ℤ := -5000
def kFPAuthContinue : ℤ := -5001
def kFPBitmapErr : ℤ := -5004
def kFPCantMove : ℤ := -5005
def kFPDenyConflict : ℤ := -5006
def kFPDirNotEmpty : ℤ := -5007
def kFPDiskFull : ℤ := -5008
def kFPEOFErr : ℤ := -5009
def kFPFlatVol : ℤ := -5011
def kFPItemNotFound : ℤ := -5012
def kFPLockErr : ℤ := -5013
def kFPMiscErr : ℤ := -5014
def kFPNoMoreLocks : ℤ := -5015
def kFPObjectExists : ℤ := -5017
def kFPObjectNotFound : ℤ := -5018
def kFPParamErr : ℤ := -5019
def kFPUserNotAuth : ℤ := -5023
def kFPCallNotSupported : ℤ := -5024
def kFPObjectTypeErr : ℤ := -5025
def kFPTooManyFilesOpen : ℤ := -5026
def kFPCantRename : ℤ := -5028
def kFPDirNotFound : ℤ := -5029
def kFPVolLocked : ℤ := -5031
def kFPObjectLocked : ℤ := -5032

/-- `AFPC_MAX_NAME_BYTES`. -/
def afpcMaxNameBytes : ℕ := 255 * 4 + 1

/-- `AFPC_MAX_UTF8_PATH_BYTES`. -/
def afpcMaxUtf8PathBytes : ℕ := 65535

/-- `INT_MAX`. -/
def intMax : ℕ := 2147483647

/-- `UINT_MAX`, and `UINT32_MAX` as well. -/
def uintMax : ℕ := 4294967295

/-- `tolower` of the C locale. -/
def tolower (c : UInt8) : UInt8 := if 0x41 ≤ c ∧ c ≤ 0x5a then c + 0x20 else c

/-- The octets of a string constant. -/
def text (s : String) : Octets := s.toList.map fun c => UInt8.ofNat c.toNat

/-- The string an array holds. -/
def cString (array : Octets) : Octets := array.takeWhile (· ≠ 0)

theorem cString_append_zero {s : Octets} (h : ∀ c ∈ s, c ≠ 0) (rest : Octets) :
    cString (s ++ 0 :: rest) = s := by
  rw [cString, List.takeWhile_append_of_pos (by simpa using h)]
  simp

end NetatalkClient
