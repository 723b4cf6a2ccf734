import NetatalkClient.Uam.Model.Srp
/-!
# UAM: the logins with Diffie-Hellman, DHX and DHX2

`dhx_login` and `dhx2_login`, message by message. CAST5 in CBC mode is an
arbitrary cipher with a key and an initialization vector, MD5 an arbitrary
function, and what libgcrypt draws at random is a parameter. libgcrypt's
integers are numbers; printing one stores its shortest string, or nothing
at all where the buffer is too short for it. Allocations succeed, as do the
calls that set the cipher up.
-/

namespace NetatalkClient

open Octets

/-- A cipher: for each key and vector, a bijection on the strings of each
length. -/
structure Cipher where
  encrypt : Octets → Octets → Octets → Octets
  decrypt : Octets → Octets → Octets → Octets
  decrypt_encrypt : ∀ key iv data, decrypt key iv (encrypt key iv data) = data
  encrypt_decrypt : ∀ key iv data, encrypt key iv (decrypt key iv data) = data
  length_encrypt : ∀ key iv data, (encrypt key iv data).length = data.length

/-- `dhx_c2siv` and `dhx_s2civ`. -/
def dhxC2siv : Octets := [76, 87, 97, 108, 108, 97, 99, 101]
def dhxS2civ : Octets := [67, 74, 97, 108, 98, 101, 114, 116]

/-- `p_binary` and `g_binary`. -/
def pBinary : Octets := [0xba, 0x28, 0x73, 0xdf, 0xb0, 0x60, 0x57, 0xd4, 0x3f, 0x20, 0x24, 0x74,
  0x4c, 0xee, 0xe7, 0x5b]
def gBinary : Octets := [7]

/-! ## Numbers in buffers -/

/-- `gcry_mpi_print` into a buffer: the buffer and the number of octets that
were stored, which stays as it was if there is no room. -/
def mpiPrint (buf : Octets) (len n : ℕ) : Octets × ℕ :=
  if buf.length < (minimal n).length then (buf, len)
  else (minimal n ++ buf.drop (minimal n).length, (minimal n).length)

/-- `gcry_mpi_print`, and the move to the end of the buffer that follows
it. -/
def mpiPrintMoved (buf : Octets) (len n : ℕ) : Octets × ℕ :=
  let (buf, len) := mpiPrint buf len n
  if len < buf.length then (List.replicate (buf.length - len) 0 ++ buf.take len, len)
  else (buf, len)

/-! ## Requests -/

/-- `copy_to_pascal`. -/
def copyToPascal (src : Octets) : Octets := UInt8.ofNat (src.take 255).length :: src.take 255

/-- The name of an account, as `struct afp_server` has room for it. -/
structure AccountName where
  octets : Octets
  length_le : octets.length ≤ afpMaxUsernameLen
  nonul : 0 ∉ octets

/-- The AFP version in use, with its name. -/
structure AfpVersion where
  avName : Octets
  avNumber : ℕ
  length_le : avName.length ≤ 255

/-- `afp_login`: FPLogin. -/
def afpLogin (version : AfpVersion) (uaName userauthinfo : Octets) : Octets :=
  [18] ++ (copyToPascal version.avName ++ (copyToPascal uaName ++ userauthinfo))

/-- `afp_logincont`: FPLoginCont. -/
def afpLogincont (id : ℕ) (userauthinfo : Octets) : Octets :=
  [19, 0] ++ (padded 2 id ++ userauthinfo)

/-- The name at the start of a method's `ai`, so that what is behind it
stands at an even offset of FPLogin. -/
def nameInLogin (version : AfpVersion) (uaName : Octets) (username : AccountName) : Octets :=
  let name := copyToPascal username.octets
  if (1 + 1 + version.avName.length + 1 + uaName.length + name.length) % 2 = 1 then name ++ [0]
  else name

/-- `strlcpy` of a password into a cleared buffer. -/
def passwordField (size : ℕ) (passwd : Octets) : Octets := window (passwd.take (size - 1)) size

/-! ## DHX -/

/-- 'DHCAST128'. -/
def dhxName : Octets := text "DHCAST128"

/-- What a client draws for DHX: `Ra_binary`. -/
def DhxSecret : Type := Vector UInt8 32

namespace DhxSecret

variable (ra : DhxSecret)

/-- `Ra`. -/
def exponent : ℕ := value ra.toList

/-- `Ma`, in the 16 octets that are sent. -/
def ma : Octets := mpiBuffer 16 (powm (value gBinary) ra.exponent (value pBinary))

/-- `K_binary`, from the server's `Mb`. -/
def key (mb : Octets) : Octets := mpiBuffer 16 (powm (value mb) ra.exponent (value pBinary))

end DhxSecret

/-- The FPLogin of `dhx_login`. -/
def dhxLogin (version : AfpVersion) (username : AccountName) (ra : DhxSecret) : Octets :=
  afpLogin version dhxName (nameInLogin version dhxName username ++ ra.ma)

/-- The FPLoginCont of `dhx_login`, from the reply to its FPLogin. -/
def dhxLogincont (cipher : Cipher) (ra : DhxSecret) (passwd reply : Octets) : Octets :=
  let rbuf := reply.window 50
  let id := rbuf.be16 0
  let key := ra.key ((rbuf.drop 2).take 16)
  let nonce := (cipher.decrypt key dhxS2civ (rbuf.drop 18)).take 16
  -- `ai` was cleared, and `len` is what was decrypted
  let (newNonce, _) := mpiPrintMoved (List.replicate 16 0) 32 (value nonce + 1)
  afpLogincont id (cipher.encrypt key dhxC2siv (newNonce ++ passwordField 64 passwd))

/-! ## DHX2 -/

/-- What a client draws for DHX2: `Ra_binary`, of a length that the server
chooses, and `nonce_binary`. -/
structure Dhx2Secret where
  random : ℕ → UInt8
  nonce : Vector UInt8 16

/-- 'DHX2'. -/
def dhx2Name : Octets := text "DHX2"

/-- The FPLogin of `dhx2_login`. -/
def dhx2Login (version : AfpVersion) (username : AccountName) : Octets :=
  afpLogin version dhx2Name (nameInLogin version dhx2Name username)

/-- What `dhx2_login` takes from the reply to its FPLogin. -/
structure Dhx2Params where
  id : ℕ
  g : ℕ
  bignumLen : ℕ
  p : ℕ
  mb : ℕ
  deriving DecidableEq, Repr

/-- The reply to FPLogin; `none` where it fails. -/
def dhx2Params (reply : Octets) : Option Dhx2Params :=
  let rbuf := reply.window 520
  let bignumLen := rbuf.be16 6
  if 256 < bignumLen then none
  else some
    { id := rbuf.be16 0
      g := value ((rbuf.drop 2).take 4)
      bignumLen
      p := value ((rbuf.drop 8).take bignumLen)
      mb := value ((rbuf.drop (8 + bignumLen)).take bignumLen) }

namespace Dhx2Secret

variable (secret : Dhx2Secret) (md5 : Octets → Vector UInt8 16) (cipher : Cipher)
variable (params : Dhx2Params)

/-- `Ra`. -/
def exponent : ℕ := value ((List.range params.bignumLen).map secret.random)

/-- `K_hash`. -/
def key : Octets :=
  (md5 (mpiBuffer params.bignumLen
    (powm params.mb (secret.exponent params) params.p))).toList

/-- The first FPLoginCont of `dhx2_login`, with `Ma` and the nonce. -/
def first : Octets :=
  afpLogincont params.id
    (mpiBuffer params.bignumLen (powm params.g (secret.exponent params) params.p) ++
      cipher.encrypt (secret.key md5 params) dhxC2siv secret.nonce.toList)

/-- The second FPLoginCont of `dhx2_login`, from the reply to the first;
`none` where the nonce that came back is a wrong one. -/
def second (passwd reply : Octets) : Option Octets :=
  let rbuf := reply.window 34
  let key := secret.key md5 params
  let plain := cipher.decrypt key dhxS2civ (rbuf.drop 2)
  -- `len` is what was decrypted, and `nonce_binary` the nonce as it was sent
  let (nonce, len) := mpiPrintMoved secret.nonce.toList 32 (value secret.nonce.toList + 1)
  if nonce ≠ plain.take 16 then none
  else
    let serverNonce := (plain.drop 16).take 16
    let (newNonce, _) := mpiPrintMoved (List.replicate 16 0) len (value serverNonce + 1)
    some (afpLogincont (rbuf.be16 0)
      (cipher.encrypt key dhxC2siv (newNonce ++ passwordField 256 passwd)))

end Dhx2Secret

end NetatalkClient
