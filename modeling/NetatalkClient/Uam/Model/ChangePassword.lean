import NetatalkClient.Uam.Model.Dhx
/-!
# UAM: changing a password

`afp_changepassword` makes FPChangePassword of the name of a method and of
what the method has put together: the user's name before AFP 3.0, two zeros
from then on, and the method's own data. Three methods have it. DES is an
arbitrary cipher that refuses some keys. A block of `calloc` starts at an
even address, so where a method looks at the parity of a pointer into its
block, that is the parity of the offset.
-/

namespace NetatalkClient

open Octets

/-- `afp_changepassword`: FPChangePassword. -/
def afpChangepassword (uaName userauthinfo : Octets) : Octets :=
  [36, 0] ++ (copyToPascal uaName ++ (List.replicate ((uaName.length + 1) % 2) 0 ++ userauthinfo))

/-- A password of eight octets at most, with zeros behind it. -/
def shortPassword (passwd : Octets) : Octets := window (passwd.take 8) 8

/-- The user's name in the blocks of `cleartxt_passwd` and `randnum_passwd`:
an octet more if what follows would stand at an even address. -/
def nameInBlock (version : AfpVersion) (username : AccountName) : Octets :=
  if 30 ≤ version.avNumber then [0, 0]
  else
    let name := copyToPascal username.octets
    if name.length % 2 = 1 then name else name ++ [0]

/-- The user's name in the blocks of `dhx_passwd`: an octet more if it has an
odd number of them. -/
def nameInDhxBlock (version : AfpVersion) (username : AccountName) : Octets :=
  if 30 ≤ version.avNumber then [0, 0]
  else
    let name := copyToPascal username.octets
    if name.length % 2 = 1 then name ++ [0] else name

/-- 'Cleartxt Passwrd' and 'Randnum Exchange'. -/
def cleartxtName : Octets := text "Cleartxt Passwrd"
def randnumName : Octets := text "Randnum Exchange"

/-- `cleartxt_passwd`: the request. -/
def cleartxtPasswd (version : AfpVersion) (username : AccountName) (passwd newpasswd : Octets) :
    Octets :=
  afpChangepassword cleartxtName
    (nameInBlock version username ++ (shortPassword passwd ++ shortPassword newpasswd))

/-- DES on a block; `none` for a key that it refuses. -/
structure Des where
  encrypt : Octets → Octets → Option Octets
  length_encrypt : ∀ {key data c}, encrypt key data = some c → c.length = data.length

/-- What `randnum_passwd` encrypts: the old password with the new one as the
key, and the other way around. -/
def randnumData (des : Des) (passwd newpasswd : Octets) : Option Octets := do
  let old ← des.encrypt (shortPassword newpasswd) (shortPassword passwd)
  let new ← des.encrypt (shortPassword passwd) (shortPassword newpasswd)
  return old ++ new

/-- `randnum_passwd`: the request, unless a key is refused. -/
def randnumPasswd (des : Des) (version : AfpVersion) (username : AccountName)
    (passwd newpasswd : Octets) : Option Octets := do
  let data ← randnumData des passwd newpasswd
  return afpChangepassword randnumName (nameInBlock version username ++ data)

/-- The first request of `dhx_passwd`. -/
def dhxPasswdFirst (version : AfpVersion) (username : AccountName) (ra : DhxSecret) : Octets :=
  afpChangepassword dhxName (nameInDhxBlock version username ++ ([0, 0] ++ ra.ma))

/-- The second request of `dhx_passwd`, from the reply to the first; `none`
if that is not of the right size. -/
def dhxPasswdSecond (cipher : Cipher) (version : AfpVersion) (username : AccountName)
    (ra : DhxSecret) (passwd newpasswd reply : Octets) : Option Octets :=
  if reply.length < 50 then none
  else
    let rbuf : Octets := reply.take 50
    let mb := (rbuf.drop 2).take 16
    let key := ra.key mb
    let nonce := (cipher.decrypt key dhxS2civ (rbuf.drop 18)).take 16
    -- `len` is what it was printed to last, `K_binary`
    let (newNonce, _) := mpiPrintMoved (List.replicate 16 0)
      (minimal (powm (value mb) ra.exponent (value pBinary))).length (value nonce + 1)
    some (afpChangepassword dhxName (nameInDhxBlock version username ++
      (padded 2 (rbuf.be16 0) ++ cipher.encrypt key dhxC2siv
        (newNonce ++ (passwordField 64 newpasswd ++ passwordField 64 passwd)))))

end NetatalkClient
