import NetatalkClient.Common.BigEndian
import NetatalkClient.Common.Codes
/-!
# UAM: the SRP login

`srp_login`: the parameters in the reply to FPLoginExt, the client's values
computed from them, and FPLoginCont with the proof of one side and the
reply with that of the other. The peer answers as it likes. SHA-1 and the
random bytes are parameters; libgcrypt's integers are numbers, and where
it divides by zero it ends the program. Allocations succeed.
-/

namespace NetatalkClient

open Octets

/-- `SRP_AUTH_FAILURE`. -/
def srpAuthFailure : ℤ := -6754

/-- `SRP_MAX_NBYTES`. -/
def srpMaxNbytes : ℕ := 256

/-- `AFP_MAX_USERNAME_LEN` and `AFP_MAX_PASSWORD_LEN`. -/
def afpMaxUsernameLen : ℕ := 127
def afpMaxPasswordLen : ℕ := 127

/-- `rbuf.maxsize` in the first round and in the second. -/
def srpParamsMax : ℕ := 2 + 2 + 2 + srpMaxNbytes + 2 + srpMaxNbytes + 2 + 64 + 2 + srpMaxNbytes
def srpProofMax : ℕ := 2 + 2 + 20

/-- How `srp_login` ends. -/
inductive SrpEnd where
  | returned (ret : ℤ)
  /-- libgcrypt ends the program. -/
  | abort
  /-- A write in front of `B_buf`. -/
  | overflow
  /-- Still looking for a random `a`. -/
  | drawing
  deriving DecidableEq, Repr

/-- SHA-1 and `gcry_randomize`: byte `j` of draw `i` is `random i j`. -/
structure SrpEnv where
  sha1 : Octets → Vector UInt8 20
  random : ℕ → ℕ → UInt8

/-- The peer's answers, each a return code and a payload. The second may
depend on what it was sent. -/
structure SrpPeer where
  loginext : ℤ × Octets
  logincont : Octets → ℤ × Octets

/-! ## The parameters -/

/-- The four fields of the first reply, as they stand there. -/
structure SrpParams where
  nRaw : Octets
  gRaw : Octets
  salt : Octets
  bRaw : Octets
  deriving DecidableEq, Repr

/-- One field: a length of two bytes, perhaps with a limit on it, and as
many bytes. -/
def srpField (limit : Option ℕ) (d : Octets) : Option (Octets × Octets) :=
  if d.length < 2 then none
  else
    let len := d.be16 0
    let d := d.drop 2
    if limit.any (· < len) ∨ d.length < len then none else some (d.take len, d.drop len)

/-- The parameters; `none` where the source goes to `srp_fail` or
`srp_parse_fail`. -/
def srpParams (rbuf : Octets) : Option SrpParams :=
  if rbuf.length < 8 then none
  else do
    let (nRaw, d) ← srpField (some srpMaxNbytes) (rbuf.drop 4)
    let (gRaw, d) ← srpField (some srpMaxNbytes) d
    let (salt, d) ← srpField none d
    let (bRaw, _) ← srpField (some srpMaxNbytes) d
    some ⟨nRaw, gRaw, salt, bRaw⟩

/-! ## The pieces of the computation -/

/-- `strip_leading_zeros`. -/
def stripLeadingZeros : Octets → Octets
  | 0 :: c :: b => stripLeadingZeros (c :: b)
  | b => b

/-- The loop of `mgf1_sha1` for `outLen` bytes more. -/
def mgf1Sha1Loop (sha1 : Octets → Vector UInt8 20) (seed : Octets) : ℕ → ℕ → ℕ → Octets
  | 0, _, _ => []
  | fuel + 1, counter, outLen =>
      if outLen = 0 then []
      else
        (sha1 (seed ++ padded 4 counter)).toList.take outLen ++
          mgf1Sha1Loop sha1 seed fuel (counter + 1) (outLen - 20)

/-- `mgf1_sha1`. Every round makes 20 bytes, so `outLen` rounds are enough. -/
def mgf1Sha1 (sha1 : Octets → Vector UInt8 20) (seed : Octets) (outLen : ℕ) : Octets :=
  mgf1Sha1Loop sha1 seed outLen 0 outLen

/-- `gcry_mpi_print` into a buffer of `nbytes`, moved to its end. -/
def mpiBuffer (nbytes n : ℕ) : Octets :=
  List.replicate (nbytes - (minimal n).length) 0 ++ minimal n

/-- `gcry_mpi_powm`, `gcry_mpi_mulm` and `gcry_mpi_subm`. -/
def powm (b e m : ℕ) : ℕ := b ^ e % m
def mulm (a b m : ℕ) : ℕ := a * b % m
def subm (a b m : ℕ) : ℕ := (((a : ℤ) - b) % m).toNat

/-- The loop that draws `a` until `A` is not 0. -/
def clientEphemeral (random : ℕ → ℕ → UInt8) (g n nbytes : ℕ) : ℕ → ℕ → Option (ℕ × ℕ)
  | 0, _ => none
  | fuel + 1, i =>
      let a := value ((List.range nbytes).map (random i)) % n
      let bigA := powm g a n
      if bigA = 0 then clientEphemeral random g n nbytes fuel (i + 1) else some (a, bigA)

/-- The exclusive or of two hashes. -/
def xorHash (a b : Vector UInt8 20) : Octets := List.zipWith (· ^^^ ·) a.toList b.toList

/-! ## The client's values -/

/-- What the client has computed when it sends its proof. -/
structure SrpClient where
  /-- `A_buf`, and `A` without zeros in front. -/
  aBuf : Octets
  aStripped : Octets
  s : ℕ
  k : Octets
  m1 : Vector UInt8 20

/-- `x`. -/
def srpX (sha1 : Octets → Vector UInt8 20) (salt username passwd : Octets) : ℕ :=
  let username := username.take afpMaxUsernameLen
  let passwd := passwd.take afpMaxPasswordLen
  value (sha1 (salt ++ (sha1 (username ++ [58] ++ passwd)).toList)).toList

/-- The last byte of `g_val`, that is of `g`. -/
def gByte (gRaw : Octets) : UInt8 :=
  UInt8.ofNat (gRaw.foldl (fun gVal c => (gVal * 256 + c.toNat) % 2 ^ 32) 0)

/-- From the parameters to the proof. -/
def srpClient (env : SrpEnv) (username passwd : Octets) (fuel : ℕ) (p : SrpParams) :
    Except SrpEnd SrpClient :=
  let sha1 := env.sha1
  let n := value p.nRaw
  let g := value p.gRaw
  let b := value p.bRaw
  if n = 0 then .error .abort
  else if b % n = 0 then .error (.returned (-1))
  else
    let nbytes := p.nRaw.length
    let x := srpX sha1 p.salt username passwd
    let v := powm g x n
    match clientEphemeral env.random g n nbytes fuel 0 with
    | none => .error .drawing
    | some (a, bigA) =>
        let aBuf := mpiBuffer nbytes bigA
        if nbytes < p.bRaw.length then .error .overflow
        else
          let bBuf := List.replicate (nbytes - p.bRaw.length) 0 ++ p.bRaw
          let u := value (sha1 (aBuf ++ bBuf)).toList
          if u = 0 then .error (.returned (-1))
          else
            let gPadded := List.replicate (nbytes - 1) 0 ++ [gByte p.gRaw]
            let k := value (sha1 (p.nRaw ++ gPadded)).toList
            let kv := mulm k v n
            let diff := subm b kv n
            let exp := a + u * x
            let s := powm diff exp n
            let bigK := mgf1Sha1 sha1 (stripLeadingZeros (mpiBuffer nbytes s)) 40
            let hN := sha1 (stripLeadingZeros p.nRaw)
            let hG := sha1 [gByte p.gRaw]
            let hUser := sha1 (username.take afpMaxUsernameLen)
            let aStripped := stripLeadingZeros aBuf
            let m1 := sha1 (xorHash hN hG ++ hUser.toList ++ p.salt ++ aStripped ++
              stripLeadingZeros p.bRaw ++ bigK)
            .ok ⟨aBuf, aStripped, s, bigK, m1⟩

/-- `M2_expected`. -/
def SrpClient.m2Expected (sha1 : Octets → Vector UInt8 20) (c : SrpClient) : Vector UInt8 20 :=
  sha1 (c.aStripped ++ c.m1.toList ++ c.k)

/-- The user authentication info of FPLoginCont. -/
def SrpClient.authinfo (c : SrpClient) : Octets :=
  [0, 3] ++ padded 2 c.aBuf.length ++ c.aBuf ++ [0, 20] ++ c.m1.toList

/-! ## The login -/

/-- A run: how it ends; if it comes to the second round, the client's
values and the final reply as far as it is taken; and whether it warns of
a wrong proof. -/
structure SrpRun where
  ending : SrpEnd
  proof : Option (SrpClient × Octets)
  warned : Bool

/-- The comparison with `M2_expected`: a reply is long enough to hold a
proof, and holds another. -/
def proofWrong (sha1 : Octets → Vector UInt8 20) (c : SrpClient) (rbuf : Octets) : Bool :=
  24 ≤ rbuf.length && (rbuf.drop 4).take 20 ≠ (c.m2Expected sha1).toList

def srpLogin (env : SrpEnv) (peer : SrpPeer) (username passwd : Octets) (fuel : ℕ) : SrpRun :=
  let (ret, reply) := peer.loginext
  if ret ≠ kFPAuthContinue then
    ⟨.returned (if ret = srpAuthFailure then kFPUserNotAuth else ret), none, false⟩
  else
    match srpParams (reply.take srpParamsMax) with
    | none => ⟨.returned (-1), none, false⟩
    | some p =>
        match srpClient env username passwd fuel p with
        | .error ending => ⟨ending, none, false⟩
        | .ok c =>
            let (ret, reply) := peer.logincont c.authinfo
            let rbuf := reply.take srpProofMax
            if ret ≠ 0 then
              ⟨.returned (if ret = srpAuthFailure then kFPUserNotAuth else ret), some (c, rbuf),
                false⟩
            else ⟨.returned 0, some (c, rbuf), proofWrong env.sha1 c rbuf⟩

end NetatalkClient
