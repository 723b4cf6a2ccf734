import NetatalkClient.Uam.Srp
import Mathlib.Data.ZMod.Basic
import Mathlib.Tactic.Ring
/-!
# SRP: both sides compute the same

The server's side by the formulas that `srp_login` documents, on numbers:
`PAD` is the string of N's length, `strip` the shortest. The client works
on buffers. With parameters of an account, whatever the two secret
exponents, it comes to the server's premaster, key and proofs
(`srpLogin_agrees`).
-/

namespace NetatalkClient

open Octets

/-! ## The documented formulas -/

/-- An account on a server, and the group it uses. -/
structure SrpAccount where
  nRaw : Octets
  g : UInt8
  salt : Octets
  username : Octets
  passwd : Octets
  prime : (value nRaw).Prime
  top : nRaw.head? ≠ some 0
  nbytes_le : nRaw.length ≤ srpMaxNbytes
  generator : ¬ value nRaw ∣ g.toNat
  salt_le : salt.length ≤ 64
  username_le : username.length ≤ afpMaxUsernameLen
  passwd_le : passwd.length ≤ afpMaxPasswordLen

namespace SrpAccount

variable (sha1 : Octets → Vector UInt8 20) (acc : SrpAccount) (b bigA : ℕ)

/-- N. -/
def n : ℕ := value acc.nRaw

/-- `PAD`. -/
def pad (i : ℕ) : Octets := padded acc.nRaw.length i

/-- x = SHA1(salt | SHA1(username | ":" | password)). -/
def x : ℕ :=
  value (sha1 (acc.salt ++ (sha1 (acc.username ++ [58] ++ acc.passwd)).toList)).toList

/-- v = g^x mod N. -/
def v : ℕ := acc.g.toNat ^ acc.x sha1 % acc.n

/-- k = SHA1(N | PAD(g)). -/
def k : ℕ := value (sha1 (acc.pad acc.n ++ acc.pad acc.g.toNat)).toList

/-- B = (k*v + g^b) mod N. -/
def bigB : ℕ := (acc.k sha1 * acc.v sha1 + acc.g.toNat ^ b) % acc.n

/-- u = SHA1(PAD(A) | PAD(B)). -/
def u : ℕ := value (sha1 (acc.pad bigA ++ acc.pad (acc.bigB sha1 b))).toList

/-- S = (A * v^u)^b mod N. -/
def premaster : ℕ := (bigA * acc.v sha1 ^ acc.u sha1 b bigA) ^ b % acc.n

/-- K = MGF1-SHA1(strip(S), 40). -/
def key : Octets :=
  (sha1 (stripped (acc.premaster sha1 b bigA) ++ [0, 0, 0, 0])).toList ++
    (sha1 (stripped (acc.premaster sha1 b bigA) ++ [0, 0, 0, 1])).toList

/-- M1 = SHA1(H(N)^H(g) | H(username) | salt | strip(A) | strip(B) | K). -/
def m1 : Vector UInt8 20 :=
  sha1 (xorHash (sha1 (stripped acc.n)) (sha1 (stripped acc.g.toNat)) ++
    (sha1 acc.username).toList ++ acc.salt ++ stripped bigA ++ stripped (acc.bigB sha1 b) ++
    acc.key sha1 b bigA)

/-- M2 = SHA1(strip(A) | M1 | K). -/
def m2 : Vector UInt8 20 :=
  sha1 (stripped bigA ++ (acc.m1 sha1 b bigA).toList ++ acc.key sha1 b bigA)

/-- The values a client is to come to. -/
def client : SrpClient :=
  ⟨acc.pad bigA, stripped bigA, acc.premaster sha1 b bigA, acc.key sha1 b bigA,
    acc.m1 sha1 b bigA⟩

/-- The reply to FPLoginExt: two words that the client skips, and the
parameters. -/
def reply (skipped : Vector UInt8 4) (bRaw : Octets) : Octets :=
  skipped.toList ++ padded 2 acc.nRaw.length ++ acc.nRaw ++ [0, 1, acc.g] ++
    padded 2 acc.salt.length ++ acc.salt ++ padded 2 bRaw.length ++ bRaw

/-- The client's `a`, from its first draw, and `A`. -/
def clientA (random : ℕ → ℕ → UInt8) : ℕ :=
  value ((List.range acc.nRaw.length).map (random 0)) % acc.n
def clientBigA (random : ℕ → ℕ → UInt8) : ℕ := acc.g.toNat ^ acc.clientA random % acc.n

end SrpAccount

/-! ## The arithmetic -/

theorem natCast_powm (b e m : ℕ) : ((powm b e m : ℕ) : ZMod m) = (b : ZMod m) ^ e := by
  rw [powm, ZMod.natCast_mod, Nat.cast_pow]

theorem natCast_mulm (a b m : ℕ) : ((mulm a b m : ℕ) : ZMod m) = (a : ZMod m) * b := by
  rw [mulm, ZMod.natCast_mod, Nat.cast_mul]

theorem natCast_subm (a b m : ℕ) (hm : m ≠ 0) : ((subm a b m : ℕ) : ZMod m) = (a : ZMod m) - b := by
  have hnonneg : 0 ≤ ((a : ℤ) - b) % m := Int.emod_nonneg _ (by exact_mod_cast hm)
  have hint : ((subm a b m : ℕ) : ℤ) = ((a : ℤ) - b) % m := Int.toNat_of_nonneg hnonneg
  have hcast : ((subm a b m : ℕ) : ZMod m) = (((a : ℤ) - b) % m : ℤ) := by
    rw [← hint, Int.cast_natCast]
  rw [hcast, ZMod.intCast_mod, Int.cast_sub, Int.cast_natCast, Int.cast_natCast]

/-- The two ways to the premaster: B - k*v is g^b, however it is reduced. -/
theorem premaster_eq {n : ℕ} (hn : n ≠ 0) (g a b k u x : ℕ) :
    powm (subm ((k * powm g x n + g ^ b) % n) (mulm k (powm g x n) n) n) (a + u * x) n =
      (powm g a n * powm g x n ^ u) ^ b % n := by
  have hdiff : ((subm ((k * powm g x n + g ^ b) % n) (mulm k (powm g x n) n) n : ℕ) : ZMod n) =
      (g : ZMod n) ^ b := by
    rw [natCast_subm _ _ _ hn, natCast_mulm, ZMod.natCast_mod]
    push_cast
    ring
  apply (ZMod.natCast_eq_natCast_iff' _ _ n).mp
  push_cast
  rw [hdiff, natCast_powm, natCast_powm]
  calc ((g : ZMod n) ^ b) ^ (a + u * x) = (g : ZMod n) ^ (b * (a + u * x)) := (pow_mul _ _ _).symm
    _ = (g : ZMod n) ^ ((a + x * u) * b) := by ring_nf
    _ = ((g : ZMod n) ^ a * ((g : ZMod n) ^ x) ^ u) ^ b := by
      rw [pow_mul, pow_add, pow_mul]

/-! ## The buffers -/

/-- `strip_leading_zeros` gives the shortest string of the number. -/
theorem stripLeadingZeros_eq {b : Octets} (h : b ≠ []) :
    stripLeadingZeros b = stripped (value b) := by
  induction b with
  | nil => exact absurd rfl h
  | cons c b ih =>
    by_cases hc : c = 0
    · subst hc
      cases b with
      | nil => rfl
      | cons c b => rw [stripLeadingZeros, ih (List.cons_ne_nil _ _), value_zero_cons]
    · rw [stripped_value_cons hc, stripLeadingZeros]
      rintro _ _ heq
      cases heq
      exact hc rfl

theorem mpiBuffer_eq {nbytes n : ℕ} (h : n < 256 ^ nbytes) : mpiBuffer nbytes n = padded nbytes n :=
  replicate_append_minimal h

/-- Forty bytes are two rounds. -/
theorem mgf1Sha1_forty (sha1 : Octets → Vector UInt8 20) (seed : Octets) :
    mgf1Sha1 sha1 seed 40 =
      (sha1 (seed ++ [0, 0, 0, 0])).toList ++ (sha1 (seed ++ [0, 0, 0, 1])).toList := by
  have hzero : padded 4 0 = [0, 0, 0, 0] := by decide
  have hone : padded 4 1 = [0, 0, 0, 1] := by decide
  have htake : ∀ (h : Vector UInt8 20) (k : ℕ), 20 ≤ k → h.toList.take k = h.toList :=
    fun h k hk => List.take_of_length_le (by simpa using hk)
  simp [mgf1Sha1, mgf1Sha1Loop, hzero, hone, htake]

/-- A field that was written is read back. -/
theorem srpField_encoded {limit : Option ℕ} {f : Octets} (rest : Octets)
    (hlimit : ∀ l, limit = some l → f.length ≤ l) (hlen : f.length < 65536) :
    srpField limit (padded 2 f.length ++ (f ++ rest)) = some (f, rest) := by
  have hshort : ¬ (padded 2 f.length ++ (f ++ rest)).length < 2 := by
    rw [List.length_append, length_padded]
    omega
  have hdrop : (padded 2 f.length ++ (f ++ rest)).drop 2 = f ++ rest :=
    List.drop_left' (length_padded _ _)
  have hfits : ¬ (limit.any (· < f.length) = true ∨ (f ++ rest).length < f.length) := by
    rintro (hover | hover)
    · cases limit with
      | none => simp at hover
      | some l =>
        have hle := hlimit l rfl
        have hlt : l < f.length := by simpa using hover
        omega
    · rw [List.length_append] at hover
      omega
  simp only [srpField, if_neg hshort, be16_padded_append _ hlen, hdrop, if_neg hfits,
    List.take_left, List.drop_left]

namespace SrpAccount

variable {sha1 : Octets → Vector UInt8 20} {acc : SrpAccount} {b : ℕ} {bRaw : Octets}

theorem n_ne_zero (acc : SrpAccount) : acc.n ≠ 0 := acc.prime.ne_zero

theorem nRaw_ne_nil (acc : SrpAccount) : acc.nRaw ≠ [] := by
  intro h
  have hzero : acc.n = 0 := by rw [n, h, value_nil]
  exact acc.n_ne_zero hzero

/-- What is reduced modulo N has room in N's length. -/
theorem mod_lt_pow (acc : SrpAccount) (i : ℕ) : i % acc.n < 256 ^ acc.nRaw.length :=
  lt_trans (Nat.mod_lt _ (Nat.pos_of_ne_zero acc.n_ne_zero)) (value_lt acc.nRaw)

/-- N does not divide A. -/
theorem clientBigA_ne_zero (acc : SrpAccount) (random : ℕ → ℕ → UInt8) :
    acc.clientBigA random ≠ 0 := by
  intro hzero
  exact acc.generator (acc.prime.dvd_of_dvd_pow (Nat.dvd_of_mod_eq_zero hzero))

theorem srpParams_reply (skipped : Vector UInt8 4) (hlen : bRaw.length ≤ acc.nRaw.length) :
    srpParams ((acc.reply skipped bRaw).take srpParamsMax) =
      some ⟨acc.nRaw, [acc.g], acc.salt, bRaw⟩ := by
  have hn : acc.nRaw.length ≤ 256 := acc.nbytes_le
  have hsalt := acc.salt_le
  have hsize : (acc.reply skipped bRaw).length ≤ srpParamsMax := by
    simp [reply, srpParamsMax, srpMaxNbytes]
    omega
  have hshort : ¬ (acc.reply skipped bRaw).length < 8 := by
    simp [reply]
    omega
  have hdrop : (acc.reply skipped bRaw).drop 4 =
      padded 2 acc.nRaw.length ++ (acc.nRaw ++ (padded 2 [acc.g].length ++ ([acc.g] ++
        (padded 2 acc.salt.length ++ (acc.salt ++ (padded 2 bRaw.length ++ (bRaw ++ []))))))) := by
    have hg : padded 2 [acc.g].length = [0, 1] := by
      rw [List.length_singleton]
      decide
    rw [hg]
    simp [reply]
  rw [List.take_of_length_le hsize, srpParams, if_neg hshort, hdrop,
    srpField_encoded _ (by simpa [srpMaxNbytes] using hn) (by omega)]
  simp only [Option.bind_eq_bind, Option.bind_some]
  rw [srpField_encoded _ (by simp [srpMaxNbytes]) (by simp)]
  simp only [Option.bind_some]
  rw [srpField_encoded _ (by simp) (by omega)]
  simp only [Option.bind_some]
  rw [srpField_encoded _ (by simp [srpMaxNbytes]; omega) (by omega)]
  rfl

theorem clientEphemeral_eq (acc : SrpAccount) (random : ℕ → ℕ → UInt8) (fuel : ℕ) :
    clientEphemeral random acc.g.toNat acc.n acc.nRaw.length (fuel + 1) 0 =
      some (acc.clientA random, acc.clientBigA random) := by
  have hne := acc.clientBigA_ne_zero random
  simp only [clientEphemeral]
  exact if_neg hne

theorem gByte_singleton (g : UInt8) : gByte [g] = g := by
  have hg : g.toNat < 256 := g.toNat_lt
  apply UInt8.toNat_inj.mp
  rw [gByte, UInt8.toNat_ofNat', List.foldl_cons, List.foldl_nil]
  omega

theorem srpX_eq (sha1 : Octets → Vector UInt8 20) (acc : SrpAccount) :
    srpX sha1 acc.salt acc.username acc.passwd = acc.x sha1 := by
  simp only [srpX, x, List.take_of_length_le acc.username_le, List.take_of_length_le acc.passwd_le]

/-- Any string for a number, with zeros in front, is `PAD` of it. -/
theorem replicate_append_eq_pad (acc : SrpAccount) {raw : Octets}
    (h : raw.length ≤ acc.nRaw.length) :
    List.replicate (acc.nRaw.length - raw.length) 0 ++ raw = acc.pad (value raw) := by
  refine eq_padded ?_ value_replicate_append
  rw [List.length_append, List.length_replicate]
  omega

/-- **The client's values.** They are the server's, if B comes in any
string that is no longer than N's. -/
theorem srpClient_eq (sha1 : Octets → Vector UInt8 20) (acc : SrpAccount)
    (random : ℕ → ℕ → UInt8) (hvalue : value bRaw = acc.bigB sha1 b)
    (hlen : bRaw.length ≤ acc.nRaw.length) (hB : acc.bigB sha1 b ≠ 0)
    (hu : acc.u sha1 b (acc.clientBigA random) ≠ 0) (fuel : ℕ) :
    srpClient ⟨sha1, random⟩ acc.username acc.passwd (fuel + 1)
        ⟨acc.nRaw, [acc.g], acc.salt, bRaw⟩ = .ok (acc.client sha1 b (acc.clientBigA random)) := by
  have hn := acc.n_ne_zero
  have hpos : 0 < acc.nRaw.length := List.length_pos_iff.mpr acc.nRaw_ne_nil
  have hg : value [acc.g] = acc.g.toNat := by simp [value]
  have hnRaw : value acc.nRaw = acc.n := rfl
  have hmod : acc.bigB sha1 b % acc.n ≠ 0 := by
    rw [bigB, Nat.mod_mod]
    exact hB
  have hbNil : bRaw ≠ [] := by
    rintro rfl
    exact hB hvalue.symm
  -- the buffers are the padded and the stripped strings of the numbers
  have haBuf : mpiBuffer acc.nRaw.length (acc.clientBigA random) =
      acc.pad (acc.clientBigA random) := mpiBuffer_eq (acc.mod_lt_pow _)
  have hsBuf : mpiBuffer acc.nRaw.length (acc.premaster sha1 b (acc.clientBigA random)) =
      acc.pad (acc.premaster sha1 b (acc.clientBigA random)) := mpiBuffer_eq (acc.mod_lt_pow _)
  have hbBuf := replicate_append_eq_pad acc hlen
  have hgPad : List.replicate (acc.nRaw.length - 1) 0 ++ [acc.g] = acc.pad acc.g.toNat := by
    have hone : [acc.g].length ≤ acc.nRaw.length := hpos
    rw [← hg]
    exact replicate_append_eq_pad acc hone
  have hnPad : acc.pad acc.n = acc.nRaw := padded_value acc.nRaw
  have hstrip : ∀ i, stripLeadingZeros (acc.pad (i % acc.n)) = stripped (i % acc.n) := by
    intro i
    rw [stripLeadingZeros_eq, pad, value_padded (acc.mod_lt_pow i)]
    exact List.length_pos_iff.mp (by rw [pad, length_padded]; exact hpos)
  have hu' : value (sha1 (acc.pad (acc.clientBigA random) ++ acc.pad (acc.bigB sha1 b))).toList =
      acc.u sha1 b (acc.clientBigA random) := rfl
  have hs : powm (subm (acc.bigB sha1 b)
      (mulm (acc.k sha1) (powm acc.g.toNat (acc.x sha1) acc.n) acc.n) acc.n)
      (acc.clientA random + acc.u sha1 b (acc.clientBigA random) * acc.x sha1) acc.n =
        acc.premaster sha1 b (acc.clientBigA random) := premaster_eq hn _ _ _ _ _ _
  have hk : value (sha1 (acc.nRaw ++ acc.pad acc.g.toNat)).toList = acc.k sha1 := by
    rw [k, hnPad]
  rw [hvalue] at hbBuf
  simp only [srpClient, hnRaw, hg, hvalue, if_neg hn, if_neg hmod, srpX_eq, clientEphemeral_eq,
    haBuf, if_neg (not_lt.mpr hlen), hbBuf, hu', if_neg hu, gByte_singleton, hgPad, hk, hs, hsBuf]
  have hstripA : stripLeadingZeros (acc.pad (acc.clientBigA random)) =
      stripped (acc.clientBigA random) := hstrip _
  have hstripS : stripLeadingZeros (acc.pad (acc.premaster sha1 b (acc.clientBigA random))) =
      stripped (acc.premaster sha1 b (acc.clientBigA random)) := hstrip _
  have hstripG : stripped acc.g.toNat = [acc.g] := by
    rw [← hg]
    exact stripped_value_cons fun hzero => acc.generator (by simp [hzero])
  rw [hstripA, hstripS, mgf1Sha1_forty, stripLeadingZeros_eq hbNil, hvalue,
    stripLeadingZeros_eq acc.nRaw_ne_nil, hnRaw, List.take_of_length_le acc.username_le, client,
    m1, hstripG]
  rfl

end SrpAccount

/-- **Key agreement.** For every account, every pair of secret exponents
and every hash: a client that gets the account's parameters, with B in any
string no longer than N's, computes the premaster, the key and the two
proofs that the documented formulas give the server for the A that the
client sends. -/
theorem srpLogin_agrees (sha1 : Octets → Vector UInt8 20) (acc : SrpAccount)
    (random : ℕ → ℕ → UInt8) (b : ℕ) (bRaw : Octets) (skipped : Vector UInt8 4)
    (hvalue : value bRaw = acc.bigB sha1 b) (hlen : bRaw.length ≤ acc.nRaw.length)
    (hB : acc.bigB sha1 b ≠ 0) (hu : acc.u sha1 b (acc.clientBigA random) ≠ 0)
    (logincont : Octets → ℤ × Octets) (fuel : ℕ) :
    ∃ c reply,
      (srpLogin ⟨sha1, random⟩ ⟨(kFPAuthContinue, acc.reply skipped bRaw), logincont⟩
        acc.username acc.passwd (fuel + 1)).proof = some (c, reply) ∧
      c.aBuf = acc.pad (acc.clientBigA random) ∧
      c.s = (acc.clientBigA random * acc.v sha1 ^ acc.u sha1 b (acc.clientBigA random)) ^ b %
        acc.n ∧
      c.k = acc.key sha1 b (acc.clientBigA random) ∧
      c.m1 = acc.m1 sha1 b (acc.clientBigA random) ∧
      c.m2Expected sha1 = acc.m2 sha1 b (acc.clientBigA random) := by
  have hclient := SrpAccount.srpClient_eq sha1 acc random hvalue hlen hB hu fuel
  refine ⟨acc.client sha1 b (acc.clientBigA random),
    (logincont (acc.client sha1 b (acc.clientBigA random)).authinfo).2.take srpProofMax,
    ?_, rfl, rfl, rfl, rfl, rfl⟩
  simp only [srpLogin, ne_eq, not_true_eq_false, if_false, acc.srpParams_reply skipped hlen,
    hclient]
  split <;> rfl

/-- An account in the group of the numbers modulo 7. -/
def sevenAccount : SrpAccount where
  nRaw := [7]
  g := 3
  salt := [1]
  username := [97]
  passwd := [98]
  prime := by
    rw [show value [7] = 7 by decide]
    decide
  top := by decide
  nbytes_le := by decide
  generator := by decide
  salt_le := by decide
  username_le := by decide
  passwd_le := by decide

/-- With the exponents 5 and 2, B is 5 and both sides come to 1. -/
theorem srpLogin_agrees_seven :
    ∃ c reply,
      (srpLogin ⟨oneHash, fun _ _ => 5⟩
        ⟨(kFPAuthContinue, sevenAccount.reply (Vector.replicate 4 0) [5]), fun _ => (0, [])⟩
        [97] [98] 1).proof = some (c, reply) ∧
      c.s = 1 ∧ c.k = sevenAccount.key oneHash 2 5 ∧ c.m1 = sevenAccount.m1 oneHash 2 5 ∧
      c.m2Expected oneHash = sevenAccount.m2 oneHash 2 5 := by
  obtain ⟨hA, hB, hu, hv⟩ : sevenAccount.clientBigA (fun _ _ => 5) = 5 ∧
      sevenAccount.bigB oneHash 2 = 5 ∧ sevenAccount.u oneHash 2 5 ≠ 0 ∧
      (5 * sevenAccount.v oneHash ^ sevenAccount.u oneHash 2 5) ^ 2 % sevenAccount.n = 1 := by
    decide +kernel
  obtain ⟨c, reply, hproof, -, hs, hk, hm1, hm2⟩ :=
    srpLogin_agrees oneHash sevenAccount (fun _ _ => 5) 2 [5] (Vector.replicate 4 0)
      hB.symm (by decide) (by rw [hB]; decide) (by rw [hA]; exact hu) (fun _ => (0, [])) 0
  rw [hA] at hs hk hm1 hm2
  exact ⟨c, reply, hproof, hs.trans hv, hk, hm1, hm2⟩

end NetatalkClient
