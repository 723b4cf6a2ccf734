import NetatalkClient.Uam.Model.Dhx
import NetatalkClient.Uam.SrpAgreement
import Mathlib.Data.Nat.Prime.Defs
/-!
# DHX and DHX2: both sides come to the same

The server's side by the protocol, on numbers in strings of a fixed length.
The client prints its numbers without zeros in front and moves them to the
end of their buffers. Both come to the same key; and the server finds the
nonce, one further, and the password in what the client sends last. There
is one exception: where the nonce that a DHX2 client has drawn is all ones,
the next number does not fit its buffer, and the client takes the right
answer for a wrong one.
-/

namespace NetatalkClient

open Octets

/-! ## Buffers -/

theorem value_minimal (n : ℕ) : value (minimal n) = n := by
  have h := congrArg value (replicate_append_minimal (lt_pow_log2 n))
  rwa [value_replicate_append, value_padded (lt_pow_log2 n)] at h

variable {n k len : ℕ} {buf nonce : Octets}

/-- A number fits so many octets if its shortest string does. -/
theorem length_minimal_le_iff : (minimal n).length ≤ k ↔ n < 256 ^ k := by
  constructor
  · intro h
    have hlt := value_lt (minimal n)
    rw [value_minimal] at hlt
    exact lt_of_lt_of_le hlt (Nat.pow_le_pow_right (by omega) h)
  · intro h
    rw [minimal_eq h]
    exact le_of_le_of_eq (List.dropWhile_suffix _).length_le (length_padded k n)

/-- A number that fits is in the buffer, at its end. -/
theorem mpiPrintMoved_eq (h : n < 256 ^ buf.length) :
    mpiPrintMoved buf len n = (padded buf.length n, (minimal n).length) := by
  have hle := length_minimal_le_iff.mpr h
  have hlen : (minimal n ++ buf.drop (minimal n).length).length = buf.length := by
    rw [List.length_append, List.length_drop]
    omega
  unfold mpiPrintMoved mpiPrint
  rw [if_neg (not_lt.mpr hle)]
  dsimp only
  rw [hlen]
  split
  · rw [List.take_left, replicate_append_minimal h]
  · next hfull =>
    have hsame : (minimal n).length = buf.length := by omega
    have hrest : buf.drop (minimal n).length = [] := List.drop_eq_nil_of_le (by omega)
    rw [hrest, List.append_nil, ← replicate_append_minimal h, hsame, Nat.sub_self,
      List.replicate_zero, List.nil_append]

/-- A number that does not fit leaves a buffer of zeros as it is. -/
theorem mpiPrintMoved_zeros (h : 256 ^ k ≤ n) :
    (mpiPrintMoved (List.replicate k 0) len n).1 = List.replicate k 0 := by
  have hgt : (List.replicate k (0 : UInt8)).length < (minimal n).length := by
    rw [List.length_replicate]
    exact Nat.lt_of_not_le fun hle => absurd (length_minimal_le_iff.mp hle) (not_lt.mpr h)
  unfold mpiPrintMoved mpiPrint
  rw [if_pos hgt]
  dsimp only
  rw [List.length_replicate]
  split
  · next hlen =>
    rw [List.take_replicate, List.replicate_append_replicate, min_eq_left (by omega),
      Nat.sub_add_cancel (by omega)]
  · rfl

/-- A number that does not fit leaves a buffer as it is, if no move
follows. -/
theorem mpiPrintMoved_too_short (h : 256 ^ buf.length ≤ n)
    (hlen : buf.length ≤ len) : mpiPrintMoved buf len n = (buf, len) := by
  have hgt : buf.length < (minimal n).length :=
    Nat.lt_of_not_le fun hle => absurd (length_minimal_le_iff.mp hle) (not_lt.mpr h)
  unfold mpiPrintMoved mpiPrint
  rw [if_pos hgt]
  exact if_neg (not_lt.mpr hlen)

theorem padded_zero (k : ℕ) : padded k 0 = List.replicate k 0 := by
  refine (eq_padded List.length_replicate ?_).symm
  rw [← List.append_nil (List.replicate k 0), value_replicate_append, value_nil]

/-- A nonce, one further: it starts again at zero. -/
def incremented (nonce : Octets) : Octets := padded 16 ((value nonce + 1) % 256 ^ 16)

/-- Into a cleared buffer, a nonce one further is printed as it should be. -/
theorem mpiPrintMoved_incremented (h : nonce.length = 16) :
    (mpiPrintMoved (List.replicate 16 0) len (value nonce + 1)).1 = incremented nonce := by
  have hlt := value_lt nonce
  rw [h] at hlt
  unfold incremented
  rcases lt_or_ge (value nonce + 1) (256 ^ 16) with hfits | hover
  · rw [mpiPrintMoved_eq hfits, Nat.mod_eq_of_lt hfits]
    rfl
  · have hall : value nonce + 1 = 256 ^ 16 := by omega
    rw [mpiPrintMoved_zeros hover, hall, Nat.mod_self, padded_zero]

theorem length_incremented (nonce : Octets) : (incremented nonce).length = 16 := length_padded _ _

/-- A password that fits is followed by zeros. -/
theorem passwordField_eq {size : ℕ} {passwd : Octets} (h : passwd.length < size) :
    passwordField size passwd = passwd ++ List.replicate (size - passwd.length) 0 := by
  unfold passwordField window
  rw [List.take_of_length_le (by omega : passwd.length ≤ size - 1),
    List.take_of_length_le (le_of_lt h)]

/-- The key agreement itself. -/
theorem powm_agrees (g a b p : ℕ) : powm (powm g b p) a p = powm (powm g a p) b p := by
  simp only [powm]
  rw [← Nat.pow_mod, ← Nat.pow_mod, ← pow_mul, ← pow_mul, mul_comm]

/-- The end of the Pascal string at a position. -/
def pascalEnd (msg : Octets) (pos : ℕ) : ℕ := pos + 1 + msg.byte pos

/-- A string in a message ends where the next one starts. -/
theorem pascalEnd_append (a s rest : Octets) :
    pascalEnd (a ++ (copyToPascal s ++ rest)) a.length = (a ++ copyToPascal s).length := by
  have hbyte : (a ++ (copyToPascal s ++ rest)).byte a.length = (s.take 255).length := by
    rw [← add_zero a.length, byte_append_right]
    change (UInt8.ofNat (s.take 255).length).toNat = (s.take 255).length
    rw [UInt8.toNat_ofNat', Nat.mod_eq_of_lt]
    rw [List.length_take]
    omega
  rw [pascalEnd, hbyte, List.length_append, copyToPascal, List.length_cons]
  omega

/-- Three strings behind the first octet of a message. -/
theorem pascalEnd_three (c : UInt8) (s₁ s₂ s₃ rest : Octets) :
    let msg := c :: (copyToPascal s₁ ++ (copyToPascal s₂ ++ (copyToPascal s₃ ++ rest)))
    pascalEnd msg (pascalEnd msg (pascalEnd msg 1)) =
      1 + (copyToPascal s₁).length + (copyToPascal s₂).length + (copyToPascal s₃).length := by
  intro msg
  have hat : ∀ {a s rest : Octets}, msg = a ++ (copyToPascal s ++ rest) →
      pascalEnd msg a.length = (a ++ copyToPascal s).length := fun hmsg => by
    rw [hmsg]
    exact pascalEnd_append _ _ _
  have h₁ : pascalEnd msg 1 = ([c] ++ copyToPascal s₁).length := hat (a := [c]) rfl
  have h₂ := hat (a := [c] ++ copyToPascal s₁) (by rw [List.append_assoc]; rfl)
  have h₃ := hat (a := [c] ++ copyToPascal s₁ ++ copyToPascal s₂)
    (by rw [List.append_assoc, List.append_assoc]; rfl)
  rw [h₁, h₂, h₃]
  simp only [List.length_append, List.length_singleton]

theorem length_copyToPascal {s : Octets} (h : s.length ≤ 255) :
    (copyToPascal s).length = 1 + s.length := by
  rw [copyToPascal, List.length_cons, List.take_of_length_le h, add_comm]

theorem nameInLogin_eq (version : AfpVersion) (uaName : Octets) (username : AccountName) :
    nameInLogin version uaName username = copyToPascal username.octets ++
      List.replicate ((1 + 1 + version.avName.length + 1 + uaName.length +
        (copyToPascal username.octets).length) % 2) 0 := by
  unfold nameInLogin
  dsimp only
  split
  · next hodd =>
    rw [hodd]
    rfl
  · next heven =>
    rw [Nat.mod_two_ne_one.mp heven, List.replicate_zero, List.append_nil]

/-! ## The servers -/

/-- The client's public number in a FPLogin of DHX: behind the version, the
method and the user's name, at an even offset. -/
def maInLogin (msg : Octets) : Octets :=
  let pos := pascalEnd msg (pascalEnd msg (pascalEnd msg 1))
  (msg.drop (pos + pos % 2)).take 16

/-- A server for DHX, with its secret exponent, its nonce and the ID that it
gives a login. -/
structure DhxServer where
  rb : ℕ
  nonce : Vector UInt8 16
  id : Fin 65536

namespace DhxServer

variable (server : DhxServer) (cipher : Cipher) (login : Octets)

def mb : Octets := padded 16 (powm (value gBinary) server.rb (value pBinary))

theorem length_mb : server.mb.length = 16 := length_padded _ _

/-- The session key, from the client's FPLogin. -/
def key : Octets := padded 16 (powm (value (maInLogin login)) server.rb (value pBinary))

/-- The reply to FPLogin. -/
def reply : Octets :=
  padded 2 server.id ++ (server.mb ++
    cipher.encrypt (server.key login) dhxS2civ (server.nonce.toList ++ List.replicate 16 0))

/-- What the server finds in the client's FPLoginCont: a nonce, and a
password with zeros behind it. -/
def recovered (logincont : Octets) : Octets × Octets :=
  let plain := cipher.decrypt (server.key login) dhxC2siv (logincont.drop 4)
  (plain.take 16, plain.drop 16)

end DhxServer

/-- A server for DHX2, with its modulus, generator, secret exponent, nonce,
and the IDs that it gives a login. -/
structure Dhx2Server where
  p : Octets
  prime : (value p).Prime
  length_le : p.length ≤ 256
  g : Vector UInt8 4
  rb : ℕ
  nonce : Vector UInt8 16
  id : Fin 65536
  nextId : Fin 65536

namespace Dhx2Server

variable (server : Dhx2Server) (md5 : Octets → Vector UInt8 16) (cipher : Cipher)
variable (first : Octets)

def mb : Octets :=
  padded server.p.length (powm (value server.g.toList) server.rb (value server.p))

/-- The reply to FPLogin. -/
def params : Octets :=
  padded 2 server.id ++ (server.g.toList ++ (padded 2 server.p.length ++ (server.p ++ server.mb)))

/-- The session key, from the client's first FPLoginCont. -/
def key : Octets :=
  (md5 (padded server.p.length
    (powm (value ((first.drop 4).take server.p.length)) server.rb (value server.p)))).toList

/-- The client's nonce, from its first FPLoginCont. -/
def clientNonce : Octets :=
  cipher.decrypt (server.key md5 first) dhxC2siv (first.drop (4 + server.p.length))

/-- The reply to the first FPLoginCont. -/
def reply : Octets :=
  padded 2 server.nextId ++ cipher.encrypt (server.key md5 first) dhxS2civ
    (incremented (server.clientNonce md5 cipher first) ++ server.nonce.toList)

/-- What the server finds in the client's second FPLoginCont. -/
def recovered (second : Octets) : Octets × Octets :=
  let plain := cipher.decrypt (server.key md5 first) dhxC2siv (second.drop 4)
  (plain.take 16, plain.drop 16)

end Dhx2Server

/-! ## DHX -/

section Dhx

variable (cipher : Cipher) (server : DhxServer) (version : AfpVersion) (username : AccountName)
variable (ra : DhxSecret)

/-- The client's numbers are below the modulus, so they fit 16 octets. -/
theorem powm_pBinary_lt (b e : ℕ) : powm b e (value pBinary) < 256 ^ 16 :=
  (Nat.mod_lt _ (by decide)).trans (by decide)

/-- The client's public number stands where the server looks for it. -/
theorem maInLogin_dhxLogin : maInLogin (dhxLogin version username ra) = ra.ma := by
  obtain ⟨pad, hpad, hmsg⟩ : ∃ pad, pad = (1 + 1 + version.avName.length + 1 + dhxName.length +
      (copyToPascal username.octets).length) % 2 ∧ dhxLogin version username ra =
        18 :: (copyToPascal version.avName ++ (copyToPascal dhxName ++
          (copyToPascal username.octets ++ (List.replicate pad 0 ++ ra.ma)))) := by
    refine ⟨_, rfl, ?_⟩
    rw [dhxLogin, afpLogin, nameInLogin_eq, List.append_assoc]
    rfl
  -- what stands before it, with the padding
  have hfront : dhxLogin version username ra = ([18] ++ copyToPascal version.avName ++
      copyToPascal dhxName ++ copyToPascal username.octets ++ List.replicate pad 0) ++ ra.ma := by
    rw [hmsg]
    simp only [List.append_assoc, List.cons_append, List.nil_append]
  have hname : (copyToPascal dhxName).length = 1 + dhxName.length := length_copyToPascal (by decide)
  have hma : ra.ma.length = 16 := by
    rw [DhxSecret.ma, mpiBuffer_eq (powm_pBinary_lt _ _), length_padded]
  have hpos := pascalEnd_three 18 version.avName dhxName username.octets
    (List.replicate pad 0 ++ ra.ma)
  dsimp only at hpos
  rw [← hmsg, length_copyToPascal version.length_le, hname] at hpos
  unfold maInLogin
  dsimp only
  rw [hpos, hfront, List.drop_left', List.take_of_length_le (le_of_eq hma)]
  simp only [List.length_append, List.length_singleton, List.length_replicate, hname,
    length_copyToPascal version.length_le]
  omega

theorem dhx_keys_agree : ra.key server.mb = server.key (dhxLogin version username ra) := by
  unfold DhxServer.key
  rw [maInLogin_dhxLogin, DhxSecret.ma, mpiBuffer_eq (powm_pBinary_lt _ _),
    value_padded (powm_pBinary_lt _ _), DhxSecret.key, DhxServer.mb,
    value_padded (powm_pBinary_lt _ _), mpiBuffer_eq (powm_pBinary_lt _ _), powm_agrees]

/-- **A login with DHX agrees with the server.** -/
theorem dhx_agrees {passwd : Octets} (hpasswd : passwd.length ≤ 63) :
    ra.key server.mb = server.key (dhxLogin version username ra) ∧
      server.recovered cipher (dhxLogin version username ra)
          (dhxLogincont cipher ra passwd (server.reply cipher (dhxLogin version username ra))) =
        (incremented server.nonce.toList, passwd ++ List.replicate (64 - passwd.length) 0) := by
  have hkeys := dhx_keys_agree server version username ra
  refine ⟨hkeys, ?_⟩
  generalize dhxLogin version username ra = login at hkeys ⊢
  have hreply : (server.reply cipher login).length = 50 := by
    simp only [DhxServer.reply, DhxServer.mb, List.length_append, length_padded,
      cipher.length_encrypt, Vector.length_toList, List.length_replicate]
  have hmb : ((server.reply cipher login).drop 2).take 16 = server.mb := by
    rw [DhxServer.reply, List.drop_left' (length_padded _ _), List.take_left' server.length_mb]
  have hcipher : (server.reply cipher login).drop 18 = cipher.encrypt (server.key login) dhxS2civ
      (server.nonce.toList ++ List.replicate 16 0) := by
    rw [DhxServer.reply, ← List.append_assoc, List.drop_left']
    rw [List.length_append, length_padded, server.length_mb]
  unfold dhxLogincont
  dsimp only
  rw [← hreply, window_length, hmb, hcipher, hkeys, cipher.decrypt_encrypt,
    List.take_left' Vector.length_toList, mpiPrintMoved_incremented Vector.length_toList]
  unfold DhxServer.recovered afpLogincont
  dsimp only
  rw [← List.append_assoc, List.drop_left' (by simp), cipher.decrypt_encrypt,
    List.take_left' (length_incremented _), List.drop_left' (length_incremented _),
    passwordField_eq (Nat.lt_succ_of_le hpasswd)]

end Dhx

/-! ## DHX2 -/

section Dhx2

variable (md5 : Octets → Vector UInt8 16) (cipher : Cipher) (server : Dhx2Server)
variable (secret : Dhx2Secret)

/-- What a client takes from the server's parameters. -/
def Dhx2Server.taken : Dhx2Params where
  id := server.id
  g := value server.g.toList
  bignumLen := server.p.length
  p := value server.p
  mb := powm (value server.g.toList) server.rb (value server.p)

/-- Numbers below the modulus fit as many octets as it has. -/
theorem Dhx2Server.powm_lt (b e : ℕ) : powm b e (value server.p) < 256 ^ server.p.length :=
  (Nat.mod_lt _ server.prime.pos).trans (value_lt _)

/-- The client takes the server's parameters as they were sent. -/
theorem dhx2Params_params : dhx2Params server.params = some server.taken := by
  have hle := server.length_le
  have hmb : server.mb.length = server.p.length := length_padded _ _
  obtain ⟨rest, hrest⟩ : ∃ rest, server.params.window 520 = padded 2 server.id ++
      (server.g.toList ++ (padded 2 server.p.length ++ (server.p ++ (server.mb ++ rest)))) := by
    have hlen : server.params.length ≤ 520 := by
      simp only [Dhx2Server.params, List.length_append, length_padded, Vector.length_toList, hmb]
      omega
    refine ⟨List.replicate (520 - server.params.length) 0, ?_⟩
    rw [window, List.take_of_length_le hlen]
    simp only [Dhx2Server.params, List.append_assoc]
  have hid : (server.params.window 520).be16 0 = server.id := by
    rw [hrest, be16_padded_append _ server.id.isLt]
  have hlen : (server.params.window 520).be16 6 = server.p.length := by
    rw [hrest, ← List.append_assoc]
    refine be16_append_padded _ _ (by omega) ?_
    rw [List.length_append, length_padded, Vector.length_toList]
  have hg : ((server.params.window 520).drop 2).take 4 = server.g.toList := by
    rw [hrest, List.drop_left' (length_padded _ _), List.take_left' Vector.length_toList]
  have hp : ((server.params.window 520).drop 8).take server.p.length = server.p := by
    rw [hrest, ← List.append_assoc, ← List.append_assoc, List.drop_left', List.take_left]
    simp only [List.length_append, length_padded, Vector.length_toList]
  have hmb' : ((server.params.window 520).drop (8 + server.p.length)).take server.p.length =
      server.mb := by
    rw [hrest, ← List.append_assoc, ← List.append_assoc, ← List.append_assoc, List.drop_left',
      List.take_left' hmb]
    simp only [List.length_append, length_padded, Vector.length_toList]
  unfold dhx2Params
  dsimp only
  rw [hid, hlen, hg, hp, hmb', if_neg (not_lt.mpr hle), Dhx2Server.mb,
    value_padded (server.powm_lt _ _)]
  rfl

/-- The client's first FPLoginCont: the public number and the nonce. -/
theorem first_eq : secret.first md5 cipher server.taken =
    ([19, 0] ++ padded 2 server.id) ++ (padded server.p.length (powm (value server.g.toList)
      (secret.exponent server.taken) (value server.p)) ++
        cipher.encrypt (secret.key md5 server.taken) dhxC2siv secret.nonce.toList) := by
  have hbuf := mpiBuffer_eq (server.powm_lt (value server.g.toList) (secret.exponent server.taken))
  rw [List.append_assoc]
  exact congrArg (fun ma => [19, 0] ++ (padded 2 server.id ++ (ma ++ _))) hbuf

/-- Both sides come to the same key. -/
theorem dhx2_keys_agree :
    secret.key md5 server.taken = server.key md5 (secret.first md5 cipher server.taken) := by
  have hma : value (((secret.first md5 cipher server.taken).drop 4).take server.p.length) =
      powm (value server.g.toList) (secret.exponent server.taken) (value server.p) := by
    rw [first_eq, List.drop_left' (by simp), List.take_left' (length_padded _ _),
      value_padded (server.powm_lt _ _)]
  unfold Dhx2Server.key
  rw [hma, powm_agrees, ← mpiBuffer_eq (server.powm_lt _ _)]
  rfl

/-- The server finds the client's nonce. -/
theorem clientNonce_first :
    server.clientNonce md5 cipher (secret.first md5 cipher server.taken) =
      secret.nonce.toList := by
  have hdrop : (secret.first md5 cipher server.taken).drop (4 + server.p.length) =
      cipher.encrypt (secret.key md5 server.taken) dhxC2siv secret.nonce.toList := by
    rw [first_eq, ← List.append_assoc, List.drop_left']
    simp only [List.length_append, length_padded, List.length_cons, List.length_nil]
  unfold Dhx2Server.clientNonce
  rw [hdrop, ← dhx2_keys_agree, cipher.decrypt_encrypt]

/-- What the client decrypts of the server's reply. -/
theorem reply_decrypted :
    let reply := server.reply md5 cipher (secret.first md5 cipher server.taken)
    reply.window 34 = reply ∧ cipher.decrypt (secret.key md5 server.taken) dhxS2civ (reply.drop 2) =
      incremented secret.nonce.toList ++ server.nonce.toList := by
  intro reply
  have hlen : reply.length = 34 := by
    simp only [reply, Dhx2Server.reply, List.length_append, length_padded, cipher.length_encrypt,
      length_incremented, Vector.length_toList]
  refine ⟨by rw [← hlen, window_length], ?_⟩
  simp only [reply, Dhx2Server.reply]
  rw [List.drop_left' (length_padded _ _), ← dhx2_keys_agree, cipher.decrypt_encrypt,
    clientNonce_first]

/-- **A login with DHX2 comes to its end** exactly if the client's nonce has a
successor in 16 octets; and then the server finds what it should. -/
theorem dhx2_agrees_iff {passwd : Octets} (hpasswd : passwd.length ≤ 255) :
    (∃ second, secret.second md5 cipher server.taken passwd
        (server.reply md5 cipher (secret.first md5 cipher server.taken)) = some second ∧
      server.recovered md5 cipher (secret.first md5 cipher server.taken) second =
        (incremented server.nonce.toList,
          passwd ++ List.replicate (256 - passwd.length) 0)) ↔
      value secret.nonce.toList + 1 < 256 ^ 16 := by
  have hnonce : secret.nonce.toList.length = 16 := Vector.length_toList
  obtain ⟨hwindow, hplain⟩ := reply_decrypted md5 cipher server secret
  unfold Dhx2Secret.second
  dsimp only
  rw [hwindow, hplain, List.take_left' (length_incremented _),
    List.drop_left' (length_incremented _),
    List.take_of_length_le (le_of_eq Vector.length_toList),
    mpiPrintMoved_incremented Vector.length_toList]
  constructor
  · -- where it has none, the nonce stays as it is, and the server's answer is another
    rintro ⟨second, hsecond, -⟩
    by_contra hover
    rw [mpiPrintMoved_too_short (by rw [hnonce]; omega) (by rw [hnonce]; omega)] at hsecond
    have hlt := value_lt secret.nonce.toList
    rw [hnonce] at hlt
    have hlast : value secret.nonce.toList + 1 = 256 ^ 16 := by omega
    have hne : secret.nonce.toList ≠ incremented secret.nonce.toList := by
      intro heq
      have hzero := congrArg value heq
      rw [incremented, hlast, Nat.mod_self, value_padded (by decide)] at hzero
      omega
    rw [if_pos hne] at hsecond
    cases hsecond
  · intro hfits
    have hprint : (mpiPrintMoved secret.nonce.toList 32 (value secret.nonce.toList + 1)).1 =
        incremented secret.nonce.toList := by
      rw [mpiPrintMoved_eq (by rw [hnonce]; exact hfits), hnonce, incremented,
        Nat.mod_eq_of_lt hfits]
    rw [hprint, if_neg (not_not_intro rfl)]
    refine ⟨_, rfl, ?_⟩
    unfold Dhx2Server.recovered afpLogincont
    dsimp only
    rw [← List.append_assoc, List.drop_left' (by simp), ← dhx2_keys_agree, cipher.decrypt_encrypt,
      List.take_left' (length_incremented _), List.drop_left' (length_incremented _),
      passwordField_eq (Nat.lt_succ_of_le hpasswd)]

end Dhx2

/-! ## The whole -/

/-- Of 16 octets, only ones have no successor. -/
theorem value_succ_lt_iff (h : nonce.length = 16) :
    value nonce + 1 < 256 ^ 16 ↔ nonce ≠ List.replicate 16 255 := by
  have hones : value (List.replicate 16 255) + 1 = 256 ^ 16 := by decide
  constructor
  · rintro hlt rfl
    omega
  · intro hne
    have hlt := value_lt nonce
    rw [h] at hlt
    by_contra hover
    refine hne ?_
    have hsame : value nonce = value (List.replicate 16 255) := by omega
    rw [← padded_value nonce, h, hsame]
    decide

/-- No cipher at all. -/
def plainCipher : Cipher where
  encrypt _ _ data := data
  decrypt _ _ data := data
  decrypt_encrypt _ _ _ := rfl
  encrypt_decrypt _ _ _ := rfl
  length_encrypt _ _ _ := rfl

/-- A server with the modulus 7 and the generator 3. -/
def sevenServer : Dhx2Server where
  p := [7]
  prime := Nat.prime_seven
  length_le := by decide
  g := ⟨#[0, 0, 0, 3], rfl⟩
  rb := 5
  nonce := Vector.replicate 16 255
  id := 1
  nextId := 2

end NetatalkClient
