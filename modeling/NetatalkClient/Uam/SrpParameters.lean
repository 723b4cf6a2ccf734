import NetatalkClient.Uam.Srp
/-!
# SRP: the parameters before their use

`srp_login` looks at the lengths of the four fields and at B mod N, and goes
on. Two things it does not look at: whether B is longer than N, where the
padding of B writes in front of its buffer; and whether g has more than one
octet, of which only the last is hashed. All else that the computation rests
on is checked (`srp_parameters_valid_iff`).
-/

namespace NetatalkClient

open Octets List

variable {env : SrpEnv} {peer : SrpPeer} {username passwd : Octets} {fuel : ℕ}
variable {rbuf : Octets} {p : SrpParams}

/-! ## What the client hashes -/

/-- `B_buf`, where there is room for B in it. -/
def SrpParams.bBuf (p : SrpParams) : Octets :=
  replicate (p.nRaw.length - p.bRaw.length) 0 ++ p.bRaw

/-- `g_padded`. -/
def SrpParams.gPadded (p : SrpParams) : Octets :=
  replicate (p.nRaw.length - 1) 0 ++ [gByte p.gRaw]

/-- Where the client comes to a proof, it has checked N and B, and its
premaster rests on the hashes of the padded B and g. -/
theorem srpClient_ok {c : SrpClient} (h : srpClient env username passwd fuel p = .ok c) :
    value p.nRaw ≠ 0 ∧ value p.bRaw % value p.nRaw ≠ 0 ∧ p.bRaw.length ≤ p.nRaw.length ∧
      ∃ a bigA, c.aBuf = mpiBuffer p.nRaw.length bigA ∧
        let x := srpX env.sha1 p.salt username passwd
        let k := value (env.sha1 (p.nRaw ++ p.gPadded)).toList
        let u := value (env.sha1 (c.aBuf ++ p.bBuf)).toList
        c.s = powm (subm (value p.bRaw) (mulm k (powm (value p.gRaw) x (value p.nRaw))
          (value p.nRaw)) (value p.nRaw)) (a + u * x) (value p.nRaw) := by
  simp only [srpClient] at h
  split at h
  · cases h
  next hn =>
  split at h
  · cases h
  next hb =>
  split at h
  · cases h
  next a bigA _ =>
  split at h
  · cases h
  next hlen =>
  split at h
  · cases h
  · cases h
    exact ⟨hn, hb, not_lt.mp hlen, a, bigA, rfl, rfl⟩

/-- Where B does not fit, N and B have been checked before. -/
theorem srpClient_overflow (h : srpClient env username passwd fuel p = .error .overflow) :
    value p.nRaw ≠ 0 ∧ value p.bRaw % value p.nRaw ≠ 0 ∧ p.nRaw.length < p.bRaw.length := by
  simp only [srpClient] at h
  split at h
  · cases h
  next hn =>
  split at h
  · cases h
  next hb =>
  split at h
  · cases h
  split at h
  · next hlen => exact ⟨hn, hb, hlen⟩
  split at h
  · cases h
  · cases h

/-! ## What it should have checked -/

/-- A string of so many octets that stands for a number. -/
def Encodes (b : Octets) (nbytes n : ℕ) : Prop := b.length = nbytes ∧ value b = n

/-- The fields of a reply, one behind the other, each behind its length. -/
def SrpParams.Inside (p : SrpParams) (rbuf : Octets) : Prop :=
  ∃ skipped rest, skipped.length = 4 ∧ rbuf = skipped ++
    (padded 2 p.nRaw.length ++ (p.nRaw ++ (padded 2 p.gRaw.length ++ (p.gRaw ++
      (padded 2 p.salt.length ++ (p.salt ++ (padded 2 p.bRaw.length ++ (p.bRaw ++ rest))))))))

/-- Parameters that a login may be continued with. -/
structure SrpParams.Valid (p : SrpParams) (rbuf : Octets) : Prop where
  inside : p.Inside rbuf
  modulus : 0 < p.nRaw.length
  b_length : p.bRaw.length ≤ p.nRaw.length
  b_multiple : ¬ value p.nRaw ∣ value p.bRaw
  b_encoded : Encodes p.bBuf p.nRaw.length (value p.bRaw)
  g_encoded : Encodes p.gPadded p.nRaw.length (value p.gRaw)

/-- The client has gone on with what it was sent: it has come to write
`B_buf`, or to send its proof. -/
def SrpRun.Continued (r : SrpRun) : Prop := r.ending = .overflow ∨ r.proof.isSome

/-- A field that was found stands there, behind its length. -/
theorem srpField_eq_some {limit : Option ℕ} {d f rest : Octets}
    (h : srpField limit d = some (f, rest)) : d = padded 2 f.length ++ (f ++ rest) := by
  unfold srpField at h
  split at h
  · cases h
  next hlen =>
  dsimp only at h
  split at h
  · cases h
  next hfit =>
  cases h
  rw [not_or, not_lt] at hfit
  rw [length_take_of_le hfit.2, padded_be16 (not_lt.mp hlen), take_append_drop, take_append_drop]

/-- **The four fields lie inside the reply.** -/
theorem srpParams_inside (h : srpParams rbuf = some p) : p.Inside rbuf := by
  unfold srpParams at h
  split at h
  · cases h
  next hlen =>
  obtain ⟨⟨nRaw, d₁⟩, hn, h⟩ := Option.bind_eq_some_iff.mp h
  obtain ⟨⟨gRaw, d₂⟩, hg, h⟩ := Option.bind_eq_some_iff.mp h
  obtain ⟨⟨salt, d₃⟩, hs, h⟩ := Option.bind_eq_some_iff.mp h
  obtain ⟨⟨bRaw, d₄⟩, hb, h⟩ := Option.bind_eq_some_iff.mp h
  cases h
  refine ⟨rbuf.take 4, d₄, length_take_of_le (by omega), ?_⟩
  dsimp only
  rw [← srpField_eq_some hb, ← srpField_eq_some hs, ← srpField_eq_some hg, ← srpField_eq_some hn,
    take_append_drop]

/-- Only the last octet of g is left. -/
theorem toNat_gByte (b : Octets) : (gByte b).toNat = value b % 256 := by
  unfold gByte
  rcases eq_nil_or_concat b with rfl | ⟨b, c, rfl⟩
  · rfl
  · have hc : c.toNat < 256 := c.toNat_lt
    rw [concat_eq_append, value_concat, foldl_append, UInt8.toNat_ofNat']
    simp only [foldl_cons, foldl_nil]
    omega

theorem encodes_bBuf_iff :
    Encodes p.bBuf p.nRaw.length (value p.bRaw) ↔ p.bRaw.length ≤ p.nRaw.length := by
  unfold Encodes SrpParams.bBuf
  rw [value_replicate_append, length_append, length_replicate]
  omega

theorem encodes_gPadded_iff (hn : 0 < p.nRaw.length) :
    Encodes p.gPadded p.nRaw.length (value p.gRaw) ↔ value p.gRaw < 256 := by
  unfold Encodes SrpParams.gPadded
  have hone : value [gByte p.gRaw] = (gByte p.gRaw).toNat := by
    rw [← nil_append [gByte p.gRaw], value_concat, value_nil, Nat.zero_mul, zero_add]
  rw [value_replicate_append, hone, toNat_gByte, length_append, length_replicate, length_singleton]
  omega

/-! ## The whole -/

/-- A run that goes on has found parameters, and has checked N and B. -/
theorem continued_checked (h : (srpLogin env peer username passwd fuel).Continued) :
    ∃ p, srpParams (peer.loginext.2.take srpParamsMax) = some p ∧
      value p.nRaw ≠ 0 ∧ value p.bRaw % value p.nRaw ≠ 0 := by
  unfold SrpRun.Continued srpLogin at h
  dsimp only at h
  by_cases hret : peer.loginext.1 = kFPAuthContinue
  · rw [if_neg (not_not_intro hret)] at h
    cases hp : srpParams (peer.loginext.2.take srpParamsMax) with
    | none =>
      rw [hp] at h
      rcases h with h | h
      · cases h
      · cases h
    | some p =>
      refine ⟨p, rfl, ?_⟩
      cases hc : srpClient env username passwd fuel p with
      | error ending =>
        rw [hp] at h
        dsimp only at h
        rw [hc] at h
        rcases h with h | h
        · rw [show ending = .overflow from h] at hc
          obtain ⟨hn, hb, -⟩ := srpClient_overflow hc
          exact ⟨hn, hb⟩
        · cases h
      | ok c =>
        obtain ⟨hn, hb, -⟩ := srpClient_ok hc
        exact ⟨hn, hb⟩
  · rw [if_pos hret] at h
    rcases h with h | h
    · cases h
    · cases h

/-- **What continues is valid** exactly if B is not longer than N and g is a
single octet. -/
theorem srp_parameters_valid_iff (env : SrpEnv) (peer : SrpPeer) (username passwd : Octets)
    (fuel : ℕ) :
    ((srpLogin env peer username passwd fuel).Continued →
      ∃ p, srpParams (peer.loginext.2.take srpParamsMax) = some p ∧
        p.Valid (peer.loginext.2.take srpParamsMax)) ↔
    ((srpLogin env peer username passwd fuel).Continued →
      ∀ p, srpParams (peer.loginext.2.take srpParamsMax) = some p →
        p.bRaw.length ≤ p.nRaw.length ∧ value p.gRaw < 256) := by
  refine imp_congr_right fun hcont => ?_
  obtain ⟨p, hp, hn, hb⟩ := continued_checked hcont
  have hpos : 0 < p.nRaw.length := by
    rw [length_pos_iff]
    intro hnil
    exact hn (by rw [hnil, value_nil])
  constructor
  · rintro ⟨p', hp', hvalid⟩ p'' hp''
    rw [hp'] at hp''
    cases hp''
    exact ⟨hvalid.b_length, (encodes_gPadded_iff hvalid.modulus).mp hvalid.g_encoded⟩
  · intro h
    obtain ⟨hlen, hg⟩ := h p hp
    exact ⟨p, hp, srpParams_inside hp, hpos, hlen, fun hdvd => hb (Nat.mod_eq_zero_of_dvd hdvd),
      encodes_bBuf_iff.mpr hlen, (encodes_gPadded_iff hpos).mpr hg⟩

/-- N = 7, g = 3, no salt, and B = 2 in two octets. -/
def longB : SrpPeer where
  loginext := (kFPAuthContinue, [0, 0, 0, 2, 0, 1, 7, 0, 1, 3, 0, 0, 0, 2, 0, 2])
  logincont := fun _ => (0, [])

/-- N = 65521, g = 259 in two octets, no salt, and B = 2. -/
def longG : SrpPeer where
  loginext := (kFPAuthContinue, [0, 0, 0, 2, 0, 2, 255, 241, 0, 2, 1, 3, 0, 0, 0, 1, 2])
  logincont := fun _ => (0, [])

/-- **A login goes on with a B that is longer than N**, and with a g of which
one octet is hashed. -/
theorem login_with_long_fields :
    ((srpLogin ⟨oneHash, fun _ _ => 5⟩ longB [97] [98] 1).Continued ∧
      ¬ ∃ p, srpParams (longB.loginext.2.take srpParamsMax) = some p ∧
        p.bRaw.length ≤ p.nRaw.length) ∧
    (srpLogin ⟨oneHash, fun _ _ => 5⟩ longG [97] [98] 1).Continued ∧
      ¬ ∃ p, srpParams (longG.loginext.2.take srpParamsMax) = some p ∧
        Encodes p.gPadded p.nRaw.length (value p.gRaw) := by
  refine ⟨⟨.inl (by decide +kernel), ?_⟩, .inr (by decide +kernel), ?_⟩
  · rintro ⟨p, hp, hlen⟩
    cases hp.symm.trans (show _ = some ⟨[7], [3], [], [0, 2]⟩ by decide)
    exact absurd hlen (by decide)
  · rintro ⟨p, hp, hg⟩
    cases hp.symm.trans (show _ = some ⟨[255, 241], [1, 3], [], [2]⟩ by decide)
    exact absurd ((encodes_gPadded_iff (by decide)).mp hg) (by decide)

end NetatalkClient
