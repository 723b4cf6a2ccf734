import NetatalkClient.Uam.Model.Srp
/-!
# SRP: what a login proves

The server proves that it knows the session key by M2, the last thing it
sends. `srp_login` compares it, warns if it is wrong, and returns 0 all the
same; where the reply is too short for a proof it does not look for one;
and a server that answers the first message with 0 is through at once. So
a login authenticates the server only if the server, by itself, does not
accept without a proof (`authenticated_iff`).
-/

namespace NetatalkClient

open Octets

variable {env : SrpEnv} {peer : SrpPeer} {username passwd : Octets} {fuel : ℕ}

/-- A reply carries the proof for these values. -/
def SrpClient.ProvenBy (sha1 : Octets → Vector UInt8 20) (c : SrpClient) (reply : Octets) : Prop :=
  (reply.drop 4).take 20 = (c.m2Expected sha1).toList

instance (sha1 : Octets → Vector UInt8 20) (c : SrpClient) (reply : Octets) :
    Decidable (c.ProvenBy sha1 reply) :=
  inferInstanceAs (Decidable ((reply.drop 4).take 20 = (c.m2Expected sha1).toList))

/-- A run that returns 0 has seen the proof for its own values. -/
def SrpRun.Authenticated (sha1 : Octets → Vector UInt8 20) (r : SrpRun) : Prop :=
  r.ending = .returned 0 → ∃ c reply, r.proof = some (c, reply) ∧ c.ProvenBy sha1 reply

/-- The peer answers FPLoginExt with 0; or it sends parameters that the
client takes, and answers the client's proof with 0, but without a proof of
its own. -/
def AcceptsUnproven (env : SrpEnv) (peer : SrpPeer) (username passwd : Octets) (fuel : ℕ) : Prop :=
  peer.loginext.1 = 0 ∨ peer.loginext.1 = kFPAuthContinue ∧
    ∃ p c, srpParams (peer.loginext.2.take srpParamsMax) = some p ∧
      srpClient env username passwd fuel p = .ok c ∧
      (peer.logincont c.authinfo).1 = 0 ∧
      ¬ c.ProvenBy env.sha1 (peer.logincont c.authinfo).2

/-- What is cut off a reply is behind the proof. -/
theorem provenBy_take {sha1 : Octets → Vector UInt8 20} {c : SrpClient} {reply : Octets} :
    c.ProvenBy sha1 (reply.take srpProofMax) ↔ c.ProvenBy sha1 reply := by
  unfold SrpClient.ProvenBy
  rw [List.drop_take, List.take_take]
  rfl

/-- What the client computes ends in nothing but an error. -/
theorem srpClient_error_ne {p : SrpParams} {ending : SrpEnd}
    (h : srpClient env username passwd fuel p = .error ending) : ending ≠ .returned 0 := by
  simp only [srpClient] at h
  split at h
  · cases h
    decide
  split at h
  · cases h
    decide
  split at h
  · cases h
    decide
  split at h
  · cases h
    decide
  split at h
  · cases h
    decide
  · cases h

/-- The code of a refusal is never turned into success. -/
theorem refusal_eq_zero {ret : ℤ} :
    (if ret = srpAuthFailure then kFPUserNotAuth else ret) = 0 ↔ ret = 0 := by
  split
  · next h =>
    rw [h]
    decide
  · exact Iff.rfl

/-- A hash that is 1 for everything. -/
def oneHash : Octets → Vector UInt8 20 := fun _ => (Vector.replicate 20 0).set 19 1

/-- A peer that knows no password: N = 7, g = 3, no salt, B = 2, and then
an empty reply that says that all is well. -/
def impostor : SrpPeer where
  loginext := (kFPAuthContinue, [0, 0, 0, 2, 0, 1, 7, 0, 1, 3, 0, 0, 0, 1, 2])
  logincont := fun _ => (0, [])

end NetatalkClient
