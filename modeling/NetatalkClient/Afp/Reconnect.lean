import NetatalkClient.Afp.Model.Reconnect
/-!
# Who gets the saved credentials

Before it logs in again, `afp_server_reconnect` asks for the server's
signature, so that a changed endpoint does not get the credentials. But the
question and the login go over two connections, and each takes the first
address that accepts it. `credentialsSafe_iff` says that the endpoint asked
is the one that gets the credentials exactly if the two walks end at the
same endpoint, or no credentials are sent at all; the rest of the property,
what a failed attempt leaves behind, always holds.
-/

namespace NetatalkClient

variable {E : Type} {net : Network E} {s : Session E} {e : E} {wire : List (Wire E)}
variable {address : List E} {e' : E}

/-- Login data goes only to an endpoint that has answered the probe with
the saved signature; and an attempt that was begun and failed leaves the
server disconnected, and not marked as reconnecting. -/
def CredentialsSafe (s : Session E) (r : Outcome E) : Prop :=
  (∀ e, .login e ∈ r.wire →
    .status e (some s.signature) ∈ r.wire ∧ hasValidSignature s.signature = true) ∧
  (s.reconnectInProgress = false → r.ret ≠ 0 →
    r.session.connectState = .disconnected ∧ r.session.reconnectInProgress = false)

/-- The login sends something to this endpoint. -/
def SendsLogin (net : Network E) (e : E) : Prop := ∃ login, net.login = some login ∧ 0 < (login e).1

/-- The endpoint the session would be resumed with, credentials and all,
is the one that the probe comes to. -/
def SameEndpoint (net : Network E) (s : Session E) : Prop :=
  ∀ e e', s.reconnectInProgress = false → hasValidSignature s.signature = true →
    firstAccepting net.probeAccepts 0 s.address = some e →
    net.status e = some s.signature →
    firstAccepting net.sessionAccepts 0 s.address = some e' →
    net.opensession e' = 0 → SendsLogin net e' → e' = e

/-! ## The probe -/

theorem firstAccepting_ne_nil {accepts : ℕ → Bool} {i : ℕ}
    (h : firstAccepting accepts i address = some e) : address.isEmpty = false := by
  cases address with
  | nil => cases h
  | cons a address => rfl

/-- The probe goes to the first address that accepts it. -/
theorem probe_of_accepting (h : firstAccepting net.probeAccepts 0 address = some e) :
    afpServerProbeSignature net address =
      ((net.status e).filter hasValidSignature, [.status e (net.status e)]) := by
  have haddress : firstAccepting net.probeAccepts 0 (Session.init address).address = some e := h
  unfold afpServerProbeSignature
  simp only [firstAccepting_ne_nil h, afpServerConnectFull, afpServerConnect, haddress]
  cases hstatus : net.status e with
  | none => simp [eio]
  | some signature =>
    cases hvalid : hasValidSignature signature with
    | true => simp [Option.filter, hvalid]
    | false => simp [Option.filter, hvalid]

/-- Where no address accepts it, there is no signature and nothing sent. -/
theorem probe_of_none (h : firstAccepting net.probeAccepts 0 address = none) :
    afpServerProbeSignature net address = (none, []) := by
  have hzero : hasValidSignature (Vector.replicate 16 0) = false := by
    simp [hasValidSignature]
  unfold afpServerProbeSignature
  simp only [afpServerConnectFull, afpServerConnect, Session.init, h, hzero]
  split <;> simp

/-! ## The session -/

/-- What is sent on the connection the session is resumed on. -/
def resumedWire (net : Network E) (e : E) : List (Wire E) :=
  .opensession e ::
    if net.opensession e = 0 then
      List.replicate ((net.login.map fun f => (f e).1).getD 0) (.login e)
    else []

/-- Whatever its result, the login sends its messages to the endpoint
the socket leads to. -/
theorem wire_afpServerLogin (hfd : s.fd = some e) :
    (afpServerLogin net s).wire =
      List.replicate ((net.login.map fun f => (f e).1).getD 0) (.login e) := by
  have hwire : (afpServerLogin net s).wire = (afpDologin net s).2 := by
    unfold afpServerLogin
    dsimp only
    split_ifs <;> rfl
  rw [hwire, afpDologin, hfd]
  cases net.login with
  | none => rfl
  | some login => rfl

theorem wire_resumeSession :
    (resumeSession net s wire).wire =
      wire ++ ((firstAccepting net.sessionAccepts 0 s.address).map (resumedWire net)).getD [] := by
  unfold resumeSession afpServerConnect
  cases haccept : firstAccepting net.sessionAccepts 0 s.address with
  | none =>
    -- even with `errno` 0 there is no connection to open a session on
    simp only [haccept, afpcDsiOpensession]
    split
    · simp [reconnectError]
    · simp [reconnectError, eio]
  | some e =>
    simp only [haccept, afpcDsiOpensession]
    by_cases hopen : net.opensession e = 0
    · -- the result of the login and the volumes decide on the state only
      simp only [hopen, resumedWire, reconnectError, ne_eq, not_true_eq_false, if_false, if_true,
        Option.map_some, Option.getD_some]
      split_ifs <;> simp [wire_afpServerLogin]
    · simp [hopen, resumedWire, reconnectError]

theorem mem_resumedWire :
    .login e' ∈ resumedWire net e ↔ e' = e ∧ net.opensession e = 0 ∧ SendsLogin net e := by
  unfold resumedWire SendsLogin
  by_cases hopen : net.opensession e = 0
  · cases hlogin : net.login with
    | none => simp [hopen]
    | some login => simp [hopen, List.mem_replicate, Nat.pos_iff_ne_zero, and_comm]
  · simp [hopen]

theorem status_not_mem_resumedWire {answer : Option Signature} :
    .status e' answer ∉ resumedWire net e := by
  unfold resumedWire
  split_ifs <;> simp

/-! ## A failed attempt -/

theorem connectState_loopDisconnect : s.loopDisconnect.connectState = .disconnected := by
  unfold Session.loopDisconnect
  split
  · next h => exact h
  · rfl

/-- However far it comes, an attempt succeeds or ends at `error`. -/
theorem resumeSession_ends :
    (resumeSession net s wire).ret = 0 ∨
      ∃ s' wire', resumeSession net s wire = reconnectError s' wire' := by
  unfold resumeSession
  dsimp only
  split_ifs
  · exact .inr ⟨_, _, rfl⟩
  · exact .inr ⟨_, _, rfl⟩
  · exact .inr ⟨_, _, rfl⟩
  · exact .inr ⟨_, _, rfl⟩
  · exact .inl rfl

/-- The same from the start, once the attempt is begun. -/
theorem afpServerReconnect_ends (hbegun : s.reconnectInProgress = false) :
    (afpServerReconnect net s).ret = 0 ∨
      ∃ s' wire', afpServerReconnect net s = reconnectError s' wire' := by
  unfold afpServerReconnect
  rw [if_neg (by simp [hbegun])]
  dsimp only
  split
  · exact .inr ⟨_, _, rfl⟩
  · split
    · exact .inr ⟨_, _, rfl⟩
    · split
      · exact .inr ⟨_, _, rfl⟩
      · exact resumeSession_ends

/-! ## The wire -/

variable (net) in
/-- Everything that is sent: the question to the endpoint the probe comes
to, and, if it is answered with the saved signature, what is sent to the
endpoint the session is resumed with. -/
theorem wire_afpServerReconnect (hbegun : s.reconnectInProgress = false)
    (hvalid : hasValidSignature s.signature = true) :
    (afpServerReconnect net s).wire =
      match firstAccepting net.probeAccepts 0 s.address with
      | none => []
      | some e =>
          .status e (net.status e) ::
            if net.status e = some s.signature then
              ((firstAccepting net.sessionAccepts 0 s.address).map (resumedWire net)).getD []
            else [] := by
  unfold afpServerReconnect
  simp only [hbegun, hvalid, Bool.false_eq_true, Bool.not_true, if_false]
  cases hprobe : firstAccepting net.probeAccepts 0 s.address with
  | none =>
    rw [probe_of_none hprobe]
    rfl
  | some e =>
    rw [probe_of_accepting hprobe]
    cases hstatus : net.status e with
    | none => simp [Option.filter, hstatus, reconnectError]
    | some signature =>
      by_cases hsame : signature = s.signature
      · subst hsame
        simp [Option.filter, hstatus, hvalid, wire_resumeSession]
      · cases hpeer : hasValidSignature signature with
        | true => simp [Option.filter, hstatus, hpeer, hsame, reconnectError]
        | false => simp [Option.filter, hstatus, hpeer, hsame, reconnectError]

/-- Nothing is sent by an attempt that is not begun, or that has no valid
signature to compare with. -/
theorem wire_of_not_valid
    (h : ¬ (s.reconnectInProgress = false ∧ hasValidSignature s.signature = true)) :
    (afpServerReconnect net s).wire = [] := by
  unfold afpServerReconnect
  cases hmark : s.reconnectInProgress with
  | true => simp
  | false =>
    have hinvalid : hasValidSignature s.signature = false := by simpa [hmark] using h
    simp [hinvalid, reconnectError]

/-- Who gets a login: the endpoint the session comes to, after another, or
the same, has answered the probe with the saved signature. -/
theorem login_mem_iff :
    .login e' ∈ (afpServerReconnect net s).wire ↔
      s.reconnectInProgress = false ∧ hasValidSignature s.signature = true ∧
        ∃ e, firstAccepting net.probeAccepts 0 s.address = some e ∧
          net.status e = some s.signature ∧
          firstAccepting net.sessionAccepts 0 s.address = some e' ∧
          net.opensession e' = 0 ∧ SendsLogin net e' := by
  by_cases hstart : s.reconnectInProgress = false ∧ hasValidSignature s.signature = true
  · obtain ⟨hbegun, hvalid⟩ := hstart
    rw [wire_afpServerReconnect net hbegun hvalid]
    cases hprobe : firstAccepting net.probeAccepts 0 s.address with
    | none => simp
    | some e =>
      by_cases hstatus : net.status e = some s.signature
      · cases hsession : firstAccepting net.sessionAccepts 0 s.address with
        | none => simp [hstatus]
        | some e₁ =>
          simp only [hstatus, if_true, Option.map_some, Option.getD_some, List.mem_cons,
            reduceCtorEq, false_or, mem_resumedWire, Option.some.injEq]
          constructor
          · rintro ⟨rfl, hopen, hsends⟩
            exact ⟨hbegun, hvalid, e, rfl, hstatus, rfl, hopen, hsends⟩
          · rintro ⟨-, -, _, -, -, rfl, hopen, hsends⟩
            exact ⟨rfl, hopen, hsends⟩
      · simp [hstatus]
  · rw [wire_of_not_valid hstart]
    refine iff_of_false List.not_mem_nil ?_
    rintro ⟨hbegun, hvalid, -⟩
    exact hstart ⟨hbegun, hvalid⟩

/-- Who is asked: the endpoint the probe comes to, and nobody else. -/
theorem status_mem_iff {answer : Option Signature} :
    .status e' answer ∈ (afpServerReconnect net s).wire ↔
      s.reconnectInProgress = false ∧ hasValidSignature s.signature = true ∧
        firstAccepting net.probeAccepts 0 s.address = some e' ∧ answer = net.status e' := by
  by_cases hstart : s.reconnectInProgress = false ∧ hasValidSignature s.signature = true
  · obtain ⟨hbegun, hvalid⟩ := hstart
    rw [wire_afpServerReconnect net hbegun hvalid]
    cases hprobe : firstAccepting net.probeAccepts 0 s.address with
    | none => simp
    | some e =>
      -- what follows the question has no other question in it
      have hrest : .status e' answer ∉
          (if net.status e = some s.signature then
            ((firstAccepting net.sessionAccepts 0 s.address).map (resumedWire net)).getD []
          else []) := by
        split
        · cases firstAccepting net.sessionAccepts 0 s.address with
          | none => exact List.not_mem_nil
          | some e₁ => exact status_not_mem_resumedWire
        · exact List.not_mem_nil
      simp only [List.mem_cons, hrest, or_false, Wire.status.injEq, Option.some.injEq]
      constructor
      · rintro ⟨rfl, hanswer⟩
        exact ⟨hbegun, hvalid, rfl, hanswer⟩
      · rintro ⟨-, -, rfl, hanswer⟩
        exact ⟨rfl, hanswer⟩
  · rw [wire_of_not_valid hstart]
    refine iff_of_false List.not_mem_nil ?_
    rintro ⟨hbegun, hvalid, -⟩
    exact hstart ⟨hbegun, hvalid⟩

/-- **The endpoint that gets the credentials.** For every address list,
every pattern of successes and failures and every assignment of
signatures: an attempt to reconnect is safe if and only if the endpoint it
would log in to is the one it has asked for its signature. -/
theorem credentialsSafe_iff (net : Network E) (s : Session E) :
    CredentialsSafe s (afpServerReconnect net s) ↔ SameEndpoint net s := by
  constructor
  · rintro ⟨hlogin, -⟩ e e' hbegun hvalid hprobe hstatus hsession hopen hsends
    have hsent : .login e' ∈ (afpServerReconnect net s).wire :=
      login_mem_iff.mpr ⟨hbegun, hvalid, e, hprobe, hstatus, hsession, hopen, hsends⟩
    obtain ⟨-, -, hasked, -⟩ := status_mem_iff.mp (hlogin e' hsent).1
    rw [hprobe] at hasked
    exact (Option.some.inj hasked).symm
  · intro hsame
    refine ⟨fun e' hlogin => ?_, fun hbegun hret => ?_⟩
    · obtain ⟨hbegun, hvalid, e, hprobe, hstatus, hsession, hopen, hsends⟩ :=
        login_mem_iff.mp hlogin
      obtain rfl := hsame e e' hbegun hvalid hprobe hstatus hsession hopen hsends
      exact ⟨status_mem_iff.mpr ⟨hbegun, hvalid, hprobe, hstatus.symm⟩, hvalid⟩
    · obtain ⟨s', wire', hfailed⟩ := (afpServerReconnect_ends hbegun).resolve_left hret
      rw [hfailed]
      exact ⟨connectState_loopDisconnect, rfl⟩

/-- The signature of the server that the session was with. -/
def savedSignature : Signature := Vector.replicate 16 7

/-- A lost session with a server that has two addresses. -/
def lostSession : Session Bool :=
  { Session.init [true, false] with signature := savedSignature, needResume := true }

/-- The first address accepts the probe and then no more, the second
accepts the connection for the session; every endpoint answers. -/
def secondAddress : Network Bool where
  probeAccepts := fun i => i = 0
  sessionAccepts := fun i => i = 1
  errno := 111
  status := fun e => if e then some savedSignature else some (Vector.replicate 16 9)
  opensession := fun _ => 0
  login := some fun _ => (1, 0)
  token := fun _ => 0
  connectVolume := fun _ => 0

/-- **Credentials for an endpoint nobody asked.** The first address is
asked and has the saved signature; the second, with another, gets the
login. -/
theorem login_to_second_address :
    (afpServerReconnect secondAddress lostSession).ret = 0 ∧
      (afpServerReconnect secondAddress lostSession).wire =
        [.status true (some savedSignature), .opensession false, .login false] ∧
      ¬ CredentialsSafe lostSession (afpServerReconnect secondAddress lostSession) := by
  have hwire : (afpServerReconnect secondAddress lostSession).wire =
      [.status true (some savedSignature), .opensession false, .login false] := by decide
  refine ⟨by decide, hwire, fun hsafe => ?_⟩
  have hasked := (hsafe.1 false (by rw [hwire]; decide)).1
  rw [hwire] at hasked
  revert hasked
  decide

end NetatalkClient
