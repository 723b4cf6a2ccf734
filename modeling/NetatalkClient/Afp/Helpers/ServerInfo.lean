import NetatalkClient.Afp.Helpers.Names
import Mathlib.Data.Nat.Bitwise
/-!
# AFP: what a server's replies depend on

The parts of the two replies one by one: the versions and the methods of
authentication, each looked up in its table, the signature, the UTF-8 name
and the volumes. Each part is settled by the reply exactly where the octets
it reads are inside, offsets and lengths included.
-/

namespace NetatalkClient

open Octets List

variable {n : ℕ} {b b' : Octets}

/-! ## Versions -/

/-- The versions the client knows. -/
def knownVersions : KnownNames where
  fold := id
  names := afpVersions
  fold_one := rfl
  nodup := by decide
  folded := fun v _ => map_id v.1
  no_nul := by decide
  no_one := by decide
  ne_nil := by decide
  short := by decide

/-- One more version at the end of the array. -/
def appendVersion (versions : List ℕ) (number : ℕ) : List ℕ := versions ++ [number]

theorem addVersion_eq_note : addVersion = knownVersions.note appendVersion := by
  funext versions name
  have hfind : knownVersions.lookup name =
      (afpVersions.find? fun v => v.1 = name).map Prod.snd := by
    rw [KnownNames.lookup, show name.map knownVersions.fold = name from map_id name]
    rfl
  rw [KnownNames.note, hfind, addVersion]
  cases afpVersions.find? fun v => v.1 = name <;> rfl

theorem foldl_appendVersion (versions xs : List ℕ) :
    xs.foldl appendVersion versions = versions ++ xs := by
  induction xs generalizing versions with
  | nil => exact (append_nil _).symm
  | cons x xs ih =>
    rw [foldl_cons, ih, appendVersion, append_assoc, singleton_append]

theorem appendVersion_eq_self (versions : List ℕ) (x : ℕ) (xs : List ℕ)
    (h : (x :: xs).foldl appendVersion versions = versions) :
    appendVersion versions x = versions := by
  rw [foldl_appendVersion] at h
  exact absurd h (by simp)

theorem overNames_induction {α : Type*} {P : α → Prop} {each : α → Octets → α} {maxLen : ℕ}
    (h : ∀ acc name, P acc → P (each acc name)) (b : Octets) (i p : ℕ) {acc : α} (hacc : P acc) :
    P (overNames maxLen each b i p acc) := by
  induction i generalizing p acc with
  | zero => exact hacc
  | succ i ih => exact ih _ (h _ _ hacc)

theorem addVersion_ne_zero (versions : List ℕ) (name : Octets) (h : ∀ x ∈ versions, x ≠ 0) :
    ∀ x ∈ addVersion versions name, x ≠ 0 := by
  have hknown : ∀ v ∈ afpVersions, v.2 ≠ 0 := by decide
  unfold addVersion
  split
  · exact h
  · next v hv =>
    intro x hx
    rcases mem_append.mp hx with hx | hx
    · exact h x hx
    · rw [mem_singleton.mp hx]
      exact hknown v (mem_of_find?_eq_some hv)

/-- The numbers found can be told from the array: none of them is 0. -/
theorem takeWhile_versions {found : List ℕ} (h : ∀ x ∈ found, x ≠ 0) (k : ℕ) :
    (found ++ replicate k 0).takeWhile (· ≠ 0) = found := by
  rw [takeWhile_append_of_pos (by simpa using h)]
  cases k <;> simp [replicate_succ]

theorem settled_versions_iff (msg : ℕ) :
    Settled n (fun b => afpcDsiParseVersions b msg) b ↔
      msg < n ∧ knownVersions.NamesSettled appendVersion n b 33
        (min (b.byte msg) serverMaxVersions) (msg + 1) [] := by
  have hfound : Settled n (fun b => afpcDsiParseVersions b msg) b ↔
      Settled n (fun b => overNames 33 (knownVersions.note appendVersion) b
        (min (b.byte msg) serverMaxVersions) (msg + 1) []) b := by
    constructor
    · intro h
      have hback := h.map (List.takeWhile (· ≠ 0))
      refine (settled_congr fun b' _ => ?_).mp hback
      rw [afpcDsiParseVersions, takeWhile_versions, addVersion_eq_note]
      exact overNames_induction addVersion_ne_zero b' _ _ (by simp)
    · intro h
      have hpad := h.map fun found => found ++ replicate (serverMaxVersions - found.length) 0
      rwa [← addVersion_eq_note] at hpad
  rw [hfound, KnownNames.settled_counted_iff (by decide) (by decide) appendVersion_eq_self]
  by_cases hmsg : msg < n
  · simp only [hmsg, if_true, true_and]
  · simp only [hmsg, if_false, false_and, iff_false, not_forall]
    exact ⟨(text "AFP2.2", 22), by decide, by decide⟩

/-! ## Methods of authentication -/

/-- The methods the client knows, under their names and the shorthands that
are not names, in small letters. -/
def knownUams : KnownNames where
  fold := tolower
  names :=
    [(text "no user authent", 1), (text "cleartxt passwrd", 2), (text "randnum exchange", 4),
      (text "2-way randnum exchange", 8), (text "dhcast128", 16), (text "client krb v2", 32),
      (text "dhx2", 64), (text "recon1", 128), (text "srp", 256),
      (text "guest", 1), (text "clrtxt", 2), (text "randnum", 4), (text "randnum2", 8),
      (text "dhx", 16)]
  fold_one := by decide
  nodup := by decide
  folded := by decide
  no_nul := by decide
  no_one := by decide
  ne_nil := by decide
  short := by decide

theorem uamStringToBitmap_congr {name name' : Octets} (h : name.map tolower = name'.map tolower) :
    uamStringToBitmap name = uamStringToBitmap name' := by
  have hsame : ∀ s, sameLetters name s = sameLetters name' s := fun s => by
    rw [sameLetters, sameLetters, h]
  have hresolved : ∀ s, sameLetters (resolveUamShorthand name) s =
      sameLetters (resolveUamShorthand name') s := by
    intro s
    unfold resolveUamShorthand
    simp only [hsame]
    cases uamAliases.find? fun a => sameLetters name' a.1 with
    | none => exact hsame s
    | some a => rfl
  unfold uamStringToBitmap
  simp only [hresolved]

/-- The tables of the source and the one here. -/
theorem uamStringToBitmap_eq (name : Octets) :
    uamStringToBitmap name = (knownUams.lookup name).getD 0 := by
  cases hl : knownUams.lookup name with
  | some x =>
    obtain ⟨v, hv, hname, rfl⟩ := KnownNames.mem_of_lookup hl
    have hval : ∀ v ∈ knownUams.names, uamStringToBitmap v.1 = v.2 := by decide
    have hlower : name.map tolower = v.1.map tolower := by
      rw [show v.1.map tolower = v.1 from knownUams.folded v hv]
      exact hname.symm
    rw [uamStringToBitmap_congr hlower, hval v hv, Option.getD_some]
  | none =>
    have hunknown : ∀ s, s.map tolower ∈ knownUams.names.map Prod.fst →
        ¬ sameLetters name s = true := by
      intro s hs hsame
      obtain ⟨v, hv, hvs⟩ := mem_map.mp hs
      have hsame' : name.map tolower = s.map tolower := of_decide_eq_true hsame
      have hsome := KnownNames.lookup_of_mem hv (hsame'.trans hvs.symm)
      rw [hl] at hsome
      exact absurd hsome (by simp)
    have haliases : ∀ a ∈ uamAliases, a.1.map tolower ∈ knownUams.names.map Prod.fst := by decide
    have hstrings : ∀ s ∈ afpStrings, s.map tolower ∈ knownUams.names.map Prod.fst := by decide
    have halias : uamAliases.find? (fun a => sameLetters name a.1) = none :=
      find?_eq_none.mpr fun a ha => hunknown a.1 (haliases a ha)
    have hself : resolveUamShorthand name = name := by
      rw [resolveUamShorthand, halias]
      rfl
    have hidx : afpStrings.findIdx? (fun s => sameLetters name s) = none :=
      findIdx?_eq_none_iff.mpr fun s hs => by
        simpa using hunknown s (hstrings s hs)
    rw [uamStringToBitmap, hself, hidx]
    rfl

theorem or_uamStringToBitmap :
    (fun uams name => uams ||| uamStringToBitmap name) =
      knownUams.note fun uams bit => uams ||| bit := by
  funext uams name
  rw [uamStringToBitmap_eq, KnownNames.note]
  cases knownUams.lookup name with
  | none => exact Nat.or_zero uams
  | some bit => rfl

theorem or_eq_self (uams x : ℕ) (xs : List ℕ)
    (h : (x :: xs).foldl (fun uams bit => uams ||| bit) uams = uams) : uams ||| x = uams := by
  have hout : ∀ xs : List ℕ, ∀ acc, ∃ rest,
      xs.foldl (fun uams bit => uams ||| bit) acc = acc ||| rest := by
    intro xs
    induction xs with
    | nil => exact fun acc => ⟨0, (Nat.or_zero acc).symm⟩
    | cons y ys ih =>
      intro acc
      obtain ⟨rest, hrest⟩ := ih (acc ||| y)
      exact ⟨y ||| rest, by rw [foldl_cons, hrest, Nat.or_assoc]⟩
  obtain ⟨rest, hrest⟩ := hout xs (uams ||| x)
  rw [foldl_cons, hrest] at h
  calc uams ||| x = uams ||| x ||| rest ||| x := by rw [h]
    _ = uams ||| x ||| rest := by
      rw [Nat.or_assoc (uams ||| x), Nat.or_comm rest x, ← Nat.or_assoc, Nat.or_assoc uams x x,
        Nat.or_self]
    _ = uams := h

theorem settled_uams_iff (msg : ℕ) :
    Settled n (fun b => afpcDsiParseUams b msg) b ↔
      msg < n ∧ knownUams.NamesSettled (fun uams bit => uams ||| bit) n b afpUamLength
        (min (b.byte msg) serverMaxUams) (msg + 1) 0 := by
  unfold afpcDsiParseUams
  rw [or_uamStringToBitmap, KnownNames.settled_counted_iff (by decide) (by decide) or_eq_self]
  by_cases hmsg : msg < n
  · simp only [hmsg, if_true, true_and]
  · simp only [hmsg, if_false, false_and, iff_false, not_forall]
    exact ⟨(text "srp", 256), by decide, by decide⟩

/-! ## Through an offset -/

/-- The octets at an offset that is at `p`. Where the offset is not inside,
it may lead far behind the end. -/
theorem settled_signature_iff {p : ℕ} (hp : p ≤ 282) :
    Settled n (fun b => b.octetsAt (headerSize + b.be16 p) afpSignatureLen) b ↔
      p + 2 ≤ n ∧ headerSize + b.be16 p + afpSignatureLen ≤ n := by
  -- with the offset inside, it is a fixed place
  have hfixed : ∀ (m : ℕ) (c : Octets), p + 2 ≤ m →
      (Settled m (fun b => b.octetsAt (headerSize + b.be16 p) afpSignatureLen) c ↔
        headerSize + c.be16 p + afpSignatureLen ≤ m) := by
    intro m c hm
    rw [settled_offset_iff (fun b o => b.octetsAt (headerSize + o) afpSignatureLen) hm]
    exact settled_octetsAt_iff _ _ (by decide)
  by_cases hin : p + 2 ≤ n
  · rw [hfixed n b hin, and_iff_right hin]
  · refine iff_of_false (fun h => ?_) fun h => hin h.1
    have hout := (hfixed (p + 2) (b.window (p + 1) ++ [255]) (le_rfl)).mp
      (h.mono (agree_tail b [255] (by omega)) (by omega))
    have hlow : (b.window (p + 1) ++ [255]).byte (p + 1) = 255 := byte_tail b [255] (p + 1) 0
    rw [be16, hlow, headerSize, afpSignatureLen] at hout
    omega

/-- The UTF-8 name at `p2` is inside, or the one behind an empty one. -/
def Utf8NameInside (n : ℕ) (b : Octets) (p2 : ℕ) : Prop :=
  p2 < n ∧ PascalInside n b (if b.byte p2 = 0 then p2 + 1 else p2) afpServerNameUtf8Len

theorem utf8NameFrom_eq (b : Octets) (p2 : ℕ) :
    utf8NameFrom b p2 =
      (copyFromPascal b (if b.byte p2 = 0 then p2 + 1 else p2) afpServerNameUtf8Len).2 := by
  unfold utf8NameFrom
  dsimp only
  rw [copyFromPascal_fst]
  split <;> rfl

theorem settled_utf8NameFrom_iff (p2 : ℕ) :
    Settled n (fun b => utf8NameFrom b p2) b ↔ Utf8NameInside n b p2 := by
  have hfixed : ∀ (m : ℕ) (c : Octets), p2 < m →
      (Settled m (fun b => utf8NameFrom b p2) c ↔
        PascalInside m c (if c.byte p2 = 0 then p2 + 1 else p2) afpServerNameUtf8Len) := by
    intro m c hm
    rw [← settled_copyFromPascal_iff (by decide)]
    exact settled_congr fun c' hc' => by rw [utf8NameFrom_eq, hc' p2 hm]
  by_cases hin : p2 < n
  · rw [Utf8NameInside, hfixed n b hin, and_iff_right hin]
  · refine iff_of_false (fun h => ?_) fun h => hin h.1
    have hone : (b.window p2 ++ [1]).byte p2 = 1 := byte_tail b [1] p2 0
    have hout := (hfixed (p2 + 1) (b.window p2 ++ [1]) (Nat.lt_succ_self _)).mp
      (h.mono (agree_tail b [1] (by omega)) (by omega))
    rw [hone, if_neg (by decide), PascalInside, copyLen, hone, afpServerNameUtf8Len] at hout
    omega

/-- Where the offset of the UTF-8 name is. -/
theorem utf8NameAt_le (b : Octets) : utf8NameAt b ≤ b.byte 26 + 34 := by
  unfold utf8NameAt signatureAt
  dsimp only
  split_ifs <;> omega

theorem signatureAt_le (b : Octets) : signatureAt b ≤ 282 := by
  have hlt : b.byte 26 < 256 := UInt8.toNat_lt _
  unfold signatureAt
  dsimp only
  split <;> omega

theorem signatureAt_congr (hn : getstatusSize ≤ n) (h : Agree n b b') :
    signatureAt b' = signatureAt b := by
  unfold getstatusSize at hn
  rw [signatureAt, signatureAt, h 26 (by omega)]

theorem utf8NameAt_congr (hn : getstatusSize ≤ n) (h : Agree n b b') :
    utf8NameAt b' = utf8NameAt b := by
  have hsig := signatureAt_congr hn h
  unfold getstatusSize at hn
  rw [utf8NameAt, utf8NameAt, hsig, h.be16 (by omega)]

theorem two_le_flags_high (h : b.be16 24 &&& kSupportsUTF8SrvrName ≠ 0) : 2 ≤ b.byte 24 := by
  by_contra hlt
  have hlow : b.byte (24 + 1) < 256 := UInt8.toNat_lt _
  have hflags : b.be16 24 < 2 ^ 9 := by
    rw [be16]
    omega
  have hbit : b.be16 24 &&& 2 ^ 9 = 0 := by
    rw [Nat.and_two_pow, Nat.testBit_lt_two_pow hflags]
    rfl
  exact h hbit

theorem utf8NameAt_even (b : Octets) : utf8NameAt b % 2 = 0 := by
  unfold utf8NameAt signatureAt
  dsimp only
  split_ifs <;> omega

theorem byte_one_utf8NameFrom {m q : ℕ} (t : Octets) (hq : q + 2 < m) (h : 2 ≤ b.byte q) :
    (utf8NameFrom (b.window m ++ t) q).byte 1 = b.byte (q + 2) := by
  have hlen : (b.window m ++ t).byte q = b.byte q := byte_before_tail b t (by omega)
  have hcopy : 1 < copyLen (b.window m ++ t) q afpServerNameUtf8Len := by
    rw [copyLen, hlen, afpServerNameUtf8Len]
    omega
  rw [utf8NameFrom_eq, hlen, if_neg (by omega), byte_copyFromPascal _ q hcopy,
    byte_before_tail b t (by omega)]

/-- Names that begin at all places from 17 to 272 and are one name: the
length of the server's name stands at every even place up to 272. -/
theorem byte_272_of_one_name {m : ℕ} (hm : 272 < m) (hflags : 2 ≤ b.byte 24) (hname : 2 ≤ b.byte 26)
    (h : ∀ c c' : UInt8, utf8NameFrom (b.window m ++ [c]) (17 + c.toNat) =
      utf8NameFrom (b.window m ++ [c']) (17 + c'.toNat)) : b.byte 272 = b.byte 26 := by
  -- the second octet of the name at 24 is the length, and so is that of every other
  have hsecond : ∀ q, 24 ≤ q → q ≤ 270 → 2 ≤ b.byte q → b.byte (q + 2) = b.byte 26 := by
    intro q hlo hhi hq
    have hc : (UInt8.ofNat (q - 17)).toNat = q - 17 :=
      UInt8.toNat_ofNat_of_lt' (by rw [UInt8.size]; omega)
    have heq := congrArg (fun o => byte o 1) (h (UInt8.ofNat (q - 17)) 7)
    rw [hc, show 17 + (q - 17) = q by omega] at heq
    rwa [byte_one_utf8NameFrom _ (by omega) hq, show 17 + (7 : UInt8).toNat = 24 from rfl,
      byte_one_utf8NameFrom _ (by omega) hflags] at heq
  have hall : ∀ k ≤ 123, b.byte (26 + 2 * k) = b.byte 26 := by
    intro k
    induction k with
    | zero => exact fun _ => rfl
    | succ k ih =>
      intro hk
      have hprev := ih (by omega)
      exact hsecond (26 + 2 * k) (by omega) (by omega) (by omega)
  exact hall 123 (le_rfl)

/-- The UTF-8 name is settled if and only if its offset and the name are
inside. An offset that is not could lead anywhere behind it; where that is
still inside, names that begin at different places would have to be one. -/
theorem settled_utf8Name_iff (hn : getstatusSize ≤ n)
    (hflags : b.be16 24 &&& kSupportsUTF8SrvrName ≠ 0) :
    Settled n (fun b => utf8NameFrom b (headerSize + b.be16 (utf8NameAt b) + 1)) b ↔
      utf8NameAt b + 2 ≤ n ∧ Utf8NameInside n b (headerSize + b.be16 (utf8NameAt b) + 1) := by
  set p := utf8NameAt b with hp
  have hatp : Settled n (fun b => utf8NameFrom b (headerSize + b.be16 (utf8NameAt b) + 1)) b ↔
      Settled n (fun b => utf8NameFrom b (headerSize + b.be16 p + 1)) b :=
    settled_congr fun b' hb' => by rw [utf8NameAt_congr hn hb']
  have hfixed : ∀ (m : ℕ) (c : Octets), p + 2 ≤ m →
      (Settled m (fun b => utf8NameFrom b (headerSize + b.be16 p + 1)) c ↔
        Utf8NameInside m c (headerSize + c.be16 p + 1)) := by
    intro m c hm
    rw [settled_offset_iff (fun b o => utf8NameFrom b (headerSize + o + 1)) hm]
    exact settled_utf8NameFrom_iff _
  rw [hatp]
  by_cases hin : p + 2 ≤ n
  · rw [hfixed n b hin, and_iff_right hin]
  refine iff_of_false (fun h => ?_) fun h => hin h.1
  have hle := utf8NameAt_le b
  have hname : b.byte 26 < 256 := UInt8.toNat_lt _
  -- the offset with the low octet 255
  have hout := (hfixed (p + 2) (b.window (p + 1) ++ [255]) (le_rfl)).mp
    (h.mono (agree_tail b [255] (by omega)) (by omega))
  have hbe : ∀ c : UInt8, (b.window (p + 1) ++ [c]).be16 p = b.byte p * 256 + c.toNat := by
    intro c
    rw [be16, byte_before_tail b [c] (by omega), show p + 1 = p + 1 + 0 from rfl, byte_tail]
    rfl
  have h255 : (255 : UInt8).toNat = 255 := rfl
  rw [hbe, h255, headerSize, Utf8NameInside] at hout
  have heven := utf8NameAt_even b
  have hhigh : b.byte p = 0 := by omega
  rw [hhigh, show 16 + (0 * 256 + 255) + 1 = 272 from rfl] at hout
  obtain ⟨hlt, hin272⟩ := hout
  have h272 : b.byte 272 = b.byte 26 := by
    refine byte_272_of_one_name (m := p + 1) (by omega) (two_le_flags_high hflags) (by omega) ?_
    intro c c'
    have heq := h.eq_tails (m := p + 1) (k := p + 1) (by omega) (by omega) [c] [c']
    simp only [hbe, hhigh, headerSize] at heq
    have hpos : ∀ k, 16 + (0 * 256 + k) + 1 = 17 + k := fun k => by omega
    rwa [hpos, hpos] at heq
  rw [byte_before_tail b [255] (by omega), h272, if_neg (by omega), PascalInside, copyLen,
    byte_before_tail b [255] (by omega), h272, afpServerNameUtf8Len] at hin272
  omega

/-! ## Volumes -/

/-- As many of the `i` volumes from `p` on as begin inside have their names
inside. -/
def VolumesInside (n : ℕ) (b : Octets) : ℕ → ℕ → Prop
  | 0, _ => True
  | i + 1, p =>
      n ≤ p ∨ PascalInside n b (p + 1) afpVolumeNameUtf8Len ∧
        VolumesInside n b i (p + 1 + (b.byte (p + 1) + 1))

section
variable {host : ByteOrder} {utf8 : Bool} {i p : ℕ}

/-- A volume at `p`. -/
def volumeAt (host : ByteOrder) (utf8 : Bool) (b : Octets) (p : ℕ) : AfpVolume :=
  let volumeName := (copyFromPascal b (p + 1) afpVolumeNameUtf8Len).2
  { AfpVolume.zero with
    flags := b.byte p
    volumeName := volumeName
    volumeNamePrintable := printableVolumeName host utf8 volumeName [] }

theorem srvrparmsVolumes_succ (hp : p < n) :
    srvrparmsVolumes host utf8 b n (i + 1) p =
      ((srvrparmsVolumes host utf8 b n i (p + 1 + (b.byte (p + 1) + 1))).1,
        volumeAt host utf8 b p ::
          (srvrparmsVolumes host utf8 b n i (p + 1 + (b.byte (p + 1) + 1))).2) := by
  rw [srvrparmsVolumes, if_neg (by omega)]
  rfl

theorem volumeAt_congr (hp : p < n) (h : Agree n b b')
    (hin : PascalInside n b (p + 1) afpVolumeNameUtf8Len) :
    volumeAt host utf8 b' p = volumeAt host utf8 b p := by
  rw [volumeAt, volumeAt, copyFromPascal_congr h hin, h p hp]

/-- The volumes are settled if and only if the names of those that begin
inside are. -/
theorem settled_volumes_iff (host : ByteOrder) (utf8 : Bool) :
    Settled n (fun b => srvrparmsVolumes host utf8 b n i p) b ↔ VolumesInside n b i p := by
  induction i generalizing p with
  | zero => exact iff_of_true (settled_const _) trivial
  | succ i ih =>
    rw [VolumesInside, ← ih]
    by_cases hp : n ≤ p
    · have hstop : ∀ b', srvrparmsVolumes host utf8 b' n (i + 1) p =
          (-1, replicate (i + 1) AfpVolume.zero) := fun b' => by
        rw [srvrparmsVolumes, if_pos hp]
      exact iff_of_true ((settled_congr fun b' _ => hstop b').mpr (settled_const _)) (.inl hp)
    have hlt : p < n := by omega
    rw [or_iff_right hp]
    constructor
    · intro h
      -- the name of the first volume, and the others
      have hname := h.map fun r => (r.2.headD AfpVolume.zero).volumeName
      have hin : PascalInside n b (p + 1) afpVolumeNameUtf8Len := by
        rw [← settled_copyFromPascal_iff (by decide)]
        exact (settled_congr fun b' _ => by rw [srvrparmsVolumes_succ hlt]; rfl).mp hname
      have hrest := h.map fun r => (r.1, r.2.tail)
      refine ⟨hin, (settled_congr fun b' hb' => ?_).mp hrest⟩
      rw [srvrparmsVolumes_succ hlt, ← hb' (p + 1) hin.1]
      rfl
    · rintro ⟨hin, hrest⟩ b' hb'
      have heq := hrest b' hb'
      dsimp only at heq ⊢
      rw [srvrparmsVolumes_succ hlt, srvrparmsVolumes_succ hlt, ← hb' (p + 1) hin.1, heq,
        volumeAt_congr hlt hb' hin]

end

end NetatalkClient
