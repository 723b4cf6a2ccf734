import NetatalkClient.Uam.DhxAgreement
import NetatalkClient.Uam.Model.ChangePassword
/-!
# Changing a password: what the server reads

By the layout of AFP, the user's name in FPChangePassword is followed by an
octet more if it ends at an odd offset. `dhx_passwd` keeps to that;
`cleartxt_passwd` and `randnum_passwd` do the opposite, so before AFP 3.0,
whatever the length of the name, the server reads their data one octet off.
From AFP 3.0 on there is no name, and all is well.
-/

namespace NetatalkClient

open Octets List

/-! ## The layout -/

/-- What FPChangePassword says. -/
structure PasswordChange where
  method : Octets
  username : Octets
  data : Octets
  deriving DecidableEq, Repr

/-- FPChangePassword by the layout: the command, an octet of padding, the
method and the user's name as Pascal strings, each of them padded to an even
offset, and the method's data. Where no name is sent, it is empty. -/
def decodeChangepassword (msg : Octets) : Option PasswordChange :=
  if msg.take 2 ≠ [36, 0] then none
  else
    let uaEnd := pascalEnd msg 2
    let nameAt := uaEnd + uaEnd % 2
    let nameEnd := pascalEnd msg nameAt
    let dataAt := nameEnd + nameEnd % 2
    some ⟨(msg.drop 3).take (msg.byte 2), (msg.drop (nameAt + 1)).take (msg.byte nameAt),
      msg.drop dataAt⟩

/-- A Pascal string in a message, as it is read. -/
theorem pascal_append (a rest : Octets) {s : Octets} (h : s.length ≤ 255) :
    ((a ++ (copyToPascal s ++ rest)).drop (a.length + 1)).take
      ((a ++ (copyToPascal s ++ rest)).byte a.length) = s := by
  have hbyte : (a ++ (copyToPascal s ++ rest)).byte a.length = s.length := by
    have hend := pascalEnd_append a s rest
    rw [pascalEnd, length_append, length_copyToPascal h] at hend
    omega
  rw [hbyte, ← drop_drop, drop_left, copyToPascal, take_of_length_le h]
  exact take_left

section Layout

variable {ua name : Octets} (hua : ua.length ≤ 255) (hname : name.length ≤ 255)
include hua hname

/-- **How a request is read** that has any number of octets behind the
name. -/
theorem decode_changepassword (pad data : Octets) :
    decodeChangepassword (afpChangepassword ua (copyToPascal name ++ (pad ++ data))) =
      some ⟨ua, name, (pad ++ data).drop ((name.length + 1) % 2)⟩ := by
  -- up to the name all is padded to an even number of octets
  obtain ⟨front, hfront, hlen⟩ : ∃ front, front = [36, 0] ++ (copyToPascal ua ++
      replicate ((ua.length + 1) % 2) 0) ∧ front.length = 3 + ua.length + (ua.length + 1) % 2 := by
    refine ⟨_, rfl, ?_⟩
    simp only [length_append, length_copyToPascal hua, length_replicate, length_cons, length_nil]
    omega
  have hmethod : afpChangepassword ua (copyToPascal name ++ (pad ++ data)) = [36, 0] ++
      (copyToPascal ua ++ (replicate ((ua.length + 1) % 2) 0 ++
        (copyToPascal name ++ (pad ++ data)))) := rfl
  have hmsg : afpChangepassword ua (copyToPascal name ++ (pad ++ data)) =
      front ++ (copyToPascal name ++ (pad ++ data)) := by
    rw [hmethod, hfront]
    simp only [append_assoc]
  have hua2 : pascalEnd (afpChangepassword ua (copyToPascal name ++ (pad ++ data))) 2 =
      3 + ua.length := by
    have hend := pascalEnd_append [36, 0] ua (replicate ((ua.length + 1) % 2) 0 ++
      (copyToPascal name ++ (pad ++ data)))
    rw [length_append, length_copyToPascal hua] at hend
    exact hend.trans (by rw [length_cons, length_singleton]; omega)
  have hnameAt : 3 + ua.length + (3 + ua.length) % 2 = front.length := by omega
  have hnameEnd := pascalEnd_append front name (pad ++ data)
  rw [← hmsg, length_append, length_copyToPascal hname] at hnameEnd
  have hparity : (front.length + (1 + name.length)) % 2 = (name.length + 1) % 2 := by omega
  have hstart : (afpChangepassword ua (copyToPascal name ++ (pad ++ data))).take 2 = [36, 0] := rfl
  unfold decodeChangepassword
  dsimp only
  rw [if_neg (not_not_intro hstart), hua2, hnameAt, hnameEnd, hparity, Option.some.injEq,
    PasswordChange.mk.injEq]
  refine ⟨pascal_append [36, 0] _ hua, ?_, ?_⟩
  · rw [hmsg]
    exact pascal_append front _ hname
  · rw [hmsg, ← append_assoc, ← drop_drop, drop_left']
    rw [length_append, length_copyToPascal hname]

/-- An octet more behind a name of an odd number of octets, with its length:
the data is read as it is. -/
theorem decode_padded (data : Octets) :
    decodeChangepassword (afpChangepassword ua (copyToPascal name ++
      (replicate ((name.length + 1) % 2) 0 ++ data))) = some ⟨ua, name, data⟩ := by
  rw [decode_changepassword hua hname, drop_left' length_replicate]

/-- The other way around, the data is read as another. -/
theorem decode_unpadded {data : Octets} (hdata : data ≠ []) :
    decodeChangepassword (afpChangepassword ua (copyToPascal name ++
      (replicate (name.length % 2) 0 ++ data))) ≠ some ⟨ua, name, data⟩ := by
  rw [decode_changepassword hua hname]
  intro h
  have hlen := congrArg List.length (PasswordChange.mk.inj (Option.some.inj h)).2.2
  rw [length_drop, length_append, length_replicate] at hlen
  have hpos := length_pos_iff.mpr hdata
  omega

end Layout

/-! ## The methods -/

/-- A method that changes passwords, with what it draws and what it is
answered. -/
inductive ChangeMethod where
  | cleartxt
  | randnum (des : Des)
  | dhx (cipher : Cipher) (ra : DhxSecret) (reply : Octets)

namespace ChangeMethod

variable (m : ChangeMethod) (version : AfpVersion) (username : AccountName)
variable (passwd newpasswd : Octets)

/-- The method's name. -/
def name : ChangeMethod → Octets
  | cleartxt => cleartxtName
  | randnum _ => randnumName
  | dhx _ _ _ => dhxName

/-- The requests that a method sends. -/
def requests : ChangeMethod → List Octets
  | cleartxt => [cleartxtPasswd version username passwd newpasswd]
  | randnum des => (randnumPasswd des version username passwd newpasswd).toList
  | dhx cipher ra reply => dhxPasswdFirst version username ra ::
      (dhxPasswdSecond cipher version username ra passwd newpasswd reply).toList

/-- The method's data in each of its requests: both passwords, in clear or
each encrypted with the other; or a session number and the client's public
number, and the number that came back with the nonce, one further, and the
passwords, encrypted. -/
def data : ChangeMethod → List Octets
  | cleartxt => [shortPassword passwd ++ shortPassword newpasswd]
  | randnum des => (randnumData des passwd newpasswd).toList
  | dhx cipher ra reply =>
      let key := ra.key ((reply.drop 2).take 16)
      let nonce := (cipher.decrypt key dhxS2civ ((reply.take 50).drop 18)).take 16
      ([0, 0] ++ ra.ma) :: if reply.length < 50 then [] else
        [reply.take 2 ++ cipher.encrypt key dhxC2siv
          (incremented nonce ++ (passwordField 64 newpasswd ++ passwordField 64 passwd))]

/-- The name that is sent: none from AFP 3.0 on. -/
def sentName : Octets := if 30 ≤ version.avNumber then [] else username.octets

/-- Every request is read as it is meant. -/
def Decodes : Prop :=
  (m.requests version username passwd newpasswd).map decodeChangepassword =
    (m.data passwd newpasswd).map fun d => some ⟨m.name, sentName version username, d⟩

end ChangeMethod

section Methods

variable {m : ChangeMethod} {version : AfpVersion} {username : AccountName}
variable {passwd newpasswd : Octets}

theorem length_sentName : (ChangeMethod.sentName version username).length ≤ 255 := by
  unfold ChangeMethod.sentName
  split
  · exact Nat.zero_le _
  · exact username.length_le.trans (by decide)

/-- `dhx_passwd` pads a name as the layout says. -/
theorem nameInDhxBlock_eq : nameInDhxBlock version username =
    copyToPascal (ChangeMethod.sentName version username) ++
      replicate (((ChangeMethod.sentName version username).length + 1) % 2) 0 := by
  unfold nameInDhxBlock ChangeMethod.sentName
  split
  · rfl
  · have hlen := length_copyToPascal (username.length_le.trans (by decide))
    dsimp only
    rw [hlen, add_comm 1]
    split
    · next hodd =>
      rw [hodd]
      rfl
    · next heven =>
      rw [Nat.mod_two_ne_one.mp heven, replicate_zero, append_nil]

/-- From AFP 3.0 on, the other methods do as well. -/
theorem nameInBlock_of_le (h : 30 ≤ version.avNumber) :
    nameInBlock version username = nameInDhxBlock version username := by
  rw [nameInBlock, nameInDhxBlock, if_pos h, if_pos h]

/-- Before, they do the opposite. -/
theorem nameInBlock_of_lt (h : ¬30 ≤ version.avNumber) : nameInBlock version username =
    copyToPascal username.octets ++ replicate (username.octets.length % 2) 0 := by
  have hlen := length_copyToPascal (username.length_le.trans (by decide))
  unfold nameInBlock
  rw [if_neg h]
  dsimp only
  rw [hlen]
  split
  · next hodd =>
    rw [show username.octets.length % 2 = 0 by omega, replicate_zero, append_nil]
  · next heven =>
    rw [show username.octets.length % 2 = 1 by omega]
    rfl

/-- A request with a name as in `dhx_passwd` is read as it is meant. -/
theorem decode_nameInDhxBlock {ua : Octets} (hua : ua.length ≤ 255) (data : Octets) :
    decodeChangepassword (afpChangepassword ua (nameInDhxBlock version username ++ data)) =
      some ⟨ua, ChangeMethod.sentName version username, data⟩ := by
  rw [nameInDhxBlock_eq, append_assoc, decode_padded hua length_sentName]

/-- A request with a name as in the other methods is read as it is meant from
AFP 3.0 on. -/
theorem decode_nameInBlock_iff {ua data : Octets} (hua : ua.length ≤ 255) (hdata : data ≠ []) :
    decodeChangepassword (afpChangepassword ua (nameInBlock version username ++ data)) =
      some ⟨ua, ChangeMethod.sentName version username, data⟩ ↔ 30 ≤ version.avNumber := by
  constructor
  · intro h
    by_contra hlt
    rw [nameInBlock_of_lt hlt, append_assoc, ChangeMethod.sentName, if_neg hlt] at h
    exact decode_unpadded hua (username.length_le.trans (by decide)) hdata h
  · intro h
    rw [nameInBlock_of_le h, decode_nameInDhxBlock hua]

theorem length_shortPassword (passwd : Octets) : (shortPassword passwd).length = 8 :=
  length_window _ _

theorem length_randnumData {des : Des} {data : Octets}
    (h : randnumData des passwd newpasswd = some data) : data.length = 16 := by
  obtain ⟨old, hold, h⟩ := Option.bind_eq_some_iff.mp h
  obtain ⟨new, hnew, h⟩ := Option.bind_eq_some_iff.mp h
  cases h
  rw [length_append, des.length_encrypt hold, des.length_encrypt hnew, length_shortPassword,
    length_shortPassword]

theorem Cipher.length_decrypt (cipher : Cipher) (key iv data : Octets) :
    (cipher.decrypt key iv data).length = data.length := by
  rw [← cipher.length_encrypt key iv, cipher.encrypt_decrypt]

/-- The second request of `dhx_passwd`, if the reply has its size. -/
theorem dhxPasswdSecond_eq (cipher : Cipher) (ra : DhxSecret) {reply : Octets}
    (h : ¬reply.length < 50) :
    dhxPasswdSecond cipher version username ra passwd newpasswd reply =
      some (afpChangepassword dhxName (nameInDhxBlock version username ++ (reply.take 2 ++
        cipher.encrypt (ra.key ((reply.drop 2).take 16)) dhxC2siv (incremented
          ((cipher.decrypt (ra.key ((reply.drop 2).take 16)) dhxS2civ
            ((reply.take 50).drop 18)).take 16) ++
              (passwordField 64 newpasswd ++ passwordField 64 passwd))))) := by
  have hmb : ((reply.take 50).drop 2).take 16 = (reply.drop 2).take 16 := by
    rw [drop_take, take_take]
    rfl
  have hid : padded 2 (be16 (reply.take 50) 0) = reply.take 2 := by
    rw [padded_be16 (by rw [length_take]; omega), take_take]
    rfl
  have hnonce (key : Octets) :
      ((cipher.decrypt key dhxS2civ ((reply.take 50).drop 18)).take 16).length = 16 := by
    rw [length_take, cipher.length_decrypt, length_drop, length_take]
    omega
  unfold dhxPasswdSecond
  rw [if_neg h]
  dsimp only
  rw [hmb, hid, mpiPrintMoved_incremented (hnonce _)]

/-- **A request to change a password is read as it is meant** exactly with
DHX, or from AFP 3.0 on, or if none is sent. -/
theorem change_password_decodes_iff (m : ChangeMethod) (version : AfpVersion)
    (username : AccountName) (passwd newpasswd : Octets) :
    m.Decodes version username passwd newpasswd ↔
      (∃ cipher ra reply, m = .dhx cipher ra reply) ∨ 30 ≤ version.avNumber ∨
        m.requests version username passwd newpasswd = [] := by
  have hua : cleartxtName.length ≤ 255 ∧ randnumName.length ≤ 255 ∧ dhxName.length ≤ 255 := by
    decide
  cases m with
  | cleartxt =>
    have hdata : shortPassword passwd ++ shortPassword newpasswd ≠ [] := by
      rw [← length_pos_iff, length_append, length_shortPassword]
      omega
    unfold ChangeMethod.Decodes
    simp only [ChangeMethod.requests, ChangeMethod.data, ChangeMethod.name, map_cons,
      map_nil, List.cons.injEq, and_true, cleartxtPasswd,
      decode_nameInBlock_iff hua.1 hdata, reduceCtorEq, exists_false, false_or, or_false]
  | randnum des =>
    unfold ChangeMethod.Decodes
    simp only [ChangeMethod.requests, ChangeMethod.data, ChangeMethod.name, randnumPasswd]
    cases hdata : randnumData des passwd newpasswd with
    | none => simp
    | some data =>
      have hne : data ≠ [] := by
        rw [← length_pos_iff, length_randnumData hdata]
        omega
      simp [decode_nameInBlock_iff hua.2.1 hne]
  | dhx cipher ra reply =>
    refine iff_of_true ?_ (.inl ⟨cipher, ra, reply, rfl⟩)
    unfold ChangeMethod.Decodes
    simp only [ChangeMethod.requests, ChangeMethod.data, ChangeMethod.name, map_cons,
      dhxPasswdFirst, decode_nameInDhxBlock hua.2.2]
    congr 1
    by_cases hsize : reply.length < 50
    · rw [dhxPasswdSecond, if_pos hsize, if_pos hsize]
      rfl
    · rw [dhxPasswdSecond_eq cipher ra hsize, if_neg hsize]
      simp only [Option.toList_some, map_cons, map_nil, decode_nameInDhxBlock hua.2.2]

/-- Before AFP 3.0, the name "ab" and the passwords "old" and "new": the
server reads "ld" for the old password, and an octet is missing at the
end. -/
theorem cleartxt_off_by_one :
    ¬ ChangeMethod.cleartxt.Decodes ⟨text "AFP2.2", 22, by decide⟩ ⟨[97, 98], by decide, by decide⟩
        [111, 108, 100] [110, 101, 119] ∧
      (decodeChangepassword (cleartxtPasswd ⟨text "AFP2.2", 22, by decide⟩
        ⟨[97, 98], by decide, by decide⟩ [111, 108, 100] [110, 101, 119])).map PasswordChange.data =
          some [108, 100, 0, 0, 0, 0, 0, 110, 101, 119, 0, 0, 0, 0, 0] := by
  unfold ChangeMethod.Decodes
  decide

end Methods

end NetatalkClient
