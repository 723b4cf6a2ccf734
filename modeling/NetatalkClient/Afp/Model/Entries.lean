import NetatalkClient.Afp.Model.Directory
/-!
# AFP: entries and their encodings

What a server says about a file or a directory, how the protocol puts it
into a reply, and what the client is to make of it. The protocol leaves
the server free where in a block its names stand and what fills the rest.
The other direction is what a reply declares: the counts, lengths and
offsets in it, and that they stay inside.
-/

namespace NetatalkClient

open Octets

/-- What a server can say about a file or a directory. A name has at most
255 characters, of up to four octets each. -/
structure Entry where
  isdir : Bool
  attributes : UInt16
  parentDirID : UInt32
  createDate : UInt32
  modDate : UInt32
  backupDate : UInt32
  finderInfo : Vector UInt8 32
  longName : Octets
  longName_le : longName.length ≤ 255
  nodeID : UInt32
  offspringCount : UInt16
  ownerID : UInt32
  groupID : UInt32
  accessRights : UInt32
  dataForkLen : UInt32
  rsrcForkLen : UInt32
  extDataForkLen : UInt64
  launchLimit : UInt16
  utf8Name : Octets
  utf8Name_le : utf8Name.length ≤ 1020
  extRsrcForkLen : UInt64
  uid : UInt32
  gid : UInt32
  permissions : UInt32
  uaPermissions : UInt32

namespace Entry

/-- The flag of a directory. -/
def flag (e : Entry) : UInt8 := if e.isdir then 0x80 else 0

/-- The bitmap that is about an entry. -/
def bitmap (filebitmap dirbitmap : ℕ) (e : Entry) : ℕ := if e.isdir then dirbitmap else filebitmap

/-- What the client is to know of an entry. Of two fields for one thing the
later one counts. -/
def shown (server : Option AfpClock) (bitmap : ℕ) (e : Entry) : AfpFileInfo where
  attributes := if bitmap &&& kFPAttributeBit ≠ 0 then e.attributes.toNat else 0
  did := if bitmap &&& kFPParentDirIDBit ≠ 0 then e.parentDirID.toNat else 0
  creationDate :=
    if bitmap &&& kFPCreateDateBit ≠ 0 then afpDateToUnix server e.createDate.toNat else 0
  modificationDate :=
    if bitmap &&& kFPModDateBit ≠ 0 then afpDateToUnix server e.modDate.toNat else 0
  backupDate :=
    if bitmap &&& kFPBackupDateBit ≠ 0 then afpDateToUnix server e.backupDate.toNat else 0
  creationDateIsUnset := bitmap &&& kFPCreateDateBit ≠ 0 ∧ e.createDate.toNat = unsetDate
  modificationDateIsUnset := bitmap &&& kFPModDateBit ≠ 0 ∧ e.modDate.toNat = unsetDate
  backupDateIsUnset := bitmap &&& kFPBackupDateBit ≠ 0 ∧ e.backupDate.toNat = unsetDate
  fileid := if bitmap &&& kFPNodeIDBit ≠ 0 then e.nodeID.toNat else 0
  offspring :=
    if e.isdir ∧ bitmap &&& kFPOffspringCountBit ≠ 0 then e.offspringCount.toNat else 0
  finderinfo :=
    if bitmap &&& kFPFinderInfoBit ≠ 0 then e.finderInfo.toList else List.replicate 32 0
  name :=
    if bitmap &&& kFPUTF8NameBit ≠ 0 then e.utf8Name.window afpcMaxNameBytes
    else if bitmap &&& kFPLongNameBit ≠ 0 then e.longName.window afpcMaxNameBytes
    else List.replicate afpcMaxNameBytes 0
  unixprivs :=
    if bitmap &&& kFPUnixPrivsBit ≠ 0 then
      ⟨e.uid.toNat, e.gid.toNat, e.permissions.toNat, e.uaPermissions.toNat⟩
    else
      ⟨if e.isdir ∧ bitmap &&& kFPOwnerIDBit ≠ 0 then e.ownerID.toNat else 0,
        if e.isdir ∧ bitmap &&& kFPGroupIDBit ≠ 0 then e.groupID.toNat else 0, 0, 0⟩
  accessrights := if e.isdir ∧ bitmap &&& kFPAccessRightsBit ≠ 0 then e.accessRights.toNat else 0
  isdir := e.flag.toNat
  size :=
    if ¬e.isdir ∧ bitmap &&& kFPExtDataForkLenBit ≠ 0 then e.extDataForkLen.toNat
    else if ¬e.isdir ∧ bitmap &&& kFPDataForkLenBit ≠ 0 then e.dataForkLen.toNat
    else 0
  resourcesize :=
    if bitmap &&& kFPExtRsrcForkLenBit ≠ 0 then e.extRsrcForkLen.toNat
    else if ¬e.isdir ∧ bitmap &&& kFPRsrcForkLenBit ≠ 0 then e.rsrcForkLen.toNat
    else 0

end Entry

/-! ## Encodings -/

/-- Where a server puts the names of a block, and what it leaves in the
field of the UTF-8 name. -/
structure Layout where
  longName : UInt16
  shortName : UInt16
  utf8Name : UInt16
  pad : Vector UInt8 4

/-- A number as a field, and what it says. -/
def numberPiece (bit width n : ℕ) (store : AfpFileInfo → AfpFileInfo) : Piece AfpFileInfo :=
  ⟨bit, padded width n, store⟩

/-- The fields of an entry that come first. -/
def firstPieces (server : Option AfpClock) (lay : Layout) (e : Entry) : List (Piece AfpFileInfo) :=
  [numberPiece kFPAttributeBit 2 e.attributes.toNat fun f =>
      { f with attributes := e.attributes.toNat },
    numberPiece kFPParentDirIDBit 4 e.parentDirID.toNat fun f =>
      { f with did := e.parentDirID.toNat },
    numberPiece kFPCreateDateBit 4 e.createDate.toNat fun f =>
      { f with
        creationDate := afpDateToUnix server e.createDate.toNat
        creationDateIsUnset := e.createDate.toNat = unsetDate },
    numberPiece kFPModDateBit 4 e.modDate.toNat fun f =>
      { f with
        modificationDate := afpDateToUnix server e.modDate.toNat
        modificationDateIsUnset := e.modDate.toNat = unsetDate },
    numberPiece kFPBackupDateBit 4 e.backupDate.toNat fun f =>
      { f with
        backupDate := afpDateToUnix server e.backupDate.toNat
        backupDateIsUnset := e.backupDate.toNat = unsetDate },
    ⟨kFPFinderInfoBit, e.finderInfo.toList, fun f =>
      { f with finderinfo := e.finderInfo.toList }⟩,
    numberPiece kFPLongNameBit 2 lay.longName.toNat fun f =>
      { f with name := e.longName.window afpcMaxNameBytes },
    numberPiece kFPShortNameBit 2 lay.shortName.toNat fun f => f,
    numberPiece kFPNodeIDBit 4 e.nodeID.toNat fun f => { f with fileid := e.nodeID.toNat }]

/-- The fields of a directory only. -/
def dirPieces (e : Entry) : List (Piece AfpFileInfo) :=
  [numberPiece kFPOffspringCountBit 2 e.offspringCount.toNat fun f =>
      { f with offspring := e.offspringCount.toNat },
    numberPiece kFPOwnerIDBit 4 e.ownerID.toNat fun f =>
      { f with unixprivs := { f.unixprivs with uid := e.ownerID.toNat } },
    numberPiece kFPGroupIDBit 4 e.groupID.toNat fun f =>
      { f with unixprivs := { f.unixprivs with gid := e.groupID.toNat } },
    numberPiece kFPAccessRightsBit 4 e.accessRights.toNat fun f =>
      { f with accessrights := e.accessRights.toNat }]

/-- The fields of a file only. -/
def filePieces (e : Entry) : List (Piece AfpFileInfo) :=
  [numberPiece kFPDataForkLenBit 4 e.dataForkLen.toNat fun f =>
      { f with size := e.dataForkLen.toNat },
    numberPiece kFPRsrcForkLenBit 4 e.rsrcForkLen.toNat fun f =>
      { f with resourcesize := e.rsrcForkLen.toNat },
    numberPiece kFPExtDataForkLenBit 8 e.extDataForkLen.toNat fun f =>
      { f with size := e.extDataForkLen.toNat },
    numberPiece kFPLaunchLimitBit 2 e.launchLimit.toNat fun f => f]

/-- The fields of an entry that come last. -/
def lastPieces (lay : Layout) (e : Entry) : List (Piece AfpFileInfo) :=
  [⟨kFPUTF8NameBit, padded 2 lay.utf8Name.toNat ++ lay.pad.toList, fun f =>
      { f with name := e.utf8Name.window afpcMaxNameBytes }⟩,
    numberPiece kFPExtRsrcForkLenBit 8 e.extRsrcForkLen.toNat fun f =>
      { f with resourcesize := e.extRsrcForkLen.toNat },
    ⟨kFPUnixPrivsBit, padded 4 e.uid.toNat ++ (padded 4 e.gid.toNat ++
        (padded 4 e.permissions.toNat ++ padded 4 e.uaPermissions.toNat)), fun f =>
      { f with
        unixprivs := ⟨e.uid.toNat, e.gid.toNat, e.permissions.toNat, e.uaPermissions.toNat⟩ }⟩]

/-- The fields of an entry, in the order of their bits. -/
def entryPieces (server : Option AfpClock) (lay : Layout) (e : Entry) : List (Piece AfpFileInfo) :=
  firstPieces server lay e ++ (if e.isdir then dirPieces e else filePieces e) ++ lastPieces lay e

/-- A name with one octet for its length stands at `offset`. -/
def PascalAt (block : Octets) (offset : ℕ) (name : Octets) : Prop :=
  ∃ before after : Octets, before.length = offset ∧
    block = before ++ ([UInt8.ofNat name.length] ++ (name ++ after))

/-- A name with a hint and two octets for its length stands at `offset`. -/
def AfpnameAt (block : Octets) (offset : ℕ) (name : Octets) : Prop :=
  ∃ before hint after : Octets, before.length = offset ∧ hint.length = 4 ∧
    block = before ++ (hint ++ (padded 2 name.length ++ (name ++ after)))

/-- `block` is an encoding of the announced fields of an entry: the fields
come first, and each name stands where its field says. -/
def EncodesBlock (bitmap : ℕ) (e : Entry) (block : Octets) : Prop :=
  ∃ (lay : Layout) (rest : Octets),
    block = assemble bitmap (entryPieces none lay e) ++ rest ∧
    (bitmap &&& kFPLongNameBit ≠ 0 → PascalAt block lay.longName.toNat e.longName) ∧
    (bitmap &&& kFPUTF8NameBit ≠ 0 → AfpnameAt block lay.utf8Name.toNat e.utf8Name)

/-- What stands before a block of `n` octets. -/
def EntryForm.header (form : EntryForm) (n : ℕ) (flag pad : UInt8) : Octets :=
  match form with
  | replyEntry => padded 1 (n + 2) ++ [flag]
  | ext2ReplyEntry => padded 2 (n + 4) ++ [flag, pad]

/-- The largest entry that a form has room to tell the size of. -/
def EntryForm.limit : EntryForm → ℕ
  | replyEntry => 255
  | ext2ReplyEntry => 65535

/-- An entry in the reply to an enumeration. -/
def EncodesEntry (form : EntryForm) (filebitmap dirbitmap : ℕ) (e : Entry) (octets : Octets) :
    Prop :=
  ∃ (pad : UInt8) (block : Octets), EncodesBlock (e.bitmap filebitmap dirbitmap) e block ∧
    form.sizeof + block.length ≤ form.limit ∧
    octets = form.header block.length e.flag pad ++ block

/-- A reply to an enumeration. -/
def EncodesEnumerate (form : EntryForm) (filebitmap dirbitmap : UInt16) (entries : List Entry)
    (reply : Octets) : Prop :=
  ∃ (header : Octets) (blocks : List Octets) (rest : Octets),
    header.length = headerSize ∧ header.be32 4 = 0 ∧ entries.length < 65536 ∧
    List.Forall₂ (EncodesEntry form filebitmap.toNat dirbitmap.toNat) entries blocks ∧
    reply = header ++ (padded 2 filebitmap.toNat ++ (padded 2 dirbitmap.toNat ++
      (padded 2 entries.length ++ (blocks.flatten ++ rest))))

/-- A reply about one file or directory. -/
def EncodesParms (filebitmap dirbitmap : UInt16) (e : Entry) (reply : Octets) : Prop :=
  ∃ (header : Octets) (pad : UInt8) (block : Octets),
    header.length = headerSize ∧ header.be32 4 = 0 ∧
    EncodesBlock (e.bitmap filebitmap.toNat dirbitmap.toNat) e block ∧
    reply = header ++ (padded 2 filebitmap.toNat ++ (padded 2 dirbitmap.toNat ++
      ([e.flag, pad] ++ block)))

/-! ## What a reply declares -/

/-- The fields of a block by bit and width. -/
def wireFields (isdir : Bool) : List (ℕ × ℕ) :=
  [(kFPAttributeBit, 2), (kFPParentDirIDBit, 4), (kFPCreateDateBit, 4), (kFPModDateBit, 4),
    (kFPBackupDateBit, 4), (kFPFinderInfoBit, 32), (kFPLongNameBit, 2), (kFPShortNameBit, 2),
    (kFPNodeIDBit, 4)] ++
  (if isdir then
    [(kFPOffspringCountBit, 2), (kFPOwnerIDBit, 4), (kFPGroupIDBit, 4), (kFPAccessRightsBit, 4)]
  else
    [(kFPDataForkLenBit, 4), (kFPRsrcForkLenBit, 4), (kFPExtDataForkLenBit, 8),
      (kFPLaunchLimitBit, 2)]) ++
  [(kFPUTF8NameBit, 6), (kFPExtRsrcForkLenBit, 8), (kFPUnixPrivsBit, 16)]

/-- Where a field stands: behind the announced fields of lower bits. -/
def fieldOffset (isdir : Bool) (bitmap bit : ℕ) : ℕ :=
  announcedWidth bitmap ((wireFields isdir).filter (·.1 < bit))

/-- A name with one octet for its length is inside the block. -/
def PascalFits (block : Octets) (offset : ℕ) : Prop :=
  offset < block.length ∧ offset + 1 + block.byte offset ≤ block.length

/-- A name with two octets for its length is inside the block, and no
longer than names can be. -/
def AfpnameFits (block : Octets) (offset : ℕ) : Prop :=
  offset + 6 ≤ block.length ∧ offset + 6 + block.be16 (offset + 4) ≤ block.length ∧
    block.be16 (offset + 4) < afpcMaxNameBytes

/-- The announced fields and the names are inside the block. -/
def BlockFits (isdir : Bool) (bitmap : ℕ) (block : Octets) : Prop :=
  announcedWidth bitmap (wireFields isdir) ≤ block.length ∧
    (bitmap &&& kFPLongNameBit ≠ 0 →
      PascalFits block (block.be16 (fieldOffset isdir bitmap kFPLongNameBit))) ∧
    (bitmap &&& kFPUTF8NameBit ≠ 0 →
      AfpnameFits block (block.be16 (fieldOffset isdir bitmap kFPUTF8NameBit)))

/-- As many entries as are counted are inside, each of the size it
declares. -/
def EntriesFit (form : EntryForm) (filebitmap dirbitmap : ℕ) : ℕ → Octets → Prop
  | 0, _ => True
  | n + 1, rest =>
      form.sizeof ≤ rest.length ∧ form.sizeof ≤ form.size rest ∧ form.size rest ≤ rest.length ∧
        BlockFits (form.isdir rest ≠ 0) (if form.isdir rest ≠ 0 then dirbitmap else filebitmap)
          ((rest.take (form.size rest)).drop form.sizeof) ∧
        EntriesFit form filebitmap dirbitmap n (rest.drop (form.size rest))

/-- What the reply to an enumeration declares is inside it. A reply that
reports an error declares nothing behind its header. -/
def EnumerateFits (form : EntryForm) (reply : Octets) : Prop :=
  headerSize ≤ reply.length ∧
    (reply.be32 4 ≠ 0 ∨ headerSize + 6 ≤ reply.length ∧
      EntriesFit form (reply.be16 16) (reply.be16 18) (reply.be16 20) (reply.drop 22))

/-- What the reply about one file or directory declares is inside it. -/
def ParmsFit (reply : Octets) : Prop :=
  headerSize + 6 ≤ reply.length ∧
    (reply.be32 4 ≠ 0 ∨ BlockFits (reply.byte 20 ≠ 0)
      (if reply.byte 20 ≠ 0 then reply.be16 18 else reply.be16 16) (reply.drop 22))

end NetatalkClient
