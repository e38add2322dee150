import Ps2Servers.Smb1.Checked

/-!
# No request panics

The handlers of Edge with their indices and slices checked, from the message to its reply. Every one
of them comes to its reply on every request and every connection.

## Implementation notes

The offset and the count of a TRANS2 are added in an `int` too, so `trans2` has a width as `writeAndX`
has. What is known of the host is that a file never reads more than it was asked for.
-/

namespace Ps2Servers.Smb1.Edge

open Slices

variable {H : Type} (ops : Ops H) (cfg : Config)

/-- `trans2` where an `int` has so many bits. -/
def trans2In (width : Nat) (r : Req) (w : World H) : Reply × World H :=
  let p := r.params
  let setup := if 1 ≤ (p.getD 26 0).toNat then u16 p 28 else 0
  let tParams := sliceIn width r.msg (u16 p 20) (u16 p 18)
  match setup with
  | 0x01 => findFirst2 ops r tParams w
  | 0x02 => findNext2 ops tParams w
  | 0x05 => (queryPathInfo ops r tParams w, w)
  | _ => (.fail STATUS_NOT_IMPLEMENTED, w)

/-- `dispatch` where an `int` has so many bits. -/
def dispatchIn (width : Nat) (r : Req) (w : World H) : Reply × World H :=
  match r.cmd with
  | .writeAndx => writeAndXIn ops cfg width r w
  | .trans2 => trans2In ops width r w
  | _ => dispatch ops cfg r w

/-- A message that is no request is skipped. -/
def receiveIn (width : Nat) (msg : Bytes) (w : World H) : Option Reply × World H :=
  match parseReq msg with
  | none => (none, w)
  | some r => (some (dispatchIn ops cfg width r w).1, (dispatchIn ops cfg width r w).2)

namespace Checked

/-! ## Buffers -/

/-- `make([]byte, size)` and the writes into it. -/
def fill (size : Nat) (fields : List (Nat × Bytes)) : Option Bytes :=
  stores (List.replicate size 0) fields

theorem fill_eq {size : Nat} {fields : List (Nat × Bytes)} {p : Bytes} (n : Nat)
    (htiled : Tiled 0 fields) (hp : fields.flatMap Prod.snd ++ List.replicate n 0 = p)
    (hsize : size = p.length) : fill size fields = some p := by
  have hlength : size = (fields.flatMap Prod.snd).length + n := by
    rw [hsize, ← hp, List.length_append, List.length_replicate]
  rw [fill, stores_zeros htiled hlength, hp]

/-- `p[0]`, `p[1]` and the `AndXOffset`. -/
def andX : List (Nat × Bytes) := [(0, [ComNone]), (1, [0]), (2, le16 0)]

/-! ## Negotiation, sessions and trees -/

/-- The loop of `negotiate`. -/
def negotiateDialects (d : Bytes) : (fuel n i : Nat) → Option Nat
  | 0, _, _ => some 0
  | fuel + 1, n, i =>
      if i < d.length then do
        let b ← index d i
        if b ≠ 0x02 then negotiateDialects d fuel (n + 1) (i + 1)
        else
          let rest ← suffix d (i + 1)
          let end_ := (indexZero rest).getD rest.length
          let dialect ← upTo rest end_
          if dialect = NT_LM_012 then some n
          else negotiateDialects d fuel (n + 1) (i + (1 + end_ + 1))
      else some 0

def negotiate (r : Req) : Option Reply := do
  let idx ← negotiateDialects r.data r.data.length 0 0
  let p ← fill 34 [(0, le16 idx), (2, [0]), (3, le16 1), (5, le16 1), (7, le32 65535),
    (11, le32 65536), (15, le32 0), (19, le32 SERVER_CAPS), (23, le64 0), (31, le16 0), (33, [0])]
  some (.done p "WORKGROUP\x00".toUTF8.toList)

def sessionSetup (w : World H) : Option (Reply × World H) := do
  let uid := if w.conn.uid = 0 then 0x0800 else w.conn.uid
  let p ← fill 6 (andX ++ [(4, le16 1)])
  some (⟨p, "OPLSMB\x00OPLSMB\x00".toUTF8.toList, STATUS_SUCCESS, some uid.toNat, none⟩,
    { w with conn := { w.conn with uid := uid } })

/-- `evictOldest`. -/
def evictOldest {κ α : Type} [BEq κ] (cap : Nat) :
    (fuel : Nat) → List κ → List (κ × α) → Option (Aged κ α × List α)
  | 0, age, entries => some (⟨entries, age⟩, [])
  | fuel + 1, age, entries =>
      if 0 < age.length ∧ cap ≤ entries.length then do
        let oldest ← index age 0
        let age ← suffix age 1
        let rest ← evictOldest cap fuel age (Tables.erase entries oldest)
        some (rest.1, (entries.lookup oldest).toList ++ rest.2)
      else some (⟨entries, age⟩, [])

/-- `evictOldest` on a table of the connection. -/
def evict {κ α : Type} [BEq κ] (cap : Nat) (t : Aged κ α) : Option (Aged κ α × List α) :=
  evictOldest cap t.age.length t.age t.entries

/-- `pwlen`. -/
def passwordLength (r : Req) : Option Nat := if 4 ≤ r.wordcount then u16 r.params 6 else some 1

/-- The last component of the path of a TREE_CONNECT. -/
def treeName (r : Req) : Option Bytes := do
  let pwlen ← passwordLength r
  let d ← suffix r.data (if r.data.length < pwlen then r.data.length else pwlen)
  let path ← asciiz d
  let parts := (rstrip BACKSLASH (backslashes path)).splitOn BACKSLASH
  index parts (parts.length - 1)

def treeConnect (r : Req) (w : World H) : Option (Reply × World H) := do
  let name ← treeName r
  let tid := alloc w.conn.nextTID 1
  let trees ← evict MaxTrees w.conn.trees
  let p ← fill 6 (andX ++ [(4, le16 1)])
  let connected (service : Bytes) : Reply :=
    ⟨p, service ++ "NTFS\x00".toUTF8.toList, STATUS_SUCCESS, none, some tid.toNat⟩
  if name.map upperByte = "IPC$".toUTF8.toList then
    some (connected "IPC\x00".toUTF8.toList,
      { w with conn := { w.conn with nextTID := tid, trees := trees.1 } })
  else
    match shareNamed ops cfg name with
    | none =>
        some (.fail STATUS_OBJECT_NAME_NOT_FOUND,
          { w with conn := { w.conn with nextTID := tid, trees := trees.1 } })
    | some share =>
        some (connected "A:\x00".toUTF8.toList,
          { w with conn := { w.conn with nextTID := tid, trees := trees.1.put tid share } })

/-! ## Files -/

def addFile (w : World H) (path : String) (fh : Option Nat) (isDir : Bool) (size : Nat) :
    Option (UInt16 × World H) := do
  let fid := alloc w.conn.nextFID 0x1000
  let evicted ← evict MaxOpenFiles w.conn.files
  let files := evicted.1.put fid ⟨path, fh, isDir, size, w.opens + 1⟩
  some (fid, { w.closeAll evicted.2 with
    conn := { w.conn with nextFID := fid, files := files }, opens := w.opens + 1 })

def openFile (w : World H) (path : String) (size : Nat) : Option (UInt16 × World H) :=
  addFile { w with opened := w.opened + 1 } path (some w.opened) false size

def openAndX (r : Req) (w : World H) : Option (Reply × World H) :=
  match w.conn.shareForTID r with
  | none => some (.fail STATUS_OBJECT_NAME_NOT_FOUND, w)
  | some share => do
      let name ← asciiz r.data
      match ops.resolve w.host share name false with
      | none => some (.fail STATUS_OBJECT_NAME_NOT_FOUND, w)
      | some local_ =>
          match ops.stat w.host local_ with
          | .error _ => some (.fail STATUS_OBJECT_NAME_NOT_FOUND, w)
          | .ok info =>
              if info.isDir then some (.fail STATUS_OBJECT_NAME_NOT_FOUND, w)
              else if ops.openRead w.host local_ then do
                let (fid, w) ← openFile w local_ info.size
                let p ← fill 30 (andX ++ [(4, le16 fid.toNat), (6, le16 0), (8, le32 0),
                  (12, le32 info.size), (16, le16 0), (18, le16 0), (20, le16 0), (22, le16 1),
                  (24, le32 0), (28, le16 0)])
                some (.done p [], w)
              else some (.fail STATUS_OBJECT_NAME_NOT_FOUND, w)

/-- The part of `ntCreateAndX` that opens what is there by then. -/
def openCreated (w : World H) (path : String) (action : Nat) : Option (Reply × World H) :=
  match ops.stat w.host path with
  | .error _ => some (.fail STATUS_ACCESS_DENIED, w)
  | .ok info =>
      if info.isDir then do
        let (fid, w) ← addFile w path none true 0
        some (createReply fid action info 0, w)
      else if ops.openRead w.host path then do
        let (fid, w) ← openFile w path info.size
        some (createReply fid action info info.size, w)
      else some (.fail STATUS_ACCESS_DENIED, w)

/-- The bytes without the first one, if it is `b`. -/
def trimFirst (b : UInt8) (raw : Bytes) : Option Bytes :=
  if 0 < raw.length then do
    let first ← index raw 0
    if first = b then suffix raw 1 else some raw
  else some raw

/-- A word that only requests with `least` bytes of words have. -/
def u32From (least : Nat) (p : Bytes) (off : Nat) : Option Nat :=
  if least ≤ p.length then u32 p off else some 0

def ntCreateAndX (r : Req) (w : World H) : Option (Reply × World H) :=
  match w.conn.shareForTID r with
  | none => some (.fail STATUS_OBJECT_NAME_NOT_FOUND, w)
  | some share =>
      if r.params.length < 39 then some (.fail STATUS_ACCESS_DENIED, w)
      else do
        let nameLen ← u16 r.params 5
        let code ← u32 r.params 35
        let options ← u32From 43 r.params 39
        match dispositionOf code with
        | none => some (.fail STATUS_ACCESS_DENIED, w)
        | some disposition => do
            let raw ← trimFirst 0 r.data
            let named ← upTo raw (if raw.length < nameLen then raw.length else nameLen)
            let name ← asciiz named
            match ops.resolve w.host share name true with
            | none => some (.fail STATUS_ACCESS_DENIED, w)
            | some local_ =>
                match ntCreate ops cfg w local_ disposition (options &&& 1 != 0) with
                | (.error status, w) => some (.fail status, w)
                | (.ok action, w) => openCreated ops w local_ action

/-- The bytes `fh.ReadAt` left in the buffer, as far as it says. -/
def chunkOf (w : World H) (fh : Nat) (offset : Int) (count : Nat) : Option Bytes :=
  if 0 < count then
    let read := ops.readAt w.host fh offset count
    let buf := (read ++ List.replicate (count - read.length) 0).take count
    upTo buf read.length
  else some []

def readAndX (r : Req) (w : World H) : Option Reply := do
  let p := r.params
  let fid ← u16 p 4
  let offLow ← u32 p 6
  let maxLow ← u16 p 10
  let maxHigh ← u16 p 14
  let offHigh ← u32From 24 p 20
  let count := min (maxLow + maxHigh * 0x10000) 0xFFFF
  match (w.conn.files.entries.lookup (UInt16.ofNat fid)).bind OpenFile.fh with
  | none => some (.fail STATUS_OBJECT_NAME_NOT_FOUND)
  | some fh => do
      let chunk ← chunkOf ops w fh (offset64 offLow offHigh) count
      let params ← fill 24 (andX ++ [(4, le16 0), (6, le16 0), (8, le16 0),
        (10, le16 (chunk.length % 0x10000)), (12, le16 59), (14, le32 (chunk.length / 0x10000))])
      some (.done params chunk)

def slice (width : Nat) (msg : Bytes) (off n : Int) : Option Bytes :=
  if off < 0 ∨ (msg.length : Int) < off ∨ n ≤ 0 then some []
  else
    let end_ := int width (off + n)
    let end_ := if (msg.length : Int) < end_ ∨ end_ < off then (msg.length : Int) else end_
    between msg off end_

def writeAndX (width : Nat) (r : Req) (w : World H) : Option (Reply × World H) :=
  if cfg.readOnly then some (.fail STATUS_ACCESS_DENIED, w)
  else do
    let p := r.params
    let fid ← u16 p 4
    let offLow ← u32 p 6
    let dlenHigh ← u16 p 18
    let dlenLow ← u16 p 20
    let dataOff ← u16 p 22
    let offHigh ← u32From 28 p 24
    match w.conn.files.entries.lookup (UInt16.ofNat fid) with
    | none => some (.fail STATUS_ACCESS_DENIED, w)
    | some file => do
        let payload ← slice width r.msg dataOff (int width (dlenLow + dlenHigh * 0x10000 : Nat))
        if ops.openWrite w.host file.path then
          match ops.writeAt w.host file.path (offset64 offLow offHigh) payload with
          | (host, none) => some (.fail STATUS_ACCESS_DENIED, { w.transient with host := host })
          | (host, some written) => do
              let params ← fill 12 (andX ++ [(4, le16 (written % 0x10000)), (6, le16 0),
                (8, le16 0), (10, le16 0)])
              some (.done params [], { w.transient with host := host })
        else some (.fail STATUS_ACCESS_DENIED, w)

/-- The loop of `closeFile` over the ages. -/
def removeAge (age : List UInt16) (fid : UInt16) : Option (List UInt16) :=
  match age.idxOf? fid with
  | none => some age
  | some i => do
      let front ← upTo age i
      let rest ← suffix age (i + 1)
      some (front ++ rest)

def closeFile (r : Req) (w : World H) : Option (Reply × World H) := do
  let fid ← u16 r.params 0
  let fid := UInt16.ofNat fid
  match w.conn.files.entries.lookup fid with
  | none => some (.done [] [], w)
  | some file => do
      let age ← removeAge w.conn.files.age fid
      some (.done [] [], { w.closeAll [file] with
        conn := { w.conn with files := ⟨Tables.erase w.conn.files.entries fid, age⟩ } })

def createDirectory (r : Req) (w : World H) : Option (Reply × World H) :=
  if cfg.readOnly then some (.fail STATUS_ACCESS_DENIED, w)
  else
    match w.conn.shareForTID r with
    | none => some (.fail STATUS_OBJECT_NAME_NOT_FOUND, w)
    | some share => do
        let raw ← trimFirst 0x04 r.data
        let name ← asciiz raw
        match ops.resolve w.host share name true with
        | none => some (.fail STATUS_ACCESS_DENIED, w)
        | some local_ =>
            match ops.stat w.host local_, ops.stat w.host (ops.dirname local_) with
            | .ok _, _ => some (.fail STATUS_OBJECT_NAME_COLLISION, w)
            | .error .notExist, .ok parent =>
                if !parent.isDir then some (.fail STATUS_OBJECT_NAME_NOT_FOUND, w)
                else
                  match ops.mkdir w.host local_ with
                  | .error .exists => some (.fail STATUS_OBJECT_NAME_COLLISION, w)
                  | .error _ => some (.fail STATUS_ACCESS_DENIED, w)
                  | .ok host => some (.done [] [], { w with host := host })
            | .error .notExist, .error _ => some (.fail STATUS_OBJECT_NAME_NOT_FOUND, w)
            | .error _, _ => some (.fail STATUS_ACCESS_DENIED, w)

def checkDirectory (r : Req) (w : World H) : Option Reply :=
  match w.conn.shareForTID r with
  | none => some (.fail STATUS_OBJECT_NAME_NOT_FOUND)
  | some share => do
      let name ← asciiz r.data
      match ops.resolve w.host share (orRoot name) false with
      | none => some (.fail STATUS_OBJECT_NAME_NOT_FOUND)
      | some local_ =>
          match ops.stat w.host local_ with
          | .ok info =>
              some (if info.isDir then .done [] [] else .fail STATUS_OBJECT_NAME_NOT_FOUND)
          | .error _ => some (.fail STATUS_OBJECT_NAME_NOT_FOUND)

def echo (r : Req) : Option Reply := do
  let p ← fill 2 [(0, le16 1)]
  some (.done p r.data)

def queryInformationDisk : Option Reply := do
  let p ← fill 10 [(0, le16 0xFFFF), (2, le16 64), (4, le16 512), (6, le16 0xFFFF), (8, le16 0)]
  some (.done p [])

/-! ## Transactions -/

def searchDir (pattern : Bytes) : Option Bytes :=
  let path := backslashes pattern
  if [BACKSLASH, STAR].isSuffixOf path then upTo path (path.length - 2)
  else if [STAR].isSuffixOf path then upTo path (path.length - 1)
  else some path

def findFirst2 (r : Req) (tParams : Bytes) (w : World H) : Option (Reply × World H) :=
  if tParams.length < 12 then some (.fail STATUS_OBJECT_NAME_NOT_FOUND, w)
  else do
    let tail ← suffix tParams 12
    let pattern ← asciiz tail
    match w.conn.shareForTID r with
    | none => some (.fail STATUS_OBJECT_NAME_NOT_FOUND, w)
    | some share => do
        let dirPath ← searchDir pattern
        match ops.resolve w.host share (orRoot dirPath) false with
        | none => some (.fail STATUS_OBJECT_NAME_NOT_FOUND, w)
        | some local_ =>
            match ops.stat w.host local_, ops.readDirNames w.host local_ with
            | .ok info, some names =>
                if info.isDir then do
                  let sorted := names.mergeSort fun a b => decide (a ≤ b)
                  let listed := sorted.map fun n => (n, ops.join local_ n)
                  let entries := (".", local_) :: ("..", local_) :: listed
                  let sid := alloc w.conn.nextSID 1
                  let eos := if entries.length = 1 then 1 else 0
                  let searches ← evict MaxSearches w.conn.searches
                  let first ← index entries 0
                  let rp := le16 sid.toNat ++ le16 1 ++ le16 eos ++ le16 0 ++ le16 0
                  some (trans2Reply rp (dirEntry104 ops w.host first.1 first.2),
                    { w with conn := { w.conn with
                        nextSID := sid, searches := searches.1.put sid ⟨entries, 1⟩ } })
                else some (.fail STATUS_OBJECT_NAME_NOT_FOUND, w)
            | _, _ => some (.fail STATUS_OBJECT_NAME_NOT_FOUND, w)

def findNext2 (tParams : Bytes) (w : World H) : Option (Reply × World H) := do
  let sid ← u16 tParams 0
  let sid := UInt16.ofNat sid
  let exhausted := trans2Reply (le16 0 ++ le16 1 ++ le16 0 ++ le16 0) []
  match w.conn.searches.entries.lookup sid with
  | none => some (exhausted, w)
  | some search =>
      if search.entries.length ≤ search.cursor then
        some (exhausted, { w with conn := { w.conn with searches := w.conn.searches.delete sid } })
      else do
        let e ← index search.entries search.cursor
        let eos := if search.cursor = search.entries.length - 1 then 1 else 0
        let searches := w.conn.searches.update sid fun s => { s with cursor := s.cursor + 1 }
        some (trans2Reply (le16 1 ++ le16 eos ++ le16 0 ++ le16 0) (dirEntry104 ops w.host e.1 e.2),
          { w with conn := { w.conn with searches := searches } })

def queryPathInfo (r : Req) (tParams : Bytes) (w : World H) : Option Reply := do
  let level ← u16 tParams 0
  if tParams.length < 6 then some (.fail STATUS_OBJECT_NAME_NOT_FOUND)
  else
    let tail ← suffix tParams 6
    let name ← asciiz tail
    match w.conn.shareForTID r with
    | none => some (.fail STATUS_OBJECT_NAME_NOT_FOUND)
    | some share =>
        match ops.resolve w.host share (orRoot name) false with
        | none => some (.fail STATUS_OBJECT_NAME_NOT_FOUND)
        | some local_ =>
            match ops.stat w.host local_ with
            | .error _ => some (.fail STATUS_OBJECT_NAME_NOT_FOUND)
            | .ok info =>
                let size := if info.isDir then 0 else info.size
                let t := le64 info.filetime
                some (trans2Reply [] (if level = 0x0102 then
                  le64 size ++ le64 size ++ le32 0 ++ [0] ++ flag info.isDir ++ le16 0
                else t ++ t ++ t ++ t ++ le32 (attributes info.isDir) ++ le32 0))

/-- The subcommand in `trans2`. -/
def setupOf (p : Bytes) : Option Nat :=
  if 26 < p.length then do
    let count ← index p 26
    if 1 ≤ count.toNat then u16 p 28 else some 0
  else some 0

def trans2 (width : Nat) (r : Req) (w : World H) : Option (Reply × World H) := do
  let p := r.params
  let paramCount ← u16 p 18
  let paramOff ← u16 p 20
  let dataCount ← u16 p 22
  let dataOff ← u16 p 24
  let setup ← setupOf p
  let tParams ← slice width r.msg paramOff paramCount
  let _ ← slice width r.msg dataOff dataCount
  match setup with
  | 0x01 => findFirst2 ops r tParams w
  | 0x02 => findNext2 ops tParams w
  | 0x05 => do
      let reply ← queryPathInfo ops r tParams w
      some (reply, w)
  | _ => some (.fail STATUS_NOT_IMPLEMENTED, w)

/-- `trans2Setup`, which is asked of every TRANS2 when its reply is recorded. -/
def trans2Setup (r : Req) : Option Nat :=
  if 26 < r.params.length then do
    let count ← index r.params 26
    if 1 ≤ count.toNat ∧ 30 ≤ r.params.length then u16 r.params 28 else some 0xFFFF
  else some 0xFFFF

def dispatch (width : Nat) (r : Req) (w : World H) : Option (Reply × World H) :=
  match r.cmd with
  | .negotiate => (negotiate r).map (·, w)
  | .sessionSetupAndx => sessionSetup w
  | .treeConnectAndx => treeConnect ops cfg r w
  | .treeDisconnect => some (treeDisconnect r w)
  | .logoffAndx => some (logoff w)
  | .createDirectory => createDirectory ops cfg r w
  | .openAndx => openAndX ops r w
  | .ntCreateAndx => ntCreateAndX ops cfg r w
  | .readAndx => (readAndX ops r w).map (·, w)
  | .writeAndx => writeAndX ops cfg width r w
  | .close => closeFile r w
  | .echo => (echo r).map (·, w)
  | .queryInformationDisk => queryInformationDisk.map (·, w)
  | .checkDirectory => (checkDirectory ops r w).map (·, w)
  | .trans2 => trans2 ops width r w
  | .transaction => some (transaction cfg, w)
  | .other _ => some (.fail STATUS_NOT_IMPLEMENTED, w)

/-- One message in `serveConn`. -/
def receive (width : Nat) (msg : Bytes) (w : World H) : Option (Option Reply × World H) := do
  match ← parseReq msg with
  | none => some (none, w)
  | some r => do
      let (reply, w) ← dispatch ops cfg width r w
      let _ ← if r.cmd = .trans2 then trans2Setup r else some 0
      some (some reply, w)

/-! ## Strings -/

theorem length_cString (b : Bytes) : (indexZero b).getD b.length = (cString b).length := by
  cases h : indexZero b with
  | none => rw [cString_of_indexZero h, Option.getD_none]
  | some i =>
      obtain ⟨hle, htake⟩ := take_indexZero h
      rw [← htake, List.length_take, Nat.min_eq_left hle, Option.getD_some]

theorem upTo_cString (b : Bytes) : upTo b (cString b).length = some (cString b) := by
  have hasciiz := asciiz_eq b
  unfold asciiz at hasciiz
  rw [← length_cString]
  cases h : indexZero b with
  | none =>
      rw [h] at hasciiz
      rw [Option.getD_none, upTo_eq (Nat.le_refl _), List.take_length]
      exact hasciiz
  | some i =>
      rw [h] at hasciiz
      exact hasciiz

/-- The loop over the dialects has the rest of them before it. -/
theorem negotiateDialects_eq (d : Bytes) (fuel : Nat) :
    ∀ n i, negotiateDialects d fuel n i = some (Edge.negotiateDialects fuel n (d.drop i)) := by
  induction fuel with
  | zero =>
      intro n i
      rfl
  | succ fuel ih =>
      intro n i
      rw [negotiateDialects]
      by_cases hi : i < d.length
      · have hdrop : d.drop i = d[i] :: d.drop (i + 1) := List.drop_eq_getElem_cons hi
        rw [if_pos hi, bind_eq (index_eq hi), hdrop, Edge.negotiateDialects]
        by_cases hformat : d[i] ≠ 0x02
        · rw [if_pos hformat, if_pos hformat, ih]
        · rw [if_neg hformat, if_neg hformat, bind_eq (suffix_eq hi), length_cString,
            bind_eq (upTo_cString _)]
          by_cases hdialect : cString (d.drop (i + 1)) = NT_LM_012
          · rw [if_pos hdialect, if_pos hdialect]
          · have hnext : i + (1 + (cString (d.drop (i + 1))).length + 1) =
                i + 1 + ((cString (d.drop (i + 1))).length + 1) := by omega
            rw [if_neg hdialect, if_neg hdialect, ih, hnext, List.drop_drop]
      · rw [if_neg hi, List.drop_eq_nil_of_le (Nat.le_of_not_lt hi)]
        rfl

@[simp] theorem length_le16 (n : Nat) : (le16 n).length = 2 := Bytes.length_ofNat 2 n

@[simp] theorem length_le32 (n : Nat) : (le32 n).length = 4 := Bytes.length_ofNat 4 n

@[simp] theorem length_le64 (n : Nat) : (le64 n).length = 8 := Bytes.length_ofNat 8 n

theorem negotiate_eq (r : Req) : negotiate r = some (Edge.negotiate r) := by
  rw [negotiate, bind_eq (negotiateDialects_eq _ _ _ _)]
  rw [bind_eq (fill_eq 0 (by simp [Tiled]) rfl (by simp))]
  simp [Edge.negotiate]

theorem sessionSetup_eq (w : World H) : sessionSetup w = some (Edge.sessionSetup w) := by
  rw [sessionSetup]
  rw [bind_eq (fill_eq 0 (by simp [Tiled, andX]) rfl (by simp [andX]))]
  simp [Edge.sessionSetup, andX]

variable {ops cfg}

theorem u32From_eq (least : Nat) (p : Bytes) (off : Nat) :
    u32From least p off = some (if least ≤ p.length then Edge.u32 p off else 0) := by
  unfold u32From
  split
  · exact u32_eq _ _
  · rfl

/-! ## Tables and trees -/

theorem evict_eq {κ α : Type} [BEq κ] (cap : Nat) (t : Aged κ α) :
    evict cap t = some (t.evict cap) := by
  have hloop : ∀ (age : List κ) (entries : List (κ × α)),
      evictOldest cap age.length age entries = some (Aged.evictFrom cap age entries) := by
    intro age
    induction age with
    | nil =>
        intro entries
        rfl
    | cons oldest age ih =>
        intro entries
        rw [List.length_cons, evictOldest, Aged.evictFrom]
        by_cases hfull : cap ≤ entries.length
        · rw [if_pos ⟨Nat.succ_pos _, hfull⟩, if_pos hfull, bind_eq (index_zero_cons oldest age),
            bind_eq (suffix_one_cons oldest age), bind_eq (ih _)]
        · rw [if_neg fun h => hfull h.2, if_neg hfull]
  exact hloop t.age t.entries

theorem treeName_eq (r : Req) : treeName r = some (Edge.treeName r) := by
  have hpwlen : passwordLength r = some (if 4 ≤ r.wordcount then Edge.u16 r.params 6 else 1) := by
    unfold passwordLength
    split
    · exact u16_eq _ _
    · rfl
  rw [treeName, bind_eq hpwlen, Edge.treeName]
  generalize (if 4 ≤ r.wordcount then Edge.u16 r.params 6 else 1) = pwlen
  have hsuffix : suffix r.data (if r.data.length < pwlen then r.data.length else pwlen) =
      some (r.data.drop pwlen) := by
    split
    · rw [suffix_eq (Nat.le_refl _), List.drop_length, List.drop_eq_nil_of_le (by omega)]
    · exact suffix_eq (by omega)
  rw [bind_eq hsuffix, bind_eq (asciiz_eq _)]
  exact index_splitOn BACKSLASH _

theorem treeConnect_eq (r : Req) (w : World H) :
    treeConnect ops cfg r w = some (Edge.treeConnect ops cfg r w) := by
  have hp : fill 6 (andX ++ [(4, le16 1)]) = some ([ComNone, 0] ++ le16 0 ++ le16 1) :=
    fill_eq 0 (by simp [Tiled, andX]) (by simp [andX]) (by simp)
  rw [treeConnect, bind_eq (treeName_eq r)]
  dsimp only
  rw [bind_eq (evict_eq _ _), bind_eq hp, Edge.treeConnect]
  dsimp only
  split
  · rfl
  · cases shareNamed ops cfg (Edge.treeName r) with
    | none => rfl
    | some share => rfl

/-! ## Handlers of files -/

theorem addFile_eq (w : World H) (path : String) (fh : Option Nat) (isDir : Bool) (size : Nat) :
    addFile w path fh isDir size = some (Edge.addFile w path fh isDir size) := by
  rw [addFile, bind_eq (evict_eq _ _)]
  rfl

theorem openFile_eq (w : World H) (path : String) (size : Nat) :
    openFile w path size = some (Edge.openFile w path size) := addFile_eq _ _ _ _ _

theorem openAndX_eq (r : Req) (w : World H) : openAndX ops r w = some (Edge.openAndX ops r w) := by
  unfold openAndX Edge.openAndX
  cases w.conn.shareForTID r with
  | none => rfl
  | some share =>
      dsimp only
      rw [bind_eq (asciiz_eq _)]
      cases ops.resolve w.host share (cString r.data) false with
      | none => rfl
      | some local_ =>
          dsimp only
          cases ops.stat w.host local_ with
          | error _ => rfl
          | ok info =>
              dsimp only
              split
              · rfl
              split
              · rw [bind_eq (openFile_eq _ _ _)]
                rw [bind_eq (fill_eq 0 (by simp [Tiled, andX]) rfl (by simp [andX]))]
                simp [andX]
              · rfl

theorem openCreated_eq (w : World H) (path : String) (action : Nat) :
    openCreated ops w path action = some (Edge.openCreated ops w path action) := by
  unfold openCreated Edge.openCreated
  cases ops.stat w.host path with
  | error _ => rfl
  | ok info =>
      dsimp only
      split
      · rw [bind_eq (addFile_eq _ _ _ _ _)]
      split
      · rw [bind_eq (openFile_eq _ _ _)]
      · rfl

theorem trimFirst_eq (b : UInt8) (raw : Bytes) :
    trimFirst b raw = some (if raw.head? = some b then raw.tail else raw) := by
  unfold trimFirst
  cases raw with
  | nil => rfl
  | cons first rest =>
      rw [List.length_cons, if_pos (Nat.succ_pos _), bind_eq (index_zero_cons first rest)]
      by_cases h : first = b
      · rw [if_pos h, suffix_one_cons, List.head?_cons, if_pos (congrArg some h), List.tail_cons]
      · rw [if_neg h, List.head?_cons, if_neg fun hb => h (Option.some.inj hb)]

theorem ntCreateAndX_eq (r : Req) (w : World H) :
    ntCreateAndX ops cfg r w = some (Edge.ntCreateAndX ops cfg r w) := by
  unfold ntCreateAndX Edge.ntCreateAndX
  cases w.conn.shareForTID r with
  | none => rfl
  | some share =>
      dsimp only
      by_cases hshort : r.params.length < 39
      · rw [if_pos hshort, if_pos hshort]
      rw [if_neg hshort, if_neg hshort]
      rw [bind_eq (u16_eq _ _), bind_eq (u32_eq _ _), bind_eq (u32From_eq _ _ _)]
      cases dispositionOf (Edge.u32 r.params 35) with
      | none => rfl
      | some disposition =>
          dsimp only
          rw [bind_eq (trimFirst_eq _ _)]
          generalize (if r.data.head? = some 0 then r.data.tail else r.data) = raw
          generalize Edge.u16 r.params 5 = nameLen
          have hnamed : upTo raw (if raw.length < nameLen then raw.length else nameLen) =
              some (raw.take nameLen) := by
            split
            · rw [upTo_eq (Nat.le_refl _), List.take_length, List.take_of_length_le (by omega)]
            · exact upTo_eq (by omega)
          rw [bind_eq hnamed, bind_eq (asciiz_eq _)]
          cases ops.resolve w.host share (cString (raw.take nameLen)) true with
          | none => rfl
          | some local_ =>
              dsimp only
              generalize (if 43 ≤ r.params.length then Edge.u32 r.params 39 else 0) = options
              cases ntCreate ops cfg w local_ disposition (options &&& 1 != 0) with
              | mk result w =>
                  cases result with
                  | error status => rfl
                  | ok action => exact openCreated_eq w local_ action

/-- What `io.ReaderAt` promises: no more is read than there is room for. -/
def ReadsWithin (ops : Ops H) : Prop :=
  ∀ host fh offset count, (ops.readAt host fh offset count).length ≤ count

theorem chunkOf_eq (hreads : ReadsWithin ops) (w : World H) (fh : Nat) (offset : Int) (count : Nat) :
    chunkOf ops w fh offset count =
      some (if 0 < count then ops.readAt w.host fh offset count else []) := by
  unfold chunkOf
  split
  · have hread : (ops.readAt w.host fh offset count).length ≤ count := hreads _ _ _ _
    dsimp only
    generalize ops.readAt w.host fh offset count = read at hread
    have hbuf : (read ++ List.replicate (count - read.length) 0).length = count := by
      rw [List.length_append, List.length_replicate]
      omega
    rw [List.take_of_length_le (Nat.le_of_eq hbuf), upTo_eq (by omega), List.take_left]
  · rfl

theorem readAndX_eq (hreads : ReadsWithin ops) (r : Req) (w : World H) :
    readAndX ops r w = some (Edge.readAndX ops r w) := by
  unfold readAndX Edge.readAndX
  dsimp only
  rw [bind_eq (u16_eq _ _), bind_eq (u32_eq _ _), bind_eq (u16_eq _ _), bind_eq (u16_eq _ _),
    bind_eq (u32From_eq _ _ _)]
  cases (w.conn.files.entries.lookup (UInt16.ofNat (Edge.u16 r.params 4))).bind OpenFile.fh with
  | none => rfl
  | some fh =>
      dsimp only
      rw [bind_eq (chunkOf_eq hreads _ _ _ _),
        bind_eq (fill_eq 6 (by simp [Tiled, andX]) rfl (by simp [andX]))]
      simp [andX]

/-- However the offset and the count of a client add up, the slice lies in the message. -/
theorem slice_eq (width : Nat) (msg : Bytes) (off n : Int) :
    slice width msg off n = some (sliceIn width msg off n) := by
  unfold slice sliceIn
  split
  · rfl
  · rename_i hstart
    obtain ⟨hoff, hlength, -⟩ : 0 ≤ off ∧ off ≤ msg.length ∧ 0 < n := by omega
    dsimp only
    generalize hend : (if (msg.length : Int) < int width (off + n) ∨ int width (off + n) < off then
      (msg.length : Int) else int width (off + n)) = end_
    have hrange : off ≤ end_ ∧ end_ ≤ msg.length := by
      rw [← hend]
      split <;> omega
    rw [between, if_pos ⟨hoff, hrange.1, hrange.2⟩]
    rfl

theorem writeAndX_eq (width : Nat) (r : Req) (w : World H) :
    writeAndX ops cfg width r w = some (writeAndXIn ops cfg width r w) := by
  unfold writeAndX writeAndXIn writeOf
  split
  · rfl
  · dsimp only
    rw [bind_eq (u16_eq _ _), bind_eq (u32_eq _ _), bind_eq (u16_eq _ _), bind_eq (u16_eq _ _),
      bind_eq (u16_eq _ _), bind_eq (u32From_eq _ _ _)]
    cases w.conn.files.entries.lookup (UInt16.ofNat (Edge.u16 r.params 4)) with
    | none => rfl
    | some file =>
        dsimp only [Option.bind_some]
        rw [bind_eq (slice_eq _ _ _ _)]
        split
        · change _ = some (writeReply w (ops.writeAt w.host file.path _ (payloadIn width r)))
          have hpayload : sliceIn width r.msg (Edge.u16 r.params 22)
              (int width (Edge.u16 r.params 20 + Edge.u16 r.params 18 * 0x10000 : Nat)) =
                payloadIn width r := rfl
          rw [hpayload]
          generalize ops.writeAt w.host file.path _ (payloadIn width r) = result
          obtain ⟨host, written⟩ := result
          cases written with
          | none => rfl
          | some written =>
              dsimp only
              rw [bind_eq (fill_eq 0 (by simp [Tiled, andX]) rfl (by simp [andX]))]
              simp [andX, writeReply]
        · rfl

theorem removeAge_eq (age : List UInt16) (fid : UInt16) :
    removeAge age fid = some (age.erase fid) := by
  unfold removeAge
  cases h : age.idxOf? fid with
  | none => rw [List.erase_eq_eraseIdx, h]
  | some i =>
      obtain ⟨hi, herase⟩ := slice_erase h
      dsimp only
      rw [bind_eq (upTo_eq (by omega)), bind_eq (suffix_eq hi), herase]

theorem closeFile_eq (r : Req) (w : World H) : closeFile r w = some (Edge.closeFile r w) := by
  unfold closeFile Edge.closeFile
  dsimp only
  rw [bind_eq (u16_eq _ _)]
  unfold Aged.remove
  cases hfile : w.conn.files.entries.lookup (UInt16.ofNat (Edge.u16 r.params 0)) with
  | none => simp [World.closeAll, hfile]
  | some file =>
      dsimp only
      rw [bind_eq (removeAge_eq _ _)]
      simp [World.closeAll, hfile]

theorem createDirectory_eq (r : Req) (w : World H) :
    createDirectory ops cfg r w = some (Edge.createDirectory ops cfg r w) := by
  unfold createDirectory Edge.createDirectory
  split
  · rfl
  cases w.conn.shareForTID r with
  | none => rfl
  | some share =>
      dsimp only
      rw [bind_eq (trimFirst_eq _ _), bind_eq (asciiz_eq _)]
      cases ops.resolve w.host share
          (cString (if r.data.head? = some 0x04 then r.data.tail else r.data)) true with
      | none => rfl
      | some local_ =>
          dsimp only
          cases ops.stat w.host local_ with
          | ok _ => rfl
          | error e =>
              cases ops.stat w.host (ops.dirname local_) with
              | error _ => cases e <;> rfl
              | ok parent =>
                  cases e with
                  | notExist =>
                      dsimp only
                      split
                      · rfl
                      · cases ops.mkdir w.host local_ with
                        | ok host => rfl
                        | error e => cases e <;> rfl
                  | _ => rfl

theorem checkDirectory_eq (r : Req) (w : World H) :
    checkDirectory ops r w = some (Edge.checkDirectory ops r w) := by
  unfold checkDirectory Edge.checkDirectory
  cases w.conn.shareForTID r with
  | none => rfl
  | some share =>
      dsimp only
      rw [bind_eq (asciiz_eq _)]
      cases ops.resolve w.host share (orRoot (cString r.data)) false with
      | none => rfl
      | some local_ =>
          dsimp only
          cases ops.stat w.host local_ with
          | ok info => rfl
          | error _ => rfl

/-! ## Transactions -/

theorem searchDir_eq (pattern : Bytes) : searchDir pattern = some (Smb1.searchDir pattern) := by
  unfold searchDir Smb1.searchDir
  dsimp only
  split
  · exact upTo_eq (Nat.sub_le _ _)
  split
  · exact upTo_eq (Nat.sub_le _ _)
  · rfl

theorem findFirst2_eq (r : Req) (tParams : Bytes) (w : World H) :
    findFirst2 ops r tParams w = some (Edge.findFirst2 ops r tParams w) := by
  unfold findFirst2 Edge.findFirst2
  split
  · rfl
  rename_i hlong
  rw [bind_eq (suffix_eq (Nat.le_of_not_lt hlong)), bind_eq (asciiz_eq _)]
  cases w.conn.shareForTID r with
  | none => rfl
  | some share =>
      dsimp only
      rw [bind_eq (searchDir_eq _)]
      cases ops.resolve w.host share (orRoot (Smb1.searchDir (cString (tParams.drop 12)))) false with
      | none => rfl
      | some local_ =>
          dsimp only
          cases ops.stat w.host local_ with
          | error _ => rfl
          | ok info =>
              cases ops.readDirNames w.host local_ with
              | none => rfl
              | some names =>
                  dsimp only
                  split
                  · rw [bind_eq (evict_eq _ _), bind_eq (index_zero_cons _ _)]
                    rfl
                  · rfl

theorem findNext2_eq (tParams : Bytes) (w : World H) :
    findNext2 ops tParams w = some (Edge.findNext2 ops tParams w) := by
  unfold findNext2 Edge.findNext2
  dsimp only
  rw [bind_eq (u16_eq _ _)]
  cases w.conn.searches.entries.lookup (UInt16.ofNat (Edge.u16 tParams 0)) with
  | none => rfl
  | some search =>
      dsimp only
      by_cases hdone : search.entries.length ≤ search.cursor
      · rw [if_pos hdone, List.getElem?_eq_none hdone]
      · have hlt : search.cursor < search.entries.length := Nat.lt_of_not_le hdone
        have heos : (search.cursor = search.entries.length - 1) =
            (search.cursor + 1 = search.entries.length) := by
          apply propext
          omega
        rw [if_neg hdone, bind_eq (index_eq hlt), List.getElem?_eq_getElem hlt]
        simp only [heos]

theorem queryPathInfo_eq (r : Req) (tParams : Bytes) (w : World H) :
    queryPathInfo ops r tParams w = some (Edge.queryPathInfo ops r tParams w) := by
  unfold queryPathInfo Edge.queryPathInfo
  rw [bind_eq (u16_eq _ _)]
  split
  · rfl
  rename_i hlong
  rw [bind_eq (suffix_eq (Nat.le_of_not_lt hlong)), bind_eq (asciiz_eq _)]
  cases w.conn.shareForTID r with
  | none => rfl
  | some share =>
      dsimp only
      cases ops.resolve w.host share (orRoot (cString (tParams.drop 6))) false with
      | none => rfl
      | some local_ =>
          dsimp only
          cases ops.stat w.host local_ with
          | ok info => rfl
          | error _ => rfl

theorem setupOf_eq (p : Bytes) :
    setupOf p = some (if 1 ≤ (p.getD 26 0).toNat then Edge.u16 p 28 else 0) := by
  unfold setupOf
  by_cases h : 26 < p.length
  · rw [if_pos h, bind_eq (index_eq h), List.getD_eq_getElem?_getD, List.getElem?_eq_getElem h,
      Option.getD_some]
    split
    · exact u16_eq _ _
    · rfl
  · rw [if_neg h, List.getD_eq_getElem?_getD, List.getElem?_eq_none (Nat.le_of_not_lt h)]
    rfl

theorem trans2_eq (width : Nat) (r : Req) (w : World H) :
    trans2 ops width r w = some (trans2In ops width r w) := by
  unfold trans2 trans2In
  dsimp only
  rw [bind_eq (u16_eq _ _), bind_eq (u16_eq _ _), bind_eq (u16_eq _ _), bind_eq (u16_eq _ _),
    bind_eq (setupOf_eq _), bind_eq (slice_eq _ _ _ _), bind_eq (slice_eq _ _ _ _)]
  split
  · exact findFirst2_eq _ _ _
  · exact findNext2_eq _ _
  · rw [bind_eq (queryPathInfo_eq _ _ _)]
  · rfl

theorem trans2Setup_eq (r : Req) :
    trans2Setup r = some (if 1 ≤ (r.params.getD 26 0).toNat ∧ 30 ≤ r.params.length then
      Edge.u16 r.params 28 else 0xFFFF) := by
  unfold trans2Setup
  by_cases h : 26 < r.params.length
  · rw [if_pos h, bind_eq (index_eq h), List.getD_eq_getElem?_getD, List.getElem?_eq_getElem h,
      Option.getD_some]
    split
    · exact u16_eq _ _
    · rfl
  · rw [if_neg h, if_neg fun hsetup => h (by omega)]

/-! ## Every request -/

theorem dispatch_eq (hreads : ReadsWithin ops) (width : Nat) (r : Req) (w : World H) :
    dispatch ops cfg width r w = some (dispatchIn ops cfg width r w) := by
  unfold dispatch dispatchIn Edge.dispatch
  cases r.cmd with
  | negotiate => simp [negotiate_eq]
  | sessionSetupAndx => exact sessionSetup_eq w
  | treeConnectAndx => exact treeConnect_eq r w
  | createDirectory => exact createDirectory_eq r w
  | openAndx => exact openAndX_eq r w
  | ntCreateAndx => exact ntCreateAndX_eq r w
  | readAndx => simp [readAndX_eq hreads]
  | writeAndx => exact writeAndX_eq width r w
  | close => exact closeFile_eq r w
  | checkDirectory => simp [checkDirectory_eq]
  | trans2 => exact trans2_eq width r w
  | echo =>
      dsimp only
      rw [echo, bind_eq (fill_eq 0 (by simp [Tiled]) rfl (by simp))]
      simp
  | queryInformationDisk =>
      dsimp only
      rw [queryInformationDisk, bind_eq (fill_eq 0 (by simp [Tiled]) rfl (by simp))]
      simp
  | _ => rfl

/-- On every message and every connection, parsing and dispatching it come to an end within the bounds
of what they index and slice, and to what the model without bounds comes to. -/
theorem receive_in_bounds (hreads : ReadsWithin ops) (width : Nat) (msg : Bytes) (w : World H) :
    receive ops cfg width msg w = some (receiveIn ops cfg width msg w) := by
  unfold receive receiveIn
  rw [bind_eq (parseReq_eq msg)]
  cases Edge.parseReq msg with
  | none => rfl
  | some r =>
      dsimp only
      rw [bind_eq (dispatch_eq hreads width r w)]
      split
      · rw [bind_eq (trans2Setup_eq r)]
      · rfl

/-- A host whose file holds four bytes. -/
def holdsFour : Ops Unit :=
  { oneFile with readAt _ _ offset count := Bytes.sub [1, 2, 3, 4] offset.toNat count }

/-- A READ_ANDX from the third byte on, of as many bytes as can be asked for. -/
def readRest : Bytes :=
  clientMessage 0x2e 2 (List.replicate 4 0 ++ le16 0x1001 ++ le32 2 ++ le16 0xFFFF ++ le16 0 ++
    le16 0xFFFF ++ List.replicate 8 0) []

theorem receive_in_bounds_read :
    receive holdsFour oneShare 32 readRest fileOpened =
        some (receiveIn holdsFour oneShare 32 readRest fileOpened) ∧
      (receiveIn holdsFour oneShare 32 readRest fileOpened).1.map Reply.data = some [3, 4] :=
  ⟨receive_in_bounds (fun _ _ _ _ => Bytes.sub_length_le _ _ _) 32 readRest fileOpened,
    by decide +kernel⟩

end Checked

end Ps2Servers.Smb1.Edge
