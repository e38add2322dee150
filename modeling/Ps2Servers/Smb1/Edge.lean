import Ps2Servers.Lib.Aged
import Ps2Servers.Smb1.Server

/-!
# The SMBv1 server of Edge

One connection of the Go server: the trees, open files and searches it keeps, each with the list
that says which came first, and the commands it serves. A connection keeps so many of each; when
one comes over that, the oldest goes.

## Implementation notes

The calls on the host are collected in `Ops`, as for the Python server. Files of the system are
numbered as they are opened, and the numbers of those closed are kept, which the server does not
do. Neither does it count the opens it has answered; an open file knows its own place among them.
-/

namespace Ps2Servers.Smb1.Edge

def MaxSearches : Nat := 16

def MaxOpenFiles : Nat := 64

def MaxTrees : Nat := 16

/-- Why a call on the host failed, as far as a handler tells. -/
inductive HostError
  | exists
  | notExist
  | other
  deriving DecidableEq, Repr

/-- The calls on the host. -/
structure Ops (H : Type) where
  /-- `strings.ToLower`. -/
  lower : Bytes → Bytes
  /-- `Share.resolve`. -/
  resolve : H → Share → Bytes → Bool → Option String
  stat : H → String → Except HostError Info
  /-- `os.Open`. -/
  openRead : H → String → Bool
  /-- `fh.ReadAt` of a file by its number. -/
  readAt : H → Nat → Int → Nat → Bytes
  readDirNames : H → String → Option (List String)
  dirname : String → String
  join : String → String → String
  /-- `os.OpenFile` with `O_TRUNC`, and whether the file was closed without an error. -/
  truncate : H → String → Except HostError (H × Bool)
  /-- `os.OpenFile` with `O_CREATE|O_EXCL`, and whether the file was closed without an error. -/
  createFile : H → String → Except HostError (H × Bool)
  mkdir : H → String → Except HostError H
  /-- `os.OpenFile` for writing. -/
  openWrite : H → String → Bool
  /-- `fh.WriteAt` and `fh.Close`: the bytes written, if both succeed. -/
  writeAt : H → String → Int → Bytes → H × Option Nat

structure Config where
  /-- The shares by their names in lower case. -/
  shares : List (Bytes × Share)
  readOnly : Bool
  deriving DecidableEq, Repr

/-- `openFile`. A directory has no file of the system. -/
structure OpenFile where
  path : String
  fh : Option Nat
  isDir : Bool
  size : Nat
  /-- The place of the open that made it. -/
  opening : Nat
  deriving DecidableEq, Repr

/-- `conn`: each table stands with its age list. -/
structure Conn where
  uid : UInt16
  nextFID : UInt16
  nextTID : UInt16
  nextSID : UInt16
  trees : Aged UInt16 Share
  files : Aged UInt16 OpenFile
  searches : Aged UInt16 Search
  deriving DecidableEq, Repr

def Conn.new : Conn := ⟨0, 0x1000, 1, 1, .empty, .empty, .empty⟩

structure World (H : Type) where
  host : H
  conn : Conn
  /-- How many files of the system have been opened. -/
  opened : Nat
  closed : List Nat
  /-- How many opens were answered with a FID. -/
  opens : Nat
  deriving DecidableEq, Repr

def World.new {H : Type} (host : H) : World H := ⟨host, Conn.new, 0, [], 0⟩

/-! ## Requests -/

/-- `u16`, which is 0 where the bytes end before. -/
def u16 (b : Bytes) (off : Nat) : Nat := if off + 2 ≤ b.length then b.field off 2 else 0

def u32 (b : Bytes) (off : Nat) : Nat := if off + 4 ≤ b.length then b.field off 4 else 0

/-- `int64(low) | int64(high)<<32`. -/
def offset64 (low high : Nat) : Int := (low + high * 0x100000000 : Int).bmod 0x10000000000000000

def le16 (n : Nat) : Bytes := Bytes.ofNat 2 n

def le32 (n : Nat) : Bytes := Bytes.ofNat 4 n

def le64 (n : Nat) : Bytes := Bytes.ofNat 8 n

def flag (b : Bool) : Bytes := if b then [1] else [0]

def ComNone : UInt8 := 0xFF

/-- `allocFID`, `allocTID` and `allocSID`. -/
def alloc (next start : UInt16) : UInt16 := if next + 1 = 0 then start else next + 1

section Handlers

variable {H : Type} (ops : Ops H) (cfg : Config)

/-- A file of the system is opened and closed at once. -/
def World.transient (w : World H) : World H :=
  { w with opened := w.opened + 1, closed := w.closed ++ [w.opened] }

/-- `openFile.close` of each. -/
def World.closeAll (w : World H) (files : List OpenFile) : World H :=
  { w with closed := w.closed ++ files.filterMap OpenFile.fh }

/-! ## Sessions and trees -/

def negotiateDialects (fuel n : Nat) (d : Bytes) : Nat :=
  match fuel, d with
  | fuel + 1, b :: rest =>
      if b ≠ 0x02 then negotiateDialects fuel (n + 1) rest
      else if cString rest = NT_LM_012 then n
      else negotiateDialects fuel (n + 1) (rest.drop ((cString rest).length + 1))
  | _, _ => 0

def negotiate (r : Req) : Reply :=
  .done (le16 (negotiateDialects r.data.length 0 r.data) ++ [0] ++ le16 1 ++ le16 1 ++ le32 65535 ++
    le32 65536 ++ le32 0 ++ le32 SERVER_CAPS ++ le64 0 ++ le16 0 ++ [0]) "WORKGROUP\x00".toUTF8.toList

def sessionSetup (w : World H) : Reply × World H :=
  let uid := if w.conn.uid = 0 then 0x0800 else w.conn.uid
  (⟨[ComNone, 0] ++ le16 0 ++ le16 1, "OPLSMB\x00OPLSMB\x00".toUTF8.toList, STATUS_SUCCESS,
      some uid.toNat, none⟩,
    { w with conn := { w.conn with uid := uid } })

/-- The last component of the path of a TREE_CONNECT. -/
def treeName (r : Req) : Bytes :=
  let pwlen := if 4 ≤ r.wordcount then u16 r.params 6 else 1
  let path := rstrip BACKSLASH (backslashes (cString (r.data.drop pwlen)))
  (path.reverse.takeWhile (· ≠ BACKSLASH)).reverse

/-- The share of a name. A server with one share takes any name for it. -/
def shareNamed (name : Bytes) : Option Share :=
  match cfg.shares.lookup (ops.lower name) with
  | some share => some share
  | none =>
      match cfg.shares with
      | [(_, only)] => some only
      | _ => none

def treeConnect (r : Req) (w : World H) : Reply × World H :=
  let name := treeName r
  let tid := alloc w.conn.nextTID 1
  let trees := (w.conn.trees.evict MaxTrees).1
  let connected (service : Bytes) : Reply :=
    ⟨[ComNone, 0] ++ le16 0 ++ le16 1, service ++ "NTFS\x00".toUTF8.toList, STATUS_SUCCESS, none,
      some tid.toNat⟩
  if name.map upperByte = "IPC$".toUTF8.toList then
    (connected "IPC\x00".toUTF8.toList,
      { w with conn := { w.conn with nextTID := tid, trees := trees } })
  else
    match shareNamed ops cfg name with
    | none =>
        (.fail STATUS_OBJECT_NAME_NOT_FOUND,
          { w with conn := { w.conn with nextTID := tid, trees := trees } })
    | some share =>
        (connected "A:\x00".toUTF8.toList,
          { w with conn := { w.conn with nextTID := tid, trees := trees.put tid share } })

/-- `dropSearches`. -/
def Conn.dropSearches (c : Conn) : Conn := { c with searches := .empty }

/-- A TREE_DISCONNECT in `dispatch`. -/
def treeDisconnect (r : Req) (w : World H) : Reply × World H :=
  let trees := w.conn.trees.delete (UInt16.ofNat r.tid)
  (.done [] [], { w with conn := { w.conn with trees := trees }.dropSearches })

def logoff (w : World H) : Reply × World H :=
  (.done [ComNone, 0, 0, 0] [], { w with conn := w.conn.dropSearches })

def Conn.shareForTID (c : Conn) (r : Req) : Option Share :=
  c.trees.entries.lookup (UInt16.ofNat r.tid)

/-! ## Files -/

/-- A file gets a FID; the oldest ones go to make room. -/
def addFile (w : World H) (path : String) (fh : Option Nat) (isDir : Bool) (size : Nat) :
    UInt16 × World H :=
  let fid := alloc w.conn.nextFID 0x1000
  let evicted := w.conn.files.evict MaxOpenFiles
  let files := evicted.1.put fid ⟨path, fh, isDir, size, w.opens + 1⟩
  (fid, { w.closeAll evicted.2 with
    conn := { w.conn with nextFID := fid, files := files }, opens := w.opens + 1 })

/-- `os.Open` and the FID of the file. -/
def openFile (w : World H) (path : String) (size : Nat) : UInt16 × World H :=
  addFile { w with opened := w.opened + 1 } path (some w.opened) false size

def openAndX (r : Req) (w : World H) : Reply × World H :=
  match w.conn.shareForTID r with
  | none => (.fail STATUS_OBJECT_NAME_NOT_FOUND, w)
  | some share =>
      match ops.resolve w.host share (cString r.data) false with
      | none => (.fail STATUS_OBJECT_NAME_NOT_FOUND, w)
      | some local_ =>
          match ops.stat w.host local_ with
          | .error _ => (.fail STATUS_OBJECT_NAME_NOT_FOUND, w)
          | .ok info =>
              if info.isDir then (.fail STATUS_OBJECT_NAME_NOT_FOUND, w)
              else if ops.openRead w.host local_ then
                let (fid, w) := openFile w local_ info.size
                (.done ([ComNone, 0] ++ le16 0 ++ le16 fid.toNat ++ le16 0 ++ le32 0 ++
                  le32 info.size ++ le16 0 ++ le16 0 ++ le16 0 ++ le16 1 ++ le32 0 ++ le16 0) [], w)
              else (.fail STATUS_OBJECT_NAME_NOT_FOUND, w)

/-- The part of `ntCreateAndX` that changes the host: the action taken, or the status of the
refusal, and what it left. -/
def ntCreate (w : World H) (path : String) (disposition : Disposition) (requestedDir : Bool) :
    Except Status Nat × World H :=
  match ops.stat w.host path with
  | .ok info =>
      if disposition = .create then (.error STATUS_OBJECT_NAME_COLLISION, w)
      else if requestedDir && !info.isDir then (.error STATUS_ACCESS_DENIED, w)
      else if disposition.truncates then
        if cfg.readOnly || info.isDir then (.error STATUS_ACCESS_DENIED, w)
        else
          match ops.truncate w.host path with
          | .error _ => (.error STATUS_ACCESS_DENIED, w)
          | .ok (host, closed) =>
              (if closed then .ok (if disposition = .supersede then 0 else 3)
                else .error STATUS_ACCESS_DENIED, { w.transient with host := host })
      else (.ok 1, w)
  | .error .notExist =>
      if disposition = .open_ ∨ disposition = .overwrite then
        (.error STATUS_OBJECT_NAME_NOT_FOUND, w)
      else if cfg.readOnly then (.error STATUS_ACCESS_DENIED, w)
      else
        match ops.stat w.host (ops.dirname path) with
        | .error _ => (.error STATUS_OBJECT_NAME_NOT_FOUND, w)
        | .ok parent =>
            if !parent.isDir then (.error STATUS_OBJECT_NAME_NOT_FOUND, w)
            else if requestedDir then
              match ops.mkdir w.host path with
              | .error .exists => (.error STATUS_OBJECT_NAME_COLLISION, w)
              | .error _ => (.error STATUS_ACCESS_DENIED, w)
              | .ok host => (.ok 2, { w with host := host })
            else
              match ops.createFile w.host path with
              | .error .exists => (.error STATUS_OBJECT_NAME_COLLISION, w)
              | .error _ => (.error STATUS_ACCESS_DENIED, w)
              | .ok (host, closed) =>
                  (if closed then .ok 2 else .error STATUS_ACCESS_DENIED,
                    { w.transient with host := host })
  | .error _ => (.error STATUS_ACCESS_DENIED, w)

/-- The reply of `ntCreateAndX`. -/
def createReply (fid : UInt16) (action : Nat) (info : Info) (size : Nat) : Reply :=
  let t := le64 info.filetime
  let p := [ComNone, 0] ++ le16 0 ++ [0] ++ le16 fid.toNat ++ le32 action ++ t ++ t ++ t ++ t ++
    le32 (attributes info.isDir) ++ le64 size ++ le64 size ++ le16 0 ++ le16 0 ++ flag info.isDir
  .done (if p.length % 2 = 0 then p else p ++ [0]) []

/-- The part of `ntCreateAndX` that opens what is there by then. -/
def openCreated (w : World H) (path : String) (action : Nat) : Reply × World H :=
  match ops.stat w.host path with
  | .error _ => (.fail STATUS_ACCESS_DENIED, w)
  | .ok info =>
      if info.isDir then
        let (fid, w) := addFile w path none true 0
        (createReply fid action info 0, w)
      else if ops.openRead w.host path then
        let (fid, w) := openFile w path info.size
        (createReply fid action info info.size, w)
      else (.fail STATUS_ACCESS_DENIED, w)

def ntCreateAndX (r : Req) (w : World H) : Reply × World H :=
  match w.conn.shareForTID r with
  | none => (.fail STATUS_OBJECT_NAME_NOT_FOUND, w)
  | some share =>
      let requested := if r.params.length < 39 then none else dispositionOf (u32 r.params 35)
      match requested with
      | none => (.fail STATUS_ACCESS_DENIED, w)
      | some disposition =>
          let options := if 43 ≤ r.params.length then u32 r.params 39 else 0
          let raw := if r.data.head? = some 0 then r.data.tail else r.data
          let name := cString (raw.take (u16 r.params 5))
          match ops.resolve w.host share name true with
          | none => (.fail STATUS_ACCESS_DENIED, w)
          | some local_ =>
              match ntCreate ops cfg w local_ disposition (options &&& 1 != 0) with
              | (.error status, w) => (.fail status, w)
              | (.ok action, w) => openCreated ops w local_ action

def readAndX (r : Req) (w : World H) : Reply :=
  let p := r.params
  let offHigh := if 24 ≤ p.length then u32 p 20 else 0
  let count := min (u16 p 10 + u16 p 14 * 0x10000) 0xFFFF
  match (w.conn.files.entries.lookup (UInt16.ofNat (u16 p 4))).bind OpenFile.fh with
  | none => .fail STATUS_OBJECT_NAME_NOT_FOUND
  | some fh =>
      let chunk := if 0 < count then ops.readAt w.host fh (offset64 (u32 p 6) offHigh) count else []
      .done ([ComNone, 0] ++ le16 0 ++ le16 0 ++ le16 0 ++ le16 0 ++ le16 (chunk.length % 0x10000) ++
        le16 59 ++ le32 (chunk.length / 0x10000) ++ List.replicate 6 0) chunk

/-- `slice`, of what was received. -/
def slice (r : Req) (off n : Nat) : Bytes := r.msg.sub off n

def writeAndX (r : Req) (w : World H) : Reply × World H :=
  if cfg.readOnly then (.fail STATUS_ACCESS_DENIED, w)
  else
    let p := r.params
    let offHigh := if 28 ≤ p.length then u32 p 24 else 0
    match w.conn.files.entries.lookup (UInt16.ofNat (u16 p 4)) with
    | none => (.fail STATUS_ACCESS_DENIED, w)
    | some file =>
        if ops.openWrite w.host file.path then
          let payload := slice r (u16 p 22) (u16 p 20 + u16 p 18 * 0x10000)
          let (host, written) := ops.writeAt w.host file.path (offset64 (u32 p 6) offHigh) payload
          (match written with
            | none => .fail STATUS_ACCESS_DENIED
            | some n => .done ([ComNone, 0] ++ le16 0 ++ le16 (n % 0x10000) ++ le16 0 ++ le16 0 ++
                le16 0) [],
            { w.transient with host := host })
        else (.fail STATUS_ACCESS_DENIED, w)

def closeFile (r : Req) (w : World H) : Reply × World H :=
  let fid := UInt16.ofNat (u16 r.params 0)
  let w := w.closeAll (w.conn.files.entries.lookup fid).toList
  (.done [] [], { w with conn := { w.conn with files := w.conn.files.remove fid } })

def createDirectory (r : Req) (w : World H) : Reply × World H :=
  if cfg.readOnly then (.fail STATUS_ACCESS_DENIED, w)
  else
    match w.conn.shareForTID r with
    | none => (.fail STATUS_OBJECT_NAME_NOT_FOUND, w)
    | some share =>
        let raw := if r.data.head? = some 0x04 then r.data.tail else r.data
        match ops.resolve w.host share (cString raw) true with
        | none => (.fail STATUS_ACCESS_DENIED, w)
        | some local_ =>
            match ops.stat w.host local_, ops.stat w.host (ops.dirname local_) with
            | .ok _, _ => (.fail STATUS_OBJECT_NAME_COLLISION, w)
            | .error .notExist, .ok parent =>
                if !parent.isDir then (.fail STATUS_OBJECT_NAME_NOT_FOUND, w)
                else
                  match ops.mkdir w.host local_ with
                  | .error .exists => (.fail STATUS_OBJECT_NAME_COLLISION, w)
                  | .error _ => (.fail STATUS_ACCESS_DENIED, w)
                  | .ok host => (.done [] [], { w with host := host })
            | .error .notExist, .error _ => (.fail STATUS_OBJECT_NAME_NOT_FOUND, w)
            | .error _, _ => (.fail STATUS_ACCESS_DENIED, w)

def checkDirectory (r : Req) (w : World H) : Reply :=
  match w.conn.shareForTID r with
  | none => .fail STATUS_OBJECT_NAME_NOT_FOUND
  | some share =>
      match ops.resolve w.host share (orRoot (cString r.data)) false with
      | none => .fail STATUS_OBJECT_NAME_NOT_FOUND
      | some local_ =>
          match ops.stat w.host local_ with
          | .ok info => if info.isDir then .done [] [] else .fail STATUS_OBJECT_NAME_NOT_FOUND
          | .error _ => .fail STATUS_OBJECT_NAME_NOT_FOUND

/-! ## Transactions -/

/-- `trans2Reply`. -/
def trans2Reply (tParams tData : Bytes) : Reply :=
  let paramOff := align4 55
  let dataOff := align4 (paramOff + tParams.length)
  .done (le16 tParams.length ++ le16 tData.length ++ le16 0 ++ le16 tParams.length ++
      le16 paramOff ++ le16 0 ++ le16 tData.length ++ le16 dataOff ++ le16 0 ++ [0, 0])
    (List.replicate (paramOff - 55) 0 ++ tParams ++
      List.replicate (dataOff - (paramOff + tParams.length)) 0 ++ tData)

/-- `dirEntry104`. -/
def dirEntry104 (host : H) (name local_ : String) : Bytes :=
  let (isDir, size, t) := match ops.stat host local_ with
    | .ok info => (info.isDir, if info.isDir then 0 else info.size, info.filetime)
    | .error _ => (name == "." || name == "..", 0, 0)
  let nb := name.toUTF8.toList
  le32 0 ++ le32 0 ++ le64 t ++ le64 t ++ le64 t ++ le64 t ++ le64 size ++ le64 size ++
    le32 (attributes isDir) ++ le32 nb.length ++ le32 0 ++ [0, 0] ++ List.replicate 24 0 ++ nb

def findFirst2 (r : Req) (tParams : Bytes) (w : World H) : Reply × World H :=
  if tParams.length < 12 then (.fail STATUS_OBJECT_NAME_NOT_FOUND, w)
  else
    match w.conn.shareForTID r with
    | none => (.fail STATUS_OBJECT_NAME_NOT_FOUND, w)
    | some share =>
        let dirPath := orRoot (searchDir (cString (tParams.drop 12)))
        match ops.resolve w.host share dirPath false with
        | none => (.fail STATUS_OBJECT_NAME_NOT_FOUND, w)
        | some local_ =>
            match ops.stat w.host local_, ops.readDirNames w.host local_ with
            | .ok info, some names =>
                if info.isDir then
                  let sorted := names.mergeSort fun a b => decide (a ≤ b)
                  let listed := sorted.map fun n => (n, ops.join local_ n)
                  let sid := alloc w.conn.nextSID 1
                  let search : Search := ⟨(".", local_) :: ("..", local_) :: listed, 1⟩
                  let searches := (w.conn.searches.evict MaxSearches).1.put sid search
                  let rp := le16 sid.toNat ++ le16 1 ++ le16 0 ++ le16 0 ++ le16 0
                  (trans2Reply rp (dirEntry104 ops w.host "." local_),
                    { w with conn := { w.conn with nextSID := sid, searches := searches } })
                else (.fail STATUS_OBJECT_NAME_NOT_FOUND, w)
            | _, _ => (.fail STATUS_OBJECT_NAME_NOT_FOUND, w)

def findNext2 (tParams : Bytes) (w : World H) : Reply × World H :=
  let sid := UInt16.ofNat (u16 tParams 0)
  let exhausted := trans2Reply (le16 0 ++ le16 1 ++ le16 0 ++ le16 0) []
  match w.conn.searches.entries.lookup sid with
  | none => (exhausted, w)
  | some search =>
      match search.entries[search.cursor]? with
      | none =>
          (exhausted, { w with conn := { w.conn with searches := w.conn.searches.delete sid } })
      | some (name, local_) =>
          let eos := if search.cursor + 1 = search.entries.length then 1 else 0
          let searches := w.conn.searches.update sid fun s => { s with cursor := s.cursor + 1 }
          (trans2Reply (le16 1 ++ le16 eos ++ le16 0 ++ le16 0) (dirEntry104 ops w.host name local_),
            { w with conn := { w.conn with searches := searches } })

def queryPathInfo (r : Req) (tParams : Bytes) (w : World H) : Reply :=
  if tParams.length < 6 then .fail STATUS_OBJECT_NAME_NOT_FOUND
  else
    match w.conn.shareForTID r with
    | none => .fail STATUS_OBJECT_NAME_NOT_FOUND
    | some share =>
        match ops.resolve w.host share (orRoot (cString (tParams.drop 6))) false with
        | none => .fail STATUS_OBJECT_NAME_NOT_FOUND
        | some local_ =>
            match ops.stat w.host local_ with
            | .error _ => .fail STATUS_OBJECT_NAME_NOT_FOUND
            | .ok info =>
                let size := if info.isDir then 0 else info.size
                let t := le64 info.filetime
                trans2Reply [] (if u16 tParams 0 = 0x0102 then
                  le64 size ++ le64 size ++ le32 0 ++ [0] ++ flag info.isDir ++ le16 0
                else t ++ t ++ t ++ t ++ le32 (attributes info.isDir) ++ le32 0)

def trans2 (r : Req) (w : World H) : Reply × World H :=
  let p := r.params
  let setup := if 1 ≤ (p.getD 26 0).toNat then u16 p 28 else 0
  let tParams := slice r (u16 p 20) (u16 p 18)
  match setup with
  | 0x01 => findFirst2 ops r tParams w
  | 0x02 => findNext2 ops tParams w
  | 0x05 => (queryPathInfo ops r tParams w, w)
  | _ => (.fail STATUS_NOT_IMPLEMENTED, w)

/-- `transaction`: the shares, whatever was asked. -/
def transaction : Reply :=
  let names := (cfg.shares.map fun s => s.2.name).mergeSort fun a b => decide (a ≤ b)
  let n := names.length
  let record (name : Bytes) (i : Nat) : Bytes :=
    name.take 13 ++ List.replicate (13 - name.length) 0 ++ [0] ++ le16 0 ++ le32 (20 * n + i)
  trans2Reply (le16 0 ++ le16 0 ++ le16 n ++ le16 n)
    ((names.zipIdx.flatMap fun e => record e.1 e.2) ++ List.replicate n 0)

/-- `dispatch`. -/
def dispatch (r : Req) (w : World H) : Reply × World H :=
  match r.cmd with
  | .negotiate => (negotiate r, w)
  | .sessionSetupAndx => sessionSetup w
  | .treeConnectAndx => treeConnect ops cfg r w
  | .treeDisconnect => treeDisconnect r w
  | .logoffAndx => logoff w
  | .createDirectory => createDirectory ops cfg r w
  | .openAndx => openAndX ops r w
  | .ntCreateAndx => ntCreateAndX ops cfg r w
  | .readAndx => (readAndX ops r w, w)
  | .writeAndx => writeAndX ops cfg r w
  | .close => closeFile r w
  | .echo => (.done (le16 1) r.data, w)
  | .queryInformationDisk =>
      (.done (le16 0xFFFF ++ le16 64 ++ le16 512 ++ le16 0xFFFF ++ le16 0) [], w)
  | .checkDirectory => (checkDirectory ops r w, w)
  | .trans2 => trans2 ops r w
  | .transaction => (transaction cfg, w)
  | .other _ => (.fail STATUS_NOT_IMPLEMENTED, w)

/-- What a request leaves of the connection. -/
def step (w : World H) (r : Req) : World H := (dispatch ops cfg r w).2

/-- `cleanup`. -/
def cleanup (w : World H) : World H :=
  { w.closeAll (w.conn.files.entries.map Prod.snd) with
    conn := { w.conn with trees := .empty, files := .empty, searches := .empty } }

end Handlers

end Ps2Servers.Smb1.Edge
