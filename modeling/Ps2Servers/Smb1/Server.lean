import Ps2Servers.Lib.Struct
import Ps2Servers.Lib.Effects

/-!
# The SMBv1 server

One connection of the SMBv1 server: its tables of trees, open files and searches,
and the sixteen commands it serves. A handler may raise, and what it does not
catch ends the connection.

## Implementation notes

The calls on the host are collected in `Ops`, over any type of host states. Names
are kept as the ASCII bytes a request carries. A time is the FILETIME that
`to_filetime` makes of it. Statistics, timing and log lines are left out. SMB2
frames, which the same port also answers, are not SMB1 messages and are left out.
-/

namespace Ps2Servers.Smb1

open Struct (Item)

abbrev Name := Bytes

structure Share where
  name : Name
  root : String
  deriving DecidableEq, Repr

/-- Why a call on the host failed, as far as a handler tells. -/
inductive HostError
  | exists
  | other
  deriving DecidableEq, Repr

/-- What `os.stat` shows of a path: directory or not, size, and time as a FILETIME. -/
structure Info where
  isDir : Bool
  isFile : Bool
  size : Nat
  filetime : Nat
  deriving DecidableEq, Repr

/-- The calls on the host. `H` is its state, `F` that of an open file object. -/
structure Ops (H F : Type) where
  /-- `Share.resolve`: the real path below the root, if it is there. -/
  resolve : H → Share → Name → Option String
  stat : H → String → Option Info
  /-- `os.path.getsize` and `open(path, "rb")`. -/
  openRead : H → String → Option F
  /-- `fh.seek(offset)` and `fh.read(count)`. -/
  readAt : H → F → Nat → Nat → Option (Bytes × F)
  readAt_length : ∀ {host file offset count chunk file'},
    readAt host file offset count = some (chunk, file') → chunk.length ≤ count
  listDir : H → String → Option (List String)
  dirname : String → String
  join : String → String → String
  /-- `open(path, "wb")`. -/
  truncate : H → String → Except HostError H
  /-- `open(path, "xb")`. -/
  createFile : H → String → Except HostError H
  mkdir : H → String → Except HostError H
  /-- `open(path, "r+b")`. -/
  openWrite : H → String → Bool
  /-- `w.seek(offset)` and `w.write(payload)` on the file opened, and its closing. -/
  writeAt : H → String → Nat → Bytes → Except HostError H

structure Config where
  shares : List Share
  /-- Accounts, casefolded, with their passwords. -/
  users : List (String × String)
  readOnly : Bool
  /-- `--smb-version`. -/
  smbVersion : Nat
  deriving DecidableEq, Repr

/-! ## Requests -/

def SMB_MAGIC : Bytes := [0xff, 0x53, 0x4d, 0x42]

def SMB2_MAGIC : Bytes := [0xfe, 0x53, 0x4d, 0x42]

/-- A message that is not an SMB2 frame. -/
abbrev Message := { msg : Bytes // msg.take 4 ≠ SMB2_MAGIC }

inductive Command
  | createDirectory
  | close
  | checkDirectory
  | transaction
  | echo
  | openAndx
  | readAndx
  | writeAndx
  | trans2
  | treeDisconnect
  | negotiate
  | sessionSetupAndx
  | logoffAndx
  | treeConnectAndx
  | queryInformationDisk
  | ntCreateAndx
  | other (code : Nat)
  deriving DecidableEq, Repr

def Command.ofNat : Nat → Command
  | 0x00 => createDirectory
  | 0x04 => close
  | 0x10 => checkDirectory
  | 0x25 => transaction
  | 0x2b => echo
  | 0x2d => openAndx
  | 0x2e => readAndx
  | 0x2f => writeAndx
  | 0x32 => trans2
  | 0x71 => treeDisconnect
  | 0x72 => negotiate
  | 0x73 => sessionSetupAndx
  | 0x74 => logoffAndx
  | 0x75 => treeConnectAndx
  | 0x80 => queryInformationDisk
  | 0xa2 => ntCreateAndx
  | n => other n

/-- `Req`. -/
structure Req where
  code : Nat
  tid : Nat
  pid : Nat
  uid : Nat
  mid : Nat
  wordcount : Nat
  params : Bytes
  data : Bytes
  msg : Bytes
  deriving DecidableEq, Repr

def Req.cmd (r : Req) : Command := Command.ofNat r.code

/-- `Req.__init__`. -/
def Req.ofMessage (msg : Bytes) : Req :=
  let wordcount := msg.field 32 1
  let at_ := 33 + wordcount * 2
  let byteCount := if at_ + 2 ≤ msg.length then msg.field at_ 2 else 0
  { code := msg.field 4 1
    tid := msg.field 24 2
    pid := msg.field 26 2
    uid := msg.field 28 2
    mid := msg.field 30 2
    wordcount := wordcount
    params := msg.sub 33 (wordcount * 2)
    data := msg.sub (at_ + 2) byteCount
    msg := msg }

/-- The request of a message, of at least 33 bytes and with the SMB1 magic. -/
def parseReq (msg : Bytes) : Option Req :=
  if msg.length < 33 ∨ msg.take 4 ≠ SMB_MAGIC then none else some (Req.ofMessage msg)

/-- `bytes.decode("ascii", "ignore")`. -/
def ascii (bytes : Bytes) : Name := bytes.filter (· < 0x80)

/-- The bytes before the first NUL, or all of them. -/
def cString (bytes : Bytes) : Bytes := bytes.takeWhile (· ≠ 0)

def toStr (name : Name) : String := String.ofList (name.map fun b => Char.ofNat b.toNat)

def lowerByte (b : UInt8) : UInt8 := if 0x41 ≤ b ∧ b ≤ 0x5a then b + 0x20 else b

def upperByte (b : UInt8) : UInt8 := if 0x61 ≤ b ∧ b ≤ 0x7a then b - 0x20 else b

def SLASH : UInt8 := 0x2f

def BACKSLASH : UInt8 := 0x5c

def STAR : UInt8 := 0x2a

/-- `name.replace("/", "\\")`. -/
def backslashes (name : Name) : Name := name.map fun b => if b = SLASH then BACKSLASH else b

/-- `bytes.rstrip(b)`. -/
def rstrip (b : UInt8) (bytes : Bytes) : Bytes := (bytes.reverse.dropWhile (· = b)).reverse

/-! ## Connections -/

/-- `OpenFile`. A directory has no file object. -/
structure OpenFile (F : Type) where
  path : String
  isDir : Bool
  size : Nat
  fh : Option F
  deriving DecidableEq, Repr

inductive Tree
  | ipc
  | disk (share : Share)
  deriving DecidableEq, Repr

/-- A search: its entries with their paths, and how many have been given out. -/
structure Search where
  entries : List (String × String)
  cursor : Nat
  deriving DecidableEq, Repr

structure Conn (F : Type) where
  uid : Nat
  nextFid : Nat
  nextTid : Nat
  nextSid : Nat
  trees : List (Nat × Tree)
  files : List (Nat × OpenFile F)
  searches : List (Nat × Search)
  deriving DecidableEq, Repr

def Conn.new {F : Type} : Conn F := ⟨0, 0x1000, 1, 1, [], [], []⟩

/-- `d[key] = value`. -/
def store {α : Type} (d : List (Nat × α)) (key : Nat) (value : α) : List (Nat × α) :=
  (key, value) :: d.filter fun e => e.1 != key

/-- `d.pop(key, None)`. -/
def remove {α : Type} (d : List (Nat × α)) (key : Nat) : List (Nat × α) :=
  d.filter fun e => e.1 != key

/-- `alloc_fid`, `alloc_tid` and `alloc_sid`. -/
def allocate (current start : Nat) : Nat :=
  if (current + 1) % 0x10000 = 0 then start else (current + 1) % 0x10000

structure State (H F : Type) where
  host : H
  conn : Conn F
  deriving DecidableEq, Repr

abbrev Status := Nat

def STATUS_SUCCESS : Status := 0

def STATUS_NOT_IMPLEMENTED : Status := 0xC0000002

def STATUS_OBJECT_NAME_NOT_FOUND : Status := 0xC0000034

def STATUS_OBJECT_NAME_COLLISION : Status := 0xC0000035

def STATUS_ACCESS_DENIED : Status := 0xC0000022

def STATUS_LOGON_FAILURE : Status := 0xC000006D

/-- What a handler returns: parameters, data and status, and the ids it overrides. -/
structure Reply where
  params : Bytes
  data : Bytes
  status : Status
  uid : Option Nat
  tid : Option Nat
  deriving DecidableEq, Repr

def Reply.fail (status : Status) : Reply := ⟨[], [], status, none, none⟩

def Reply.done (params data : Bytes) : Reply := ⟨params, data, STATUS_SUCCESS, none, none⟩

/-- A handler. An exception it lets out ends the connection. -/
abbrev Handler (H F : Type) := EStateM Unit (State H F)

section Handlers

variable {H F : Type} (ops : Ops H F) (cfg : Config)

/-- `struct.unpack_from`. -/
def unpack (bytes : Bytes) (offset size : Nat) : Handler H F Nat :=
  if offset + size ≤ bytes.length then pure (bytes.field offset size) else throw ()

/-- A value or an exception. -/
def orRaise {α : Type} : Option α → Handler H F α
  | some a => pure a
  | none => throw ()

/-- `struct.pack`. -/
def pack (items : List Item) : Handler H F Bytes := orRaise (Struct.pack items)

/-- `fh.seek(offset)` takes a signed 64-bit offset. -/
def OFFSET_LIMIT : Nat := 0x8000000000000000

/-! ## Session and tree commands -/

def NT_LM_012 : Name := "NT LM 0.12".toUTF8.toList

/-- The dialect names of a NEGOTIATE: each 0x02 and a NUL-terminated string. -/
def dialects (fuel : Nat) (d : Bytes) : List Name :=
  match fuel, d with
  | fuel + 1, b :: rest =>
      if b = 0x02 then
        ascii (cString rest) :: dialects fuel (rest.drop ((cString rest).length + 1))
      else dialects fuel rest
  | _, _ => []

def SERVER_CAPS : Nat := 0x00000010 ||| 0x00000040 ||| 0x00000008 ||| 0x00004000

def smb2Names : List Name :=
  ["SMB 2.002", "SMB 2.??? ", "2.002", "2.10"].map fun n => n.toUTF8.toList

/-- The dialect chosen, as its index and the security mode. -/
def selectDialect (offered : List Name) : Nat × Nat :=
  let smb2 := if cfg.smbVersion = 2 ∨ cfg.smbVersion = 3 then smb2Names else []
  match smb2.find? offered.contains with
  | some n => (offered.idxOf n, 0x02)
  | none => (if offered.contains NT_LM_012 then offered.idxOf NT_LM_012 else 0, 0x00)

/-- `h_negotiate`. -/
def hNegotiate (r : Req) : Handler H F Reply := do
  let (index, mode) := selectDialect cfg (dialects r.data.length r.data)
  let params ← pack [.H index, .B mode, .H 1, .H 1, .I 65535, .I 65536, .I 0, .I SERVER_CAPS,
    .q 0, .H 0, .B 0]
  return .done params "WORKGROUP\x00".toUTF8.toList

/-- `bytes.decode("utf-16-le", "ignore")`: lone surrogates and an odd last byte are dropped. -/
def decodeUtf16 : Bytes → List Char
  | a :: b :: c :: d :: rest =>
      let hi := a.toNat + 256 * b.toNat
      let lo := c.toNat + 256 * d.toNat
      if 0xD800 ≤ hi ∧ hi < 0xDC00 then
        if 0xDC00 ≤ lo ∧ lo < 0xE000 then
          Char.ofNat (0x10000 + (hi - 0xD800) * 0x400 + (lo - 0xDC00)) :: decodeUtf16 rest
        else decodeUtf16 (c :: d :: rest)
      else if 0xDC00 ≤ hi ∧ hi < 0xE000 then decodeUtf16 (c :: d :: rest)
      else Char.ofNat hi :: decodeUtf16 (c :: d :: rest)
  | [a, b, _] => lastUnit a b
  | [a, b] => lastUnit a b
  | _ => []
where
  lastUnit (a b : UInt8) : List Char :=
    let unit := a.toNat + 256 * b.toNat
    if 0xD800 ≤ unit ∧ unit < 0xE000 then [] else [Char.ofNat unit]

/-- `_parse_session_setup`: account and password. -/
def parseSessionSetup (r : Req) : Handler H F (Name × List Char) :=
  if r.wordcount < 13 then pure ([], [])
  else do
    let ansiLen ← unpack r.params 14 2
    let uniLen ← unpack r.params 16 2
    let ansi := r.data.take ansiLen
    let uni := (r.data.drop ansiLen).take uniLen
    let account := ascii (cString (r.data.drop (ansiLen + uniLen)))
    let password := (ascii (rstrip 0 ansi)).map fun b => Char.ofNat b.toNat
    if password = [] ∧ uni ≠ [] then
      return (account, ((decodeUtf16 uni).reverse.dropWhile (· = Char.ofNat 0)).reverse)
    else return (account, password)

/-- `hmac.compare_digest`, which refuses text that is not ASCII. -/
def compareDigest (a b : List Char) : Option Bool :=
  if a.all (·.toNat < 128) && b.all (·.toNat < 128) then some (a == b) else none

/-- The account and password of the request are configured. -/
def credentials (r : Req) : Handler H F Bool := do
  let (account, password) ← parseSessionSetup r
  match cfg.users.lookup (toStr (account.map lowerByte)) with
  | none => return false
  | some expected => orRaise (compareDigest password expected.toList)

/-- A server without users takes everyone. -/
def logon (r : Req) : Handler H F Bool :=
  if cfg.users = [] then pure true else credentials cfg r

/-- `h_session_setup`. -/
def hSessionSetup (r : Req) : Handler H F Reply := do
  let accepted ← logon cfg r
  if accepted then do
    modify fun s => { s with
      conn := { s.conn with uid := if s.conn.uid = 0 then 0x0800 else s.conn.uid } }
    let s ← get
    let params ← pack [.B 0xff, .B 0, .H 0, .H (if cfg.users = [] then 1 else 0)]
    return ⟨params, "OPLSMB\x00OPLSMB\x00".toUTF8.toList, STATUS_SUCCESS, some s.conn.uid, none⟩
  else return .fail STATUS_LOGON_FAILURE

/-- The length of the share-level password in front of the path. -/
def passwordLength (r : Req) : Handler H F Nat :=
  if 4 ≤ r.wordcount then unpack r.params 6 2 else pure 1

/-- `_parse_treeconnect_path`: the last component of the path. -/
def parseTreeconnectPath (r : Req) : Handler H F Name := do
  let pwlen ← passwordLength r
  let path := backslashes (ascii (cString (r.data.drop pwlen)))
  return (((rstrip BACKSLASH path).reverse.takeWhile (· ≠ BACKSLASH)).reverse)

/-- What a tree name stands for. A server with one share takes any name for it. -/
def treeNamed (name : Name) : Option Tree :=
  if name.map upperByte = "IPC$".toUTF8.toList then some .ipc
  else
    match cfg.shares.find? (·.name = name), cfg.shares.find? (·.name = name.map lowerByte) with
    | some share, _ => some (.disk share)
    | none, some share => some (.disk share)
    | none, none =>
        match cfg.shares with
        | [share] => some (.disk share)
        | _ => none

/-- `h_tree_connect`. -/
def hTreeConnect (r : Req) : Handler H F Reply := do
  let name ← parseTreeconnectPath r
  let s ← get
  let tid := allocate s.conn.nextTid 1
  modify fun s => { s with conn := { s.conn with nextTid := tid } }
  match treeNamed cfg name with
  | none => return .fail STATUS_OBJECT_NAME_NOT_FOUND
  | some tree =>
      modify fun s => { s with conn := { s.conn with trees := store s.conn.trees tid tree } }
      let service := match tree with
        | .ipc => "IPC\x00"
        | .disk _ => "A:\x00"
      let params ← pack [.B 0xff, .B 0, .H 0, .H 1]
      return ⟨params, service.toUTF8.toList ++ "NTFS\x00".toUTF8.toList, STATUS_SUCCESS, none,
        some tid⟩

def hTreeDisconnect (r : Req) : Handler H F Reply := do
  modify fun s => { s with conn := { s.conn with trees := remove s.conn.trees r.tid } }
  return .done [] []

/-- `_share_for_tid`. -/
def shareForTid (conn : Conn F) (r : Req) : Option Share :=
  match conn.trees.lookup r.tid with
  | some (.disk share) => some share
  | _ => none

/-! ## File commands -/

/-- `OpenFile.__init__`, for a path that has been looked at. -/
def newOpenFile (host : H) (path : String) (isDir : Bool) : Option (OpenFile F) :=
  if isDir then some ⟨path, true, 0, none⟩
  else
    match ops.stat host path, ops.openRead host path with
    | some info, some fh => some ⟨path, false, info.size, some fh⟩
    | _, _ => none

/-- `alloc_fid` and the entry in `conn.files`. -/
def addFile (file : OpenFile F) : Handler H F Nat := do
  let s ← get
  let fid := allocate s.conn.nextFid 0x1000
  modify fun s => { s with
    conn := { s.conn with nextFid := fid, files := store s.conn.files fid file } }
  return fid

def hOpenAndx (r : Req) : Handler H F Reply := do
  let s ← get
  match shareForTid s.conn r with
  | none => return .fail STATUS_OBJECT_NAME_NOT_FOUND
  | some share =>
      let path := ops.resolve s.host share (ascii (cString r.data))
      match path, path.bind (ops.stat s.host) with
      | some path, some info =>
          if info.isFile then do
            let file ← orRaise (newOpenFile ops s.host path false)
            let fid ← addFile file
            let params ← pack [.B 0xff, .B 0, .H 0, .H fid, .H 0, .I 0, .I (file.size % 0x100000000),
              .H 0, .H 0, .H 0, .H 1, .I 0, .H 0]
            return .done params []
          else return .fail STATUS_OBJECT_NAME_NOT_FOUND
      | _, _ => return .fail STATUS_OBJECT_NAME_NOT_FOUND

inductive Disposition
  | supersede
  | open_
  | create
  | openIf
  | overwrite
  | overwriteIf
  deriving DecidableEq, Repr

def dispositionOf : Nat → Option Disposition
  | 0 => some .supersede
  | 1 => some .open_
  | 2 => some .create
  | 3 => some .openIf
  | 4 => some .overwrite
  | 5 => some .overwriteIf
  | _ => none

/-- The dispositions that cut an existing file. -/
def Disposition.truncates : Disposition → Bool
  | .supersede | .overwrite | .overwriteIf => true
  | _ => false

def ATTR_DIRECTORY : Nat := 0x10

def ATTR_NORMAL : Nat := 0x80

def attributes (isDir : Bool) : Nat := if isDir then ATTR_DIRECTORY else ATTR_NORMAL

/-- The part of `h_nt_create_andx` that changes the host: the action taken, or the status of
the refusal. -/
def ntCreate (host : H) (path : String) (disposition : Disposition) (requestedDir : Bool) :
    Except Status (Nat × H) :=
  match ops.stat host path with
  | some info =>
      if disposition = .create then .error STATUS_OBJECT_NAME_COLLISION
      else if requestedDir && !info.isDir then .error STATUS_ACCESS_DENIED
      else if disposition.truncates then
        if cfg.readOnly || info.isDir then .error STATUS_ACCESS_DENIED
        else
          match ops.truncate host path with
          | .error _ => .error STATUS_ACCESS_DENIED
          | .ok host => .ok (if disposition = .supersede then 0 else 3, host)
      else .ok (1, host)
  | none =>
      if disposition = .open_ ∨ disposition = .overwrite then
        .error STATUS_OBJECT_NAME_NOT_FOUND
      else if cfg.readOnly then .error STATUS_ACCESS_DENIED
      else if !(((ops.stat host (ops.dirname path)).map Info.isDir).getD false) then
        .error STATUS_OBJECT_NAME_NOT_FOUND
      else
        match if requestedDir then ops.mkdir host path else ops.createFile host path with
        | .error .exists => .error STATUS_OBJECT_NAME_COLLISION
        | .error .other => .error STATUS_ACCESS_DENIED
        | .ok host => .ok (2, host)

/-- The part of `h_nt_create_andx` that opens what is there by then. -/
def openCreated (host : H) (path : String) (action : Nat) : Handler H F Reply := do
  let info := ops.stat host path
  match info, newOpenFile ops host path ((info.map Info.isDir).getD false) with
  | some info, some file =>
      let fid ← addFile file
      let t := info.filetime
      let params ← pack [.B 0xff, .B 0, .H 0, .B 0, .H fid, .I action, .q t, .q t, .q t, .q t,
        .I (attributes info.isDir), .Q file.size, .Q file.size, .H 0, .H 0,
        .B (if info.isDir then 1 else 0)]
      return .done params []
  | _, _ => return .fail STATUS_ACCESS_DENIED

/-- `h_nt_create_andx`. -/
def hNtCreateAndx (r : Req) : Handler H F Reply := do
  let s ← get
  match shareForTid s.conn r with
  | none => return .fail STATUS_OBJECT_NAME_NOT_FOUND
  | some share =>
      let options := if 43 ≤ r.params.length then r.params.field 39 4 else 0
      let requested := if r.params.length < 39 then none
        else dispositionOf (r.params.field 35 4)
      match requested with
      | none => return .fail STATUS_ACCESS_DENIED
      | some disposition =>
          let raw := if r.data.head? = some 0 then r.data.tail else r.data
          let name := ascii (cString (raw.take (r.params.field 5 2)))
          match ops.resolve s.host share name with
          | none => return .fail STATUS_ACCESS_DENIED
          | some path =>
              match ntCreate ops cfg s.host path disposition (options &&& 1 != 0) with
              | .error status => return .fail status
              | .ok (action, host) =>
                  set { s with host := host }
                  openCreated ops host path action

/-- `h_read_andx`. -/
def hReadAndx (r : Req) : Handler H F Reply := do
  let p := r.params
  let fid ← unpack p 4 2
  let offLow ← unpack p 6 4
  let countLow ← unpack p 10 2
  let countHigh ← unpack p 14 2
  let offHigh := if 24 ≤ p.length then p.field 20 4 else 0
  let offset := offLow + offHigh * 0x100000000
  let requested := min (countLow + countHigh * 0x10000) 0xFFFF
  let s ← get
  match s.conn.files.lookup fid with
  | none => return .fail STATUS_OBJECT_NAME_NOT_FOUND
  | some file =>
      match file.fh with
      | none => return .fail STATUS_OBJECT_NAME_NOT_FOUND
      | some fh =>
          let found := if offset < OFFSET_LIMIT then ops.readAt s.host fh offset requested else none
          let (chunk, fh) ← orRaise found
          set { s with conn := { s.conn with
            files := store s.conn.files fid { file with fh := some fh } } }
          let params ← pack [.B 0xff, .B 0, .H 0, .H 0, .H 0, .H 0, .H (chunk.length % 0x10000),
            .H 59, .I (chunk.length / 0x10000), .zeros 6]
          return .done params chunk

/-- `h_write_andx` on a writable server. -/
def writeAndx (r : Req) : Handler H F Reply := do
  let p := r.params
  let fid ← unpack p 4 2
  let offLow ← unpack p 6 4
  let lenHigh ← unpack p 18 2
  let lenLow ← unpack p 20 2
  let dataOff ← unpack p 22 2
  let offHigh := if 28 ≤ p.length then p.field 24 4 else 0
  let s ← get
  match s.conn.files.lookup fid with
  | none => return .fail STATUS_ACCESS_DENIED
  | some file =>
      let payload := r.msg.sub dataOff (lenLow + lenHigh * 0x10000)
      let offset := offLow + offHigh * 0x100000000
      if !ops.openWrite s.host file.path then return .fail STATUS_ACCESS_DENIED
      -- The ValueError of `seek` is no OSError.
      else if OFFSET_LIMIT ≤ offset then throw ()
      else
        match ops.writeAt s.host file.path offset payload with
        | .error _ => return .fail STATUS_ACCESS_DENIED
        | .ok host =>
            set { s with host := host }
            let params ← pack [.B 0xff, .B 0, .H 0, .H (payload.length % 0x10000), .H 0, .H 0, .H 0]
            return .done params []

def hWriteAndx (r : Req) : Handler H F Reply :=
  if cfg.readOnly then pure (.fail STATUS_ACCESS_DENIED) else writeAndx ops r

def hClose (r : Req) : Handler H F Reply := do
  let fid := if 2 ≤ r.params.length then r.params.field 0 2 else 0
  modify fun s => { s with conn := { s.conn with files := remove s.conn.files fid } }
  return .done [] []

def hEcho (r : Req) : Handler H F Reply := do
  let params ← pack [.H 1]
  return .done params r.data

def hLogoff : Handler H F Reply := do
  let params ← pack [.B 0xff, .B 0, .H 0]
  return .done params []

def hQueryDisk : Handler H F Reply := do
  let params ← pack [.H 0xFFFF, .H 64, .H 512, .H 0xFFFF, .H 0]
  return .done params []

/-- `h_create_directory` on a writable server. -/
def createDirectory (r : Req) : Handler H F Reply := do
  let s ← get
  match shareForTid s.conn r with
  | none => return .fail STATUS_OBJECT_NAME_NOT_FOUND
  | some share =>
      let raw := if r.data.head? = some 0x04 then r.data.tail else r.data
      match ops.resolve s.host share (ascii (cString raw)) with
      | none => return .fail STATUS_ACCESS_DENIED
      | some path =>
          if (ops.stat s.host path).isSome then return .fail STATUS_OBJECT_NAME_COLLISION
          else if !(((ops.stat s.host (ops.dirname path)).map Info.isDir).getD false) then
            return .fail STATUS_OBJECT_NAME_NOT_FOUND
          else
            match ops.mkdir s.host path with
            | .error .exists => return .fail STATUS_OBJECT_NAME_COLLISION
            | .error .other => return .fail STATUS_ACCESS_DENIED
            | .ok host =>
                set { s with host := host }
                return .done [] []

def hCreateDirectory (r : Req) : Handler H F Reply :=
  if cfg.readOnly then pure (.fail STATUS_ACCESS_DENIED) else createDirectory ops r

/-- `name or "\\"`. -/
def orRoot (name : Name) : Name := if name = [] then [BACKSLASH] else name

def hCheckDirectory (r : Req) : Handler H F Reply := do
  let s ← get
  match shareForTid s.conn r with
  | none => return .fail STATUS_OBJECT_NAME_NOT_FOUND
  | some share =>
      let path := ops.resolve s.host share (orRoot (ascii (cString r.data)))
      if ((path.bind (ops.stat s.host)).map Info.isDir).getD false then return .done [] []
      else return .fail STATUS_OBJECT_NAME_NOT_FOUND

/-! ## Transactions -/

/-- The next multiple of 4. -/
def align4 (n : Nat) : Nat := (n + 3) / 4 * 4

/-- `_build_trans2_reply` and the envelope of `h_transaction`. -/
def transReply (tParams tData : Bytes) : Handler H F Reply := do
  let paramOff := align4 55
  let dataOff := align4 (paramOff + tParams.length)
  let params ← pack [.H tParams.length, .H tData.length, .H 0, .H tParams.length, .H paramOff,
    .H 0, .H tData.length, .H dataOff, .H 0, .B 0, .B 0]
  return .done params
    (List.replicate (paramOff - 55) 0 ++ tParams ++
      List.replicate (dataOff - (paramOff + tParams.length)) 0 ++ tData)

/-- What an entry shows: directory or not, size and time. -/
def entryInfo (host : H) (name path : String) : Bool × Nat × Nat :=
  match ops.stat host path with
  | some info => (info.isDir, if info.isDir then 0 else info.size, info.filetime)
  | none => (name = "." ∨ name = "..", 0, 0)

/-- `name.encode("ascii", "ignore")`. -/
def encodeAscii (name : String) : Bytes :=
  (name.toList.filter (·.toNat < 128)).map fun c => UInt8.ofNat c.toNat

/-- `_dir_entry_104`. -/
def dirEntry104 (host : H) (name path : String) : Handler H F Bytes := do
  let (isDir, size, t) := entryInfo ops host name path
  let bytes := encodeAscii name
  let record ← pack [.I 0, .I 0, .q t, .q t, .q t, .q t, .Q size, .Q size,
    .I (attributes isDir), .I bytes.length, .I 0, .B 0, .B 0, .zeros 24]
  return record ++ bytes

/-- A search pattern without its wildcard. -/
def searchDir (pattern : Name) : Name :=
  let path := backslashes pattern
  if [BACKSLASH, STAR].isSuffixOf path then path.take (path.length - 2)
  else if [STAR].isSuffixOf path then path.take (path.length - 1)
  else path

def hFindFirst2 (r : Req) (tParams : Bytes) : Handler H F Reply := do
  let s ← get
  match shareForTid s.conn r with
  | none => return .fail STATUS_OBJECT_NAME_NOT_FOUND
  | some share =>
      let dir := searchDir (ascii (cString (tParams.drop 12)))
      let path := ops.resolve s.host share (orRoot dir)
      match path, path.bind (ops.stat s.host), path.bind (ops.listDir s.host) with
      | some path, some info, some names =>
          if info.isDir then do
            let sorted := names.mergeSort fun a b => decide (a ≤ b)
            let listed := sorted.map fun n => (n, ops.join path n)
            let sid := allocate s.conn.nextSid 1
            let entries := (".", path) :: ("..", path) :: listed
            set { s with conn := { s.conn with
              nextSid := sid, searches := store s.conn.searches sid ⟨entries, 1⟩ } }
            let tParams ← pack [.H sid, .H 1, .H 0, .H 0, .H 0]
            let tData ← dirEntry104 ops s.host "." path
            transReply tParams tData
          else return .fail STATUS_OBJECT_NAME_NOT_FOUND
      | _, _, _ => return .fail STATUS_OBJECT_NAME_NOT_FOUND

def hFindNext2 (tParams : Bytes) : Handler H F Reply := do
  let sid ← unpack tParams 0 2
  let s ← get
  let finished := do
    let tParams ← pack [.H 0, .H 1, .H 0, .H 0]
    transReply tParams []
  match s.conn.searches.lookup sid with
  | none => finished
  | some search =>
      match search.entries[search.cursor]? with
      | none =>
          set { s with conn := { s.conn with searches := remove s.conn.searches sid } }
          finished
      | some (name, path) =>
          let last := if search.cursor + 1 = search.entries.length then 1 else 0
          set { s with conn := { s.conn with
            searches := store s.conn.searches sid { search with cursor := search.cursor + 1 } } }
          let tParams ← pack [.H 1, .H last, .H 0, .H 0]
          let tData ← dirEntry104 ops s.host name path
          transReply tParams tData

def hQueryPath (r : Req) (tParams : Bytes) : Handler H F Reply := do
  let level ← unpack tParams 0 2
  let s ← get
  match shareForTid s.conn r with
  | none => return .fail STATUS_OBJECT_NAME_NOT_FOUND
  | some share =>
      let path := ops.resolve s.host share (orRoot (ascii (cString (tParams.drop 6))))
      match path.bind (ops.stat s.host) with
      | none => return .fail STATUS_OBJECT_NAME_NOT_FOUND
      | some info =>
          let size := if info.isDir then 0 else info.size
          let t := info.filetime
          let tData ← pack (if level = 0x0102 then
              [.Q size, .Q size, .I 0, .B 0, .B (if info.isDir then 1 else 0), .H 0]
            else [.q t, .q t, .q t, .q t, .I (attributes info.isDir), .I 0])
          transReply [] tData

/-- The subcommand of a TRANS2. -/
def trans2Setup (r : Req) (setupCount : Nat) : Handler H F Nat :=
  if 1 ≤ setupCount then unpack r.params 28 2 else pure 0

/-- The subcommands of a TRANS2. -/
def trans2Command (r : Req) (setup : Nat) (tParams : Bytes) : Handler H F Reply :=
  match setup with
  | 0x01 => hFindFirst2 ops r tParams
  | 0x02 => hFindNext2 ops tParams
  | 0x05 => hQueryPath ops r tParams
  | _ => return .fail STATUS_NOT_IMPLEMENTED

/-- `h_trans2`. -/
def hTrans2 (r : Req) : Handler H F Reply := do
  let paramCount ← unpack r.params 18 2
  let paramOff ← unpack r.params 20 2
  let _dataCount ← unpack r.params 22 2
  let _dataOff ← unpack r.params 24 2
  let setupCount ← unpack r.params 26 1
  let setup ← trans2Setup r setupCount
  trans2Command ops r setup (r.msg.sub paramOff paramCount)

/-- `share.name.encode("ascii", "ignore")[:13].ljust(13, b"\0")`. -/
def name13 (share : Share) : Bytes :=
  (ascii share.name).take 13 ++ List.replicate (13 - (ascii share.name).length) 0

/-- The records of the shares from the `i`-th on, each with the place of its comment. -/
def shareRecords (total i : Nat) : List Share → Option Bytes
  | [] => some []
  | share :: rest => do
      let fields ← Struct.pack [.B 0, .H 0, .I (20 * total + i)]
      let records ← shareRecords total (i + 1) rest
      return name13 share ++ fields ++ records

/-- `h_transaction`: the configured shares, whatever was asked. -/
def hTransaction : Handler H F Reply := do
  let n := cfg.shares.length
  let records ← orRaise (shareRecords n 0 cfg.shares)
  let rparams ← pack [.H 0, .H 0, .H n, .H n]
  transReply rparams (records ++ List.replicate n 0)

/-- `HANDLERS`. -/
def handle (r : Req) : Handler H F Reply :=
  match r.cmd with
  | .createDirectory => hCreateDirectory ops cfg r
  | .close => hClose r
  | .checkDirectory => hCheckDirectory ops r
  | .transaction => hTransaction cfg
  | .echo => hEcho r
  | .openAndx => hOpenAndx ops r
  | .readAndx => hReadAndx ops r
  | .writeAndx => hWriteAndx ops cfg r
  | .trans2 => hTrans2 ops r
  | .treeDisconnect => hTreeDisconnect r
  | .negotiate => hNegotiate cfg r
  | .sessionSetupAndx => hSessionSetup cfg r
  | .logoffAndx => hLogoff
  | .treeConnectAndx => hTreeConnect cfg r
  | .queryInformationDisk => hQueryDisk
  | .ntCreateAndx => hNtCreateAndx ops cfg r
  | .other _ => pure (.fail STATUS_NOT_IMPLEMENTED)

/-- `pack_header`. -/
def packHeader (code status tid pid uid mid : Nat) : Bytes :=
  SMB_MAGIC ++ Bytes.ofNat 1 code ++ Bytes.ofNat 1 (status &&& 0xFF) ++ [0] ++
    Bytes.ofNat 2 (status / 0x10000 &&& 0xFFFF) ++ [0x80] ++ Bytes.ofNat 2 0x4001 ++
    List.replicate 12 0 ++ Bytes.ofNat 2 (tid % 0x10000) ++ Bytes.ofNat 2 (pid % 0x10000) ++
    Bytes.ofNat 2 (uid % 0x10000) ++ Bytes.ofNat 2 (mid % 0x10000)

/-- `build_body`: the words and bytes behind their counts. -/
def buildBody (params data : Bytes) : Option Bytes :=
  if params.length % 2 = 0 then do
    let count ← Struct.pack [.B (params.length / 2)]
    let byteCount ← Struct.pack [.H data.length]
    return count ++ params ++ byteCount ++ data
  else none

/-- The message that answers a request. -/
def respond (r : Req) (reply : Reply) : Option Bytes :=
  if reply.status = STATUS_SUCCESS then do
    let body ← buildBody reply.params reply.data
    return packHeader r.code reply.status (reply.tid.getD r.tid) r.pid (reply.uid.getD r.uid)
      r.mid ++ body
  else do
    let body ← buildBody [] []
    return packHeader r.code reply.status r.tid r.pid r.uid r.mid ++ body

/-- The handling of one request. -/
def exchange (r : Req) : Handler H F Bytes := do
  let reply ← handle ops cfg r
  orRaise (respond r reply)

/-- `serve_conn`: what is left of the connection after a list of messages, and the replies
sent. -/
def serve (s : State H F) : List Message → State H F × List Bytes
  | [] => (s, [])
  | msg :: rest =>
      match parseReq msg with
      | none => serve s rest
      | some r =>
          match exchange ops cfg r s with
          | .error _ s => (s, [])
          | .ok reply s =>
              let (s, replies) := serve s rest
              (s, reply :: replies)

end Handlers

end Ps2Servers.Smb1
