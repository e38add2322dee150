import Ps2Servers.Smb2.Create
import Ps2Servers.Smb2.Shares

/-!
# Commands on files

What the requests of a client do to the files of the shares: the tree a request names, the handle a
FileId stands for, and the handlers behind CREATE.

## Implementation notes

Pipes are kept apart from files, under ids of one counter. What a handler sees of its connection is a
`Context`. `reading` is what `fh.mode == "rb"` says of a file object.
-/

namespace Ps2Servers.Smb2

open Struct (Item)
open Text Effects

/-- What a tree id stands for: `IPC_TREE`, or a share. -/
inductive ShareTree
  | ipc
  | disk (share : Share)
  deriving DecidableEq, Repr

/-- `Handle`, of a pipe. -/
structure PipeHandle where
  pipe : Pipe
  deleteOnClose : Bool
  deriving DecidableEq, Repr

/-- The host, and the handles of the connection. -/
structure Files (H F : Type) extends Disk H F where
  pipes : List (Nat × PipeHandle)

/-- A server, as far as its handlers ask for it. -/
structure Service (H F : Type) where
  host : Host H F
  reading : F → Bool
  readOnly : Bool
  shares : List (Name × Share)
  rows : List Srvsvc.Row

/-- A request, and what its connection knows. -/
structure Context where
  authenticated : Bool
  trees : List (Nat × ShareTree)
  treeId : Nat
  body : Bytes
  compoundFileId : Option Bytes

/-- What a handler answers with. -/
structure Answer where
  status : Status
  body : Bytes
  deriving DecidableEq, Repr

def Answer.success (body : Bytes) : Answer := ⟨STATUS_SUCCESS, body⟩

/-- A handler. -/
abbrev Action (H F : Type) := EStateM Exn (Files H F)

variable {H F : Type} (svc : Service H F) (c : Context)

/-- A handler that looks at no pipe. -/
def onDisk {α : Type} (x : Serve H F α) : Action H F α := fun s =>
  match x s.toDisk with
  | .ok a d => .ok a { s with toDisk := d }
  | .error e d => .error e { s with toDisk := d }

/-! ## Guards -/

def COMPOUND_FILE_ID : Bytes := List.replicate 16 0xff

def MAX_WRITE : Nat := 1 <<< 20

/-- `_tree`. -/
def treeOf (ipcOk : Bool) : Action H F ShareTree :=
  if c.authenticated = false then throw (.status STATUS_USER_SESSION_DELETED)
  else
    match c.trees.lookup c.treeId with
    | none => throw (.status STATUS_NETWORK_NAME_DELETED)
    | some .ipc => if ipcOk then return .ipc else throw (.status STATUS_INVALID_DEVICE_REQUEST)
    | some (.disk share) => return .disk share

/-- `_tree`, where pipes will not do. -/
def shareOf : Action H F Share := do
  match ← treeOf c false with
  | .ipc => throw (.status STATUS_INVALID_DEVICE_REQUEST)
  | .disk share => return share

/-- `self.read_only or share.read_only`. -/
def Service.protects (tree : ShareTree) : Bool :=
  match tree with
  | .ipc => true
  | .disk share => svc.readOnly || share.readOnly

/-- `_writable`. -/
def checkWritable (tree : ShareTree) : Action H F Unit :=
  if svc.protects tree then throw (.status STATUS_MEDIA_WRITE_PROTECTED) else return ()

/-- What a FileId stands for. -/
inductive AnyHandle (F : Type)
  | file (handle : Handle F)
  | pipe (handle : PipeHandle)

/-- `Connection.handles.get`. -/
def Files.find (s : Files H F) (id : Nat) : Option (AnyHandle F) :=
  match s.handles.entries.lookup id with
  | some handle => some (.file handle)
  | none => (s.pipes.lookup id).map .pipe

/-- The FileId a request means: a compound's own where it sends the placeholder. -/
def Context.fileId (raw : Bytes) : Bytes :=
  if raw = COMPOUND_FILE_ID then c.compoundFileId.getD raw else raw

/-- `handle_from`: the id and the handle. -/
def handleFrom (raw : Bytes) : Action H F (Nat × AnyHandle F) := do
  let raw := c.fileId raw
  -- `struct.unpack` wants all sixteen bytes.
  if raw.length ≠ 16 then throw .other
  else
    let s ← get
    let id := raw.field 8 8
    match s.find id with
    | none => throw (.status STATUS_FILE_CLOSED)
    | some named =>
        if raw.field 0 8 ≠ id then throw (.status STATUS_FILE_CLOSED) else return (id, named)

/-- `request_buffer`. -/
def bufferOf (offset length least : Nat) : Action H F Bytes :=
  match requestBuffer c.body offset length least with
  | none => throw (.status STATUS_INVALID_PARAMETER)
  | some data => return data

/-- `struct.pack`. -/
def packItems (items : List Item) : Action H F Bytes := onDisk (packed items)

/-! ## Handles -/

/-- A change of the handle of a file. -/
def updateFile (id : Nat) (f : Handle F → Handle F) : Action H F Unit :=
  modify fun s => { s with handles := s.handles.update id f }

/-- A change of the handle of a pipe. -/
def updatePipe (id : Nat) (f : PipeHandle → PipeHandle) : Action H F Unit :=
  modify fun s => { s with pipes := s.pipes.map fun e => if e.1 == id then (e.1, f e.2) else e }

/-- `Connection.handles.pop`. -/
def Handles.erase (t : Handles F) (id : Nat) : Handles F where
  next := t.next
  entries := t.entries.filter fun e => e.1 != id
  below := fun e he => t.below e (List.mem_filter.mp he).1

/-- A handle that names no file takes its id from the same counter. -/
def Handles.skip (t : Handles F) : Handles F where
  next := t.next + 1
  entries := t.entries
  below := fun e he => Nat.lt_succ_of_lt (t.below e he)

def Files.erase (s : Files H F) (id : Nat) : Files H F :=
  { s with handles := s.handles.erase id, pipes := s.pipes.filter fun e => e.1 != id }

/-- `Handle.close`, of a file: errors are ignored. -/
def closeFile (handle : Handle F) (h : H) : H :=
  match handle.fh with
  | none => h
  | some fh => svc.host.close h fh

/-- `open(h.path, …)` for a handle. -/
def openAgain (id : Nat) (handle : Handle F) (forWriting : Bool) : Action H F F := do
  let s ← get
  match svc.host.openFile s.host handle.path forWriting with
  | .error e => throw (.osError e)
  | .ok fh =>
      updateFile id fun handle => { handle with fh := some fh }
      return fh

/-- `_open_file`. An object that cannot be opened again stays closed. -/
def openHandle (id : Nat) (handle : Handle F) (forWriting : Bool) : Action H F F :=
  match handle.fh with
  | none => openAgain svc id handle forWriting
  | some fh =>
      if forWriting && svc.reading fh then do
        modify fun s => { s with host := svc.host.close s.host fh }
        openAgain svc id handle true
      else return fh

/-- The file object after a call on it. -/
def keepFile (id : Nat) (fh : F) : Action H F Unit :=
  updateFile id fun handle => { handle with fh := some fh }

/-! ## CREATE and CLOSE -/

/-- The reply of `_create_pipe`. -/
def pipeItems (id : Nat) : List Item :=
  [.H 89, .B 0, .B 0, .I FILE_OPENED, .Q 0, .Q 0, .Q 0, .Q 0, .q 4096, .q 0, .I 0x80, .I 0, .Q id,
    .Q id, .I 0, .I 0]

/-- `_create_pipe`. -/
def createPipe : Action H F Answer := do
  let raw ← bufferOf c (c.body.field 44 2) (c.body.field 46 2) (HEADER_SIZE + 56)
  let name := Text.strip [backslash] (decodeUtf16 raw)
  if !Srvsvc.PIPE_NAMES.contains (svc.host.letters.lower name) then
    throw (.status STATUS_OBJECT_NAME_NOT_FOUND)
  else
    let s ← get
    let id := s.handles.next
    set { s with handles := s.handles.skip, pipes := s.pipes ++ [(id, PipeHandle.mk Pipe.new false)] }
    return .success (← packItems (pipeItems id))

/-- `h_create`. -/
def hCreateFile : Action H F Answer := do
  let tree ← treeOf c true
  if c.body.length < 56 then throw (.status STATUS_INVALID_PARAMETER)
  else
    match tree with
    | .ipc => createPipe svc c
    | .disk share => return .success (← onDisk (hCreate svc.host svc.readOnly share c.body))

/-- The reply of `h_close`. -/
def closeItems (flags : Nat) (times : Nat × Nat × Nat) (allocation size attributes : Nat) : List Item :=
  [.H 60, .H flags, .I 0, .Q times.1, .Q times.2.1, .Q times.2.2, .Q times.2.2, .q allocation,
    .q size, .I attributes]

/-- The entry that goes with a handle. -/
def deleteNamed (handle : Handle F) (h : H) : H :=
  if handle.isDir then (svc.host.rmdir h handle.path).2 else (svc.host.remove h handle.path).2

/-- `h_close`. -/
def hClose : Action H F Answer := do
  let _ ← treeOf c true
  if c.body.length < 24 then throw (.status STATUS_INVALID_PARAMETER)
  else
    let flags := c.body.field 2 2
    let (id, named) ← handleFrom c (c.body.sub 8 16)
    let s ← get
    match named with
    | .pipe handle =>
        set (s.erase id)
        -- `os.remove(None)`.
        if handle.deleteOnClose then throw .other
        else return .success (← packItems (closeItems 0 (0, 0, 0) 0 0 0))
    | .file handle =>
        let h := closeFile svc handle s.host
        set { s.erase id with host := if handle.deleteOnClose then deleteNamed svc handle h else h }
        match svc.host.stat s.host handle.path with
        | .error _ => return .success (← packItems (closeItems 0 (0, 0, 0) 0 0 0))
        | .ok st =>
            if flags &&& 1 = 0 then return .success (← packItems (closeItems 0 (0, 0, 0) 0 0 0))
            else
              return .success (← packItems (closeItems flags (st.ctime, st.atime, st.mtime)
                (allocationOf st) st.size (attributesFor st svc.readOnly)))

/-! ## READ, WRITE and FLUSH -/

/-- `h_flush`. An `OSError` is ignored. -/
def hFlush : Action H F Answer := do
  let _ ← shareOf c
  let (id, named) ← handleFrom c (c.body.sub 8 16)
  match named with
  | .file handle =>
      match handle.fh with
      | none => return .success (← packItems [.H 4, .H 0])
      | some fh =>
          let s ← get
          let (result, fh, h) := svc.host.flush s.host fh
          set { s with host := h }
          keepFile id fh
          match result with
          | .error (.osError _) => return .success (← packItems [.H 4, .H 0])
          | .error e => throw e
          | .ok () => return .success (← packItems [.H 4, .H 0])
  | .pipe _ => return .success (← packItems [.H 4, .H 0])

/-- `h_read`, of a pipe. BUFFER_OVERFLOW comes with data: the client reads the rest. -/
def readPipe (id : Nat) (handle : PipeHandle) : Action H F Answer := do
  let (data, more, pipe) := handle.pipe.read (min (c.body.field 4 4) MAX_READ)
  updatePipe id fun handle => { handle with pipe := pipe }
  if data = [] then throw (.status STATUS_PIPE_EMPTY)
  else
    let head ← packItems (readItems data.length)
    return ⟨if more then STATUS_BUFFER_OVERFLOW else STATUS_SUCCESS, head ++ data⟩

/-- `h_read`, of a file. -/
def readFile (id : Nat) (handle : Handle F) : Action H F Answer := do
  if handle.isDir then throw (.status STATUS_INVALID_DEVICE_REQUEST)
  else
    let length := min (c.body.field 4 4) MAX_READ
    let fh ← openHandle svc id handle false
    let s ← get
    let (result, fh, h) := svc.host.read s.host fh (c.body.field 8 8) length
    set { s with host := h }
    keepFile id fh
    match result with
    | .error e => throw e
    | .ok data =>
        if data = [] then throw (.status STATUS_END_OF_FILE)
        else
          let head ← packItems (readItems data.length)
          return .success (head ++ data)

/-- `h_read`. -/
def hRead : Action H F Answer := do
  let _ ← treeOf c true
  if c.body.length < 48 then throw (.status STATUS_INVALID_PARAMETER)
  else
    let (id, named) ← handleFrom c (c.body.sub 16 16)
    match named with
    | .pipe handle => readPipe c id handle
    | .file handle => readFile svc c id handle

/-- The reply of `h_write`. -/
def writeItems (written : Nat) : List Item := [.H 17, .H 0, .I written, .I 0, .H 0, .H 0]

/-- `h_write`, of a pipe. -/
def writePipe (id : Nat) (handle : PipeHandle) : Action H F Answer := do
  let data ← bufferOf c (c.body.field 2 2) (c.body.field 4 4) (HEADER_SIZE + 48)
  match Pipe.write svc.rows data handle.pipe with
  | .error e pipe =>
      updatePipe id fun handle => { handle with pipe := pipe }
      throw e
  | .ok written pipe =>
      updatePipe id fun handle => { handle with pipe := pipe }
      return .success (← packItems (writeItems written))

/-- `h_write`, of a file. -/
def writeFile (tree : ShareTree) (id : Nat) (handle : Handle F) : Action H F Answer := do
  checkWritable svc tree
  if handle.isDir then throw (.status STATUS_INVALID_DEVICE_REQUEST)
  else if handle.canWrite = false then throw (.status STATUS_ACCESS_DENIED)
  else if MAX_WRITE < c.body.field 4 4 then throw (.status STATUS_INVALID_PARAMETER)
  else
    let data ← bufferOf c (c.body.field 2 2) (c.body.field 4 4) (HEADER_SIZE + 48)
    let fh ← openHandle svc id handle true
    let s ← get
    let (result, fh, h) := svc.host.write s.host fh (c.body.field 8 8) data
    set { s with host := h }
    keepFile id fh
    match result with
    | .error e => throw e
    | .ok written => return .success (← packItems (writeItems written))

/-- `h_write`. -/
def hWrite : Action H F Answer := do
  let tree ← treeOf c true
  if c.body.length < 48 then throw (.status STATUS_INVALID_PARAMETER)
  else
    let (id, named) ← handleFrom c (c.body.sub 16 16)
    match named with
    | .pipe handle => writePipe svc c id handle
    | .file handle => writeFile svc c tree id handle

/-! ## QUERY_DIRECTORY and QUERY_INFO -/

/-- What QUERY_DIRECTORY sees of a handle. -/
def Handle.dir (handle : Handle F) : Dir := ⟨handle.path, handle.isDir, handle.listing, handle.cursor⟩

/-- `h_query_directory`. A pipe is no directory. -/
def hQueryDir : Action H F Answer := do
  let share ← shareOf c
  if c.body.length < 32 then throw (.status STATUS_INVALID_PARAMETER)
  else
    let (id, named) ← handleFrom c (c.body.sub 8 16)
    match named with
    | .pipe _ => throw (.status STATUS_INVALID_PARAMETER)
    | .file handle =>
        let s ← get
        let (dir, result) :=
          hQueryDirectory svc.host s.host share (svc.readOnly || share.readOnly) handle.dir c.body
        updateFile id fun handle => { handle with listing := dir.listing, cursor := dir.cursor }
        match result with
        | .error e => throw e
        | .ok (head, blob) => return .success (head ++ blob)

def FILE_BASIC_INFORMATION : Nat := 0x04

def FILE_STANDARD_INFORMATION : Nat := 0x05

def FILE_INTERNAL_INFORMATION : Nat := 0x06

def FILE_EA_INFORMATION : Nat := 0x07

def FILE_ACCESS_INFORMATION : Nat := 0x08

def FILE_NAME_INFORMATION : Nat := 0x09

def FILE_RENAME_INFORMATION : Nat := 0x0A

def FILE_DISPOSITION_INFORMATION : Nat := 0x0D

def FILE_POSITION_INFORMATION : Nat := 0x0E

def FILE_MODE_INFORMATION : Nat := 0x10

def FILE_ALIGNMENT_INFORMATION : Nat := 0x11

def FILE_ALL_INFORMATION : Nat := 0x12

def FILE_END_OF_FILE_INFORMATION : Nat := 0x14

def FILE_NETWORK_OPEN_INFORMATION : Nat := 0x22

def FILE_ATTRIBUTE_TAG_INFORMATION : Nat := 0x23

/-- `FILE_BASIC_INFORMATION`. -/
def basicItems (st : Stat) (readOnly : Bool) : List Item :=
  [.Q st.ctime, .Q st.atime, .Q st.mtime, .Q st.mtime, .I (attributesFor st readOnly), .I 0]

/-- `FILE_STANDARD_INFORMATION`. -/
def standardItems (st : Stat) : List Item :=
  [.q (allocationOf st), .q st.size, .I 1, .B 0, .B (if st.isDir then 1 else 0), .H 0]

/-- `file_info` in front of the name, and whether the name goes behind it. -/
def infoItems (infoClass : Nat) (st : Stat) (nameLength : Nat) (readOnly : Bool) :
    Option (List Item × Bool) :=
  if infoClass = FILE_BASIC_INFORMATION then some (basicItems st readOnly, false)
  else if infoClass = FILE_STANDARD_INFORMATION then some (standardItems st, false)
  else if infoClass = FILE_INTERNAL_INFORMATION then some ([.Q (st.ino % 2 ^ 64)], false)
  else if infoClass = FILE_EA_INFORMATION then some ([.I 0], false)
  else if infoClass = FILE_ACCESS_INFORMATION then some ([.I 0x001F01FF], false)
  else if infoClass = FILE_POSITION_INFORMATION then some ([.q 0], false)
  else if infoClass = FILE_MODE_INFORMATION then some ([.I 0], false)
  else if infoClass = FILE_ALIGNMENT_INFORMATION then some ([.I 0], false)
  else if infoClass = FILE_NAME_INFORMATION then some ([.I nameLength], true)
  else if infoClass = FILE_ATTRIBUTE_TAG_INFORMATION then
    some ([.I (attributesFor st readOnly), .I 0], false)
  else if infoClass = FILE_NETWORK_OPEN_INFORMATION then
    some ([.Q st.ctime, .Q st.atime, .Q st.mtime, .Q st.mtime, .q (allocationOf st), .q st.size,
      .I (attributesFor st readOnly), .I 0], false)
  else if infoClass = FILE_ALL_INFORMATION then
    some (basicItems st readOnly ++ standardItems st ++ [.Q (st.ino % 2 ^ 64), .I 0, .I 0x001F01FF,
      .q 0, .I 0, .I 0, .I nameLength], true)
  else none

/-- `file_info`. The name is encoded where it is asked for. -/
def fileInfo (infoClass : Nat) (st : Stat) (name : Str) (readOnly : Bool) : Except Exn (Option Bytes) :=
  match infoItems infoClass st ((encodeUtf16 name).getD []).length readOnly with
  | none => .ok none
  | some (items, withName) =>
      match Struct.pack items, encodeUtf16 name with
      | none, _ => .error .other
      | some fixed, none => if withName then .error .other else .ok (some fixed)
      | some fixed, some raw => .ok (some (if withName then fixed ++ raw else fixed))

/-- `fs_info`. -/
def fsItems (infoClass : Nat) (volume : Volume) : Option (List Item) :=
  let label := (encodeUtf16 (lit "PS2SERVERS")).getD []
  let name := (encodeUtf16 (lit "NTFS")).getD []
  if infoClass = 0x01 then
    some [.Q 0, .I 0x53324253, .I label.length, .B 0, .B 0, .s label.length label]
  else if infoClass = 0x03 then some [.q volume.total, .q volume.free, .I volume.sectorsPerUnit, .I 512]
  else if infoClass = 0x07 then
    some [.q volume.total, .q volume.free, .q volume.free, .I volume.sectorsPerUnit, .I 512]
  else if infoClass = 0x04 then some [.I 0x7, .I 0x20]
  else if infoClass = 0x05 then some [.I 0x6, .I 255, .I name.length, .s name.length name]
  else none

/-- The name that QUERY_INFO gives a handle. -/
def shownName (rel : Str) : Str := backslash :: rel.map fun ch => if ch = slash then backslash else ch

/-- What QUERY_INFO answers with, before its length is looked at. -/
def infoOf (share : Share) (named : AnyHandle F) : Action H F (Option Bytes) := do
  let s ← get
  let infoClass := c.body.field 3 1
  if c.body.field 2 1 = 1 then
    match named with
    -- `os.stat(None)`.
    | .pipe _ => throw .other
    | .file handle =>
        match svc.host.stat s.host handle.path with
        | .error e => throw (.osError e)
        | .ok st =>
            match fileInfo infoClass st (shownName handle.rel) (svc.readOnly || share.readOnly) with
            | .error e => throw e
            | .ok blob => return blob
  else if c.body.field 2 1 = 2 then
    match fsItems infoClass (svc.host.volume s.host share.root) with
    | none => return none
    | some items => return some (← packItems items)
  else throw (.status STATUS_NOT_SUPPORTED)

/-- `h_query_info`. -/
def hQueryInfo : Action H F Answer := do
  let share ← shareOf c
  if c.body.length < 40 then throw (.status STATUS_INVALID_PARAMETER)
  else
    let (_, named) ← handleFrom c (c.body.sub 24 16)
    match ← infoOf svc c share named with
    | none => throw (.status STATUS_NOT_SUPPORTED)
    | some blob =>
        if c.body.field 4 4 ≠ 0 ∧ c.body.field 4 4 < blob.length then
          throw (.status STATUS_INFO_LENGTH_MISMATCH)
        else return .success ((← packItems (queryItems blob.length)) ++ blob)

/-! ## SET_INFO -/

/-- A signed number of eight bytes. -/
def signed64 (bytes : Bytes) : Int :=
  let n := bytes.field 0 8
  if n < 2 ^ 63 then n else (n : Int) - 2 ^ 64

/-- The end of a file is set. -/
def setEndOfFile (id : Nat) (payload : Bytes) : AnyHandle F → Action H F Unit
  -- `open(None, "r+b")`.
  | .pipe _ => throw .other
  | .file handle => do
      if handle.canWrite = false then throw (.status STATUS_ACCESS_DENIED)
      else
        let fh ← openHandle svc id handle true
        let s ← get
        let (result, fh, h) := svc.host.truncate s.host fh (signed64 payload)
        set { s with host := h }
        keepFile id fh
        match result with
        | .error e => throw e
        | .ok () => return ()

/-- The handle deletes its entry when it is closed, or no longer. -/
def setDisposition (id : Nat) (delete : Bool) : AnyHandle F → Action H F Unit
  | .pipe _ => updatePipe id fun handle => { handle with deleteOnClose := delete }
  | .file _ => updateFile id fun handle => { handle with deleteOnClose := delete }

/-- `os.path.samefile`. -/
def sameFile (h : H) (p q : Path) : Except Errno Bool :=
  match svc.host.stat h p with
  | .error e => .error e
  | .ok st =>
      match svc.host.stat h q with
      | .error e => .error e
      | .ok st' => .ok (decide (st.ino = st'.ino ∧ st.dev = st'.dev))

/-- The new path is another file that is there. -/
def clashes (path dest : Path) : Action H F Bool := do
  let s ← get
  if exists? svc.host s.host dest then
    match sameFile svc s.host dest path with
    | .error e => throw (.osError e)
    | .ok same => return !same
  else return false

/-- A rename, once its new path is known. -/
def renameTo (id : Nat) (handle : Handle F) (replaceIfExists : Bool) (target : Str) (dest : Path) :
    Action H F Unit := do
  let clash ← clashes svc handle.path dest
  if clash ∧ replaceIfExists = false then throw (.status STATUS_OBJECT_NAME_COLLISION)
  else
    onDisk (call fun h => svc.host.replace h handle.path dest)
    updateFile id fun handle => { handle with path := dest, rel := target }

/-- A rename. -/
def setName (id : Nat) (payload : Bytes) (named : AnyHandle F) : Action H F Unit := do
  let nameLength := payload.field 16 4
  if payload.length < 20 + nameLength then throw (.status STATUS_INVALID_PARAMETER)
  else
    let target := decodeUtf16 (payload.sub 20 nameLength)
    match named with
    -- `IPC_TREE.resolve`.
    | .pipe _ => throw .other
    | .file handle =>
        let s ← get
        match handle.share.resolve svc.host s.host target with
        | .error status => throw (.status status)
        | .ok dest => renameTo svc id handle (payload.field 0 1 != 0) target dest

/-- What `h_set_info` does with its payload. -/
def setInfo (id : Nat) (named : AnyHandle F) (payload : Bytes) : Action H F Unit :=
  let infoClass := c.body.field 3 1
  if c.body.field 2 1 ≠ 1 then throw (.status STATUS_NOT_SUPPORTED)
  else if infoClass = FILE_END_OF_FILE_INFORMATION ∧ 8 ≤ payload.length then
    setEndOfFile svc id payload named
  else if infoClass = FILE_DISPOSITION_INFORMATION ∧ payload ≠ [] then
    setDisposition id (payload.field 0 1 != 0) named
  else if infoClass = FILE_BASIC_INFORMATION then return ()
  else if infoClass = FILE_RENAME_INFORMATION ∧ 20 ≤ payload.length then setName svc id payload named
  else throw (.status STATUS_NOT_SUPPORTED)

/-- `h_set_info`. -/
def hSetInfo : Action H F Answer := do
  let share ← shareOf c
  checkWritable svc (.disk share)
  if c.body.length < 32 then throw (.status STATUS_INVALID_PARAMETER)
  else
    let (id, named) ← handleFrom c (c.body.sub 16 16)
    let payload ← bufferOf c (c.body.field 8 2) (c.body.field 4 4) (HEADER_SIZE + 32)
    setInfo svc c id named payload
    return .success (← packItems [.H 2])

/-! ## IOCTL -/

/-- FSCTL_PIPE_TRANSCEIVE. What does not fit waits in the pipe. -/
def transceive (data : Bytes) : Action H F Answer := do
  let (id, named) ← handleFrom c (c.body.sub 8 16)
  match named with
  | .file _ => throw (.status STATUS_INVALID_DEVICE_REQUEST)
  | .pipe handle =>
      match Pipe.transceive svc.rows (c.body.sub 8 16) data (c.body.field 44 4) handle.pipe with
      | .error e pipe =>
          updatePipe id fun handle => { handle with pipe := pipe }
          throw e
      | .ok (head, out) pipe =>
          updatePipe id fun handle => { handle with pipe := pipe }
          return ⟨if pipe.outbox.length = handle.pipe.outbox.length then STATUS_SUCCESS
            else STATUS_BUFFER_OVERFLOW, head ++ out⟩

/-- `h_ioctl`, where no NEGOTIATE is validated. -/
def hPipeIoctl : Action H F Answer := do
  let _ ← treeOf c true
  if c.body.length < 56 then throw (.status STATUS_INVALID_PARAMETER)
  else
    let data ← bufferOf c (c.body.field 24 4) (c.body.field 28 4) (HEADER_SIZE + 56)
    if c.body.field 4 4 = FSCTL_PIPE_TRANSCEIVE then transceive svc c data
    else throw (.status STATUS_NOT_SUPPORTED)

/-! ## Requests -/

/-- The handlers of `_HANDLERS` for files and pipes. -/
def execute : Command → Action H F Answer
  | .create => hCreateFile svc c
  | .close => hClose svc c
  | .flush => hFlush svc c
  | .read => hRead svc c
  | .write => hWrite svc c
  | .queryDirectory => hQueryDir svc c
  | .queryInfo => hQueryInfo svc c
  | .setInfo => hSetInfo svc c
  | .ioctl => hPipeIoctl svc c
  | _ => throw (.status STATUS_NOT_SUPPORTED)

/-- `Connection.close_all`. -/
def Files.closeAll (s : Files H F) : Files H F :=
  { s with
    host := s.handles.entries.foldl (fun h e => closeFile svc e.2 h) s.host
    handles := { s.handles with entries := [], below := fun _ he => by cases he }
    pipes := [] }

end Ps2Servers.Smb2
