import Ps2Servers.Udpfs.Session

/-!
# The UDPFS server

The handlers of all messages, the check of packet numbers in front of them, and the
server that keeps a session for every peer.

## Implementation notes

A request runs to its end before the next one starts: the steps of a run are whole
datagrams. A session may go at any time, as when it is evicted or its peer has been
quiet for too long, and closes its own handles then.
-/

namespace Ps2Servers.Udpfs

open Text Effects

variable {H V B : Type} (env : Env H V B)

/-! ## Stat fields -/

/-- `_encode_time`. -/
def encodeTime (timestamp : Int) : Except Exn Bytes :=
  match env.host.localtime timestamp with
  | .ok t =>
      if 0 ≤ t.year ∧ t.year < 0x10000 then
        .ok ([0, t.sec, t.min, t.hour, t.mday, t.mon] ++ Bytes.ofNat 2 t.year.toNat)
      else .error .structError
  | .error e => if e.isOSError || e.isValueError then .ok noTime else .error e

/-- The stat fields of a size and the times of a file. -/
def statFields (mode size : Nat) (st : Stat) : Except Exn StatInfo := do
  let ctime ← encodeTime env st.ctime
  let atime ← encodeTime env st.atime
  let mtime ← encodeTime env st.mtime
  return ⟨mode, 0, size % 0x100000000, size / 0x100000000 % 0x100000000, ctime, atime, mtime⟩

/-- `_stat_to_bytes`. -/
def statToBytes (st : Stat) : Except Exn StatInfo :=
  statFields env (if st.isReg then FIO_S_IFREG else if st.isDir then FIO_S_IFDIR else 0) st.size st

/-- `_get_compressed_stat`. -/
def getCompressedStat (h : H) (path : Str) (st : Stat) : Except Exn (Option StatInfo) :=
  match getCompressedInfo env.host h path with
  | none => .ok none
  | some size => some <$> statFields env FIO_S_IFREG size st

/-- `_virtual_stat`. -/
def virtualStat (view : V) (st : Stat) : Except Exn StatInfo :=
  statFields env FIO_S_IFREG (env.views.size view) st

/-! ## Names and paths -/

def ISO : Str := lit ".iso"

/-- `_transform_compressed_name`. -/
def transformCompressedName (name : Str) : Str :=
  if env.cfg.enableCompression &&
      (COMPRESSED_EXTENSIONS env.codecs).any (lowerEndsWith env.host name) then name ++ ISO
  else name

/-- `os.listdir`, where an error is an empty listing. -/
def listingOf (h : H) (folder : Str) : List Str :=
  match env.host.scandir h (some folder) with
  | .ok entries => entries.map Entry.name
  | .error _ => []

/-- The candidate lies below the root when it is resolved from there. -/
def insideRoot (h : H) (candidate : Str) : Bool :=
  match env.cfg.rootDir with
  | none => false
  | some root =>
      (resolvePath env.host env.cfg.rootDir h (env.host.relpath candidate root)).isSome

/-- The source of a canonical alias: the container name before the `.iso`, in any case of its
extension. -/
def canonicalSource (h : H) (base ext : Str) : Option Str :=
  match resolvePath env.host env.cfg.rootDir h base with
  | none => none
  | some resolved =>
      if exists_ env.host h resolved then some resolved
      else if some resolved = env.cfg.rootDir then none
      else
        let (folder, name) := env.host.split resolved
        let stem := (env.host.splitext name).1
        let candidates := (listingOf env h folder).filter fun entry =>
          (env.host.splitext entry).1 = stem && extension env.host entry = ext
        (candidates.map (env.host.join folder)).find? (insideRoot env h)

/-- `_add`: a candidate that exists and is not there yet. -/
def addCandidate (h : H) (candidates : List Str) : Option Str → List Str
  | none => candidates
  | some path =>
      if !candidates.contains path && exists_ env.host h path then candidates ++ [path]
      else candidates

/-- The containers a legacy alias may stand for, in probe order. -/
def siblingCandidates (h : H) (base : Str) : List Str :=
  let extensions := COMPRESSED_EXTENSIONS env.codecs
  let resolve := resolvePath env.host env.cfg.rootDir h
  let direct := extensions.foldl (fun found ext => addCandidate env h found (resolve (base ++ ext))) []
  match resolve base with
  | none => direct
  | some resolved =>
      if some resolved = env.cfg.rootDir then direct
      else
        let (folder, stem) := env.host.split resolved
        let sameStem := (listingOf env h folder).filter fun entry =>
          (env.host.splitext entry).1 = stem
        extensions.foldl (fun found ext =>
          match sameStem.find? fun entry => extension env.host entry = ext with
          | none => found
          | some entry =>
              let candidate := env.host.join folder entry
              if insideRoot env h candidate then addCandidate env h found (some candidate)
              else found) direct

/-- `_resolve_compressed_sibling`. -/
def resolveCompressedSibling (h : H) (path : Str) : Option Str :=
  if !env.cfg.enableCompression || !lowerEndsWith env.host path ISO then none
  else
    let base := path.take (path.length - ISO.length)
    let ext := extension env.host base
    if (COMPRESSED_EXTENSIONS env.codecs).contains ext then canonicalSource env h base ext
    else
      let candidates := siblingCandidates env h base
      (candidates.find? fun c => (getCompressedInfo env.host h c).isSome).orElse
        fun _ => candidates.head?

/-- `_resolve_virtual_chd`. -/
def resolveVirtualChd (h : H) (path : Str) : Option V :=
  let aliased := [lit ".cue", lit ".bin"].any (lowerEndsWith env.host path)
  match env.cfg.rootDir, resolvePath env.host env.cfg.rootDir h path with
  | some root, some resolved =>
      if !env.cfg.enableCompression || !aliased then none
      else
        match throughLinkedFolder env.host h root path with
        | .ok false =>
            let entryThere := (resolveEntry env.host env.cfg.rootDir h path).any (lexists env.host h)
            if entryThere || lexists env.host h resolved then none
            else env.views.findVirtualView h resolved
        | _ => none
  | _, _ => none

/-- Whether the path itself names something. -/
def realFileExists (h : H) (path : Str) : Bool :=
  (resolvePath env.host env.cfg.rootDir h path).any (exists_ env.host h) ||
    (resolveEntry env.host env.cfg.rootDir h path).any (lexists env.host h)

/-! ## Listings -/

/-- One entry of a listing under the name it is advertised by, if it is. -/
def advertise (h : H) (realNames : List Str) (entry : Entry) : Except Exn (Option (Advertised V)) :=
  let name := transformCompressedName env entry.name
  if name = entry.name then .ok (some ⟨name, entry, none, none, none⟩)
  else if realNames.contains name then .ok none
  else do
    let bytes ← orRaise .valueError (encode name)
    if 255 < bytes.length then return none
    match env.host.lstat h entry.path with
    | .error _ => return none
    | .ok st =>
        let info ← getCompressedStat env h entry.path st
        return info.map fun info => ⟨name, entry, some st, some info, none⟩

/-- One virtual name of a listing. -/
def advertiseView (h : H) (entries : List Entry) (name : Str) (view : V) :
    Except Exn (Option (Advertised V)) :=
  let target := env.host.abspath (env.views.chdPath view)
  match entries.reverse.find? fun e => env.host.abspath e.path = target with
  | none => .ok none
  | some source =>
      match env.host.lstat h source.path with
      | .error _ => .ok none
      | .ok st => do
          let info ← virtualStat env view st
          return some ⟨name, source, some st, some info, some view⟩

/-- The advertised entries, where an exception ends the listing. -/
def collect {α β : Type} (f : α → Except Exn (Option β)) : List α → Except Exn (List β)
  | [] => .ok []
  | a :: rest => do
      let b ← f a
      let bs ← collect f rest
      return b.toList ++ bs

/-- `_prepare_directory_entries`. -/
def prepareDirectoryEntries (h : H) (entries : List Entry) : Except Exn (List (Advertised V)) := do
  let prepared ← collect (advertise env h (entries.map Entry.name)) entries
  if env.cfg.enableCompression then
    let directory :=
      match entries with
      | [] => env.cfg.rootDir
      | entry :: _ => some (dirname env.host entry.path)
    let named := env.views.listVirtualEntries h directory entries
    let virtual ← collect (fun p => advertiseView env h entries p.1 p.2) named
    return prepared ++ virtual
  else return prepared

/-- `entry.stat(follow_symlinks=False)`, which an entry remembers. -/
def Advertised.stat (h : H) (a : Advertised V) : Except Errno Stat :=
  match a.cached with
  | some st => .ok st
  | none => env.host.lstat h a.source.path

/-- A virtual name that a file has meanwhile. -/
def Advertised.shadowed (h : H) (a : Advertised V) : Bool :=
  a.view.any fun view =>
    let stem := (env.host.splitext (env.views.path view)).1
    lexists env.host h (stem ++ lit ".cue") || lexists env.host h (stem ++ lit ".bin")

/-- The stat DREAD takes of an entry, if it does not pass over it: over a shadowed name, an entry
that cannot be looked at, and a view whose image is no regular file any more. -/
def Advertised.lookAt (h : H) (a : Advertised V) : Option Stat :=
  if a.shadowed env h then none
  else
    match a.stat env h with
    | .error _ => none
    | .ok st => if a.view.isSome && !st.isReg then none else some st

/-- The next entry that is served, its stat and what is left behind it. -/
def nextServed (h : H) : List (Advertised V) → Option (Advertised V × Stat × List (Advertised V))
  | [] => none
  | a :: rest =>
      match a.lookAt env h with
      | some st => some (a, st, rest)
      | none => nextServed h rest

/-- The stat fields DREAD sends for an entry. -/
def Advertised.fields (a : Advertised V) (st : Stat) : Except Exn StatInfo :=
  match a.view, a.statInfo with
  | some view, _ => virtualStat env view st
  | none, some info => .ok info
  | none, none => statToBytes env st

/-! ## Handles -/

def MAX_HANDLES : Nat := 64

/-- The block device's file object, in the mode the server opened it. -/
def BlockDevice.file (d : BlockDevice) : PlainFile :=
  ⟨d.inode, if env.cfg.readOnly then .rb else .rPlus, d.pos⟩

/-- `self.handles.get(handle)`. -/
def World.handle (w : World H V B) (handle : Int) : Option (Obj V B) :=
  if handle = 0 then w.bd.map fun d => .file (d.file env)
  else if handle < 0 then none
  else w.session.handles.lookup handle.toNat

/-- The object behind a handle has changed. -/
def World.update (w : World H V B) (handle : Int) (obj : Obj V B) : World H V B :=
  if handle = 0 then
    match obj with
    | .file f => { w with bd := w.bd.map fun d => { d with pos := f.pos } }
    | _ => w
  else
    { w with session := { w.session with
        handles := w.session.handles.map fun e => if e.1 = handle.toNat then (e.1, obj) else e } }

def World.handleCount (w : World H V B) : Nat :=
  w.session.handles.length + if w.bd.isSome then 1 else 0

/-- `_alloc_handle`. -/
def allocHandle (obj : Obj V B) : Handler H V B Int := do
  let w ← get
  if MAX_HANDLES ≤ w.handleCount then return -EMFILE.toNat
  set { w with session := { w.session with
    handles := w.session.handles ++ [(w.session.nextHandle, obj)]
    nextHandle := w.session.nextHandle + 1 } }
  return w.session.nextHandle

/-- `_free_handle`, for a session's own handle. -/
def freeHandle (handle : Int) : Handler H V B Unit :=
  modify fun w => { w with session := { w.session with
    handles := w.session.handles.filter fun e => e.1 != handle.toNat } }

/-- `fh.obj.read(size)`. -/
def Obj.read (h : H) (size : Nat) : Obj V B → Except Exn Bytes × Obj V B
  | .file f => ((f.read env.host h size).1, .file (f.read env.host h size).2)
  | .image w =>
      ((w.read env.host env.codecs h size).1, .image (w.read env.host env.codecs h size).2)
  | .view b => ((env.views.read h b size).1, .view (env.views.read h b size).2)
  | .dir entries => (.error .typeError, .dir entries)

/-- `fh.obj.seek(offset, whence)`. -/
def Obj.seek (h : H) (offset : Int) (whence : Nat) : Obj V B → Except Exn Nat × Obj V B
  | .file f => ((f.seek env.host h offset whence).1, .file (f.seek env.host h offset whence).2)
  | .image w => (.ok (w.seek offset whence).1, .image (w.seek offset whence).2)
  | .view b => ((env.views.seek h b offset whence).1, .view (env.views.seek h b offset whence).2)
  | .dir entries => (.error .typeError, .dir entries)

/-- `FileHandle.writable`. -/
def Obj.writable : Obj V B → Bool
  | .file f => f.mode.writable
  | _ => false

/-- A call on the object behind a handle, which keeps what it became. -/
def onObject {α : Type} (handle : Int) (call : H → Except Exn α × Obj V B) : Handler H V B α := do
  let w ← get
  set (w.update handle (call w.host).2)
  raise (call w.host).1

/-- `fh.obj.write(data)` and `fh.obj.flush()`. -/
def writeObject (handle : Int) (f : PlainFile) (data : Bytes) : Handler H V B Nat := do
  let w ← get
  let (result, f', h') := f.write env.host w.host data
  set { w.update handle (.file f') with host := h' }
  raise result

/-- `obj.seek(offset)` and `obj.read(size)`. -/
def Obj.seekRead (h : H) (offset size : Nat) (obj : Obj V B) : Except Exn Bytes × Obj V B :=
  match obj.seek env h offset 0 with
  | (.ok _, obj') => obj'.read env h size
  | (.error e, obj') => (.error e, obj')

/-- `obj.seek(offset)`, `obj.write(data)` and `obj.flush()`. -/
def seekWrite (handle : Int) (f : PlainFile) (offset : Nat) (data : Bytes) : Handler H V B Unit := do
  let w ← get
  let (result, f') := f.seek env.host w.host offset 0
  let _ ← raise result
  let _ ← writeObject env handle f' data

/-- `bd_read`. -/
def bdRead (d : BlockDevice) (offset size : Nat) : Handler H V B Bytes :=
  if env.host.hasPread then do
    let w ← get
    raise (orFault (env.host.readAt w.host d.inode offset size))
  else onObject 0 fun h => (Obj.file (d.file env)).seekRead env h offset size

/-- `bd_write`. -/
def bdWrite (d : BlockDevice) (offset : Nat) (data : Bytes) : Handler H V B Unit :=
  if env.host.hasPwrite then do
    let _ ← hostCall fun h => env.host.pwrite h d.inode offset data
  else seekWrite env 0 (d.file env) offset data

/-! ## Requests -/

/-- A signed field. -/
def signed (bytes : Bytes) (offset size : Nat) : Int :=
  let n := bytes.field offset size
  if 256 ^ size ≤ 2 * n then (n : Int) - (256 ^ size : Nat) else n

/-- The path of a message: up to its first NUL, decoded with replacements. -/
def clientPath (bytes : Bytes) : Str := decodeReplace (bytes.takeWhile (· ≠ 0))

def O_RDONLY : Nat := 0x01

def O_WRONLY : Nat := 0x02

def O_APPEND : Nat := 0x0100

def O_CREAT : Nat := 0x0200

def O_TRUNC : Nat := 0x0400

def hasFlag (flags flag : Nat) : Bool := flags &&& flag ≠ 0

/-- `_flags_to_mode`. -/
def flagsToMode (flags : Nat) (fileExists : Bool) : Mode :=
  match flags &&& 0x03 with
  | 0x02 =>
      if hasFlag flags O_APPEND then .ab
      else if hasFlag flags O_TRUNC then .wb
      else if hasFlag flags O_CREAT then if fileExists then .rPlus else .wb
      else .rPlus
  | 0x03 =>
      if hasFlag flags O_CREAT then
        if hasFlag flags O_TRUNC then .wPlus
        else if hasFlag flags O_APPEND then .aPlus
        else if fileExists then .rPlus
        else .wPlus
      else .rPlus
  | _ => .rb

def openError (errno : Errno) : Handler H V B Unit := sendOpenReply (-errno.toNat) .blank

/-- The reply to an OPEN that reached the handle table. -/
def openedReply (handle : Int) (info : StatInfo) : Handler H V B Unit :=
  if handle < 0 then sendOpenReply handle .blank else sendOpenReply handle info

/-- `os.stat(path)`, where the path may be `None`. -/
def statPath (path : Option Str) : Handler H V B Stat := do
  let w ← get
  match path with
  | some path => osCall (env.host.stat w.host path)
  | none => throw .typeError

/-- A directory OPEN. -/
def openDirectory (resolved : Option Str) : Handler H V B Unit :=
  answerErrno (sendOpenReply · .blank) do
    let w ← get
    let entries ← osCall (env.host.scandir w.host resolved)
    let prepared ← raise (prepareDirectoryEntries env w.host entries)
    let handle ← allocHandle (.dir prepared)
    if handle < 0 then sendOpenReply handle .blank
    else
      let st ← statPath env resolved
      let info ← raise (statToBytes env st)
      sendOpenReply handle info

/-- An OPEN of a virtual CUE or BIN. -/
def openVirtual (view : V) (flags : Nat) : Handler H V B Unit :=
  if flags &&& 0x03 ≠ O_RDONLY ∨ hasFlag flags (O_APPEND ||| O_CREAT ||| O_TRUNC) then
    openError EACCES
  else
    rescue
      (do
        let w ← get
        let obj ← raise (env.views.openView w.host view env.cfg.compressionCacheSize)
        let st ← osCall (env.host.lstat w.host (env.views.chdPath view))
        let info ← raise (virtualStat env view st)
        let handle ← allocHandle (.view obj)
        openedReply handle info)
      Exn.isImageError fun _ => openError EIO

/-- `open_compressed`, where the errors of an image are reported as no wrapper. -/
def openWrapper (h : H) (path : Str) : Except Exn (Option Wrapper) :=
  match openCompressed env.host env.codecs h path env.cfg.compressionCacheSize with
  | .ok wrapper => .ok wrapper
  | .error e => if e.isImageError then .ok none else .error e

/-- The stat fields of an image: those of its contents, or else of the container. -/
def imageFields (h : H) (path : Str) (st : Stat) : Except Exn StatInfo := do
  match ← getCompressedStat env h path st with
  | some info => return info
  | none => statToBytes env st

/-- An OPEN of an image by its alias. -/
def openImage (path : Str) : Handler H V B Unit := do
  let w ← get
  match ← raise (openWrapper env w.host path) with
  | none => openError EIO
  | some wrapper =>
      let st ← osCall (env.host.stat w.host path)
      let info ← raise (imageFields env w.host path st)
      let handle ← allocHandle (.image wrapper)
      openedReply handle info

/-- `open(path, mode)`. -/
def openPath (path : Str) (mode : Mode) : Handler H V B Inode := do
  let w ← get
  if mode = .rb then osCall (env.host.openRead w.host path)
  else
    let (inode, h) ← osCall (env.host.openWrite w.host path mode)
    setHost h
    return inode

/-- An OPEN of a file. -/
def openPlain (path : Str) (mode : Mode) : Handler H V B Unit := do
  let inode ← openPath env path mode
  let w ← get
  let st ← osCall (env.host.fstat w.host inode)
  let info ← raise (statToBytes env st)
  let start := if mode.appends then env.host.fileEnd w.host inode else 0
  let handle ← allocHandle (.file ⟨inode, mode, start⟩)
  openedReply handle info

/-- The parent directories of a file that is to be created. -/
def makeParents (path : Str) (flags : Nat) : Handler H V B Unit := do
  let w ← get
  if hasFlag flags O_CREAT ∧ !exists_ env.host w.host (dirname env.host path) then
    hostCall fun h => env.host.makedirs h (dirname env.host path)

/-- A file OPEN, once the path is known. -/
def openFile (path : Str) (compressed : Bool) (flags : Nat) : Handler H V B Unit := do
  let w ← get
  let there := exists_ env.host w.host path
  if !there && !hasFlag flags O_CREAT then openError ENOENT
  else
    answerErrno (sendOpenReply · .blank) do
      makeParents env path flags
      if compressed then openImage env path else openPlain env path (flagsToMode flags there)

/-- What the path of an OPEN stands for, besides itself. -/
def aliasOf (h : H) (path : Str) : Option Str × Option V :=
  if realFileExists env h path then (none, none)
  else
    match resolveCompressedSibling env h path with
    | some source => (some source, none)
    | none => (none, resolveVirtualChd env h path)

/-- `_handle_open`. -/
def handleOpen (payload : Bytes) : Handler H V B Unit := do
  if payload.length < 8 then openError EINVAL
  else
    let w ← get
    let flags := payload.field 2 2
    let path := clientPath (payload.drop 8)
    let resolved := resolvePath env.host env.cfg.rootDir w.host path
    let (source, view) := aliasOf env w.host path
    if resolved.isNone && source.isNone && view.isNone then openError EACCES
    else if payload.field 1 1 ≠ 0 then openDirectory env resolved
    else if env.cfg.readOnly && hasFlag flags O_WRONLY then openError EACCES
    else
      match view, source, resolved with
      | some view, _, _ => openVirtual env view flags
      | none, some source, _ => openFile env source true flags
      | none, none, some resolved => openFile env resolved false flags
      | none, none, none => openError EACCES

/-- `_handle_close`. -/
def handleClose (payload : Bytes) : Handler H V B Unit := do
  if payload.length < 8 then sendCloseReply (-EINVAL.toNat)
  else
    let w ← get
    let handle := signed payload 4 4
    if handle = 0 then sendCloseReply 0
    else if (w.handle env handle).isNone then sendCloseReply (-EBADF.toNat)
    else
      freeHandle handle
      sendCloseReply 0

def readError (errno : Errno) : Handler H V B Unit := sendReadResult (-errno.toNat) []

/-- The object of a handle that is not a directory. -/
def World.file (w : World H V B) (handle : Int) : Option (Obj V B) :=
  (w.handle env handle).filter fun obj => !obj.isDir

/-- `_handle_read`. -/
def handleRead (payload : Bytes) : Handler H V B Unit := do
  if payload.length < 12 then readError EINVAL
  else
    let w ← get
    let handle := signed payload 4 4
    let size := payload.field 8 4
    if env.cfg.maxTransferBytes < size then readError EINVAL
    else
      match w.file env handle with
      | none => readError EBADF
      | some obj =>
          answerErrno (sendReadResult · []) do
            let data ← onObject handle fun h => obj.read env h size
            sendReadResult data.length data

/-- `_handle_lseek`. -/
def handleLseek (payload : Bytes) : Handler H V B Unit := do
  if payload.length < 16 then sendLseekReply (-EINVAL.toNat)
  else
    let w ← get
    let whence := payload.field 1 1
    let handle := signed payload 4 4
    let offset := signed payload 8 8
    match w.file env handle with
    | none => sendLseekReply (-EBADF.toNat)
    | some obj =>
        rescue
          (do
            let position ← onObject handle fun h => obj.seek env h offset whence
            sendLseekReply position)
          (fun e => e.isOSError || e.isValueError)
          (fun e => do
            if e.isOSError then sendLseekReply (← negErrno e) else sendLseekReply (-EINVAL.toNat))

/-- Sectors of the block device have its own size, those of other files 512 bytes. -/
def sectorSize (handle : Int) : Nat := if handle = 0 then env.cfg.bdSectorSize else 512

/-- The bytes of a BREAD: positional on the block device, through the object otherwise. -/
def readSectors (handle : Int) (obj : Obj V B) (offset size : Nat) : Handler H V B Bytes := do
  let w ← get
  if handle = 0 then
    match w.bd with
    | some d => bdRead env d offset size
    | none => throw .attributeError
  else onObject handle fun h => obj.seekRead env h offset size

/-- A BREAD of an open object. -/
def breadFrom (payload : Bytes) (handle : Int) (obj : Obj V B) : Handler H V B Unit := do
  let total := payload.field 2 2 * sectorSize env handle
  let offset := payload.field 8 8 * sectorSize env handle
  if env.cfg.maxTransferBytes < total then readError EINVAL
  else if MAX_OFFSET < offset then readError EINVAL
  else
    let outcome ← rescue (Except.ok <$> readSectors env handle obj offset total)
      Exn.isOSError fun e => Except.error <$> negErrno e
    match outcome with
    | .ok data => sendReadResult data.length data
    | .error number => sendReadResult number []

/-- `_handle_bread`. -/
def handleBread (payload : Bytes) : Handler H V B Unit := do
  if payload.length < 16 then readError EINVAL
  else
    let w ← get
    let handle := signed payload 4 4
    match w.file env handle with
    | none => readError EBADF
    | some obj => breadFrom env payload handle obj

/-- `_handle_dread`. An entry is given out once, whatever becomes of its reply. -/
def handleDread (payload : Bytes) : Handler H V B Unit := do
  if payload.length < 8 then sendDreadReply (-EINVAL.toNat) [] .blank
  else
    let w ← get
    let handle := signed payload 4 4
    match w.handle env handle with
    | some (.dir entries) =>
        match nextServed env w.host entries with
        | none =>
            set (w.update handle (.dir []))
            sendDreadReply 0 [] .blank
        | some (a, st, rest) =>
            set (w.update handle (.dir rest))
            let info ← raise (a.fields env st)
            sendDreadReply 1 a.name info
    | _ => sendDreadReply (-EBADF.toNat) [] .blank

/-- The stat fields of an image's alias. -/
def sourceFields (h : H) (path : Str) : Except Exn (Option StatInfo) :=
  match resolveCompressedSibling env h path with
  | none => .ok none
  | some source =>
      match env.host.stat h source with
      | .error _ => .ok none
      | .ok st => getCompressedStat env h source st

/-- The stat fields of a virtual CUE or BIN. -/
def viewFields (h : H) (path : Str) : Except Exn (Option StatInfo) :=
  match resolveVirtualChd env h path with
  | none => .ok none
  | some view =>
      match env.host.lstat h (env.views.chdPath view) with
      | .error _ => .ok none
      | .ok st => some <$> virtualStat env view st

/-- GETSTAT of a path that names nothing itself. -/
def getstatAlias (path : Str) : Handler H V B Unit := do
  let w ← get
  match ← raise (sourceFields env w.host path) with
  | some info => sendGetstatReply 0 info
  | none =>
      match ← raise (viewFields env w.host path) with
      | some info => sendGetstatReply 0 info
      | none =>
          let errno :=
            if (resolvePath env.host env.cfg.rootDir w.host path).isNone then EACCES else ENOENT
          sendGetstatReply (-errno.toNat) .blank

/-- `_handle_getstat`. -/
def handleGetstat (payload : Bytes) : Handler H V B Unit := do
  if payload.length < 4 then sendGetstatReply (-EINVAL.toNat) .blank
  else
    let w ← get
    let path := clientPath (payload.drop 4)
    if path = [] ∧ w.bd.isSome then
      let total := env.cfg.bdSectorSize * env.cfg.bdSectorCount
      sendGetstatReply 0 { StatInfo.blank with
        size := total % 0x100000000, hisize := total / 0x100000000 % 0x100000000 }
    else if !realFileExists env w.host path then getstatAlias env path
    else
      answerErrno (sendGetstatReply · .blank) do
        let st ← statPath env (resolvePath env.host env.cfg.rootDir w.host path)
        let info ← raise (statToBytes env st)
        sendGetstatReply 0 info

/-! ## Changes of the file system -/

def resultError (errno : Errno) : Handler H V B Unit := sendResultReply (-errno.toNat)

/-- A call that changes the host, unless it fails. -/
def hostEdit (call : H → Except Errno H) : Handler H V B Unit := do
  let w ← get
  let h ← osCall (call w.host)
  setHost h

/-- `_handle_mkdir`. -/
def handleMkdir (payload : Bytes) : Handler H V B Unit := do
  if payload.length < 4 then resultError EINVAL
  else
    let w ← get
    let mode := payload.field 2 2
    let path := clientPath (payload.drop 4)
    if env.cfg.readOnly then resultError EACCES
    else
      match resolveEntry env.host env.cfg.rootDir w.host path with
      | none => resultError EACCES
      | some entry =>
          answerErrno sendResultReply do
            hostEdit fun h => env.host.mkdir h entry (if mode = 0 then 0o755 else mode)
            sendResultReply 0

/-- REMOVE or RMDIR of an entry: refused through a linked folder, and by the kind of entry. -/
def deleteEntry (root path entry : Str) (refused : Stat → Bool) (errno : Errno)
    (delete : H → Str → Except Errno H) : Handler H V B Unit :=
  answerErrno sendResultReply do
    let w ← get
    let linked ← osCall (throughLinkedFolder env.host w.host root path)
    if linked then resultError EACCES
    else
      let st ← osCall (env.host.lstat w.host entry)
      if refused st then resultError errno
      else
        hostEdit fun h => delete h entry
        sendResultReply 0

/-- `_handle_remove`. -/
def handleRemove (payload : Bytes) : Handler H V B Unit := do
  if payload.length < 4 then resultError EINVAL
  else
    let w ← get
    let path := clientPath (payload.drop 4)
    if env.cfg.readOnly then resultError EACCES
    else
      match env.cfg.rootDir, resolveEntry env.host env.cfg.rootDir w.host path with
      | some root, some entry => deleteEntry env root path entry Stat.isDir EISDIR env.host.unlink
      | _, _ => resultError EACCES

/-- `_handle_rmdir`. -/
def handleRmdir (payload : Bytes) : Handler H V B Unit := do
  if payload.length < 4 then resultError EINVAL
  else
    let w ← get
    let path := clientPath (payload.drop 4)
    if env.cfg.readOnly then resultError EACCES
    else
      match env.cfg.rootDir, resolveEntry env.host env.cfg.rootDir w.host path with
      | some root, some entry =>
          if entry = root then resultError EACCES
          else deleteEntry env root path entry (fun st => !st.isDir) ENOTDIR env.host.rmdir
      | _, _ => resultError EACCES

/-! ## Writes -/

/-- `_reset_write`. -/
def resetWrite : Handler H V B Unit :=
  modify fun w => { w with session := { w.session with
    writeHandle := -1
    writeIsBlock := false
    writeSectorNr := 0
    writeSectorCount := 0
    writeData := []
    writeTotalChunks := 0
    writeReceivedChunks := 0 } }

def writeError (errno : Errno) : Handler H V B Unit := sendWriteDone (-errno.toNat)

/-- `_complete_write`. -/
def completeWrite : Handler H V B Unit := do
  let w ← get
  resetWrite
  match w.file env w.session.writeHandle with
  | none => writeError EBADF
  | some obj =>
      answerErrno sendWriteDone do
        match obj with
        | .file f =>
            let written ← writeObject env w.session.writeHandle f w.session.writeData
            sendWriteDone written
        | _ => throw .attributeError

/-- `_complete_bwrite`. -/
def completeBwrite : Handler H V B Unit := do
  let w ← get
  let handle := w.session.writeHandle
  resetWrite
  match w.file env handle with
  | none => writeError EBADF
  | some obj =>
      let data := w.session.writeData.take (w.session.writeSectorCount * sectorSize env handle)
      let offset := w.session.writeSectorNr * sectorSize env handle
      answerErrno sendWriteDone do
        if handle = 0 then
          match w.bd with
          | some d => bdWrite env d offset data
          | none => throw .attributeError
        else
          match obj with
          | .file f => seekWrite env handle f offset data
          | _ => throw .attributeError
        sendWriteDone 0

/-- `_handle_write_data`. -/
def handleWriteData (payload : Bytes) : Handler H V B Unit := do
  let w ← get
  let s := w.session
  let chunk := payload.sub 8 (payload.field 4 2)
  let total := payload.field 6 2
  if payload.length < 8 ∨ s.writeHandle < 0 ∨ payload.field 2 2 ≠ s.writeReceivedChunks then
    return ()
  else if env.cfg.maxTransferBytes < s.writeData.length + chunk.length then
    resetWrite
    writeError EINVAL
  else
    set { w with session := { s with
      writeData := s.writeData ++ chunk
      writeTotalChunks := total
      writeReceivedChunks := s.writeReceivedChunks + 1 } }
    if total ≤ s.writeReceivedChunks + 1 then
      if s.writeIsBlock then completeBwrite env else completeWrite env

/-- `_handle_write_req`. -/
def handleWriteReq (payload : Bytes) : Handler H V B Unit := do
  resetWrite
  if payload.length < 12 then return ()
  else
    let w ← get
    let handle := signed payload 4 4
    if env.cfg.readOnly then writeError EACCES
    else if env.cfg.maxTransferBytes < payload.field 8 4 then writeError EINVAL
    else
      match w.file env handle with
      | none => writeError EBADF
      | some obj =>
          if !obj.writable then writeError EACCES
          else
            set { w with session := { w.session with writeHandle := handle } }
            if 12 < payload.length then handleWriteData env (payload.drop 12)

/-- `_handle_bwrite_req`. -/
def handleBwriteReq (payload : Bytes) : Handler H V B Unit := do
  resetWrite
  if payload.length < 16 then return ()
  else
    let w ← get
    let count := payload.field 2 2
    let handle := signed payload 4 4
    let sector := payload.field 8 8
    if env.cfg.readOnly then writeError EACCES
    else
      match w.file env handle with
      | none => writeError EBADF
      | some obj =>
          let size := sectorSize env handle
          if !obj.writable then writeError EACCES
          else if env.cfg.maxTransferBytes < count * size then writeError EINVAL
          else if MAX_OFFSET < sector * size + count * size then writeError EINVAL
          else
            set { w with session := { w.session with
              writeHandle := handle
              writeIsBlock := true
              writeSectorNr := sector
              writeSectorCount := count } }
            if 16 < payload.length then handleWriteData env (payload.drop 16)

/-! ## Datagrams -/

/-- Message types of requests. -/
inductive MsgType
  | open_
  | close
  | read
  | writeReq
  | writeData
  | lseek
  | dread
  | getstat
  | mkdir
  | remove
  | rmdir
  | bread
  | bwriteReq
  | other
  deriving DecidableEq, Repr

def MsgType.ofByte : Nat → MsgType
  | 0x10 => open_
  | 0x12 => close
  | 0x14 => read
  | 0x16 => writeReq
  | 0x17 => writeData
  | 0x1a => lseek
  | 0x1c => dread
  | 0x1e => getstat
  | 0x20 => mkdir
  | 0x22 => remove
  | 0x24 => rmdir
  | 0x28 => bread
  | 0x2a => bwriteReq
  | _ => other

/-- The type of a message. -/
def msgType (payload : Bytes) : MsgType := MsgType.ofByte (payload.field 0 1)

/-- The handler of an accepted message. -/
def handleMessage (payload : Bytes) : Handler H V B Unit :=
  match msgType payload with
  | .open_ => handleOpen env payload
  | .close => handleClose env payload
  | .read => handleRead env payload
  | .writeReq => handleWriteReq env payload
  | .writeData => handleWriteData env payload
  | .lseek => handleLseek env payload
  | .dread => handleDread env payload
  | .getstat => handleGetstat env payload
  | .mkdir => handleMkdir env payload
  | .remove => handleRemove env payload
  | .rmdir => handleRmdir env payload
  | .bread => handleBread env payload
  | .bwriteReq => handleBwriteReq env payload
  | .other => pure ()

/-- `Header.unpack`. -/
def packetType (datagram : Bytes) : Nat := datagram.field 0 2 % 0x10

def seqNr (datagram : Bytes) : Nat := datagram.field 0 2 / 0x10

def DISCOVERY : Nat := 0

def DATA : Nat := 2

/-- The application header and data of a DATA packet, as its header counts them. -/
def payloadSize (datagram : Bytes) : Nat :=
  let v := datagram.field 2 4
  v / 0x4000 % 0x10 * 4 + v / 0x40000 % 0x4000

/-- The message of a DATA packet that the session accepts: the packet expected next, or number 0,
which starts over. Acknowledgements and packets out of sequence have none. -/
def acceptedPayload (s : Session V B) (datagram : Bytes) : Option Bytes :=
  let seq := seqNr datagram
  if datagram.length < 6 ∨ packetType datagram ≠ DATA ∨ payloadSize datagram = 0 then none
  else if seq = s.rxSeqNrExpected then some (datagram.sub 6 (payloadSize datagram))
  else if seq = (s.rxSeqNrExpected + 0xfff) % 0x1000 then none
  else if seq = 0 then some (datagram.sub 6 (payloadSize datagram))
  else none

/-- `_handle_data`. -/
def handleData (datagram : Bytes) : Handler H V B Unit := do
  let w ← get
  match acceptedPayload w.session datagram with
  | none => return ()
  | some payload =>
      set { w with session := { w.session with rxSeqNrExpected := (seqNr datagram + 1) % 0x1000 } }
      if payload = [] then return () else handleMessage env payload

/-! ## The server -/

abbrev Addr := String × Nat

structure Server (H V B : Type) where
  host : H
  bd : Option BlockDevice
  sessions : Addr → Option (Session V B)

/-- A server that nobody has talked to. -/
def Server.new (host : H) (bd : Option Inode) : Server H V B :=
  ⟨host, bd.map fun inode => ⟨inode, 0⟩, fun _ => none⟩

def Server.session (s : Server H V B) (addr : Addr) : Session V B :=
  (s.sessions addr).getD Session.new

/-- What a handler of one peer starts from. -/
def Server.world (s : Server H V B) (addr : Addr) : World H V B :=
  ⟨s.host, s.bd, s.session addr, []⟩

def Server.settle (s : Server H V B) (addr : Addr) (w : World H V B) : Server H V B :=
  ⟨w.host, w.bd, fun a => if a = addr then some w.session else s.sessions a⟩

/-- A handler runs for a peer: the server after it, and what was sent. -/
def Server.run (s : Server H V B) (addr : Addr) (handler : Handler H V B Unit) :
    Server H V B × List Bytes :=
  let w := final (handler (s.world addr))
  (s.settle addr w, w.sent)

def UDPRDMA_SVC_UDPFS : Nat := 0xF5F5

/-- `_handle_discovery`. A packet that repeats one of the last two seconds changes nothing. -/
def handleDiscovery (datagram : Bytes) (repeated : Bool) : Handler H V B Unit :=
  modify fun w =>
    if env.cfg.moduloCompat && !repeated then
      { w with session := { w.session with rxSeqNrExpected := (seqNr datagram + 1) % 0x1000 } }
    else w

inductive Event
  | data (addr : Addr) (datagram : Bytes)
  | discovery (addr : Addr) (datagram : Bytes) (repeated : Bool)
  /-- A session is evicted or has been idle for too long. -/
  | gone (addr : Addr)
  deriving DecidableEq, Repr

/-- One event. -/
def Server.next (s : Server H V B) : Event → Server H V B
  | .data addr datagram =>
      if datagram.length < 2 ∨ packetType datagram ≠ DATA then s
      else (s.run addr (handleData env datagram)).1
  | .discovery addr datagram repeated =>
      if datagram.length < 6 ∨ packetType datagram ≠ DISCOVERY ∨
          datagram.field 2 2 ≠ UDPRDMA_SVC_UDPFS then s
      else (s.run addr (handleDiscovery env datagram repeated)).1
  | .gone addr => { s with sessions := fun a => if a = addr then none else s.sessions a }

end Ps2Servers.Udpfs
