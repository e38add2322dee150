import Ps2Servers.Lib.Chunks
import Ps2Servers.Lib.FileWrites
import Ps2Servers.Edge.BlockSafety

/-!
# Edge: a file that is opened for writing

What an OPEN with the write access bit, the WRITE requests behind it and a CLOSE leave in a
regular file of the share.

## Implementation notes

`Calls` is what the operating system says of the names of one OPEN, and `World.position` is
where the open files stand, which `Host.position` then says of the file of a WRITE. An
appending file does not look at it. OPENs of directories and for reading are taken as given.
-/

namespace Ps2Servers.Edge.WriteOpens

open Ps2Servers.Edge.Blocks Chunks Effects FileWrites

def eNAMETOOLONG : Int := 36

def eMFILE : Int := 24

def eBUSY : Int := 16

def maxPathBytes : Nat := 1024

/-- The message of `sendOpen`. -/
structure OpenReply where
  result : Int
  mode : Nat
  size : Nat
  deriving DecidableEq, Repr

def OpenReply.Accepted (reply : OpenReply) : Prop := 0 ≤ reply.result

instance (reply : OpenReply) : Decidable reply.Accepted := inferInstanceAs (Decidable (_ ≤ _))

def refused (result : Int) : OpenReply := ⟨result, 0, 0⟩

/-- The files of the share and the session of one peer. -/
structure World where
  there : String → Bool
  files : String → Bytes
  st : State String
  position : HandleId → Nat
  table : Handles
  nextHandle : HandleId
  writers : Writers

def World.content (w : World) (real : String) : Option Bytes :=
  if w.there real then some (w.files real) else none

/-- What the calls made for an OPEN come to. -/
structure Calls where
  hasRoot : Bool
  canonical : String
  candidate : Bytes → Except HostError String
  dir : String → String
  base : String → String
  join : String → String → String
  rel : String → Except HostError String
  evalSymlinks : String → Except HostError String
  lstat : String → Option HostError
  stat : String → Option HostError
  openFile : String → Option HostError
  toLower : Bytes → Bytes
  ext : Bytes → Bytes
  /-- `compressedSiblingsEnabled` of a build that can read CHD. -/
  virtualCD : Bool
  findVirtualCD : String → Except HostError Bool
  openElse : HandleId → Bytes → World → OpenReply × World

def cString (b : Bytes) : Option Bytes :=
  let name := b.takeWhile (· ≠ 0)
  if maxPathBytes < name.length then none else some name

def hasSuffix (name : Bytes) (ext : String) : Bool := ext.toUTF8.toList.isSuffixOf name

section

variable (c : Calls)

/-- A path that symlinks lead to, which must lie inside the root. -/
def inside (path : String) : Except HostError String := do
  let resolved ← c.evalSymlinks path
  let rel ← c.rel resolved
  if rel = ".." ∨ "../".toList <+: rel.toList then throw .permission
  return resolved

/-- `Root.entry`. -/
def entry (candidate : String) : Except HostError String := do
  let real ← inside c (c.dir candidate)
  return c.join real (c.base candidate)

/-- The path of an entry that may be missing: a link there is followed, also where it dangles. -/
def orMissing (path : String) : Except HostError String :=
  match c.lstat path with
  | some .notExist => .ok path
  | some err => .error err
  | none => inside c path

/-- `Root.Resolve`. -/
def resolve (client : Bytes) (allowMissing : Bool) : Except HostError String :=
  if client = [] ∨ client = [46] ∨ client = [47] ∨ client = [92] then .ok c.canonical
  else do
    let candidate ← c.candidate client
    if allowMissing then entry c candidate >>= orMissing c else inside c candidate

/-- `resolveVirtualCD`: whether there is a view. -/
def resolveVirtualCD (client : Bytes) : Except HostError Bool :=
  let ext := c.toLower (c.ext client)
  if c.hasRoot = false ∨ c.virtualCD = false then .ok false
  else if ext ≠ ".cue".toUTF8.toList ∧ ext ≠ ".bin".toUTF8.toList then .ok false
  else
    match resolve c client false with
    | .ok _ => .ok false
    | .error .notExist => resolve c client true >>= c.findVirtualCD
    | .error err => .error err

def isCompressedName (name : Bytes) : Bool :=
  [".cso", ".ciso", ".zso", ".ziso", ".chd"].any (hasSuffix (c.toLower name))

/-- `State.CloseHandle`. -/
def World.closeHandle (w : World) (id : HandleId) : World :=
  match w.table.lookup id with
  | none => w
  | some h => { w with
      writers := releaseWrite w.writers h
      table := w.table.delete id
      st := w.st.closeHandle id }

/-- `State.TakeOverWriter`. -/
def World.takeOverWriter (w : World) (real : String) : Bool × World :=
  let ids := w.table.inheritedWriters real
  (!ids.isEmpty, ids.foldl World.closeHandle w)

def World.reserveWriter (w : World) (real : String) : Bool × World :=
  match Edge.reserveWriter w.writers real with
  | none => (false, w)
  | some writers => (true, { w with writers := writers })

/-- The reservation of `openForWrite`, of a file that a replaced loader may have left open. -/
def World.reserve (w : World) (real : String) : Bool × World :=
  match w.reserveWriter real with
  | (true, w) => (true, w)
  | (false, w) =>
      match w.takeOverWriter real with
      | (false, w) => (false, w)
      | (true, w) => w.reserveWriter real

/-- What `os.OpenFile` and storing the handle leave. -/
def World.opened (w : World) (id : HandleId) (real : String) (bits : Bits) (data : Bytes) :
    World :=
  { w with
    there := Function.update w.there real true
    files := Function.update w.files real data
    st := { w.st with
      handles := Function.update w.st.handles id (some ⟨true, some real, false, bits.append⟩) }
    position := Function.update w.position id 0
    table := w.table.store id ⟨true, real, false, false⟩ }

/-- The bits of an OPEN. -/
def openBits (flags : Nat) : Bits :=
  ⟨flags &&& 0x0200 ≠ 0, flags &&& 0x0400 ≠ 0, flags &&& 0x0100 ≠ 0⟩

/-- `openForWrite` behind the checks of the name: `os.OpenFile` of a reserved path. -/
def openReserved (id : HandleId) (real : String) (bits : Bits) (w : World) : OpenReply × World :=
  let release := fun err => (refused (errno err),
    { w with writers := releaseWriter w.writers real })
  match c.openFile real, bits.opened (w.content real) with
  | some err, _ => release err
  | none, none => release .notExist
  | none, some data => (⟨id.toInt, 0x2000, data.length⟩, w.opened id real bits data)

/-- `openForWrite`. -/
def openForWrite (id : HandleId) (path : Bytes) (flags : Nat) (w : World) : OpenReply × World :=
  let bits := openBits flags
  if c.hasRoot = false then (refused (-eNOENT), w)
  else
    match resolveVirtualCD c path with
    | .error err => (refused (errno err), w)
    | .ok true => (refused (-eACCES), w)
    | .ok false =>
        if isCompressedName c path then (refused (-eACCES), w)
        else
          match resolve c path bits.creat with
          | .error err => (refused (errno err), w)
          | .ok real =>
              let go : Unit → OpenReply × World := fun _ =>
                match w.reserve real with
                | (false, w) => (refused (-eBUSY), w)
                | (true, w) => openReserved c id real bits w
              match c.stat real with
              | none => go ()
              | some err =>
                  if err ≠ .notExist then (refused (errno err), w)
                  else if bits.creat = false then (refused (-eNOENT), w)
                  else go ()

/-- `handleOpen`. -/
def handleOpen (cfg : Config String) (p : Bytes) (w : World) : OpenReply × World :=
  if p.length < 8 then (refused (-eINVAL), w)
  else
    let flags := p.field 2 2
    match cString (p.drop 8) with
    | none => (refused (-eNAMETOOLONG), w)
    | some path =>
        if flags &&& 0x02 ≠ 0 ∧ cfg.readOnly then (refused (-eACCES), w)
        else if maxHandles ≤ w.table.length then (refused (-eMFILE), w)
        else
          let id := w.nextHandle
          let w := { w with nextHandle := id + 1 }
          if p.field 1 1 = 0 ∧ flags &&& 0x02 ≠ 0 then openForWrite c id path flags w
          else c.openElse id p w

end

/-- The bytes that went through the position of an open file. -/
def moved (trace : List Act) : Nat :=
  (trace.map fun a => match a with | .wrote _ data => data.length | _ => 0).sum

/-- What a message for an open file leaves. -/
def World.after (w : World) (handle : HandleId) (served : Blocks.World String) : World :=
  { w with
    files := served.files
    st := served.st
    position := Function.update w.position handle (w.position handle + moved served.trace) }

/-- A message for a file, which stands where `World.position` says. -/
def World.serve (w : World) (handle : HandleId) (host : Host)
    (handler : Host → Handler String Unit) : World :=
  w.after handle
    (final (handler { host with position := w.position handle } ⟨w.files, w.st, []⟩))

section

variable (cfg : Config String) (host : Host)

def handleWriteRequest (p : Bytes) (w : World) : World :=
  w.serve (BitVec.ofNat 32 (p.field 4 4)) host fun host => Blocks.handleWriteRequest cfg host p

def handleWriteData (msg : Bytes) (w : World) : World :=
  w.serve w.st.handle host fun host => Blocks.handleWriteData cfg host msg

/-- A WRITE and its chunks. -/
def writeRun (request : Bytes) (chunks : List Bytes) (w : World) : World :=
  chunks.foldl (fun w chunk => handleWriteData cfg host chunk w) (handleWriteRequest cfg host request w)

end

/-- `handleClose`. -/
def handleClose (p : Bytes) (w : World) : World :=
  let id : HandleId := BitVec.ofNat 32 (p.field 4 4)
  if p.length < 8 ∨ id = blockHandle then w else w.closeHandle id

/-- Every call succeeds. -/
def calm : Host := ⟨none, none, .ok [], none, 0, none⟩

/-! ## One WRITE -/

section Writes

variable {cfg : Config String} {real : String} {n : HandleId} {append : Bool} {pos : Nat}
  {old data : Bytes} {w : World}

/-- The chunk of a WRITE_DATA message. -/
def chunkOf (msg : Bytes) : Option (Chunk UInt8) :=
  if msg.length < 8 then none else some ⟨msg.field 2 2, chunkBody msg, msg.field 6 2⟩

/-- The handle `n` is the file, opened for writing, which stands at `pos`. -/
structure OpenFile (real : String) (n : HandleId) (append : Bool) (pos : Nat) (data : Bytes)
    (w : World) : Prop where
  handle : w.st.handles n = some ⟨true, some real, false, append⟩
  content : w.content real = some data
  position : w.position n = pos

theorem content_eq_some : w.content real = some data ↔ w.there real = true ∧ w.files real = data := by
  unfold World.content
  split
  · rename_i hthere
    simp [hthere]
  · rename_i hthere
    simp [hthere]

/-- A WRITE to it that has come so far. -/
structure Collecting (n : HandleId) (received : Nat) (data : Bytes) (w : World) : Prop where
  active : w.st.active = true
  handle : w.st.handle = n
  buffer : w.st.buffer = data
  received : w.st.receivedChunk = received
  file : w.st.isBlock = false
  length : w.st.expectedLen = 0

/-- The state behind a chunk that fits. -/
def addChunk (st : State String) (c : Chunk UInt8) : State String :=
  { st with
    buffer := st.buffer ++ c.body
    totalChunks := c.total
    receivedChunk := (st.receivedChunk + 1) % 65536 }

theorem handleWriteData_run {host : Host} {files : String → Bytes} {st : State String} {msg : Bytes}
    {c : Chunk UInt8} (hchunk : chunkOf msg = some c) (hactive : st.active = true)
    (hnr : c.nr = st.receivedChunk) (hlength : st.expectedLen = 0)
    (hfits : ((st.buffer ++ c.body).length : Int) ≤ cfg.transferCap) :
    final (Blocks.handleWriteData cfg host msg ⟨files, st, []⟩) =
      if c.total = 0 ∨ (st.receivedChunk + 1) % 65536 < c.total then
        ⟨files, addChunk st c, [.computed (st.buffer ++ c.body).length, .ack]⟩
      else final (completeWrite cfg host
        ⟨files, addChunk st c, [.computed (st.buffer ++ c.body).length]⟩) := by
  unfold chunkOf at hchunk
  split at hchunk
  · cases hchunk
  · rename_i hheader
    obtain rfl := Option.some.inj hchunk
    have hcap := cfg.transferCap_le
    have hsum : ((st.buffer.length : Int) + (chunkBody msg).length) =
        (st.buffer ++ chunkBody msg).length := by
      rw [List.length_append]
      rfl
    have hin : Fits (st.buffer ++ chunkBody msg).length := by
      unfold Fits MaxInt64
      unfold preferredTransfer at hcap
      dsimp only at hfits
      omega
    unfold Blocks.handleWriteData
    rw [get_bind]
    dsimp only at hnr hfits ⊢
    rw [if_neg (by simp [hheader, hactive]), if_neg (not_not.mpr hnr), hsum, compute_bind hin,
      if_neg (Int.not_lt.mpr hfits), if_neg (by rw [hlength]; simp)]
    split <;> rfl

theorem total_lt_of_chunkOf {msg : Bytes} {c : Chunk UInt8} (h : chunkOf msg = some c) :
    c.total < 65536 := by
  unfold chunkOf at h
  split at h
  · cases h
  · obtain rfl := Option.some.inj h
    exact Bytes.field_lt msg 6 2

theorem completeWrite_run {host : Host} (hwrite : host.write = none) (hsync : host.sync = none)
    {files : String → Bytes} {st : State String} (trace : List Act)
    (hhandle : st.handles st.handle = some ⟨true, some real, false, append⟩)
    (hfile : st.isBlock = false) :
    final (completeWrite cfg host ⟨files, st, trace⟩) =
      ⟨Function.update files real ((files real).splice
          (if append then (files real).length else host.position) st.buffer), st.resetWrite,
        trace ++ [.wrote st.handle st.buffer, .synced true,
          .writeDone (int32 st.buffer.length)]⟩ := by
  have htaken : taken host st.buffer = st.buffer := by
    unfold taken
    rw [hwrite]
  have hplain : completeWrite cfg host ⟨files, st, trace⟩ =
      completeFileWrite host st.handle st.buffer ⟨files, st.resetWrite, trace⟩ := by
    unfold completeWrite
    rw [get_bind]
    dsimp only
    rw [hfile, if_neg Bool.false_ne_true]
    rfl
  let written : Blocks.World String :=
    ⟨Function.update files real ((files real).splice
      (if append then (files real).length else host.position) st.buffer), st.resetWrite,
      trace ++ [.wrote st.handle st.buffer]⟩
  have hwritten : completeFileWrite host st.handle st.buffer ⟨files, st.resetWrite, trace⟩ =
      finishWrite host none (int32 st.buffer.length) written := by
    have hopen : st.resetWrite.handles st.handle = some ⟨true, some real, false, append⟩ := hhandle
    unfold completeFileWrite
    rw [get_bind]
    dsimp only
    rw [hopen]
    change finishWrite host (host.write.map Prod.snd) _ ((Blocks.World.record _ _).put host real _ _) = _
    unfold Blocks.World.put
    rw [hwrite, htaken]
    rfl
  rw [hplain, hwritten, final_finishWrite_synced hsync]
  simp [written, Blocks.World.record]

/-- A chunk that is not the last one. -/
theorem OpenFile.collect (h : OpenFile real n append pos old w) {k : Nat}
    (hcollect : Collecting n k data w) {msg : Bytes} {c : Chunk UInt8}
    (hchunk : chunkOf msg = some c) (hnr : c.nr = k) (hmore : k + 1 < c.total)
    (hfits : ((data ++ c.body).length : Int) ≤ cfg.transferCap) :
    OpenFile real n append pos old (handleWriteData cfg calm msg w) ∧
      Collecting n (k + 1) (data ++ c.body) (handleWriteData cfg calm msg w) := by
  obtain ⟨hactive, rfl, rfl, rfl, hfile, hlength⟩ := hcollect
  have htotal := total_lt_of_chunkOf hchunk
  have hcount : (w.st.receivedChunk + 1) % 65536 = w.st.receivedChunk + 1 :=
    Nat.mod_eq_of_lt (by omega)
  have hstep : handleWriteData cfg calm msg w = w.after w.st.handle ⟨w.files, addChunk w.st c,
      [.computed (w.st.buffer ++ c.body).length, .ack]⟩ := by
    unfold handleWriteData World.serve
    rw [handleWriteData_run hchunk hactive hnr hlength hfits, hcount, if_pos (Or.inr hmore)]
  rw [hstep]
  constructor
  · exact ⟨h.handle, h.content, (Function.update_self ..).trans h.position⟩
  · exact ⟨hactive, rfl, rfl, hcount, hfile, hlength⟩

/-- The last chunk: the data go where the file stands, or to the end. -/
theorem OpenFile.finish (h : OpenFile real n append pos old w) {k : Nat}
    (hcollect : Collecting n k data w) {msg : Bytes} {c : Chunk UInt8}
    (hchunk : chunkOf msg = some c) (hnr : c.nr = k) (hlast : c.total = k + 1)
    (hfits : ((data ++ c.body).length : Int) ≤ cfg.transferCap) :
    OpenFile real n append (pos + (data ++ c.body).length)
      (old.splice (if append then old.length else pos) (data ++ c.body))
      (handleWriteData cfg calm msg w) := by
  obtain ⟨hactive, rfl, rfl, rfl, hfile, hlength⟩ := hcollect
  have htotal := total_lt_of_chunkOf hchunk
  have hcount : (w.st.receivedChunk + 1) % 65536 = w.st.receivedChunk + 1 :=
    Nat.mod_eq_of_lt (by omega)
  obtain ⟨hthere, rfl⟩ := content_eq_some.mp h.content
  obtain rfl := h.position
  have hstep : handleWriteData cfg calm msg w = w.after w.st.handle
      ⟨Function.update w.files real ((w.files real).splice (if append then (w.files real).length
          else w.position w.st.handle) (w.st.buffer ++ c.body)),
        (addChunk w.st c).resetWrite, [.computed (w.st.buffer ++ c.body).length,
          .wrote w.st.handle (w.st.buffer ++ c.body), .synced true,
          .writeDone (int32 (w.st.buffer ++ c.body).length)]⟩ := by
    unfold handleWriteData World.serve
    rw [handleWriteData_run hchunk hactive hnr hlength hfits, hcount, if_neg (by omega)]
    exact congrArg _ (completeWrite_run rfl rfl _ h.handle hfile)
  rw [hstep]
  refine ⟨h.handle, ?_, ?_⟩
  · exact content_eq_some.mpr ⟨hthere, Function.update_self ..⟩
  · refine (Function.update_self ..).trans ?_
    simp [moved]

/-- The chunks of a whole transfer, by induction on them. -/
theorem OpenFile.gather (h : OpenFile real n append pos old w) {messages : List Bytes}
    {chunks : List (Chunk UInt8)} (hparse : messages.map chunkOf = chunks.map some)
    (hne : chunks ≠ []) {count k : Nat} (hwhole : WholeFrom count k chunks)
    (hcollect : Collecting n k data w)
    (hfits : ((data ++ chunks.flatMap Chunk.body).length : Int) ≤ cfg.transferCap) :
    OpenFile real n append (pos + (data ++ chunks.flatMap Chunk.body).length)
      (old.splice (if append then old.length else pos) (data ++ chunks.flatMap Chunk.body))
      (messages.foldl (fun w chunk => handleWriteData cfg calm chunk w) w) := by
  induction chunks generalizing messages k data w with
  | nil => exact absurd rfl hne
  | cons c rest ih =>
      obtain ⟨message, messages, rfl, hchunk, hparse⟩ := List.map_eq_cons_iff.mp hparse
      obtain ⟨hnr, htotal, hrest⟩ := hwhole
      rw [List.flatMap_cons, ← List.append_assoc] at hfits ⊢
      have hroom : ((data ++ c.body).length : Int) ≤ cfg.transferCap := by
        rw [List.length_append] at hfits
        omega
      rw [List.foldl_cons]
      cases rest with
      | nil =>
          have hlast : k + 1 = count := hrest
          obtain rfl : messages = [] := by simpa using hparse
          rw [List.flatMap_nil, List.append_nil]
          exact h.finish hcollect hchunk hnr (htotal.trans hlast.symm) hroom
      | cons c' rest =>
          have hle := hrest.2.2.le
          obtain ⟨hopen, hnext⟩ := h.collect hcollect hchunk hnr (by omega) hroom
          exact ih hopen hparse (List.cons_ne_nil _ _) hrest hnext hfits

/-- The chunks of a WRITE: one may stand behind its header. -/
def writeMessages (request : Bytes) (chunks : List Bytes) : List Bytes :=
  (if 12 < request.length then [request.drop 12] else []) ++ chunks

/-- A WRITE to a handle whose chunks are all there and carry the data. -/
structure CompleteWrite (limit : Int) (handle : HandleId) (write : Bytes × List Bytes)
    (data : Bytes) : Prop where
  header : 12 ≤ write.1.length
  handle : BitVec.ofNat 32 (write.1.field 4 4) = handle
  size : (write.1.field 8 4 : Int) ≤ limit
  whole : ∃ chunks, (writeMessages write.1 write.2).map chunkOf = chunks.map some ∧
    chunks ≠ [] ∧ WholeFrom chunks.length 0 chunks ∧ chunks.flatMap Chunk.body = data
  fits : (data.length : Int) ≤ limit

/-- A session that collects a WRITE for a handle. -/
def World.writing (w : World) (handle : HandleId) : World :=
  { w with st := { w.st.resetWrite with
      active := true
      handle := handle
      buffer := []
      totalChunks := 0
      receivedChunk := 0 } }

theorem handleWriteRequest_armed (h : OpenFile real n append pos old w) {request : Bytes}
    (hheader : 12 ≤ request.length) (hro : cfg.readOnly = false)
    (hhandle : BitVec.ofNat 32 (request.field 4 4) = n)
    (hsize : (request.field 8 4 : Int) ≤ cfg.transferCap) :
    handleWriteRequest cfg calm request w =
      if 12 < request.length then handleWriteData cfg calm (request.drop 12) (w.writing n)
      else (w.writing n).after n ⟨w.files, (w.writing n).st, [.ack]⟩ := by
  have hopen : w.st.resetWrite.handles n = some ⟨true, some real, false, append⟩ := h.handle
  have hrun : ∀ host : Host, Blocks.handleWriteRequest cfg host request ⟨w.files, w.st, []⟩ =
      firstChunk cfg host request 12 ⟨w.files, (w.writing n).st, []⟩ := by
    intro host
    have hreset : resetWrite ⟨w.files, w.st, []⟩ = .ok () ⟨w.files, w.st.resetWrite, []⟩ := rfl
    unfold Blocks.handleWriteRequest
    rw [bind_ok hreset, if_neg (Nat.not_lt.mpr hheader), if_neg (by simp [hro]),
      if_neg (Int.not_lt.mpr hsize), get_bind]
    dsimp only
    rw [hhandle, hopen]
    rfl
  unfold handleWriteRequest World.serve
  dsimp only
  rw [hrun, hhandle]
  unfold firstChunk
  split <;> rfl

/-- One WRITE to the file. -/
theorem OpenFile.write (h : OpenFile real n append pos old w) (hro : cfg.readOnly = false)
    {write : Bytes × List Bytes} (hwrite : CompleteWrite cfg.transferCap n write data) :
    OpenFile real n append (pos + data.length)
      (old.splice (if append then old.length else pos) data)
      (writeRun cfg calm write.1 write.2 w) := by
  obtain ⟨hheader, hhandle, hsize, ⟨chunks, hparse, hne, hwhole, rfl⟩, hfits⟩ := hwrite
  have harmed := handleWriteRequest_armed h hheader hro hhandle hsize
  unfold writeRun
  rw [harmed]
  unfold writeMessages at hparse
  by_cases hinline : 12 < write.1.length
  · rw [if_pos hinline] at hparse ⊢
    have hopen : OpenFile real n append pos old (w.writing n) :=
      ⟨h.handle, h.content, h.position⟩
    exact hopen.gather hparse hne hwhole ⟨rfl, rfl, rfl, rfl, rfl, rfl⟩ hfits
  · rw [if_neg hinline] at hparse ⊢
    have hopen : OpenFile real n append pos old
        ((w.writing n).after n ⟨w.files, (w.writing n).st, [.ack]⟩) :=
      ⟨h.handle, h.content, (Function.update_self ..).trans h.position⟩
    exact hopen.gather hparse hne hwhole ⟨rfl, rfl, rfl, rfl, rfl, rfl⟩ hfits

/-- A sequence of WRITEs to the file, by induction on it. -/
theorem OpenFile.writes (h : OpenFile real n append pos old w) (hro : cfg.readOnly = false)
    {writes : List (Bytes × List Bytes)} {datas : List Bytes}
    (hwrites : List.Forall₂ (CompleteWrite cfg.transferCap n) writes datas) :
    ∃ pos', OpenFile real n append pos' (laid append pos old datas)
      (writes.foldl (fun w write => writeRun cfg calm write.1 write.2 w) w) := by
  induction hwrites generalizing w pos old with
  | nil => exact ⟨pos, h⟩
  | cons hwrite _ ih => exact ih (h.write hro hwrite)

end Writes

/-! ## The OPEN and the CLOSE -/

section Opens

variable {cfg : Config String} {c : Calls} {w : World} {name : Bytes} {real : String}

/-- A name of a regular file of the share, which is no image and no virtual view and lies in a
folder that is there. -/
structure PlainName (c : Calls) (w : World) (name : Bytes) (real : String) : Prop where
  root : c.hasRoot = true
  file : ¬ (name = [] ∨ name = [46] ∨ name = [47] ∨ name = [92])
  path : ∃ candidate, c.candidate name = .ok candidate ∧ entry c candidate = .ok real ∧
    inside c candidate = if w.there real then .ok real else .error .notExist
  lstat : c.lstat real = if w.there real then none else some .notExist
  target : w.there real = true → inside c real = .ok real
  stat : c.stat real = if w.there real then none else some .notExist
  openFile : c.openFile real = none
  virtual : resolveVirtualCD c name = .ok false
  plain : isCompressedName c name = false

/-- An OPEN of it with the write access bit, in a session with room for a handle, while no other
handle is open on it. -/
structure WriteOpen (cfg : Config String) (c : Calls) (real : String) (w : World) (p : Bytes) :
    Prop where
  header : 8 ≤ p.length
  file : p.field 1 1 = 0
  access : p.field 2 2 &&& 0x02 ≠ 0
  share : cfg.readOnly = false
  name : ∃ name, cString (p.drop 8) = some name ∧ PlainName c w name real
  room : w.table.length < maxHandles
  positive : 0 < w.nextHandle.toInt
  free : w.writers.count real = 0

theorem PlainName.resolve (h : PlainName c w name real) (allowMissing : Bool) :
    resolve c name allowMissing =
      if w.there real = true ∨ allowMissing = true then .ok real else .error .notExist := by
  obtain ⟨candidate, hcandidate, hentry, hinside⟩ := h.path
  unfold WriteOpens.resolve
  rw [if_neg h.file, hcandidate]
  change (if allowMissing = true then entry c candidate >>= orMissing c else inside c candidate) = _
  cases allowMissing with
  | false =>
      rw [if_neg Bool.false_ne_true, hinside]
      simp
  | true =>
      rw [if_pos rfl, if_pos (Or.inr rfl), hentry]
      change orMissing c real = _
      unfold orMissing
      rw [h.lstat]
      cases hthere : w.there real with
      | false => rfl
      | true => exact h.target hthere

/-- The session behind an OPEN that is refused: it has used a handle number. -/
def World.numbered (w : World) : World := { w with nextHandle := w.nextHandle + 1 }

theorem reserve_free {w : World} {real : String} (h : w.writers.count real = 0) :
    w.reserve real =
      (true, { w with writers := Function.update w.writers real (some 1) }) := by
  have hreserve : Edge.reserveWriter w.writers real =
      some (Function.update w.writers real (some 1)) := by
    unfold Edge.reserveWriter
    rw [if_neg (by omega)]
  unfold World.reserve World.reserveWriter
  rw [hreserve]

theorem handleOpen_write {p : Bytes} (h : WriteOpen cfg c real w p) :
    handleOpen c cfg p w =
      if w.there real = true ∨ (openBits (p.field 2 2)).creat = true then
        openReserved c w.nextHandle real (openBits (p.field 2 2))
          { w.numbered with writers := Function.update w.writers real (some 1) }
      else (refused (-eNOENT), w.numbered) := by
  obtain ⟨name, hname, hplain⟩ := h.name
  have hopen : handleOpen c cfg p w =
      openForWrite c w.nextHandle name (p.field 2 2) w.numbered := by
    unfold handleOpen
    rw [if_neg (Nat.not_lt.mpr h.header)]
    dsimp only
    rw [hname]
    dsimp only
    rw [if_neg (by simp [h.share]), if_neg (Nat.not_le.mpr h.room), if_pos ⟨h.file, h.access⟩]
    rfl
  have hreserve : w.numbered.reserve real =
      (true, { w.numbered with writers := Function.update w.writers real (some 1) }) :=
    reserve_free h.free
  rw [hopen]
  unfold openForWrite
  dsimp only
  rw [hplain.root, if_neg (by simp), hplain.virtual]
  dsimp only
  rw [hplain.plain, if_neg Bool.false_ne_true, hplain.resolve]
  by_cases hthere : w.there real = true
  · have hstat : c.stat real = none := by rw [hplain.stat, if_pos hthere]
    rw [if_pos (Or.inl hthere), if_pos (Or.inl hthere)]
    dsimp only
    rw [hstat]
    dsimp only
    rw [hreserve]
  · by_cases hcreat : (openBits (p.field 2 2)).creat = true
    · have hstat : c.stat real = some .notExist := by rw [hplain.stat, if_neg hthere]
      rw [if_pos (Or.inr hcreat), if_pos (Or.inr hcreat)]
      dsimp only
      rw [hstat]
      dsimp only
      rw [if_neg (not_not.mpr rfl), if_neg (by simp [hcreat]), hreserve]
    · have hneither : ¬ (w.there real = true ∨ (openBits (p.field 2 2)).creat = true) := by
        rintro (h | h) <;> contradiction
      rw [if_neg hneither, if_neg hneither]
      rfl

/-- A missing file is refused without O_CREAT, and nothing is changed. -/
theorem open_missing {p : Bytes} (h : WriteOpen cfg c real w p) (hmissing : w.content real = none)
    (hcreat : (openBits (p.field 2 2)).creat = false) :
    ¬ (handleOpen c cfg p w).1.Accepted ∧
      (handleOpen c cfg p w).2.content real = w.content real := by
  have hthere : w.there real = false := by
    unfold World.content at hmissing
    split at hmissing
    · cases hmissing
    · rename_i hthere
      exact Bool.eq_false_iff.mpr hthere
  have hrefused : ¬ (refused (-eNOENT)).Accepted := by decide
  rw [handleOpen_write h, if_neg (by simp [hthere, hcreat])]
  exact ⟨hrefused, rfl⟩

/-- Otherwise it is opened as `os.OpenFile` does with the bits. -/
theorem open_accepted {p : Bytes} (h : WriteOpen cfg c real w p) {data : Bytes}
    (hopened : (openBits (p.field 2 2)).opened (w.content real) = some data) :
    (handleOpen c cfg p w).1.Accepted ∧
      (handleOpen c cfg p w).1.result = w.nextHandle.toInt ∧
      OpenFile real w.nextHandle (openBits (p.field 2 2)).append 0 data
        (handleOpen c cfg p w).2 := by
  obtain ⟨name, -, hplain⟩ := h.name
  have hgo : w.there real = true ∨ (openBits (p.field 2 2)).creat = true := by
    by_cases hthere : w.there real = true
    · exact Or.inl hthere
    · unfold World.content at hopened
      rw [if_neg hthere] at hopened
      unfold Bits.opened at hopened
      dsimp only at hopened
      split at hopened
      · rename_i hcreat
        exact Or.inr hcreat
      · cases hopened
  have hreserved : openReserved c w.nextHandle real (openBits (p.field 2 2))
      { w.numbered with writers := Function.update w.writers real (some 1) } =
      (⟨w.nextHandle.toInt, 0x2000, data.length⟩, World.opened
        { w.numbered with writers := Function.update w.writers real (some 1) } w.nextHandle real
        (openBits (p.field 2 2)) data) := by
    have hcontent : World.content
        { w.numbered with writers := Function.update w.writers real (some 1) } real =
        w.content real := rfl
    unfold openReserved
    rw [hcontent, hopened, hplain.openFile]
  rw [handleOpen_write h, if_pos hgo, hreserved]
  refine ⟨Int.le_of_lt h.positive, rfl, ?_, ?_, ?_⟩
  · exact Function.update_self ..
  · exact content_eq_some.mpr ⟨Function.update_self .., Function.update_self ..⟩
  · exact Function.update_self ..

/-- A CLOSE touches no file. -/
theorem content_handleClose (p : Bytes) (w : World) (real : String) :
    (handleClose p w).content real = w.content real := by
  unfold handleClose World.closeHandle
  dsimp only
  split
  · rfl
  · split <;> rfl

/-- The whole of a write: the OPEN, the WRITEs and the CLOSE. -/
theorem written_of_accepted {p : Bytes} (h : WriteOpen cfg c real w p)
    (hopened : ((openBits (p.field 2 2)).opened (w.content real)).isSome)
    {writes : List (Bytes × List Bytes)} {datas : List Bytes}
    (hwrites : List.Forall₂ (CompleteWrite cfg.transferCap w.nextHandle) writes datas)
    (close : Bytes) :
    (handleClose close (writes.foldl (fun w write => writeRun cfg calm write.1 write.2 w)
      (handleOpen c cfg p w).2)).content real =
      (openBits (p.field 2 2)).written (w.content real) datas := by
  obtain ⟨data, hdata⟩ := Option.isSome_iff_exists.mp hopened
  obtain ⟨-, -, hfile⟩ := open_accepted h hdata
  obtain ⟨_, hwritten⟩ := hfile.writes h.share hwrites
  rw [content_handleClose, hwritten.content]
  unfold Bits.written
  rw [hdata]
  rfl

end Opens

end Ps2Servers.Edge.WriteOpens
