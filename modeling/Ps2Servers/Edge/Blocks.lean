import Ps2Servers.Lib.Effects
import Ps2Servers.Lib.Splice
import Ps2Servers.Edge.Session

/-!
# Edge block access

BREAD and BWRITE address sectors of the disk image, by handle 0, or of a file that the
peer has open. The sectors come from the client, and `int64` arithmetic wraps. In every
run the products and sums of the checks fit, what goes through handle 0 lies in the
sectors asked for and inside the image, and a BWRITE is reported as done exactly when
as many bytes as it declared came in, were written and synced.

## Implementation notes

`Act` records what a message does, and `request` the BWRITE that chunks are collected
for; no handler reads either. Requests other than those below, hand-overs and other
programs may leave any handle table and any files. Statistics and log lines are left out.
-/

namespace Ps2Servers.Edge.Blocks

open Effects Runs

def MaxInt64 : Int := 9223372036854775807

/-- The values of an `int64`. -/
def Fits (n : Int) : Prop := -MaxInt64 - 1 ≤ n ∧ n ≤ MaxInt64

/-- The `int64` that a number wraps to. -/
def int64 (n : Int) : Int := n.bmod 18446744073709551616

def int32 (n : Int) : Int := n.bmod 4294967296

def eNOENT : Int := 2

def eIO : Int := 5

def eBADF : Int := 9

def eACCES : Int := 13

def eINVAL : Int := 22

def eFBIG : Int := 27

inductive HostError
  | notExist
  | permission
  | other
  deriving DecidableEq, Repr

def errno : HostError → Int
  | .notExist => -eNOENT
  | .permission => -eACCES
  | .other => - eIO

def blockHandle : HandleId := 0

def DefaultSectorSize : Int := 512

variable {F : Type}

/-- `blockDevice`. -/
structure BlockDevice (F : Type) where
  file : F
  size : Int
  sectorSize : Int
  readOnly : Bool
  deriving DecidableEq, Repr

def openBlockDevice (file : F) (size sectorSize : Int) (readOnly : Bool) : BlockDevice F :=
  ⟨file, size, if sectorSize ≤ 0 then DefaultSectorSize else sectorSize, readOnly⟩

def preferredTransfer : Int := 8388608

def minTransferCap : Int := 262144

/-- `Budget.TransferCap` of what `/proc/meminfo` says. -/
def transferCap (totalBytes preferred : Int) : Int :=
  if totalBytes ≤ 0 then preferred
  else if preferred < totalBytes.tdiv 16 then preferred
  else if totalBytes.tdiv 16 < minTransferCap then minTransferCap
  else totalBytes.tdiv 16

/-- What a server is started with. -/
structure Config (F : Type) where
  readOnly : Bool
  totalBytes : Int
  blockDev : Option (BlockDevice F)
  deriving DecidableEq, Repr

def Config.transferCap (cfg : Config F) : Int := Blocks.transferCap cfg.totalBytes preferredTransfer

/-- `session.Handle`: a `Writer` is always an open file. -/
structure Handle (F : Type) where
  reader : Bool
  writer : Option F
  directory : Bool
  append : Bool
  deriving DecidableEq, Repr

structure Request where
  handle : HandleId
  sector : Int
  count : Int
  deriving DecidableEq, Repr

/-- The part of `session.State` that collects a write. -/
structure State (F : Type) where
  handles : HandleId → Option (Handle F)
  active : Bool
  handle : HandleId
  buffer : Bytes
  totalChunks : Nat
  receivedChunk : Nat
  isBlock : Bool
  offset : Int
  expectedLen : Int
  request : Option Request

/-- `State.ResetWrite`. -/
def State.resetWrite (st : State F) : State F :=
  ⟨st.handles, false, 0, [], 0, 0, false, 0, 0, none⟩

/-- `session.New`. -/
def State.new : State F := ⟨fun _ => none, false, 0, [], 0, 0, false, 0, 0, none⟩

inductive Act
  /-- An `int64` computation with this exact result. -/
  | computed (n : Int)
  | seek (handle : HandleId) (offset : Int)
  | readAt (offset : Int) (size : Nat)
  | wroteAt (handle : HandleId) (offset : Int) (data : Bytes) (done : Bool)
  | wrote (handle : HandleId) (data : Bytes)
  | synced (done : Bool)
  | reply (result : Int) (data : Bytes)
  | writeDone (result : Int)
  | closeReply (result : Int)
  | ack
  deriving DecidableEq, Repr

/-- What the calls made for a message come to. -/
structure Host where
  readAt : Option HostError
  seek : Option HostError
  readFull : Except HostError Bytes
  /-- A write fails after so many bytes. -/
  write : Option (Nat × HostError)
  /-- Where the open file of a WRITE stands. -/
  position : Nat
  sync : Option HostError

/-- The files, the session served, and what was done for the message. -/
structure World (F : Type) where
  files : F → Bytes
  st : State F
  trace : List Act

/-- A handler never raises. -/
abbrev Handler (F : Type) := EStateM Empty (World F)

def World.record (w : World F) (a : Act) : World F := { w with trace := w.trace ++ [a] }

def act (a : Act) : Handler F Unit := modify fun w => w.record a

/-- An `int64` computation. -/
def compute (n : Int) : Handler F Int := do
  act (.computed n)
  return int64 n

def resetWrite : Handler F Unit := modify fun w => { w with st := w.st.resetWrite }

def sendWriteDone (result : Int) : Handler F Unit := act (.writeDone result)

def sendResult (result : Int) (data : Bytes) : Handler F Unit := act (.reply result data)

/-- `blockRequest`. -/
def blockRequest (p : Bytes) : Option Request :=
  if p.length < 16 then none
  else some ⟨BitVec.ofNat 32 (p.field 4 4), int64 (p.field 8 8), p.field 2 2⟩

def sectorCount (dev : BlockDevice F) : Handler F Int := compute (dev.size.tdiv dev.sectorSize)

/-- `blockDevice.inRange`. -/
def inRange (dev : BlockDevice F) (sector count : Int) : Handler F Bool := do
  if sector < 0 ∨ count ≤ 0 then return false
  else
    let sectors ← sectorCount dev
    let last ← compute (sectors - count)
    return decide (sector ≤ last)

section

variable (cfg : Config F) (host : Host)

/-- `blockDevice.readAt`. -/
def readAt (dev : BlockDevice F) (offset : Int) (size : Nat) : Handler F (Except HostError Bytes) := do
  act (.readAt offset size)
  let w ← get
  if offset < 0 then return .error .other
  else
    match host.readAt with
    | some err => return .error err
    | none => return .ok ((w.files dev.file).sub offset.toNat size)

/-- The file BREAD of `handleBRead`. -/
def handleBReadFile (r : Request) : Handler F Unit := do
  let w ← get
  match w.st.handles r.handle with
  | none => sendResult (-eBADF) []
  | some h =>
      if h.reader = false then sendResult (-eBADF) []
      else do
        let total ← compute (r.count * DefaultSectorSize)
        if cfg.transferCap < total ∨ r.sector < 0 ∨ MaxInt64.tdiv DefaultSectorSize < r.sector then
          sendResult (-eINVAL) []
        else do
          let offset ← compute (r.sector * DefaultSectorSize)
          act (.seek r.handle offset)
          match host.seek, host.readFull with
          | some err, _ => sendResult (errno err) []
          | none, .error err => sendResult (errno err) []
          | none, .ok data => sendResult (int32 (data.take total.toNat).length) (data.take total.toNat)

/-- `handleBRead`. -/
def handleBRead (p : Bytes) : Handler F Unit :=
  match blockRequest p with
  | none => sendResult (-eINVAL) []
  | some r =>
      if r.count ≤ 0 then sendResult (-eINVAL) []
      else if r.handle ≠ blockHandle then handleBReadFile cfg host r
      else
        match cfg.blockDev with
        | none => sendResult (-eBADF) []
        | some dev => do
            let total ← compute (r.count * dev.sectorSize)
            if cfg.transferCap < total then sendResult (-eINVAL) []
            else do
              let inside ← inRange dev r.sector r.count
              if inside = false then sendResult (-eINVAL) []
              else do
                let offset ← compute (r.sector * dev.sectorSize)
                match ← readAt host dev offset total.toNat with
                | .error err => sendResult (errno err) []
                | .ok data => sendResult (int32 data.length) data

/-- The bytes of `data` that reach a file: a write that fails lacks at least the last one. -/
def taken (data : Bytes) : Bytes :=
  match host.write with
  | none => data
  | some (n, _) => data.dropLast.take n

def World.put [DecidableEq F] (w : World F) (f : F) (offset : Nat) (data : Bytes) : World F :=
  { w with files := Function.update w.files f ((w.files f).splice offset (taken host data)) }

/-- `WriteAt` of an open file. -/
def writeAt [DecidableEq F] (handle : HandleId) (f : F) (append : Bool) (offset : Int)
    (data : Bytes) : Handler F (Option HostError) := do
  if append ∨ offset < 0 then
    act (.wroteAt handle offset data false)
    return some .other
  else
    act (.wroteAt handle offset data host.write.isNone)
    modify fun w => w.put host f offset.toNat data
    return host.write.map Prod.snd

def sync : Handler F (Option HostError) := do
  act (.synced host.sync.isNone)
  return host.sync

/-- What follows a write: the sync and the report. -/
def finishWrite (written : Option HostError) (result : Int) : Handler F Unit :=
  match written with
  | some err => sendWriteDone (errno err)
  | none => do
      match ← sync host with
      | some err => sendWriteDone (errno err)
      | none => sendWriteDone result

variable [DecidableEq F]

/-- `completeFileBlockWrite`. -/
def completeFileBlockWrite (handle : HandleId) (buf : Bytes) (offset : Int) : Handler F Unit := do
  let w ← get
  match w.st.handles handle with
  | none => sendWriteDone (-eBADF)
  | some h =>
      match h.writer with
      | none => sendWriteDone (-eBADF)
      | some f => do
          let written ← writeAt host handle f h.append offset buf
          finishWrite host written (int32 buf.length)

/-- `completeBlockWrite`. -/
def completeBlockWrite (handle : HandleId) (buf : Bytes) (offset expected : Int) :
    Handler F Unit :=
  if (buf.length : Int) ≠ expected then sendWriteDone (-eINVAL)
  else if handle ≠ blockHandle then completeFileBlockWrite host handle buf offset
  else
    match cfg.blockDev with
    | none => sendWriteDone (-eBADF)
    | some dev =>
        if dev.readOnly then sendWriteDone (errno .permission)
        else do
          let written ← writeAt host handle dev.file false offset buf
          finishWrite host written (int32 buf.length)

/-- The WRITE of `completeWrite`: at the position of the open file. -/
def completeFileWrite (handle : HandleId) (buf : Bytes) : Handler F Unit := do
  let w ← get
  match w.st.handles handle with
  | none => sendWriteDone (-eBADF)
  | some h =>
      match h.writer with
      | none => sendWriteDone (-eBADF)
      | some f => do
          act (.wrote handle buf)
          modify fun w =>
            w.put host f (if h.append then (w.files f).length else host.position) buf
          finishWrite host (host.write.map Prod.snd) (int32 buf.length)

/-- `completeWrite`. -/
def completeWrite : Handler F Unit := do
  let w ← get
  resetWrite
  if w.st.isBlock then
    completeBlockWrite cfg host w.st.handle w.st.buffer w.st.offset w.st.expectedLen
  else completeFileWrite host w.st.handle w.st.buffer

/-- The data of a chunk. -/
def chunkBody (msg : Bytes) : Bytes := (msg.drop 8).take (msg.field 4 2)

/-- `handleWriteData`. -/
def handleWriteData (msg : Bytes) : Handler F Unit := do
  let w ← get
  if msg.length < 8 ∨ w.st.active = false then act .ack
  else if msg.field 2 2 ≠ w.st.receivedChunk then do
    resetWrite
    sendWriteDone (- eIO)
  else do
    let gathered ← compute (w.st.buffer.length + (chunkBody msg).length)
    if cfg.transferCap < gathered then do
      resetWrite
      sendWriteDone (-eFBIG)
    else if 0 < w.st.expectedLen ∧ w.st.expectedLen < gathered then do
      resetWrite
      sendWriteDone (-eINVAL)
    else do
      modify fun w => { w with st := { w.st with
        buffer := w.st.buffer ++ chunkBody msg
        totalChunks := msg.field 6 2
        receivedChunk := (w.st.receivedChunk + 1) % 65536 } }
      if msg.field 6 2 = 0 ∨ (w.st.receivedChunk + 1) % 65536 < msg.field 6 2 then act .ack
      else completeWrite cfg host

/-- The first chunk behind the header of a write request. -/
def firstChunk (p : Bytes) (header : Nat) : Handler F Unit :=
  if header < p.length then handleWriteData cfg host (p.drop header) else act .ack

/-- `startBlockWrite`. -/
def startBlockWrite (r : Request) (offset total : Int) (p : Bytes) : Handler F Unit := do
  modify fun w => { w with st :=
    ⟨w.st.handles, true, r.handle, [], 0, 0, true, offset, total, some r⟩ }
  firstChunk cfg host p 16

/-- `handleFileBWriteRequest`. -/
def handleFileBWriteRequest (r : Request) (p : Bytes) : Handler F Unit := do
  let w ← get
  match w.st.handles r.handle with
  | none => sendWriteDone (-eBADF)
  | some h =>
      if h.directory then sendWriteDone (-eBADF)
      else if h.writer.isNone then sendWriteDone (-eACCES)
      else do
        let total ← compute (r.count * DefaultSectorSize)
        if r.count ≤ 0 ∨ cfg.transferCap < total then sendWriteDone (-eFBIG)
        else do
          let room ← compute (MaxInt64 - total)
          if r.sector < 0 ∨ room.tdiv DefaultSectorSize < r.sector then sendWriteDone (-eINVAL)
          else do
            let offset ← compute (r.sector * DefaultSectorSize)
            startBlockWrite cfg host r offset total p

/-- `handleBWriteRequest`. -/
def handleBWriteRequest (p : Bytes) : Handler F Unit := do
  resetWrite
  match blockRequest p with
  | none => sendWriteDone (-eINVAL)
  | some r =>
      if cfg.readOnly then sendWriteDone (-eACCES)
      else if r.handle ≠ blockHandle then handleFileBWriteRequest cfg host r p
      else
        match cfg.blockDev with
        | none => sendWriteDone (-eBADF)
        | some dev =>
            if dev.readOnly then sendWriteDone (-eACCES)
            else do
              let total ← compute (r.count * dev.sectorSize)
              if r.count ≤ 0 ∨ cfg.transferCap < total then sendWriteDone (-eFBIG)
              else do
                let inside ← inRange dev r.sector r.count
                if inside = false then sendWriteDone (-eINVAL)
                else do
                  let offset ← compute (r.sector * dev.sectorSize)
                  startBlockWrite cfg host r offset total p

/-- `handleWriteRequest`. -/
def handleWriteRequest (p : Bytes) : Handler F Unit := do
  resetWrite
  if p.length < 12 then sendWriteDone (-eINVAL)
  else if cfg.readOnly then sendWriteDone (-eACCES)
  else if cfg.transferCap < p.field 8 4 then sendWriteDone (-eFBIG)
  else
    let w ← get
    match w.st.handles (BitVec.ofNat 32 (p.field 4 4)) with
    | none => sendWriteDone (-eBADF)
    | some h =>
        if h.directory then sendWriteDone (-eBADF)
        else if h.writer.isNone then sendWriteDone (-eACCES)
        else do
          modify fun w => { w with st := { w.st with
            active := true
            handle := BitVec.ofNat 32 (p.field 4 4)
            buffer := []
            totalChunks := 0
            receivedChunk := 0 } }
          firstChunk cfg host p 12

/-- `State.CloseHandle`. -/
def State.closeHandle (st : State F) (id : HandleId) : State F :=
  let closed := { st with handles := Function.update st.handles id none }
  if st.active = true ∧ st.handle = id then closed.resetWrite else closed

/-- `handleClose`. -/
def handleClose (p : Bytes) : Handler F Unit := do
  let w ← get
  let id : HandleId := BitVec.ofNat 32 (p.field 4 4)
  if p.length < 8 then act (.closeReply (-eINVAL))
  else if id = blockHandle then act (.closeReply 0)
  else
    match w.st.handles id with
    | none => act (.closeReply (-eBADF))
    | some _ => do
        modify fun w => { w with st := w.st.closeHandle id }
        act (.closeReply 0)

def CloseRequest : Nat := 0x12

def WriteRequest : Nat := 0x16

def WriteData : Nat := 0x17

def BReadRequest : Nat := 0x28

def BWriteRequest : Nat := 0x2A

/-- The block and write requests of `handleMessage`. -/
def handleMessage (p : Bytes) : Handler F Unit :=
  if p.field 0 1 = CloseRequest then handleClose p
  else if p.field 0 1 = WriteRequest then handleWriteRequest cfg host p
  else if p.field 0 1 = WriteData then handleWriteData cfg host p
  else if p.field 0 1 = BReadRequest then handleBRead cfg host p
  else if p.field 0 1 = BWriteRequest then handleBWriteRequest cfg host p
  else pure ()

end

/-! ## Runs -/

variable {P : Type} [DecidableEq P] [DecidableEq F]

/-- One session a peer. -/
structure Server (P F : Type) where
  cfg : Config F
  files : F → Bytes
  sessions : P → State F

/-- What serving a message leaves. -/
def Server.serve (s : Server P F) (peer : P) (p : Bytes) (host : Host) : World F :=
  final (handleMessage s.cfg host p ⟨s.files, s.sessions peer, []⟩)

inductive Event (P F : Type)
  | message (peer : P) (p : Bytes) (host : Host)
  /-- Another request of the peer, a hand-over or a reset, and whatever happened to the files. -/
  | other (peer : P) (handles : HandleId → Option (Handle F)) (reset : Bool) (files : F → Bytes)

/-- The session after an `other` event. -/
def State.after (st : State F) (handles : HandleId → Option (Handle F)) (reset : Bool) : State F :=
  if reset then { st.resetWrite with handles := handles } else { st with handles := handles }

def Server.next (s : Server P F) : Event P F → Server P F
  | .message peer p host =>
      let w := s.serve peer p host
      { s with files := w.files, sessions := Function.update s.sessions peer w.st }
  | .other peer handles reset files =>
      { s with
        files := files
        sessions := Function.update s.sessions peer ((s.sessions peer).after handles reset) }

/-- A server that starts, on an image of any size with sectors below 2 GiB. -/
structure Server.Starts (s : Server P F) : Prop where
  sessions : ∀ peer, s.sessions peer = State.new
  device : ∀ dev, s.cfg.blockDev = some dev → ∃ sectorSize readOnly,
    sectorSize < 2147483648 ∧ ((s.files dev.file).length : Int) ≤ MaxInt64 ∧
      dev = openBlockDevice dev.file (s.files dev.file).length sectorSize readOnly

def runs : System (Server P F) (Event P F) where
  init s := s.Starts
  step s e t := t = s.next e

/-- No file of that table is the image, opened for writing. -/
def Config.Apart (cfg : Config F) (handles : HandleId → Option (Handle F)) : Prop :=
  ∀ dev, cfg.blockDev = some dev → ∀ id h, handles id = some h → h.writer ≠ some dev.file

/-- The image is left alone by everything but block access: nobody opens its file for writing. -/
def Apart (s : Server P F) : Event P F → Prop
  | .message _ _ _ => True
  | .other _ handles _ files => s.cfg.Apart handles ∧
      ∀ dev, s.cfg.blockDev = some dev → files dev.file = s.files dev.file

/-- The BWRITE or BREAD that a message belongs to. -/
def Server.governing (s : Server P F) (peer : P) (p : Bytes) : Option Request :=
  if p.field 0 1 = BReadRequest ∨ p.field 0 1 = BWriteRequest then blockRequest p
  else if p.field 0 1 = WriteData then (s.sessions peer).request
  else none

/-- The data of the write so far, with what the message brings. -/
def Server.gathered (s : Server P F) (peer : P) (p : Bytes) : Bytes :=
  if p.field 0 1 = BWriteRequest then chunkBody (p.drop 16)
  else (s.sessions peer).buffer ++ chunkBody p

def Config.sectorSize (cfg : Config F) (handle : HandleId) : Int :=
  if handle = blockHandle then (cfg.blockDev.map BlockDevice.sectorSize).getD DefaultSectorSize
  else DefaultSectorSize

/-- An access through handle 0 lies in the sectors asked for, and these inside the image. -/
def Request.Covers (cfg : Config F) (files : F → Bytes) (r : Request) (offset : Int) (n : Nat) :
    Prop :=
  ∃ dev, cfg.blockDev = some dev ∧ r.handle = blockHandle ∧ r.sector * dev.sectorSize ≤ offset ∧
    offset + n ≤ (r.sector + r.count) * dev.sectorSize ∧
    (r.sector + r.count) * dev.sectorSize ≤ (files dev.file).length

/-- What holds of the answer to every message. -/
structure Sound (s : Server P F) (peer : P) (p : Bytes) (host : Host) : Prop where
  fits : ∀ n, .computed n ∈ (s.serve peer p host).trace → Fits n
  read : ∀ offset size, .readAt offset size ∈ (s.serve peer p host).trace →
    ∃ r, s.governing peer p = some r ∧ r.Covers s.cfg s.files offset size
  write : ∀ offset data done, .wroteAt blockHandle offset data done ∈ (s.serve peer p host).trace →
    ∃ r, s.governing peer p = some r ∧ r.Covers s.cfg s.files offset data.length
  size : ∀ dev, s.cfg.blockDev = some dev →
    ((s.serve peer p host).files dev.file).length = (s.files dev.file).length
  reported : ∀ r, s.governing peer p = some r → p.field 0 1 ≠ BReadRequest →
    ((∃ n, 0 ≤ n ∧ .writeDone n ∈ (s.serve peer p host).trace) ↔
      ((s.gathered peer p).length : Int) = r.count * s.cfg.sectorSize r.handle ∧
      (∃ offset, .wroteAt r.handle offset (s.gathered peer p) true ∈
        (s.serve peer p host).trace) ∧
      .synced true ∈ (s.serve peer p host).trace)

end Ps2Servers.Edge.Blocks
