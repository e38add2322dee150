import Ps2Servers.Udpfs.Images
import Ps2Servers.Lib.Effects

/-!
# Sessions of the UDPFS server

One peer's session: its table of handles, the write it is sending and the number of
the next packet; what a handler is, and the replies it sends. A handler may raise, and
what it does not catch leaves the request without an answer: the worker of the session
logs it and goes on with the next packet.

## Implementation notes

Handle 0 is the block device, one file object that all sessions share; a session's own
handles are kept apart from it. The transport is left out on the sending side: a
reply is the message given to it, an acknowledgement is not kept, and what sending to
the socket can raise is not modelled. The provider of virtual CUE/BIN views is a
parameter. Statistics and log lines are left out.
-/

namespace Ps2Servers.Udpfs

open Text Effects

/-- The virtual CUE/BIN views of CD CHD images; `B` is an open one. -/
structure Views (H V B : Type) where
  findVirtualView : H → Str → Option V
  listVirtualEntries : H → Option Str → List Entry → List (Str × V)
  chdPath : V → Str
  path : V → Str
  size : V → Nat
  openView : H → V → Int → Except Exn B
  read : H → B → Nat → Except Exn Bytes × B
  seek : H → B → Int → Nat → Except Exn Nat × B

structure Config where
  rootDir : Option Str
  readOnly : Bool
  enableCompression : Bool
  compressionCacheSize : Int
  maxTransferBytes : Nat
  bdSectorSize : Nat
  bdSectorCount : Nat
  moduloCompat : Bool
  deriving DecidableEq, Repr

/-- A server and what it runs on. -/
structure Env (H V B : Type) where
  host : Host H
  codecs : Codecs H
  views : Views H V B
  cfg : Config

def FIO_S_IFREG : Nat := 0x2000

def FIO_S_IFDIR : Nat := 0x1000

/-- The fields of a PS2 stat. -/
structure StatInfo where
  mode : Nat
  attr : Nat
  size : Nat
  hisize : Nat
  ctime : Bytes
  atime : Bytes
  mtime : Bytes
  deriving DecidableEq, Repr

def noTime : Bytes := List.replicate 8 0

def StatInfo.blank : StatInfo := ⟨0, 0, 0, 0, noTime, noTime, noTime⟩

/-- An entry as a listing advertises it, with the stat its source has been asked for. -/
structure Advertised (V : Type) where
  name : Str
  source : Entry
  cached : Option Stat
  statInfo : Option StatInfo
  view : Option V
  deriving DecidableEq, Repr

/-- What a handle holds. -/
inductive Obj (V B : Type)
  | file (f : PlainFile)
  | image (w : Wrapper)
  | view (b : B)
  | dir (entries : List (Advertised V))
  deriving DecidableEq, Repr

def Obj.isDir {V B : Type} : Obj V B → Bool
  | dir _ => true
  | _ => false

structure Session (V B : Type) where
  handles : List (Nat × Obj V B)
  nextHandle : Nat
  writeHandle : Int
  writeIsBlock : Bool
  writeSectorNr : Nat
  writeSectorCount : Nat
  writeData : Bytes
  writeTotalChunks : Nat
  writeReceivedChunks : Nat
  rxSeqNrExpected : Nat
  deriving DecidableEq, Repr

def Session.new {V B : Type} : Session V B := ⟨[], 1, -1, false, 0, 0, [], 0, 0, 0⟩

/-- The file object of the shared block device. -/
structure BlockDevice where
  inode : Inode
  pos : Nat
  deriving DecidableEq, Repr

/-- What a handler works on. `sent` are the replies so far. -/
structure World (H V B : Type) where
  host : H
  bd : Option BlockDevice
  session : Session V B
  sent : List Bytes
  deriving DecidableEq, Repr

abbrev Handler (H V B : Type) := EStateM Exn (World H V B)

section Effects

variable {H V B : Type}

def raise {α : Type} : Except Exn α → Handler H V B α
  | .ok a => pure a
  | .error e => throw e

/-- The outcome of a call on the host. -/
def osCall {α : Type} : Except Errno α → Handler H V B α
  | .ok a => pure a
  | .error errno => throw (.osError (some errno))

/-- `-e.errno`, which `None` does not have. -/
def negErrno (e : Exn) : Handler H V B Int :=
  match e.errno with
  | some errno => pure (-errno.toNat)
  | none => throw .typeError

/-- `except OSError as e: reply(-e.errno)`. -/
def answerErrno (reply : Int → Handler H V B Unit) (body : Handler H V B Unit) : Handler H V B Unit :=
  rescue body Exn.isOSError fun e => do reply (← negErrno e)

/-- `except (ImportError, ValueError, OSError, struct.error)`. -/
def Exn.isImageError (e : Exn) : Bool :=
  e = .importError || e.isValueError || e.isOSError || e = .structError

def setHost (h : H) : Handler H V B Unit := modify fun w => { w with host := h }

/-- A call that changes the host, also where it fails. -/
def hostCall {α : Type} (call : H → Except Errno α × H) : Handler H V B α := do
  let w ← get
  setHost (call w.host).2
  osCall (call w.host).1

end Effects

/-! ## Replies -/

def fits32 (n : Int) : Bool := -0x80000000 ≤ n && n < 0x80000000

section Replies

variable {H V B : Type}

/-- A signed 32-bit field. -/
def packInt (n : Int) : Handler H V B Bytes :=
  if fits32 n then pure (Bytes.ofNat 4 (n % 0x100000000).toNat) else throw .structError

/-- A 16-bit field. -/
def packShort (n : Nat) : Handler H V B Bytes :=
  if n < 0x10000 then pure (Bytes.ofNat 2 n) else throw .structError

/-- `_send_data`. -/
def sendData (reply : Bytes) : Handler H V B Unit :=
  modify fun w => { w with sent := w.sent ++ [reply] }

/-- Several 32-bit fields. -/
def words (fields : List Nat) : Bytes := fields.flatMap fun n => Bytes.ofNat 4 n

def OPEN_REPLY : UInt8 := 0x11

def CLOSE_REPLY : UInt8 := 0x13

def WRITE_DONE : UInt8 := 0x18

def LSEEK_REPLY : UInt8 := 0x1b

def DREAD_REPLY : UInt8 := 0x1d

def GETSTAT_REPLY : UInt8 := 0x1f

def RESULT_REPLY : UInt8 := 0x26

/-- `_send_open_reply`. -/
def sendOpenReply (handle : Int) (info : StatInfo) : Handler H V B Unit := do
  let number ← packInt handle
  sendData ([OPEN_REPLY, 0, 0, 0] ++ number ++ words [info.mode, info.size, info.hisize] ++
    info.ctime ++ info.mtime)

/-- A reply that is a message type, a number and data behind it: `_send_close_reply`,
`_send_result_reply`, `_send_write_done` and `_send_read_result`. -/
def sendNumber (type : UInt8) (result : Int) (data : Bytes) : Handler H V B Unit := do
  let number ← packInt result
  sendData ([type, 0, 0, 0] ++ number ++ data)

def sendCloseReply (result : Int) : Handler H V B Unit := sendNumber CLOSE_REPLY result []

def sendReadResult (result : Int) (data : Bytes) : Handler H V B Unit :=
  sendNumber RESULT_REPLY result data

def sendResultReply (result : Int) : Handler H V B Unit := sendNumber RESULT_REPLY result []

def sendWriteDone (result : Int) : Handler H V B Unit := sendNumber WRITE_DONE result []

/-- `_send_lseek_reply`: an error is signed, a position is not. -/
def sendLseekReply (position : Int) : Handler H V B Unit :=
  if position < 0 then do
    let number ← packInt position
    sendData ([LSEEK_REPLY, 0, 0, 0] ++ number ++ List.replicate 4 0xff)
  else
    sendData ([LSEEK_REPLY, 0, 0, 0] ++ words [position.toNat % 0x100000000,
      position.toNat / 0x100000000 % 0x100000000])

/-- The fields and times of a stat, as DREAD and GETSTAT send them. -/
def StatInfo.pack (info : StatInfo) : Bytes :=
  words [info.mode, info.attr, info.size, info.hisize] ++ info.ctime ++ info.atime ++ info.mtime

/-- Padding to a multiple of four bytes. -/
def pad4 (bytes : Bytes) : Bytes := ljust ((bytes.length + 3) / 4 * 4) bytes

/-- `_send_dread_reply`. -/
def sendDreadReply (result : Int) (name : Str) (info : StatInfo) : Handler H V B Unit := do
  let bytes ← raise (orRaise .valueError (encode name))
  let length ← packShort bytes.length
  let number ← packInt result
  sendData ([DREAD_REPLY, 0] ++ length ++ number ++ info.pack ++
    if 0 < result then pad4 (bytes ++ [0]) else [])

/-- `_send_getstat_reply`. -/
def sendGetstatReply (result : Int) (info : StatInfo) : Handler H V B Unit := do
  let number ← packInt result
  sendData ([GETSTAT_REPLY, 0, 0, 0] ++ number ++ info.pack)

end Replies

end Ps2Servers.Udpfs
