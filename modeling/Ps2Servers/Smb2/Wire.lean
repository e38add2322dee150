import Ps2Servers.Lib.Bytes

/-!
# SMB2 message headers and compound messages

The fixed 64-byte header, the dialect choice, and the way a message is cut into
the requests it chains by `NextCommand`.
-/

namespace Ps2Servers.Smb2

def HEADER_SIZE : Nat := 64

def MAX_TRANSACT : Nat := 1 <<< 20

def MAX_READ : Nat := 1 <<< 20

def SMB2_MAGIC : Bytes := [0xfe, 0x53, 0x4d, 0x42]

/-- The commands that have a handler, and the rest by number. -/
inductive Command
  | negotiate
  | sessionSetup
  | logoff
  | treeConnect
  | treeDisconnect
  | create
  | close
  | flush
  | read
  | write
  | ioctl
  | cancel
  | echo
  | queryDirectory
  | queryInfo
  | setInfo
  | other (code : Nat)
  deriving DecidableEq, Repr

def Command.ofNat : Nat → Command
  | 0x0000 => negotiate
  | 0x0001 => sessionSetup
  | 0x0002 => logoff
  | 0x0003 => treeConnect
  | 0x0004 => treeDisconnect
  | 0x0005 => create
  | 0x0006 => close
  | 0x0007 => flush
  | 0x0008 => read
  | 0x0009 => write
  | 0x000b => ioctl
  | 0x000c => cancel
  | 0x000d => echo
  | 0x000e => queryDirectory
  | 0x0010 => queryInfo
  | 0x0011 => setInfo
  | n => other n

def FLAG_RELATED : Nat := 0x00000004

def FLAG_SIGNED : Nat := 0x00000008

abbrev Status := Nat

def STATUS_SUCCESS : Status := 0x00000000

def STATUS_INVALID_PARAMETER : Status := 0xC000000D

def STATUS_MORE_PROCESSING_REQUIRED : Status := 0xC0000016

def STATUS_ACCESS_DENIED : Status := 0xC0000022

def STATUS_LOGON_FAILURE : Status := 0xC000006D

def STATUS_NOT_SUPPORTED : Status := 0xC00000BB

def STATUS_BAD_NETWORK_NAME : Status := 0xC00000CC

def STATUS_USER_SESSION_DELETED : Status := 0xC0000203

def STATUS_NETWORK_NAME_DELETED : Status := 0xC00000C9

def STATUS_INFO_LENGTH_MISMATCH : Status := 0xC0000004

def STATUS_INVALID_DEVICE_REQUEST : Status := 0xC0000010

def STATUS_END_OF_FILE : Status := 0xC0000011

def STATUS_OBJECT_NAME_INVALID : Status := 0xC0000033

def STATUS_OBJECT_NAME_NOT_FOUND : Status := 0xC0000034

def STATUS_OBJECT_NAME_COLLISION : Status := 0xC0000035

def STATUS_OBJECT_PATH_SYNTAX_BAD : Status := 0xC000003B

def STATUS_DISK_FULL : Status := 0xC000007F

def STATUS_MEDIA_WRITE_PROTECTED : Status := 0xC00000A2

def STATUS_FILE_IS_A_DIRECTORY : Status := 0xC00000BA

def STATUS_PIPE_EMPTY : Status := 0xC00000D9

def STATUS_DIRECTORY_NOT_EMPTY : Status := 0xC0000101

def STATUS_NOT_A_DIRECTORY : Status := 0xC0000103

def STATUS_FILE_CLOSED : Status := 0xC0000128

def STATUS_BUFFER_OVERFLOW : Status := 0x80000005

def STATUS_NO_MORE_FILES : Status := 0x80000006

/-- `wire.Header`. -/
structure Header where
  creditCharge : Nat
  command : Command
  credits : Nat
  flags : Nat
  nextCommand : Nat
  messageId : Nat
  treeId : Nat
  sessionId : Nat
  deriving DecidableEq, Repr

def Header.signed (hdr : Header) : Bool := hdr.flags &&& FLAG_SIGNED != 0

def Header.related (hdr : Header) : Bool := hdr.flags &&& FLAG_RELATED != 0

/-- `wire.parse_header`. -/
def parseHeader (raw : Bytes) : Option Header :=
  if raw.length < HEADER_SIZE ∨ raw.take 4 ≠ SMB2_MAGIC then none
  else some
    { creditCharge := raw.field 6 2
      command := Command.ofNat (raw.field 12 2)
      credits := raw.field 14 2
      flags := raw.field 16 4
      nextCommand := raw.field 20 4
      messageId := raw.field 24 8
      treeId := raw.field 36 4
      sessionId := raw.field 40 8 }

/-- One request of a message: its header, its bytes `msg[offset:end]` and its body. -/
structure Piece where
  hdr : Header
  raw : Bytes
  body : Bytes
  deriving DecidableEq, Repr

/-- The requests the loop of `_dispatch_all` visits. Every pass but the last takes off at
least one byte, so `msg.length` passes are enough. -/
def pieces (fuel : Nat) (msg : Bytes) : List Piece :=
  match fuel, msg, parseHeader msg with
  | fuel + 1, _ :: _, some hdr =>
      if hdr.nextCommand = 0 then [⟨hdr, msg, msg.drop HEADER_SIZE⟩]
      else
        ⟨hdr, msg.take hdr.nextCommand, (msg.take hdr.nextCommand).drop HEADER_SIZE⟩ ::
          pieces fuel (msg.drop hdr.nextCommand)
  | _, _, _ => []

def DIALECT_202 : Nat := 0x0202

def DIALECT_210 : Nat := 0x0210

def DIALECT_300 : Nat := 0x0300

def DIALECT_302 : Nat := 0x0302

/-- `wire.pick_dialect`: never 3.1.1. -/
def pickDialect (offered : List Nat) (ceiling : Nat) : Option Nat :=
  (offered.filter fun d =>
    d ≤ ceiling && [DIALECT_202, DIALECT_210, DIALECT_300, DIALECT_302].contains d).max?

/-- `request_buffer`: `none` when the declared slice does not fit the body. -/
def requestBuffer (body : Bytes) (offset length least : Nat) : Option Bytes :=
  if length = 0 then some []
  else if offset < least ∨ offset < HEADER_SIZE ∨
      body.length < offset - HEADER_SIZE + length then none
  else some (body.sub (offset - HEADER_SIZE) length)

end Ps2Servers.Smb2
