import Ps2Servers.Lib.Effects
import Ps2Servers.Lib.Struct
import Ps2Servers.Lib.Utf16
import Ps2Servers.Smb2.Host

/-!
# The pipe srvsvc

The one pipe of `IPC$`: DCE/RPC requests for the list of shares, and the queue of
answers that READ takes from.
-/

namespace Ps2Servers.Smb2

open Struct (Item)
open Text Effects

namespace Srvsvc

def PTYPE_REQUEST : Nat := 0

def PTYPE_RESPONSE : Nat := 2

def PTYPE_FAULT : Nat := 3

def PTYPE_BIND : Nat := 11

def PTYPE_BIND_ACK : Nat := 12

def PTYPE_ALTER_CONTEXT : Nat := 14

def PTYPE_ALTER_CONTEXT_RESP : Nat := 15

def PFC_FIRST_FRAG : Nat := 0x01

def PFC_LAST_FRAG : Nat := 0x02

def DREP_LE : Bytes := [0x10, 0, 0, 0]

def SRVSVC_SYNTAX : Bytes :=
  [0xc8, 0x4f, 0x32, 0x4b, 0x70, 0x16, 0xd3, 0x01, 0x12, 0x78, 0x5a, 0x47, 0xbf, 0x6e, 0xe1, 0x88,
    3, 0, 0, 0]

def NDR32_SYNTAX : Bytes :=
  [0x04, 0x5d, 0x88, 0x8a, 0xeb, 0x1c, 0xc9, 0x11, 0x9f, 0xe8, 0x08, 0x00, 0x2b, 0x10, 0x48, 0x60,
    2, 0, 0, 0]

def OPNUM_NETR_SHARE_ENUM : Nat := 15

def RESULT_ACCEPTANCE : Nat := 0

def RESULT_PROVIDER_REJECTION : Nat := 2

def REASON_ABSTRACT_SYNTAX_NOT_SUPPORTED : Nat := 1

def REASON_TRANSFER_SYNTAXES_NOT_SUPPORTED : Nat := 2

def NCA_OP_RNG_ERROR : Nat := 0x1C010002

def NCA_PROTO_ERROR : Nat := 0x1C01000B

def NCA_UNSPEC_REJECT : Nat := 0x1C000009

def STYPE_DISKTREE : Nat := 0x00000000

def ERROR_INVALID_LEVEL : Nat := 124

def MAX_FRAG : Nat := 4280

def PIPE_NAMES : List Str := [lit "srvsvc"]

/-- A row of `share_list`. -/
structure Row where
  name : Str
  kind : Nat
  remark : Str
  path : Str
  deriving DecidableEq, Repr

end Srvsvc

open Srvsvc

/-- `SrvsvcPipe`. -/
structure Pipe where
  bound : Bool
  contextId : Nat
  maxFrag : Nat
  outbox : Bytes
  deriving DecidableEq, Repr

def Pipe.new : Pipe := ⟨false, 0, MAX_FRAG, []⟩

namespace Srvsvc

/-- A call on a pipe. -/
abbrev Rpc := EStateM Exn Pipe

/-- `RpcError`, which the handlers turn into this status. -/
def rpcError {α : Type} : Rpc α := throw (.status STATUS_INVALID_PARAMETER)

/-- `struct.pack`. -/
def pack (items : List Item) : Rpc Bytes :=
  match Struct.pack items with
  | some bytes => pure bytes
  | none => throw .other

/-- `_header`, and the body it is for. -/
def pdu (ptype flags callId : Nat) (body : Bytes) : Rpc Bytes := do
  let header ← pack [.B 5, .B 0, .B ptype, .B flags, .s 4 DREP_LE, .H (16 + body.length), .H 0,
    .I callId]
  return header ++ body

def pad4 (data : Bytes) : Bytes := data ++ List.replicate ((4 - data.length % 4) % 4) 0

/-- `_ndr_string`. -/
def ndrString (text : Str) : Rpc Bytes :=
  match encodeUtf16 (text ++ [.char (Char.ofNat 0)]) with
  | none => throw .other
  | some raw => do
      let count := raw.length / 2
      let header ← pack [.I count, .I 0, .I count]
      return pad4 (header ++ raw)

/-- `Reader.u32`, and the position behind it. -/
def u32 (data : Bytes) (position : Nat) : Option (Nat × Nat) :=
  let aligned := (position + 3) / 4 * 4
  if aligned + 4 ≤ data.length then some (data.field aligned 4, aligned + 4) else none

/-- `Reader.skip_string`. -/
def skipString (data : Bytes) (position : Nat) : Option Nat := do
  let (maxCount, position) ← u32 data position
  let (_, position) ← u32 data position
  let (actual, position) ← u32 data position
  if maxCount < actual ∨ data.length < position + actual * 2 then none
  else some (position + actual * 2)

/-- The level a NetrShareEnum asks for. -/
def levelOf (stub : Bytes) : Option Nat := do
  let (server, position) ← u32 stub 0
  let position ← if server ≠ 0 then skipString stub position else some position
  let (level, position) ← u32 stub position
  let _ ← u32 stub position
  return level

/-- The `k`-th pointer of an answer. -/
def pointer (k : Nat) : Nat := 0x00020000 + 4 * (k + 1)

/-- The fixed part of a row whose pointers start at `k`, and its strings. -/
def rowParts (level k : Nat) (row : Row) : Rpc (Bytes × Bytes) := do
  let name ← ndrString row.name
  if level = 0 then return (← pack [.I (pointer k)], name)
  else
    let remark ← ndrString row.remark
    if level = 1 then
      return (← pack [.I (pointer k), .I row.kind, .I (pointer (k + 1))], name ++ remark)
    else
      let path ← ndrString row.path
      let fixed ← pack [.I (pointer k), .I row.kind, .I (pointer (k + 1)), .I 0, .I 0xFFFFFFFF,
        .I 0, .I (pointer (k + 2)), .I 0]
      return (fixed, name ++ remark ++ path)

/-- The rows of an answer: all fixed parts, then all strings. -/
def rowsParts (level : Nat) : Nat → List Row → Rpc (Bytes × Bytes)
  | _, [] => pure ([], [])
  | k, row :: rest => do
      let (fixed, deferred) ← rowParts level k row
      let (fixeds, deferreds) ← rowsParts level (k + level + 1) rest
      return (fixed ++ fixeds, deferred ++ deferreds)

/-- `_share_enum`. -/
def shareEnum (rows : List Row) (stub : Bytes) : Rpc Bytes :=
  match levelOf stub with
  | none => rpcError
  | some level =>
      if 2 < level then pack [.I level, .I level, .I 0, .I 0, .I 0, .I ERROR_INVALID_LEVEL]
      else do
        let (fixed, deferred) ← rowsParts level 0 rows
        let k := rows.length * (level + 1)
        let head ← pack [.I level, .I level, .I (pointer k), .I rows.length]
        if rows = [] then
          let tail ← pack [.I 0, .I 0, .I (pointer (k + 1)), .I 0, .I 0]
          return head ++ tail
        else
          let buffer ← pack [.I (pointer (k + 1)), .I rows.length]
          let tail ← pack [.I rows.length, .I (pointer (k + 2)), .I 0, .I 0]
          return head ++ buffer ++ fixed ++ deferred ++ tail

/-- `_fault`. -/
def fault (callId status : Nat) : Rpc Bytes := do
  let pipe ← get
  let body ← pack [.I 32, .H pipe.contextId, .B 0, .B 0, .I status, .I 0]
  pdu PTYPE_FAULT (PFC_FIRST_FRAG ||| PFC_LAST_FRAG ||| 0x20) callId body

/-- `_response`: the fragments of an answer. Each but the last takes `room` bytes. -/
def fragments (room callId : Nat) : Nat → Bool → Bytes → Rpc Bytes
  | 0, _, _ => rpcError
  | fuel + 1, first, stub => do
      let pipe ← get
      let chunk := stub.take room
      let last := decide (stub.length ≤ room)
      let flags := (if first then PFC_FIRST_FRAG else 0) ||| (if last then PFC_LAST_FRAG else 0)
      let header ← pack [.I stub.length, .H pipe.contextId, .B 0, .B 0]
      let fragment ← pdu PTYPE_RESPONSE flags callId (header ++ chunk)
      if last then return fragment
      else
        let rest ← fragments room callId fuel false (stub.drop room)
        return fragment ++ rest

def response (callId : Nat) (stub : Bytes) : Rpc Bytes := do
  let pipe ← get
  fragments (pipe.maxFrag - 16 - 8) callId (stub.length + 1) true stub

def isRpcError (e : Exn) : Bool := e == .status STATUS_INVALID_PARAMETER

/-- `_request`. -/
def request (rows : List Row) (callId : Nat) (body : Bytes) : Rpc Bytes :=
  if body.length < 8 then rpcError
  else do
    let pipe ← get
    if !pipe.bound || body.field 4 2 != pipe.contextId then fault callId NCA_PROTO_ERROR
    else if body.field 6 2 ≠ OPNUM_NETR_SHARE_ENUM then fault callId NCA_OP_RNG_ERROR
    else
      match ← rescue (some <$> shareEnum rows (body.drop 8)) isRpcError (fun _ => pure none) with
      | some stub => response callId stub
      | none => fault callId NCA_PROTO_ERROR

/-- The contexts of a bind: their results, and whether one before was accepted. -/
def contexts (body : Bytes) : Nat → Nat → Bool → Rpc Bytes
  | 0, _, _ => pure []
  | count + 1, position, accepted =>
      if body.length < position + 24 then rpcError
      else do
        let synCount := body.field (position + 2) 1
        let abstract := body.sub (position + 4) 20
        let syntaxes := (List.range synCount).map fun i => body.sub (position + 24 + 20 * i) 20
        let next := position + 24 + 20 * synCount
        if abstract ≠ SRVSVC_SYNTAX then
          let result ← pack [.H RESULT_PROVIDER_REJECTION,
            .H REASON_ABSTRACT_SYNTAX_NOT_SUPPORTED, .zeros 20]
          return result ++ (← contexts body count next accepted)
        else if NDR32_SYNTAX ∈ syntaxes ∧ accepted = false then
          modify fun pipe => { pipe with bound := true, contextId := body.field position 2 }
          let result ← pack [.H RESULT_ACCEPTANCE, .H 0, .s 20 NDR32_SYNTAX]
          return result ++ (← contexts body count next true)
        else
          let result ← pack [.H RESULT_PROVIDER_REJECTION,
            .H REASON_TRANSFER_SYNTAXES_NOT_SUPPORTED, .zeros 20]
          return result ++ (← contexts body count next accepted)

def secondaryAddress : Bytes := "\\PIPE\\srvsvc\x00".toUTF8.toList

/-- `_bind`. -/
def bind (ptype callId : Nat) (body : Bytes) : Rpc Bytes :=
  if body.length < 12 then rpcError
  else do
    let maxRecv := body.field 2 2
    let assoc := body.field 4 4
    let count := body.field 8 1
    let results ← contexts body count 12 false
    let maxFrag := max 1024 (min MAX_FRAG (if maxRecv = 0 then MAX_FRAG else maxRecv))
    modify fun pipe => { pipe with maxFrag := maxFrag }
    let head ← pack [.H maxFrag, .H maxFrag, .I (if assoc = 0 then 0x53F0 else assoc)]
    let sec := if ptype = PTYPE_BIND then secondaryAddress else []
    let address ← pack [.H sec.length]
    let number ← pack [.B count, .zeros 3]
    pdu (if ptype = PTYPE_BIND then PTYPE_BIND_ACK else PTYPE_ALTER_CONTEXT_RESP)
      (PFC_FIRST_FRAG ||| PFC_LAST_FRAG) callId (pad4 (head ++ address ++ sec) ++ number ++ results)

end Srvsvc

/-- `SrvsvcPipe.transact`: one request in, its whole answer out. -/
def Pipe.transact (rows : List Row) (data : Bytes) : Rpc Bytes :=
  if data.length < 16 then rpcError
  else
    let ptype := data.field 2 1
    let flags := data.field 3 1
    let fragLen := data.field 8 2
    let authLen := data.field 10 2
    let callId := data.field 12 4
    if data.field 0 1 ≠ 5 ∨ 1 < data.field 1 1 ∨ data.length < fragLen ∨ fragLen < 16 then rpcError
    else
      -- A negative end of a slice counts from the end.
      let stop := if authLen ≤ fragLen then fragLen - authLen
        else data.length - (authLen - fragLen)
      let body := data.sub 16 (stop - 16)
      if ptype = PTYPE_BIND ∨ ptype = PTYPE_ALTER_CONTEXT then Srvsvc.bind ptype callId body
      else if ptype = PTYPE_REQUEST then
        if flags &&& PFC_FIRST_FRAG = 0 ∨ flags &&& PFC_LAST_FRAG = 0 then
          fault callId NCA_UNSPEC_REJECT
        else request rows callId body
      else rpcError

/-- `SrvsvcPipe.write`: the answer waits for the next READ. -/
def Pipe.write (rows : List Row) (data : Bytes) : Rpc Nat := do
  let answer ← Pipe.transact rows data
  modify fun pipe => { pipe with outbox := pipe.outbox ++ answer }
  return data.length

/-- `SrvsvcPipe.read`: queued bytes, and whether any remain. -/
def Pipe.read (pipe : Pipe) (length : Nat) : Bytes × Bool × Pipe :=
  let rest := pipe.outbox.drop length
  (pipe.outbox.take length, rest != [], { pipe with outbox := rest })

end Ps2Servers.Smb2
