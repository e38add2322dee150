import Ps2Servers.Edge.Transmit

/-!
# Replies of the Edge server

A reply goes out as DATA packets, eight of them to a window, and each window waits for its
acknowledgement. A packet is kept until then, for another transmission. The packets of a window
are sent one at a time, or gathered and handed to a batch writer in one call. That writer may
take a part of them only, or report an error; the others are then sent one at a time.

Acknowledgements are read while a window is on its way and while the server waits for them.
-/

namespace Ps2Servers.Edge.Transfer

open Udpfs

/-! ## Packets -/

def MaxPayload : Nat := 1408

def windowSize : Nat := 8

/-- `protocol.Data`. -/
def Data : UInt16 := 2

/-- `protocol.FlagACK`. -/
def FlagACK : UInt8 := 1

/-- `protocol.FlagFIN`. -/
def FlagFIN : UInt8 := 2

/-- `Header.Marshal`. -/
def marshalHeader (type sequence : UInt16) : Bytes :=
  Bytes.ofNat 2 ((type &&& (0xF : UInt16)) ||| (sequence &&& SequenceMask) <<< (4 : UInt16)).toNat

structure DataHeader where
  ackSequence : UInt16
  flags : UInt8
  headerWords : UInt8
  dataBytes : UInt16
  deriving DecidableEq, Repr

/-- `DataHeader.Marshal`. -/
def DataHeader.marshal (h : DataHeader) : Bytes :=
  let v := (h.ackSequence &&& SequenceMask).toUInt32 ||| (h.flags &&& 3).toUInt32 <<< 12 |||
    (h.headerWords &&& 0xF).toUInt32 <<< 14 ||| (h.dataBytes &&& 0x3FFF).toUInt32 <<< 18
  Bytes.ofNat 4 v.toNat

def pad4 (b : Bytes) : Bytes := b ++ List.replicate ((4 - b.length % 4) % 4) 0

/-- The packet with the number `sequence`: the application header, in the first packet, and the
data, padded. -/
def packet (sequence expectedReceive : UInt16) (hdrBytes paddedData : Bytes) (last : Bool) : Bytes :=
  let dh : DataHeader :=
    { ackSequence := previous expectedReceive
      flags := if last then FlagACK ||| FlagFIN else FlagACK
      headerWords := UInt8.ofNat (hdrBytes.length / 4)
      dataBytes := UInt16.ofNat paddedData.length }
  marshalHeader Data sequence ++ dh.marshal ++ (hdrBytes ++ paddedData)

/-! ## The network -/

inductive BatchError
  /-- `errUDPBatchUnsupported`. -/
  | unsupported
  | other
  deriving DecidableEq, Repr

/-- What the batch writer returns: `n` and `err`. -/
structure BatchResult where
  written : Int
  err : Option BatchError
  deriving DecidableEq, Repr

/-- What happens while `waitForAck` waits. -/
inductive WaitEvent
  /-- `handleControl` reads an ACK, or a NACK. -/
  | control (ack : Bool) (number : Fin 0x1000)
  /-- An event is taken from `AckEvents`. -/
  | wake
  deriving DecidableEq, Repr

/-- The batch writer, call after call, and the console. -/
structure Network where
  results : Nat → BatchResult
  /-- The acknowledgements that come in while a window is on its way. -/
  during : Nat → List (Fin 0x1000)
  /-- The waits of a window. Each ends at its timeout if the window is not covered before. -/
  waits : Nat → List (List WaitEvent)

/-- What the server is configured with, and whether its socket is open. -/
structure Config where
  udpBatch : Bool
  txDelay : Int
  connected : Bool
  maxWindowRetries : Int
  deriving DecidableEq, Repr

/-- A window waits for its acknowledgement: what has been handed to the network, and what is kept
for another transmission. -/
structure Point where
  handed : List Bytes
  txBuffer : List BufferedPacket
  deriving DecidableEq, Repr

/-- The transmit side of a session, and what a transfer has done. -/
structure Link where
  tx : Transmit
  expectedReceive : UInt16
  handed : List Bytes
  /-- How often the batch writer was called. -/
  calls : Nat
  points : List Point
  deriving DecidableEq, Repr

variable (cfg : Config) (net : Network)

/-! ## Sending -/

def sendOn (l : Link) (packet : Bytes) : Link :=
  if cfg.connected then { l with handed := l.handed ++ [packet] } else l

/-- `n` within the packets of the call. -/
def BatchResult.accepted (r : BatchResult) (packets : List Bytes) : Nat :=
  let n := if r.written < 0 then 0 else r.written.toNat
  if packets.length < n then packets.length else n

def sendPackets (l : Link) (packets : List Bytes) : Link :=
  if packets.length = 0 then l
  else if packets.length = 1 ∨ cfg.udpBatch = false ∨ 0 < cfg.txDelay then
    packets.foldl (sendOn cfg) l
  else if cfg.connected = false then l
  else
    let r := net.results l.calls
    let n := r.accepted packets
    let taken := { l with handed := l.handed ++ packets.take n, calls := l.calls + 1 }
    if r.err = some .unsupported then (packets.drop n).foldl (sendOn cfg) taken
    else if r.err.isSome ∨ n < packets.length then (packets.drop n).foldl (sendOn cfg) taken
    else taken

def retransmit (l : Link) (start : UInt16) : Link :=
  sendPackets cfg net l
    ((l.tx.txBuffer.filter fun p => p.sent && ((p.sequence - start) &&& SequenceMask) < 2048).map
      BufferedPacket.bytes)

def handleControl (l : Link) (ack : Bool) (number : UInt16) : Link :=
  if ack then { l with tx := l.tx.acknowledge number } else retransmit cfg net l number

/-! ## Confirmation -/

def ackCovers (ack target : UInt16) : Bool := ((ack - target) &&& SequenceMask) < 2048

/-- The loop of `waitForAck`, after a window that was not covered: whether it is, whether the
console was heard of, and the session then. -/
def await (target : UInt16) : List WaitEvent → Bool → Link → Bool × Bool × Link
  | [], activity, l => (false, activity, l)
  | .control ack number :: rest, activity, l =>
      await target rest activity (handleControl cfg net l ack (UInt16.ofNat number))
  | .wake :: rest, _, l =>
      if ackCovers l.tx.transmitAcked target then (true, true, l) else await target rest true l

def waitForAck (target : UInt16) (events : List WaitEvent) (l : Link) : Bool × Bool × Link :=
  if ackCovers l.tx.transmitAcked target then (true, false, l)
  else await cfg net target events false l

/-- `confirmWindow`, as long as its waits last: `none` while it still waits. -/
def confirmWindow (target : UInt16) : List (List WaitEvent) → Nat → Link → Option Bool × Link
  | [], _, l => (none, l)
  | events :: rest, quiet, l =>
      let head := (l.tx.txBuffer.head?.map BufferedPacket.sequence).getD 0
      let (covered, activity, l') := waitForAck cfg net target events l
      if covered then (some true, l')
      else
        match l'.tx.txBuffer with
        | [] => (some true, l')
        | p :: _ =>
            let alive := activity || l'.tx.transmitAcked != l.tx.transmitAcked || p.sequence != head
            let quiet' := bif alive then 0 else quiet + 1
            let resent := retransmit cfg net l' p.sequence
            if cfg.maxWindowRetries ≤ quiet' then (some false, resent)
            else confirmWindow target rest quiet' resent

/-- The window that ends with the number `target` is confirmed. -/
def confirm (target : UInt16) (l : Link) : Option Bool × Link :=
  confirmWindow cfg net target (net.waits l.points.length) 0
    { l with points := l.points ++ [⟨l.handed, l.tx.txBuffer⟩] }

/-! ## Transfers -/

def Config.batching (cfg : Config) : Bool := cfg.udpBatch && cfg.txDelay == 0

/-- Acknowledgements that `handleControl` reads, one after the other. -/
def acknowledges (tx : Transmit) : List (Fin 0x1000) → Transmit
  | [] => tx
  | number :: rest => acknowledges (tx.acknowledge (UInt16.ofNat number)) rest

/-- The acknowledgements of a window that is on its way. -/
def arrive (l : Link) : Link :=
  { l with tx := acknowledges l.tx (net.during l.points.length) }

/-- `flush`. A batch is handed over before its packets are marked as sent; acknowledgements may
come in between. -/
def flush (pending : List Bytes) (l : Link) : Link :=
  if pending.length = 0 then arrive net l
  else
    let l := arrive net (sendPackets cfg net l pending)
    let marked :=
      markSent BufferedPacket.sent (fun p => { p with sent := true }) pending.length l.tx.txBuffer
    { l with tx := { l.tx with txBuffer := pruneAcked marked l.tx.transmitAcked } }

/-- A packet is numbered and kept; without batches it is sent. -/
def send (l : Link) (packet : Bytes) : Link :=
  if cfg.batching then { l with tx := l.tx.push packet false }
  else { sendOn cfg l packet with tx := l.tx.push packet true }

/-- The data left after the next packet. -/
def later (hdrBytes data : Bytes) : Bytes := data.drop (MaxPayload - hdrBytes.length)

def nextPacket (l : Link) (hdrBytes data : Bytes) : Bytes :=
  let paddedData := pad4 (data.take (MaxPayload - hdrBytes.length))
  packet l.tx.transmitSequence l.expectedReceive hdrBytes paddedData
    ((later hdrBytes data).length == 0)

theorem length_later_lt {hdrBytes data : Bytes} (hroom : hdrBytes.length < MaxPayload)
    (hlater : (later hdrBytes data).length ≠ 0) : (later hdrBytes data).length < data.length := by
  have hlen : (later hdrBytes data).length = data.length - (MaxPayload - hdrBytes.length) :=
    List.length_drop
  omega

/-- The loop of `sendTransferPackets`. The application header leaves room for data in the first
packet, so that every packet but the last one takes some. -/
def sendLoop (hdrBytes data : Bytes) (windowPackets : Nat) (pending : List Bytes) (l : Link) :
    Option Bool × Link :=
  if hroom : hdrBytes.length < MaxPayload then
    let sequence := l.tx.transmitSequence
    let next := nextPacket l hdrBytes data
    let sent := send cfg l next
    let queued := if cfg.batching then pending ++ [next] else pending
    if hlater : (later hdrBytes data).length = 0 then
      confirm cfg net sequence (flush cfg net queued sent)
    else if windowSize ≤ windowPackets + 1 then
      match confirm cfg net sequence (flush cfg net queued sent) with
      | (some true, l) => sendLoop [] (later hdrBytes data) 0 [] l
      | (result, l) => (result, l)
    else sendLoop [] (later hdrBytes data) (windowPackets + 1) queued sent
  else (some false, l)
termination_by data.length
decreasing_by
  all_goals exact length_later_lt hroom hlater

/-- A header that `sendTransferPackets` sends. -/
def HeaderOk (header : Bytes) : Prop := header.length % 4 = 0 ∧ header.length ≤ 60

instance (header : Bytes) : Decidable (HeaderOk header) := inferInstanceAs (Decidable (_ ∧ _))

/-- The result, and `none` while the transfer still waits for an acknowledgement. -/
def sendTransferPackets (header data : Bytes) (l : Link) : Option Bool × Link :=
  if HeaderOk header then
    sendLoop cfg net header data 0 [] { l with tx := { l.tx with txBuffer := [] } }
  else (some false, l)

end Ps2Servers.Edge.Transfer
