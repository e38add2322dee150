import Ps2Servers.Udpfs.Acks
import Ps2Servers.Udpfs.Server

/-!
# Transfers of several packets

A reply of READ or BREAD goes out in packets of at most 1408 bytes, eight of them in
flight. The sender waits for acknowledgements, sends packets again from its buffer, and
ends with the acknowledgement of the last packet, with a new request of the console,
or after too many time-outs.

## Implementation notes

One step is one round of a loop of the source: the sending loop, or the reception of one
queued item (or none in time) in one of the two waits. The clock decides whether a
wait has ended and whether the last retransmission is less than 50 ms old, so both are
inputs. Reply sizes are far below the precision of a float, so `math.ceil` of a
quotient is exact.
-/

namespace Ps2Servers.Udpfs

/-! ## Packets -/

def MAX_DATA_PAYLOAD : Nat := 1408

def SEND_WINDOW : Nat := 8

def MAX_WINDOW_RETRIES : Nat := 200

def ACK : Nat := 1

def FIN : Nat := 2

/-- `Header.pack`. -/
def packHeader (type seq : Nat) : Bytes := Bytes.ofNat 2 (type % 0x10 + seq % 0x1000 * 0x10)

/-- `DataHeader.pack`. -/
def packDataHeader (ack flags words count : Nat) : Bytes :=
  Bytes.ofNat 4 (ack % 0x1000 + flags % 4 * 0x1000 + words % 0x10 * 0x4000 +
    count % 0x4000 * 0x40000)

/-- `DataHeader.unpack`. -/
def ackNr (datagram : Bytes) : Nat := datagram.field 2 4 % 0x1000

def dataFlags (datagram : Bytes) : Nat := datagram.field 2 4 / 0x1000 % 4

/-- The zero bytes behind `size` bytes of data. -/
def padding (size : Nat) : Bytes := List.replicate ((size + 3) / 4 * 4 - size) 0

/-- The packet of `_send_data_packet`. -/
def buildPacket (seq rxExpected : Nat) (payload : Bytes) (fin : Bool) (hdrSize : Nat) : Bytes :=
  let size := payload.length - hdrSize
  packHeader DATA seq ++
    packDataHeader (ringSub rxExpected 1) (if fin then FIN else 0) (hdrSize / 4)
      ((size + 3) / 4 * 4) ++
    payload ++ padding size

/-- The packet of `_send_ack`. -/
def buildAck (seq rxExpected : Nat) : Bytes :=
  packHeader DATA seq ++ packDataHeader (ringSub rxExpected 1) ACK 0 0

/-- `_optimal_chunk_size`. -/
def optimalChunkSize (total : Nat) : Nat :=
  let choose := fun (best : Nat × Nat × Nat) (c : Nat × Nat) =>
    let packets := ceilDiv total c.1
    if packets < best.2.1 ∨ packets = best.2.1 ∧ best.2.2 < c.2 then (c.1, packets, c.2) else best
  ([(1024, 512), (1280, 256), (1408, 128)].foldl choose (1408, ceilDiv total 1408, 128)).1

/-! ## The sender -/

/-- What a transfer sends, from which number on, and the number the console sends next. -/
structure Transfer where
  header : Bytes
  data : Bytes
  start : Nat
  rxExpected : Nat

def Transfer.chunk (t : Transfer) : Nat := optimalChunkSize t.data.length

/-- The data in the first packet. -/
def Transfer.first (t : Transfer) : Nat :=
  min (min t.chunk (MAX_DATA_PAYLOAD - t.header.length)) t.data.length

/-- Where the sender stands in the code. -/
inductive Phase
  | sending
  /-- `_wait_for_window_ack`, and what was acknowledged before it. -/
  | window (oldAcked : Nat)
  /-- `_wait_for_ack` in an attempt of `_wait_for_final_ack`. -/
  | final (attempt : Nat)
  /-- The value returned. -/
  | ended (result : Option Bool)
  deriving DecidableEq, Repr

structure Sender where
  tx : Tx
  offset : Nat
  retries : Nat
  /-- The number of `_last_retx`. -/
  lastRetx : Option Nat
  phase : Phase
  deriving DecidableEq, Repr

inductive Input
  /-- One round of the sending loop. -/
  | work
  /-- Nothing was received in time. -/
  | empty (recent : Bool)
  /-- The session is shutting down. -/
  | closing (recent : Bool)
  | packet (datagram : Bytes) (recent : Bool)
  deriving DecidableEq, Repr

variable (t : Transfer)

/-- `_send_data_packet`. -/
def sendPacket (tx : Tx) (payload : Bytes) (fin : Bool) (hdrSize : Nat) : Tx × List Bytes :=
  let packet := buildPacket tx.seqNr t.rxExpected payload fin hdrSize
  (tx.next (.packet packet), [packet])

/-- `_send_raw_data_with_header`, up to its loop. -/
def startTransfer (acked : Nat) (lastRetx : Option Nat) : Sender × List Bytes :=
  let (tx, out) := sendPacket t ⟨t.start, acked, []⟩ (t.header ++ t.data.sub 0 t.first)
    (t.data.length ≤ t.first) t.header.length
  (⟨tx, t.first, 0, lastRetx, .sending⟩, out)

/-- One round of the sending loop. -/
def sendRound (s : Sender) : Sender × List Bytes :=
  if s.offset < t.data.length then
    if SEND_WINDOW ≤ s.tx.inFlight then ({ s with phase := .window s.tx.acked }, [])
    else
      let size := min t.chunk (t.data.length - s.offset)
      let (tx, out) := sendPacket t s.tx (t.data.sub s.offset size)
        (t.data.length ≤ s.offset + size) 0
      ({ s with tx := tx, offset := s.offset + size, retries := 0 }, out)
  else ({ s with phase := .final 0 }, [])

/-- `_retransmit_from`. -/
def retransmitFrom (s : Sender) (seq : Nat) (recent : Bool) : Sender × List Bytes :=
  let (lastRetx, out) := s.tx.resend s.lastRetx seq recent
  ({ s with lastRetx := lastRetx }, out)

/-- The sending loop after `_wait_for_window_ack` returned `False`. -/
def afterWindow (s : Sender) (oldAcked : Nat) : Sender :=
  if s.tx.acked = oldAcked then
    if MAX_WINDOW_RETRIES ≤ s.retries + 1 then
      { s with retries := s.retries + 1, phase := .ended none }
    else { s with retries := s.retries + 1, phase := .sending }
  else { s with retries := 0, phase := .sending }

/-- `_is_resent_request`. -/
def isResent (datagram : Bytes) : Bool :=
  0 < payloadSize datagram && seqNr datagram = ringSub t.rxExpected 1

/-- An item in `_wait_for_window_ack`. -/
def windowPacket (s : Sender) (oldAcked : Nat) (datagram : Bytes) (recent : Bool) :
    Sender × List Bytes :=
  if datagram.length < 6 then (s, [])
  else if packetType datagram = DISCOVERY then
    ({ s with tx := s.tx.next .clear, phase := .ended none }, [])
  else if packetType datagram ≠ DATA then (s, [])
  else if isResent t datagram then (s, [buildAck s.tx.seqNr t.rxExpected])
  else if dataFlags datagram % 2 = ACK then
    let tx := s.tx.acknowledge (ackNr datagram)
    if 0 < payloadSize datagram then ({ s with tx := tx, phase := .ended none }, [])
    else if tx.acked ≠ s.tx.acked then (afterWindow { s with tx := tx } oldAcked, [])
    else ({ s with tx := tx }, [])
  else if payloadSize datagram = 0 then
    let accepted := s.tx.accepts (ringSub (ackNr datagram) 1)
    let tx := s.tx.acknowledge (ringSub (ackNr datagram) 1)
    let (s, out) := retransmitFrom { s with tx := tx } (ackNr datagram) recent
    if accepted ∧ ackNr datagram = s.tx.seqNr then (afterWindow s oldAcked, out) else (s, out)
  else ({ s with phase := .ended none }, [])

/-- `_wait_for_final_ack` after `_wait_for_ack` returned `True`. -/
def confirm (s : Sender) : Sender :=
  { s with phase := .ended (some (s.tx.acked = ringSub s.tx.seqNr 1 ∧ s.tx.buffer = [])) }

/-- `_wait_for_final_ack` after `_wait_for_ack` returned `False`. -/
def tryAgain (s : Sender) (attempt : Nat) (recent : Bool) : Sender × List Bytes :=
  match s.tx.buffer with
  | [] => ({ s with phase := .ended (some false) }, [])
  | e :: _ =>
      let (s, out) := retransmitFrom s e.1 recent
      if attempt < MAX_WINDOW_RETRIES then ({ s with phase := .final (attempt + 1) }, out)
      else ({ s with phase := .ended (some false) }, out)

/-- An item in `_wait_for_ack`. -/
def finalPacket (s : Sender) (attempt : Nat) (datagram : Bytes) (recent : Bool) :
    Sender × List Bytes :=
  if datagram.length < 6 then (s, [])
  else if packetType datagram = DISCOVERY then
    tryAgain { s with tx := s.tx.next .clear } attempt recent
  else if packetType datagram ≠ DATA then (s, [])
  else if isResent t datagram then (s, [buildAck s.tx.seqNr t.rxExpected])
  else if dataFlags datagram % 2 = ACK then
    let accepted := s.tx.accepts (ackNr datagram)
    let tx := s.tx.acknowledge (ackNr datagram)
    if accepted ∧ ackNr datagram = ringSub tx.seqNr 1 then
      (confirm { s with tx := tx.next .clear }, [])
    else if 0 < payloadSize datagram then (confirm { s with tx := tx }, [])
    else ({ s with tx := tx }, [])
  else if payloadSize datagram = 0 then
    retransmitFrom { s with tx := s.tx.acknowledge (ringSub (ackNr datagram) 1) }
      (ackNr datagram) recent
  else (confirm s, [])

/-- One step. An item for which nobody waits stays queued. -/
def Sender.next (s : Sender) (i : Input) : Sender × List Bytes :=
  match s.phase, i with
  | .sending, .work => sendRound t s
  | .window oldAcked, .empty recent =>
      match s.tx.buffer with
      | [] => (afterWindow s oldAcked, [])
      | e :: _ =>
          let (s, out) := retransmitFrom s e.1 recent
          (afterWindow s oldAcked, out)
  | .window oldAcked, .closing _ => (afterWindow s oldAcked, [])
  | .window oldAcked, .packet datagram recent => windowPacket t s oldAcked datagram recent
  | .final attempt, .empty recent => tryAgain s attempt recent
  | .final attempt, .closing recent => tryAgain s attempt recent
  | .final attempt, .packet datagram recent => finalPacket t s attempt datagram recent
  | _, _ => (s, [])

/-- A transfer and what it has sent. -/
def run (acked : Nat) (lastRetx : Option Nat) (inputs : List Input) : Sender × List Bytes :=
  inputs.foldl (fun r i => ((r.1.next t i).1, r.2 ++ (r.1.next t i).2)) (startTransfer t acked lastRetx)

end Ps2Servers.Udpfs
