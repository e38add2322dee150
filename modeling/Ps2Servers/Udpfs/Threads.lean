import Ps2Servers.Udpfs.Gathering
import Ps2Servers.Udpfs.Reassembly

/-!
# The threads of the UDPFS server

One thread receives all datagrams and puts those with data into the queue of their peer's
session. The session's own thread takes them from there: it handles a request to its end,
also where the reply is a transfer of many packets and waits for acknowledgements, which
are in the same queue. A wait reads the queue too; a packet that is not for the wait is
put back. To the files all this is as if each datagram had been handled when it was
taken, one after the other.

## Implementation notes

A step is one round of a thread's loop, so rounds of different sessions may come in any
order. A round runs its handler as one step, although session threads run in parallel:
what two handlers do to one file while both are in the middle is not modelled. The clock
decides when a wait is over and whether a retransmission is recent; both are inputs. A
session goes at once: what its thread still sends then is left out, and so is the `None`
that wakes it. Left out among the packets are INFORMs and the acknowledgements that
handlers send themselves.
-/

namespace Ps2Servers.Udpfs

open Effects Runs

variable {H V B : Type}

/-! ## Sessions with their queues -/

/-- Where the thread of a session stands. -/
inductive Stage
  /-- At the top of its loop. -/
  | idle
  /-- In a transfer, with replies to send behind it. -/
  | sending (t : Transfer) (offset retries : Nat) (phase : Phase) (pending : List Bytes)

/-- A session with its transport. -/
structure Worker (V B : Type) where
  session : Session V B
  tx : Tx
  lastRetx : Option Nat
  queue : List Bytes
  pushback : List Bytes
  stage : Stage

def Worker.new : Worker V B := ⟨Session.new, Tx.new, none, [], [], .idle⟩

/-- What has arrived and nobody has taken, in the order in which it will be. -/
def Worker.inbox (k : Worker V B) : List Bytes := k.pushback ++ k.queue

/-- `_queue_get`. -/
def Worker.queueGet (k : Worker V B) : Option (Bytes × Worker V B) :=
  match k.pushback with
  | item :: rest => some (item, { k with pushback := rest })
  | [] =>
      match k.queue with
      | item :: rest => some (item, { k with queue := rest })
      | [] => none

/-- `_queue_pushback`. -/
def Worker.queuePushback (k : Worker V B) (item : Bytes) : Worker V B :=
  { k with pushback := k.pushback ++ [item] }

/-- `_send_ack`. -/
def Worker.sendAck (k : Worker V B) (isAck : Bool) : List Bytes :=
  let rx := k.session.rxSeqNrExpected
  [packHeader DATA k.tx.seqNr ++
    packDataHeader (if isAck then ringSub rx 1 else rx) (if isAck then ACK else 0) 0 0]

/-- `_retransmit_from`. -/
def Worker.retransmitFrom (k : Worker V B) (seq : Nat) (recent : Bool) : Worker V B × List Bytes :=
  let (lastRetx, out) := k.tx.resend k.lastRetx seq recent
  ({ k with lastRetx := lastRetx }, out)

/-! ## Replies -/

/-- A transfer goes on, or ends. -/
def Worker.resume (k : Worker V B) (t : Transfer) (s : Sender) (pending : List Bytes) : Worker V B :=
  { k with
    tx := s.tx
    lastRetx := s.lastRetx
    stage := .sending t s.offset s.retries s.phase pending }

/-- `_send_read_result`: the reply starts with a header of eight bytes. -/
def Worker.sendTransfer (k : Worker V B) (reply : Bytes) (pending : List Bytes) :
    Worker V B × List Bytes :=
  let t : Transfer := ⟨reply.take 8, reply.drop 8, k.tx.seqNr, k.session.rxSeqNrExpected⟩
  let (s, out) := startTransfer t k.tx.acked k.lastRetx
  (k.resume t s pending, out)

/-- `_send_data`. -/
def Worker.sendData (k : Worker V B) (reply : Bytes) : Worker V B × List Bytes :=
  let packet := buildPacket k.tx.seqNr k.session.rxSeqNrExpected reply true 0
  ({ k with tx := k.tx.next (.reply packet) }, [packet])

/-- Only READ and BREAD answer with transfers. -/
def isRead (payload : Bytes) : Bool := msgType payload = .read || msgType payload = .bread

/-- The replies that are left, each as a transfer. -/
def Worker.transfers (k : Worker V B) : List Bytes → Worker V B × List Bytes
  | [] => ({ k with stage := .idle }, [])
  | reply :: pending => k.sendTransfer reply pending

/-- The replies of a request, each in a packet. -/
def Worker.replies (k : Worker V B) (replies : List Bytes) : Worker V B × List Bytes :=
  replies.foldl (fun r reply => ((r.1.sendData reply).1, r.2 ++ (r.1.sendData reply).2)) (k, [])

def Worker.answer (k : Worker V B) (payload : Bytes) (replies : List Bytes) :
    Worker V B × List Bytes :=
  if isRead payload then k.transfers replies else k.replies replies

/-! ## Requests -/

/-- `_handle_data` up to the dispatch: the session after it, what it sends, and the message of a
packet that is accepted. -/
def Worker.accept (k : Worker V B) (datagram : Bytes) (recent : Bool) :
    Worker V B × List Bytes × Option Bytes :=
  if datagram.length < 6 ∨ packetType datagram ≠ DATA then (k, [], none)
  else
    let isAck := dataFlags datagram % 2 = ACK
    let k := if isAck then { k with tx := k.tx.acknowledge (ackNr datagram) } else k
    if payloadSize datagram = 0 then
      if isAck then (k, [], none)
      else
        let (k, out) := { k with
          tx := k.tx.acknowledge (ringSub (ackNr datagram) 1) }.retransmitFrom (ackNr datagram) recent
        (k, out, none)
    else
      let seq := seqNr datagram
      let dispatch := fun (k : Worker V B) =>
        let k := { k with session := { k.session with
          rxSeqNrExpected := (k.session.rxSeqNrExpected + 1) % 0x1000 } }
        (k, k.sendAck true, some (datagram.sub 6 (payloadSize datagram)))
      if seq = k.session.rxSeqNrExpected then dispatch k
      else if seq = ringSub k.session.rxSeqNrExpected 1 then
        match k.tx.buffer with
        | [] => (k, k.sendAck true, none)
        | e :: _ =>
            let (k', out) := k.retransmitFrom e.1 recent
            (k', k.sendAck true ++ out, none)
      else if seq = 0 then
        dispatch { k with tx := Tx.new, session := { k.session with rxSeqNrExpected := 0 } }
      else (k, k.sendAck false, none)

/-! ## The server -/

/-- The server with the threads of its sessions. A peer that is not known has a new session. -/
structure Threads (H V B : Type) where
  host : H
  bd : Option BlockDevice
  workers : Addr → Worker V B

def Threads.new (host : H) (bd : Option Inode) : Threads H V B :=
  ⟨host, bd.map fun inode => ⟨inode, 0⟩, fun _ => Worker.new⟩

def Threads.put (s : Threads H V B) (addr : Addr) (k : Worker V B) : Threads H V B :=
  { s with workers := fun a => if a = addr then k else s.workers a }

variable (env : Env H V B)

/-- `_handle_data`. -/
def Threads.handleData (s : Threads H V B) (addr : Addr) (k : Worker V B) (datagram : Bytes)
    (recent : Bool) : Threads H V B × List Bytes :=
  match k.accept datagram recent with
  | (k, out, none) => (s.put addr k, out)
  | (k, out, some []) => (s.put addr k, out)
  | (k, out, some payload) =>
      let w := final (handleMessage env payload ⟨s.host, s.bd, k.session, []⟩)
      let (k, out') := { k with session := w.session }.answer payload w.sent
      ({ s with host := w.host, bd := w.bd }.put addr k, out ++ out')

/-- What both waits put back: a request, or a DISCOVERY. -/
def putsBack (t : Transfer) (datagram : Bytes) : Bool :=
  6 ≤ datagram.length && (packetType datagram = DISCOVERY ||
    packetType datagram = DATA && !isResent t datagram && 0 < payloadSize datagram)

/-- A step of a transfer; behind its last one come the replies that are left. -/
def Worker.step (k : Worker V B) (t : Transfer) (s : Sender) (pending : List Bytes) (i : Input) :
    Worker V B × List Bytes :=
  let (s, out) := s.next t i
  let k := k.resume t s pending
  match s.phase with
  | .ended _ =>
      let (k, out') := k.transfers pending
      (k, out ++ out')
  | _ => (k, out)

/-- One round of a session's thread. -/
def Threads.work (s : Threads H V B) (addr : Addr) (recent : Bool) : Threads H V B × List Bytes :=
  let k := s.workers addr
  match k.stage with
  | .idle =>
      match k.queueGet with
      | none => (s, [])
      | some (datagram, k) => s.handleData env addr k datagram recent
  | .sending t offset retries phase pending =>
      let t := { t with rxExpected := k.session.rxSeqNrExpected }
      let sender : Sender := ⟨k.tx, offset, retries, k.lastRetx, phase⟩
      if phase = .sending then
        let (k, out) := k.step t sender pending .work
        (s.put addr k, out)
      else
        match k.queueGet with
        | none => (s, [])
        | some (datagram, k) =>
            let (k, out) := k.step t sender pending (.packet datagram recent)
            (s.put addr (if putsBack t datagram then k.queuePushback datagram else k), out)

/-- The wait of a session's thread is over, if it waits. -/
def Threads.timeout (s : Threads H V B) (addr : Addr) (recent : Bool) : Threads H V B × List Bytes :=
  let k := s.workers addr
  match k.stage with
  | .idle => (s, [])
  | .sending t offset retries phase pending =>
      if phase = .sending then (s, [])
      else
        let t := { t with rxExpected := k.session.rxSeqNrExpected }
        let (k, out) := k.step t ⟨k.tx, offset, retries, k.lastRetx, phase⟩ pending (.empty recent)
        (s.put addr k, out)

/-- `_route_data`. -/
def Threads.routeData (s : Threads H V B) (addr : Addr) (datagram : Bytes) : Threads H V B :=
  let k := s.workers addr
  if datagram.length < 2 ∨ packetType datagram ≠ DATA then s
  else s.put addr { k with queue := k.queue ++ [datagram] }

/-- `_handle_discovery`. -/
def Threads.discovery (s : Threads H V B) (addr : Addr) (datagram : Bytes) (repeated : Bool) :
    Threads H V B :=
  let k := s.workers addr
  if datagram.length < 6 ∨ packetType datagram ≠ DISCOVERY ∨
      datagram.field 2 2 ≠ UDPRDMA_SVC_UDPFS then s
  else if env.cfg.moduloCompat && !repeated then
    s.put addr { k with
      tx := k.tx.next .inform
      session := { k.session with rxSeqNrExpected := (seqNr datagram + 1) % 0x1000 } }
  else s

inductive Round
  /-- The receiving thread reads a datagram. -/
  | receive (addr : Addr) (datagram : Bytes)
  | discovery (addr : Addr) (datagram : Bytes) (repeated : Bool)
  | work (addr : Addr) (recent : Bool)
  | timeout (addr : Addr) (recent : Bool)
  /-- A session is evicted or has been idle for too long. -/
  | gone (addr : Addr)
  deriving DecidableEq, Repr

/-- One round, and what it sends. -/
def Threads.round (s : Threads H V B) : Round → Threads H V B × List Bytes
  | .receive addr datagram => (s.routeData addr datagram, [])
  | .discovery addr datagram repeated => (s.discovery env addr datagram repeated, [])
  | .work addr recent => s.work env addr recent
  | .timeout addr recent => s.timeout addr recent
  | .gone addr => (s.put addr Worker.new, [])

/-- A round in which a datagram is taken and not put back stands for its event, and so do the
rounds that are one already. -/
def Threads.stands (s : Threads H V B) : Round → List Event
  | .receive _ _ => []
  | .discovery addr datagram repeated => [.discovery addr datagram repeated]
  | .work addr _ =>
      let k := s.workers addr
      match k.queueGet, k.stage with
      | none, _ => []
      | some (datagram, _), .idle => [.data addr datagram]
      | some (datagram, _), .sending t _ _ phase _ =>
          if phase = .sending ∨ putsBack { t with rxExpected := k.session.rxSeqNrExpected } datagram then []
          else [.data addr datagram]
  | .timeout _ _ => []
  | .gone addr => [.gone addr]

def Threads.next (s : Threads H V B) (r : Round) : Threads H V B := (s.round env r).1

/-- The server after some rounds. -/
def Threads.after (s : Threads H V B) (rounds : List Round) : Threads H V B :=
  rounds.foldl (Threads.next env) s

end Ps2Servers.Udpfs
