import Ps2Servers.Udpfs.Transfer

/-!
# Sessions of the Core server

The Core server keeps a compatibility profile for each session. A DISCOVERY may come
from a console that has started over or from one that is still streaming; while a
stream runs it is only remembered, and the next request decides. DISCOVERY packets are
handled by the receiving thread, DATA packets by the session's own, in two halves: the
compatibility layer classifies under its lock, the base class accepts.

## Implementation notes

The request handlers are a parameter: they may change what they work on and the
transmit side, and send. The clock is an input where the source asks it: whether the
last retransmission or DISCOVERY is recent. `pending_zero_discovery_at` is a time that
is tested for being set. Where a reply leaves is the socket that is named, also
when both are one.
-/

namespace Ps2Servers.Udpfs

inductive ProtocolMode
  | auto
  | standard
  | modulo
  deriving DecidableEq, Repr

inductive Profile
  | pending
  | standard
  | modulo
  deriving DecidableEq, Repr

inductive Socket
  | data
  | discovery
  deriving DecidableEq, Repr

/-- The write that is being assembled. -/
structure PendingWrite where
  handle : Int
  isBlock : Bool
  sectorNr : Nat
  sectorCount : Nat
  data : Bytes
  totalChunks : Nat
  receivedChunks : Nat
  deriving DecidableEq, Repr

def PendingWrite.none : PendingWrite := ⟨-1, false, 0, 0, [], 0, 0⟩

/-- What the request handlers work on: the host, the session's own handles and its write. -/
structure App (W O : Type) where
  world : W
  handles : List (Nat × O)
  nextHandle : Nat
  write : PendingWrite
  deriving DecidableEq, Repr

/-- A request handler: the number expected next, the payload, and what it may change and send. -/
abbrev Execute (W O : Type) :=
  Nat → Bytes → App W O → Tx → Option Nat → (App W O × Tx × Option Nat) × List Bytes

structure CoreConfig (W O : Type) where
  mode : ProtocolMode
  /-- `_info_payload`. -/
  info : Bytes
  execute : Execute W O

structure Core (W O : Type) where
  app : App W O
  tx : Tx
  rxExpected : Nat
  rxStreaming : Bool
  lastRetx : Option Nat
  profile : Profile
  discoverySequence : Nat
  responseSocket : Socket
  generation : Nat
  fallbackSent : Bool
  firstDataSeen : Bool
  pendingZero : Bool
  pendingSequence : Option Nat
  /-- The number of `_last_disc`. -/
  lastDisc : Option Nat
  /-- The requests dispatched so far, with their numbers. Only statements read it. -/
  executed : List (Nat × Bytes)
  deriving DecidableEq, Repr

variable {W O : Type}

abbrev Packets := List (Socket × Bytes)

/-- The profile of a session that has not been classified. -/
def ProtocolMode.initial : ProtocolMode → Profile
  | .auto => .pending
  | .standard => .standard
  | .modulo => .modulo

/-- `Session.__init__` and `_init_compat`. -/
def Core.new (mode : ProtocolMode) (world : W) : Core W O where
  app := ⟨world, [], 1, .none⟩
  tx := Tx.new
  rxExpected := 0
  rxStreaming := false
  lastRetx := none
  profile := mode.initial
  discoverySequence := 0
  responseSocket := .data
  generation := 0
  fallbackSent := false
  firstDataSeen := false
  pendingZero := false
  pendingSequence := none
  lastDisc := none
  executed := []

/-- `_reset_transport_state`. -/
def Core.resetTransport (s : Core W O) (profile : Profile) : Core W O :=
  { s with
    app := { s.app with write := .none }
    tx := Tx.new
    rxExpected := 0
    rxStreaming := false
    profile := profile
    responseSocket := .data
    fallbackSent := false
    firstDataSeen := false
    pendingZero := false
    pendingSequence := none }

/-- `_reset_session_state`. -/
def Core.resetSession (s : Core W O) (profile : Profile) : Core W O :=
  { s with app := { s.app with handles := [], nextHandle := 1 } }.resetTransport profile

/-- `classify_profile`. -/
def classifyProfile (discovery first : Nat) : Profile :=
  let modulo := (discovery % 0x1000 + 1) % 0x1000
  let first := first % 0x1000
  if first = modulo ∧ (first ≠ 0 ∨ discovery % 0x1000 ≠ 0) then .modulo
  else if discovery % 0x1000 = 0 ∧ first = 0 then .standard
  else if first = modulo then .modulo
  else .standard

def INFORM : Nat := 1

/-- `DiscHeader.pack`. -/
def packDiscHeader (serviceId port : Nat) : Bytes := Bytes.ofNat 2 serviceId ++ Bytes.ofNat 2 port

/-- `_canonical_inform`. -/
def canonicalInform : Packets :=
  [(.data, packHeader INFORM 1 ++ packDiscHeader UDPRDMA_SVC_UDPFS 0)]

variable (cfg : CoreConfig W O)

/-- The packet of `_compatibility_inform`. -/
def informPacket (seq : Nat) : Packets :=
  [(.discovery, packHeader INFORM seq ++ packDiscHeader UDPRDMA_SVC_UDPFS 0 ++ cfg.info)]

/-- `_compatibility_inform`. -/
def Core.inform (s : Core W O) : Core W O × Packets :=
  ({ s with tx := s.tx.next .inform, fallbackSent := true }, informPacket cfg s.tx.seqNr)

/-- The fallback timer of a handshake. -/
def Core.fallback (s : Core W O) (generation : Nat) : Core W O × Packets :=
  if s.generation ≠ generation ∨ s.profile ≠ .pending ∨ s.firstDataSeen ∨ s.rxStreaming ∨
      s.fallbackSent then (s, [])
  else s.inform cfg

/-- `_handle_discovery` in the strict Modulo mode. -/
def Core.moduloDiscovery (s : Core W O) (seq : Nat) (recent : Bool) : Core W O × Packets :=
  if s.lastDisc = some seq ∧ recent then (s, informPacket cfg (ringSub s.tx.seqNr 1))
  else
    { s with
      lastDisc := some seq
      rxExpected := (seq + 1) % 0x1000
      responseSocket := .discovery }.inform cfg

/-- `_handle_discovery` of a session, in the other modes. -/
def Core.liveDiscovery (s : Core W O) (seq : Nat) : Core W O × Packets :=
  if s.rxStreaming then
    if seq = 0 then ({ s with pendingZero := true, pendingSequence := none }, canonicalInform)
    else ({ s with pendingZero := false, pendingSequence := some seq }, canonicalInform)
  else
    ({ s.resetSession cfg.mode.initial with
        discoverySequence := seq
        generation := s.generation + 1 }, canonicalInform)

/-- `_handle_discovery`. -/
def Core.discovery (s : Core W O) (datagram : Bytes) (recent : Bool) : Core W O × Packets :=
  if datagram.length < 6 ∨ datagram.field 2 2 ≠ UDPRDMA_SVC_UDPFS then (s, [])
  else if cfg.mode = .modulo then s.moduloDiscovery cfg (seqNr datagram) recent
  else s.liveDiscovery cfg (seqNr datagram)

/-! ## DATA, the compatibility layer's half -/

/-- A replacement session takes over the handles. -/
def Core.replace (s : Core W O) (discovery : Nat) : Core W O :=
  { s.resetTransport cfg.mode.initial with
    discoverySequence := discovery
    generation := s.generation + 1 }

/-- A remembered nonzero DISCOVERY, when a request comes. -/
def Core.resolveSequence (s : Core W O) (seq : Nat) : Core W O :=
  match s.pendingSequence with
  | none => s
  | some pending =>
      if seq = s.rxExpected then { s with pendingSequence := none }
      else if seq = (pending + 1) % 0x1000 then s.replace cfg pending
      else s

/-- A remembered DISCOVERY with number 0, when a request comes. -/
def Core.resolveZero (s : Core W O) (seq : Nat) : Core W O :=
  if s.pendingZero then
    if seq = s.rxExpected then { s with pendingZero := false }
    else if seq = 0 ∨ seq = 1 then s.replace cfg 0
    else s
  else s

/-- The first request of a session chooses its profile. -/
def Core.choose (s : Core W O) (seq : Nat) (ingress : Socket) : Core W O × Packets :=
  let profile := classifyProfile s.discoverySequence seq
  let s := { s with profile := profile, responseSocket := ingress, firstDataSeen := true }
  if profile = .modulo then
    let s := { s with rxExpected := seq }
    if s.fallbackSent then (s, []) else s.inform cfg
  else
    let s := { s with rxExpected := 0 }
    if s.fallbackSent then ({ s with tx := Tx.new, fallbackSent := false }, []) else (s, [])

/-- `_handle_data`, up to the call of the base class. -/
def Core.classify (s : Core W O) (datagram : Bytes) (ingress : Socket) : Core W O × Packets :=
  let seq := seqNr datagram
  let s := if 0 < payloadSize datagram then (s.resolveSequence cfg seq).resolveZero cfg seq else s
  if s.profile = .pending ∧ 0 < payloadSize datagram then s.choose cfg seq ingress
  else if s.rxStreaming then (s, [])
  else if s.profile = .modulo then ({ s with responseSocket := ingress, rxExpected := seq }, [])
  else ({ s with responseSocket := ingress }, [])

/-! ## DATA, the base class's half -/

/-- `_send_ack`. -/
def Core.sendAck (s : Core W O) (isAck : Bool) : Packets :=
  let ack := if isAck then ringSub s.rxExpected 1 else s.rxExpected
  [(s.responseSocket, packHeader DATA s.tx.seqNr ++
    packDataHeader ack (if isAck then ACK else 0) 0 0)]

/-- Packets are sent again from a number on. -/
def Core.resend (s : Core W O) (seq : Nat) (recent : Bool) : Core W O × Packets :=
  let (lastRetx, out) := s.tx.resend s.lastRetx seq recent
  ({ s with lastRetx := lastRetx }, out.map fun p => (s.responseSocket, p))

/-- The request is accepted, acknowledged and executed. -/
def Core.dispatch (s : Core W O) (datagram : Bytes) : Core W O × Packets :=
  let payload := datagram.sub 6 (payloadSize datagram)
  let s := { s with rxExpected := (s.rxExpected + 1) % 0x1000, rxStreaming := true }
  let ((app, tx, lastRetx), out) := cfg.execute s.rxExpected payload s.app s.tx s.lastRetx
  ({ s with
      app := app
      tx := tx
      lastRetx := lastRetx
      executed := s.executed ++ [(seqNr datagram, payload)] },
    s.sendAck true ++ out.map fun p => (s.responseSocket, p))

/-- A request whose number was checked: expected, repeated, from a peer that was reset, or not. -/
def Core.request (s : Core W O) (datagram : Bytes) (recent : Bool) : Core W O × Packets :=
  let seq := seqNr datagram
  if seq = s.rxExpected then s.dispatch cfg datagram
  else if seq = ringSub s.rxExpected 1 then
    match s.tx.buffer with
    | [] => (s, s.sendAck true)
    | e :: _ =>
        let (s', out) := s.resend e.1 recent
        (s', s.sendAck true ++ out)
  else if seq = 0 then { s with tx := Tx.new, rxExpected := 0 }.dispatch cfg datagram
  else (s, s.sendAck false)

/-- `UdpfsServer._handle_data`. -/
def Core.accept (s : Core W O) (datagram : Bytes) (recent : Bool) : Core W O × Packets :=
  let isAck := dataFlags datagram % 2 = ACK
  let s := if isAck then { s with tx := s.tx.acknowledge (ackNr datagram) } else s
  if payloadSize datagram = 0 then
    if isAck then (s, [])
    else
      { s with tx := s.tx.acknowledge (ringSub (ackNr datagram) 1) }.resend (ackNr datagram) recent
  else s.request cfg datagram recent

/-- `_route_data_via`: what is queued for a session. -/
def routed (datagram : Bytes) : Bool :=
  6 ≤ datagram.length && packetType datagram = DATA &&
    payloadSize datagram ≤ datagram.length - 6

/-- `_handle_data`. -/
def Core.data (s : Core W O) (datagram : Bytes) (ingress : Socket) (recent : Bool) :
    Core W O × Packets :=
  if routed datagram then
    let (s, out) := s.classify cfg datagram ingress
    let (s, out') := s.accept cfg datagram recent
    (s, out ++ out')
  else (s, [])

inductive CoreEvent
  | discovery (datagram : Bytes) (recent : Bool)
  | timer (generation : Nat)
  | data (datagram : Bytes) (ingress : Socket) (recent : Bool)
  deriving DecidableEq, Repr

/-- One event of a session. -/
def Core.next (s : Core W O) : CoreEvent → Core W O × Packets
  | .discovery datagram recent => s.discovery cfg datagram recent
  | .timer generation => s.fallback cfg generation
  | .data datagram ingress recent => s.data cfg datagram ingress recent

end Ps2Servers.Udpfs
