import Ps2Servers.Udpfs.Core

/-!
# DISCOVERY packets during a stream

Background DISCOVERY packets and fallback timers leave a streaming session as it is, but for
what it remembers of the last DISCOVERY; the next request at the expected number clears
that. A request that is sent again is not executed again, unless its number is the one
that a remembered DISCOVERY announces.
-/

namespace Ps2Servers.Udpfs

open Runs

variable {W O : Type} (cfg : CoreConfig W O) {s : Core W O}

/-! ## Background traffic -/

/-- A DISCOVERY or the expiry of a fallback timer. -/
def CoreEvent.isBackground : CoreEvent → Bool
  | .data .. => false
  | _ => true

/-- What a session remembers of a DISCOVERY. -/
def Core.remember (s : Core W O) (zero : Bool) (sequence : Option Nat) : Core W O :=
  { s with pendingZero := zero, pendingSequence := sequence }

variable {cfg}

/-- One background event. -/
theorem next_background (hmode : cfg.mode ≠ .modulo) (hstream : s.rxStreaming = true)
    {e : CoreEvent} (he : e.isBackground) :
    ∃ zero sequence, (s.next cfg e).1 = s.remember zero sequence := by
  cases e with
  | data datagram ingress recent => exact absurd he Bool.false_ne_true
  | timer generation =>
      refine ⟨s.pendingZero, s.pendingSequence, ?_⟩
      have hcond : s.generation ≠ generation ∨ s.profile ≠ .pending ∨ s.firstDataSeen ∨
          s.rxStreaming ∨ s.fallbackSent := Or.inr (Or.inr (Or.inr (Or.inl hstream)))
      rw [Core.next, Core.fallback, if_pos hcond]
      rfl
  | discovery datagram recent =>
      simp only [Core.next, Core.discovery, if_neg hmode, Core.liveDiscovery, if_pos hstream]
      split
      · exact ⟨s.pendingZero, s.pendingSequence, rfl⟩
      split
      · exact ⟨true, none, rfl⟩
      · exact ⟨false, some (seqNr datagram), rfl⟩

/-- Any number of them. -/
theorem foldl_background (hmode : cfg.mode ≠ .modulo) (hstream : s.rxStreaming = true)
    {es : List CoreEvent} (hes : ∀ e ∈ es, e.isBackground) :
    ∃ zero sequence,
      es.foldl (fun s e => (s.next cfg e).1) s = s.remember zero sequence := by
  induction es generalizing s with
  | nil => exact ⟨s.pendingZero, s.pendingSequence, rfl⟩
  | cons e rest ih =>
      obtain ⟨zero, sequence, hstep⟩ := next_background hmode hstream (hes e List.mem_cons_self)
      have hrest := fun f hf => hes f (List.mem_cons_of_mem e hf)
      obtain ⟨zero', sequence', hrun⟩ := ih (s := s.remember zero sequence) hstream hrest
      refine ⟨zero', sequence', ?_⟩
      rw [List.foldl_cons, hstep]
      exact hrun

variable (cfg) in
/-- A request at the expected number clears what is remembered. -/
theorem resolve_expected (zero : Bool) (sequence : Option Nat) {seq : Nat}
    (hseq : seq = s.rxExpected) :
    ((s.remember zero sequence).resolveSequence cfg seq).resolveZero cfg seq =
      s.remember false none := by
  have hsequence : (s.remember zero sequence).resolveSequence cfg seq = s.remember zero none := by
    unfold Core.resolveSequence
    cases sequence with
    | none => rfl
    | some pending => exact if_pos hseq
  rw [hsequence]
  unfold Core.resolveZero
  cases zero with
  | false => rfl
  | true => exact if_pos hseq

theorem classify_remember (zero : Bool) (sequence : Option Nat) {datagram : Bytes}
    (hpayload : 0 < payloadSize datagram) (hseq : seqNr datagram = s.rxExpected)
    (ingress : Socket) :
    (s.remember zero sequence).classify cfg datagram ingress = s.classify cfg datagram ingress := by
  have hown := resolve_expected cfg (s := s) s.pendingZero s.pendingSequence hseq
  unfold Core.classify
  simp only [if_pos hpayload, resolve_expected cfg zero sequence hseq]
  rw [← hown]
  rfl

/-- Background DISCOVERY packets and timers leave the session of a running stream as it is: its
handles, its pending write, its sequence numbers, its transmit buffer and its profile; and the next
request is executed as if they had not been there. -/
theorem live_discovery_frame (hmode : cfg.mode ≠ .modulo) (hstream : s.rxStreaming = true)
    {es : List CoreEvent} (hes : ∀ e ∈ es, e.isBackground) :
    (es.foldl (fun s e => (s.next cfg e).1) s).app = s.app ∧
      (es.foldl (fun s e => (s.next cfg e).1) s).tx = s.tx ∧
      (es.foldl (fun s e => (s.next cfg e).1) s).rxExpected = s.rxExpected ∧
      (es.foldl (fun s e => (s.next cfg e).1) s).profile = s.profile ∧
      (es.foldl (fun s e => (s.next cfg e).1) s).rxStreaming = true ∧
      ∀ datagram ingress recent, routed datagram → 0 < payloadSize datagram →
        seqNr datagram = s.rxExpected →
        (es.foldl (fun s e => (s.next cfg e).1) s).data cfg datagram ingress recent =
          s.data cfg datagram ingress recent := by
  obtain ⟨zero, sequence, hrun⟩ := foldl_background hmode hstream hes
  rw [hrun]
  refine ⟨rfl, rfl, rfl, rfl, hstream, ?_⟩
  intro datagram ingress recent hrouted hpayload hseq
  unfold Core.data
  rw [if_pos hrouted, if_pos hrouted, classify_remember zero sequence hpayload hseq]

/-- A server whose handlers do nothing. -/
def idle (mode : ProtocolMode) : CoreConfig Unit Unit where
  mode := mode
  info := []
  execute _ _ app tx lastRetx := ((app, tx, lastRetx), [])

/-- A request of four bytes. -/
def requestPacket (seq : Nat) : Bytes :=
  packHeader DATA seq ++ packDataHeader 0 0 0 4 ++ [7, 0, 0, 0]

def discoveryPacket (seq : Nat) : Bytes :=
  packHeader DISCOVERY seq ++ packDiscHeader UDPRDMA_SVC_UDPFS 0

/-- A session that has executed its first request. -/
def streamingSession : Core Unit Unit :=
  ((Core.new .auto ()).data (idle .auto) (requestPacket 0) .data false).1

theorem live_discovery_frame_probes :
    ([.discovery (discoveryPacket 5) false, .timer 0, .discovery (discoveryPacket 0) false].foldl
        (fun s e => (s.next (idle .auto) e).1) streamingSession).app = streamingSession.app ∧
      ([.discovery (discoveryPacket 5) false, .timer 0,
          .discovery (discoveryPacket 0) false].foldl
        (fun s e => (s.next (idle .auto) e).1) streamingSession).data (idle .auto)
          (requestPacket 1) .data false =
        streamingSession.data (idle .auto) (requestPacket 1) .data false := by
  have hmode : (idle .auto).mode ≠ .modulo := by decide
  have hes : ∀ e ∈ ([.discovery (discoveryPacket 5) false, .timer 0,
      .discovery (discoveryPacket 0) false] : List CoreEvent), e.isBackground := by decide
  obtain ⟨happ, -, -, -, -, hdata⟩ :=
    live_discovery_frame (s := streamingSession) hmode (by decide) hes
  exact ⟨happ, hdata (requestPacket 1) .data false (by decide) (by decide) (by decide)⟩

end Ps2Servers.Udpfs
