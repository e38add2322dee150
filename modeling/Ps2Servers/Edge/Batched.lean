import Ps2Servers.Edge.Transfer

/-!
# Batched and unbatched replies

Whatever the batch writer returns, the packets of a call are handed over once and in order. So
the two paths can differ only in what they keep. The batched path drops from its buffer what the
last acknowledgement covers when it marks a window as sent; of a window that reaches more than
2048 numbers past the last acknowledgement it drops packets that nobody has acknowledged.
-/

namespace Ps2Servers.Edge.Transfer

open Udpfs

/-! ## What is handed over -/

/-- What reaches the network of packets that are sent. -/
def Config.handing (cfg : Config) (packets : List Bytes) : List Bytes :=
  if cfg.connected then packets else []

section Handing

variable (cfg : Config) (net : Network)

theorem foldl_sendOn (packets : List Bytes) (l : Link) :
    packets.foldl (sendOn cfg) l = { l with handed := l.handed ++ cfg.handing packets } := by
  induction packets generalizing l with
  | nil => simp [Config.handing]
  | cons p rest ih =>
      rw [List.foldl_cons, ih]
      unfold sendOn Config.handing
      split
      · simp
      · simp

/-- Each packet is handed over once, in order, whatever the batch writer takes of them. -/
theorem sendPackets_eq (l : Link) (packets : List Bytes) : ∃ calls, sendPackets cfg net l packets =
    { l with handed := l.handed ++ cfg.handing packets, calls := calls } := by
  unfold sendPackets
  by_cases hnil : packets.length = 0
  · rw [List.length_eq_zero_iff] at hnil
    subst hnil
    exact ⟨l.calls, by simp [Config.handing]⟩
  rw [if_neg hnil]
  split
  · exact ⟨l.calls, foldl_sendOn cfg packets l⟩
  by_cases hconnected : cfg.connected
  · rw [if_neg (by simp [hconnected])]
    dsimp only
    generalize (net.results l.calls).accepted packets = n
    have hrest : (packets.drop n).foldl (sendOn cfg)
        { l with handed := l.handed ++ packets.take n, calls := l.calls + 1 } =
          { l with handed := l.handed ++ cfg.handing packets, calls := l.calls + 1 } := by
      rw [foldl_sendOn]
      simp [Config.handing, hconnected]
    refine ⟨l.calls + 1, ?_⟩
    split
    · exact hrest
    split
    · exact hrest
    · rename_i _ hall
      have hle : packets.length ≤ n := by
        by_contra hlt
        exact hall (Or.inr (by omega))
      simp [Config.handing, hconnected, List.take_of_length_le hle]
  · rw [if_pos (by simpa using hconnected)]
    exact ⟨l.calls, by simp [Config.handing, hconnected]⟩

theorem send_tx (l : Link) (p : Bytes) : (send cfg l p).tx = l.tx.push p (!cfg.batching) := by
  unfold send
  split
  · rename_i h
    simp [h]
  · rename_i h
    simp [h]

theorem retransmit_eq (l : Link) (start : UInt16) : ∃ calls handed, retransmit cfg net l start =
    { l with handed := handed, calls := calls } := by
  obtain ⟨calls, h⟩ := sendPackets_eq cfg net l
    ((l.tx.txBuffer.filter fun p => p.sent && ((p.sequence - start) &&& SequenceMask) < 2048).map
      BufferedPacket.bytes)
  exact ⟨calls, _, h⟩

end Handing

/-! ## Two servers -/

/-- The same but for the calls of the batch writer. -/
def Like (l l' : Link) : Prop := ∃ calls, l = { l' with calls := calls }

theorem Like.refl (l : Link) : Like l l := ⟨l.calls, rfl⟩

section Alike

variable {cfg cfg' : Config} (net : Network) {l l' : Link}

theorem Like.sendPackets (hconnected : cfg.connected = cfg'.connected) (h : Like l l')
    (packets : List Bytes) :
    Like (Transfer.sendPackets cfg net l packets) (Transfer.sendPackets cfg' net l' packets) := by
  obtain ⟨calls, rfl⟩ := h
  obtain ⟨mine, hmine⟩ := sendPackets_eq cfg net { l' with calls := calls } packets
  obtain ⟨theirs, htheirs⟩ := sendPackets_eq cfg' net l' packets
  rw [hmine, htheirs]
  refine ⟨mine, ?_⟩
  simp only [Config.handing, hconnected]

theorem Like.retransmit (hconnected : cfg.connected = cfg'.connected) (h : Like l l')
    (start : UInt16) :
    Like (Transfer.retransmit cfg net l start) (Transfer.retransmit cfg' net l' start) := by
  have htx : l.tx = l'.tx := by
    obtain ⟨calls, rfl⟩ := h
    rfl
  unfold Transfer.retransmit
  rw [htx]
  exact h.sendPackets net hconnected _

theorem Like.handleControl (hconnected : cfg.connected = cfg'.connected) (h : Like l l')
    (ack : Bool) (number : UInt16) :
    Like (Transfer.handleControl cfg net l ack number)
      (Transfer.handleControl cfg' net l' ack number) := by
  unfold Transfer.handleControl
  split
  · obtain ⟨calls, rfl⟩ := h
    exact ⟨calls, rfl⟩
  · exact h.retransmit net hconnected number

theorem Like.await (hconnected : cfg.connected = cfg'.connected) (target : UInt16)
    (events : List WaitEvent) (activity : Bool) (h : Like l l') :
    (Transfer.await cfg net target events activity l).1 =
        (Transfer.await cfg' net target events activity l').1 ∧
      (Transfer.await cfg net target events activity l).2.1 =
        (Transfer.await cfg' net target events activity l').2.1 ∧
      Like (Transfer.await cfg net target events activity l).2.2
        (Transfer.await cfg' net target events activity l').2.2 := by
  induction events generalizing activity l l' with
  | nil => exact ⟨rfl, rfl, h⟩
  | cons e rest ih =>
      cases e with
      | control ack number => exact ih activity (h.handleControl net hconnected ack _)
      | wake =>
          have htx : l.tx = l'.tx := by
            obtain ⟨calls, rfl⟩ := h
            rfl
          simp only [Transfer.await, htx]
          split
          · exact ⟨rfl, rfl, h⟩
          · exact ih true h

theorem Like.waitForAck (hconnected : cfg.connected = cfg'.connected) (target : UInt16)
    (events : List WaitEvent) (h : Like l l') :
    (Transfer.waitForAck cfg net target events l).1 =
        (Transfer.waitForAck cfg' net target events l').1 ∧
      (Transfer.waitForAck cfg net target events l).2.1 =
        (Transfer.waitForAck cfg' net target events l').2.1 ∧
      Like (Transfer.waitForAck cfg net target events l).2.2
        (Transfer.waitForAck cfg' net target events l').2.2 := by
  have htx : l.tx = l'.tx := by
    obtain ⟨calls, rfl⟩ := h
    rfl
  unfold Transfer.waitForAck
  rw [htx]
  split
  · exact ⟨rfl, rfl, h⟩
  · exact h.await net hconnected target events false

theorem Like.confirmWindow (hconnected : cfg.connected = cfg'.connected)
    (hretries : cfg.maxWindowRetries = cfg'.maxWindowRetries) (target : UInt16)
    (waits : List (List WaitEvent)) (quiet : Nat) (h : Like l l') :
    (Transfer.confirmWindow cfg net target waits quiet l).1 =
        (Transfer.confirmWindow cfg' net target waits quiet l').1 ∧
      Like (Transfer.confirmWindow cfg net target waits quiet l).2
        (Transfer.confirmWindow cfg' net target waits quiet l').2 := by
  induction waits generalizing quiet l l' with
  | nil => exact ⟨rfl, h⟩
  | cons events rest ih =>
      obtain ⟨hcovered, hactivity, hlike⟩ := h.waitForAck net hconnected target events
      have htx : l.tx = l'.tx := by
        obtain ⟨calls, rfl⟩ := h
        rfl
      unfold Transfer.confirmWindow
      revert hcovered hactivity hlike
      generalize Transfer.waitForAck cfg net target events l = mine
      generalize Transfer.waitForAck cfg' net target events l' = theirs
      obtain ⟨covered, activity, m⟩ := mine
      obtain ⟨covered', activity', m'⟩ := theirs
      intro hcovered hactivity hlike
      dsimp only at hcovered hactivity hlike
      subst hcovered hactivity
      have hmtx : m.tx = m'.tx := by
        obtain ⟨calls, rfl⟩ := hlike
        rfl
      dsimp only
      rw [htx, hmtx, hretries]
      split
      · exact ⟨rfl, hlike⟩
      split
      · exact ⟨rfl, hlike⟩
      · rename_i p _ _
        have hresent := hlike.retransmit net hconnected p.sequence
        split
        · exact ⟨rfl, hresent⟩
        · exact ih _ hresent

theorem Like.confirm (hconnected : cfg.connected = cfg'.connected)
    (hretries : cfg.maxWindowRetries = cfg'.maxWindowRetries) (target : UInt16) (h : Like l l') :
    (Transfer.confirm cfg net target l).1 = (Transfer.confirm cfg' net target l').1 ∧
      Like (Transfer.confirm cfg net target l).2 (Transfer.confirm cfg' net target l').2 := by
  obtain ⟨calls, rfl⟩ := h
  exact Like.confirmWindow net hconnected hretries target _ 0 ⟨calls, rfl⟩

end Alike

/-! ## Numbers -/

/-- How far a number is behind `base` on the ring. -/
def offset (base number : UInt16) : Nat := ringSub number.toNat base.toNat

/-- How many packets were numbered after the one acknowledged last. -/
def outstanding (s : Transmit) : Nat := ringSub s.transmitSequence.toNat (s.transmitAcked.toNat + 1)

/-- The numbers of a session have twelve bits. -/
structure Masked (s : Transmit) : Prop where
  sequence : s.transmitSequence.toNat < 0x1000
  acked : s.transmitAcked.toNat < 0x1000

theorem nextSeq_lt (seq : UInt16) : (nextSeq seq).toNat < 0x1000 := by
  rw [toNat_nextSeq]
  exact Nat.mod_lt _ (by decide)

theorem previous_nextSeq {seq : UInt16} (h : seq.toNat < 0x1000) : previous (nextSeq seq) = seq := by
  apply UInt16.toNat_inj.mp
  rw [toNat_previous, toNat_nextSeq]
  unfold ringSub
  omega

theorem outstanding_of_previous {s : Transmit} (h : Masked s)
    (hacked : previous s.transmitSequence = s.transmitAcked) : outstanding s = 0 := by
  have hsequence := h.sequence
  unfold outstanding
  rw [← hacked, toNat_previous]
  unfold ringSub
  omega

theorem ofNat_lt (number : Fin 0x1000) : (UInt16.ofNat number).toNat < 0x1000 := by
  rw [UInt16.toNat_ofNat_of_lt' (lt_trans number.isLt (by decide))]
  exact number.isLt

theorem Masked.next {s : Transmit} (h : Masked s) (e : TransmitEvent) : Masked (s.next e) := by
  cases e with
  | ack number =>
      simp only [Transmit.next, Transmit.acknowledge]
      split
      · exact ⟨h.sequence, ofNat_lt number⟩
      · exact h
  | nack number => exact h
  | send bytes => exact ⟨nextSeq_lt _, h.acked⟩
  | queue bytes => exact ⟨nextSeq_lt _, h.acked⟩
  | flush count => exact ⟨h.sequence, h.acked⟩
  | clear => exact ⟨h.sequence, h.acked⟩
  | inform => exact ⟨nextSeq_lt _, h.sequence⟩
  | reset => exact (⟨by decide, by decide⟩ : Masked Transmit.new)

/-- Every session is in such a state. -/
theorem masked_run (es : List TransmitEvent) : Masked (es.foldl Transmit.next Transmit.new) := by
  have hrun : ∀ s, Masked s → Masked (es.foldl Transmit.next s) := by
    induction es with
    | nil => exact fun s h => h
    | cons e rest ih => exact fun s h => ih _ (h.next e)
  exact hrun _ ⟨by decide, by decide⟩

/-! ## A window on its way -/

/-- The packets of a window: they were sent after `base` was acknowledged, and the last of them,
`target`, is at most 2048 numbers past it. -/
structure Sendable (base target : UInt16) (packets : List BufferedPacket) : Prop where
  base_lt : base.toNat < 0x1000
  target_lt : target.toNat < 0x1000
  near : offset base target ≤ 2048
  last : ∃ p ∈ packets, p.sequence = target
  sent : ∀ p ∈ packets, p.sent = true
  number_lt : ∀ p ∈ packets, p.sequence.toNat < 0x1000
  after : ∀ p ∈ packets, 0 < offset base p.sequence
  upto : ∀ p ∈ packets, offset base p.sequence ≤ offset base target

/-- A session that has sent the window and keeps what is not acknowledged. -/
structure InFlight (base target : UInt16) (packets : List BufferedPacket) (s : Transmit) : Prop
    where
  sequence_lt : s.transmitSequence.toNat < 0x1000
  sequence : previous s.transmitSequence = target
  acked_lt : s.transmitAcked.toNat < 0x1000
  acked_le : offset base s.transmitAcked ≤ offset base target
  buffer : s.txBuffer =
    packets.filter fun p => offset base s.transmitAcked < offset base p.sequence

section Window

variable {base target : UInt16} {packets : List BufferedPacket} {s : Transmit}

theorem offset_inj {a b : UInt16} (ha : a.toNat < 0x1000) (hb : b.toNat < 0x1000)
    (h : offset base a = offset base b) : a = b := by
  apply UInt16.toNat_inj.mp
  unfold offset ringSub at h
  omega

theorem Sendable.retains_eq (h : Sendable base target packets) {ack : UInt16}
    (hack : ack.toNat < 0x1000) (hle : offset base ack ≤ offset base target) {p : BufferedPacket}
    (hp : p ∈ packets) : retains ack p = decide (offset base ack < offset base p.sequence) := by
  have hbase := h.base_lt
  have hnear := h.near
  have hnumber := h.number_lt p hp
  have hafter := h.after p hp
  have hupto := h.upto p hp
  rw [retains_iff, h.sent p hp, Bool.not_true, Bool.false_or]
  unfold keeps
  apply decide_eq_decide.mpr
  unfold offset at *
  unfold ringSub at *
  omega

theorem Sendable.pruneAcked_eq (h : Sendable base target packets) {ack : UInt16}
    (hack : ack.toNat < 0x1000) (hle : offset base ack ≤ offset base target) :
    pruneAcked packets ack = packets.filter fun p => offset base ack < offset base p.sequence :=
  List.filter_congr fun _ hp => h.retains_eq hack hle hp

theorem InFlight.accepts_iff (h : InFlight base target packets s)
    (hs : Sendable base target packets) {ack : UInt16} (hack : ack.toNat < 0x1000) :
    s.accepts ack ↔
      offset base s.transmitAcked ≤ offset base ack ∧ offset base ack ≤ offset base target := by
  have hbase := hs.base_lt
  have hnear := hs.near
  have hacked := h.acked_lt
  have hle := h.acked_le
  have htarget := hs.target_lt
  unfold Transmit.accepts
  rw [h.sequence, between_iff hacked hack htarget]
  unfold offset at *
  unfold ringSub at *
  omega

/-- An acknowledgement drops the packets it covers and no other. -/
theorem InFlight.acknowledge (h : InFlight base target packets s)
    (hs : Sendable base target packets) {ack : UInt16} (hack : ack.toNat < 0x1000) :
    InFlight base target packets (s.acknowledge ack) := by
  unfold Transmit.acknowledge
  split
  · rename_i haccepts
    obtain ⟨hforward, hle⟩ := (h.accepts_iff hs hack).mp haccepts
    constructor
    · exact h.sequence_lt
    · exact h.sequence
    · exact hack
    · exact hle
    · dsimp only
      rw [h.buffer]
      calc pruneAcked (packets.filter fun p =>
              offset base s.transmitAcked < offset base p.sequence) ack
          = (pruneAcked packets ack).filter fun p =>
              offset base s.transmitAcked < offset base p.sequence := List.filter_comm ..
        _ = (packets.filter fun p => offset base ack < offset base p.sequence).filter fun p =>
              offset base s.transmitAcked < offset base p.sequence := by
            rw [hs.pruneAcked_eq hack hle]
        _ = packets.filter fun p => offset base ack < offset base p.sequence := by
            rw [List.filter_filter]
            apply List.filter_congr
            intro p _
            simp only [Bool.and_eq_right_iff_imp, decide_eq_true_eq]
            omega
  · exact h

/-- A window that is covered, or of which nothing is kept, is acknowledged to its last packet. -/
theorem InFlight.done (h : InFlight base target packets s) (hs : Sendable base target packets)
    (hdone : ackCovers s.transmitAcked target ∨ s.txBuffer = []) :
    s.transmitAcked = target ∧ s.txBuffer = [] := by
  have hreached : offset base s.transmitAcked = offset base target := by
    have hle := h.acked_le
    rcases hdone with hcovers | hempty
    · have hbase := hs.base_lt
      have hnear := hs.near
      have hacked := h.acked_lt
      have htarget := hs.target_lt
      have hdistance : ((s.transmitAcked - target) &&& SequenceMask).toNat =
          ringSub s.transmitAcked.toNat target.toNat := by
        unfold ringSub
        rw [toNat_and_mask, UInt16.toNat_sub]
        omega
      have hlt : ringSub s.transmitAcked.toNat target.toNat < 2048 := by
        rw [← hdistance]
        simpa [ackCovers, UInt16.lt_iff_toNat_lt] using hcovers
      unfold offset at *
      unfold ringSub at *
      omega
    · obtain ⟨p, hp, hlast⟩ := hs.last
      rw [h.buffer, List.filter_eq_nil_iff] at hempty
      have hnot := hempty p hp
      rw [hlast] at hnot
      simp only [decide_eq_true_eq] at hnot
      omega
  constructor
  · exact offset_inj h.acked_lt hs.target_lt hreached
  · rw [h.buffer, List.filter_eq_nil_iff]
    intro p hp
    have hupto := hs.upto p hp
    simp only [decide_eq_true_eq]
    omega

end Window

/-! ## Waiting -/

section Waiting

variable {cfg : Config} (net : Network) {base target : UInt16} {packets : List BufferedPacket}
  {l : Link}

theorem retransmit_tx (l : Link) (start : UInt16) : (retransmit cfg net l start).tx = l.tx := by
  obtain ⟨calls, handed, h⟩ := retransmit_eq cfg net l start
  rw [h]

theorem InFlight.handleControl (h : InFlight base target packets l.tx)
    (hs : Sendable base target packets) (ack : Bool) (number : Fin 0x1000) :
    InFlight base target packets
      (Transfer.handleControl cfg net l ack (UInt16.ofNat number)).tx := by
  unfold Transfer.handleControl
  split
  · exact h.acknowledge hs (ofNat_lt number)
  · rw [retransmit_tx]
    exact h

theorem InFlight.await (h : InFlight base target packets l.tx) (hs : Sendable base target packets)
    (events : List WaitEvent) (activity : Bool) :
    InFlight base target packets (Transfer.await cfg net target events activity l).2.2.tx ∧
      ((Transfer.await cfg net target events activity l).1 = true →
        ackCovers (Transfer.await cfg net target events activity l).2.2.tx.transmitAcked
          target) := by
  induction events generalizing activity l with
  | nil => exact ⟨h, fun hcovered => by cases hcovered⟩
  | cons e rest ih =>
      cases e with
      | control ack number => exact ih (h.handleControl net hs ack number) activity
      | wake =>
          simp only [Transfer.await]
          split
          · rename_i hcovers
            exact ⟨h, fun _ => hcovers⟩
          · exact ih h true

theorem InFlight.waitForAck (h : InFlight base target packets l.tx)
    (hs : Sendable base target packets) (events : List WaitEvent) :
    InFlight base target packets (Transfer.waitForAck cfg net target events l).2.2.tx ∧
      ((Transfer.waitForAck cfg net target events l).1 = true →
        ackCovers (Transfer.waitForAck cfg net target events l).2.2.tx.transmitAcked target) := by
  unfold Transfer.waitForAck
  split
  · rename_i hcovers
    exact ⟨h, fun _ => hcovers⟩
  · exact h.await net hs events false

/-- A window that is confirmed is acknowledged to its last packet. -/
theorem InFlight.confirmWindow (h : InFlight base target packets l.tx)
    (hs : Sendable base target packets) (waits : List (List WaitEvent)) (quiet : Nat)
    (hconfirmed : (Transfer.confirmWindow cfg net target waits quiet l).1 = some true) :
    InFlight base target packets (Transfer.confirmWindow cfg net target waits quiet l).2.tx ∧
      (Transfer.confirmWindow cfg net target waits quiet l).2.tx.transmitAcked = target ∧
      (Transfer.confirmWindow cfg net target waits quiet l).2.tx.txBuffer = [] := by
  induction waits generalizing quiet l with
  | nil => cases hconfirmed
  | cons events rest ih =>
      have hwaited := @InFlight.waitForAck cfg net base target packets l h hs events
      obtain ⟨hflight, hcovers⟩ := hwaited
      unfold Transfer.confirmWindow at hconfirmed ⊢
      revert hflight hcovers hconfirmed
      generalize Transfer.waitForAck cfg net target events l = waited
      obtain ⟨covered, activity, m⟩ := waited
      intro hflight hcovers hconfirmed
      dsimp only at hflight hcovers hconfirmed ⊢
      by_cases hcovered : covered = true
      · simp only [if_pos hcovered]
        exact ⟨hflight, hflight.done hs (Or.inl (hcovers hcovered))⟩
      simp only [if_neg hcovered] at hconfirmed ⊢
      cases hbuffer : m.tx.txBuffer with
      | nil => exact ⟨hflight, hflight.done hs (Or.inr hbuffer)⟩
      | cons p held =>
          simp only [hbuffer] at hconfirmed ⊢
          split at hconfirmed
          · cases hconfirmed
          · rename_i hretry
            rw [if_neg hretry]
            apply ih
            · rw [retransmit_tx]
              exact hflight
            · exact hconfirmed

theorem InFlight.confirm (h : InFlight base target packets l.tx)
    (hs : Sendable base target packets)
    (hconfirmed : (Transfer.confirm cfg net target l).1 = some true) :
    InFlight base target packets (Transfer.confirm cfg net target l).2.tx ∧
      (Transfer.confirm cfg net target l).2.tx.transmitAcked = target ∧
      (Transfer.confirm cfg net target l).2.tx.txBuffer = [] := by
  apply InFlight.confirmWindow net _ hs _ 0 hconfirmed
  exact h

end Waiting

/-! ## A window that fills -/

def Config.batched (cfg : Config) : Config := { cfg with udpBatch := true }

def Config.unbatched (cfg : Config) : Config := { cfg with udpBatch := false }

def unsent (p : BufferedPacket) : BufferedPacket := { p with sent := false }

/-- Both servers have numbered the same packets since the last window was confirmed, with `start`
packets outstanding then. The one has them pending, the other has sent them. -/
structure Filling (cfg : Config) (start : Nat) (packets : List BufferedPacket)
    (pending : List Bytes) (batched unbatched : Link) : Prop where
  masked : Masked unbatched.tx
  buffer : unbatched.tx.txBuffer = packets
  sent : ∀ p ∈ packets, p.sent = true
  number_lt : ∀ p ∈ packets, p.sequence.toNat < 0x1000
  numbers : packets.map (fun p => ringSub p.sequence.toNat (unbatched.tx.transmitAcked.toNat + 1)) =
    (List.range packets.length).map fun i => (start + i) % 0x1000
  outstanding : outstanding unbatched.tx = (start + packets.length) % 0x1000
  queued : pending = packets.map BufferedPacket.bytes
  same : ∃ handed calls, unbatched.handed = handed ++ cfg.handing pending ∧
    batched = ⟨{ unbatched.tx with txBuffer := packets.map unsent }, unbatched.expectedReceive,
      handed, calls, unbatched.points⟩

section Filling

variable {cfg : Config} (net : Network) {start : Nat} {packets : List BufferedPacket}
  {pending : List Bytes} {batched unbatched : Link}

/-- A window begins. -/
theorem filling_nil (hmasked : Masked unbatched.tx) (hbuffer : unbatched.tx.txBuffer = [])
    (hlike : Like batched unbatched) :
    Filling cfg (Transfer.outstanding unbatched.tx) [] [] batched unbatched := by
  have hlt : Transfer.outstanding unbatched.tx < 0x1000 := by
    unfold Transfer.outstanding ringSub
    omega
  obtain ⟨calls, rfl⟩ := hlike
  constructor
  · exact hmasked
  · exact hbuffer
  · exact fun p hp => absurd hp List.not_mem_nil
  · exact fun p hp => absurd hp List.not_mem_nil
  · rfl
  · exact (Nat.mod_eq_of_lt hlt).symm
  · rfl
  · refine ⟨unbatched.handed, calls, by simp [Config.handing], ?_⟩
    obtain ⟨⟨sequence, acked, buffer⟩, expected, handed, calls', points⟩ := unbatched
    obtain rfl : buffer = [] := hbuffer
    rfl

theorem handing_append (a b : List Bytes) :
    cfg.handing (a ++ b) = cfg.handing a ++ cfg.handing b := by
  unfold Config.handing
  split
  · rfl
  · rfl

/-- The next packet of the window. -/
theorem Filling.send (h : Filling cfg start packets pending batched unbatched)
    (hdelay : cfg.txDelay = 0) (bytes : Bytes) :
    Filling cfg start (packets ++ [⟨unbatched.tx.transmitSequence, bytes, true⟩])
      (pending ++ [bytes]) (Transfer.send cfg.batched batched bytes)
      (Transfer.send cfg.unbatched unbatched bytes) := by
  have hsequence := h.masked.sequence
  have hacked := h.masked.acked
  have hout := h.outstanding
  obtain ⟨handed, calls, hhanded, hbatched⟩ := h.same
  have hsend : Transfer.send cfg.unbatched unbatched bytes =
      { unbatched with
        tx := unbatched.tx.push bytes true
        handed := unbatched.handed ++ cfg.handing [bytes] } := by
    unfold Transfer.send
    rw [if_neg (by simp [Config.batching, Config.unbatched])]
    unfold sendOn Config.handing
    split
    · rw [if_pos (by assumption)]
    · rw [if_neg (by assumption), List.append_nil]
  have hqueue : Transfer.send cfg.batched batched bytes =
      { batched with tx := batched.tx.push bytes false } := by
    unfold Transfer.send
    rw [if_pos (by simp [Config.batching, Config.batched, hdelay])]
  rw [hsend, hqueue]
  constructor
  · exact ⟨nextSeq_lt _, hacked⟩
  · simp only [Transmit.push, h.buffer]
  · intro p hp
    rcases List.mem_append.mp hp with hold | hnew
    · exact h.sent p hold
    · rw [List.mem_singleton.mp hnew]
  · intro p hp
    rcases List.mem_append.mp hp with hold | hnew
    · exact h.number_lt p hold
    · rw [List.mem_singleton.mp hnew]
      exact hsequence
  · simp only [Transmit.push, List.map_append, List.map_singleton, List.length_append,
      List.length_singleton, List.range_succ]
    rw [h.numbers, ← hout]
    rfl
  · unfold Transfer.outstanding ringSub at hout ⊢
    simp only [Transmit.push, toNat_nextSeq, List.length_append, List.length_singleton]
    omega
  · rw [List.map_append, ← h.queued]
    rfl
  · refine ⟨handed, calls, ?_, ?_⟩
    · dsimp only
      rw [hhanded, handing_append, List.append_assoc]
    · rw [hbatched]
      simp [Transmit.push, unsent]

/-- The window fits behind the last acknowledgement. -/
theorem Filling.sendable (h : Filling cfg start packets pending batched unbatched)
    (hfits : start + packets.length ≤ 2048) {target : UInt16}
    (htarget : previous unbatched.tx.transmitSequence = target)
    (hlast : ∃ p ∈ packets, p.sequence = target) :
    Sendable unbatched.tx.transmitAcked target packets ∧
      InFlight unbatched.tx.transmitAcked target packets unbatched.tx := by
  have hsequence := h.masked.sequence
  have hacked := h.masked.acked
  have hout := h.outstanding
  have hnumber : target.toNat = ringSub unbatched.tx.transmitSequence.toNat 1 := by
    rw [← htarget, toNat_previous]
  have hend : offset unbatched.tx.transmitAcked target = start + packets.length := by
    unfold Transfer.outstanding at hout
    unfold offset
    unfold ringSub at *
    omega
  have hoffset : ∀ p ∈ packets, 0 < offset unbatched.tx.transmitAcked p.sequence ∧
      offset unbatched.tx.transmitAcked p.sequence ≤ start + packets.length := by
    intro p hp
    have hmem := List.mem_map_of_mem
      (f := fun p => ringSub p.sequence.toNat (unbatched.tx.transmitAcked.toNat + 1)) hp
    rw [h.numbers] at hmem
    obtain ⟨i, hi, heq⟩ := List.mem_map.mp hmem
    have hlt := List.mem_range.mp hi
    have hp := h.number_lt p hp
    unfold offset
    unfold ringSub at *
    omega
  have hzero : offset unbatched.tx.transmitAcked unbatched.tx.transmitAcked = 0 := by
    unfold offset ringSub
    omega
  constructor
  · constructor
    · exact hacked
    · rw [hnumber]
      unfold ringSub
      omega
    · rw [hend]
      exact hfits
    · exact hlast
    · exact h.sent
    · exact h.number_lt
    · exact fun p hp => (hoffset p hp).1
    · intro p hp
      rw [hend]
      exact (hoffset p hp).2
  · constructor
    · exact hsequence
    · exact htarget
    · exact hacked
    · rw [hzero]
      exact Nat.zero_le _
    · rw [h.buffer, hzero]
      symm
      rw [List.filter_eq_self]
      intro p hp
      exact decide_eq_true (hoffset p hp).1

/-- What was not sent stays, whatever is acknowledged. -/
theorem acknowledge_unsent (s : Transmit) (packets : List BufferedPacket) (ack : UInt16) :
    ({ s with txBuffer := packets.map unsent } : Transmit).acknowledge ack =
      { s.acknowledge ack with txBuffer := packets.map unsent } := by
  have hkept : pruneAcked (packets.map unsent) ack = packets.map unsent := by
    apply List.filter_eq_self.mpr
    intro p hp
    obtain ⟨q, _, rfl⟩ := List.mem_map.mp hp
    rfl
  unfold Transmit.acknowledge
  by_cases haccepts : s.accepts ack
  · rw [if_pos haccepts, if_pos (by exact haccepts)]
    simp only [hkept]
  · rw [if_neg haccepts, if_neg (by exact haccepts)]

theorem acknowledges_unsent (s : Transmit) (packets : List BufferedPacket)
    (numbers : List (Fin 0x1000)) :
    acknowledges { s with txBuffer := packets.map unsent } numbers =
      { acknowledges s numbers with txBuffer := packets.map unsent } := by
  induction numbers generalizing s with
  | nil => rfl
  | cons number rest ih =>
      simp only [acknowledges, acknowledge_unsent]
      exact ih _

theorem InFlight.acknowledges {base target : UInt16} {s : Transmit}
    (h : InFlight base target packets s) (hs : Sendable base target packets)
    (numbers : List (Fin 0x1000)) :
    InFlight base target packets (Transfer.acknowledges s numbers) := by
  induction numbers generalizing s with
  | nil => exact h
  | cons number rest ih => exact ih (h.acknowledge hs (ofNat_lt number))

theorem markSent_unsent (hsent : ∀ p ∈ packets, p.sent = true) :
    markSent BufferedPacket.sent (fun p => { p with sent := true }) packets.length
      (packets.map unsent) = packets := by
  induction packets with
  | nil => rfl
  | cons p rest ih =>
      have hp := hsent p List.mem_cons_self
      have hmark : ({ unsent p with sent := true } : BufferedPacket) = p := by
        obtain ⟨sequence, bytes, sent⟩ := p
        obtain rfl : sent = true := hp
        rfl
      rw [List.map_cons, List.length_cons, markSent, if_neg (by simp [unsent]), hmark,
        ih fun q hq => hsent q (List.mem_cons_of_mem _ hq)]

/-- A window that fits is the same on both servers when it is confirmed. -/
theorem Filling.flush (h : Filling cfg start packets pending batched unbatched)
    (hfits : start + packets.length ≤ 2048) {target : UInt16}
    (htarget : previous unbatched.tx.transmitSequence = target)
    (hlast : ∃ p ∈ packets, p.sequence = target) :
    Like (Transfer.flush cfg.batched net pending batched)
        (Transfer.flush cfg.unbatched net [] unbatched) ∧
      InFlight unbatched.tx.transmitAcked target packets
        (Transfer.flush cfg.unbatched net [] unbatched).tx := by
  obtain ⟨hsendable, hflight⟩ := h.sendable hfits htarget hlast
  obtain ⟨handed, calls, hhanded, hbatched⟩ := h.same
  have hlength : pending.length = packets.length := by
    rw [h.queued, List.length_map]
  have hne : pending.length ≠ 0 := by
    obtain ⟨p, hp, _⟩ := hlast
    have := List.length_pos_of_mem hp
    omega
  have harrived := hflight.acknowledges hsendable (net.during unbatched.points.length)
  obtain ⟨calls', hsent⟩ := sendPackets_eq cfg.batched net batched pending
  have hbatch : Transfer.flush cfg.batched net pending batched =
      { Transfer.flush cfg.unbatched net [] unbatched with calls := calls' } := by
    have hhanding : handed ++ cfg.batched.handing pending = unbatched.handed := hhanded.symm
    have hbuffer := harrived.buffer
    rw [← hsendable.pruneAcked_eq harrived.acked_lt harrived.acked_le] at hbuffer
    unfold Transfer.flush
    rw [if_neg hne, if_pos (by rfl), hsent, hbatched]
    unfold Transfer.arrive
    dsimp only
    rw [hhanding, acknowledges_unsent, hlength]
    dsimp only
    rw [markSent_unsent h.sent, ← hbuffer]
  exact ⟨⟨calls', hbatch⟩, harrived⟩

/-- A window that fits is confirmed on both servers, or on none. The next one begins with nothing
outstanding. -/
theorem Filling.confirm (h : Filling cfg start packets pending batched unbatched)
    (hfits : start + packets.length ≤ 2048) {target : UInt16}
    (htarget : previous unbatched.tx.transmitSequence = target)
    (hlast : ∃ p ∈ packets, p.sequence = target) :
    (Transfer.confirm cfg.batched net target (Transfer.flush cfg.batched net pending batched)).1 =
        (Transfer.confirm cfg.unbatched net target
          (Transfer.flush cfg.unbatched net [] unbatched)).1 ∧
      Like
        (Transfer.confirm cfg.batched net target (Transfer.flush cfg.batched net pending batched)).2
        (Transfer.confirm cfg.unbatched net target
          (Transfer.flush cfg.unbatched net [] unbatched)).2 ∧
      ((Transfer.confirm cfg.unbatched net target
          (Transfer.flush cfg.unbatched net [] unbatched)).1 = some true →
        Filling cfg 0 [] []
          (Transfer.confirm cfg.batched net target
            (Transfer.flush cfg.batched net pending batched)).2
          (Transfer.confirm cfg.unbatched net target
            (Transfer.flush cfg.unbatched net [] unbatched)).2) := by
  obtain ⟨hsendable, _⟩ := h.sendable hfits htarget hlast
  obtain ⟨hlike, hflight⟩ := h.flush net hfits htarget hlast
  obtain ⟨hresult, hafter⟩ :=
    @Like.confirm cfg.batched cfg.unbatched net _ _ rfl rfl target hlike
  refine ⟨hresult, hafter, fun hconfirmed => ?_⟩
  obtain ⟨hdone, hacked, hbuffer⟩ := hflight.confirm net hsendable hconfirmed
  have hmasked := (⟨hdone.sequence_lt, hdone.acked_lt⟩ : Masked _)
  rw [← outstanding_of_previous hmasked (hdone.sequence.trans hacked.symm)]
  exact filling_nil hmasked hbuffer hafter

/-- The loop of `sendTransferPackets` behind a packet that was numbered. -/
def sendRest (cfg : Config) (net : Network) (hdrBytes data : Bytes) (windowPackets : Nat)
    (pending : List Bytes) (sequence : UInt16) (l : Link) : Option Bool × Link :=
  if (later hdrBytes data).length = 0 then
    Transfer.confirm cfg net sequence (Transfer.flush cfg net pending l)
  else if windowSize ≤ windowPackets then
    match Transfer.confirm cfg net sequence (Transfer.flush cfg net pending l) with
    | (some true, l) => sendLoop cfg net [] (later hdrBytes data) 0 [] l
    | (result, l) => (result, l)
  else sendLoop cfg net [] (later hdrBytes data) windowPackets pending l

theorem sendLoop_eq (cfg : Config) (net : Network) {hdrBytes : Bytes}
    (hroom : hdrBytes.length < MaxPayload) (data : Bytes) (windowPackets : Nat)
    (pending : List Bytes) (l : Link) :
    sendLoop cfg net hdrBytes data windowPackets pending l =
      sendRest cfg net hdrBytes data (windowPackets + 1)
        (if cfg.batching then pending ++ [Transfer.nextPacket l hdrBytes data] else pending)
        l.tx.transmitSequence (Transfer.send cfg l (Transfer.nextPacket l hdrBytes data)) := by
  rw [sendLoop, dif_pos hroom]
  rfl

/-- How many packets the reply is sent in. -/
def packetCount (hdrBytes data : Bytes) : Nat :=
  1 + (data.length - (MaxPayload - hdrBytes.length) + (MaxPayload - 1)) / MaxPayload

theorem packetCount_later {hdrBytes data : Bytes} (hlater : (later hdrBytes data).length ≠ 0) :
    packetCount hdrBytes data = 1 + packetCount [] (later hdrBytes data) := by
  have hlen : (later hdrBytes data).length = data.length - (MaxPayload - hdrBytes.length) :=
    List.length_drop
  simp only [packetCount, hlen, List.length_nil, MaxPayload] at hlater ⊢
  omega

theorem packetCount_last {hdrBytes data : Bytes} (hlater : (later hdrBytes data).length = 0) :
    packetCount hdrBytes data = 1 := by
  have hlen : (later hdrBytes data).length = data.length - (MaxPayload - hdrBytes.length) :=
    List.length_drop
  simp only [packetCount, hlen, MaxPayload] at hlater ⊢
  omega

theorem Filling.nextPacket (h : Filling cfg start packets pending batched unbatched)
    (hdrBytes data : Bytes) :
    Transfer.nextPacket batched hdrBytes data = Transfer.nextPacket unbatched hdrBytes data ∧
      batched.tx.transmitSequence = unbatched.tx.transmitSequence := by
  obtain ⟨handed, calls, _, rfl⟩ := h.same
  exact ⟨rfl, rfl⟩

/-- Both servers number and send the same packet. -/
theorem Filling.turn (hdelay : cfg.txDelay = 0)
    (h : Filling cfg start packets pending batched unbatched) (hdrBytes data : Bytes)
    (hroom : hdrBytes.length < MaxPayload) :
    ∃ packets' pending' batched' unbatched' target,
      Filling cfg start packets' pending' batched' unbatched' ∧
      packets'.length = packets.length + 1 ∧
      previous unbatched'.tx.transmitSequence = target ∧ (∃ p ∈ packets', p.sequence = target) ∧
      sendLoop cfg.batched net hdrBytes data packets.length pending batched =
        sendRest cfg.batched net hdrBytes data packets'.length pending' target batched' ∧
      sendLoop cfg.unbatched net hdrBytes data packets.length [] unbatched =
        sendRest cfg.unbatched net hdrBytes data packets'.length [] target unbatched' := by
  obtain ⟨hnext, hsequence⟩ := h.nextPacket hdrBytes data
  have hbatching : cfg.batched.batching = true := by
    simp [Config.batching, Config.batched, hdelay]
  have hunbatching : cfg.unbatched.batching = false := rfl
  have hlength (p : BufferedPacket) : (packets ++ [p]).length = packets.length + 1 := by
    rw [List.length_append, List.length_singleton]
  refine ⟨_, _, _, _, unbatched.tx.transmitSequence,
    h.send hdelay (Transfer.nextPacket unbatched hdrBytes data), hlength _, ?_, ?_, ?_, ?_⟩
  · rw [send_tx]
    exact previous_nextSeq h.masked.sequence
  · exact ⟨_, List.mem_append_right _ List.mem_cons_self, rfl⟩
  · rw [sendLoop_eq _ _ hroom, hnext, hsequence, hbatching, hlength]
    rfl
  · rw [sendLoop_eq _ _ hroom, hunbatching, hlength]
    rfl

/-- The loop of both servers, from a window that fills: they agree if every window fits behind the
last acknowledgement. After a window that is confirmed nothing is outstanding. -/
theorem Filling.sendLoop_agrees (hdelay : cfg.txDelay = 0) {hdrBytes data : Bytes}
    (hroom : hdrBytes.length < MaxPayload)
    (h : Filling cfg start packets pending batched unbatched)
    (hwindow : packets.length < windowSize)
    (hfits : start + min windowSize (packets.length + packetCount hdrBytes data) ≤ 2048) :
    (sendLoop cfg.batched net hdrBytes data packets.length pending batched).1 =
        (sendLoop cfg.unbatched net hdrBytes data packets.length [] unbatched).1 ∧
      Like (sendLoop cfg.batched net hdrBytes data packets.length pending batched).2
        (sendLoop cfg.unbatched net hdrBytes data packets.length [] unbatched).2 := by
  induction hsize : data.length using Nat.strong_induction_on
    generalizing hdrBytes data start packets pending batched unbatched with
  | _ size ih =>
  subst hsize
  obtain ⟨packets', pending', b, u, target, hfilling, hlength, htarget, hlast, hb, hu⟩ :=
    h.turn net hdelay hdrBytes data hroom
  rw [hb, hu]
  unfold sendRest
  by_cases hlater : (later hdrBytes data).length = 0
  · rw [packetCount_last hlater] at hfits
    obtain ⟨hresult, hlike, _⟩ := hfilling.confirm net (by omega) htarget hlast
    rw [if_pos hlater, if_pos hlater]
    exact ⟨hresult, hlike⟩
  rw [packetCount_later hlater] at hfits
  have hlt := length_later_lt hroom hlater
  rw [if_neg hlater, if_neg hlater]
  by_cases hfull : windowSize ≤ packets'.length
  · obtain ⟨hresult, hlike, hnew⟩ := hfilling.confirm net (by omega) htarget hlast
    rw [if_pos hfull, if_pos hfull]
    revert hresult hlike hnew
    generalize Transfer.confirm cfg.batched net _ _ = mine
    generalize Transfer.confirm cfg.unbatched net _ _ = theirs
    obtain ⟨result, m⟩ := mine
    obtain ⟨result', m'⟩ := theirs
    intro hresult hlike hnew
    dsimp only at hresult hlike hnew
    subst hresult
    rcases result with _ | _ | _
    · exact ⟨rfl, hlike⟩
    · exact ⟨rfl, hlike⟩
    · have hempty : 0 + min windowSize (0 + packetCount [] (later hdrBytes data)) ≤ 2048 := by
        have hsize : windowSize = 8 := rfl
        omega
      exact ih _ hlt (by decide) (hnew rfl) (by decide) hempty rfl
  · rw [if_neg hfull, if_neg hfull]
    exact ih _ hlt (by decide) hfilling (by omega) (by omega) rfl

/-- A console that is not heard of. -/
def silent : Network := ⟨fun _ => ⟨0, some .unsupported⟩, fun _ => [], fun _ => []⟩

/-- Without an acknowledgement the batched path keeps the window only if it fits. -/
theorem Filling.confirm_silent (h : Filling cfg start packets pending batched unbatched)
    (hstart : start < 0x1000) (hne : 0 < packets.length) (hwindow : packets.length ≤ windowSize)
    (target : UInt16)
    (hpoints : (Transfer.confirm cfg.batched silent target
        (Transfer.flush cfg.batched silent pending batched)).2.points =
      (Transfer.confirm cfg.unbatched silent target
        (Transfer.flush cfg.unbatched silent [] unbatched)).2.points) :
    start + packets.length ≤ 2048 := by
  obtain ⟨handed, calls, hhanded, hbatched⟩ := h.same
  have hlength : pending.length = packets.length := by
    rw [h.queued, List.length_map]
  obtain ⟨calls', hsent⟩ := sendPackets_eq cfg.batched silent batched pending
  have hflush : (Transfer.flush cfg.batched silent pending batched).tx.txBuffer =
      pruneAcked packets unbatched.tx.transmitAcked := by
    unfold Transfer.flush
    rw [if_neg (by omega), hsent, hbatched, hlength]
    dsimp only [arrive, silent, acknowledges]
    rw [markSent_unsent h.sent]
  have hsame : (Transfer.flush cfg.batched silent pending batched).points = unbatched.points := by
    unfold Transfer.flush
    rw [if_neg (by omega), hsent, hbatched]
    rfl
  have hkept : pruneAcked packets unbatched.tx.transmitAcked = packets := by
    change (Transfer.flush cfg.batched silent pending batched).points ++ [_] =
      unbatched.points ++ [_] at hpoints
    rw [hsame] at hpoints
    have hpoint := List.head_eq_of_cons_eq (List.append_cancel_left hpoints)
    have hbuffer := congrArg Point.txBuffer hpoint
    dsimp only at hbuffer
    rw [← hflush, hbuffer]
    exact h.buffer
  have hnear (i : Nat) (hi : i < packets.length) : (start + i) % 0x1000 < 2048 := by
    have hmem : (start + i) % 0x1000 ∈
        packets.map (fun p => ringSub p.sequence.toNat (unbatched.tx.transmitAcked.toNat + 1)) := by
      rw [h.numbers]
      exact List.mem_map.mpr ⟨i, List.mem_range.mpr hi, rfl⟩
    obtain ⟨p, hp, heq⟩ := List.mem_map.mp hmem
    have hretained := List.filter_eq_self.mp hkept p hp
    rw [retains_iff, h.sent p hp, Bool.not_true, Bool.false_or] at hretained
    unfold keeps at hretained
    rw [← heq]
    exact of_decide_eq_true hretained
  have hfirst := hnear 0 hne
  have hend := hnear (packets.length - 1) (by omega)
  have hsize : windowSize = 8 := rfl
  omega

theorem Filling.sendLoop_silent (hdelay : cfg.txDelay = 0) {hdrBytes data : Bytes}
    (hroom : hdrBytes.length < MaxPayload)
    (h : Filling cfg start packets pending batched unbatched) (hstart : start < 0x1000)
    (hwindow : packets.length < windowSize)
    (hpoints :
      (sendLoop cfg.batched silent hdrBytes data packets.length pending batched).2.points =
        (sendLoop cfg.unbatched silent hdrBytes data packets.length [] unbatched).2.points) :
    start + min windowSize (packets.length + packetCount hdrBytes data) ≤ 2048 := by
  induction hsize : data.length using Nat.strong_induction_on
    generalizing hdrBytes data packets pending batched unbatched with
  | _ size ih =>
  subst hsize
  obtain ⟨packets', pending', b, u, target, hfilling, hlength, htarget, hlast, hb, hu⟩ :=
    h.turn silent hdelay hdrBytes data hroom
  rw [hb, hu] at hpoints
  unfold sendRest at hpoints
  by_cases hlater : (later hdrBytes data).length = 0
  · rw [if_pos hlater, if_pos hlater] at hpoints
    have hfits := hfilling.confirm_silent hstart (by omega) (by omega) target hpoints
    rw [packetCount_last hlater]
    omega
  rw [if_neg hlater, if_neg hlater] at hpoints
  rw [packetCount_later hlater]
  by_cases hfull : windowSize ≤ packets'.length
  · rw [if_pos hfull, if_pos hfull] at hpoints
    have hfits := hfilling.confirm_silent hstart (by omega) (by omega) target hpoints
    omega
  · rw [if_neg hfull, if_neg hfull] at hpoints
    have hfits := ih _ (length_later_lt hroom hlater) (by decide) hfilling (by omega) hpoints rfl
    omega

end Filling

/-! ## Sends with a delay -/

section Delay

variable {cfg cfg' : Config} (net : Network) {l l' : Link}

theorem Like.send (hconnected : cfg.connected = cfg'.connected) (hbatching : cfg.batching = false)
    (hbatching' : cfg'.batching = false) (h : Like l l') (bytes : Bytes) :
    Like (Transfer.send cfg l bytes) (Transfer.send cfg' l' bytes) := by
  obtain ⟨calls, rfl⟩ := h
  unfold Transfer.send sendOn
  rw [hbatching, hbatching', hconnected]
  refine ⟨calls, ?_⟩
  cases cfg'.connected with
  | false => rfl
  | true => rfl

/-- Servers that send every packet by itself do the same. -/
theorem Like.sendLoop (hconnected : cfg.connected = cfg'.connected)
    (hretries : cfg.maxWindowRetries = cfg'.maxWindowRetries) (hbatching : cfg.batching = false)
    (hbatching' : cfg'.batching = false) {hdrBytes data : Bytes}
    (hroom : hdrBytes.length < MaxPayload) (windowPackets : Nat) (h : Like l l') :
    Like (Transfer.sendLoop cfg net hdrBytes data windowPackets [] l).2
      (Transfer.sendLoop cfg' net hdrBytes data windowPackets [] l').2 := by
  induction hsize : data.length using Nat.strong_induction_on
    generalizing hdrBytes data windowPackets l l' with
  | _ size ih =>
  subst hsize
  have hnext : Transfer.nextPacket l hdrBytes data = Transfer.nextPacket l' hdrBytes data ∧
      l.tx.transmitSequence = l'.tx.transmitSequence := by
    obtain ⟨calls, rfl⟩ := h
    exact ⟨rfl, rfl⟩
  rw [sendLoop_eq _ _ hroom, sendLoop_eq _ _ hroom, hnext.1, hnext.2, hbatching, hbatching',
    if_neg Bool.false_ne_true]
  have hsent := h.send hconnected hbatching hbatching' (Transfer.nextPacket l' hdrBytes data)
  revert hsent
  generalize Transfer.send cfg l _ = b
  generalize Transfer.send cfg' l' _ = u
  intro hsent
  have harrived : Like (Transfer.flush cfg net [] b) (Transfer.flush cfg' net [] u) := by
    obtain ⟨calls, rfl⟩ := hsent
    exact ⟨calls, rfl⟩
  obtain ⟨hresult, hlike⟩ :=
    harrived.confirm net hconnected hretries l'.tx.transmitSequence
  unfold sendRest
  by_cases hlater : (later hdrBytes data).length = 0
  · rw [if_pos hlater, if_pos hlater]
    exact hlike
  have hlt := length_later_lt hroom hlater
  rw [if_neg hlater, if_neg hlater]
  by_cases hfull : windowSize ≤ windowPackets + 1
  · rw [if_pos hfull, if_pos hfull]
    revert hresult hlike
    generalize Transfer.confirm cfg net _ _ = mine
    generalize Transfer.confirm cfg' net _ _ = theirs
    obtain ⟨result, m⟩ := mine
    obtain ⟨result', m'⟩ := theirs
    intro hresult hlike
    dsimp only at hresult hlike
    subst hresult
    rcases result with _ | _ | _
    · exact hlike
    · exact hlike
    · exact ih _ hlt (by decide) 0 hlike rfl
  · rw [if_neg hfull, if_neg hfull]
    exact ih _ hlt (by decide) _ hsent rfl

end Delay

/-! ## Replies -/

/-- Two transfers have handed over the same packets, and kept the same packets whenever a window
waited for its acknowledgement. -/
def SameSends (a b : Link) : Prop := a.handed = b.handed ∧ a.points = b.points

instance (a b : Link) : Decidable (SameSends a b) := inferInstanceAs (Decidable (_ ∧ _))

theorem Like.sameSends {a b : Link} (h : Like a b) : SameSends a b := by
  obtain ⟨calls, rfl⟩ := h
  exact ⟨rfl, rfl⟩

theorem HeaderOk.room {header : Bytes} (h : HeaderOk header) : header.length < MaxPayload :=
  lt_of_le_of_lt h.2 (by decide)

/-- A reply that is sent in batches is sent as without them, whatever the batch writer returns and
whatever is acknowledged, if and only if the packets of its first window and those outstanding
before are at most 2048; or there are no batches, as sends are delayed, or no reply, as its header
is refused. -/
theorem batched_agrees_iff (cfg : Config) (header data : Bytes) (l : Link) (hl : Masked l.tx) :
    (∀ net : Network, SameSends (sendTransferPackets cfg.batched net header data l).2
        (sendTransferPackets cfg.unbatched net header data l).2) ↔
      cfg.txDelay ≠ 0 ∨ ¬ HeaderOk header ∨
        outstanding l.tx + min windowSize (packetCount header data) ≤ 2048 := by
  by_cases hheader : HeaderOk header
  · by_cases hdelay : cfg.txDelay = 0
    · have hstart : outstanding l.tx < 0x1000 := by
        unfold outstanding ringSub
        omega
      have hempty : Masked { l.tx with txBuffer := [] } := ⟨hl.sequence, hl.acked⟩
      have hfilling : Filling cfg (outstanding l.tx) [] []
          { l with tx := { l.tx with txBuffer := [] } }
          { l with tx := { l.tx with txBuffer := [] } } :=
        @filling_nil cfg _ { l with tx := { l.tx with txBuffer := [] } } hempty rfl (Like.refl _)
      unfold sendTransferPackets
      simp only [if_pos hheader]
      constructor
      · intro hsame
        have hfits := hfilling.sendLoop_silent hdelay hheader.room hstart (by decide)
          (hsame silent).2
        rw [List.length_nil, Nat.zero_add] at hfits
        exact Or.inr (Or.inr hfits)
      · intro hcondition net
        have hfits : outstanding l.tx + min windowSize (0 + packetCount header data) ≤ 2048 := by
          rw [Nat.zero_add]
          exact (hcondition.resolve_left (not_not.mpr hdelay)).resolve_left (not_not.mpr hheader)
        exact (hfilling.sendLoop_agrees net hdelay hheader.room (by decide) hfits).2.sameSends
    · have hbatching : cfg.batched.batching = false := by
        simp [Config.batching, Config.batched, hdelay]
      apply iff_of_true
      · intro net
        unfold sendTransferPackets
        simp only [if_pos hheader]
        exact (@Like.sendLoop cfg.batched cfg.unbatched net _ _ rfl rfl hbatching rfl _ _
          hheader.room 0 (Like.refl _)).sameSends
      · exact Or.inl hdelay
  · apply iff_of_true
    · intro net
      unfold sendTransferPackets
      simp only [if_neg hheader]
      exact (Like.refl _).sameSends
    · exact Or.inr (Or.inl hheader)

/-- A session as it starts, and one that has sent 2048 packets that were never acknowledged. -/
def sessionAt (sequence : UInt16) : Link := ⟨⟨sequence, 0x0fff, []⟩, 0, [], 0, []⟩

def batchingServer : Config := ⟨true, 0, true, 20⟩

/-- A writer that takes three packets of a batch and then fails, and a console that acknowledges the
first packets of each window. -/
def faltering : Network :=
  ⟨fun _ => ⟨3, some .other⟩, fun _ => [⟨2, by decide⟩],
    fun _ => [[.control true ⟨5, by decide⟩], [.wake, .control false ⟨7, by decide⟩],
      [.control true ⟨9, by decide⟩]]⟩

/-- A reply of nine packets, in two windows. -/
theorem batched_agrees_twoWindows : packetCount [1, 2, 3, 4] (List.replicate 12000 7) = 9 ∧
    SameSends
      (sendTransferPackets batchingServer.batched faltering [1, 2, 3, 4] (List.replicate 12000 7)
        (sessionAt 0)).2
      (sendTransferPackets batchingServer.unbatched faltering [1, 2, 3, 4]
        (List.replicate 12000 7) (sessionAt 0)).2 :=
  ⟨by decide +kernel,
    (batched_agrees_iff batchingServer [1, 2, 3, 4] (List.replicate 12000 7) (sessionAt 0)
      ⟨by decide, by decide⟩).mpr (by decide +kernel) faltering⟩

/-- The packet is sent, and dropped from the buffer before anybody has acknowledged it. -/
theorem batched_drops_packet : Masked (sessionAt 2048).tx ∧
    ¬ SameSends (sendTransferPackets batchingServer.batched silent [] [1] (sessionAt 2048)).2
      (sendTransferPackets batchingServer.unbatched silent [] [1] (sessionAt 2048)).2 := by
  refine ⟨⟨by decide, by decide⟩, ?_⟩
  unfold sendTransferPackets
  rw [if_pos (by decide), if_pos (by decide), sendLoop_eq _ _ (by decide),
    sendLoop_eq _ _ (by decide)]
  unfold sendRest
  rw [if_pos (by decide), if_pos (by decide)]
  decide +kernel

end Ps2Servers.Edge.Transfer
