import Ps2Servers.Udpfs.Acks

/-!
# Acknowledgements of the Edge server

The transmit side of a Go session, over the same ring of 4096 numbers as the Python
one. Where packets are sent in batches, a packet is numbered and buffered before it is
sent; an acknowledgement may come in while the batch is on its way.
-/

namespace Ps2Servers.Edge

open Sliding Runs Udpfs

def SequenceMask : UInt16 := 0x0fff

/-- `protocol.Next`. -/
def nextSeq (seq : UInt16) : UInt16 := (seq + 1) &&& SequenceMask

/-- `protocol.Previous`. -/
def previous (seq : UInt16) : UInt16 := (seq - 1) &&& SequenceMask

/-- `protocol.Between`. -/
def between (start seq stop : UInt16) : Bool :=
  if start ≤ stop then start ≤ seq && seq ≤ stop else start ≤ seq || seq ≤ stop

structure BufferedPacket where
  sequence : UInt16
  bytes : Bytes
  sent : Bool
  deriving DecidableEq, Repr

structure Transmit where
  transmitSequence : UInt16
  transmitAcked : UInt16
  txBuffer : List BufferedPacket
  deriving DecidableEq, Repr

/-- `session.New` and `ResetTransport`. -/
def Transmit.new : Transmit := ⟨0, 0x0fff, []⟩

/-- The test of `pruneAcked`. -/
def retains (ack : UInt16) (p : BufferedPacket) : Bool :=
  !p.sent || ((p.sequence - ack - 1) &&& SequenceMask) < 2048

/-- `pruneAcked`. -/
def pruneAcked (buffer : List BufferedPacket) (ack : UInt16) : List BufferedPacket :=
  buffer.filter (retains ack)

/-- The test of `handleControl` and `handleData`. -/
def Transmit.accepts (s : Transmit) (ack : UInt16) : Bool :=
  between s.transmitAcked ack (previous s.transmitSequence)

/-- An ACK in `handleControl` or `handleData`. -/
def Transmit.acknowledge (s : Transmit) (ack : UInt16) : Transmit :=
  if s.accepts ack then ⟨s.transmitSequence, ack, pruneAcked s.txBuffer ack⟩ else s

/-- The first `count` packets that have not been sent are marked as sent. -/
def markSent {α : Type} (sent : α → Bool) (mark : α → α) : Nat → List α → List α
  | 0, buffer => buffer
  | _, [] => []
  | count + 1, p :: rest =>
      if sent p then p :: markSent sent mark (count + 1) rest
      else mark p :: markSent sent mark count rest

/-- What changes the transmit side. -/
inductive TransmitEvent
  | ack (number : Fin 0x1000)
  /-- A NACK only has packets sent again. -/
  | nack (number : Fin 0x1000)
  /-- A packet is sent. -/
  | send (bytes : Bytes)
  /-- A packet joins the batch. -/
  | queue (bytes : Bytes)
  /-- The batch is sent. -/
  | flush (count : Nat)
  | clear
  /-- `sendModuloInform`. -/
  | inform
  | reset
  deriving DecidableEq, Repr

/-- A packet gets the next number. -/
def Transmit.push (s : Transmit) (bytes : Bytes) (sent : Bool) : Transmit :=
  ⟨nextSeq s.transmitSequence, s.transmitAcked, s.txBuffer ++ [⟨s.transmitSequence, bytes, sent⟩]⟩

def Transmit.next (s : Transmit) : TransmitEvent → Transmit
  | .ack number => s.acknowledge (UInt16.ofNat number)
  | .nack _ => s
  | .send bytes => s.push bytes true
  | .queue bytes => s.push bytes false
  | .flush count =>
      let marked := markSent BufferedPacket.sent (fun p => { p with sent := true }) count s.txBuffer
      { s with txBuffer := pruneAcked marked s.transmitAcked }
  | .clear => { s with txBuffer := [] }
  | .inform => ⟨nextSeq s.transmitSequence, s.transmitSequence, s.txBuffer⟩
  | .reset => Transmit.new

/-! ## Numbers -/

theorem toNat_and_mask (x : UInt16) : (x &&& SequenceMask).toNat = x.toNat % 0x1000 := by
  have hmask : SequenceMask.toNat = 2 ^ 12 - 1 := by decide
  rw [UInt16.toNat_and, hmask, Nat.and_two_pow_sub_one_eq_mod]

theorem toNat_previous (seq : UInt16) : (previous seq).toNat = ringSub seq.toNat 1 := by
  have hlt := seq.toNat_lt
  unfold previous ringSub
  rw [toNat_and_mask, UInt16.toNat_sub]
  simp only [UInt16.toNat_one]
  omega

theorem toNat_nextSeq (seq : UInt16) : (nextSeq seq).toNat = (seq.toNat + 1) % 0x1000 := by
  have hlt := seq.toNat_lt
  unfold nextSeq
  rw [toNat_and_mask, UInt16.toNat_add]
  simp only [UInt16.toNat_one]
  omega

theorem retains_iff (ack : UInt16) (p : BufferedPacket) :
    retains ack p = (!p.sent || keeps ack.toNat p.sequence.toNat) := by
  have hlt := p.sequence.toNat_lt
  have hack := ack.toNat_lt
  have hdistance : ((p.sequence - ack - 1) &&& SequenceMask).toNat =
      ringSub p.sequence.toNat (ack.toNat + 1) := by
    unfold ringSub
    rw [toNat_and_mask, UInt16.toNat_sub, UInt16.toNat_sub]
    simp only [UInt16.toNat_one]
    omega
  unfold retains keeps
  rw [← hdistance]
  simp [UInt16.lt_iff_toNat_lt]

/-! ## Positions -/

/-- The number of a position. -/
def seqOf (position : Int) : UInt16 := UInt16.ofNat (number position)

theorem toNat_seqOf (position : Int) : (seqOf position).toNat = number position := by
  have hlt : number position < 0x1000 := by
    unfold number
    omega
  unfold seqOf
  rw [UInt16.toNat_ofNat_of_lt']
  exact lt_trans hlt (by decide)

/-- What the session knows of its window. The packets carry whether they were sent. -/
def forget (w : Window (Bytes × Bool)) : Transmit :=
  ⟨seqOf w.next, seqOf w.acked, w.held.map fun e => ⟨seqOf e.1, e.2.1, e.2.2⟩⟩

/-- The test of `pruneAcked` on a position. -/
def retainsAt (acknowledged : Nat) (e : Int × Bytes × Bool) : Bool :=
  !e.2.2 || keeps acknowledged (number e.1)

/-- The positions along a run. -/
def track (w : Window (Bytes × Bool)) : TransmitEvent → Window (Bytes × Bool)
  | .ack number => w.settle 0x1000 (retainsAt number) number
  | .nack _ => w
  | .send bytes => ⟨w.next + 1, w.acked, w.held ++ [(w.next, bytes, true)]⟩
  | .queue bytes => ⟨w.next + 1, w.acked, w.held ++ [(w.next, bytes, false)]⟩
  | .flush count =>
      let marked := markSent (fun e => e.2.2) (fun e => (e.1, e.2.1, true)) count w.held
      { w with held := marked.filter (retainsAt (number w.acked)) }
  | .clear => { w with held := [] }
  | .inform => ⟨w.next + 1, w.next, w.held⟩
  | .reset => ⟨0, -1, []⟩

/-- What is held has a number. -/
structure Numbered (w : Window (Bytes × Bool)) : Prop where
  acked : w.acked < w.next
  held : ∀ e ∈ w.held, e.1 < w.next

/-- Fewer than 2048 packets are outstanding. -/
structure Bounded (w : Window (Bytes × Bool)) : Prop extends Numbered w where
  outstanding : w.outstanding < 2048

theorem between_iff {start seq stop : UInt16} (hstart : start.toNat < 0x1000)
    (hseq : seq.toNat < 0x1000) (hstop : stop.toNat < 0x1000) :
    between start seq stop ↔ ringSub seq.toNat start.toNat ≤ ringSub stop.toNat start.toNat := by
  unfold between
  split
  · rename_i h
    rw [UInt16.le_iff_toNat_le] at h
    simp only [Bool.and_eq_true, decide_eq_true_eq, UInt16.le_iff_toNat_le]
    unfold ringSub
    omega
  · rename_i h
    rw [UInt16.le_iff_toNat_le] at h
    simp only [Bool.or_eq_true, decide_eq_true_eq, UInt16.le_iff_toNat_le]
    unfold ringSub
    omega

theorem accepts_forget {w : Window (Bytes × Bool)} (h : Bounded w) (n : Fin 0x1000) :
    (forget w).accepts (UInt16.ofNat n) ↔ w.position 0x1000 n < w.next := by
  have hacked := h.acked
  have hout := h.outstanding
  have hn : (UInt16.ofNat n).toNat = n := UInt16.toNat_ofNat_of_lt' (lt_trans n.isLt (by decide))
  unfold Window.outstanding at hout
  unfold Transmit.accepts
  rw [between_iff, toNat_previous]
  · simp only [forget, toNat_seqOf, hn]
    simp only [ringSub, number, Window.position]
    omega
  · simp only [forget, toNat_seqOf, number]
    omega
  · omega
  · rw [toNat_previous]
    unfold ringSub
    omega

theorem retains_forget (acknowledged : Nat) (hlt : acknowledged < 0x1000)
    (e : Int × Bytes × Bool) :
    retains (UInt16.ofNat acknowledged) ⟨seqOf e.1, e.2.1, e.2.2⟩ = retainsAt acknowledged e := by
  rw [retains_iff, toNat_seqOf, UInt16.toNat_ofNat_of_lt' (lt_trans hlt (by decide))]
  rfl

theorem pruneAcked_forget (acknowledged : Nat) (hlt : acknowledged < 0x1000)
    (held : List (Int × Bytes × Bool)) :
    pruneAcked (held.map fun e => ⟨seqOf e.1, e.2.1, e.2.2⟩) (UInt16.ofNat acknowledged) =
      (held.filter (retainsAt acknowledged)).map fun e => ⟨seqOf e.1, e.2.1, e.2.2⟩ := by
  unfold pruneAcked
  rw [List.filter_map]
  congr 1
  exact List.filter_congr fun e _ => retains_forget acknowledged hlt e

theorem markSent_forget (count : Nat) (held : List (Int × Bytes × Bool)) :
    markSent BufferedPacket.sent (fun p => { p with sent := true }) count
        (held.map fun e => ⟨seqOf e.1, e.2.1, e.2.2⟩) =
      (markSent (fun e => e.2.2) (fun e => (e.1, e.2.1, true)) count held).map
        fun e => ⟨seqOf e.1, e.2.1, e.2.2⟩ := by
  induction held generalizing count with
  | nil => cases count <;> rfl
  | cons e rest ih =>
      cases count with
      | zero => rfl
      | succ count =>
          simp only [List.map_cons, markSent]
          split
          · rw [List.map_cons, ih]
          · rw [List.map_cons, ih]

theorem seqOf_succ (position : Int) : nextSeq (seqOf position) = seqOf (position + 1) := by
  apply UInt16.toNat_inj.mp
  rw [toNat_nextSeq, toNat_seqOf, toNat_seqOf, number_succ]

/-- The acknowledgement of the session is that of its window. -/
theorem acknowledge_forget {w : Window (Bytes × Bool)} (h : Bounded w) (n : Fin 0x1000) :
    (forget w).acknowledge (UInt16.ofNat n) =
      forget (w.settle 0x1000 (retainsAt n) (n : Nat)) := by
  unfold Transmit.acknowledge Window.settle
  by_cases hnext : w.position 0x1000 n < w.next
  · have hseq : seqOf (w.position 0x1000 n) = UInt16.ofNat n := by
      unfold seqOf number
      rw [w.position_emod]
      congr 1
      omega
    rw [if_pos hnext, if_pos ((accepts_forget h n).mpr hnext)]
    simp only [forget, pruneAcked_forget n n.isLt]
    rw [hseq]
  · rw [if_neg hnext, if_neg (fun ha => hnext ((accepts_forget h n).mp ha))]

theorem forget_track {w : Window (Bytes × Bool)} (h : Bounded w) (e : TransmitEvent) :
    (forget w).next e = forget (track w e) := by
  cases e with
  | ack n => exact acknowledge_forget h n
  | nack n => rfl
  | send bytes => simp [Transmit.next, Transmit.push, track, forget, seqOf_succ]
  | queue bytes => simp [Transmit.next, Transmit.push, track, forget, seqOf_succ]
  | flush count =>
      have hlt : number w.acked < 0x1000 := by
        unfold number
        omega
      simp only [Transmit.next, track, forget, markSent_forget]
      rw [← pruneAcked_forget _ hlt]
      rfl
  | clear => simp [Transmit.next, track, forget]
  | inform => simp [Transmit.next, track, forget, seqOf_succ]
  | reset => exact (by decide : Transmit.new = forget ⟨0, -1, []⟩)

/-! ## Runs -/

/-- What an event may do to the window. Packets that were not sent stay. -/
def Progress (w : Window (Bytes × Bool)) (e : TransmitEvent) : Prop :=
  match e with
  | .ack number =>
      w.Acknowledges 0x1000 (number : Nat) (track w e) ∧
        ∀ p ∈ w.held, p.2.2 = false → p ∈ (track w e).held
  | .nack _ => track w e = w
  | .flush _ => ∀ p ∈ w.held, w.acked < p.1 → ∃ sent, (p.1, p.2.1, sent) ∈ (track w e).held
  | _ => True

theorem keeps_of_lt {w : Window (Bytes × Bool)} (h : Bounded w) {q : Int} (hq : w.acked ≤ q)
    {e : Int × Bytes × Bool} (he : e ∈ w.held) (hlt : q < e.1) {acknowledged : Nat}
    (hnumber : (acknowledged : Int) % 0x1000 = q % 0x1000) : keeps acknowledged (number e.1) := by
  have hout := h.outstanding
  have hheld := h.held e he
  unfold Window.outstanding at hout
  exact keeps_number hlt (by omega) hnumber

theorem mem_markSent (count : Nat) {held : List (Int × Bytes × Bool)} {e : Int × Bytes × Bool}
    (h : e ∈ held) : ∃ sent, (e.1, e.2.1, sent) ∈
      markSent (fun e => e.2.2) (fun e => (e.1, e.2.1, true)) count held := by
  induction held generalizing count with
  | nil => exact absurd h List.not_mem_nil
  | cons f rest ih =>
      cases count with
      | zero => exact ⟨e.2.2, h⟩
      | succ count =>
          simp only [markSent]
          split
          · rcases List.mem_cons.mp h with rfl | hrest
            · exact ⟨e.2.2, List.mem_cons_self⟩
            · obtain ⟨sent, hsent⟩ := ih (count + 1) hrest
              exact ⟨sent, List.mem_cons_of_mem _ hsent⟩
          · rcases List.mem_cons.mp h with rfl | hrest
            · exact ⟨true, List.mem_cons_self⟩
            · obtain ⟨sent, hsent⟩ := ih count hrest
              exact ⟨sent, List.mem_cons_of_mem _ hsent⟩

theorem fst_mem_markSent {count : Nat} {held : List (Int × Bytes × Bool)}
    {e : Int × Bytes × Bool}
    (h : e ∈ markSent (fun e => e.2.2) (fun e => (e.1, e.2.1, true)) count held) :
    ∃ f ∈ held, f.1 = e.1 := by
  induction held generalizing count with
  | nil =>
      cases count with
      | zero => exact ⟨e, h, rfl⟩
      | succ count => exact absurd h List.not_mem_nil
  | cons f rest ih =>
      cases count with
      | zero => exact ⟨e, h, rfl⟩
      | succ count =>
          simp only [markSent] at h
          split at h
          · rcases List.mem_cons.mp h with rfl | hrest
            · exact ⟨e, List.mem_cons_self, rfl⟩
            · obtain ⟨g, hg, heq⟩ := ih hrest
              exact ⟨g, List.mem_cons_of_mem _ hg, heq⟩
          · rcases List.mem_cons.mp h with rfl | hrest
            · exact ⟨f, List.mem_cons_self, rfl⟩
            · obtain ⟨g, hg, heq⟩ := ih hrest
              exact ⟨g, List.mem_cons_of_mem _ hg, heq⟩

theorem progress_of_bounded {w : Window (Bytes × Bool)} (h : Bounded w) (e : TransmitEvent) :
    Progress w e := by
  cases e with
  | ack n =>
      have hout : w.outstanding < 0x1000 := by
        have := h.outstanding
        omega
      constructor
      · refine Window.acknowledges_settle (by omega) hout fun hnext e he hlt => ?_
        have hle := w.acked_le_position (by omega : (0 : Int) < 0x1000) (n : Nat)
        simp only [retainsAt, Bool.or_eq_true]
        exact Or.inr (keeps_of_lt h hle he hlt (w.position_emod _).symm)
      · intro p hp hsent
        simp only [track, Window.settle]
        split
        · exact List.mem_filter.mpr ⟨hp, by simp [retainsAt, hsent]⟩
        · exact hp
  | nack n => rfl
  | flush count =>
      intro p hp hlt
      obtain ⟨sent, hsent⟩ := mem_markSent count hp
      refine ⟨sent, List.mem_filter.mpr ⟨hsent, ?_⟩⟩
      have hnumber : ((number w.acked : Nat) : Int) % 0x1000 = w.acked % 0x1000 := by
        unfold number
        omega
      simp only [retainsAt, Bool.or_eq_true]
      exact Or.inr (keeps_of_lt h (le_refl _) hp hlt hnumber)
  | send bytes => trivial
  | queue bytes => trivial
  | clear => trivial
  | inform => trivial
  | reset => trivial

theorem Numbered.push {w : Window (Bytes × Bool)} (h : Numbered w) (p : Bytes × Bool) :
    Numbered ⟨w.next + 1, w.acked, w.held ++ [(w.next, p)]⟩ := by
  constructor
  · exact lt_trans h.acked (by dsimp only; omega)
  · intro e he
    dsimp only
    rcases List.mem_append.mp he with hold | hnew
    · have := h.held e hold
      omega
    · obtain rfl := List.mem_singleton.mp hnew
      dsimp only
      omega

theorem Numbered.track {w : Window (Bytes × Bool)} (h : Numbered w) (e : TransmitEvent) :
    Numbered (track w e) := by
  have hacked := h.acked
  cases e with
  | ack n =>
      simp only [Edge.track, Window.settle]
      split
      · rename_i hnext
        exact ⟨hnext, fun e he => h.held e (List.mem_filter.mp he).1⟩
      · exact h
  | nack n => exact h
  | send bytes => exact h.push (bytes, true)
  | queue bytes => exact h.push (bytes, false)
  | flush count =>
      refine ⟨hacked, fun e he => ?_⟩
      obtain ⟨f, hf, heq⟩ := fst_mem_markSent (List.mem_filter.mp he).1
      rw [← heq]
      exact h.held f hf
  | clear => exact ⟨hacked, fun e he => absurd he List.not_mem_nil⟩
  | inform =>
      constructor
      · simp only [Edge.track]
        omega
      · intro e he
        have := h.held e he
        simp only [Edge.track]
        omega
  | reset => exact ⟨(by decide : (-1 : Int) < 0), fun e he => absurd he List.not_mem_nil⟩

/-- Along a run with fewer than 2048 packets outstanding the session is what its window says, and
every acknowledgement acknowledges. -/
theorem transmit_progress {w : Window (Bytes × Bool)} (hw : Numbered w) {es : List TransmitEvent}
    (h : Along track (fun w _ => w.outstanding < 2048) w es) :
    es.foldl Transmit.next (forget w) = forget (es.foldl track w) ∧ Along track Progress w es := by
  induction es generalizing w with
  | nil => exact ⟨rfl, trivial⟩
  | cons e rest ih =>
      have hbounded : Bounded w := ⟨hw, h.1⟩
      obtain ⟨hrun, hprogress⟩ := ih (hw.track e) h.2
      constructor
      · rw [List.foldl_cons, forget_track hbounded]
        exact hrun
      · exact ⟨progress_of_bounded hbounded e, hprogress⟩

/-! ## Both servers -/

/-- The transmit side of a Python session as the Go server has it: all packets have been sent. -/
def ofTx (s : Tx) : Transmit :=
  ⟨UInt16.ofNat s.seqNr, UInt16.ofNat s.acked, s.buffer.map fun e => ⟨UInt16.ofNat e.1, e.2, true⟩⟩

theorem accepts_ofTx {acked seqNr received : Nat} {buffer : List (Nat × Bytes)}
    (hacked : acked < 0x1000) (hseq : seqNr < 0x1000) (hreceived : received < 0x1000)
    (hflight : (⟨seqNr, acked, buffer⟩ : Tx).inFlight < 2048) :
    (ofTx ⟨seqNr, acked, buffer⟩).accepts (UInt16.ofNat received) =
      (⟨seqNr, acked, buffer⟩ : Tx).accepts received := by
  have htoNat : ∀ n, n < 0x1000 → (UInt16.ofNat n).toNat = n := fun n hn =>
    UInt16.toNat_ofNat_of_lt' (lt_trans hn (by decide))
  have hprevious : (previous (UInt16.ofNat seqNr)).toNat < 0x1000 := by
    rw [toNat_previous]
    unfold ringSub
    omega
  rw [Bool.eq_iff_iff]
  unfold Transmit.accepts ofTx
  rw [between_iff (by rw [htoNat _ hacked]; exact hacked) (by rw [htoNat _ hreceived]; exact hreceived)
    hprevious, toNat_previous, htoNat _ hacked, htoNat _ hreceived, htoNat _ hseq]
  unfold Tx.inFlight at hflight
  simp only [Tx.accepts, Bool.not_eq_true', Bool.or_eq_false_iff, decide_eq_false_iff_not]
  simp only [ringSub] at hflight ⊢
  omega

/-- With fewer than 2048 packets in flight both servers accept the same numbers and drop the same
packets. -/
theorem acknowledge_ofTx {acked seqNr received : Nat} {buffer : List (Nat × Bytes)}
    (hacked : acked < 0x1000) (hseq : seqNr < 0x1000) (hreceived : received < 0x1000)
    (hbuffer : ∀ e ∈ buffer, e.1 < 0x1000)
    (hflight : (⟨seqNr, acked, buffer⟩ : Tx).inFlight < 2048) :
    (ofTx ⟨seqNr, acked, buffer⟩).acknowledge (UInt16.ofNat received) =
      ofTx ((⟨seqNr, acked, buffer⟩ : Tx).acknowledge received) := by
  unfold Transmit.acknowledge Tx.acknowledge
  rw [accepts_ofTx hacked hseq hreceived hflight]
  split
  · simp only [ofTx, pruneAcked, List.filter_map]
    congr 2
    refine List.filter_congr fun e he => ?_
    have htoNat : ∀ n, n < 0x1000 → (UInt16.ofNat n).toNat = n := fun n hn =>
      UInt16.toNat_ofNat_of_lt' (lt_trans hn (by decide))
    simp only [Function.comp, retains_iff, Bool.not_true, Bool.false_or]
    rw [htoNat _ hreceived, htoNat _ (hbuffer e he)]
  · rfl

/-- Both servers: along every run with fewer than 2048 packets outstanding a session is what the
window of its run says; an acknowledgement moves the acknowledged position forward, to a packet
that has its number, and drops only packets up to it, of the Go server only packets that were sent;
and both accept the same numbers and drop the same packets. -/
theorem acknowledgement_progress :
    (∀ es, Along Udpfs.track (fun w _ => w.outstanding < 2048) ⟨0, 0, []⟩ es →
      es.foldl Tx.next Tx.new = Udpfs.forget (es.foldl Udpfs.track ⟨0, 0, []⟩) ∧
        Along Udpfs.track Udpfs.Progress ⟨0, 0, []⟩ es) ∧
    (∀ es, Along track (fun w _ => w.outstanding < 2048) ⟨0, -1, []⟩ es →
      es.foldl Transmit.next Transmit.new = forget (es.foldl track ⟨0, -1, []⟩) ∧
        Along track Progress ⟨0, -1, []⟩ es) ∧
    ∀ (acked seqNr received : Nat) (buffer : List (Nat × Bytes)),
      acked < 0x1000 → seqNr < 0x1000 → received < 0x1000 → (∀ e ∈ buffer, e.1 < 0x1000) →
      (⟨seqNr, acked, buffer⟩ : Tx).inFlight < 2048 →
        (ofTx ⟨seqNr, acked, buffer⟩).accepts (UInt16.ofNat received) =
            (⟨seqNr, acked, buffer⟩ : Tx).accepts received ∧
          (ofTx ⟨seqNr, acked, buffer⟩).acknowledge (UInt16.ofNat received) =
            ofTx ((⟨seqNr, acked, buffer⟩ : Tx).acknowledge received) := by
  refine ⟨?_, ?_, ?_⟩
  · intro es h
    exact tx_progress ⟨le_refl _, fun e he => absurd he List.not_mem_nil⟩ h
  · intro es h
    have hnew : Transmit.new = forget ⟨0, -1, []⟩ := by decide
    rw [hnew]
    exact transmit_progress ⟨by decide, fun e he => absurd he List.not_mem_nil⟩ h
  · intro acked seqNr received buffer hacked hseq hreceived hbuffer hflight
    exact ⟨accepts_ofTx hacked hseq hreceived hflight,
      acknowledge_ofTx hacked hseq hreceived hbuffer hflight⟩

/-- A packet, and one that is asked for again. -/
def asked : List TxEvent := [.packet [1], .packet [2], .ack 0, .nack 1]

/-- A packet, then a batch of two, of which the first is acknowledged. -/
def batch : List TransmitEvent := [.send [1], .queue [2], .queue [3], .flush 2, .ack 1, .nack 2]

theorem acknowledgement_progress_batch :
    (asked.foldl Tx.next Tx.new = ⟨2, 0, [(1, [2])]⟩ ∧ Along Udpfs.track Udpfs.Progress ⟨0, 0, []⟩ asked) ∧
    (batch.foldl Transmit.next Transmit.new = ⟨3, 1, [⟨2, [3], true⟩]⟩ ∧
      Along track Progress ⟨0, -1, []⟩ batch) ∧
    (ofTx ⟨2, 0, [(1, [2])]⟩).acknowledge (UInt16.ofNat 1) = ofTx ⟨2, 1, []⟩ := by
  obtain ⟨hpython, hgo, hboth⟩ := acknowledgement_progress
  have hasked := hpython asked (by decide)
  have hbatch := hgo batch (by decide)
  have hack := (hboth 0 2 1 [(1, [2])] (by decide) (by decide) (by decide) (by decide) (by decide)).2
  refine ⟨⟨hasked.1.trans (by decide), hasked.2⟩, ⟨hbatch.1.trans (by decide), hbatch.2⟩, ?_⟩
  exact hack.trans (by decide)

/-- The acknowledged packet has been sent. -/
def Transmit.AckedSent (s : Transmit) : Prop :=
  ∀ p ∈ s.txBuffer, p.sequence = s.transmitAcked → p.sent = true

instance Transmit.AckedSent.decidable (s : Transmit) : Decidable s.AckedSent :=
  inferInstanceAs (Decidable (∀ p ∈ s.txBuffer, _ → _))

/-- A packet of a batch is acknowledged before the batch is sent. -/
theorem not_ackedSent_queued :
    Along track (fun w _ => w.outstanding < 2048) ⟨0, -1, []⟩ [.queue [1], .ack 0] ∧
      ¬ (List.foldl Transmit.next Transmit.new [.queue [1], .ack 0]).AckedSent := by
  decide

end Ps2Servers.Edge
