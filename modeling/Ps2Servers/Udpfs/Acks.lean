import Ps2Servers.Lib.Bytes
import Ps2Servers.Lib.Runs
import Ps2Servers.Lib.Window

/-!
# Acknowledgements

What a session has sent and not seen acknowledged. Sequence numbers have twelve bits, and
a number is compared by its distance on the ring of 4096. The positions behind the
numbers are kept beside a run, to say what an acknowledgement really covered.
-/

namespace Ps2Servers.Udpfs

open Sliding Runs

/-- `(a - b) & 0xFFF`. -/
def ringSub (a b : Int) : Nat := ((a - b) % 0x1000).toNat

/-- The transmit side of a session: `tx_seq_nr`, `tx_seq_nr_acked` and `tx_buffer`. -/
structure Tx where
  seqNr : Nat
  acked : Nat
  buffer : List (Nat × Bytes)
  deriving DecidableEq, Repr

/-- A session that starts, or starts over. -/
def Tx.new : Tx := ⟨0, 0, []⟩

/-- `_in_flight`. -/
def Tx.inFlight (s : Tx) : Nat := ringSub s.seqNr (s.acked + 1)

/-- The test of `_acknowledge_tx`. -/
def Tx.accepts (s : Tx) (acknowledged : Nat) : Bool :=
  let advance := ringSub acknowledged s.acked
  let sent := ringSub s.seqNr (s.acked + 1)
  !(2048 ≤ advance || 2048 ≤ sent || sent < advance)

/-- What an accepted acknowledgement leaves in the transmit buffer. -/
def keeps (acknowledged seq : Nat) : Bool := ringSub seq (acknowledged + 1) < 2048

/-- `_acknowledge_tx`. -/
def Tx.acknowledge (s : Tx) (acknowledged : Nat) : Tx :=
  if s.accepts acknowledged then
    ⟨s.seqNr, acknowledged, s.buffer.filter fun e => keeps acknowledged e.1⟩
  else s

/-- `_retransmit_from`: nothing within 50 ms of the last time from the same number. The number it
remembers and the packets it sends. -/
def Tx.resend (s : Tx) (lastRetx : Option Nat) (seq : Nat) (recent : Bool) :
    Option Nat × List Bytes :=
  if lastRetx = some seq ∧ recent then (lastRetx, [])
  else (some seq, (s.buffer.filter fun e => ringSub e.1 seq < 2048).map Prod.snd)

/-- What changes the transmit side. Acknowledgement numbers have twelve bits. -/
inductive TxEvent
  | ack (number : Fin 0x1000)
  /-- A NACK asks for a packet and acknowledges what stands before it. -/
  | nack (number : Fin 0x1000)
  /-- `_send_data_packet`. -/
  | packet (bytes : Bytes)
  /-- `_send_data`. -/
  | reply (bytes : Bytes)
  /-- A transfer starts, is confirmed or is given up. -/
  | clear
  /-- An INFORM takes the next number and counts as acknowledged. -/
  | inform
  | reset
  deriving DecidableEq, Repr

def Tx.next (s : Tx) : TxEvent → Tx
  | .ack number => s.acknowledge number
  | .nack number => s.acknowledge (ringSub number 1)
  | .packet bytes => ⟨(s.seqNr + 1) % 0x1000, s.acked, s.buffer ++ [(s.seqNr, bytes)]⟩
  | .reply bytes => ⟨(s.seqNr + 1) % 0x1000, s.acked, [(s.seqNr, bytes)]⟩
  | .clear => { s with buffer := [] }
  | .inform => ⟨(s.seqNr + 1) % 0x1000, s.seqNr, s.buffer⟩
  | .reset => Tx.new

/-! ## Positions -/

/-- The sequence number of a position. -/
def number (position : Int) : Nat := (position % 0x1000).toNat

/-- What the session knows of its window. -/
def forget (w : Window Bytes) : Tx :=
  ⟨number w.next, number w.acked, w.held.map fun e => (number e.1, e.2)⟩

/-- An acknowledgement, where the session's test says what is kept. -/
def settle (w : Window Bytes) (acknowledged : Nat) : Window Bytes :=
  w.settle 0x1000 (fun e => keeps acknowledged (number e.1)) acknowledged

/-- The positions along a run. -/
def track (w : Window Bytes) : TxEvent → Window Bytes
  | .ack number => settle w number
  | .nack number => settle w (ringSub number 1)
  | .packet bytes => ⟨w.next + 1, w.acked, w.held ++ [(w.next, bytes)]⟩
  | .reply bytes => ⟨w.next + 1, w.acked, [(w.next, bytes)]⟩
  | .clear => { w with held := [] }
  | .inform => ⟨w.next + 1, w.next, w.held⟩
  | .reset => ⟨0, 0, []⟩

/-- What is held has been sent. A session starts over with number 0 acknowledged before it sends
it, so the acknowledged position may be the next one. -/
structure Sent (w : Window Bytes) : Prop where
  acked : w.acked ≤ w.next
  held : ∀ e ∈ w.held, e.1 < w.next

/-- Fewer than 2048 packets are outstanding. -/
structure Bounded (w : Window Bytes) : Prop extends Sent w where
  outstanding : w.outstanding < 2048

theorem accepts_forget {w : Window Bytes} (h : Bounded w) (acknowledged : Nat) :
    (forget w).accepts acknowledged ↔ w.position 0x1000 acknowledged < w.next := by
  have hacked := h.acked
  have hout := h.outstanding
  unfold Window.outstanding at hout
  simp only [Tx.accepts, Bool.not_eq_true', Bool.or_eq_false_iff, decide_eq_false_iff_not]
  simp only [forget, ringSub, number, Window.position]
  omega

theorem number_position (w : Window Bytes) {acknowledged : Nat} (h : acknowledged < 0x1000) :
    number (w.position 0x1000 acknowledged) = acknowledged := by
  unfold number
  rw [w.position_emod]
  omega

theorem number_succ (position : Int) : number (position + 1) = (number position + 1) % 0x1000 := by
  unfold number
  omega

/-- A packet at most 2048 behind the acknowledged one is kept. -/
theorem keeps_number {q position : Int} (hlt : q < position) (hle : position ≤ q + 2048)
    {acknowledged : Nat} (hnumber : (acknowledged : Int) % 0x1000 = q % 0x1000) :
    keeps acknowledged (number position) := by
  simp only [keeps, decide_eq_true_eq]
  simp only [ringSub, number]
  omega

theorem keeps_of_lt {w : Window Bytes} (h : Bounded w) {acknowledged : Nat}
    {e : Int × Bytes} (he : e ∈ w.held)
    (hlt : w.position 0x1000 acknowledged < e.1) : keeps acknowledged (number e.1) := by
  have hout := h.outstanding
  have hheld := h.held e he
  have hle := w.acked_le_position (by omega : (0 : Int) < 0x1000) acknowledged
  unfold Window.outstanding at hout
  exact keeps_number hlt (by omega) (w.position_emod _).symm

/-- The acknowledgement of the session is that of its window. -/
theorem acknowledge_forget {w : Window Bytes} (h : Bounded w) {acknowledged : Nat}
    (hnumber : acknowledged < 0x1000) :
    (forget w).acknowledge acknowledged = forget (settle w acknowledged) := by
  unfold Tx.acknowledge settle Window.settle
  by_cases hnext : w.position 0x1000 acknowledged < w.next
  · rw [if_pos hnext, if_pos ((accepts_forget h acknowledged).mpr hnext)]
    simp only [forget, number_position w hnumber, List.filter_map]
    rfl
  · rw [if_neg hnext, if_neg (fun ha => hnext ((accepts_forget h acknowledged).mp ha))]

theorem acknowledges_settle {w : Window Bytes} (h : Bounded w) (acknowledged : Nat) :
    w.Acknowledges 0x1000 acknowledged (settle w acknowledged) := by
  have hout : w.outstanding < 0x1000 := by
    have := h.outstanding
    omega
  exact Window.acknowledges_settle (by omega) hout fun _ e he hlt => keeps_of_lt h he hlt

/-! ## Runs -/

/-- What an event may do to the window: a NACK acknowledges what stands before its number. -/
def Progress (w : Window Bytes) (e : TxEvent) : Prop :=
  match e with
  | .ack number => w.Acknowledges 0x1000 number (track w e)
  | .nack number => w.Acknowledges 0x1000 (ringSub number 1) (track w e)
  | _ => True

theorem progress_of_bounded {w : Window Bytes} (h : Bounded w) (e : TxEvent) : Progress w e := by
  cases e with
  | ack n => exact acknowledges_settle h n
  | nack n => exact acknowledges_settle h (ringSub n 1)
  | packet bytes => trivial
  | reply bytes => trivial
  | clear => trivial
  | inform => trivial
  | reset => trivial

theorem forget_track {w : Window Bytes} (h : Bounded w) (e : TxEvent) :
    (forget w).next e = forget (track w e) := by
  cases e with
  | ack n => exact acknowledge_forget h n.isLt
  | nack n => exact acknowledge_forget h (by unfold ringSub; omega)
  | packet bytes => simp [Tx.next, track, forget, number_succ]
  | reply bytes => simp [Tx.next, track, forget, number_succ]
  | clear => simp [Tx.next, track, forget]
  | inform => simp [Tx.next, track, forget, number_succ]
  | reset => rfl

theorem Sent.settle {w : Window Bytes} (h : Sent w) (acknowledged : Nat) :
    Sent (settle w acknowledged) := by
  unfold Udpfs.settle Window.settle
  split
  · rename_i hnext
    exact ⟨le_of_lt hnext, fun e he => h.held e (List.mem_filter.mp he).1⟩
  · exact h

theorem Sent.track {w : Window Bytes} (h : Sent w) (e : TxEvent) : Sent (track w e) := by
  have hacked := h.acked
  have hnext : ∀ e ∈ w.held, e.1 < w.next + 1 := fun e he => lt_trans (h.held e he) (by omega)
  cases e with
  | ack n => exact h.settle n
  | nack n => exact h.settle (ringSub n 1)
  | packet bytes =>
      refine ⟨by simp only [Udpfs.track]; omega, ?_⟩
      intro e he
      rcases List.mem_append.mp he with hold | hnew
      · exact hnext e hold
      · obtain rfl := List.mem_singleton.mp hnew
        simp only [Udpfs.track]
        omega
  | reply bytes =>
      refine ⟨by simp only [Udpfs.track]; omega, ?_⟩
      intro e he
      obtain rfl := List.mem_singleton.mp he
      simp only [Udpfs.track]
      omega
  | clear => exact ⟨hacked, fun e he => absurd he List.not_mem_nil⟩
  | inform => exact ⟨by simp only [Udpfs.track]; omega, hnext⟩
  | reset => exact ⟨le_refl _, fun e he => absurd he List.not_mem_nil⟩

/-- Along a run with fewer than 2048 packets outstanding the session is what its window says, and
every acknowledgement acknowledges. -/
theorem tx_progress {w : Window Bytes} (hw : Sent w) {es : List TxEvent}
    (h : Along track (fun w _ => w.outstanding < 2048) w es) :
    es.foldl Tx.next (forget w) = forget (es.foldl track w) ∧ Along track Progress w es := by
  induction es generalizing w with
  | nil => exact ⟨rfl, trivial⟩
  | cons e rest ih =>
      have hbounded : Bounded w := ⟨hw, h.1⟩
      obtain ⟨hrun, hprogress⟩ := ih (hw.track e) h.2
      constructor
      · rw [List.foldl_cons, forget_track hbounded]
        exact hrun
      · exact ⟨progress_of_bounded hbounded e, hprogress⟩

end Ps2Servers.Udpfs
