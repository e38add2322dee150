import Ps2Servers.Udpfs.Transfer

/-!
# What a transfer sends

The packets of a transfer are fixed before the first one is sent. Whatever the console
acknowledges, asks for again or leaves unanswered, the sender sends these packets in
their order, and repeats only packets that are still outstanding.
-/

namespace Ps2Servers.Udpfs

/-! ## The packets -/

namespace Transfer

variable (t : Transfer)

/-- Where the data of a packet starts. -/
def offset : Nat → Nat
  | 0 => 0
  | k + 1 => min (t.first + k * t.chunk) t.data.length

/-- How much data a packet has. -/
def size (i : Nat) : Nat := t.offset (i + 1) - t.offset i

def payload (i : Nat) : Bytes :=
  (if i = 0 then t.header else []) ++ t.data.sub (t.offset i) (t.size i)

def fin (i : Nat) : Bool := t.data.length ≤ t.offset (i + 1)

def seq (i : Nat) : Nat := (t.start + i) % 0x1000

def packet (i : Nat) : Bytes :=
  buildPacket (t.seq i) t.rxExpected (t.payload i) (t.fin i) (if i = 0 then t.header.length else 0)

/-- The number of packets. -/
def count : Nat := 1 + ceilDiv (t.data.length - t.first) t.chunk

/-- A header of eight bytes and numbers of twelve bits. -/
structure WellFormed : Prop where
  header : t.header.length = 8
  start : t.start < 0x1000

theorem chunk_cases : t.chunk = 1024 ∨ t.chunk = 1280 ∨ t.chunk = 1408 := by
  unfold chunk optimalChunkSize
  simp only [List.foldl_cons, List.foldl_nil]
  split <;> split <;> split <;> simp_all

theorem offset_succ (k : Nat) (hk : 0 < k) :
    t.offset (k + 1) = min (t.offset k + t.chunk) t.data.length := by
  obtain ⟨j, rfl⟩ := Nat.exists_eq_add_of_lt hk
  simp only [Nat.zero_add, offset, Nat.succ_mul]
  omega

theorem offset_le (k : Nat) : t.offset k ≤ t.data.length := by
  cases k with
  | zero => exact Nat.zero_le _
  | succ k => exact Nat.min_le_right _ _

theorem offset_le_succ (k : Nat) : t.offset k ≤ t.offset (k + 1) := by
  cases k with
  | zero => exact Nat.zero_le _
  | succ k =>
      rw [t.offset_succ (k + 1) (Nat.succ_pos k)]
      exact Nat.le_min.mpr ⟨Nat.le_add_right _ _, t.offset_le _⟩

theorem first_eq (h : t.WellFormed) : t.first = min (min t.chunk 1400) t.data.length := by
  unfold first MAX_DATA_PAYLOAD
  rw [h.header]

theorem offset_one : t.offset 1 = t.first := by
  simp only [offset, Nat.zero_mul, Nat.add_zero]
  exact Nat.min_eq_left (Nat.min_le_right _ _)

/-- The packets before the last one do not reach the end of the data. -/
theorem offset_lt_iff {k : Nat} (hk : 0 < k) : t.offset k < t.data.length ↔ k < t.count := by
  obtain ⟨j, rfl⟩ := Nat.exists_eq_add_of_lt hk
  have hchunk := t.chunk_cases
  have hfirst : t.first ≤ t.data.length := Nat.min_le_right _ _
  simp only [Nat.zero_add, offset, count, ceilDiv]
  rcases hchunk with h | h | h <;> rw [h] <;> omega

theorem fin_iff {i : Nat} : t.fin i ↔ t.count ≤ i + 1 := by
  have h : t.offset (i + 1) < t.data.length ↔ i + 1 < t.count := t.offset_lt_iff (Nat.succ_pos i)
  simp only [fin, decide_eq_true_eq]
  omega

end Transfer

/-! ## Fields of packets -/

section Fields

variable (seq rxExpected : Nat) (payload : Bytes) (fin : Bool) (hdrSize : Nat)

theorem field_packHeader (type : Nat) (rest : Bytes) :
    (packHeader type seq ++ rest).field 0 2 = type % 0x10 + seq % 0x1000 * 0x10 := by
  unfold packHeader
  rw [Bytes.field_ofNat]
  omega

theorem field_packDataHeader (type ack flags words size : Nat) (rest : Bytes) :
    (packHeader type seq ++ (packDataHeader ack flags words size ++ rest)).field 2 4 =
      ack % 0x1000 + flags % 4 * 0x1000 + words % 0x10 * 0x4000 + size % 0x4000 * 0x40000 := by
  have h := Bytes.field_append (packHeader type seq) (packDataHeader ack flags words size ++ rest) 0 4
  have hlength : (packHeader type seq).length = 2 := Bytes.length_ofNat 2 _
  rw [hlength] at h
  rw [h]
  unfold packDataHeader
  rw [Bytes.field_ofNat]
  omega

theorem buildPacket_append : buildPacket seq rxExpected payload fin hdrSize =
    packHeader DATA seq ++
      (packDataHeader (ringSub rxExpected 1) (if fin then FIN else 0) (hdrSize / 4)
        ((payload.length - hdrSize + 3) / 4 * 4) ++ (payload ++ padding (payload.length - hdrSize))) := by
  simp [buildPacket]

theorem seqNr_buildPacket : seqNr (buildPacket seq rxExpected payload fin hdrSize) = seq % 0x1000 := by
  rw [buildPacket_append, seqNr, field_packHeader]
  have hdata : DATA = 2 := rfl
  omega

theorem dataFlags_buildPacket :
    dataFlags (buildPacket seq rxExpected payload fin hdrSize) = if fin then FIN else 0 := by
  rw [buildPacket_append, dataFlags, field_packDataHeader]
  have hfin : FIN = 2 := rfl
  split <;> omega

theorem payloadSize_buildPacket :
    payloadSize (buildPacket seq rxExpected payload fin hdrSize) =
      hdrSize / 4 % 0x10 * 4 + (payload.length - hdrSize + 3) / 4 * 4 % 0x4000 := by
  rw [buildPacket_append, payloadSize, field_packDataHeader]
  have hfin : FIN = 2 := rfl
  split <;> omega

theorem drop_buildPacket : (buildPacket seq rxExpected payload fin hdrSize).drop 6 =
    payload ++ padding (payload.length - hdrSize) := by
  rw [buildPacket_append, ← List.append_assoc, List.drop_left']
  simp [packHeader, packDataHeader]

theorem payloadSize_buildAck : payloadSize (buildAck seq rxExpected) = 0 := by
  have h := field_packDataHeader seq DATA (ringSub rxExpected 1) ACK 0 0 []
  rw [List.append_nil] at h
  rw [buildAck, payloadSize, h]
  have hack : ACK = 1 := rfl
  omega

end Fields

/-- A DATA packet that carries a payload. Acknowledgements carry none. -/
def isData (p : Bytes) : Bool := 0 < payloadSize p

namespace Transfer

variable {t : Transfer} (h : t.WellFormed)

theorem length_sub (i : Nat) : (t.data.sub (t.offset i) (t.size i)).length = t.size i := by
  have hle := t.offset_le (i + 1)
  have hsucc := t.offset_le_succ i
  simp only [Bytes.sub, List.length_take, List.length_drop, size]
  omega

theorem size_zero : t.size 0 = t.first := by
  simp only [size, t.offset_one]
  simp [offset]

theorem size_succ {i : Nat} (hi : 0 < i) : t.size i = min t.chunk (t.data.length - t.offset i) := by
  have hle := t.offset_le i
  rw [size, t.offset_succ i hi]
  omega

include h in
theorem first_le : t.first ≤ 1400 := by
  rw [t.first_eq h]
  omega

/-- A packet that is not the last one is full, and its data a multiple of four bytes. -/
theorem size_of_lt {i : Nat} (hi : i + 1 < t.count) (hheader : t.WellFormed) :
    t.size i % 4 = 0 ∧ 0 < t.size i := by
  have hchunk := t.chunk_cases
  have hlt := (t.offset_lt_iff (Nat.succ_pos i)).mpr hi
  rcases Nat.eq_zero_or_pos i with rfl | hpos
  · rw [size_zero, t.first_eq hheader]
    rw [Nat.succ_eq_add_one, Nat.zero_add, t.offset_one, t.first_eq hheader] at hlt
    omega
  · rw [size_succ hpos]
    rw [Nat.succ_eq_add_one, t.offset_succ i hpos] at hlt
    omega

theorem take_offset_succ (i : Nat) :
    t.data.take (t.offset i) ++ t.data.sub (t.offset i) (t.size i) =
      t.data.take (t.offset (i + 1)) := by
  have hjoin := t.data.sub_append 0 (t.offset i) (t.size i)
  have hend : t.offset i + t.size i = t.offset (i + 1) :=
    Nat.add_sub_cancel' (t.offset_le_succ i)
  rw [Nat.zero_add, hend] at hjoin
  simpa [Bytes.sub] using hjoin

theorem length_payload (i : Nat) :
    (t.payload i).length = (if i = 0 then t.header.length else 0) + t.size i := by
  rw [payload, List.length_append, length_sub]
  split <;> simp

theorem drop_packet (i : Nat) : (t.packet i).drop 6 = t.payload i ++ padding (t.size i) := by
  rw [packet, drop_buildPacket, length_payload, Nat.add_sub_cancel_left]

theorem length_drop_packet (hheader : t.WellFormed) (i : Nat) :
    ((t.packet i).drop 6).length ≤ 1408 := by
  have hchunk := t.chunk_cases
  rw [drop_packet, List.length_append, padding, List.length_replicate, length_payload]
  rcases Nat.eq_zero_or_pos i with rfl | hpos
  · have hfirst := first_le hheader
    rw [size_zero, if_pos rfl, hheader.header]
    omega
  · rw [size_succ hpos, if_neg (Nat.ne_of_gt hpos)]
    omega

theorem isData_packet (hheader : t.WellFormed) {i : Nat} (hi : i < t.count) :
    isData (t.packet i) := by
  have hchunk := t.chunk_cases
  unfold isData packet
  rw [payloadSize_buildPacket, length_payload, Nat.add_sub_cancel_left, decide_eq_true_eq]
  rcases Nat.eq_zero_or_pos i with rfl | hpos
  · rw [if_pos rfl, hheader.header]
    omega
  · have hlt := (t.offset_lt_iff hpos).mpr hi
    rw [size_succ hpos, if_neg (Nat.ne_of_gt hpos)]
    omega

theorem padding_eq_nil {size : Nat} (h : size % 4 = 0) : padding size = [] := by
  unfold padding
  rw [List.replicate_eq_nil_iff]
  omega

/-- The packets before the last one carry no padding. -/
theorem flatMap_packet (hheader : t.WellFormed) {k : Nat} (hk : k < t.count) :
    (List.range k).flatMap (fun i => (t.packet i).drop 6) =
      (if k = 0 then [] else t.header) ++ t.data.take (t.offset k) := by
  induction k with
  | zero => simp [offset]
  | succ k ih =>
      rw [List.range_succ, List.flatMap_append, ih (by omega), List.flatMap_singleton,
        drop_packet, padding_eq_nil (size_of_lt hk hheader).1, List.append_nil, payload,
        if_neg (Nat.succ_ne_zero k), ← take_offset_succ k]
      rcases Nat.eq_zero_or_pos k with rfl | hpos
      · simp [offset]
      · simp [Nat.ne_of_gt hpos]

/-- All packets of a transfer: the header, the data and less than four zero bytes. -/
theorem flatMap_all (hheader : t.WellFormed) : ∃ pad, pad < 4 ∧
    (List.range t.count).flatMap (fun i => (t.packet i).drop 6) =
      t.header ++ t.data ++ List.replicate pad 0 := by
  obtain ⟨last, hlast⟩ : ∃ last, t.count = last + 1 := ⟨_, Nat.add_comm 1 _⟩
  have hend : t.offset (last + 1) = t.data.length := by
    have hle := t.offset_le (last + 1)
    have hlt := t.offset_lt_iff (Nat.succ_pos last)
    rw [Nat.succ_eq_add_one, hlast] at hlt
    omega
  have htake := t.take_offset_succ last
  rw [hend, List.take_length] at htake
  refine ⟨(t.size last + 3) / 4 * 4 - t.size last, by omega, ?_⟩
  rw [hlast, List.range_succ, List.flatMap_append, flatMap_packet hheader (by omega),
    List.flatMap_singleton, drop_packet, payload, padding]
  rcases Nat.eq_zero_or_pos last with rfl | hpos
  · rw [offset, List.take_zero, List.nil_append] at htake
    rw [if_pos rfl, if_pos rfl, offset, List.take_zero, htake]
    rfl
  · rw [if_neg (Nat.ne_of_gt hpos), if_neg (Nat.ne_of_gt hpos), List.nil_append,
      List.append_assoc, ← List.append_assoc (t.data.take _), htake, List.append_assoc]

end Transfer

/-! ## The transmit buffer -/

/-- The buffer holds packets of the transfer, of those sent last. -/
structure Sound (t : Transfer) (k : Nat) (tx : Tx) : Prop where
  seqNr : tx.seqNr = t.seq k
  acked : tx.acked < 0x1000
  buffer : ∀ e ∈ tx.buffer, ∃ i, i < k ∧ k ≤ i + 1 + tx.inFlight ∧ e = (t.seq i, t.packet i)

variable {t : Transfer} {k : Nat} {tx : Tx}

theorem Sound.clear (h : Sound t k tx) : Sound t k (tx.next .clear) :=
  ⟨h.seqNr, h.acked, fun _ he => absurd he List.not_mem_nil⟩

theorem Sound.acknowledge (h : Sound t k tx) {n : Nat} (hn : n < 0x1000) :
    Sound t k (tx.acknowledge n) := by
  unfold Tx.acknowledge
  split
  · rename_i haccepts
    refine ⟨h.seqNr, hn, fun e he => ?_⟩
    obtain ⟨hmem, hkeeps⟩ := List.mem_filter.mp he
    obtain ⟨i, hi, hflight, rfl⟩ := h.buffer e hmem
    have hseq := h.seqNr
    refine ⟨i, hi, ?_, rfl⟩
    simp only [Tx.accepts, Bool.not_eq_true', Bool.or_eq_false_iff, decide_eq_false_iff_not]
      at haccepts
    simp only [keeps, decide_eq_true_eq] at hkeeps
    simp only [Tx.inFlight, ringSub, Transfer.seq] at *
    omega
  · exact h

/-- An accepted number that is not that of the last packet leaves that packet in the buffer. -/
theorem keeps_last {n : Nat} (hn : n < 0x1000) (hseq : tx.seqNr < 0x1000) (haccepts : tx.accepts n)
    (hne : n ≠ ringSub tx.seqNr 1) : keeps n (ringSub tx.seqNr 1) := by
  simp only [Tx.accepts, Bool.not_eq_true', Bool.or_eq_false_iff, decide_eq_false_iff_not]
    at haccepts
  simp only [keeps, decide_eq_true_eq]
  simp only [ringSub] at *
  omega

theorem Sound.packet (h : Sound t k tx) (hflight : tx.inFlight < SEND_WINDOW) :
    Sound t (k + 1) (tx.next (.packet (t.packet k))) := by
  have hseq := h.seqNr
  have hwindow : SEND_WINDOW = 8 := rfl
  refine ⟨?_, h.acked, fun e he => ?_⟩
  · simp only [Tx.next, hseq, Transfer.seq]
    omega
  · rcases List.mem_append.mp he with hold | hnew
    · obtain ⟨i, hi, hle, rfl⟩ := h.buffer e hold
      refine ⟨i, by omega, ?_, rfl⟩
      simp only [Tx.next, Tx.inFlight, ringSub, Transfer.seq] at *
      omega
    · obtain rfl := List.mem_singleton.mp hnew
      exact ⟨k, by omega, by omega, by rw [hseq]⟩

/-! ## Steps -/

/-- What a step sends: the next packet, or packets of the last 4096 again and acknowledgements. -/
inductive Sends (t : Transfer) (k : Nat) : Nat → List Bytes → Prop
  | next : Sends t k (k + 1) [t.packet k]
  | again {out : List Bytes}
      (h : ∀ p ∈ out, (∃ i, i < k ∧ k ≤ i + 0x1000 ∧ p = t.packet i) ∨ isData p = false) :
      Sends t k k out

theorem Sends.nil : Sends t k k [] := .again fun _ hp => absurd hp List.not_mem_nil

/-- Where a sender is that has sent `k` packets. -/
def Phase.Fits (t : Transfer) (k : Nat) : Phase → Prop
  | .sending => True
  | .window _ => k < t.count
  | .final _ => k = t.count
  | .ended none => True
  | .ended (some _) => k = t.count

structure Inv (t : Transfer) (k : Nat) (s : Sender) : Prop where
  sound : Sound t k s.tx
  pos : 0 < k
  le : k ≤ t.count
  offset : s.offset = t.offset k
  phase : s.phase.Fits t k

variable {s : Sender}

/-- The transmit side and the phase change, the place in the data does not. -/
theorem Inv.change (h : Inv t k s) {s' : Sender} (htx : Sound t k s'.tx)
    (hoffset : s'.offset = s.offset) (hphase : s'.phase.Fits t k) : Inv t k s' :=
  ⟨htx, h.pos, h.le, hoffset.trans h.offset, hphase⟩

theorem Inv.withTx (h : Inv t k s) (htx : Sound t k tx) : Inv t k { s with tx := tx } :=
  h.change htx rfl h.phase

theorem mem_resend {lastRetx : Option Nat} {seq : Nat} {recent : Bool} {p : Bytes}
    (hp : p ∈ (tx.resend lastRetx seq recent).2) : ∃ e ∈ tx.buffer, e.2 = p := by
  unfold Tx.resend at hp
  split at hp
  · exact absurd hp List.not_mem_nil
  · obtain ⟨e, he, rfl⟩ := List.mem_map.mp hp
    exact ⟨e, (List.mem_filter.mp he).1, rfl⟩

theorem Inv.retransmitFrom (h : Inv t k s) (seq : Nat) (recent : Bool) :
    Inv t k (retransmitFrom s seq recent).1 ∧ Sends t k k (retransmitFrom s seq recent).2 := by
  refine ⟨h.change h.sound rfl h.phase, .again fun p hp => Or.inl ?_⟩
  obtain ⟨e, he, rfl⟩ := mem_resend hp
  obtain ⟨i, hi, hle, rfl⟩ := h.sound.buffer e he
  have hflight : s.tx.inFlight < 0x1000 := by
    unfold Tx.inFlight ringSub
    omega
  exact ⟨i, hi, by omega, rfl⟩

theorem Inv.afterWindow (h : Inv t k s) (oldAcked : Nat) : Inv t k (afterWindow s oldAcked) := by
  unfold Udpfs.afterWindow
  split
  · split
    · exact h.change h.sound rfl trivial
    · exact h.change h.sound rfl trivial
  · exact h.change h.sound rfl trivial

/-- A round of the sending loop with room in the window. -/
theorem Inv.sendRound_packet (h : Inv t k s) (hk : k < t.count)
    (hflight : s.tx.inFlight < SEND_WINDOW) :
    sendRound t s = ({ s with
      tx := s.tx.next (.packet (t.packet k)), offset := t.offset (k + 1), retries := 0 },
        [t.packet k]) := by
  have hsize : min t.chunk (t.data.length - t.offset k) = t.size k :=
    (Transfer.size_succ h.pos).symm
  have hend : t.offset k + t.size k = t.offset (k + 1) :=
    Nat.add_sub_cancel' (t.offset_le_succ k)
  have hpacket : buildPacket s.tx.seqNr t.rxExpected (t.data.sub (t.offset k) (t.size k))
      (t.data.length ≤ t.offset (k + 1)) 0 = t.packet k := by
    rw [Transfer.packet, Transfer.payload, Transfer.fin, h.sound.seqNr,
      if_neg (Nat.ne_of_gt h.pos), if_neg (Nat.ne_of_gt h.pos), List.nil_append]
  have hoffset : s.offset < t.data.length := by
    rw [h.offset]
    exact (t.offset_lt_iff h.pos).mpr hk
  unfold Udpfs.sendRound
  rw [if_pos hoffset, if_neg (Nat.not_le.mpr hflight), h.offset]
  simp only [sendPacket, hsize, hend, hpacket]

/-- A round with a full window. -/
theorem Inv.sendRound_full (h : Inv t k s) (hk : k < t.count)
    (hflight : ¬ s.tx.inFlight < SEND_WINDOW) :
    sendRound t s = ({ s with phase := .window s.tx.acked }, []) := by
  have hoffset : s.offset < t.data.length := by
    rw [h.offset]
    exact (t.offset_lt_iff h.pos).mpr hk
  unfold Udpfs.sendRound
  rw [if_pos hoffset, if_pos (Nat.not_lt.mp hflight)]

/-- A round after the last packet. -/
theorem Inv.sendRound_done (h : Inv t k s) (hk : ¬ k < t.count) :
    sendRound t s = ({ s with phase := .final 0 }, []) := by
  have hoffset : ¬ s.offset < t.data.length := by
    rw [h.offset]
    exact mt (t.offset_lt_iff h.pos).mp hk
  unfold Udpfs.sendRound
  rw [if_neg hoffset]

theorem Inv.sendRound (h : Inv t k s) (hphase : s.phase = .sending) :
    ∃ k', Inv t k' (sendRound t s).1 ∧ Sends t k k' (sendRound t s).2 := by
  by_cases hk : k < t.count
  · by_cases hflight : s.tx.inFlight < SEND_WINDOW
    · rw [h.sendRound_packet hk hflight]
      exact ⟨k + 1, ⟨h.sound.packet hflight, Nat.succ_pos k, hk, rfl, by rw [hphase]; trivial⟩, .next⟩
    · rw [h.sendRound_full hk hflight]
      exact ⟨k, h.change h.sound rfl hk, .nil⟩
  · rw [h.sendRound_done hk]
    exact ⟨k, h.change h.sound rfl (Nat.le_antisymm h.le (Nat.not_lt.mp hk)), .nil⟩

theorem sends_ack (seq rxExpected : Nat) : Sends t k k [buildAck seq rxExpected] :=
  .again fun p hp => Or.inr (by
    obtain rfl := List.mem_singleton.mp hp
    simp [isData, payloadSize_buildAck])

theorem ackNr_lt (datagram : Bytes) : ackNr datagram < 0x1000 := by
  unfold ackNr
  omega

theorem ringSub_lt (a b : Int) : ringSub a b < 0x1000 := by
  unfold ringSub
  omega

theorem Inv.windowPacket (h : Inv t k s) (oldAcked : Nat) (datagram : Bytes) (recent : Bool) :
    Inv t k (windowPacket t s oldAcked datagram recent).1 ∧
      Sends t k k (windowPacket t s oldAcked datagram recent).2 := by
  have hack := h.sound.acknowledge (ackNr_lt datagram)
  have hnack := h.sound.acknowledge (ringSub_lt (ackNr datagram) 1)
  unfold Udpfs.windowPacket
  split
  · exact ⟨h, .nil⟩
  split
  · exact ⟨h.change h.sound.clear rfl trivial, .nil⟩
  split
  · exact ⟨h, .nil⟩
  split
  · exact ⟨h, sends_ack _ _⟩
  split
  · dsimp only
    split
    · exact ⟨h.change hack rfl trivial, .nil⟩
    split
    · exact ⟨(h.withTx hack).afterWindow oldAcked, .nil⟩
    · exact ⟨h.withTx hack, .nil⟩
  split
  · obtain ⟨hinv, hsends⟩ := (h.withTx hnack).retransmitFrom (ackNr datagram) recent
    dsimp only
    split
    · exact ⟨hinv.afterWindow oldAcked, hsends⟩
    · exact ⟨hinv, hsends⟩
  · exact ⟨h.change h.sound rfl trivial, .nil⟩

theorem Inv.tryAgain (h : Inv t k s) (hcount : k = t.count) (attempt : Nat) (recent : Bool) :
    Inv t k (tryAgain s attempt recent).1 ∧ Sends t k k (tryAgain s attempt recent).2 := by
  unfold Udpfs.tryAgain
  split
  · exact ⟨h.change h.sound rfl hcount, .nil⟩
  · rename_i e rest _
    obtain ⟨hinv, hsends⟩ := h.retransmitFrom e.1 recent
    dsimp only
    split
    · exact ⟨hinv.change hinv.sound rfl hcount, hsends⟩
    · exact ⟨hinv.change hinv.sound rfl hcount, hsends⟩

theorem Inv.confirm (h : Inv t k s) (hcount : k = t.count) : Inv t k (confirm s) :=
  h.change h.sound rfl hcount

theorem Inv.finalPacket (h : Inv t k s) (hcount : k = t.count) (attempt : Nat) (datagram : Bytes)
    (recent : Bool) :
    Inv t k (finalPacket t s attempt datagram recent).1 ∧
      Sends t k k (finalPacket t s attempt datagram recent).2 := by
  have hack := h.sound.acknowledge (ackNr_lt datagram)
  have hnack := h.sound.acknowledge (ringSub_lt (ackNr datagram) 1)
  unfold Udpfs.finalPacket
  split
  · exact ⟨h, .nil⟩
  split
  · exact (h.withTx h.sound.clear).tryAgain hcount attempt recent
  split
  · exact ⟨h, .nil⟩
  split
  · exact ⟨h, sends_ack _ _⟩
  split
  · dsimp only
    split
    · exact ⟨(h.withTx hack.clear).confirm hcount, .nil⟩
    split
    · exact ⟨(h.withTx hack).confirm hcount, .nil⟩
    · exact ⟨h.withTx hack, .nil⟩
  split
  · exact (h.withTx hnack).retransmitFrom (ackNr datagram) recent
  · exact ⟨h.confirm hcount, .nil⟩

/-- One step keeps the invariant. -/
theorem Inv.next (h : Inv t k s) (i : Input) :
    ∃ k', Inv t k' (s.next t i).1 ∧ Sends t k k' (s.next t i).2 := by
  have hphase := h.phase
  unfold Sender.next
  split
  · rename_i hsending
    exact h.sendRound hsending
  · split
    · exact ⟨k, h.afterWindow _, .nil⟩
    · rename_i e rest _
      obtain ⟨hinv, hsends⟩ := h.retransmitFrom e.1 _
      exact ⟨k, hinv.afterWindow _, hsends⟩
  · exact ⟨k, h.afterWindow _, .nil⟩
  · exact ⟨k, h.windowPacket _ _ _⟩
  · rename_i hfinal
    rw [hfinal] at hphase
    exact ⟨k, h.tryAgain hphase _ _⟩
  · rename_i hfinal
    rw [hfinal] at hphase
    exact ⟨k, h.tryAgain hphase _ _⟩
  · rename_i hfinal
    rw [hfinal] at hphase
    exact ⟨k, h.finalPacket hphase _ _ _⟩
  · exact ⟨k, h, .nil⟩

/-! ## Runs -/

/-- The payload packets of a run that has sent `k` of them: each one for the first time after the
one before it, and again only while fewer than 4096 packets have followed it. -/
inductive Emits (t : Transfer) : Nat → List Bytes → Prop
  | nil : Emits t 0 []
  | next {k : Nat} {sent : List Bytes} (h : Emits t k sent) : Emits t (k + 1) (sent ++ [t.packet k])
  | again {k i : Nat} {sent : List Bytes} (h : Emits t k sent) (hi : i < k)
      (hle : k ≤ i + 0x1000) : Emits t k (sent ++ [t.packet i])

theorem Emits.append (hheader : t.WellFormed) (hk : k ≤ t.count) {sent out : List Bytes}
    (h : Emits t k sent)
    (hout : ∀ p ∈ out, (∃ i, i < k ∧ k ≤ i + 0x1000 ∧ p = t.packet i) ∨ isData p = false) :
    Emits t k (sent ++ out.filter isData) := by
  induction out generalizing sent with
  | nil => simpa using h
  | cons p rest ih =>
      have hrest := fun q hq => hout q (List.mem_cons_of_mem p hq)
      rcases hout p List.mem_cons_self with ⟨i, hi, hle, rfl⟩ | hack
      · rw [List.filter_cons_of_pos (Transfer.isData_packet hheader (by omega)),
          ← List.singleton_append, ← List.append_assoc]
        exact ih (h.again hi hle) hrest
      · rw [List.filter_cons_of_neg (by simp [hack])]
        exact ih h hrest

theorem Emits.sends (hheader : t.WellFormed) {k' : Nat} (hk : k' ≤ t.count) {sent out : List Bytes}
    (h : Emits t k sent) (hsends : Sends t k k' out) : Emits t k' (sent ++ out.filter isData) := by
  cases hsends with
  | next =>
      rw [List.filter_cons_of_pos (Transfer.isData_packet hheader (by omega)), List.filter_nil]
      exact h.next
  | again hout => exact h.append hheader hk hout

theorem inv_startTransfer (hheader : t.WellFormed) {acked : Nat} (hacked : acked < 0x1000)
    (lastRetx : Option Nat) :
    Inv t 1 (startTransfer t acked lastRetx).1 ∧
      (startTransfer t acked lastRetx).2 = [t.packet 0] := by
  have hpacket : buildPacket t.start t.rxExpected (t.header ++ t.data.sub 0 t.first)
      (t.data.length ≤ t.first) t.header.length = t.packet 0 := by
    have hseq : t.seq 0 = t.start := Nat.mod_eq_of_lt hheader.start
    rw [Transfer.packet, Transfer.payload, Transfer.fin, t.offset_one, Transfer.size_zero, hseq]
    rfl
  simp only [startTransfer, sendPacket, hpacket]
  refine ⟨⟨⟨?_, hacked, fun e he => ?_⟩, Nat.one_pos, Nat.le_add_right 1 _, t.offset_one.symm,
    trivial⟩, trivial⟩
  · rfl
  · obtain rfl := List.mem_singleton.mp he
    refine ⟨0, Nat.one_pos, by omega, ?_⟩
    rw [Transfer.seq, Nat.add_zero, Nat.mod_eq_of_lt hheader.start]

theorem run_append (t : Transfer) (acked : Nat) (lastRetx : Option Nat) (inputs : List Input)
    (i : Input) :
    run t acked lastRetx (inputs ++ [i]) =
      (((run t acked lastRetx inputs).1.next t i).1,
        (run t acked lastRetx inputs).2 ++ ((run t acked lastRetx inputs).1.next t i).2) := by
  rw [run, List.foldl_append]
  rfl

/-- A whole run keeps the invariant and sends the packets of the transfer. -/
theorem run_emits (hheader : t.WellFormed) {acked : Nat} (hacked : acked < 0x1000)
    (lastRetx : Option Nat) (inputs : List Input) :
    ∃ k, Inv t k (run t acked lastRetx inputs).1 ∧
      Emits t k ((run t acked lastRetx inputs).2.filter isData) := by
  induction inputs using List.reverseRecOn with
  | nil =>
      obtain ⟨hinv, hout⟩ := inv_startTransfer hheader hacked lastRetx
      refine ⟨1, hinv, ?_⟩
      rw [run, List.foldl_nil, hout,
        List.filter_cons_of_pos (Transfer.isData_packet hheader (by unfold Transfer.count; omega)),
        List.filter_nil, ← List.nil_append [t.packet 0]]
      exact Emits.next .nil
  | append_singleton inputs i ih =>
      obtain ⟨k, hinv, hemits⟩ := ih
      obtain ⟨k', hinv', hsends⟩ := hinv.next i
      refine ⟨k', ?_, ?_⟩
      · rw [run_append]
        exact hinv'
      · rw [run_append, List.filter_append]
        exact hemits.sends hheader hinv'.le hsends

/-! ## Confirmation -/

/-- The number of the last packet. -/
def Transfer.finSeq (t : Transfer) : Nat := t.seq (t.count - 1)

/-- An acknowledgement that covers the last packet: an ACK of its number, or a NACK that asks for
the number behind it. -/
def Covers (t : Transfer) (datagram : Bytes) : Prop :=
  packetType datagram = DATA ∧
    if dataFlags datagram % 2 = ACK then ackNr datagram = t.finSeq
    else payloadSize datagram = 0 ∧ ringSub (ackNr datagram) 1 = t.finSeq

/-- Such an acknowledgement was received after the last packet had been sent. -/
def Confirmed (t : Transfer) (acked : Nat) (lastRetx : Option Nat) (inputs : List Input) : Prop :=
  ∃ before datagram recent after, inputs = before ++ .packet datagram recent :: after ∧
    (∃ attempt, (run t acked lastRetx before).1.phase = .final attempt) ∧ Covers t datagram

/-- The last packet is in the buffer. -/
def LastHeld (t : Transfer) (tx : Tx) : Prop := ∃ e ∈ tx.buffer, e.1 = t.finSeq

/-- The last packet stays in the buffer until it is confirmed, and no success is reported before. -/
structure Held (t : Transfer) (confirmed : Prop) (s : Sender) : Prop where
  sending : s.phase = .sending → t.data.length ≤ s.offset → LastHeld t s.tx ∨ confirmed
  final : (∃ attempt, s.phase = .final attempt) → LastHeld t s.tx ∨ confirmed
  success : s.phase = .ended (some true) → confirmed

variable {confirmed : Prop}

/-- A phase in which nothing is to be shown. -/
theorem Held.of_offset (hoffset : s.offset < t.data.length) (hfinal : ∀ a, s.phase ≠ .final a)
    (hsuccess : s.phase ≠ .ended (some true)) : Held t confirmed s where
  sending _ hle := absurd hoffset (Nat.not_lt.mpr hle)
  final h := absurd h.choose_spec (hfinal _)
  success h := absurd h hsuccess

theorem Held.of_final (hphase : ∃ a, s.phase = .final a) (h : LastHeld t s.tx ∨ confirmed) :
    Held t confirmed s where
  sending hs := by
    obtain ⟨a, ha⟩ := hphase
    rw [ha] at hs
    exact Phase.noConfusion hs
  final _ := h
  success hs := by
    obtain ⟨a, ha⟩ := hphase
    rw [ha] at hs
    exact Phase.noConfusion hs

theorem Held.of_ended {result : Option Bool} (hphase : s.phase = .ended result)
    (h : result = some true → confirmed) : Held t confirmed s where
  sending hs := by
    rw [hphase] at hs
    exact Phase.noConfusion hs
  final hs := by
    obtain ⟨a, ha⟩ := hs
    rw [hphase] at ha
    exact Phase.noConfusion ha
  success hs := by
    rw [hphase] at hs
    exact h (Phase.ended.inj hs)

theorem Inv.finSeq (h : Inv t k s) (hcount : k = t.count) : ringSub s.tx.seqNr 1 = t.finSeq := by
  have hpos := h.pos
  rw [h.sound.seqNr, Transfer.finSeq, ← hcount]
  unfold ringSub Transfer.seq
  omega

/-- An acknowledgement that does not cover the last packet leaves it in the buffer. -/
theorem Inv.lastHeld_acknowledge (h : Inv t k s) (hcount : k = t.count) {n : Nat} (hn : n < 0x1000)
    (hne : s.tx.accepts n → n ≠ t.finSeq) (hlast : LastHeld t s.tx) :
    LastHeld t (s.tx.acknowledge n) := by
  unfold Tx.acknowledge
  split
  · rename_i haccepts
    obtain ⟨e, he, hseq⟩ := hlast
    have hnumber : s.tx.seqNr < 0x1000 := by
      rw [h.sound.seqNr]
      exact Nat.mod_lt _ (by decide)
    have hfin := h.finSeq hcount
    refine ⟨e, List.mem_filter.mpr ⟨he, ?_⟩, hseq⟩
    rw [hseq, ← hfin]
    exact keeps_last hn hnumber haccepts (by rw [hfin]; exact hne haccepts)
  · exact hlast

theorem Held.afterWindow (hoffset : s.offset < t.data.length) (oldAcked : Nat) :
    Held t confirmed (afterWindow s oldAcked) := by
  unfold Udpfs.afterWindow
  split
  · split
    · exact .of_ended rfl nofun
    · exact .of_offset hoffset nofun nofun
  · exact .of_offset hoffset nofun nofun

theorem retransmitFrom_same (s : Sender) (seq : Nat) (recent : Bool) :
    (retransmitFrom s seq recent).1.tx = s.tx ∧
      (retransmitFrom s seq recent).1.offset = s.offset ∧
      (retransmitFrom s seq recent).1.phase = s.phase :=
  ⟨rfl, rfl, rfl⟩

theorem Held.tryAgain (hlast : s.tx.buffer ≠ [] → LastHeld t s.tx ∨ confirmed) (attempt : Nat)
    (recent : Bool) : Held t confirmed (tryAgain s attempt recent).1 := by
  unfold Udpfs.tryAgain
  split
  · exact .of_ended rfl nofun
  · rename_i e rest hbuffer
    obtain ⟨htx, -, -⟩ := retransmitFrom_same s e.1 recent
    dsimp only
    split
    · refine .of_final ⟨_, rfl⟩ ?_
      rw [htx]
      exact hlast (by simp [hbuffer])
    · exact .of_ended rfl nofun

theorem Held.confirm (hlast : LastHeld t s.tx ∨ confirmed) : Held t confirmed (confirm s) := by
  refine .of_ended rfl fun hsuccess => ?_
  rcases hlast with ⟨e, he, -⟩ | hconfirmed
  · have hempty : s.tx.buffer = [] := by simpa using (of_decide_eq_true (Option.some.inj hsuccess)).2
    rw [hempty] at he
    exact absurd he List.not_mem_nil
  · exact hconfirmed

theorem Held.windowPacket {oldAcked : Nat} (hphase : s.phase = .window oldAcked)
    (hoffset : s.offset < t.data.length) (datagram : Bytes) (recent : Bool) :
    Held t confirmed (windowPacket t s oldAcked datagram recent).1 := by
  have hwaiting : ∀ s' : Sender, s'.offset = s.offset → s'.phase = s.phase →
      Held t confirmed s' := by
    intro s' ho hp
    refine .of_offset (by rw [ho]; exact hoffset) (fun a => ?_) ?_
    · rw [hp, hphase]
      exact nofun
    · rw [hp, hphase]
      exact nofun
  unfold Udpfs.windowPacket
  split
  · exact hwaiting s rfl rfl
  split
  · exact .of_ended rfl nofun
  split
  · exact hwaiting s rfl rfl
  split
  · exact hwaiting s rfl rfl
  split
  · dsimp only
    split
    · exact .of_ended rfl nofun
    split
    · exact Held.afterWindow (s := { s with tx := s.tx.acknowledge (ackNr datagram) }) hoffset oldAcked
    · exact hwaiting _ rfl rfl
  split
  · obtain ⟨-, ho, hp⟩ := retransmitFrom_same
      { s with tx := s.tx.acknowledge (ringSub (ackNr datagram) 1) } (ackNr datagram) recent
    dsimp only
    split
    · exact .afterWindow (by rw [ho]; exact hoffset) oldAcked
    · exact hwaiting _ ho hp
  · exact .of_ended rfl nofun

theorem Held.finalPacket (h : Inv t k s) (hcount : k = t.count) {attempt : Nat}
    (hphase : s.phase = .final attempt) (hlast : LastHeld t s.tx ∨ confirmed) (datagram : Bytes)
    (recent : Bool) (hcovers : Covers t datagram → confirmed) :
    Held t confirmed (finalPacket t s attempt datagram recent).1 := by
  have hfin := h.finSeq hcount
  unfold Udpfs.finalPacket
  split
  · exact .of_final ⟨attempt, hphase⟩ hlast
  split
  · exact .tryAgain (fun hne => absurd rfl hne) attempt recent
  split
  · exact .of_final ⟨attempt, hphase⟩ hlast
  rename_i hdata
  rw [not_not] at hdata
  split
  · exact .of_final ⟨attempt, hphase⟩ hlast
  split
  · rename_i hflag
    have hack : LastHeld t (s.tx.acknowledge (ackNr datagram)) ∨ confirmed := by
      by_cases hnumber : ackNr datagram = t.finSeq
      · exact Or.inr (hcovers ⟨hdata, by rw [if_pos hflag]; exact hnumber⟩)
      · exact hlast.imp_left (h.lastHeld_acknowledge hcount (ackNr_lt datagram) fun _ => hnumber)
    dsimp only
    split
    · rename_i haccepted
      have hseq : (s.tx.acknowledge (ackNr datagram)).seqNr = s.tx.seqNr := by
        unfold Tx.acknowledge
        split <;> rfl
      refine .confirm (Or.inr (hcovers ⟨hdata, ?_⟩))
      rw [if_pos hflag, ← hfin, ← hseq]
      exact haccepted.2
    split
    · exact .confirm hack
    · exact .of_final ⟨attempt, hphase⟩ hack
  rename_i hflag
  split
  · rename_i hpayload
    obtain ⟨htx, -, hp⟩ := retransmitFrom_same
      { s with tx := s.tx.acknowledge (ringSub (ackNr datagram) 1) } (ackNr datagram) recent
    refine .of_final ⟨attempt, hp.trans hphase⟩ ?_
    rw [htx]
    by_cases hnumber : ringSub (ackNr datagram) 1 = t.finSeq
    · exact Or.inr (hcovers ⟨hdata, by rw [if_neg hflag]; exact ⟨hpayload, hnumber⟩⟩)
    · exact hlast.imp_left (h.lastHeld_acknowledge hcount (ringSub_lt _ _) fun _ => hnumber)
  · exact .confirm hlast

theorem Held.sendRound (h : Inv t k s) (hphase : s.phase = .sending)
    (hheld : Held t confirmed s) : Held t confirmed (sendRound t s).1 := by
  by_cases hk : k < t.count
  · by_cases hflight : s.tx.inFlight < SEND_WINDOW
    · rw [h.sendRound_packet hk hflight]
      refine ⟨fun _ hle => Or.inl ?_, fun hf => ?_, fun hs => ?_⟩
      · have hlast : k = t.count - 1 := by
          have hsucc : t.offset (k + 1) < t.data.length ↔ k + 1 < t.count :=
            t.offset_lt_iff (Nat.succ_pos k)
          change t.data.length ≤ t.offset (k + 1) at hle
          omega
        refine ⟨(s.tx.seqNr, _), List.mem_append_right _ (List.mem_singleton_self _), ?_⟩
        change s.tx.seqNr = _
        rw [Transfer.finSeq, h.sound.seqNr, ← hlast]
      · obtain ⟨a, ha⟩ := hf
        simp [hphase] at ha
      · simp [hphase] at hs
    · rw [h.sendRound_full hk hflight]
      refine .of_offset ?_ nofun nofun
      rw [h.offset]
      exact (t.offset_lt_iff h.pos).mpr hk
  · rw [h.sendRound_done hk]
    refine .of_final ⟨0, rfl⟩ (hheld.sending hphase ?_)
    rw [h.offset]
    exact Nat.not_lt.mp (mt (t.offset_lt_iff h.pos).mp hk)

theorem Held.next (h : Inv t k s) (hheld : Held t confirmed s) (i : Input)
    (hcovers : ∀ datagram recent attempt, i = .packet datagram recent →
      s.phase = .final attempt → Covers t datagram → confirmed) :
    Held t confirmed (s.next t i).1 := by
  have hphase := h.phase
  have hoffset : k < t.count → s.offset < t.data.length := fun hk => by
    rw [h.offset]
    exact (t.offset_lt_iff h.pos).mpr hk
  unfold Sender.next
  split
  · rename_i hsending
    exact hheld.sendRound h hsending
  · rename_i hwindow
    rw [hwindow] at hphase
    split
    · exact .afterWindow (hoffset hphase) _
    · rename_i e rest _
      obtain ⟨-, ho, -⟩ := retransmitFrom_same s e.1 _
      exact .afterWindow (by rw [ho]; exact hoffset hphase) _
  · rename_i hwindow
    rw [hwindow] at hphase
    exact .afterWindow (hoffset hphase) _
  · rename_i hwindow
    rw [hwindow] at hphase
    exact .windowPacket hwindow (hoffset hphase) _ _
  · rename_i hfinal
    exact .tryAgain (fun _ => hheld.final ⟨_, hfinal⟩) _ _
  · rename_i hfinal
    exact .tryAgain (fun _ => hheld.final ⟨_, hfinal⟩) _ _
  · rename_i hfinal
    rw [hfinal] at hphase
    exact .finalPacket h hphase hfinal (hheld.final ⟨_, hfinal⟩) _ _
      (hcovers _ _ _ rfl hfinal)
  · exact hheld

theorem Confirmed.append {acked : Nat} {lastRetx : Option Nat} {inputs : List Input}
    (h : Confirmed t acked lastRetx inputs) (i : Input) :
    Confirmed t acked lastRetx (inputs ++ [i]) := by
  obtain ⟨before, datagram, recent, after, rfl, hfinal, hcovers⟩ := h
  exact ⟨before, datagram, recent, after ++ [i], by simp, hfinal, hcovers⟩

theorem Held.mono {confirmed' : Prop} (h : Held t confirmed s) (himp : confirmed → confirmed') :
    Held t confirmed' s :=
  ⟨fun hs hle => (h.sending hs hle).imp_right himp, fun hf => (h.final hf).imp_right himp,
    fun hs => himp (h.success hs)⟩

/-- A run reports success only after the last packet was confirmed. -/
theorem run_held (hheader : t.WellFormed) {acked : Nat} (hacked : acked < 0x1000)
    (lastRetx : Option Nat) (inputs : List Input) :
    Held t (Confirmed t acked lastRetx inputs) (run t acked lastRetx inputs).1 := by
  induction inputs using List.reverseRecOn with
  | nil =>
      obtain ⟨hinv, -⟩ := inv_startTransfer hheader hacked lastRetx
      refine ⟨fun _ hle => Or.inl ?_, fun hf => ?_, fun hs => ?_⟩
      · have hcount : t.count = 1 := by
          have hone := t.offset_lt_iff Nat.one_pos
          have hpos := hinv.le
          change t.data.length ≤ t.first at hle
          rw [t.offset_one] at hone
          omega
        refine ⟨(t.start, _), List.mem_singleton_self _, ?_⟩
        rw [Transfer.finSeq, hcount, Transfer.seq]
        exact (Nat.mod_eq_of_lt hheader.start).symm
      · exact Phase.noConfusion hf.choose_spec
      · exact Phase.noConfusion hs
  | append_singleton inputs i ih =>
      obtain ⟨k, hinv, -⟩ := run_emits hheader hacked lastRetx inputs
      rw [run_append]
      refine Held.next hinv (ih.mono fun h => h.append i) i ?_
      rintro datagram recent attempt rfl hfinal hcovers
      exact ⟨inputs, datagram, recent, [], rfl, ⟨attempt, hfinal⟩, hcovers⟩

/-! ## Reassembly -/

theorem Emits.mem {sent : List Bytes} (h : Emits t k sent) {p : Bytes} (hp : p ∈ sent) :
    ∃ i, i < k ∧ p = t.packet i := by
  induction h with
  | nil => exact absurd hp List.not_mem_nil
  | next h ih =>
      rcases List.mem_append.mp hp with hold | hnew
      · obtain ⟨i, hi, rfl⟩ := ih hold
        exact ⟨i, by omega, rfl⟩
      · exact ⟨_, Nat.lt_succ_self _, List.mem_singleton.mp hnew⟩
  | again h hi hle ih =>
      rcases List.mem_append.mp hp with hold | hnew
      · exact ih hold
      · exact ⟨_, hi, List.mem_singleton.mp hnew⟩

theorem Transfer.seqNr_packet (t : Transfer) (i : Nat) : seqNr (t.packet i) = t.seq i := by
  rw [packet, seqNr_buildPacket]
  exact Nat.mod_mod _ _

/-- In a transfer of at most 4096 packets a number stands for one packet. -/
theorem Emits.unique {sent : List Bytes} (h : Emits t k sent) (hk : k ≤ 0x1000) {p q : Bytes}
    (hp : p ∈ sent) (hq : q ∈ sent) (hseq : seqNr p = seqNr q) : p = q := by
  obtain ⟨i, hi, rfl⟩ := h.mem hp
  obtain ⟨j, hj, rfl⟩ := h.mem hq
  rw [t.seqNr_packet, t.seqNr_packet] at hseq
  have hij : i = j := by
    unfold Transfer.seq at hseq
    omega
  rw [hij]

theorem Transfer.dataFlags_packet (t : Transfer) (i : Nat) :
    dataFlags (t.packet i) = if t.count ≤ i + 1 then FIN else 0 := by
  rw [packet, dataFlags_buildPacket]
  simp only [t.fin_iff]

/-- Every run of a transfer. The payload packets it sends are those of the transfer, each for the
first time in its turn; a packet is sent again only while it is the last one with its number; with
at most 4096 packets, those of one number are the same. One of each makes up the header, the data
and less than four zero bytes; only the last one has FIN and padding. Success is reported only
after an acknowledgement that covers the last packet. -/
theorem transfer_reassembly (hheader : t.WellFormed) {acked : Nat} (hacked : acked < 0x1000)
    (lastRetx : Option Nat) (inputs : List Input) :
    (∃ k, k ≤ t.count ∧ Emits t k ((run t acked lastRetx inputs).2.filter isData) ∧
      ((run t acked lastRetx inputs).1.phase = .ended (some true) → k = t.count)) ∧
    (t.count ≤ 0x1000 → ∀ p ∈ (run t acked lastRetx inputs).2, ∀ q ∈ (run t acked lastRetx inputs).2,
      isData p → isData q → seqNr p = seqNr q → p = q) ∧
    (∃ pad, pad < 4 ∧ (List.range t.count).flatMap (fun i => (t.packet i).drop 6) =
      t.header ++ t.data ++ List.replicate pad 0) ∧
    (∀ i, i < t.count → seqNr (t.packet i) = t.seq i ∧ ((t.packet i).drop 6).length ≤ 1408 ∧
      (dataFlags (t.packet i) = if i + 1 = t.count then FIN else 0) ∧
      (i + 1 < t.count → (t.packet i).drop 6 = t.payload i)) ∧
    ((run t acked lastRetx inputs).1.phase = .ended (some true) →
      Confirmed t acked lastRetx inputs) := by
  obtain ⟨k, hinv, hemits⟩ := run_emits hheader hacked lastRetx inputs
  refine ⟨⟨k, hinv.le, hemits, fun hsuccess => ?_⟩, ?_, Transfer.flatMap_all hheader, ?_, ?_⟩
  · have hphase := hinv.phase
    rw [hsuccess] at hphase
    exact hphase
  · intro hcount p hp q hq hdatap hdataq hseq
    exact hemits.unique (hinv.le.trans hcount) (List.mem_filter.mpr ⟨hp, hdatap⟩)
      (List.mem_filter.mpr ⟨hq, hdataq⟩) hseq
  · intro i hi
    refine ⟨t.seqNr_packet i, Transfer.length_drop_packet hheader i, ?_, fun hlt => ?_⟩
    · rw [t.dataFlags_packet]
      congr 1
      exact propext (by omega)
    · rw [Transfer.drop_packet, Transfer.padding_eq_nil (Transfer.size_of_lt hlt hheader).1,
        List.append_nil]
  · exact (run_held hheader hacked lastRetx inputs).success

/-- A reply of five bytes. -/
def fiveBytes : Transfer := ⟨List.replicate 8 7, [1, 2, 3, 4, 5], 4095, 1⟩

/-- The acknowledgement of a number. -/
def ackPacket (seq : Nat) : Bytes := packHeader DATA 0 ++ packDataHeader seq ACK 0 0

theorem transfer_reassembly_fiveBytes :
    (run fiveBytes 4094 none [.work, .empty false, .packet (ackPacket 4095) false]).1.phase =
        .ended (some true) ∧
      Confirmed fiveBytes 4094 none [.work, .empty false, .packet (ackPacket 4095) false] := by
  have hsuccess : (run fiveBytes 4094 none
      [.work, .empty false, .packet (ackPacket 4095) false]).1.phase = .ended (some true) := by
    decide +kernel
  exact ⟨hsuccess,
    (transfer_reassembly (t := fiveBytes) ⟨by decide, by decide⟩ (by decide) none _).2.2.2.2
      hsuccess⟩

/-! ## A transfer of more than 4096 packets -/

section Long

variable {acked : Nat} {lastRetx : Option Nat}

/-- A run that has just sent the packet before `k`, with at most a full window in flight. -/
structure Reaches (t : Transfer) (acked : Nat) (lastRetx : Option Nat) (k : Nat)
    (inputs : List Input) : Prop where
  inv : Inv t k (run t acked lastRetx inputs).1
  phase : (run t acked lastRetx inputs).1.phase = .sending
  flight : (run t acked lastRetx inputs).1.tx.inFlight ≤ SEND_WINDOW
  sent : ∀ i, i < k → t.packet i ∈ (run t acked lastRetx inputs).2

theorem fields_ackPacket {seq : Nat} (h : seq < 0x1000) :
    (ackPacket seq).length = 6 ∧ packetType (ackPacket seq) = DATA ∧
      dataFlags (ackPacket seq) = ACK ∧ payloadSize (ackPacket seq) = 0 ∧
      ackNr (ackPacket seq) = seq := by
  have hfield := field_packDataHeader 0 DATA seq ACK 0 0 []
  have hheader := field_packHeader 0 DATA (packDataHeader seq ACK 0 0)
  have hack : ACK = 1 := rfl
  have hdata : DATA = 2 := rfl
  rw [List.append_nil] at hfield
  refine ⟨by simp [ackPacket, packHeader, packDataHeader], ?_, ?_, ?_, ?_⟩
  · rw [packetType, ackPacket, hheader]
    omega
  · rw [dataFlags, ackPacket, hfield]
    omega
  · rw [payloadSize, ackPacket, hfield]
    omega
  · rw [ackNr, ackPacket, hfield]
    omega

theorem mem_run_append {inputs : List Input} {p : Bytes} (h : p ∈ (run t acked lastRetx inputs).2)
    (i : Input) : p ∈ (run t acked lastRetx (inputs ++ [i])).2 := by
  rw [run_append]
  exact List.mem_append_left _ h

/-- Room in the window: the next round sends the next packet. -/
theorem Reaches.work {inputs : List Input} (h : Reaches t acked lastRetx k inputs)
    (hk : k < t.count) (hflight : (run t acked lastRetx inputs).1.tx.inFlight < SEND_WINDOW) :
    Reaches t acked lastRetx (k + 1) (inputs ++ [.work]) := by
  have hwindow : SEND_WINDOW = 8 := rfl
  have hnext : (run t acked lastRetx inputs).1.next t .work =
      sendRound t (run t acked lastRetx inputs).1 := by
    simp only [Sender.next, h.phase]
  have hround := h.inv.sendRound_packet hk hflight
  constructor
  · rw [run_append, hnext, hround]
    exact ⟨h.inv.sound.packet hflight, Nat.succ_pos k, hk, rfl, by rw [h.phase]; trivial⟩
  · rw [run_append, hnext, hround]
    exact h.phase
  · rw [run_append, hnext, hround]
    simp only [Tx.next, Tx.inFlight, ringSub] at *
    omega
  · intro i hi
    rcases Nat.lt_succ_iff_lt_or_eq.mp hi with hlt | rfl
    · exact mem_run_append (h.sent i hlt) .work
    · rw [run_append, hnext, hround]
      exact List.mem_append_right _ (List.mem_singleton_self _)

/-- The acknowledgement of the last packet sent empties a full window. -/
theorem windowPacket_ack (h : Inv t k s) (hflight : s.tx.inFlight = SEND_WINDOW) :
    windowPacket t s s.tx.acked (ackPacket (t.seq (k - 1))) false =
      ({ s with tx := s.tx.acknowledge (t.seq (k - 1)), retries := 0, phase := .sending }, []) ∧
      (s.tx.acknowledge (t.seq (k - 1))).inFlight = 0 := by
  have hwindow : SEND_WINDOW = 8 := rfl
  have hpos := h.pos
  have hseq := h.sound.seqNr
  have hacked := h.sound.acked
  have hlast : t.seq (k - 1) < 0x1000 := Nat.mod_lt _ (by decide)
  obtain ⟨hlength, htype, hflags, hpayload, hnumber⟩ := fields_ackPacket hlast
  have haccepts : s.tx.accepts (t.seq (k - 1)) = true := by
    simp only [Tx.accepts, Bool.not_eq_true', Bool.or_eq_false_iff, decide_eq_false_iff_not]
    simp only [Tx.inFlight, ringSub, Transfer.seq] at *
    omega
  have hack : s.tx.acknowledge (t.seq (k - 1)) = ⟨s.tx.seqNr, t.seq (k - 1),
      s.tx.buffer.filter fun e => keeps (t.seq (k - 1)) e.1⟩ := by
    rw [Tx.acknowledge, if_pos haccepts]
  have hmoved : t.seq (k - 1) ≠ s.tx.acked := by
    simp only [Tx.inFlight, ringSub, Transfer.seq] at *
    omega
  constructor
  · unfold windowPacket
    rw [if_neg (by omega), htype, if_neg (by decide), if_neg (by decide), isResent, hpayload,
      if_neg (by simp), hflags, if_pos (by decide), hnumber]
    simp only [Nat.lt_irrefl, if_false]
    rw [if_pos (by rw [hack]; exact hmoved), afterWindow, if_neg (by rw [hack]; exact hmoved)]
  · rw [hack]
    simp only [Tx.inFlight, ringSub, Transfer.seq] at *
    omega

/-- A full window: the sender waits, and the acknowledgement of the last packet empties it. -/
theorem Inv.drain (h : Inv t k s) (hphase : s.phase = .sending) (hk : k < t.count)
    (hfull : s.tx.inFlight = SEND_WINDOW) :
    (s.next t .work).2 = [] ∧ ∃ s',
      (s.next t .work).1.next t (.packet (ackPacket (t.seq (k - 1))) false) = (s', []) ∧
        Inv t k s' ∧ s'.phase = .sending ∧ s'.tx.inFlight = 0 := by
  have hwaits : s.next t .work = ({ s with phase := .window s.tx.acked }, []) := by
    simp only [Sender.next, hphase, h.sendRound_full hk hfull.not_lt]
  have hinv : Inv t k { s with phase := .window s.tx.acked } := h.change h.sound rfl hk
  obtain ⟨hstep, hempty⟩ := windowPacket_ack hinv hfull
  have hinv' := (hinv.windowPacket s.tx.acked (ackPacket (t.seq (k - 1))) false).1
  rw [hstep] at hinv'
  rw [hwaits]
  refine ⟨rfl, _, ?_, hinv', rfl, hempty⟩
  simp only [Sender.next]
  exact hstep

/-- The console acknowledges all of a full window. -/
theorem Reaches.drain {inputs : List Input} (h : Reaches t acked lastRetx k inputs)
    (hk : k < t.count) (hflight : ¬ (run t acked lastRetx inputs).1.tx.inFlight < SEND_WINDOW) :
    ∃ inputs', Reaches t acked lastRetx k inputs' ∧
      (run t acked lastRetx inputs').1.tx.inFlight < SEND_WINDOW := by
  obtain ⟨hquiet, s', hnext, hinv, hphase, hempty⟩ :=
    h.inv.drain h.phase hk (Nat.le_antisymm h.flight (Nat.not_lt.mp hflight))
  have hrun : run t acked lastRetx
      (inputs ++ [.work] ++ [.packet (ackPacket (t.seq (k - 1))) false]) =
        (s', (run t acked lastRetx inputs).2) := by
    rw [run_append, run_append, hquiet, hnext, List.append_nil, List.append_nil]
  have hroom : s'.tx.inFlight < SEND_WINDOW := by
    rw [hempty]
    decide
  refine ⟨inputs ++ [.work] ++ [.packet (ackPacket (t.seq (k - 1))) false], ?_, ?_⟩
  · constructor
    · rw [hrun]
      exact hinv
    · rw [hrun]
      exact hphase
    · rw [hrun]
      exact hroom.le
    · rw [hrun]
      exact h.sent
  · rw [hrun]
    exact hroom

theorem Reaches.succ {inputs : List Input} (h : Reaches t acked lastRetx k inputs)
    (hk : k < t.count) : ∃ inputs', Reaches t acked lastRetx (k + 1) inputs' := by
  by_cases hflight : (run t acked lastRetx inputs).1.tx.inFlight < SEND_WINDOW
  · exact ⟨_, h.work hk hflight⟩
  · obtain ⟨inputs', hreaches, hroom⟩ := h.drain hk hflight
    exact ⟨_, hreaches.work hk hroom⟩

/-- A console that acknowledges every window gets every packet. -/
theorem exists_reaches (hheader : t.WellFormed) (hacked : acked < 0x1000)
    (hstart : ringSub (t.start + 1) (acked + 1) ≤ SEND_WINDOW) (hk : k < t.count) :
    ∃ inputs, Reaches t acked lastRetx (k + 1) inputs := by
  induction k with
  | zero =>
      obtain ⟨hinv, hout⟩ := inv_startTransfer hheader hacked lastRetx
      refine ⟨[], hinv, rfl, ?_, ?_⟩
      · have hseq : t.start < 0x1000 := hheader.start
        change ringSub ((t.start + 1) % 0x1000 : Nat) (acked + 1) ≤ SEND_WINDOW
        unfold ringSub at *
        omega
      · intro i hi
        obtain rfl : i = 0 := by omega
        rw [run, List.foldl_nil, hout]
        exact List.mem_singleton_self _
  | succ k ih =>
      obtain ⟨inputs, hreaches⟩ := ih (Nat.lt_of_succ_lt hk)
      exact hreaches.succ hk

/-- The number of header words in a packet. -/
def hdrWords (datagram : Bytes) : Nat := datagram.field 2 4 / 0x4000 % 0x10

theorem hdrWords_packet (i : Nat) :
    hdrWords (t.packet i) = (if i = 0 then t.header.length else 0) / 4 % 0x10 := by
  rw [Transfer.packet, buildPacket_append, hdrWords, field_packDataHeader]
  have hfin : FIN = 2 := rfl
  split <;> omega

end Long

/-- A reply of 8 MiB, the largest that the default limit allows. -/
def eightMiB : Transfer := ⟨List.replicate 8 0, List.replicate 0x800000 0, 1, 1⟩

theorem count_eightMiB : eightMiB.count = 5958 := by
  have hlength : eightMiB.data.length = 0x800000 := List.length_replicate
  have hheader : eightMiB.header.length = 8 := List.length_replicate
  have hchunk : eightMiB.chunk = 1408 := by
    rw [Transfer.chunk, hlength]
    decide
  rw [Transfer.count, Transfer.first, hchunk, hlength, hheader]
  decide

/-- Its first packet and the one 4096 packets later have the same number, and differ. -/
theorem not_identical_eightMiB : eightMiB.header.length = 8 ∧ ∃ inputs p q,
    p ∈ (run eightMiB 0 none inputs).2 ∧ q ∈ (run eightMiB 0 none inputs).2 ∧
      isData p ∧ isData q ∧ seqNr p = seqNr q ∧ p ≠ q := by
  have hheader : eightMiB.WellFormed := ⟨List.length_replicate, by decide⟩
  have hcount := count_eightMiB
  obtain ⟨inputs, hreaches⟩ : ∃ inputs, Reaches eightMiB 0 none 4097 inputs :=
    exists_reaches hheader (by decide) (by decide) (by omega)
  refine ⟨List.length_replicate, inputs, eightMiB.packet 0, eightMiB.packet 4096,
    hreaches.sent 0 (by omega), hreaches.sent 4096 (by omega),
    Transfer.isData_packet hheader (by omega), Transfer.isData_packet hheader (by omega), ?_, ?_⟩
  · rw [Transfer.seqNr_packet, Transfer.seqNr_packet]
    decide
  · intro heq
    have hwords := congrArg hdrWords heq
    rw [hdrWords_packet, hdrWords_packet, hheader.header] at hwords
    exact absurd hwords (by decide)

end Ps2Servers.Udpfs
