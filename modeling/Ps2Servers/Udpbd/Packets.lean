import Ps2Servers.Udpbd.Edge
import Ps2Servers.Udpbd.Server

/-!
# The packets of a read

Both UDPBD servers cut a read into packets of blocks. For a request inside the image
they send the same datagrams, whose payloads are the bytes asked for, in blocks as
large as the fewest packets allow. Behind the end of the image the one sends zeros and
the other nothing.
-/

namespace Ps2Servers.Udpbd.Packets

open Effects

/-- The bytes at an offset, and zeros past the end. -/
def padded (content : Bytes) (offset size : Nat) : Bytes :=
  let data := content.sub offset size
  data ++ List.replicate (size - data.length) 0

/-- The packets of so many blocks. -/
def cut (content : Bytes) (cmdid shift : Nat) : Nat → Nat → Nat → Nat → List Bytes
  | 0, _, _, _ => []
  | fuel + 1, blocksLeft, offset, cmdpkt =>
      if blocksLeft = 0 then []
      else
        let blockCount := min blocksLeft (Image.RDMA_MAX_PAYLOAD / Image.blockSize shift)
        let size := blockCount * Image.blockSize shift
        (Image.packHeader Image.CMD_READ_RDMA cmdid cmdpkt ++
          (Image.packBlockType shift blockCount ++ padded content offset size)) ::
          cut content cmdid shift fuel (blocksLeft - blockCount) (offset + size)
            ((cmdpkt + 1) % 0x100)

/-- The packets that leave the socket: sending ends with the first that does not. -/
def delivered (sendable : Nat → Bool) : Nat → List Bytes → List Bytes
  | _, [] => []
  | n, p :: rest => if sendable n then p :: delivered sendable (n + 1) rest else []

/-- A quotient, rounded up. -/
def ceil (n d : Nat) : Nat := (n + d - 1) / d

/-- How many packets so many sectors take in blocks of a size. -/
def packetCount (shift sectors : Nat) : Nat :=
  ceil (sectors * (Image.SECTOR_SIZE / Image.blockSize shift))
    (Image.RDMA_MAX_PAYLOAD / Image.blockSize shift)

/-! ## Payloads -/

theorem length_padded (content : Bytes) (offset size : Nat) :
    (padded content offset size).length = size := by
  have hle := content.sub_length_le offset size
  unfold padded
  rw [List.length_append, List.length_replicate]
  omega

/-- Consecutive pieces join. -/
theorem padded_append (content : Bytes) (offset a b : Nat) :
    padded content offset a ++ padded content (offset + a) b = padded content offset (a + b) := by
  apply List.ext_getElem?
  have hget : ∀ o n i, (padded content o n)[i]? =
      if i < n then some (content[o + i]?.getD 0) else none := by
    intro o n i
    have hlen : (content.sub o n).length = min n (content.length - o) := by
      unfold Bytes.sub
      rw [List.length_take, List.length_drop]
    unfold padded
    dsimp only
    rw [List.getElem?_append, hlen, Bytes.getElem?_sub, List.getElem?_replicate]
    by_cases hi : i < n
    · rw [if_pos hi]
      by_cases hin : o + i < content.length
      · rw [if_pos (by omega), if_pos hi, List.getElem?_eq_getElem hin]
        rfl
      · rw [if_neg (by omega), if_pos (by omega), if_pos hi, List.getElem?_eq_none (by omega)]
        rfl
    · rw [if_neg hi, if_neg (by omega), if_neg (by omega), if_neg hi]
  intro i
  rw [List.getElem?_append, length_padded, hget, hget, hget]
  by_cases hi : i < a
  · rw [if_pos hi, if_pos hi, if_pos (by omega)]
  · rw [if_neg hi]
    by_cases hb : i < a + b
    · rw [if_pos (by omega), if_pos hb, Nat.add_assoc, Nat.add_sub_cancel' (by omega)]
    · rw [if_neg (by omega), if_neg hb]

/-- Past the end there are only zeros, from whatever offset. -/
theorem padded_of_length_le {content : Bytes} {o o' : Nat} (h : content.length ≤ o)
    (h' : content.length ≤ o') (size : Nat) : padded content o size = padded content o' size := by
  unfold padded Bytes.sub
  rw [List.drop_eq_nil_of_le h, List.drop_eq_nil_of_le h']

theorem length_cut_header (cmdid cmdpkt shift count : Nat) :
    (Image.packHeader Image.CMD_READ_RDMA cmdid cmdpkt).length = 2 ∧
      (Image.packBlockType shift count).length = 4 :=
  ⟨Bytes.length_ofNat _ _, Bytes.length_ofNat _ _⟩

/-- The packets hold the blocks asked for. -/
theorem payloads_cut (content : Bytes) (cmdid : Nat) {shift : Nat}
    (hshift : 0 < Image.RDMA_MAX_PAYLOAD / Image.blockSize shift) {fuel blocksLeft : Nat}
    (hfuel : blocksLeft ≤ fuel) (offset cmdpkt : Nat) :
    (cut content cmdid shift fuel blocksLeft offset cmdpkt).flatMap (List.drop 6) =
      padded content offset (blocksLeft * Image.blockSize shift) := by
  induction fuel generalizing blocksLeft offset cmdpkt with
  | zero =>
      obtain rfl : blocksLeft = 0 := by omega
      rw [Nat.zero_mul]
      simp [cut, padded]
  | succ fuel ih =>
      unfold cut
      by_cases hzero : blocksLeft = 0
      · rw [if_pos hzero, hzero, Nat.zero_mul]
        simp [padded]
      · rw [if_neg hzero]
        generalize hcount : min blocksLeft (Image.RDMA_MAX_PAYLOAD / Image.blockSize shift) = count
        have hpos : 0 < count ∧ count ≤ blocksLeft := by omega
        have hdrop : ∀ rest : Bytes, (Image.packHeader Image.CMD_READ_RDMA cmdid cmdpkt ++
            (Image.packBlockType shift count ++ rest)).drop 6 = rest := by
          intro rest
          obtain ⟨hheader, hblock⟩ := length_cut_header cmdid cmdpkt shift count
          rw [← List.append_assoc, List.drop_left' (by rw [List.length_append, hheader, hblock])]
        dsimp only
        rw [List.flatMap_cons, hdrop, ih (by omega), padded_append, ← Nat.add_mul,
          Nat.add_sub_cancel' hpos.2]

theorem length_cut (content : Bytes) (cmdid : Nat) {shift : Nat}
    (hshift : 0 < Image.RDMA_MAX_PAYLOAD / Image.blockSize shift) {fuel blocksLeft : Nat}
    (hfuel : blocksLeft ≤ fuel) (offset cmdpkt : Nat) :
    (cut content cmdid shift fuel blocksLeft offset cmdpkt).length =
      ceil blocksLeft (Image.RDMA_MAX_PAYLOAD / Image.blockSize shift) := by
  unfold ceil
  generalize hper : Image.RDMA_MAX_PAYLOAD / Image.blockSize shift = per at hshift ⊢
  induction fuel generalizing blocksLeft offset cmdpkt with
  | zero =>
      obtain rfl : blocksLeft = 0 := by omega
      rw [Nat.zero_add, Nat.div_eq_of_lt (by omega)]
      rfl
  | succ fuel ih =>
      unfold cut
      by_cases hzero : blocksLeft = 0
      · rw [if_pos hzero, hzero, Nat.zero_add, Nat.div_eq_of_lt (by omega)]
        rfl
      · rw [if_neg hzero, hper]
        dsimp only
        rw [List.length_cons, ih (by omega)]
        by_cases hlast : blocksLeft ≤ per
        · rw [Nat.min_eq_left hlast, Nat.sub_self, Nat.zero_add,
            Nat.div_eq_of_lt (show per - 1 < per by omega)]
          symm
          apply Nat.div_eq_of_lt_le
          · omega
          · omega
        · rw [Nat.min_eq_right (by omega),
            show blocksLeft - per + per - 1 = blocksLeft - 1 by omega,
            show blocksLeft + per - 1 = blocksLeft - 1 + per by omega,
            Nat.add_div_right _ hshift]

/-- A packet names its blocks, and holds so many of them. -/
structure Packet (shift : Nat) (p : Bytes) : Prop where
  blocks : (Image.unpackBlockType p).1 = shift
  length : p.length = 6 + (Image.unpackBlockType p).2 * Image.blockSize shift
  fits : p.length ≤ 1472

theorem packet_of_mem_cut {content : Bytes} {cmdid shift fuel blocksLeft offset cmdpkt : Nat}
    (hshift : shift < 0x10) (hfew : Image.RDMA_MAX_PAYLOAD / Image.blockSize shift < 0x200)
    {p : Bytes} (hp : p ∈ cut content cmdid shift fuel blocksLeft offset cmdpkt) :
    Packet shift p := by
  induction fuel generalizing blocksLeft offset cmdpkt with
  | zero => cases hp
  | succ fuel ih =>
      unfold cut at hp
      split at hp
      · cases hp
      rcases List.mem_cons.mp hp with rfl | hp
      · have hmin := Nat.min_le_right blocksLeft (Image.RDMA_MAX_PAYLOAD / Image.blockSize shift)
        generalize hcount : min blocksLeft (Image.RDMA_MAX_PAYLOAD / Image.blockSize shift) = count
          at hmin ⊢
        obtain ⟨hheader, hblock⟩ := length_cut_header cmdid cmdpkt shift count
        have hfield : ∀ rest : Bytes, (Image.packHeader Image.CMD_READ_RDMA cmdid cmdpkt ++
            (Image.packBlockType shift count ++ rest)).field 2 4 = shift + count * 0x10 := by
          intro rest
          have happend := Bytes.field_append (Image.packHeader Image.CMD_READ_RDMA cmdid cmdpkt)
            (Image.packBlockType shift count ++ rest) 0 4
          rw [hheader] at happend
          rw [happend]
          unfold Image.packBlockType
          rw [Bytes.field_ofNat]
          omega
        have hunpack : ∀ rest : Bytes, Image.unpackBlockType
            (Image.packHeader Image.CMD_READ_RDMA cmdid cmdpkt ++
              (Image.packBlockType shift count ++ rest)) = (shift, count) := by
          intro rest
          unfold Image.unpackBlockType
          rw [hfield]
          refine Prod.ext ?_ ?_
          · change (shift + count * 0x10) % 0x10 = shift
            omega
          · change (shift + count * 0x10) / 0x10 % 0x200 = count
            omega
        have hmul : count * Image.blockSize shift ≤ Image.RDMA_MAX_PAYLOAD :=
          Nat.le_trans (Nat.mul_le_mul_right _ hmin) (Nat.div_mul_le_self _ _)
        have hmax : Image.RDMA_MAX_PAYLOAD = 1466 := rfl
        have hlength : (Image.packHeader Image.CMD_READ_RDMA cmdid cmdpkt ++
            (Image.packBlockType shift count ++
              padded content offset (count * Image.blockSize shift))).length =
            6 + count * Image.blockSize shift := by
          rw [List.length_append, List.length_append, hheader, hblock, length_padded]
          omega
        constructor
        · rw [hunpack]
        · rw [hunpack, hlength]
        · rw [hlength]
          omega
      · exact ih hp

/-! ## The choice of the block size -/

theorem blockShiftFor_mem (sectors : Nat) : Image.blockShiftFor sectors ∈ [3, 5, 6, 7] := by
  unfold Image.blockShiftFor
  dsimp only
  split
  · decide
  split
  · decide
  split
  · decide
  · decide

/-- Block sizes of at least 32 bytes that a sector is a multiple of. -/
theorem shift_le_seven {shift : Nat} (h : Image.blockSize shift ∣ Image.SECTOR_SIZE) :
    shift ≤ 7 := by
  have hle : 2 ^ (shift + 2) ≤ 2 ^ 9 := Nat.le_of_dvd (by decide) h
  have := (Nat.pow_le_pow_iff_right (by decide)).mp hle
  omega

theorem ceil_mul {k : Nat} (hk : 0 < k) (n : Nat) {d : Nat} (hd : 0 < d) :
    ceil (n * k) (d * k) = ceil n d := by
  unfold ceil
  have hcut : n * k + d * k - 1 = k * (n + d - 1) + (k - 1) := by
    have hmul : k * (n + d - 1) = k * (n + d) - k := by rw [Nat.mul_sub_one]
    have hle : k ≤ k * (n + d) := Nat.le_mul_of_pos_right k (by omega)
    rw [hmul, ← Nat.add_mul, Nat.mul_comm k]
    have hcomm := Nat.mul_comm k (n + d)
    omega
  rw [hcut, Nat.mul_comm d k, ← Nat.div_div_eq_div_mul, Nat.mul_add_div hk,
    Nat.div_eq_of_lt (show k - 1 < k by omega), Nat.add_zero]

theorem ceil_antitone {p q : Nat} (hp : 0 < p) (hpq : p ≤ q) (n : Nat) :
    ceil n q ≤ ceil n p := by
  unfold ceil
  generalize hm : (n + p - 1) / p = m
  have hcover : n ≤ m * p := by
    have hdiv := Nat.div_add_mod (n + p - 1) p
    have hmod := Nat.mod_lt (n + p - 1) hp
    rw [hm, Nat.mul_comm p m] at hdiv
    omega
  have hmore : m * p ≤ m * q := Nat.mul_le_mul_left m hpq
  calc (n + q - 1) / q ≤ (m * q + q - 1) / q := Nat.div_le_div_right (by omega)
    _ = m := by
      rw [Nat.add_sub_assoc (by omega), Nat.add_comm, Nat.add_mul_div_right _ _ (by omega),
        Nat.div_eq_of_lt (by omega), Nat.zero_add]

theorem blockShiftFor_eq (sectors : Nat) : Image.blockShiftFor sectors =
    if ceil (sectors * 512) 1024 = ceil (sectors * 512) 1440 then 7
    else if ceil (sectors * 512) 1280 = ceil (sectors * 512) 1440 then 6
    else if ceil (sectors * 512) 1408 = ceil (sectors * 512) 1440 then 5
    else 3 := rfl

/-- No block size needs fewer packets, and none that needs as few is larger. -/
theorem blockShiftFor_best (sectors : Nat) {shift : Nat} (hlow : 3 ≤ shift)
    (hdvd : Image.blockSize shift ∣ Image.SECTOR_SIZE) :
    packetCount (Image.blockShiftFor sectors) sectors ≤ packetCount shift sectors ∧
      (packetCount shift sectors = packetCount (Image.blockShiftFor sectors) sectors →
        shift ≤ Image.blockShiftFor sectors) := by
  -- Packets are counted in blocks; counted in bytes, all sizes compare.
  have hbytes {shift : Nat} (hblock : 0 < Image.blockSize shift)
      (hfew : 0 < Image.RDMA_MAX_PAYLOAD / Image.blockSize shift)
      (hsector : Image.SECTOR_SIZE / Image.blockSize shift * Image.blockSize shift = 512) :
      packetCount shift sectors = ceil (sectors * 512)
        (Image.RDMA_MAX_PAYLOAD / Image.blockSize shift * Image.blockSize shift) := by
    rw [packetCount, ← ceil_mul hblock _ hfew, Nat.mul_assoc, hsector]
  have h3 : packetCount 3 sectors = ceil (sectors * 512) 1440 :=
    hbytes (by decide) (by decide) (by decide)
  have h4 : packetCount 4 sectors = ceil (sectors * 512) 1408 :=
    hbytes (by decide) (by decide) (by decide)
  have h5 : packetCount 5 sectors = ceil (sectors * 512) 1408 :=
    hbytes (by decide) (by decide) (by decide)
  have h6 : packetCount 6 sectors = ceil (sectors * 512) 1280 :=
    hbytes (by decide) (by decide) (by decide)
  have h7 : packetCount 7 sectors = ceil (sectors * 512) 1024 :=
    hbytes (by decide) (by decide) (by decide)
  have hle35 := ceil_antitone (show 0 < 1408 by decide) (show 1408 ≤ 1440 by decide) (sectors * 512)
  have hle56 := ceil_antitone (show 0 < 1280 by decide) (show 1280 ≤ 1408 by decide) (sectors * 512)
  have hle67 := ceil_antitone (show 0 < 1024 by decide) (show 1024 ≤ 1280 by decide) (sectors * 512)
  have hhigh := shift_le_seven hdvd
  rw [blockShiftFor_eq]
  generalize ceil (sectors * 512) 1440 = p3 at *
  generalize ceil (sectors * 512) 1408 = p5 at *
  generalize ceil (sectors * 512) 1280 = p6 at *
  generalize ceil (sectors * 512) 1024 = p7 at *
  obtain rfl | rfl | rfl | rfl | rfl : shift = 3 ∨ shift = 4 ∨ shift = 5 ∨ shift = 6 ∨ shift = 7 := by
    omega
  all_goals
    split
    · omega
    split
    · omega
    split
    · omega
    · omega

/-! ## The two servers -/

variable {A B : Type}

theorem delivered_cons_true {sendable : Nat → Bool} {n : Nat} (h : sendable n = true) (p : Bytes)
    (rest : List Bytes) :
    delivered sendable n (p :: rest) = p :: delivered sendable (n + 1) rest := if_pos h

theorem delivered_cons_false {sendable : Nat → Bool} {n : Nat} (h : sendable n = false) (p : Bytes)
    (rest : List Bytes) : delivered sendable n (p :: rest) = [] := by
  unfold delivered
  rw [h, if_neg Bool.false_ne_true]

/-- What the loop of the Python server sends from a position. -/
theorem sent_image_readLoop (e : Image.Event A) (shift fuel blocksLeft cmdpkt : Nat)
    {s : Image.Server A} {offset : Nat} (hposition : s.bd.position = offset ∨
      s.bd.content.length ≤ s.bd.position ∧ s.bd.content.length ≤ offset) :
    (final (Image.readLoop e shift fuel blocksLeft cmdpkt s)).sent =
      s.sent ++ (delivered e.sendable s.sent.length (cut s.bd.content
        (Image.headerCmdid e.datagram) shift fuel blocksLeft offset cmdpkt)).map (e.addr, ·) := by
  induction fuel generalizing blocksLeft cmdpkt s offset with
  | zero => simp [Image.readLoop, cut, delivered, final]
  | succ fuel ih =>
      unfold Image.readLoop cut
      by_cases hzero : blocksLeft = 0
      · rw [if_pos hzero, if_pos hzero]
        simp [delivered, final]
      · rw [if_neg hzero, if_neg hzero]
        dsimp only
        generalize min blocksLeft (Image.RDMA_MAX_PAYLOAD / Image.blockSize shift) = count
        generalize hsize : count * Image.blockSize shift = size
        have hdata : padded s.bd.content s.bd.position size = padded s.bd.content offset size := by
          rcases hposition with h | ⟨h, h'⟩
          · rw [h]
          · exact padded_of_length_le h h' size
        let read : Image.Server A := { s with bd := { s.bd with
          position := s.bd.position + (s.bd.content.sub s.bd.position size).length } }
        have hread : Image.read size s = .ok (padded s.bd.content offset size) read := by
          rw [← hdata]
          rfl
        have hnext : read.bd.position = offset + size ∨
            read.bd.content.length ≤ read.bd.position ∧ read.bd.content.length ≤ offset + size := by
          have hlen : (s.bd.content.sub s.bd.position size).length =
              min size (s.bd.content.length - s.bd.position) := by
            unfold Bytes.sub
            rw [List.length_take, List.length_drop]
          change s.bd.position + _ = _ ∨ _ ≤ s.bd.position + _ ∧ _
          rw [hlen]
          change _ ∨ s.bd.content.length ≤ _ ∧ s.bd.content.length ≤ _
          omega
        rw [bind_ok hread, List.append_assoc]
        by_cases hsend : e.sendable s.sent.length = true
        · have hsent : ∀ packet, Image.sendto e packet read =
              .ok () { read with sent := s.sent ++ [(e.addr, packet)] } := by
            intro packet
            unfold Image.sendto
            rw [get_bind, if_pos hsend]
            rfl
          rw [bind_ok (hsent _), delivered_cons_true hsend]
          have hrest := ih (blocksLeft - count) ((cmdpkt + 1) % 0x100)
            (s := { read with sent := s.sent ++ [(e.addr, Image.packHeader Image.CMD_READ_RDMA
              (Image.headerCmdid e.datagram) cmdpkt ++ (Image.packBlockType shift count ++
                padded s.bd.content offset size))] }) hnext
          rw [hrest, List.length_append, List.append_assoc]
          rfl
        · have hfail : ∀ packet, Image.sendto e packet read = .error .osError read := by
            intro packet
            unfold Image.sendto
            rw [get_bind, if_neg hsend]
            rfl
          rw [bind_error (hfail _), delivered_cons_false (by simpa using hsend), List.map_nil,
            List.append_nil]
          rfl

/-! ### Fields -/

theorem packHeader_toNat (cmd cmdid cmdpkt : UInt8) :
    Edge.packHeader cmd cmdid cmdpkt = Image.packHeader cmd.toNat cmdid.toNat cmdpkt.toNat := by
  have hlt := cmdpkt.toNat_lt
  rw [Edge.packHeader_eq, Image.packHeader, Nat.mod_eq_of_lt (a := cmdpkt.toNat) (by omega)]

theorem toNat_headerCmdid (p : Bytes) : (Edge.headerCmdid p).toNat = Image.headerCmdid p := by
  have hlt : p.field 0 2 < 65536 := p.field_lt 0 2
  have hmask := Nat.and_two_pow_sub_one_eq_mod (p.field 0 2 / 32) 3
  unfold Edge.headerCmdid Edge.header Image.headerCmdid
  rw [UInt16.toNat_toUInt8, UInt16.toNat_and, UInt16.toNat_shiftRight]
  simp only [UInt16.toNat_ofNat', Nat.mod_eq_of_lt hlt]
  have h5 : (5 : UInt16).toNat % 16 = 5 := rfl
  rw [h5, Nat.shiftRight_eq_div_pow]
  change (p.field 0 2 / 32 &&& 2 ^ 3 - 1) % 2 ^ 8 = _
  rw [hmask]
  omega

theorem packBlockType_toNat {shift : UInt8} (hshift : shift.toNat < 0x10) {count : Nat}
    (hcount : count < 0x200) :
    Edge.packBlockType shift (UInt16.ofNat count) = Image.packBlockType shift.toNat count := by
  have hs : (shift &&& 0x0F).toNat = shift.toNat := by
    rw [UInt8.toNat_and]
    change shift.toNat &&& 2 ^ 4 - 1 = _
    rw [Nat.and_two_pow_sub_one_eq_mod]
    omega
  have hc : (UInt16.ofNat count &&& 0x1FF).toNat = count := by
    rw [UInt16.toNat_and, UInt16.toNat_ofNat']
    change count % 2 ^ 16 &&& 2 ^ 9 - 1 = _
    rw [Nat.and_two_pow_sub_one_eq_mod]
    omega
  have h4 : (4 : UInt32).toNat % 32 = 4 := rfl
  unfold Edge.packBlockType Image.packBlockType
  rw [Edge.le32_eq, UInt32.toNat_or, UInt32.toNat_shiftLeft, UInt8.toNat_toUInt32,
    UInt16.toNat_toUInt32, hs, hc, h4, Nat.shiftLeft_eq, Nat.mod_eq_of_lt (by omega),
    ← Nat.shiftLeft_eq, Edge.or_shiftLeft (by omega)]
  congr 1
  omega

/-! ### The Edge server -/

theorem edge_blockSize (shift : Nat) : Edge.blockSize shift = Image.blockSize shift :=
  Nat.one_shiftLeft (shift + 2)

theorem edge_blocksPerPacket (shift : Nat) :
    Edge.blocksPerPacket shift = Image.RDMA_MAX_PAYLOAD / Image.blockSize shift := by
  unfold Edge.blocksPerPacket
  rw [edge_blockSize]
  rfl

theorem edge_ceilDiv (n : Nat) {d : Nat} (hd : 0 < d) : Edge.ceilDiv n d = (ceil n d : Nat) := by
  unfold Edge.ceilDiv ceil
  have hcast : (n : Int) + d - 1 = ((n + d - 1 : Nat) : Int) := by omega
  rw [hcast, ← Int.ofNat_tdiv]

theorem toNat_blockShiftForSectors (sectors : Nat) :
    (Edge.blockShiftForSectors sectors).toNat = Image.blockShiftFor sectors := by
  have hsize : (sectors : Int) * Edge.SectorSize = ((sectors * 512 : Nat) : Int) := rfl
  have hpackets : ∀ d : Nat, 0 < d → Edge.ceilDiv (sectors * Edge.SectorSize) d =
      (ceil (sectors * 512) d : Nat) := by
    intro d hd
    rw [hsize, edge_ceilDiv _ hd]
  have h1440 := hpackets 1440 (by decide)
  have h1024 := hpackets 1024 (by decide)
  have h1280 := hpackets 1280 (by decide)
  have h1408 := hpackets 1408 (by decide)
  rw [blockShiftFor_eq]
  unfold Edge.blockShiftForSectors
  dsimp only
  push_cast at h1440 h1024 h1280 h1408
  rw [h1440, h1024, h1280, h1408]
  simp only [Int.natCast_inj]
  split
  · rfl
  split
  · rfl
  split
  · rfl
  · rfl

theorem readAtOffset_eq (d : Edge.Device) (offset size : Nat) :
    d.readAtOffset offset size = padded d.content offset size := rfl

/-- What the loop of the Edge server sends from an offset. -/
theorem sent_edge_readLoop (e : Edge.Event B) (hread : ∀ offset size, e.readable offset size = true)
    {shift : UInt8} (hshift : shift.toNat < 0x10)
    (hfew : Image.RDMA_MAX_PAYLOAD / Image.blockSize shift.toNat < 0x200) (sector fuel : Nat)
    (blocksLeft consumed : Nat) (cmdpkt : UInt8) (s : Edge.Server B) :
    (s.readLoop e shift sector fuel blocksLeft consumed cmdpkt).sent =
      s.sent ++ (delivered e.sendable s.sent.length (cut s.dev.content
        (Image.headerCmdid e.datagram) shift.toNat fuel blocksLeft (sector * 512 + consumed)
          cmdpkt.toNat)).map (e.peer, ·) := by
  induction fuel generalizing blocksLeft consumed cmdpkt s with
  | zero => simp [Edge.Server.readLoop, cut, delivered]
  | succ fuel ih =>
      unfold Edge.Server.readLoop cut
      by_cases hzero : blocksLeft = 0
      · rw [if_pos hzero, if_pos hzero]
        simp [delivered]
      · rw [if_neg hzero, if_neg hzero]
        dsimp only
        rw [hread, Bool.not_true, if_neg Bool.false_ne_true, edge_blocksPerPacket, edge_blockSize]
        have hmin := Nat.min_le_right blocksLeft
          (Image.RDMA_MAX_PAYLOAD / Image.blockSize shift.toNat)
        generalize min blocksLeft (Image.RDMA_MAX_PAYLOAD / Image.blockSize shift.toNat) = count
          at hmin ⊢
        generalize count * Image.blockSize shift.toNat = size
        have hoffset : (sector : Int) * Edge.SectorSize + (consumed : Int) =
            ((sector * 512 + consumed : Nat) : Int) := rfl
        have hnext : (cmdpkt + 1).toNat = (cmdpkt.toNat + 1) % 0x100 := UInt8.toNat_add cmdpkt 1
        have hcmd : Edge.CmdReadRDMA.toNat = Image.CMD_READ_RDMA := rfl
        rw [hoffset, readAtOffset_eq, packHeader_toNat, toNat_headerCmdid, hcmd,
          packBlockType_toNat hshift (by omega), List.append_assoc]
        generalize Image.packHeader Image.CMD_READ_RDMA (Image.headerCmdid e.datagram) cmdpkt.toNat ++
          (Image.packBlockType shift.toNat count ++
            padded s.dev.content (sector * 512 + consumed) size) = packet
        unfold Edge.Server.send
        by_cases hsend : e.sendable s.sent.length = true
        · rw [if_pos hsend, delivered_cons_true hsend]
          dsimp only
          have hcast : (consumed : Int) + (size : Int) = ((consumed + size : Nat) : Int) := rfl
          rw [hcast, ih, hnext, List.length_append, ← Nat.add_assoc]
          simp
        · rw [if_neg hsend, delivered_cons_false (by simpa using hsend)]
          simp

/-! ## The result -/

/-- The packets of a CMD_READ. -/
def packetsOf (content datagram : Bytes) : List Bytes :=
  let region := Image.regionOf datagram
  let shift := Image.blockShiftFor region.count
  let blocks := region.count * (Image.SECTOR_SIZE / Image.blockSize shift)
  cut content (Image.headerCmdid datagram) shift blocks blocks
    (region.sector * Image.SECTOR_SIZE) 1

variable [DecidableEq A] [DecidableEq B]

theorem sent_image_next {s : Image.Server A} {e : Image.Event A}
    (hcmd : Image.headerCmd e.datagram = Image.CMD_READ) (hlength : 8 ≤ e.datagram.length)
    (hseek : e.seekable ((Image.regionOf e.datagram).sector * Image.SECTOR_SIZE) = true) :
    (s.next e).sent = s.sent ++
      (delivered e.sendable s.sent.length (packetsOf s.bd.content e.datagram)).map (e.addr, ·) := by
  let sought : Image.Server A := { s with
    writeLeft := 0
    blockShift := Image.blockShiftFor (e.datagram.field 6 2)
    bd := { s.bd with position := e.datagram.field 2 4 * Image.SECTOR_SIZE } }
  have hdone : Image.seek e (e.datagram.field 2 4)
      { s with writeLeft := 0, blockShift := Image.blockShiftFor (e.datagram.field 6 2) } =
      .ok () sought := by
    change e.seekable (e.datagram.field 2 4 * Image.SECTOR_SIZE) = true at hseek
    unfold Image.seek
    rw [get_bind, if_pos hseek]
    rfl
  change (final (Image.dispatch e s)).sent = _
  unfold Image.dispatch
  rw [if_neg (by omega), hcmd, if_neg (by decide), if_pos ⟨rfl, hlength⟩]
  unfold Image.handleRead Image.setLeft
  rw [bind_ok (modify_apply _ s)]
  dsimp only
  rw [bind_ok (modify_apply _ _), bind_ok hdone]
  exact sent_image_readLoop e _ _ _ 1 (Or.inl rfl)

theorem inRange_iff {d : Edge.Device} (hsize : d.size = d.content.length) (datagram : Bytes) :
    d.inRange (Edge.sectorRequest datagram) = true ↔
      0 < (Image.regionOf datagram).count ∧
        (Image.regionOf datagram).Inside d.content.length := by
  have hunit : Edge.SectorSize = 512 := rfl
  have hunit' : Image.SECTOR_SIZE = 512 := rfl
  have hsector : (Edge.sectorRequest datagram).1 = ((Image.regionOf datagram).sector : Int) := rfl
  have hcount : (Edge.sectorRequest datagram).2 = ((Image.regionOf datagram).count : Int) := rfl
  unfold Edge.Device.inRange Edge.Device.sectorCount Image.Region.Inside
  rw [hsector, hcount, hsize, hunit, hunit', Int.tdiv_eq_ediv_of_nonneg (by omega)]
  simp only [Bool.and_eq_true, Bool.not_eq_true', decide_eq_false_iff_not, Bool.or_eq_false_iff]
  omega

theorem cut_none (content : Bytes) (cmdid shift fuel offset cmdpkt : Nat) :
    cut content cmdid shift fuel 0 offset cmdpkt = [] := by
  cases fuel <;> rfl

theorem blockShiftFor_small (sectors : Nat) : Image.blockShiftFor sectors < 0x10 ∧
    0 < Image.RDMA_MAX_PAYLOAD / Image.blockSize (Image.blockShiftFor sectors) ∧
    Image.RDMA_MAX_PAYLOAD / Image.blockSize (Image.blockShiftFor sectors) < 0x200 := by
  have hmem := blockShiftFor_mem sectors
  simp only [List.mem_cons, List.not_mem_nil, or_false] at hmem
  obtain h | h | h | h := hmem
  all_goals
    rw [h]
    decide

omit [DecidableEq B] in
theorem sent_edge_packets {f : Edge.Event B}
    (hread : ∀ offset size, f.readable offset size = true) (t : Edge.Server B) :
    let region := Image.regionOf f.datagram
    let shift := Edge.blockShiftForSectors region.count
    let blocks := region.count * Edge.blocksPerSector shift.toNat
    (t.readLoop f shift region.sector blocks blocks 0 1).sent =
      t.sent ++ (delivered f.sendable t.sent.length (packetsOf t.dev.content f.datagram)).map
        (f.peer, ·) := by
  intro region shift blocks
  have hshift : shift.toNat = Image.blockShiftFor region.count :=
    toNat_blockShiftForSectors region.count
  have hblocks : blocks = region.count *
      (Image.SECTOR_SIZE / Image.blockSize (Image.blockShiftFor region.count)) := by
    rw [← hshift, ← edge_blockSize]
    rfl
  obtain ⟨hsmall, -, hfew⟩ := blockShiftFor_small region.count
  rw [← hshift] at hsmall hfew
  have hloop := sent_edge_readLoop f hread hsmall hfew region.sector blocks blocks 0 1 t
  have hunit : (512 : Nat) = Image.SECTOR_SIZE := rfl
  have hone : (1 : UInt8).toNat = 1 := rfl
  rw [hshift, hblocks, Nat.add_zero, hone, hunit] at hloop
  unfold packetsOf
  rw [hblocks]
  exact hloop

theorem sent_edge_next {t : Edge.Server B} {f : Edge.Event B}
    (hcmd : Image.headerCmd f.datagram = Image.CMD_READ) (hlength : 8 ≤ f.datagram.length)
    (hsize : t.dev.size = t.dev.content.length)
    (hread : ∀ offset size, f.readable offset size = true) :
    (t.next f).sent =
      if (Image.regionOf f.datagram).Inside t.dev.content.length then
        t.sent ++ (delivered f.sendable t.sent.length (packetsOf t.dev.content f.datagram)).map
          (f.peer, ·)
      else t.sent := by
  have hedge : Edge.headerCmd f.datagram = Edge.CmdRead := by
    apply UInt8.toNat_inj.mp
    rw [Edge.toNat_headerCmd]
    exact hcmd
  have hnext : t.next f = t.handleRead f := by
    unfold Edge.Server.next Edge.Server.dispatch
    rw [if_neg (by omega), hedge, if_neg (by decide), if_pos rfl, if_pos hlength]
  have hrange := inRange_iff hsize f.datagram
  have hhandle : t.handleRead f = if !t.dev.inRange (Edge.sectorRequest f.datagram) then t else
      (if 0 < t.write.left ∧ t.write.matches f.peer then { t with write := .none } else t).readLoop f
        (Edge.blockShiftForSectors (Image.regionOf f.datagram).count)
        (Image.regionOf f.datagram).sector
        ((Image.regionOf f.datagram).count * Edge.blocksPerSector
          (Edge.blockShiftForSectors (Image.regionOf f.datagram).count).toNat)
        ((Image.regionOf f.datagram).count * Edge.blocksPerSector
          (Edge.blockShiftForSectors (Image.regionOf f.datagram).count).toNat) 0 1 := by
    have hpair : ((Edge.sectorRequest f.datagram).1, (Edge.sectorRequest f.datagram).2) =
        Edge.sectorRequest f.datagram := rfl
    have hsector : (Edge.sectorRequest f.datagram).1 = ((Image.regionOf f.datagram).sector : Int) :=
      rfl
    have hcount : (Edge.sectorRequest f.datagram).2 = ((Image.regionOf f.datagram).count : Int) :=
      rfl
    unfold Edge.Server.handleRead
    dsimp only
    rw [hpair, hsector, hcount, Int.toNat_natCast]
  rw [hnext, hhandle]
  by_cases hin : (Image.regionOf f.datagram).Inside t.dev.content.length
  · rw [if_pos hin]
    by_cases hzero : (Image.regionOf f.datagram).count = 0
    · have hfalse : t.dev.inRange (Edge.sectorRequest f.datagram) = false := by
        refine Bool.eq_false_iff.mpr fun h => ?_
        have := (hrange.mp h).1
        omega
      have hnone : packetsOf t.dev.content f.datagram = [] := by
        unfold packetsOf
        dsimp only
        rw [hzero, Nat.zero_mul]
        exact cut_none _ _ _ _ _ _
      rw [hfalse, Bool.not_false, if_pos rfl, hnone]
      simp [delivered]
    · have htrue := hrange.mpr ⟨Nat.pos_of_ne_zero hzero, hin⟩
      rw [htrue, Bool.not_true, if_neg Bool.false_ne_true]
      split
      · exact sent_edge_packets hread _
      · exact sent_edge_packets hread t
  · rw [if_neg hin]
    have hfalse : t.dev.inRange (Edge.sectorRequest f.datagram) = false :=
      Bool.eq_false_iff.mpr fun h => hin (hrange.mp h).2
    rw [hfalse, Bool.not_false, if_pos rfl]

variable {s : Image.Server A} {t : Edge.Server B} {e : Image.Event A} {f : Edge.Event B}

/-- Both servers cut a read into the same packets, and send them up to the first that does not
leave the socket: the Python server for every request, the Edge server for requests inside the
image. The packets hold the bytes asked for, with zeros past the end, and their block size is the
largest of those that take the fewest packets. -/
theorem read_packets (hdatagram : f.datagram = e.datagram)
    (hcmd : Image.headerCmd e.datagram = Image.CMD_READ) (hlength : 8 ≤ e.datagram.length)
    (hcontent : t.dev.content = s.bd.content) (hsize : t.dev.size = t.dev.content.length)
    (hseek : e.seekable ((Image.regionOf e.datagram).sector * Image.SECTOR_SIZE) = true)
    (hread : ∀ offset size, f.readable offset size = true) :
    let region := Image.regionOf e.datagram
    let shift := Image.blockShiftFor region.count
    ∃ packets : List Bytes,
      (s.next e).sent =
        s.sent ++ (delivered e.sendable s.sent.length packets).map (e.addr, ·) ∧
      (t.next f).sent =
        (if region.Inside s.bd.content.length then
          t.sent ++ (delivered f.sendable t.sent.length packets).map (f.peer, ·)
        else t.sent) ∧
      packets.flatMap (List.drop 6) = padded s.bd.content (region.sector * Image.SECTOR_SIZE)
        (region.count * Image.SECTOR_SIZE) ∧
      (∀ p ∈ packets, Packet shift p) ∧
      packets.length = packetCount shift region.count ∧
      ∀ other, 3 ≤ other → Image.blockSize other ∣ Image.SECTOR_SIZE →
        packetCount shift region.count ≤ packetCount other region.count ∧
        (packetCount other region.count = packetCount shift region.count → other ≤ shift) := by
  intro region shift
  obtain ⟨hsmall, hsome, hfew⟩ := blockShiftFor_small region.count
  refine ⟨packetsOf s.bd.content e.datagram, sent_image_next hcmd hlength hseek, ?_, ?_,
    fun p hp => packet_of_mem_cut hsmall hfew hp, length_cut _ _ hsome (Nat.le_refl _) _ _,
    fun other hlow hdvd => blockShiftFor_best region.count hlow hdvd⟩
  · have hedge := sent_edge_next (hdatagram ▸ hcmd) (hdatagram ▸ hlength) hsize hread
    rw [hcontent, hdatagram] at hedge
    exact hedge
  · have hpayloads := payloads_cut s.bd.content (Image.headerCmdid e.datagram) hsome
      (Nat.le_refl (region.count * (Image.SECTOR_SIZE / Image.blockSize shift)))
      (region.sector * Image.SECTOR_SIZE) 1
    have hwhole : Image.SECTOR_SIZE / Image.blockSize shift * Image.blockSize shift =
        Image.SECTOR_SIZE := by
      have hmem := blockShiftFor_mem region.count
      simp only [List.mem_cons, List.not_mem_nil, or_false] at hmem
      have hcases : shift = 3 ∨ shift = 5 ∨ shift = 6 ∨ shift = 7 := hmem
      obtain h | h | h | h := hcases
      all_goals
        rw [h]
        decide
    rw [Nat.mul_assoc, hwhole] at hpayloads
    exact hpayloads

/-- CMD_READ of so many sectors. -/
def readRequest (sector count : Nat) : Bytes :=
  Image.packHeader Image.CMD_READ 2 0 ++ (Bytes.ofNat 4 sector ++ Bytes.ofNat 2 count)

/-- An image of two sectors. -/
def twoSectors : Bytes := List.replicate 512 1 ++ List.replicate 512 2

theorem read_packets_twoSectors :
    let region := Image.regionOf (readRequest 0 2)
    let shift := Image.blockShiftFor region.count
    ∃ packets : List Bytes,
      (Image.Server.next (.new twoSectors false) (Image.sentBy 1 (readRequest 0 2))).sent =
        [] ++ (delivered (fun _ => true) 0 packets).map (1, ·) ∧
      (Edge.Server.next (.new twoSectors false) (Edge.sentBy 1 (readRequest 0 2))).sent =
        (if region.Inside twoSectors.length then
          [] ++ (delivered (fun _ => true) 0 packets).map (⟨1, 48573⟩, ·)
        else []) ∧
      packets.flatMap (List.drop 6) = padded twoSectors (region.sector * Image.SECTOR_SIZE)
        (region.count * Image.SECTOR_SIZE) ∧
      (∀ p ∈ packets, Packet shift p) ∧
      packets.length = packetCount shift region.count ∧
      ∀ other, 3 ≤ other → Image.blockSize other ∣ Image.SECTOR_SIZE →
        packetCount shift region.count ≤ packetCount other region.count ∧
        (packetCount other region.count = packetCount shift region.count → other ≤ shift) :=
  read_packets (s := .new twoSectors false) (t := .new twoSectors false)
    (e := Image.sentBy 1 (readRequest 0 2)) (f := Edge.sentBy 1 (readRequest 0 2)) rfl
    (by decide) (by decide) rfl rfl rfl (fun _ _ => rfl)

/-- Behind the end of the image the Python server sends a packet of zeros, and the Edge server
nothing. -/
theorem read_differs_behind :
    (Image.Server.next (.new twoSectors false) (Image.sentBy 1 (readRequest 2 1))).sent.map
        (fun m => m.2.drop 6) = [List.replicate 512 0] ∧
      (Edge.Server.next (.new twoSectors false) (Edge.sentBy 1 (readRequest 2 1))).sent = [] := by
  decide +kernel

end Ps2Servers.Udpbd.Packets
