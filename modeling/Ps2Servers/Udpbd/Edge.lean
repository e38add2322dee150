import Ps2Servers.Lib.Runs
import Ps2Servers.Lib.Splice

/-!
# The Edge UDPBD server

The other server of UDPBD: one pending write for all peers, matched by IP address and
kept apart from reads, which carry their own offsets. In every run the write takes no
more than it declared, behind one another, and no other console's packet can land in
it. A CMD_INFO of any peer drops it and a CMD_WRITE inside the image replaces it.

## Implementation notes

What the calls of the host come to is part of an event. A failed write may have
written a part. The fields under `history` are no fields of the server: they record
the region of the last CMD_WRITE accepted and the payloads stored for it. Sums and
products of 16- and 32-bit fields fit an `int64` here, which is `Int`. Totals,
statistics, log lines and the status channel are left out.
-/

namespace Ps2Servers.Udpbd.Edge

open Runs

def CmdInfo : UInt8 := 0x00

def CmdInfoReply : UInt8 := 0x01

def CmdRead : UInt8 := 0x02

def CmdReadRDMA : UInt8 := 0x03

def CmdWrite : UInt8 := 0x04

def CmdWriteRDMA : UInt8 := 0x05

def CmdWriteDone : UInt8 := 0x06

def SectorSize : Int := 512

def rdmaMaxPayload : Nat := 1472 - 2 - 4

/-! ## Packets -/

def packHeader (cmd cmdid cmdpkt : UInt8) : Bytes :=
  let v := (cmd &&& 0x1F).toUInt16 ||| (cmdid &&& 0x07).toUInt16 <<< 5 ||| cmdpkt.toUInt16 <<< 8
  [v.toUInt8, (v >>> 8).toUInt8]

def headerCmd (p : Bytes) : UInt8 := p.headD 0 &&& 0x1F

/-- The 16 bits of a header. -/
def header (p : Bytes) : UInt16 := UInt16.ofNat (p.field 0 2)

/-- The command id of `unpackHeader`. -/
def headerCmdid (p : Bytes) : UInt8 := ((header p >>> 5) &&& 0x07).toUInt8

def le32 (v : UInt32) : Bytes :=
  [v.toUInt8, (v >>> 8).toUInt8, (v >>> 16).toUInt8, (v >>> 24).toUInt8]

def packBlockType (blockShift : UInt8) (blockCount : UInt16) : Bytes :=
  le32 ((blockShift &&& 0x0F).toUInt32 ||| (blockCount &&& 0x1FF).toUInt32 <<< 4)

/-- `unpackBlockType` at offset 2: shift and count. -/
def unpackBlockType (p : Bytes) : Nat × Nat :=
  let v := UInt32.ofNat (p.field 2 4)
  ((v &&& 0x0F).toNat, ((v >>> 4) &&& 0x1FF).toNat)

/-- `sectorRequest`: the first sector and the count. -/
def sectorRequest (p : Bytes) : Int × Int := (p.field 2 4, p.field 6 2)

def ceilDiv (a b : Int) : Int := (a + b - 1).tdiv b

def blockShiftForSectors (sectors : Int) : UInt8 :=
  let size := sectors * SectorSize
  let packetsMin := ceilDiv size 1440
  if ceilDiv size 1024 = packetsMin then 7
  else if ceilDiv size 1280 = packetsMin then 6
  else if ceilDiv size 1408 = packetsMin then 5
  else 3

/-- The block size of `blockGeometry`. -/
def blockSize (shift : Nat) : Nat := 1 <<< (shift + 2)

def blocksPerPacket (shift : Nat) : Nat := rdmaMaxPayload / blockSize shift

def blocksPerSector (shift : Nat) : Nat := SectorSize.toNat / blockSize shift

/-! ## The server -/

structure Device where
  content : Bytes
  size : Int
  readOnly : Bool
  deriving DecidableEq, Repr

def Device.sectorCount (d : Device) : Int := d.size.tdiv SectorSize

/-- `readAtOffset`: zeros past the end. -/
def Device.readAtOffset (d : Device) (offset : Int) (size : Nat) : Bytes :=
  let data := d.content.sub offset.toNat size
  data ++ List.replicate (size - data.length) 0

/-- `net.UDPAddr`. -/
structure Peer (A : Type) where
  ip : A
  port : Nat
  deriving DecidableEq, Repr

structure WriteState (A : Type) where
  peerIP : Option A
  peer : Option (Peer A)
  offset : Int
  left : Int
  deriving DecidableEq, Repr

def WriteState.none {A : Type} : WriteState A := ⟨.none, .none, 0, 0⟩

/-- What was stored for the last CMD_WRITE accepted. -/
structure History where
  sector : Int
  count : Int
  payloads : List Bytes
  deriving DecidableEq, Repr

def History.declared (h : History) : Int := h.count * SectorSize

def History.received (h : History) : Int := h.payloads.flatten.length

structure Server (A : Type) where
  dev : Device
  write : WriteState A
  sent : List (Peer A × Bytes)
  history : History
  deriving DecidableEq, Repr

/-- The server of an image, opened read-only or not. -/
def Server.new {A : Type} (content : Bytes) (readOnly : Bool) : Server A :=
  ⟨⟨content, content.length, readOnly⟩, .none, [], ⟨0, 0, []⟩⟩

/-- A datagram from a peer, and what the calls made for it come to. -/
structure Event (A : Type) where
  peer : Peer A
  datagram : Bytes
  /-- A read of so many bytes at an offset succeeds. -/
  readable : Int → Nat → Bool
  /-- A write fails after so many bytes. -/
  writeFails : Option Nat
  synced : Bool
  /-- The send behind so many others succeeds. -/
  sendable : Nat → Bool

variable {A : Type}

/-- Whether the datagram left the socket. -/
def Server.send (s : Server A) (e : Event A) (p : Bytes) : Bool × Server A :=
  if e.sendable s.sent.length then (true, { s with sent := s.sent ++ [(e.peer, p)] })
  else (false, s)

def Server.sendWriteDone (s : Server A) (e : Event A) (cmdid : UInt8) (result : UInt32) :
    Server A :=
  (s.send e (packHeader CmdWriteDone cmdid ((cmdid + 1) &&& 0xFF) ++ le32 result)).2

def Server.handleInfo (s : Server A) (e : Event A) : Server A :=
  let s := { s with write := WriteState.none }
  let reply := packHeader CmdInfoReply (headerCmdid e.datagram) 1 ++
    le32 (UInt32.ofInt SectorSize) ++ le32 (UInt32.ofInt s.dev.sectorCount)
  (s.send e reply).2

/-- The loop of `handleRead`. Every pass sends at least one block. -/
def Server.readLoop (e : Event A) (shift : UInt8) (start : Int) :
    Nat → Nat → Int → UInt8 → Server A → Server A
  | 0, _, _, _, s => s
  | fuel + 1, blocksLeft, consumed, cmdpkt, s =>
      if blocksLeft = 0 then s
      else
        let blockCount := min blocksLeft (blocksPerPacket shift.toNat)
        let size := blockCount * blockSize shift.toNat
        if !e.readable (start * SectorSize + consumed) size then s
        else
          let data := s.dev.readAtOffset (start * SectorSize + consumed) size
          let packet := packHeader CmdReadRDMA (headerCmdid e.datagram) cmdpkt ++
            packBlockType shift (UInt16.ofNat blockCount) ++ data
          match s.send e packet with
          | (true, s) =>
              readLoop e shift start fuel (blocksLeft - blockCount) (consumed + size) (cmdpkt + 1) s
          | (false, s) => s

/-- The write is this peer's, by its address or its IP address alone. -/
def WriteState.matches [DecidableEq A] (st : WriteState A) (peer : Peer A) : Bool :=
  st.peer = some peer || st.peerIP = some peer.ip

/-- The sectors lie inside the image. -/
def Device.inRange (d : Device) (request : Int × Int) : Bool :=
  !(request.2 ≤ 0) && !(request.1 < 0 || d.sectorCount < request.1 + request.2)

variable [DecidableEq A]

def Server.handleRead (s : Server A) (e : Event A) : Server A :=
  let sectorNr := (sectorRequest e.datagram).1
  let sectorCount := (sectorRequest e.datagram).2
  if !s.dev.inRange (sectorNr, sectorCount) then s
  else
    let shift := blockShiftForSectors sectorCount
    let blocks := sectorCount.toNat * blocksPerSector shift.toNat
    let s := if 0 < s.write.left ∧ s.write.matches e.peer then { s with write := .none } else s
    s.readLoop e shift sectorNr blocks blocks 0 1

def Server.handleWrite (s : Server A) (e : Event A) : Server A :=
  let sectorNr := (sectorRequest e.datagram).1
  let sectorCount := (sectorRequest e.datagram).2
  if !s.dev.inRange (sectorNr, sectorCount) then s
  else { s with
    write := ⟨some e.peer.ip, some e.peer, sectorNr * SectorSize, sectorCount * SectorSize⟩
    history := ⟨sectorNr, sectorCount, []⟩ }

/-- `writeAt`: whether it succeeded, and the image after it. -/
def Device.writeAt (d : Device) (e : Event A) (offset : Int) (data : Bytes) : Bool × Device :=
  if d.readOnly then (true, d)
  else
    match e.writeFails with
    | none => (true, { d with content := d.content.splice offset.toNat data })
    | some n => (false, { d with content := d.content.splice offset.toNat (data.take n) })

/-- The payload of a WRITE_RDMA that is taken for the pending write, cut to what is left of it. -/
def Server.payload (s : Server A) (e : Event A) : Option Bytes :=
  if s.write.left ≤ 0 ∨ !s.write.matches e.peer then none
  else
    let (blockShift, blockCount) := unpackBlockType e.datagram
    let size := blockCount * blockSize blockShift
    if e.datagram.length < 6 + size then none
    else some (e.datagram.sub 6 (if s.write.left < size then s.write.left.toNat else size))

def Server.handleWriteRDMA (s : Server A) (e : Event A) : Server A :=
  let cmdid := headerCmdid e.datagram
  match s.payload e with
  | none => s
  | some data =>
      match s.dev.writeAt e s.write.offset data with
      | (false, dev) => { s with dev := dev, write := WriteState.none }.sendWriteDone e cmdid (-1)
      | (true, dev) =>
          let history := { s.history with payloads := s.history.payloads ++ [data] }
          let left := s.write.left - data.length
          if left ≤ 0 then
            let s := { s with dev := dev, write := WriteState.none, history := history }
            s.sendWriteDone e cmdid (if s.dev.readOnly || !e.synced then -1 else 0)
          else { s with
            dev := dev
            write := { s.write with offset := s.write.offset + data.length, left := left }
            history := history }

def Server.dispatch (s : Server A) (e : Event A) : Server A :=
  if headerCmd e.datagram = CmdInfo then s.handleInfo e
  else if headerCmd e.datagram = CmdRead then
    if 8 ≤ e.datagram.length then s.handleRead e else s
  else if headerCmd e.datagram = CmdWrite then
    if 8 ≤ e.datagram.length then s.handleWrite e else s
  else if headerCmd e.datagram = CmdWriteRDMA then
    if 6 ≤ e.datagram.length then s.handleWriteRDMA e else s
  else s

/-- One datagram of `Serve`. -/
def Server.next (s : Server A) (e : Event A) : Server A :=
  if e.datagram.length < 2 then s else s.dispatch e

/-- All runs of a server that starts on an image. -/
def runs (content : Bytes) (readOnly : Bool) : System (Server A) (Event A) :=
  .ofNext (Server.new content readOnly) Server.next

/-! ## Packed fields -/

theorem or_shiftLeft {a b n : Nat} (ha : a < 2 ^ n) : a ||| b <<< n = a + b * 2 ^ n := by
  rw [Nat.or_comm, ← Nat.shiftLeft_add_eq_or_of_lt ha, Nat.shiftLeft_eq, Nat.add_comm]

theorem bytes_of_uint16 (v : UInt16) : [v.toUInt8, (v >>> 8).toUInt8] = Bytes.ofNat 2 v.toNat := by
  have hlow : v.toUInt8 = UInt8.ofNat (v.toNat % 256) := UInt8.toNat_inj.mp (by simp)
  have hhigh : (v >>> 8).toUInt8 = UInt8.ofNat (v.toNat / 256 % 256) :=
    UInt8.toNat_inj.mp (by simp [Nat.shiftRight_eq_div_pow])
  rw [hlow, hhigh]
  rfl

theorem le32_eq (v : UInt32) : le32 v = Bytes.ofNat 4 v.toNat := by
  have h0 : v.toUInt8 = UInt8.ofNat (v.toNat % 256) := UInt8.toNat_inj.mp (by simp)
  have h1 : (v >>> 8).toUInt8 = UInt8.ofNat (v.toNat / 256 % 256) :=
    UInt8.toNat_inj.mp (by simp [Nat.shiftRight_eq_div_pow])
  have h2 : (v >>> 16).toUInt8 = UInt8.ofNat (v.toNat / 256 / 256 % 256) :=
    UInt8.toNat_inj.mp (by simp [Nat.shiftRight_eq_div_pow, Nat.div_div_eq_div_mul])
  have h3 : (v >>> 24).toUInt8 = UInt8.ofNat (v.toNat / 256 / 256 / 256 % 256) :=
    UInt8.toNat_inj.mp (by simp [Nat.shiftRight_eq_div_pow, Nat.div_div_eq_div_mul])
  unfold le32
  rw [h0, h1, h2, h3]
  rfl

theorem packHeader_eq (cmd cmdid cmdpkt : UInt8) : packHeader cmd cmdid cmdpkt =
    Bytes.ofNat 2 (cmd.toNat % 0x20 + cmdid.toNat % 0x08 * 0x20 + cmdpkt.toNat * 0x100) := by
  have hcmd : (cmd &&& 0x1F).toNat = cmd.toNat % 2 ^ 5 := by
    rw [UInt8.toNat_and]
    exact Nat.and_two_pow_sub_one_eq_mod cmd.toNat 5
  have hid : (cmdid &&& 0x07).toNat = cmdid.toNat % 2 ^ 3 := by
    rw [UInt8.toNat_and]
    exact Nat.and_two_pow_sub_one_eq_mod cmdid.toNat 3
  have hpkt := cmdpkt.toNat_lt
  have h5 : (5 : UInt16).toNat % 16 = 5 := rfl
  have h8 : (8 : UInt16).toNat % 16 = 8 := rfl
  have hidlt : (cmdid.toNat % 2 ^ 3) <<< 5 < 2 ^ 16 := by
    rw [Nat.shiftLeft_eq]
    omega
  have hpktlt : cmdpkt.toNat <<< 8 < 2 ^ 16 := by
    rw [Nat.shiftLeft_eq]
    omega
  unfold packHeader
  rw [bytes_of_uint16]
  simp only [UInt16.toNat_or, UInt16.toNat_shiftLeft, UInt8.toNat_toUInt16, hcmd, hid]
  rw [h5, h8, Nat.mod_eq_of_lt hidlt, Nat.mod_eq_of_lt hpktlt,
    or_shiftLeft (Nat.mod_lt _ (by decide)), or_shiftLeft (by omega)]
  rfl

theorem toNat_headerCmd (p : Bytes) : (headerCmd p).toNat = p.field 0 1 % 0x20 := by
  unfold headerCmd
  rw [UInt8.toNat_and]
  have hmask := Nat.and_two_pow_sub_one_eq_mod (p.headD 0).toNat 5
  cases p with
  | nil => rfl
  | cons b rest =>
      simpa [Bytes.field, Bytes.sub, Bytes.le] using hmask

theorem headerCmd_packHeader (cmd cmdid cmdpkt : UInt8) (rest : Bytes) :
    headerCmd (packHeader cmd cmdid cmdpkt ++ rest) = cmd &&& 0x1F := by
  apply UInt8.toNat_inj.mp
  have hmask : (cmd &&& 0x1F).toNat = cmd.toNat % 2 ^ 5 := by
    rw [UInt8.toNat_and]
    exact Nat.and_two_pow_sub_one_eq_mod cmd.toNat 5
  have hcons : packHeader cmd cmdid cmdpkt ++ rest = Bytes.ofNat 1 (cmd.toNat % 0x20 +
      cmdid.toNat % 0x08 * 0x20 + cmdpkt.toNat * 0x100) ++
      (Bytes.ofNat 1 ((cmd.toNat % 0x20 + cmdid.toNat % 0x08 * 0x20 + cmdpkt.toNat * 0x100) / 256) ++
        rest) := by
    rw [packHeader_eq]
    rfl
  rw [toNat_headerCmd, hmask, hcons, Bytes.field_ofNat]
  omega
/-! ## One datagram -/

/-- A CMD_WRITE of sectors inside the image. -/
def Server.accepts (s : Server A) (e : Event A) : Bool :=
  headerCmd e.datagram = CmdWrite && 8 ≤ e.datagram.length &&
    s.dev.inRange (sectorRequest e.datagram)

/-- A CMD_WRITE_RDMA that the pending write takes these bytes of. -/
def Server.takes (s : Server A) (e : Event A) (data : Bytes) : Prop :=
  headerCmd e.datagram = CmdWriteRDMA ∧ 6 ≤ e.datagram.length ∧ s.payload e = some data

instance (s : Server A) (e : Event A) (data : Bytes) : Decidable (s.takes e data) :=
  inferInstanceAs (Decidable (_ ∧ _))

/-- The pending write behind these bytes. -/
def WriteState.advance (st : WriteState A) (data : Bytes) : WriteState A :=
  if st.left - data.length ≤ 0 then .none
  else { st with offset := st.offset + data.length, left := st.left - data.length }

/-- The write state of a CMD_WRITE. -/
def WriteState.of (e : Event A) : WriteState A :=
  ⟨some e.peer.ip, some e.peer, (sectorRequest e.datagram).1 * SectorSize,
    (sectorRequest e.datagram).2 * SectorSize⟩

/-- What a datagram does to the image and to the pending write. -/
inductive Change (s : Server A) (e : Event A) : Device → WriteState A → History → Prop
  | kept : Change s e s.dev s.write s.history
  | dropped (h : headerCmd e.datagram = CmdInfo ∨ s.write.matches e.peer = true) :
      Change s e s.dev .none s.history
  | replaced (h : s.accepts e = true) :
      Change s e s.dev (.of e)
        ⟨(sectorRequest e.datagram).1, (sectorRequest e.datagram).2, []⟩
  | stored {data : Bytes} (h : s.takes e data) (hok : s.dev.readOnly = true ∨ e.writeFails = none) :
      Change s e (s.dev.writeAt e s.write.offset data).2 (s.write.advance data)
        { s.history with payloads := s.history.payloads ++ [data] }
  | failed {data : Bytes} {n : Nat} (h : s.takes e data) (hro : s.dev.readOnly = false)
      (hfail : e.writeFails = some n) :
      Change s e { s.dev with content := s.dev.content.splice s.write.offset.toNat (data.take n) }
        .none s.history

/-- The two states differ in what was sent alone. -/
def Server.SameFile (s t : Server A) : Prop :=
  t.dev = s.dev ∧ t.write = s.write ∧ t.history = s.history

omit [DecidableEq A] in
theorem sameFile_send (s : Server A) (e : Event A) (p : Bytes) : s.SameFile (s.send e p).2 := by
  unfold Server.send
  split <;> exact ⟨rfl, rfl, rfl⟩

omit [DecidableEq A] in
theorem sameFile_readLoop (e : Event A) (shift : UInt8) (start : Int) (fuel blocksLeft : Nat)
    (consumed : Int) (cmdpkt : UInt8) (s : Server A) :
    s.SameFile (s.readLoop e shift start fuel blocksLeft consumed cmdpkt) := by
  induction fuel generalizing blocksLeft consumed cmdpkt s with
  | zero => exact ⟨rfl, rfl, rfl⟩
  | succ fuel ih =>
      unfold Server.readLoop
      split
      · exact ⟨rfl, rfl, rfl⟩
      dsimp only
      split
      · exact ⟨rfl, rfl, rfl⟩
      · split
        all_goals
          rename_i t hsend
          have hsame := sameFile_send s e (packHeader CmdReadRDMA (headerCmdid e.datagram) cmdpkt ++
            packBlockType shift (UInt16.ofNat (min blocksLeft (blocksPerPacket shift.toNat))) ++
              s.dev.readAtOffset (start * SectorSize + consumed)
                (min blocksLeft (blocksPerPacket shift.toNat) * blockSize shift.toNat))
          rw [hsend] at hsame
        · obtain ⟨hdev, hwrite, hhistory⟩ := ih _ _ _ t
          exact ⟨hdev.trans hsame.1, hwrite.trans hsame.2.1, hhistory.trans hsame.2.2⟩
        · exact hsame

theorem Server.SameFile.change {s t u : Server A} {e : Event A}
    (h : t.SameFile u) (hc : Change s e t.dev t.write t.history) :
    Change s e u.dev u.write u.history := by
  rw [h.1, h.2.1, h.2.2]
  exact hc

theorem change_handleRead (s : Server A) (e : Event A) :
    Change s e (s.handleRead e).dev (s.handleRead e).write (s.handleRead e).history := by
  unfold Server.handleRead
  dsimp only
  split
  · exact .kept
  · refine (sameFile_readLoop _ _ _ _ _ _ _ _).change ?_
    split
    · rename_i hown
      exact .dropped (Or.inr hown.2)
    · exact .kept

theorem change_handleWrite (s : Server A) {e : Event A} (hcmd : headerCmd e.datagram = CmdWrite)
    (hlength : 8 ≤ e.datagram.length) :
    Change s e (s.handleWrite e).dev (s.handleWrite e).write (s.handleWrite e).history := by
  unfold Server.handleWrite
  dsimp only
  split
  · exact .kept
  · rename_i hrange
    refine Change.replaced ?_
    simpa [Server.accepts, hcmd, hlength] using hrange

omit [DecidableEq A] in
theorem writeAt_readOnly {d : Device} (h : d.readOnly = true) (e : Event A) (offset : Int)
    (data : Bytes) : d.writeAt e offset data = (true, d) := if_pos h

omit [DecidableEq A] in
theorem writeAt_ok {d : Device} (hro : d.readOnly = false) {e : Event A}
    (hfails : e.writeFails = none) (offset : Int) (data : Bytes) : d.writeAt e offset data =
      (true, { d with content := d.content.splice offset.toNat data }) := by
  unfold Device.writeAt
  rw [hro, if_neg Bool.false_ne_true, hfails]

omit [DecidableEq A] in
theorem writeAt_failed {d : Device} (hro : d.readOnly = false) {e : Event A} {n : Nat}
    (hfails : e.writeFails = some n) (offset : Int) (data : Bytes) : d.writeAt e offset data =
      (false, { d with content := d.content.splice offset.toNat (data.take n) }) := by
  unfold Device.writeAt
  rw [hro, if_neg Bool.false_ne_true, hfails]

/-- A payload that is stored, and what is answered when it is the last. -/
theorem handleWriteRDMA_stored {s : Server A} {e : Event A} {data : Bytes}
    (hdata : s.payload e = some data) (hok : s.dev.readOnly = true ∨ e.writeFails = none) :
    s.handleWriteRDMA e =
      let t : Server A := { s with
        dev := (s.dev.writeAt e s.write.offset data).2
        write := s.write.advance data
        history := { s.history with payloads := s.history.payloads ++ [data] } }
      if s.write.left - data.length ≤ 0 then
        t.sendWriteDone e (headerCmdid e.datagram)
          (if s.dev.readOnly || !e.synced then -1 else 0)
      else t := by
  have hwrite : ∃ dev, s.dev.writeAt e s.write.offset data = (true, dev) ∧
      dev.readOnly = s.dev.readOnly := by
    cases hro : s.dev.readOnly with
    | true => exact ⟨s.dev, writeAt_readOnly hro e _ _, hro⟩
    | false => exact ⟨_, writeAt_ok hro (hok.resolve_left (by simp [hro])) _ _, hro⟩
  obtain ⟨dev, hwrite, hmode⟩ := hwrite
  unfold Server.handleWriteRDMA
  rw [hdata]
  dsimp only
  rw [hwrite]
  dsimp only
  by_cases hlast : s.write.left - data.length ≤ 0
  · rw [if_pos hlast, if_pos hlast, hmode, WriteState.advance, if_pos hlast]
  · rw [if_neg hlast, if_neg hlast, WriteState.advance, if_neg hlast]

theorem change_handleWriteRDMA (s : Server A) {e : Event A}
    (hcmd : headerCmd e.datagram = CmdWriteRDMA) (hlength : 6 ≤ e.datagram.length) :
    Change s e (s.handleWriteRDMA e).dev (s.handleWriteRDMA e).write
      (s.handleWriteRDMA e).history := by
  cases hdata : s.payload e with
  | none =>
      unfold Server.handleWriteRDMA
      rw [hdata]
      exact .kept
  | some data =>
      have htakes : s.takes e data := ⟨hcmd, hlength, hdata⟩
      by_cases hok : s.dev.readOnly = true ∨ e.writeFails = none
      · rw [handleWriteRDMA_stored hdata hok]
        dsimp only
        split
        · exact (sameFile_send _ _ _).change (.stored htakes hok)
        · exact .stored htakes hok
      · obtain ⟨hro, hfails⟩ := not_or.mp hok
        have hro : s.dev.readOnly = false := by simpa using hro
        obtain ⟨n, hn⟩ := Option.ne_none_iff_exists'.mp hfails
        unfold Server.handleWriteRDMA
        rw [hdata]
        dsimp only
        rw [writeAt_failed hro hn]
        exact (sameFile_send _ _ _).change (.failed htakes hro hn)

theorem change_next (s : Server A) (e : Event A) :
    Change s e (s.next e).dev (s.next e).write (s.next e).history := by
  unfold Server.next Server.dispatch
  split
  · exact .kept
  split
  · rename_i hcmd
    exact (sameFile_send _ _ _).change (.dropped (Or.inl hcmd))
  split
  · split
    · exact change_handleRead s e
    · exact .kept
  split
  · split
    · exact change_handleWrite s (by assumption) (by assumption)
    · exact .kept
  split
  · split
    · exact change_handleWriteRDMA s (by assumption) (by assumption)
    · exact .kept
  · exact .kept
/-! ## What is answered -/

/-- The message reports a write with result 0. -/
def reportsSuccess (p : Bytes) : Bool := headerCmd p = CmdWriteDone && p.drop 2 = le32 0

/-- The datagram ends the pending write, and everything was written and synced. -/
def Server.succeeds (s : Server A) (e : Event A) : Prop :=
  ∃ data, s.takes e data ∧ s.dev.readOnly = false ∧ e.writeFails = none ∧ e.synced = true ∧
    s.write.left ≤ data.length

/-- Behind what `s` has sent, `t` has sent to the peer of `e` only, and a success if there was
one. -/
def Server.Answers (s : Server A) (e : Event A) (t : Server A) : Prop :=
  ∃ out, t.sent = s.sent ++ out ∧
    ∀ m ∈ out, m.1 = e.peer ∧ (reportsSuccess m.2 = true → s.succeeds e)

variable {s t : Server A} {e : Event A}

theorem Server.Answers.of_eq (h : t.sent = s.sent) : s.Answers e t :=
  ⟨[], by rw [h, List.append_nil], fun _ hm => by cases hm⟩

/-- One more message. -/
theorem Server.Answers.send (h : s.Answers e t) {p : Bytes}
    (hp : reportsSuccess p = true → s.succeeds e) : s.Answers e (t.send e p).2 := by
  unfold Server.send
  split
  · obtain ⟨out, hsent, hout⟩ := h
    refine ⟨out ++ [(e.peer, p)], by rw [hsent, List.append_assoc], ?_⟩
    intro m hm
    rcases List.mem_append.mp hm with hm | hm
    · exact hout m hm
    · obtain rfl := List.mem_singleton.mp hm
      exact ⟨rfl, hp⟩
  · exact h

theorem Server.Answers.of_send (h : s.Answers e t) {p : Bytes} {left : Bool} {u : Server A}
    (hsend : t.send e p = (left, u)) (hp : reportsSuccess p = false) : s.Answers e u := by
  have hnext := h.send fun hsuccess => absurd hsuccess (by rw [hp]; exact Bool.false_ne_true)
  rw [hsend] at hnext
  exact hnext

theorem not_reportsSuccess {cmd : UInt8} (hcmd : cmd &&& 0x1F ≠ CmdWriteDone)
    (cmdid cmdpkt : UInt8) (rest : Bytes) :
    reportsSuccess (packHeader cmd cmdid cmdpkt ++ rest) = false := by
  rw [reportsSuccess, headerCmd_packHeader]
  simp [hcmd]

/-- A reply to a write reports its result. -/
theorem reportsSuccess_done (cmdid : UInt8) (result : UInt32) :
    reportsSuccess (packHeader CmdWriteDone cmdid ((cmdid + 1) &&& 0xFF) ++ le32 result) = true ↔
      le32 result = le32 0 := by
  have hcmd : CmdWriteDone &&& 0x1F = CmdWriteDone := rfl
  rw [reportsSuccess, headerCmd_packHeader, hcmd]
  simp [packHeader]

theorem Server.Answers.readLoop (shift : UInt8) (start : Int) (fuel blocksLeft : Nat)
    (consumed : Int) (cmdpkt : UInt8) (h : s.Answers e t) :
    s.Answers e (t.readLoop e shift start fuel blocksLeft consumed cmdpkt) := by
  induction fuel generalizing blocksLeft consumed cmdpkt t with
  | zero => exact h
  | succ fuel ih =>
      unfold Server.readLoop
      split
      · exact h
      dsimp only
      split
      · exact h
      · rw [List.append_assoc]
        split
        · rename_i u hsend
          exact ih _ _ _ (h.of_send hsend (not_reportsSuccess (by decide) _ _ _))
        · rename_i u hsend
          exact h.of_send hsend (not_reportsSuccess (by decide) _ _ _)

theorem answers_handleRead (s : Server A) (e : Event A) : s.Answers e (s.handleRead e) := by
  unfold Server.handleRead
  dsimp only
  split
  · exact .of_eq rfl
  · apply Server.Answers.readLoop
    split
    · exact .of_eq rfl
    · exact .of_eq rfl

theorem answers_handleWriteRDMA {s : Server A} {e : Event A}
    (hcmd : headerCmd e.datagram = CmdWriteRDMA) (hlength : 6 ≤ e.datagram.length) :
    s.Answers e (s.handleWriteRDMA e) := by
  cases hdata : s.payload e with
  | none =>
      unfold Server.handleWriteRDMA
      rw [hdata]
      exact .of_eq rfl
  | some data =>
      by_cases hok : s.dev.readOnly = true ∨ e.writeFails = none
      · rw [handleWriteRDMA_stored hdata hok]
        dsimp only
        split
        · rename_i hlast
          unfold Server.sendWriteDone
          apply Server.Answers.send
          · exact .of_eq rfl
          · intro hp
            rw [reportsSuccess_done] at hp
            split at hp
            · exact absurd hp (by decide)
            · rename_i hresult
              simp only [Bool.or_eq_true, Bool.not_eq_true', not_or, Bool.not_eq_true,
                Bool.not_eq_false] at hresult
              exact ⟨data, ⟨hcmd, hlength, hdata⟩, hresult.1,
                hok.resolve_left (by simp [hresult.1]), hresult.2, by omega⟩
        · exact .of_eq rfl
      · obtain ⟨hro, hfails⟩ := not_or.mp hok
        have hro : s.dev.readOnly = false := by simpa using hro
        obtain ⟨n, hn⟩ := Option.ne_none_iff_exists'.mp hfails
        unfold Server.handleWriteRDMA
        rw [hdata]
        dsimp only
        rw [writeAt_failed hro hn]
        dsimp only
        unfold Server.sendWriteDone
        apply Server.Answers.send
        · exact .of_eq rfl
        · intro hp
          rw [reportsSuccess_done] at hp
          exact absurd hp (by decide)

theorem answers_next (s : Server A) (e : Event A) : s.Answers e (s.next e) := by
  unfold Server.next Server.dispatch
  split
  · exact .of_eq rfl
  split
  · unfold Server.handleInfo
    dsimp only
    rw [List.append_assoc]
    apply Server.Answers.send
    · exact .of_eq rfl
    · intro hp
      rw [not_reportsSuccess (by decide)] at hp
      cases hp
  split
  · split
    · exact answers_handleRead s e
    · exact .of_eq rfl
  split
  · split
    · unfold Server.handleWrite
      dsimp only
      split <;> exact .of_eq rfl
    · exact .of_eq rfl
  split
  · split
    · exact answers_handleWriteRDMA (by assumption) (by assumption)
    · exact .of_eq rfl
  · exact .of_eq rfl

/-! ## Write ownership -/

/-- The place behind the payloads stored for the last CMD_WRITE. -/
def History.place (h : History) : Int := h.sector * SectorSize + h.received

/-- What the pending write is allowed to be. -/
structure Owned (content : Bytes) (readOnly : Bool) (dev : Device) (write : WriteState A)
    (history : History) : Prop where
  mode : dev.readOnly = readOnly
  size : dev.size = content.length
  length : dev.content.length = content.length
  frozen : readOnly = true → dev.content = content
  bound : history.received ≤ history.declared
  owner : ∀ p, write.peer = some p → write.peerIP = some p.ip
  pending : 0 < write.left → history.received + write.left = history.declared ∧
    write.offset = history.place ∧ 0 ≤ history.sector ∧
    history.sector * SectorSize + history.declared ≤ content.length

omit [DecidableEq A] in
theorem received_append (h : History) (data : Bytes) :
    ({ h with payloads := h.payloads ++ [data] } : History).received = h.received + data.length := by
  simp [History.received]

/-- No more is taken than is left. -/
theorem Server.takes.le_left {data : Bytes} (h : s.takes e data) :
    0 < s.write.left ∧ s.write.matches e.peer = true ∧ (data.length : Int) ≤ s.write.left := by
  obtain ⟨-, -, hdata⟩ := h
  unfold Server.payload at hdata
  split at hdata
  · cases hdata
  · rename_i hown
    rw [not_or, Bool.not_eq_true, Bool.not_eq_false'] at hown
    refine ⟨by omega, hown.2, ?_⟩
    dsimp only at hdata
    generalize (unpackBlockType e.datagram).2 * blockSize (unpackBlockType e.datagram).1 = size
      at hdata
    split at hdata
    · cases hdata
    · cases hdata
      split
      · have hle := Bytes.sub_length_le e.datagram 6 s.write.left.toNat
        omega
      · have hle := Bytes.sub_length_le e.datagram 6 size
        omega

/-- The pending write is another console's. -/
theorem Owned.not_matches {content : Bytes} {readOnly : Bool}
    (hs : Owned content readOnly s.dev s.write s.history) {peer : Peer A} (hip : s.write.peerIP ≠ some peer.ip) :
    s.write.matches peer = false := by
  unfold WriteState.matches
  have hpeer : s.write.peer ≠ some peer := fun h => hip (hs.owner peer h)
  simp [hpeer, hip]

omit [DecidableEq A] in
theorem owner_advance {st : WriteState A} (h : ∀ p, st.peer = some p → st.peerIP = some p.ip)
    (data : Bytes) : ∀ p, (st.advance data).peer = some p → (st.advance data).peerIP = some p.ip := by
  unfold WriteState.advance
  split
  · rintro p ⟨⟩
  · exact h

/-- What is stored for the pending write lies inside the image. -/
theorem Owned.fits {content : Bytes} {readOnly : Bool}
    (hs : Owned content readOnly s.dev s.write s.history) {data : Bytes} (h : s.takes e data) :
    s.write.offset.toNat + data.length ≤ s.dev.content.length := by
  obtain ⟨hleft, -, hdata⟩ := h.le_left
  obtain ⟨hsum, hoffset, hsector, hinside⟩ := hs.pending hleft
  have hplace : s.history.place = s.history.sector * SectorSize + s.history.received := rfl
  have hreceived : 0 ≤ s.history.received := Int.natCast_nonneg _
  have hstart : 0 ≤ s.history.sector * SectorSize := Int.mul_nonneg hsector (by decide)
  have hlength := hs.length
  omega

theorem Owned.change {content : Bytes} {readOnly : Bool}
    (hs : Owned content readOnly s.dev s.write s.history) {dev : Device} {write : WriteState A}
    {history : History} (hc : Change s e dev write history) :
    Owned content readOnly dev write history := by
  cases hc with
  | kept => exact hs
  | dropped h =>
      refine { hs with owner := ?_, pending := ?_ }
      · rintro p ⟨⟩
      · intro hleft
        exact absurd hleft (Int.lt_irrefl 0)
  | replaced h =>
      simp only [Server.accepts, Device.inRange, Bool.and_eq_true, Bool.not_eq_true',
        decide_eq_false_iff_not, Bool.or_eq_false_iff] at h
      obtain ⟨-, hcount, hsector, hrange⟩ := h
      have hsize := hs.size
      have hdeclared : ∀ sector count : Int, (⟨sector, count, []⟩ : History).declared =
          count * SectorSize := fun _ _ => rfl
      have hreceived : ∀ sector count : Int, (⟨sector, count, []⟩ : History).received = 0 :=
        fun _ _ => rfl
      have hunit : SectorSize = 512 := rfl
      refine { hs with bound := ?_, owner := ?_, pending := ?_ }
      · rw [hdeclared, hreceived, hunit]
        omega
      · rintro p hp
        cases hp
        rfl
      · intro _
        refine ⟨?_, ?_, Int.not_lt.mp hsector, ?_⟩
        · rw [hdeclared, hreceived]
          exact Int.zero_add _
        · rw [History.place, hreceived]
          exact (Int.add_zero _).symm
        · rw [hdeclared]
          unfold Device.sectorCount at hrange
          rw [hunit] at hrange ⊢
          rw [Int.tdiv_eq_ediv_of_nonneg (by omega)] at hrange
          dsimp only
          omega
  | stored h hok =>
      rename_i data
      obtain ⟨hleft, -, hdata⟩ := h.le_left
      obtain ⟨hsum, hoffset, hsector, hinside⟩ := hs.pending hleft
      have hdev : (s.dev.writeAt e s.write.offset data).2.readOnly = s.dev.readOnly ∧
          (s.dev.writeAt e s.write.offset data).2.size = s.dev.size ∧
          (s.dev.writeAt e s.write.offset data).2.content.length = s.dev.content.length ∧
          (s.dev.readOnly = true →
            (s.dev.writeAt e s.write.offset data).2.content = s.dev.content) := by
        cases hro : s.dev.readOnly with
        | true =>
            rw [writeAt_readOnly hro]
            exact ⟨hro, rfl, rfl, fun _ => rfl⟩
        | false =>
            rw [writeAt_ok hro (hok.resolve_left (by simp [hro]))]
            exact ⟨hro, rfl, Bytes.length_splice (hs.fits h), fun h => by cases h⟩
      have hadd := received_append s.history data
      have hdeclared : ({ s.history with payloads := s.history.payloads ++ [data] } :
          History).declared = s.history.declared := rfl
      constructor
      · exact hdev.1.trans hs.mode
      · exact hdev.2.1.trans hs.size
      · exact hdev.2.2.1.trans hs.length
      · intro hro
        exact (hdev.2.2.2 (hs.mode.trans hro)).trans (hs.frozen hro)
      · rw [hadd, hdeclared]
        omega
      · exact owner_advance hs.owner data
      · unfold WriteState.advance
        split
        · intro hpos
          exact absurd hpos (Int.lt_irrefl 0)
        · intro _
          refine ⟨?_, ?_, hsector, hinside⟩
          · rw [hadd, hdeclared]
            dsimp only
            omega
          · rw [History.place, hadd]
            dsimp only
            rw [hoffset, History.place]
            omega
  | failed h hro hfail =>
      rename_i data n
      have hfits := hs.fits h
      have htake := List.length_take_le n data
      have htake' := List.length_take_le' n data
      constructor
      · exact hs.mode
      · exact hs.size
      · exact (Bytes.length_splice (by omega)).trans hs.length
      · intro hread
        rw [← hs.mode, hro] at hread
        cases hread
      · exact hs.bound
      · rintro p ⟨⟩
      · intro hpos
        exact absurd hpos (Int.lt_irrefl 0)

variable {content : Bytes} {readOnly : Bool}

theorem owned_of_reached (h : (runs content readOnly).Reached s) :
    Owned content readOnly s.dev s.write s.history := by
  refine @System.ReachedWhen.invariant _ _ _ _
    (fun s : Server A => Owned content readOnly s.dev s.write s.history) ?_ ?_ s h
  · rintro s rfl
    refine ⟨rfl, rfl, rfl, fun _ => rfl, Int.le_refl 0, ?_, fun hleft => ?_⟩
    · rintro p ⟨⟩
    · exact absurd hleft (Int.lt_irrefl 0)
  · rintro s e t hs - rfl
    exact hs.change (change_next s e)

/-- A read-only server reports no success. -/
theorem silent_of_reached (h : (runs content true).Reached s) :
    ∀ m ∈ s.sent, reportsSuccess m.2 = false := by
  have hboth : s.dev.readOnly = true ∧ ∀ m ∈ s.sent, reportsSuccess m.2 = false := by
    induction h with
    | init h =>
        obtain rfl := h
        exact ⟨rfl, fun m hm => by cases hm⟩
    | @step s t e hreached _ hs ih =>
        obtain rfl := hs
        have hmode := ((owned_of_reached hreached).change (change_next s e)).mode
        refine ⟨hmode, fun m hm => ?_⟩
        obtain ⟨out, hsent, hout⟩ := answers_next s e
        rw [hsent] at hm
        rcases List.mem_append.mp hm with hm | hm
        · exact ih.2 m hm
        · refine Bool.eq_false_iff.mpr fun hsuccess => ?_
          obtain ⟨data, -, hwritable, -⟩ := (hout m hm).2 hsuccess
          rw [ih.1] at hwritable
          cases hwritable
  exact hboth.2

theorem next_of_takes {data : Bytes} (h : s.takes e data) : s.next e = s.handleWriteRDMA e := by
  obtain ⟨hcmd, hlength, -⟩ := h
  unfold Server.next Server.dispatch
  rw [if_neg (by omega), hcmd, if_neg (by decide), if_neg (by decide), if_neg (by decide),
    if_pos rfl, if_pos hlength]

/-- A payload that is stored: the image, the pending write and the history behind it. -/
theorem next_stored {data : Bytes} (h : s.takes e data)
    (hok : s.dev.readOnly = true ∨ e.writeFails = none) :
    (s.next e).dev = (s.dev.writeAt e s.write.offset data).2 ∧
      (s.next e).write = s.write.advance data ∧
      (s.next e).history = { s.history with payloads := s.history.payloads ++ [data] } := by
  rw [next_of_takes h, handleWriteRDMA_stored h.2.2 hok]
  dsimp only
  split
  · exact sameFile_send _ _ _
  · exact ⟨rfl, rfl, rfl⟩

/-- A payload that could not be stored ends the pending write. -/
theorem next_failed {data : Bytes} (h : s.takes e data) (hro : s.dev.readOnly = false) {n : Nat}
    (hfails : e.writeFails = some n) : (s.next e).write = .none := by
  rw [next_of_takes h]
  unfold Server.handleWriteRDMA
  rw [h.2.2]
  dsimp only
  rw [writeAt_failed hro hfails]
  exact (sameFile_send _ _ _).2.1

/-- A datagram of another IP address leaves the image alone, and the pending write unless it is
a CMD_INFO or a CMD_WRITE inside the image. -/
theorem Owned.other (hs : Owned content readOnly s.dev s.write s.history)
    (hip : s.write.peerIP ≠ some e.peer.ip) : (s.next e).dev = s.dev ∧
      ((s.next e).write = s.write ∨ headerCmd e.datagram = CmdInfo ∨ s.accepts e = true) := by
  have hother : s.write.matches e.peer = false := hs.not_matches hip
  have hchange := change_next s e
  generalize (s.next e).dev = dev at hchange ⊢
  generalize (s.next e).write = write at hchange ⊢
  generalize (s.next e).history = history at hchange
  cases hchange with
  | kept => exact ⟨rfl, Or.inl rfl⟩
  | dropped h =>
      refine ⟨rfl, Or.inr (Or.inl (h.resolve_right ?_))⟩
      rw [hother]
      exact Bool.false_ne_true
  | replaced h => exact ⟨rfl, Or.inr (Or.inr h)⟩
  | stored h hok => exact absurd h.le_left.2.1 (by rw [hother]; exact Bool.false_ne_true)
  | failed h hro hfail => exact absurd h.le_left.2.1 (by rw [hother]; exact Bool.false_ne_true)

/-- In every run the pending write takes no more than it declared, a payload it takes goes behind
those before it, and datagrams of other IP addresses leave it and the image alone, up to a
CMD_INFO and a CMD_WRITE inside the image. A read-only server neither changes the image nor
reports a write with result 0. -/
theorem write_ownership (h : (runs content readOnly).Reached s) :
    s.history.received ≤ s.history.declared ∧
    (0 < s.write.left → s.history.received + s.write.left = s.history.declared) ∧
    (∀ e data, s.takes e data → readOnly = false → e.writeFails = none →
      (s.next e).dev.content = s.dev.content.splice s.history.place.toNat data ∧
      (s.next e).history = { s.history with payloads := s.history.payloads ++ [data] }) ∧
    (∀ e, s.write.peerIP ≠ some e.peer.ip → (s.next e).dev = s.dev ∧
      ((s.next e).write = s.write ∨ headerCmd e.datagram = CmdInfo ∨ s.accepts e = true)) ∧
    (readOnly = true → s.dev.content = content ∧ ∀ m ∈ s.sent, reportsSuccess m.2 = false) := by
  have hs := owned_of_reached h
  refine ⟨hs.bound, fun hleft => (hs.pending hleft).1, ?_, fun e hip => hs.other hip, ?_⟩
  · intro e data htakes hro hfails
    have hmode : s.dev.readOnly = false := hs.mode.trans hro
    have hplace := (hs.pending htakes.le_left.1).2.1
    obtain ⟨hdev, -, hhistory⟩ := next_stored htakes (Or.inr hfails)
    rw [writeAt_ok hmode hfails, hplace] at hdev
    exact ⟨congrArg Device.content hdev, hhistory⟩
  · rintro rfl
    exact ⟨hs.frozen rfl, silent_of_reached h⟩

/-- A datagram for which every call of the host succeeds. -/
def sentBy (ip : Nat) (datagram : Bytes) : Event Nat :=
  ⟨⟨ip, 48573⟩, datagram, fun _ _ => true, none, true, fun _ => true⟩

def writeRequest (cmdid : UInt8) (sector : UInt32) (count : UInt16) : Bytes :=
  packHeader CmdWrite cmdid 0 ++ le32 sector ++ [count.toUInt8, (count >>> 8).toUInt8]

def writePacket (cmdid : UInt8) (data : Bytes) : Bytes :=
  packHeader CmdWriteRDMA cmdid 1 ++ packBlockType 7 (UInt16.ofNat (data.length / 512)) ++ data

/-- A console begins to write two sectors. -/
def begun : Server Nat :=
  [sentBy 1 (writeRequest 0 0 2), sentBy 1 (writePacket 0 (List.replicate 512 7))].foldl Server.next
    (.new (List.replicate 1024 0) false)

theorem reached_begun : (runs (A := Nat) (List.replicate 1024 0) false).Reached begun :=
  System.ReachedWhen.along (.init rfl) (Along.of_forall (fun _ _ => trivial) _ _)

theorem write_ownership_begun : begun.history.received ≤ begun.history.declared ∧
    (0 < begun.write.left →
      begun.history.received + begun.write.left = begun.history.declared) ∧
    (∀ e data, begun.takes e data → false = false → e.writeFails = none →
      (begun.next e).dev.content = begun.dev.content.splice begun.history.place.toNat data ∧
      (begun.next e).history =
        { begun.history with payloads := begun.history.payloads ++ [data] }) ∧
    (∀ e, begun.write.peerIP ≠ some e.peer.ip → (begun.next e).dev = begun.dev ∧
      ((begun.next e).write = begun.write ∨ headerCmd e.datagram = CmdInfo ∨
        begun.accepts e = true)) ∧
    (false = true → begun.dev.content = List.replicate 1024 0 ∧
      ∀ m ∈ begun.sent, reportsSuccess m.2 = false) :=
  write_ownership reached_begun

/-- A CMD_INFO of another console drops the write, and its CMD_WRITE replaces it. -/
theorem write_not_kept_begun :
    (runs (A := Nat) (List.replicate 1024 0) false).Reached begun ∧ 0 < begun.write.left ∧
      begun.write.peerIP = some 1 ∧
      (begun.next (sentBy 2 (packHeader CmdInfo 0 0))).write = .none ∧
      (begun.next (sentBy 2 (writeRequest 0 1 1))).write.peerIP = some 2 := by
  refine ⟨System.ReachedWhen.along (.init rfl) (Along.of_forall (fun _ _ => trivial) _ _), ?_⟩
  decide +kernel

end Ps2Servers.Udpbd.Edge
