import Ps2Servers.Lib.Effects
import Ps2Servers.Lib.Struct
import Ps2Servers.Udpbd.RawDevice

/-!
# The UDPBD server over an image file

The commands of the UDPBD server, and what a run of datagrams does to its image: a
CMD_WRITE fixes a region, and the CMD_WRITE_RDMA packets of its sender fill it.
When no CMD_WRITE reaches past the end, the image keeps its size and changes in the
regions of CMD_WRITEs only. Nothing in the server refuses one that does.

## Implementation notes

What the calls of the host come to is part of an event: seeks and sends may fail, and
a write may fail or take a part of its bytes. `regions` is no field of the server: it
records the regions of the CMD_WRITEs accepted. Totals, statistics and log lines are
left out, as are the checks for raw devices.
-/

namespace Ps2Servers.Udpbd

open Effects Runs
open Struct (Item)

namespace Image

def CMD_INFO : Nat := 0x00

def CMD_INFO_REPLY : Nat := 0x01

def CMD_READ : Nat := 0x02

def CMD_READ_RDMA : Nat := 0x03

def CMD_WRITE : Nat := 0x04

def CMD_WRITE_RDMA : Nat := 0x05

def CMD_WRITE_DONE : Nat := 0x06

def SECTOR_SIZE : Nat := 512

def RDMA_MAX_PAYLOAD : Nat := 1472 - 2 - 4

/-- `pack_header`. -/
def packHeader (cmd cmdid cmdpkt : Nat) : Bytes :=
  .ofNat 2 (cmd % 0x20 + cmdid % 0x08 * 0x20 + cmdpkt % 0x100 * 0x100)

def headerCmd (datagram : Bytes) : Nat := datagram.field 0 1 % 0x20

/-- The command id of `unpack_header`. -/
def headerCmdid (datagram : Bytes) : Nat := datagram.field 0 2 / 0x20 % 0x08

def packBlockType (blockShift blockCount : Nat) : Bytes :=
  .ofNat 4 (blockShift % 0x10 + blockCount % 0x200 * 0x10)

/-- `unpack_block_type`: shift and count. -/
def unpackBlockType (datagram : Bytes) : Nat × Nat :=
  (datagram.field 2 4 % 0x10, datagram.field 2 4 / 0x10 % 0x200)

/-- The region of a CMD_WRITE, in sectors. -/
structure Region where
  sector : Nat
  count : Nat
  deriving DecidableEq, Repr

/-- `BlockDevice`. -/
structure BlockDevice where
  readOnly : Bool
  content : Bytes
  position : Nat
  deriving DecidableEq, Repr

/-- The size is read when the image is opened. -/
structure Server (A : Type) where
  bd : BlockDevice
  size : Nat
  blockShift : Nat
  writeLeft : Nat
  writeOwner : Option (A × Nat)
  sent : List (A × Bytes)
  regions : List Region
  deriving DecidableEq, Repr

def Server.new {A : Type} (content : Bytes) (readOnly : Bool) : Server A :=
  ⟨⟨readOnly, content, 0⟩, content.length, 5, 0, none, [], []⟩

/-- A datagram from a peer, and what the calls made for it come to. -/
structure Event (A : Type) where
  addr : A
  datagram : Bytes
  /-- A seek to an offset succeeds. -/
  seekable : Nat → Bool
  /-- How many of so many bytes a write takes. -/
  taken : Nat → Option Nat
  /-- The `sendto` behind so many others succeeds. -/
  sendable : Nat → Bool

abbrev Handler (A : Type) := EStateM Exn (Server A)

section

variable {A : Type} [DecidableEq A] (e : Event A)

def sendto (packet : Bytes) : Handler A Unit := do
  let s ← get
  if e.sendable s.sent.length then set { s with sent := s.sent ++ [(e.addr, packet)] }
  else throw .osError

/-- `BlockDevice.seek`. -/
def seek (sector : Nat) : Handler A Unit := do
  let s ← get
  if e.seekable (sector * SECTOR_SIZE) then
    set { s with bd := { s.bd with position := sector * SECTOR_SIZE } }
  else throw .osError

/-- `BlockDevice.read`: zeros past the end. -/
def read (size : Nat) : Handler A Bytes := do
  let s ← get
  let data := s.bd.content.sub s.bd.position size
  set { s with bd := { s.bd with position := s.bd.position + data.length } }
  return data ++ List.replicate (size - data.length) 0

/-- `BlockDevice.write`. -/
def write (data : Bytes) : Handler A Unit := do
  let s ← get
  if s.bd.readOnly then return
  else
    match e.taken data.length with
    | none => throw .osError
    | some n =>
        let written := data.take n
        set { s with bd := { s.bd with
          content := s.bd.content.splice s.bd.position written
          position := s.bd.position + written.length } }

def setLeft (left : Nat) : Handler A Unit := modify fun s => { s with writeLeft := left }

/-- `_set_block_shift_for_sectors`. -/
def blockShiftFor (sectors : Nat) : Nat :=
  let size := sectors * SECTOR_SIZE
  let packets := fun payload => (size + payload - 1) / payload
  if packets 1024 = packets 1440 then 7
  else if packets 1280 = packets 1440 then 6
  else if packets 1408 = packets 1440 then 5
  else 3

def blockSize (shift : Nat) : Nat := 2 ^ (shift + 2)

/-- `_handle_info`. -/
def handleInfo : Handler A Unit := do
  setLeft 0
  let s ← get
  match Struct.pack [.I SECTOR_SIZE, .I (s.size / SECTOR_SIZE)] with
  | none => throw .valueError
  | some body => sendto e (packHeader CMD_INFO_REPLY (headerCmdid e.datagram) 1 ++ body)

/-- The loop of `_handle_read`. Every pass sends at least one block. -/
def readLoop (shift : Nat) : Nat → Nat → Nat → Handler A Unit
  | 0, _, _ => pure ()
  | fuel + 1, blocksLeft, cmdpkt =>
      if blocksLeft = 0 then pure ()
      else do
        let blockCount := min blocksLeft (RDMA_MAX_PAYLOAD / blockSize shift)
        let data ← read (blockCount * blockSize shift)
        sendto e (packHeader CMD_READ_RDMA (headerCmdid e.datagram) cmdpkt ++
          packBlockType shift blockCount ++ data)
        readLoop shift fuel (blocksLeft - blockCount) ((cmdpkt + 1) % 0x100)

/-- `_handle_read`. -/
def handleRead : Handler A Unit := do
  setLeft 0
  let sectorCount := e.datagram.field 6 2
  let shift := blockShiftFor sectorCount
  modify fun s => { s with blockShift := shift }
  seek e (e.datagram.field 2 4)
  let blocks := sectorCount * (SECTOR_SIZE / blockSize shift)
  readLoop e shift blocks blocks 1

/-- The reply to a write that is over. -/
def writeDone (result : Bytes) : Handler A Unit :=
  let cmdid := headerCmdid e.datagram
  sendto e (packHeader CMD_WRITE_DONE cmdid ((cmdid + 1) % 0x100) ++ result)

def RESULT_OK : Bytes := [0, 0, 0, 0]

def RESULT_FAILED : Bytes := [0xff, 0xff, 0xff, 0xff]

/-- The region a CMD_WRITE asks for. -/
def regionOf (datagram : Bytes) : Region := ⟨datagram.field 2 4, datagram.field 6 2⟩

/-- `_handle_write`. -/
def handleWrite : Handler A Unit := do
  let region := regionOf e.datagram
  modify fun s => { s with
    writeLeft := 0
    writeOwner := some (e.addr, headerCmdid e.datagram) }
  match ← rescue (some <$> seek e region.sector) (· == .osError) (fun _ => pure none) with
  | none => writeDone e RESULT_FAILED
  | some () => modify fun s => { s with
      writeLeft := region.count * SECTOR_SIZE
      regions := region :: s.regions }

/-- `_handle_write_rdma`. -/
def handleWriteRdma : Handler A Unit := do
  let s ← get
  if s.writeLeft = 0 ∨ s.writeOwner ≠ some (e.addr, headerCmdid e.datagram) then return
  else
    let (blockShift, blockCount) := unpackBlockType e.datagram
    let size := blockCount * blockSize blockShift
    if e.datagram.length < 6 + size then return
    else
      let size := min size s.writeLeft
      match ← rescue (some <$> write e (e.datagram.sub 6 size)) (· == .osError)
          (fun _ => pure none) with
      | none => do
          setLeft 0
          writeDone e RESULT_FAILED
      | some () => do
          setLeft (s.writeLeft - size)
          if s.writeLeft - size = 0 then
            writeDone e (if s.bd.readOnly then RESULT_FAILED else RESULT_OK)
          else return

/-- One pass of `run` that got a datagram. -/
def dispatch : Handler A Unit :=
  if e.datagram.length < 2 then pure ()
  else if headerCmd e.datagram = CMD_INFO then handleInfo e
  else if headerCmd e.datagram = CMD_READ ∧ 8 ≤ e.datagram.length then handleRead e
  else if headerCmd e.datagram = CMD_WRITE ∧ 8 ≤ e.datagram.length then handleWrite e
  else if headerCmd e.datagram = CMD_WRITE_RDMA ∧ 6 ≤ e.datagram.length then handleWriteRdma e
  else pure ()

/-- What an event leaves behind: `run` catches what its handler raises. -/
def Server.next (s : Server A) (e : Event A) : Server A := final (dispatch e s)

end

/-! ## Image safety -/

/-- The region lies inside an image of so many bytes. -/
def Region.Inside (r : Region) (length : Nat) : Prop := (r.sector + r.count) * SECTOR_SIZE ≤ length

/-- The byte at `i` belongs to the region. -/
def Region.Covers (r : Region) (i : Nat) : Prop :=
  r.sector * SECTOR_SIZE ≤ i ∧ i < (r.sector + r.count) * SECTOR_SIZE

instance (r : Region) (length : Nat) : Decidable (r.Inside length) :=
  inferInstanceAs (Decidable (_ ≤ _))

instance (r : Region) (i : Nat) : Decidable (r.Covers i) := inferInstanceAs (Decidable (_ ∧ _))

variable {A : Type}

/-- The image has its size, and has changed in accepted regions inside it only. -/
def Safe (content : Bytes) (s : Server A) : Prop :=
  s.bd.content.length = content.length ∧
    ∀ i, s.bd.content[i]? ≠ content[i]? → ∃ r ∈ s.regions, r.Inside content.length ∧ r.Covers i

/-- A CMD_WRITE of any sectors to a writable image lies inside the image. -/
def Bounded (s : Server A) (e : Event A) : Prop :=
  headerCmd e.datagram = CMD_WRITE → 8 ≤ e.datagram.length → s.bd.readOnly = false →
    (regionOf e.datagram).count ≠ 0 → (regionOf e.datagram).Inside s.bd.content.length

instance (s : Server A) (e : Event A) : Decidable (Bounded s e) :=
  inferInstanceAs (Decidable (_ → _ → _ → _ → _))

/-- All runs of a server that starts on an image. -/
def runs [DecidableEq A] (content : Bytes) (readOnly : Bool) : System (Server A) (Event A) :=
  .ofNext (Server.new content readOnly) Server.next

variable {content : Bytes} {readOnly : Bool} {s : Server A} {e : Event A}

/-- What a pending write may still write lies in an accepted region inside the image. -/
structure Inv (content : Bytes) (readOnly : Bool) (s : Server A) : Prop where
  safe : Safe content s
  mode : s.bd.readOnly = readOnly
  aim : s.writeLeft ≠ 0 → readOnly = false → ∃ r ∈ s.regions, r.Inside content.length ∧
    r.sector * SECTOR_SIZE ≤ s.bd.position ∧
    s.bd.position + s.writeLeft ≤ (r.sector + r.count) * SECTOR_SIZE

/-- No write is pending: the position is free. -/
structure Idle (content : Bytes) (readOnly : Bool) (s : Server A) : Prop where
  safe : Safe content s
  mode : s.bd.readOnly = readOnly
  left : s.writeLeft = 0

theorem Idle.inv (hi : Idle content readOnly s) : Inv content readOnly s :=
  ⟨hi.safe, hi.mode, fun hleft => absurd hi.left hleft⟩

theorem Inv.idle (hi : Inv content readOnly s) : Idle content readOnly { s with writeLeft := 0 } :=
  ⟨hi.safe, hi.mode, rfl⟩

theorem keeps_sendto {inv : Server A → Prop} (hinv : ∀ s out, inv s → inv { s with sent := out })
    (packet : Bytes) : Keeps inv (sendto e packet) := by
  apply Keeps.get
  intro s hs
  split
  · exact Keeps.set (hinv s _ hs)
  · exact Keeps.throw _

theorem Idle.keeps_sendto (packet : Bytes) :
    Keeps (Idle content readOnly) (sendto e packet) :=
  Image.keeps_sendto (fun _ _ hs => ⟨hs.safe, hs.mode, hs.left⟩) packet

theorem Inv.keeps_writeDone (result : Bytes) :
    Keeps (Inv content readOnly) (writeDone e result) :=
  Image.keeps_sendto (fun _ _ hs => ⟨hs.safe, hs.mode, hs.aim⟩) _

theorem Idle.keeps_seek (sector : Nat) : Keeps (Idle content readOnly) (seek e sector) := by
  apply Keeps.get
  intro s hs
  split
  · exact Keeps.set ⟨hs.safe, hs.mode, hs.left⟩
  · exact Keeps.throw _

theorem Idle.keeps_read (size : Nat) :
    Keeps (Idle content readOnly) (read size : Handler A Bytes) := by
  apply Keeps.get
  intro s hs
  exact (Keeps.set ⟨hs.safe, hs.mode, hs.left⟩).bind fun _ => Keeps.pure _

theorem Idle.keeps_readLoop (shift fuel blocksLeft cmdpkt : Nat) :
    Keeps (Idle content readOnly) (readLoop e shift fuel blocksLeft cmdpkt) := by
  induction fuel generalizing blocksLeft cmdpkt with
  | zero => exact Keeps.pure _
  | succ fuel ih =>
      unfold readLoop
      split
      · exact Keeps.pure _
      · apply Keeps.bind (Idle.keeps_read _)
        intro data
        apply Keeps.bind (Idle.keeps_sendto _)
        intro _
        exact ih _ _

/-- A handler that begins by dropping the pending write. -/
theorem Inv.keeps_setLeft_zero {f : Unit → Handler A Unit}
    (hf : Keeps (Idle content readOnly) (f ())) :
    Keeps (Inv content readOnly) (setLeft 0 >>= f) := by
  intro s hs
  rw [bind_ok (show setLeft 0 s = .ok () { s with writeLeft := 0 } from rfl)]
  exact (hf _ hs.idle).inv

theorem Inv.keeps_handleInfo : Keeps (Inv content readOnly) (handleInfo e) := by
  apply Inv.keeps_setLeft_zero
  apply Keeps.get
  intro s hs
  split
  · exact Keeps.throw _
  · exact Idle.keeps_sendto _

theorem Inv.keeps_handleRead : Keeps (Inv content readOnly) (handleRead e) := by
  apply Inv.keeps_setLeft_zero
  apply Keeps.bind
  · apply Keeps.modify
    exact fun s hs => ⟨hs.safe, hs.mode, hs.left⟩
  · intro _
    apply Keeps.bind (Idle.keeps_seek _)
    intro _
    exact Idle.keeps_readLoop _ _ _ _

/-- An accepted CMD_WRITE inside the image aims at its own region. -/
theorem Inv.handleWrite (hs : Inv content readOnly s)
    (hb : s.bd.readOnly = false → (regionOf e.datagram).count ≠ 0 →
      (regionOf e.datagram).Inside s.bd.content.length) :
    Inv content readOnly (final (handleWrite e s)) := by
  let region := regionOf e.datagram
  let cleared : Server A := { s with
    writeLeft := 0
    writeOwner := some (e.addr, headerCmdid e.datagram) }
  have hcleared : Inv content readOnly cleared := ⟨hs.safe, hs.mode, fun h => absurd rfl h⟩
  by_cases hseek : e.seekable (region.sector * SECTOR_SIZE) = true
  · have hrun : Image.handleWrite e s = .ok () { cleared with
        bd := { s.bd with position := region.sector * SECTOR_SIZE }
        writeLeft := region.count * SECTOR_SIZE
        regions := region :: s.regions } := by
      have hdone : seek e region.sector cleared = .ok () { cleared with
          bd := { s.bd with position := region.sector * SECTOR_SIZE } } := by
        unfold seek
        rw [get_bind, if_pos hseek]
        rfl
      unfold Image.handleWrite
      rw [bind_ok (modify_apply _ s), bind_ok (rescue_ok (map_ok hdone))]
      rfl
    rw [hrun]
    constructor
    · refine ⟨hs.safe.1, fun i hi => ?_⟩
      obtain ⟨r, hr, hin, hcover⟩ := hs.safe.2 i hi
      exact ⟨r, List.mem_cons_of_mem _ hr, hin, hcover⟩
    · exact hs.mode
    · intro hleft hro
      have hcount : region.count ≠ 0 := by
        intro hzero
        apply hleft
        change region.count * SECTOR_SIZE = 0
        rw [hzero, Nat.zero_mul]
      have hin : region.Inside content.length := by
        rw [← hs.safe.1]
        exact hb (hs.mode.trans hro) hcount
      refine ⟨region, List.mem_cons_self, hin, Nat.le_refl _, ?_⟩
      change region.sector * SECTOR_SIZE + region.count * SECTOR_SIZE ≤ _
      rw [Nat.add_mul]
  · have hrun : Image.handleWrite e s = writeDone e RESULT_FAILED cleared := by
      have hfail : seek e region.sector cleared = .error .osError cleared := by
        unfold seek
        rw [get_bind, if_neg hseek]
        rfl
      have hcaught : rescue (some <$> seek e region.sector) (· == .osError) (fun _ => pure none)
          cleared = .ok none cleared := rescue_caught (map_error hfail) rfl
      unfold Image.handleWrite
      rw [bind_ok (modify_apply _ s), bind_ok hcaught]
    rw [hrun]
    exact Inv.keeps_writeDone _ _ hcleared

/-- What a write leaves of a pending write that it is a part of. -/
theorem Inv.written (hs : Inv content readOnly s) (hro : s.bd.readOnly = false) {data : Bytes}
    {left : Nat} (hleft : left + data.length ≤ s.writeLeft) :
    Inv content readOnly { s with
      bd := { s.bd with
        content := s.bd.content.splice s.bd.position data
        position := s.bd.position + data.length }
      writeLeft := left } := by
  have hmode : readOnly = false := hs.mode.symm.trans hro
  by_cases hpending : s.writeLeft = 0
  · have hnil : data = [] := List.length_eq_zero_iff.mp (by omega)
    subst hnil
    have hsame : s.bd.content.splice s.bd.position [] = s.bd.content := if_pos rfl
    constructor
    · change Safe content { s with bd := { s.bd with content := s.bd.content.splice _ [] } }
      rw [hsame]
      exact hs.safe
    · exact hs.mode
    · intro hne
      exact absurd (show left = 0 by omega) hne
  · obtain ⟨r, hr, hin, hlow, hhigh⟩ := hs.aim hpending hmode
    have hlen : s.bd.content.length = content.length := hs.safe.1
    have hfits : s.bd.position + data.length ≤ s.bd.content.length := by
      have hend : (r.sector + r.count) * SECTOR_SIZE ≤ content.length := hin
      omega
    constructor
    · refine ⟨(Bytes.length_splice hfits).trans hlen, fun i hi => ?_⟩
      change (s.bd.content.splice s.bd.position data)[i]? ≠ _ at hi
      rw [Bytes.getElem?_splice hfits] at hi
      split at hi
      · rename_i hcover
        exact ⟨r, hr, hin, by omega, by omega⟩
      · exact hs.safe.2 i hi
    · exact hs.mode
    · intro _ _
      refine ⟨r, hr, hin, ?_, ?_⟩
      · change _ ≤ s.bd.position + data.length
        omega
      · change s.bd.position + data.length + left ≤ _
        omega

/-- The data of a CMD_WRITE_RDMA: written, not written on a read-only image, or refused. -/
theorem write_cases (e : Event A) (data : Bytes) (s : Server A) :
    write e data s = .error .osError s ∨
      (s.bd.readOnly = true ∧ write e data s = .ok () s) ∨
      ∃ n, s.bd.readOnly = false ∧ write e data s = .ok () { s with
        bd := { s.bd with
          content := s.bd.content.splice s.bd.position (data.take n)
          position := s.bd.position + (data.take n).length } } := by
  unfold write
  rw [get_bind]
  cases hro : s.bd.readOnly with
  | true =>
      right
      left
      exact ⟨rfl, by rw [if_pos rfl]; rfl⟩
  | false =>
      rw [if_neg Bool.false_ne_true]
      cases e.taken data.length with
      | none =>
          left
          rfl
      | some n =>
          right
          right
          exact ⟨n, rfl, rfl⟩

variable [DecidableEq A]

theorem Inv.keeps_handleWriteRdma : Keeps (Inv content readOnly) (handleWriteRdma e) := by
  intro s hs
  unfold handleWriteRdma
  rw [get_bind]
  split
  · exact hs
  · dsimp only
    split
    · exact hs
    · rename_i hlong
      generalize hsize : min ((unpackBlockType e.datagram).2 *
        blockSize (unpackBlockType e.datagram).1) s.writeLeft = size
      have hle : size ≤ s.writeLeft := hsize ▸ Nat.min_le_right _ _
      have hdata : (e.datagram.sub 6 size).length ≤ size := Bytes.sub_length_le _ _ _
      -- the rest of the handler, once the pending write is `left` shorter
      have hafter : ∀ t : Server A, Inv content readOnly { t with writeLeft := s.writeLeft - size } →
          ∀ result, Inv content readOnly (final ((do
            setLeft (s.writeLeft - size)
            if s.writeLeft - size = 0 then writeDone e result else pure () : Handler A Unit) t)) := by
        intro t ht result
        rw [bind_ok (show setLeft (s.writeLeft - size) t = .ok () _ from rfl)]
        split
        · exact Inv.keeps_writeDone _ _ ht
        · exact ht
      rcases write_cases e (e.datagram.sub 6 size) s with
        herr | ⟨hro, hok⟩ | ⟨n, hro, hok⟩
      · have hcaught : rescue (some <$> write e (e.datagram.sub 6 size)) (· == .osError)
            (fun _ => pure none) s = .ok none s := rescue_caught (map_error herr) rfl
        rw [bind_ok hcaught]
        dsimp only
        rw [bind_ok (show setLeft 0 s = .ok () { s with writeLeft := 0 } from rfl)]
        exact Inv.keeps_writeDone _ _ hs.idle.inv
      · rw [bind_ok (rescue_ok (map_ok hok))]
        apply hafter
        refine ⟨hs.safe, hs.mode, fun _ hwritable => ?_⟩
        rw [← hs.mode, hro] at hwritable
        cases hwritable
      · rw [bind_ok (rescue_ok (map_ok hok))]
        apply hafter
        apply hs.written hro
        have htake : ((e.datagram.sub 6 size).take n).length ≤ size :=
          Nat.le_trans (List.length_take_le' n _) hdata
        omega

theorem Inv.next (hs : Inv content readOnly s) (hb : Bounded s e) :
    Inv content readOnly (s.next e) := by
  change Inv content readOnly (final (dispatch e s))
  unfold dispatch
  split
  · exact hs
  · split
    · exact Inv.keeps_handleInfo s hs
    · split
      · exact Inv.keeps_handleRead s hs
      · split
        · rename_i hwrite
          exact hs.handleWrite (hb hwrite.1 hwrite.2)
        · split
          · exact Inv.keeps_handleWriteRdma s hs
          · exact hs

/-- In a run whose CMD_WRITEs to a writable image lie inside it, the image keeps its size and
changes in their regions only. -/
theorem safe_of_reached (h : (runs content readOnly).ReachedWhen Bounded s) : Safe content s := by
  have hinv : Inv content readOnly s := by
    refine h.invariant ?_ ?_
    · rintro s rfl
      exact ⟨⟨rfl, fun i hi => absurd rfl hi⟩, rfl, fun hleft => absurd rfl hleft⟩
    · rintro s e t hs hb rfl
      exact hs.next hb
  exact hinv.safe

/-- A datagram for which every call of the host succeeds. -/
def sentBy (addr : Nat) (datagram : Bytes) : Event Nat :=
  ⟨addr, datagram, fun _ => true, some, fun _ => true⟩

/-- CMD_WRITE of the second sector, and its bytes in one packet. -/
def secondSector : List (Event Nat) :=
  [sentBy 1 (packHeader CMD_WRITE 0 0 ++ .ofNat 4 1 ++ .ofNat 2 1),
    sentBy 1 (packHeader CMD_WRITE_RDMA 0 1 ++ packBlockType 7 1 ++ List.replicate 512 7)]

/-- An image of two sectors takes the second. -/
theorem safe_secondSector : Safe (List.replicate 1024 0)
    (secondSector.foldl Server.next (.new (List.replicate 1024 0) false)) := by
  have hstart : (runs (A := Nat) (List.replicate 1024 0) false).ReachedWhen Bounded
      (.new (List.replicate 1024 0) false) := .init rfl
  exact safe_of_reached (hstart.along (by decide +kernel))

/-- An image of one sector grows by the second. -/
theorem not_safe_secondSector : ¬ Safe (List.replicate 512 0)
    (secondSector.foldl Server.next (.new (List.replicate 512 0) false)) := by
  rintro ⟨hlength, -⟩
  exact absurd hlength (by decide +kernel)

end Image

end Ps2Servers.Udpbd
