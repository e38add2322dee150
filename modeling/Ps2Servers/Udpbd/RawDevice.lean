import Ps2Servers.Lib.Runs
import Ps2Servers.Lib.Splice

/-!
# Raw devices

A block device whose accesses must be aligned, served as a byte stream: reads go
through a cache of whole sectors, and a write of a part of a sector rewrites the
sector. Every run of requests within the device reads and writes exactly the bytes
of the stream, and every access to the device is aligned and inside it.

## Implementation notes

`accesses` is no field of the server: it records what was asked of the device,
the last first. A loop that would not end gives `noReturn`.
-/

namespace Ps2Servers.Udpbd

open Runs

/-- Exceptions, by class. -/
inductive Exn
  | osError
  | valueError
  /-- A `PermissionError`, which is an `OSError`. -/
  | permissionError
  /-- The call never returns. -/
  | noReturn
  deriving DecidableEq, Repr

/-- An access to the device. -/
structure Access where
  offset : Nat
  length : Nat
  deriving DecidableEq, Repr

/-- An open device. -/
structure Backend where
  content : Bytes
  sectorSize : Nat
  accesses : List Access
  deriving DecidableEq, Repr

/-- `read_at`: fewer bytes behind the end. -/
def Backend.readAt (b : Backend) (offset count : Nat) : Bytes × Backend :=
  (b.content.sub offset count, { b with accesses := ⟨offset, count⟩ :: b.accesses })

/-- `write_at`: what fits on the device is written and counted. -/
def Backend.writeAt (b : Backend) (offset : Nat) (data : Bytes) : Nat × Backend :=
  let count := min data.length (b.content.length - offset)
  (count, { b with
    content := b.content.splice offset (data.take count)
    accesses := ⟨offset, data.length⟩ :: b.accesses })

/-- `RawDevice`. -/
structure RawDevice where
  backend : Backend
  readOnly : Bool
  size : Nat
  position : Nat
  requestEnd : Option Nat
  cachedStart : Nat
  cachedData : Bytes
  deriving DecidableEq, Repr

namespace RawDevice

/-- The checks of the device's class and of `RawDevice.__init__`. -/
def open_ (content : Bytes) (sectorSize : Nat) (writable : Bool) : Option RawDevice :=
  if sectorSize < 512 ∨ 65536 < sectorSize ∨ sectorSize &&& (sectorSize - 1) ≠ 0 ∨
      content.length % sectorSize ≠ 0 ∨ content.length = 0 ∨ content.length % 512 ≠ 0 ∨
      0xFFFFFFFF < content.length / 512 then none
  else some ⟨⟨content, sectorSize, []⟩, !writable, content.length, 0, none, 0, []⟩

def alignment (d : RawDevice) : Nat := d.backend.sectorSize

/-- The end of the request, or of the device. -/
def limit (d : RawDevice) : Nat := d.requestEnd.getD d.size

def seek (d : RawDevice) (sector : Nat) (sectorCount : Option Nat) :
    Except Exn Unit × RawDevice :=
  let position := sector * 512
  if d.size < position then (.error .osError, d)
  else
    let requestEnd := sectorCount.map fun n => position + n * 512
    let d := { d with position := position, requestEnd := requestEnd }
    if d.size < d.limit then (.error .osError, d)
    else (.ok (), { d with cachedData := [] })

/-- Where a read-ahead from `start` ends. -/
def alignedEnd (d : RawDevice) (start : Nat) : Nat :=
  let requestEnd := match d.requestEnd with
    | some (n + 1) => n + 1
    | _ => start + d.alignment
  min d.size ((requestEnd + d.alignment - 1) / d.alignment * d.alignment)

/-- The part of a pass of the loop of `read` that makes the cache cover a position. -/
def fill (d : RawDevice) (position : Nat) : Except Exn Unit × RawDevice :=
  if d.cachedStart ≤ position ∧ position < d.cachedStart + d.cachedData.length then (.ok (), d)
  else
    let start := position / d.alignment * d.alignment
    if d.alignedEnd start < start then (.error .osError, { d with cachedStart := start })
    else
      let size := min 65536 (d.alignedEnd start - start)
      let (data, backend) := d.backend.readAt start size
      if data.length ≠ size then
        (.error .osError, { d with backend := backend, cachedStart := start, cachedData := [] })
      else (.ok (), { d with backend := backend, cachedStart := start, cachedData := data })

/-- The loop of `read`. Every pass takes at least one byte. -/
def readLoop (stop : Nat) : Nat → RawDevice → Nat → Bytes → Except Exn Bytes × RawDevice
  | 0, d, position, pieces => (if position < stop then .error .noReturn else .ok pieces, d)
  | fuel + 1, d, position, pieces =>
      if stop ≤ position then (.ok pieces, d)
      else
        match d.fill position with
        | (.error e, d) => (.error e, d)
        | (.ok (), d) =>
            let size := min (stop - position) (d.cachedStart + d.cachedData.length - position)
            readLoop stop fuel d (position + size)
              (pieces ++ d.cachedData.sub (position - d.cachedStart) size)

def read (d : RawDevice) (count : Int) : Except Exn Bytes × RawDevice :=
  if count < 0 then (.error .valueError, d)
  else
    let count := min count.toNat (d.limit - d.position)
    match readLoop (d.position + count) count d d.position [] with
    | (.error e, d) => (.error e, d)
    | (.ok result, d) => (.ok result, { d with position := d.position + result.length })

/-- The block that a pass of the loop of `write` writes: a whole sector. -/
def block (d : RawDevice) (start shift size : Nat) (data : Bytes) :
    Except Exn Bytes × RawDevice :=
  if shift ≠ 0 ∨ size ≠ d.alignment then
    let (old, backend) := d.backend.readAt start d.alignment
    let d := { d with backend := backend }
    if old.length ≠ d.alignment then (.error .osError, d)
    else (.ok (old.splice shift (data.take size)), d)
  else (.ok (data.take size), d)

/-- The loop of `write`. Every pass takes at least one byte. -/
def writeLoop (stop : Nat) : Nat → RawDevice → Bytes → Except Exn Unit × RawDevice
  | 0, d, _ => (if d.position < stop then .error .noReturn else .ok (), d)
  | fuel + 1, d, data =>
      if stop ≤ d.position then (.ok (), d)
      else
        let start := d.position / d.alignment * d.alignment
        let shift := d.position - start
        let size := min (stop - d.position) (d.alignment - shift)
        match d.block start shift size data with
        | (.error e, d) => (.error e, d)
        | (.ok block, d) =>
            let (written, backend) := d.backend.writeAt start block
            let d := { d with backend := backend }
            if written ≠ block.length then (.error .osError, d)
            else writeLoop stop fuel { d with position := d.position + size } (data.drop size)

def write (d : RawDevice) (data : Bytes) : Except Exn Unit × RawDevice :=
  if d.readOnly then (.error .permissionError, d)
  else
    let stop := d.position + data.length
    if d.limit < stop then (.error .osError, d)
    else writeLoop stop data.length { d with cachedData := [] } data

end RawDevice

/-! ## Runs -/

/-- A call on the device. -/
inductive Call
  | seek (sector : Nat) (sectorCount : Option Nat)
  | read (count : Int)
  | write (data : Bytes)
  deriving DecidableEq, Repr

inductive Output
  | done
  | data (bytes : Bytes)
  | raised (e : Exn)
  deriving DecidableEq, Repr

def Output.of (done : Except Exn Unit) : Output :=
  match done with
  | .ok () => .done
  | .error e => .raised e

def Output.ofRead (result : Except Exn Bytes) : Output :=
  match result with
  | .ok bytes => .data bytes
  | .error e => .raised e

namespace RawDevice

def call (d : RawDevice) : Call → Output × RawDevice
  | .seek sector sectorCount =>
      (.of (d.seek sector sectorCount).1, (d.seek sector sectorCount).2)
  | .read count => (.ofRead (d.read count).1, (d.read count).2)
  | .write data => (.of (d.write data).1, (d.write data).2)

/-- All runs of a device. -/
def runs : System RawDevice Call where
  init d := ∃ content sectorSize writable, open_ content sectorSize writable = some d
  step d c d' := d' = (d.call c).2

/-- A seek stays within the device. -/
def Within (d : RawDevice) : Call → Prop
  | .seek sector sectorCount => (sector + sectorCount.getD 0) * 512 ≤ d.size
  | _ => True

/-- Aligned in offset and length, and inside the device. -/
def Aligned (d : RawDevice) (a : Access) : Prop :=
  d.alignment ∣ a.offset ∧ d.alignment ∣ a.length ∧ a.offset + a.length ≤ d.backend.content.length

/-- What a call on a byte stream does, of which the device shows the output. -/
def Exact (d : RawDevice) (c : Call) (out : Output) (d' : RawDevice) : Prop :=
  match c with
  | .seek sector sectorCount =>
      out = .done ∧ d'.position = sector * 512 ∧
        d'.limit = (sectorCount.map fun n => (sector + n) * 512).getD d.size ∧
        d'.backend.content = d.backend.content
  | .read count =>
      if count < 0 then out = .raised .valueError ∧ d' = d
      else
        let data := d.backend.content.sub d.position (min count.toNat (d.limit - d.position))
        out = .data data ∧ data.length = min count.toNat (d.limit - d.position) ∧
          d'.position = d.position + data.length ∧ d'.limit = d.limit ∧
          d'.backend.content = d.backend.content
  | .write data =>
      if d.readOnly = true then out = .raised .permissionError ∧ d' = d
      else if d.limit < d.position + data.length then out = .raised .osError ∧ d' = d
      else
        out = .done ∧ d'.position = d.position + data.length ∧ d'.limit = d.limit ∧
          d'.backend.content.length = d.backend.content.length ∧
          ∀ i, d'.backend.content[i]? =
            if d.position ≤ i ∧ i < d.position + data.length then data[i - d.position]?
            else d.backend.content[i]?

/-- A call that gives and changes what it should, by aligned accesses to the device. -/
structure Faithful (d : RawDevice) (c : Call) : Prop where
  exact_ : d.Exact c (d.call c).1 (d.call c).2
  aligned : ∃ made, (d.call c).2.backend.accesses = made ++ d.backend.accesses ∧
    ∀ a ∈ made, d.Aligned a

/-! ## The invariant -/

/-- A cache that holds what is on the device, and a request inside it. -/
structure Inv (d : RawDevice) : Prop where
  size : d.size = d.backend.content.length
  pos : 0 < d.alignment
  chunk : d.alignment ∣ 65536
  whole : d.alignment ∣ d.backend.content.length
  position : d.position ≤ d.limit
  request : d.limit ≤ d.size
  cache : d.cachedData = d.backend.content.sub d.cachedStart d.cachedData.length

/-- What a read leaves as it was. -/
def frame (d : RawDevice) : Bytes × Nat × Bool × Nat × Nat × Option Nat :=
  (d.backend.content, d.backend.sectorSize, d.readOnly, d.size, d.position, d.requestEnd)

/-- From `d` to `d'` the device was accessed by aligned accesses only. -/
def Accessed (d d' : RawDevice) : Prop :=
  ∃ made, d'.backend.accesses = made ++ d.backend.accesses ∧ ∀ a ∈ made, d.Aligned a

theorem Accessed.refl (d : RawDevice) : d.Accessed d := ⟨[], rfl, fun _ h => by cases h⟩

theorem Accessed.trans {d d' d'' : RawDevice} (h : d.Accessed d') (h' : d'.Accessed d'')
    (hlen : d'.backend.content.length = d.backend.content.length)
    (ha : d'.alignment = d.alignment) : d.Accessed d'' := by
  obtain ⟨made, hmade, hal⟩ := h
  obtain ⟨made', hmade', hal'⟩ := h'
  refine ⟨made' ++ made, by rw [hmade', hmade, List.append_assoc], ?_⟩
  intro a hmem
  rcases List.mem_append.mp hmem with hmem | hmem
  · have hin := hal' a hmem
    rwa [Aligned, hlen, ha] at hin
  · exact hal a hmem

/-- The sector of a position inside a whole number of sectors. -/
theorem sector_le {a n p : Nat} (ha : a ∣ n) (hp : p < n) : p / a * a + a ≤ n := by
  obtain ⟨k, rfl⟩ := ha
  have hlt : p / a < k := Nat.div_lt_of_lt_mul hp
  calc p / a * a + a = (p / a + 1) * a := by rw [Nat.add_mul, Nat.one_mul]
    _ ≤ k * a := Nat.mul_le_mul_right a hlt
    _ = a * k := Nat.mul_comm k a

theorem dvd_min {a m n : Nat} (hm : a ∣ m) (hn : a ∣ n) : a ∣ min m n := by
  rcases Nat.le_total m n with h | h
  · rwa [Nat.min_eq_left h]
  · rwa [Nat.min_eq_right h]

theorem Inv.alignedEnd {d : RawDevice} (hi : d.Inv) {position : Nat} (hp : position < d.limit) :
    let start := position / d.alignment * d.alignment
    d.alignment ∣ d.alignedEnd start ∧ start + d.alignment ≤ d.alignedEnd start ∧
      d.alignedEnd start ≤ d.size := by
  intro start
  have hsize := hi.size
  have hrequest := hi.request
  have hwhole : start + d.alignment ≤ d.size := sector_le (hsize ▸ hi.whole) (by omega)
  -- The end of the request, rounded up, is behind the sector of the position.
  have hround : ∀ r, position < r →
      start + d.alignment ≤ (r + d.alignment - 1) / d.alignment * d.alignment := by
    intro r hr
    refine sector_le (Nat.dvd_mul_left _ _) ?_
    have hdiv := Nat.div_add_mod (r + d.alignment - 1) d.alignment
    have hmod := Nat.mod_lt (r + d.alignment - 1) hi.pos
    rw [Nat.mul_comm]
    omega
  have hstart : position < start + d.alignment := by
    have hdiv := Nat.div_add_mod position d.alignment
    have hmod := Nat.mod_lt position hi.pos
    have hcomm : start = d.alignment * (position / d.alignment) := Nat.mul_comm _ _
    omega
  unfold RawDevice.alignedEnd
  refine ⟨?_, ?_, Nat.min_le_left _ _⟩
  · exact dvd_min (hsize ▸ hi.whole) (Nat.dvd_mul_left _ _)
  · refine Nat.le_min.mpr ⟨hwhole, ?_⟩
    split
    · rename_i n hn
      apply hround
      simpa [limit, hn] using hp
    · exact hround _ hstart

/-- Only the cache and the record of accesses may differ. -/
theorem Inv.of_frame {d d' : RawDevice} (hi : d.Inv) (hf : d'.frame = d.frame)
    (hc : d'.cachedData = d'.backend.content.sub d'.cachedStart d'.cachedData.length) :
    d'.Inv := by
  simp only [frame, Prod.mk.injEq] at hf
  obtain ⟨hcontent, hsector, -, hsize, hposition, hend⟩ := hf
  have halign : d'.alignment = d.alignment := hsector
  have hlimit : d'.limit = d.limit := by rw [limit, limit, hend, hsize]
  constructor
  · rw [hsize, hcontent]
    exact hi.size
  · rw [halign]
    exact hi.pos
  · rw [halign]
    exact hi.chunk
  · rw [halign, hcontent]
    exact hi.whole
  · rw [hposition, hlimit]
    exact hi.position
  · rw [hlimit, hsize]
    exact hi.request
  · exact hc

/-- The cache covers the position after `fill`. -/
theorem Inv.fill {d : RawDevice} (hi : d.Inv) {position : Nat} (hp : position < d.limit) :
    ∃ d', d.fill position = (.ok (), d') ∧ d'.Inv ∧ d'.frame = d.frame ∧ d.Accessed d' ∧
      d'.cachedStart ≤ position ∧ position < d'.cachedStart + d'.cachedData.length := by
  unfold RawDevice.fill
  by_cases hcached : d.cachedStart ≤ position ∧ position < d.cachedStart + d.cachedData.length
  · rw [if_pos hcached]
    exact ⟨d, rfl, hi, rfl, .refl d, hcached⟩
  · rw [if_neg hcached]
    obtain ⟨hdvd, hle, hend⟩ := hi.alignedEnd hp
    dsimp only at hdvd hle hend ⊢
    generalize hs : position / d.alignment * d.alignment = start at hdvd hle hend ⊢
    have hpos := hi.pos
    have hsize := hi.size
    have hstart : d.alignment ∣ start := hs ▸ Nat.dvd_mul_left _ _
    have hchunk : d.alignment ≤ 65536 := Nat.le_of_dvd (by omega) hi.chunk
    have hcover : start ≤ position ∧ position < start + d.alignment := by
      have hdiv := Nat.div_add_mod position d.alignment
      have hmod := Nat.mod_lt position hpos
      have hcomm := Nat.mul_comm d.alignment (position / d.alignment)
      omega
    rw [if_neg (by omega)]
    generalize hn : min 65536 (d.alignedEnd start - start) = size
    have hdata : (d.backend.content.sub start size).length = size :=
      Bytes.length_sub _ (by omega)
    have hsized : d.alignment ∣ size := hn ▸ dvd_min hi.chunk (Nat.dvd_sub hdvd hstart)
    rw [Backend.readAt, if_neg (not_not_intro hdata)]
    refine ⟨_, rfl, ?_, rfl, ⟨[⟨start, size⟩], rfl, ?_⟩, hcover.1, ?_⟩
    · refine hi.of_frame ?_ ?_
      · rfl
      · dsimp only
        rw [hdata]
    · intro a ha
      rw [List.mem_singleton.mp ha]
      exact ⟨hstart, hsized, by dsimp only; omega⟩
    · dsimp only
      rw [hdata]
      omega

/-- The loop of `read` collects the bytes up to its end. -/
theorem Inv.readLoop {stop fuel : Nat} {d : RawDevice} (hi : d.Inv) {position : Nat}
    {pieces : Bytes} (hstop : stop ≤ d.limit) (hle : position ≤ stop)
    (hfuel : stop ≤ position + fuel) :
    ∃ d', RawDevice.readLoop stop fuel d position pieces =
        (.ok (pieces ++ d.backend.content.sub position (stop - position)), d') ∧
      d'.Inv ∧ d'.frame = d.frame ∧ d.Accessed d' := by
  induction fuel generalizing d position pieces with
  | zero =>
      have hpos : position = stop := by omega
      subst hpos
      refine ⟨d, ?_, hi, rfl, .refl d⟩
      rw [RawDevice.readLoop, if_neg (Nat.lt_irrefl _), Nat.sub_self, Bytes.sub_zero,
        List.append_nil]
  | succ fuel ih =>
      rw [RawDevice.readLoop]
      by_cases hend : stop ≤ position
      · have hpos : position = stop := by omega
        subst hpos
        rw [if_pos hend, Nat.sub_self, Bytes.sub_zero, List.append_nil]
        exact ⟨d, rfl, hi, rfl, .refl d⟩
      · rw [if_neg hend]
        obtain ⟨d', hfill, hi', hf', hacc, hstart, hcover⟩ :=
          hi.fill (show position < d.limit by omega)
        rw [hfill]
        dsimp only
        have hframe := hf'
        simp only [frame, Prod.mk.injEq] at hframe
        obtain ⟨hcontent, hsector, -, hsize, -, hrequest⟩ := hframe
        have hlimit : d'.limit = d.limit := by rw [limit, limit, hrequest, hsize]
        generalize hn : min (stop - position) (d'.cachedStart + d'.cachedData.length - position)
          = size
        obtain ⟨d'', hloop, hi'', hf'', hacc'⟩ := @ih d' hi' (position + size)
          (pieces ++ d'.cachedData.sub (position - d'.cachedStart) size)
          (by omega) (by omega) (by omega)
        refine ⟨d'', ?_, hi'', hf''.trans hf', hacc.trans hacc' (by rw [hcontent]) hsector⟩
        -- The piece taken from the cache is the one on the device.
        have hpiece : d'.cachedData.sub (position - d'.cachedStart) size =
            d.backend.content.sub position size := by
          rw [hi'.cache, Bytes.sub_sub _ (by omega), hcontent]
          congr 1
          omega
        have hjoin := Bytes.sub_append d.backend.content position size (stop - (position + size))
        rw [hloop, hpiece, hcontent, List.append_assoc, hjoin]
        congr 4
        omega

/-- A read gives the bytes of the stream. -/
theorem Inv.read {d : RawDevice} (hi : d.Inv) (count : Int) :
    d.Exact (.read count) (d.call (.read count)).1 (d.call (.read count)).2 ∧
      (d.call (.read count)).2.Inv ∧ d.Accessed (d.call (.read count)).2 := by
  have hposition := hi.position
  have hrequest := hi.request
  have hsize := hi.size
  unfold call Exact RawDevice.read
  by_cases hneg : count < 0
  · simp only [if_pos hneg]
    exact ⟨⟨rfl, trivial⟩, hi, .refl d⟩
  · simp only [if_neg hneg]
    generalize hn : min count.toNat (d.limit - d.position) = n
    have hdata : (d.backend.content.sub d.position n).length = n := Bytes.length_sub _ (by omega)
    obtain ⟨d', hloop, hi', hf, hacc⟩ := @Inv.readLoop (d.position + n) n d hi d.position []
      (by omega) (by omega) (by omega)
    rw [hloop, Nat.add_sub_cancel_left, List.nil_append]
    dsimp only
    simp only [frame, Prod.mk.injEq] at hf
    obtain ⟨hcontent, hsector, hro, hsize', hpos', hend⟩ := hf
    have hlimit : d'.limit = d.limit := by rw [limit, limit, hend, hsize']
    refine ⟨⟨rfl, hdata, by rw [hpos'], hlimit, hcontent⟩, ?_, hacc⟩
    constructor
    · exact hi'.size
    · exact hi'.pos
    · exact hi'.chunk
    · exact hi'.whole
    · change d'.position + _ ≤ d'.limit
      rw [hlimit, hpos', hdata]
      omega
    · exact hi'.request
    · exact hi'.cache

/-- A seek within the device does not fail. -/
theorem seek_eq {d : RawDevice} {sector : Nat} {sectorCount : Option Nat}
    (hw : d.Within (.seek sector sectorCount)) :
    d.seek sector sectorCount =
        (.ok (), { d with
          position := sector * 512
          requestEnd := sectorCount.map fun n => sector * 512 + n * 512
          cachedData := [] }) ∧
      sector * 512 ≤ (sectorCount.map fun n => sector * 512 + n * 512).getD d.size ∧
      (sectorCount.map fun n => sector * 512 + n * 512).getD d.size ≤ d.size := by
  have hw : (sector + sectorCount.getD 0) * 512 ≤ d.size := hw
  have hrange : sector * 512 ≤ (sectorCount.map fun n => sector * 512 + n * 512).getD d.size ∧
      (sectorCount.map fun n => sector * 512 + n * 512).getD d.size ≤ d.size := by
    cases sectorCount with
    | none =>
        simp only [Option.map_none, Option.getD_none] at hw ⊢
        omega
    | some n =>
        simp only [Option.map_some, Option.getD_some] at hw ⊢
        omega
  refine ⟨?_, hrange⟩
  unfold RawDevice.seek limit
  dsimp only
  rw [if_neg (by omega), if_neg (by omega)]

/-- A seek within the device starts a request there. -/
theorem Inv.seek {d : RawDevice} (hi : d.Inv) {sector : Nat} {sectorCount : Option Nat}
    (hw : d.Within (.seek sector sectorCount)) :
    d.Exact (.seek sector sectorCount) (d.call (.seek sector sectorCount)).1
        (d.call (.seek sector sectorCount)).2 ∧
      (d.call (.seek sector sectorCount)).2.Inv ∧
      d.Accessed (d.call (.seek sector sectorCount)).2 := by
  obtain ⟨heq, hpos, hend⟩ := seek_eq hw
  have hlimit : (sectorCount.map fun n => sector * 512 + n * 512).getD d.size =
      (sectorCount.map fun n => (sector + n) * 512).getD d.size := by
    simp only [Nat.add_mul]
  unfold call Exact
  dsimp only
  rw [heq]
  refine ⟨⟨rfl, rfl, hlimit, rfl⟩, ?_, .refl d⟩
  constructor
  · exact hi.size
  · exact hi.pos
  · exact hi.chunk
  · exact hi.whole
  · exact hpos
  · exact hend
  · rfl

/-- What a loop of writes has done: the bytes up to the position are written. -/
structure Wrote (d d' : RawDevice) (data : Bytes) : Prop where
  inv : d'.Inv
  position : d'.position = d.position + data.length
  content : d'.backend.content = d.backend.content.splice d.position data
  limit : d'.limit = d.limit
  alignment : d'.alignment = d.alignment
  accessed : d.Accessed d'

/-- The block of a pass is the sector on the device with the data of the pass in it. -/
theorem block_eq {d : RawDevice} {start shift size : Nat} {data : Bytes}
    (hstart : start + d.alignment ≤ d.backend.content.length)
    (hsize : shift + size ≤ d.alignment) (hdata : size ≤ data.length) :
    ∃ accesses, d.block start shift size data =
        (.ok ((d.backend.content.sub start d.alignment).splice shift (data.take size)),
          { d with backend := { d.backend with accesses := accesses ++ d.backend.accesses } }) ∧
      ∀ a ∈ accesses, a = ⟨start, d.alignment⟩ := by
  have hold : (d.backend.content.sub start d.alignment).length = d.alignment :=
    Bytes.length_sub _ hstart
  have htake : (data.take size).length = size := List.length_take_of_le hdata
  unfold block
  split
  · dsimp only [Backend.readAt]
    split
    · exact absurd hold ‹_›
    · exact ⟨[⟨start, d.alignment⟩], rfl, fun a ha => List.mem_singleton.mp ha⟩
  · rename_i hwhole
    obtain ⟨rfl, hfull⟩ : shift = 0 ∧ size = d.alignment := by
      constructor <;> by_contra hne <;> exact hwhole (by simp [hne])
    refine ⟨[], ?_, fun a ha => by cases ha⟩
    have hall : (d.backend.content.sub start d.alignment).splice 0 (data.take size) =
        data.take size := by
      rw [Bytes.splice_of_le (Nat.zero_le _), List.take_zero, List.nil_append,
        List.drop_eq_nil_of_le (by omega), List.append_nil]
    rw [hall]
    rfl

theorem writeAt_of_le {b : Backend} {offset : Nat} {data : Bytes}
    (h : offset + data.length ≤ b.content.length) :
    b.writeAt offset data = (data.length, { b with
      content := b.content.splice offset data
      accesses := ⟨offset, data.length⟩ :: b.accesses }) := by
  rw [Backend.writeAt, Nat.min_eq_left (by omega), List.take_length]

/-- `size` bytes of a write are on the device, by the accesses `made`. -/
def advance (d : RawDevice) (size : Nat) (data : Bytes) (made : List Access) : RawDevice :=
  { d with
    position := d.position + size
    backend := { d.backend with
      content := d.backend.content.splice d.position (data.take size)
      accesses := made ++ d.backend.accesses } }

/-- One pass of the loop of `write` writes up to the end of the sector. -/
theorem Inv.pass {stop fuel : Nat} {d : RawDevice} (hi : d.Inv) {data : Bytes}
    (hstop : stop ≤ d.limit) (hdata : d.position + data.length = stop)
    (hend : ¬ stop ≤ d.position) :
    ∃ size made, 0 < size ∧ size ≤ data.length ∧ (∀ a ∈ made, d.Aligned a) ∧
      RawDevice.writeLoop stop (fuel + 1) d data =
        RawDevice.writeLoop stop fuel (d.advance size data made) (data.drop size) := by
  have hpos := hi.pos
  have hsize := hi.size
  have hrequest := hi.request
  rw [RawDevice.writeLoop, if_neg hend]
  dsimp only
  generalize hs : d.position / d.alignment * d.alignment = start
  have hdvd : d.alignment ∣ start := hs ▸ Nat.dvd_mul_left _ _
  have hcover : start ≤ d.position ∧ d.position < start + d.alignment := by
    have hdiv := Nat.div_add_mod d.position d.alignment
    have hmod := Nat.mod_lt d.position hpos
    have hcomm := Nat.mul_comm d.alignment (d.position / d.alignment)
    omega
  have hinside : start + d.alignment ≤ d.backend.content.length :=
    hs ▸ sector_le hi.whole (by omega)
  generalize hn : min (stop - d.position) (d.alignment - (d.position - start)) = size
  have htake : (data.take size).length = size := List.length_take_of_le (by omega)
  obtain ⟨accesses, hblock, hall⟩ := block_eq hinside
    (show d.position - start + size ≤ d.alignment by omega) (show size ≤ data.length by omega)
  have hlen : ((d.backend.content.sub start d.alignment).splice (d.position - start)
      (data.take size)).length = d.alignment := by
    rw [Bytes.length_splice (by rw [Bytes.length_sub _ hinside]; omega),
      Bytes.length_sub _ hinside]
  have haligned : d.Aligned ⟨start, d.alignment⟩ := ⟨hdvd, Nat.dvd_refl _, hinside⟩
  refine ⟨size, ⟨start, d.alignment⟩ :: accesses, by omega, by omega, ?_, ?_⟩
  · intro a ha
    rcases List.mem_cons.mp ha with rfl | ha
    · exact haligned
    · exact hall a ha ▸ haligned
  · rw [hblock]
    dsimp only
    rw [writeAt_of_le (by rw [hlen]; exact hinside), if_neg (not_not_intro rfl)]
    dsimp only
    rw [hlen, Bytes.splice_block hinside (by omega), Nat.add_sub_cancel' hcover.1]
    rfl

theorem Inv.writeLoop {stop fuel : Nat} {d : RawDevice} (hi : d.Inv) {data : Bytes}
    (hstop : stop ≤ d.limit) (hdata : d.position + data.length = stop)
    (hfuel : data.length ≤ fuel) (hcache : d.cachedData = []) :
    ∃ d', RawDevice.writeLoop stop fuel d data = (.ok (), d') ∧ d.Wrote d' data := by
  have hrequest := hi.request
  have hsize := hi.size
  induction fuel generalizing d data with
  | zero =>
      have hnil : data = [] := List.length_eq_zero_iff.mp (by omega)
      subst hnil
      refine ⟨d, ?_, hi, rfl, rfl, rfl, rfl, .refl d⟩
      rw [RawDevice.writeLoop, if_neg (by rw [List.length_nil] at hdata; omega)]
  | succ fuel ih =>
      by_cases hend : stop ≤ d.position
      · have hnil : data = [] := List.length_eq_zero_iff.mp (by omega)
        subst hnil
        rw [RawDevice.writeLoop, if_pos hend]
        exact ⟨d, rfl, hi, rfl, rfl, rfl, rfl, .refl d⟩
      · obtain ⟨size, made, hpos, hle, haligned, hpass⟩ := @Inv.pass stop fuel d hi data hstop hdata hend
        have htake : (data.take size).length = size := List.length_take_of_le hle
        have hlen : (d.advance size data made).backend.content.length =
            d.backend.content.length := Bytes.length_splice (by omega)
        have hi' : (d.advance size data made).Inv := by
          constructor
          · exact hi.size.trans hlen.symm
          · exact hi.pos
          · exact hi.chunk
          · exact hlen.symm ▸ hi.whole
          · change d.position + size ≤ d.limit
            omega
          · exact hi.request
          · change d.cachedData = _
            rw [hcache]
            change [] = Bytes.sub _ _ (List.length d.cachedData)
            rw [hcache, List.length_nil, Bytes.sub_zero]
        have hstop' : (d.advance size data made).position + (data.drop size).length = stop := by
          change d.position + size + _ = stop
          rw [List.length_drop]
          omega
        obtain ⟨d', hloop, hw⟩ := ih hi' hstop hstop' (by rw [List.length_drop]; omega) hcache
          hi'.request hi'.size
        refine ⟨d', hpass.trans hloop, hw.inv, ?_, ?_, hw.limit, hw.alignment, ?_⟩
        · rw [hw.position]
          change d.position + size + _ = _
          rw [List.length_drop]
          omega
        · rw [hw.content]
          change (d.backend.content.splice d.position (data.take size)).splice (d.position + size)
            _ = _
          have hjoin := @Bytes.splice_splice d.backend.content d.position (data.take size)
            (data.drop size) (by rw [htake, List.length_drop]; omega)
          rw [htake, List.take_append_drop] at hjoin
          exact hjoin
        · exact Accessed.trans ⟨made, rfl, haligned⟩ hw.accessed hlen rfl

/-- A write changes the bytes of the stream it covers. -/
theorem Inv.write {d : RawDevice} (hi : d.Inv) (data : Bytes) :
    d.Exact (.write data) (d.call (.write data)).1 (d.call (.write data)).2 ∧
      (d.call (.write data)).2.Inv ∧ d.Accessed (d.call (.write data)).2 := by
  unfold call Exact RawDevice.write
  by_cases hro : d.readOnly = true
  · simp only [if_pos hro]
    exact ⟨⟨rfl, trivial⟩, hi, .refl d⟩
  · simp only [if_neg hro]
    by_cases hend : d.limit < d.position + data.length
    · simp only [if_pos hend]
      exact ⟨⟨rfl, trivial⟩, hi, .refl d⟩
    · simp only [if_neg hend]
      have hempty : ({ d with cachedData := [] } : RawDevice).Inv := hi.of_frame rfl rfl
      obtain ⟨d', hloop, hw⟩ := hempty.writeLoop (show d.position + data.length ≤ d.limit by omega)
        rfl (Nat.le_refl data.length) rfl
      rw [hloop]
      have hfits : d.position + data.length ≤ d.backend.content.length := by
        have hrequest := hi.request
        have hsize := hi.size
        omega
      refine ⟨⟨rfl, hw.position, hw.limit, ?_, ?_⟩, hw.inv, hw.accessed⟩
      · rw [hw.content]
        exact Bytes.length_splice hfits
      · intro i
        rw [hw.content]
        exact Bytes.getElem?_splice hfits i

/-- A device that was opened has an empty cache and no request. -/
theorem inv_of_open {content : Bytes} {sectorSize : Nat} {writable : Bool} {d : RawDevice}
    (h : open_ content sectorSize writable = some d) : d.Inv := by
  unfold open_ at h
  split at h
  · cases h
  · rename_i hchecks
    cases h
    simp only [not_or, Nat.not_lt, not_not] at hchecks
    obtain ⟨hmin, hmax, hand, hwhole, -⟩ := hchecks
    obtain ⟨k, hk⟩ := (Nat.and_sub_one_eq_zero_iff_isPowerOfTwo (by omega)).mp hand
    have hchunk : sectorSize ∣ 65536 := by
      rw [hk, show 65536 = 2 ^ 16 from rfl] at hmax ⊢
      exact Nat.pow_dvd_pow 2 ((Nat.pow_le_pow_iff_right (by decide)).mp hmax)
    constructor
    · rfl
    · exact Nat.lt_of_lt_of_le (by decide) hmin
    · exact hchunk
    · exact Nat.dvd_of_mod_eq_zero hwhole
    · exact Nat.zero_le _
    · exact Nat.le_refl _
    · rfl

/-- One call within the device keeps the invariant and is faithful. -/
theorem Inv.call {d : RawDevice} (hi : d.Inv) {c : Call} (hw : d.Within c) :
    d.Faithful c ∧ (d.call c).2.Inv := by
  cases c with
  | seek sector sectorCount =>
      obtain ⟨hexact, hinv, hacc⟩ := hi.seek hw
      exact ⟨⟨hexact, hacc⟩, hinv⟩
  | read count =>
      obtain ⟨hexact, hinv, hacc⟩ := hi.read count
      exact ⟨⟨hexact, hacc⟩, hinv⟩
  | write data =>
      obtain ⟨hexact, hinv, hacc⟩ := hi.write data
      exact ⟨⟨hexact, hacc⟩, hinv⟩

theorem inv_of_reached {d : RawDevice} (h : runs.ReachedWhen Within d) : d.Inv := by
  refine h.invariant ?_ ?_
  · rintro d ⟨content, sectorSize, writable, hopen⟩
    exact inv_of_open hopen
  · rintro d c d' hi hw rfl
    exact (hi.call hw).2

/-- In every run of calls within the device, each call reads and writes exactly the bytes of
the stream, by aligned accesses inside the device. -/
theorem faithful_of_reached {d : RawDevice} (h : runs.ReachedWhen Within d) {c : Call}
    (hw : d.Within c) : d.Faithful c :=
  ((inv_of_reached h).call hw).1

/-- A new writable device of two sectors of 1024 bytes. -/
def twoSectors : RawDevice := ⟨⟨List.replicate 2048 7, 1024, []⟩, false, 2048, 0, none, 0, []⟩

/-- A write of two bytes into the second half of the first sector. -/
theorem faithful_write : ((twoSectors.call (.seek 1 (some 1))).2).Faithful (.write [1, 2]) := by
  have hopen : open_ (List.replicate 2048 7) 1024 true = some twoSectors := by decide +kernel
  have hstart : runs.ReachedWhen Within twoSectors := .init ⟨_, _, _, hopen⟩
  have hseek : twoSectors.Within (.seek 1 (some 1)) := by
    change (1 + 1) * 512 ≤ 2048
    decide
  exact faithful_of_reached (hstart.step hseek rfl) trivial

end RawDevice

end Ps2Servers.Udpbd
