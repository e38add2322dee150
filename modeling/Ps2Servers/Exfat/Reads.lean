import Ps2Servers.Exfat.Layout
import Ps2Servers.Lib.Effects
import Ps2Servers.Lib.Runs

/-!
# Reads of a virtual exFAT volume

A read goes from region to region: the MBR, the boot region, the FAT, the bitmap, an
extent, or a gap of zeros that ends where the next of these starts. The image gives each
byte of the volume by where it lies. While the host files stay as they were, reads return
slices of the image, however a range is split into them.
-/

namespace Ps2Servers.Exfat

open Effects Runs

inductive ReadError
  | inval
  | stale
  | io
  | notFound
  deriving DecidableEq, Repr

structure HostFile where
  stamp : Stamp
  data : Bytes

/-- What opening a path gives. -/
abbrev Host := List Str → Option HostFile

/-- `VirtualExfat` as a device. The open files are in the order of their last use. -/
structure Device where
  volume : Volume
  position : Nat
  requestEnd : Option Nat
  handles : List (List Str)

abbrev Handler := EStateM ReadError Device

namespace Device

def new (v : Volume) : Device := ⟨v, 0, none, []⟩

/-- Where a request ends: at the end of the disk, or behind its sectors. -/
def requestStop (v : Volume) (sector : Nat) : Option Nat → Nat
  | none => v.size
  | some count => sector * SECTOR + count * SECTOR

/-- `seek`: the position has moved when it raises. -/
def seek (sector : Nat) (sectorCount : Option Nat) : Handler Unit := do
  modify fun d => { d with
    position := sector * SECTOR
    requestEnd := some (requestStop d.volume sector sectorCount) }
  let d ← get
  if d.position ≤ d.requestEnd.getD 0 ∧ d.requestEnd.getD 0 ≤ d.volume.size then return
  else throw .inval

/-- `_file_bytes`. -/
def fileBytes (host : Host) (path : List Str) (stamp : Stamp) (size offset count : Nat) :
    Handler Bytes := do
  modify fun d => { d with handles := d.handles.erase path }
  match host path with
  | none => throw .notFound
  | some opened => do
      modify fun d =>
        let handles := d.handles ++ [path]
        { d with handles := handles.drop (handles.length - 16) }
      if opened.stamp ≠ stamp ∨ opened.data.length ≠ size then throw .stale
      else
        let data := opened.data.sub offset count
        if data.length ≠ count then throw .io else return data

/-- Where the gap at `position` ends: the least of the boundaries behind it. -/
def gapEnd (v : Volume) (position stop : Nat) : Nat :=
  let boundaries := [stop, PARTITION * SECTOR, (PARTITION + 24) * SECTOR,
    v.heapOffset Volume.bitmapCluster] ++
      ((Intervals.after Volume.Extent.start v.extents position).map Volume.Extent.start).toList
  (boundaries.filter (position < ·)).min?.getD stop

/-- One pass of the loop of `read`: how far it gets, and the bytes. -/
def piece (host : Host) (position stop : Nat) : Handler (Nat × Bytes) := do
  let d ← get
  let v := d.volume
  let bootStart := PARTITION * SECTOR
  let fatStart := (PARTITION + 24) * SECTOR
  let fatEnd := fatStart + v.fatLength * SECTOR
  let bitmapStart := v.heapOffset Volume.bitmapCluster
  let bitmapEnd := bitmapStart + v.bitmapLength
  let gap := gapEnd v position stop - position
  if position < SECTOR then
    let size := min (stop - position) (SECTOR - position)
    return (size, v.mbr.sub position size)
  else if bootStart ≤ position ∧ position < bootStart + v.boot.length then
    let offset := position - bootStart
    let size := min (stop - position) (v.boot.length - offset)
    return (size, v.boot.sub offset size)
  else if fatStart ≤ position ∧ position < fatEnd then
    let size := min (stop - position) (fatEnd - position)
    return (size, v.fat (position - fatStart) size)
  else if bitmapStart ≤ position ∧ position < bitmapEnd then
    let size := min (stop - position) (bitmapEnd - position)
    return (size, (List.range' (position - bitmapStart) size).map v.bitmapByte)
  else
    match Intervals.before Volume.Extent.start v.extents position with
    | none => return (gap, List.replicate gap 0)
    | some e =>
        if position < e.start + e.length then
          let offset := position - e.start
          let size := min (stop - position) (e.length - offset)
          match e.payload with
          | .bytes data => return (size, data.sub offset size)
          | .file path stamp _ => do
              let data ← fileBytes host path stamp e.length offset size
              return (size, data)
        else return (gap, List.replicate gap 0)

/-- The loop of `read`. Every pass gets further. -/
def readLoop (host : Host) (stop : Nat) : Nat → Nat → Handler Bytes
  | 0, _ => return []
  | fuel + 1, position =>
      if position < stop then do
        let (size, data) ← piece host position stop
        let rest ← readLoop host stop fuel (position + size)
        return data ++ rest
      else return []

/-- Where a read has to stop. -/
def limit (d : Device) : Nat := d.requestEnd.getD d.volume.size

/-- `read`. -/
def read (host : Host) (count : Nat) : Handler Bytes := do
  let d ← get
  let stop := min (d.position + count) d.limit
  let data ← readLoop host stop (stop - d.position) d.position
  modify fun d => { d with position := stop }
  return data

/-- One read behind the other. -/
def reads (host : Host) : List Nat → Handler (List Bytes)
  | [] => return []
  | count :: rest => do
      let data ← read host count
      let others ← reads host rest
      return data :: others

end Device

/-! ## The image -/

namespace Volume

variable (v : Volume)

def Extent.Holds (e : Extent) (i : Nat) : Prop := e.start ≤ i ∧ i < e.stop

instance (e : Extent) (i : Nat) : Decidable (e.Holds i) := inferInstanceAs (Decidable (_ ∧ _))

/-- The byte at an offset of the disk. -/
def byteAt (i : Nat) : UInt8 :=
  let bootStart := PARTITION * SECTOR
  let fatStart := (PARTITION + 24) * SECTOR
  let bitmapStart := v.heapOffset bitmapCluster
  if i < SECTOR then v.mbr.getD i 0
  else if bootStart ≤ i ∧ i < fatStart then v.boot.getD (i - bootStart) 0
  else if fatStart ≤ i ∧ i < fatStart + v.fatLength * SECTOR then
    (Bytes.ofNat 4 (v.fatEntry ((i - fatStart) / 4))).getD ((i - fatStart) % 4) 0
  else if bitmapStart ≤ i ∧ i < bitmapStart + v.bitmapLength then v.bitmapByte (i - bitmapStart)
  else
    match v.extents.find? fun e => decide (e.Holds i) with
    | none => 0
    | some e => e.payload.data.getD (i - e.start) 0

/-- The disk as one string of bytes. -/
def image : Bytes := (List.range v.size).map v.byteAt

@[simp] theorem length_image : v.image.length = v.size := by
  rw [image, List.length_map, List.length_range]

/-- A slice of the image, byte by byte. -/
theorem image_sub {position size : Nat} (h : position + size ≤ v.size) :
    v.image.sub position size = (List.range' position size).map v.byteAt := by
  apply List.ext_getElem?
  intro i
  rw [Bytes.getElem?_sub, image, List.getElem?_map, List.getElem?_map]
  by_cases hi : i < size
  · rw [if_pos hi, List.getElem?_range (by omega), List.getElem?_range' hi, Nat.one_mul]
  · rw [if_neg hi, List.getElem?_eq_none (by rw [List.length_range']; omega)]
    rfl

/-- The regions of the disk, one behind the other. -/
structure Laid : Prop where
  mbr : v.mbr.length = SECTOR
  boot : v.boot.length = 24 * SECTOR
  fat : (PARTITION + 24) * SECTOR + v.fatLength * SECTOR ≤ v.heapOffset bitmapCluster
  ordered : Intervals.Ordered Extent.start Extent.stop v.extents
  behind : ∀ e ∈ v.extents, v.heapOffset bitmapCluster + v.bitmapLength ≤ e.start
  filled : ∀ e ∈ v.extents, e.payload.data.length = e.length

end Volume

/-- The host files are as they were when the volume was laid out. -/
def Unchanged (host : Host) (v : Volume) : Prop :=
  ∀ e ∈ v.extents, ∀ path stamp data, e.payload = .file path stamp data →
    host path = some ⟨stamp, data⟩

namespace Volume

/-! ## Slices of one region -/

theorem map_range'_congr {f g : Nat → UInt8} {a b n : Nat}
    (h : ∀ i, i < n → f (a + i) = g (b + i)) :
    (List.range' a n).map f = (List.range' b n).map g := by
  apply List.ext_getElem?
  intro i
  rw [List.getElem?_map, List.getElem?_map]
  by_cases hi : i < n
  · rw [List.getElem?_range' hi, List.getElem?_range' hi, Nat.one_mul, Option.map_some,
      Option.map_some, h i hi]
  · rw [List.getElem?_eq_none (by rw [List.length_range']; omega),
      List.getElem?_eq_none (by rw [List.length_range']; omega)]
    rfl

theorem sub_eq_map {bytes : Bytes} {f : Nat → UInt8} {position offset size : Nat}
    (h : offset + size ≤ bytes.length)
    (hf : ∀ i, i < size → f (position + i) = bytes.getD (offset + i) 0) :
    bytes.sub offset size = (List.range' position size).map f := by
  apply List.ext_getElem?
  intro i
  rw [Bytes.getElem?_sub, List.getElem?_map]
  by_cases hi : i < size
  · rw [if_pos hi, List.getElem?_range' hi, Nat.one_mul, Option.map_some, hf i hi,
      List.getD_eq_getElem?_getD, List.getElem?_eq_getElem (by omega)]
    rfl
  · rw [if_neg hi, List.getElem?_eq_none (by rw [List.length_range']; omega)]
    rfl

/-- Entries of four bytes, one behind the other. -/
theorem getElem?_flatMap_four {g : Nat → Bytes} (hg : ∀ i, (g i).length = 4) {first n k : Nat}
    (hk : k < 4 * n) :
    ((List.range' first n).flatMap g)[k]? = (g (first + k / 4))[k % 4]? := by
  induction n generalizing first k with
  | zero => omega
  | succ n ih =>
      rw [List.range'_succ, List.flatMap_cons]
      by_cases hlow : k < 4
      · have hdiv : k / 4 = 0 := by omega
        have hmod : k % 4 = k := by omega
        rw [List.getElem?_append_left (by rw [hg]; exact hlow), hdiv, hmod, Nat.add_zero]
      · have hdiv : first + 1 + (k - 4) / 4 = first + k / 4 := by omega
        have hmod : (k - 4) % 4 = k % 4 := by omega
        rw [List.getElem?_append_right (by rw [hg]; omega), hg, ih (by omega), hdiv, hmod]

variable {v : Volume}

/-- A part of the FAT consists of the bytes of the entries it touches. -/
theorem fat_eq_map (offset count : Nat) :
    v.fat offset count = (List.range' offset count).map
      fun i => (Bytes.ofNat 4 (v.fatEntry (i / 4))).getD (i % 4) 0 := by
  have hlen : ∀ i, (Bytes.ofNat 4 (v.fatEntry i)).length = 4 := fun i => Bytes.length_ofNat 4 _
  apply List.ext_getElem?
  intro i
  unfold fat
  rw [Bytes.getElem?_sub, List.getElem?_map]
  by_cases hi : i < count
  · have hcovered : offset % 4 + i < 4 * (ceilDiv (offset + count) 4 - offset / 4) := by
      unfold ceilDiv
      omega
    have hentry : offset / 4 + (offset % 4 + i) / 4 = (offset + i) / 4 := by omega
    have hbyte : (offset % 4 + i) % 4 = (offset + i) % 4 := by omega
    rw [if_pos hi, getElem?_flatMap_four hlen hcovered, hentry, hbyte, List.getElem?_range' hi,
      Nat.one_mul, Option.map_some, List.getD_eq_getElem?_getD, List.getElem?_eq_getElem]
    · rfl
    · rw [hlen]
      omega
  · rw [if_neg hi, List.getElem?_eq_none (by rw [List.length_range']; omega)]
    rfl

theorem byteAt_mbr {i : Nat} (h : i < SECTOR) : v.byteAt i = v.mbr.getD i 0 := if_pos h

theorem byteAt_boot {i : Nat} (hlow : PARTITION * SECTOR ≤ i) (hhigh : i < (PARTITION + 24) * SECTOR) :
    v.byteAt i = v.boot.getD (i - PARTITION * SECTOR) 0 := by
  have hbehind : SECTOR ≤ PARTITION * SECTOR := by decide
  unfold byteAt
  dsimp only
  rw [if_neg (by omega), if_pos ⟨hlow, hhigh⟩]

theorem byteAt_fat {i : Nat} (hlow : (PARTITION + 24) * SECTOR ≤ i)
    (hhigh : i < (PARTITION + 24) * SECTOR + v.fatLength * SECTOR) :
    v.byteAt i = (Bytes.ofNat 4 (v.fatEntry ((i - (PARTITION + 24) * SECTOR) / 4))).getD
      ((i - (PARTITION + 24) * SECTOR) % 4) 0 := by
  have hbehind : SECTOR ≤ (PARTITION + 24) * SECTOR := by decide
  unfold byteAt
  dsimp only
  rw [if_neg (by omega), if_neg (by omega), if_pos ⟨hlow, hhigh⟩]

theorem byteAt_bitmap (hl : v.Laid) {i : Nat} (hlow : v.heapOffset bitmapCluster ≤ i)
    (hhigh : i < v.heapOffset bitmapCluster + v.bitmapLength) :
    v.byteAt i = v.bitmapByte (i - v.heapOffset bitmapCluster) := by
  have hbehind : SECTOR ≤ (PARTITION + 24) * SECTOR := by decide
  have hfat := hl.fat
  unfold byteAt
  dsimp only
  rw [if_neg (by omega), if_neg (by omega), if_neg (by omega), if_pos ⟨hlow, hhigh⟩]

/-- Only one extent holds a byte. -/
theorem find_extent (hl : v.Laid) {e : Extent} (he : e ∈ v.extents) {i : Nat} (hi : e.Holds i) :
    (v.extents.find? fun e => decide (e.Holds i)) = some e := by
  have hbefore := Intervals.before_of_mem hl.ordered he hi.1 hi.2
  cases hfind : v.extents.find? fun e => decide (e.Holds i) with
  | none => exact absurd (decide_eq_true hi) (List.find?_eq_none.mp hfind e he)
  | some e' =>
      have hholds : e'.Holds i := by simpa using List.find?_some hfind
      have hbefore' := Intervals.before_of_mem hl.ordered (List.mem_of_find?_eq_some hfind)
        hholds.1 hholds.2
      exact hbefore'.symm.trans hbefore

theorem byteAt_extent (hl : v.Laid) {e : Extent} (he : e ∈ v.extents) {i : Nat} (hi : e.Holds i) :
    v.byteAt i = e.payload.data.getD (i - e.start) 0 := by
  have hbehind : SECTOR ≤ (PARTITION + 24) * SECTOR := by decide
  have hfat := hl.fat
  have hstart := hl.behind e he
  have hlow := hi.1
  unfold byteAt
  dsimp only
  rw [if_neg (by omega), if_neg (by omega), if_neg (by omega), if_neg (by omega),
    find_extent hl he hi]

theorem byteAt_gap {i : Nat} (hmbr : SECTOR ≤ i)
    (hboot : ¬ (PARTITION * SECTOR ≤ i ∧ i < (PARTITION + 24) * SECTOR))
    (hfat : ¬ ((PARTITION + 24) * SECTOR ≤ i ∧
      i < (PARTITION + 24) * SECTOR + v.fatLength * SECTOR))
    (hbitmap : ¬ (v.heapOffset bitmapCluster ≤ i ∧
      i < v.heapOffset bitmapCluster + v.bitmapLength))
    (hextents : ∀ e ∈ v.extents, ¬ e.Holds i) : v.byteAt i = 0 := by
  have hfind : (v.extents.find? fun e => decide (e.Holds i)) = none := by
    apply List.find?_eq_none.mpr
    intro e he
    simpa using hextents e he
  unfold byteAt
  dsimp only
  rw [if_neg (by omega), if_neg hboot, if_neg hfat, if_neg hbitmap, hfind]

end Volume

/-! ## One pass -/

namespace Device

open Volume

variable {v : Volume} {host : Host} {position stop : Nat}

/-- The boundaries that end a gap. -/
theorem gapEnd_spec (v : Volume) (h : position < stop) :
    position < gapEnd v position stop ∧ ∀ b, position < b →
      b = stop ∨ b = PARTITION * SECTOR ∨ b = (PARTITION + 24) * SECTOR ∨
        b = v.heapOffset bitmapCluster ∨
        (Intervals.after Extent.start v.extents position).map Extent.start = some b →
      gapEnd v position stop ≤ b := by
  unfold gapEnd
  dsimp only
  generalize hbounds : [stop, PARTITION * SECTOR, (PARTITION + 24) * SECTOR,
    v.heapOffset bitmapCluster] ++
      ((Intervals.after Extent.start v.extents position).map Extent.start).toList = boundaries
  have hmem : ∀ b, b ∈ boundaries ↔ b = stop ∨ b = PARTITION * SECTOR ∨
      b = (PARTITION + 24) * SECTOR ∨ b = v.heapOffset bitmapCluster ∨
      (Intervals.after Extent.start v.extents position).map Extent.start = some b := by
    intro b
    rw [← hbounds]
    simp only [List.mem_append, List.mem_cons, List.not_mem_nil, or_false, Option.mem_toList,
      or_assoc]
  have hstop : stop ∈ boundaries.filter (position < ·) := by
    rw [List.mem_filter]
    exact ⟨(hmem stop).mpr (Or.inl rfl), decide_eq_true h⟩
  cases hmin : (boundaries.filter (position < ·)).min? with
  | none =>
      rw [List.min?_eq_none_iff] at hmin
      rw [hmin] at hstop
      cases hstop
  | some m =>
      obtain ⟨hm, hle⟩ := List.min?_eq_some_iff.mp hmin
      rw [List.mem_filter] at hm
      constructor
      · exact of_decide_eq_true hm.2
      · intro b hb hwhich
        apply hle
        rw [List.mem_filter]
        exact ⟨(hmem b).mpr hwhich, decide_eq_true hb⟩

/-- What one pass makes of the volume: it gets further, with the bytes of the image. -/
structure Passed (d : Device) (position stop : Nat) (r : Nat × Bytes) (d' : Device) : Prop where
  further : 0 < r.1
  within : position + r.1 ≤ stop
  data : r.2 = d.volume.image.sub position r.1
  frame : d' = { d with handles := d'.handles }

/-- A file that has not changed gives the bytes asked for. -/
theorem fileBytes_run {path : List Str} {stamp : Stamp} {data : Bytes} {offset count : Nat}
    (hhost : host path = some ⟨stamp, data⟩) (hfits : offset + count ≤ data.length) (d : Device) :
    ∃ handles, fileBytes host path stamp data.length offset count d =
      .ok (data.sub offset count) { d with handles := handles } := by
  let handles := d.handles.erase path ++ [path]
  refine ⟨handles.drop (handles.length - 16), ?_⟩
  unfold fileBytes
  rw [bind_ok (modify_apply _ d), hhost]
  dsimp only
  rw [bind_ok (modify_apply _ _), if_neg (by simp), if_neg]
  · rfl
  · rw [not_not, Bytes.length_sub _ hfits]

/-- Up to the next boundary there is nothing but zeros. -/
theorem gap_eq_sub (hl : v.Laid) (hlt : position < stop) (hle : stop ≤ v.size)
    (hmbr : ¬ position < SECTOR)
    (hboot : ¬ (PARTITION * SECTOR ≤ position ∧ position < (PARTITION + 24) * SECTOR))
    (hfat : ¬ ((PARTITION + 24) * SECTOR ≤ position ∧
      position < (PARTITION + 24) * SECTOR + v.fatLength * SECTOR))
    (hbitmap : ¬ (v.heapOffset bitmapCluster ≤ position ∧
      position < v.heapOffset bitmapCluster + v.bitmapLength))
    (hbefore : ∀ e, Intervals.before Extent.start v.extents position = some e →
      e.stop ≤ position) :
    List.replicate (gapEnd v position stop - position) 0 =
      v.image.sub position (gapEnd v position stop - position) := by
  have hgap := gapEnd_spec v hlt
  have hreach : gapEnd v position stop ≤ stop := hgap.2 stop hlt (Or.inl rfl)
  symm
  rw [image_sub v (by omega)]
  apply List.eq_replicate_iff.mpr
  constructor
  · rw [List.length_map, List.length_range']
  · intro b hb
    obtain ⟨y, hy, rfl⟩ := List.mem_map.mp hb
    rw [List.mem_range'_1] at hy
    have hy' : y < gapEnd v position stop := by omega
    apply byteAt_gap
    · omega
    · rintro ⟨hlow, hhigh⟩
      have := hgap.2 (PARTITION * SECTOR)
      omega
    · rintro ⟨hlow, hhigh⟩
      have := hgap.2 ((PARTITION + 24) * SECTOR)
      omega
    · rintro ⟨hlow, hhigh⟩
      have := hgap.2 (v.heapOffset bitmapCluster)
      omega
    · intro e he
      apply Intervals.gap hl.ordered hy.1 hbefore _ he
      intro e' he'
      have hlater := (Intervals.lt_of_after he').1
      have := hgap.2 e'.start hlater (by simp [he'])
      omega

theorem piece_run {d : Device} (hl : d.volume.Laid) (hhost : Unchanged host d.volume)
    (hlt : position < stop) (hle : stop ≤ d.volume.size) :
    ∃ r d', piece host position stop d = .ok r d' ∧ d.Passed position stop r d' := by
  have hmbr := hl.mbr
  have hboot := hl.boot
  have hbootEnd : PARTITION * SECTOR + 24 * SECTOR = (PARTITION + 24) * SECTOR := by decide
  unfold piece
  rw [get_bind]
  dsimp only
  by_cases h1 : position < SECTOR
  · rw [if_pos h1]
    refine ⟨_, d, rfl, ?_⟩
    constructor
    · dsimp only
      omega
    · dsimp only
      omega
    · dsimp only
      rw [image_sub d.volume (by omega)]
      apply sub_eq_map (by omega)
      intro i hi
      exact byteAt_mbr (by omega)
    · rfl
  rw [if_neg h1]
  by_cases h2 : PARTITION * SECTOR ≤ position ∧ position < PARTITION * SECTOR + d.volume.boot.length
  · rw [if_pos h2]
    refine ⟨_, d, rfl, ?_⟩
    constructor
    · dsimp only
      omega
    · dsimp only
      omega
    · dsimp only
      rw [image_sub d.volume (by omega)]
      apply sub_eq_map (by omega)
      intro i hi
      have hshift : position + i - PARTITION * SECTOR = position - PARTITION * SECTOR + i := by omega
      rw [byteAt_boot (by omega) (by omega), hshift]
    · rfl
  rw [if_neg h2]
  by_cases h3 : (PARTITION + 24) * SECTOR ≤ position ∧
      position < (PARTITION + 24) * SECTOR + d.volume.fatLength * SECTOR
  · rw [if_pos h3]
    refine ⟨_, d, rfl, ?_⟩
    constructor
    · dsimp only
      omega
    · dsimp only
      omega
    · dsimp only
      rw [image_sub d.volume (by omega), fat_eq_map]
      apply map_range'_congr
      intro i hi
      have hshift : position + i - (PARTITION + 24) * SECTOR =
          position - (PARTITION + 24) * SECTOR + i := by omega
      rw [byteAt_fat (by omega) (by omega), hshift]
    · rfl
  rw [if_neg h3]
  by_cases h4 : d.volume.heapOffset bitmapCluster ≤ position ∧
      position < d.volume.heapOffset bitmapCluster + d.volume.bitmapLength
  · rw [if_pos h4]
    refine ⟨_, d, rfl, ?_⟩
    constructor
    · dsimp only
      omega
    · dsimp only
      omega
    · dsimp only
      rw [image_sub d.volume (by omega)]
      apply map_range'_congr
      intro i hi
      have hshift : position + i - d.volume.heapOffset bitmapCluster =
          position - d.volume.heapOffset bitmapCluster + i := by omega
      rw [byteAt_bitmap hl (by omega) (by omega), hshift]
    · rfl
  rw [if_neg h4]
  have hgap := gapEnd_spec d.volume hlt
  have hreach : gapEnd d.volume position stop ≤ stop := hgap.2 stop hlt (Or.inl rfl)
  have hpassed : (∀ e, Intervals.before Extent.start d.volume.extents position = some e →
      e.stop ≤ position) → d.Passed position stop (gapEnd d.volume position stop - position,
        List.replicate (gapEnd d.volume position stop - position) 0) d := by
    intro hbefore
    constructor
    · dsimp only
      omega
    · dsimp only
      omega
    · exact gap_eq_sub hl hlt hle h1 (hbootEnd ▸ hboot ▸ h2) h3 h4 hbefore
    · rfl
  cases hbefore : Intervals.before Extent.start d.volume.extents position with
  | none =>
      refine ⟨_, d, rfl, hpassed ?_⟩
      intro e he
      rw [hbefore] at he
      cases he
  | some e =>
      obtain ⟨he, hstart⟩ := Intervals.mem_of_before hbefore
      dsimp only
      by_cases hinside : position < e.start + e.length
      · rw [if_pos hinside]
        have hfilled := hl.filled e he
        have hshift : ∀ i, position + i - e.start = position - e.start + i := by omega
        have hdata : e.payload.data.sub (position - e.start)
            (min (stop - position) (e.length - (position - e.start))) =
              d.volume.image.sub position
                (min (stop - position) (e.length - (position - e.start))) := by
          rw [image_sub d.volume (by omega)]
          apply sub_eq_map (by omega)
          intro i hi
          rw [byteAt_extent hl he ⟨by omega, by unfold Extent.stop; omega⟩, hshift]
        cases hpayload : e.payload with
        | bytes data =>
            refine ⟨_, d, rfl, ?_⟩
            rw [hpayload] at hdata
            constructor
            · dsimp only
              omega
            · dsimp only
              omega
            · exact hdata
            · rfl
        | file path stamp data =>
            rw [hpayload] at hdata hfilled
            have hlen : data.length = e.length := hfilled
            obtain ⟨handles, hrun⟩ := @fileBytes_run host path stamp data (position - e.start)
              (min (stop - position) (e.length - (position - e.start)))
              (hhost e he path stamp data hpayload) (by omega) d
            dsimp only
            rw [← hlen] at hrun ⊢
            rw [bind_ok hrun]
            refine ⟨_, _, rfl, ?_⟩
            rw [← hlen] at hdata hinside
            constructor
            · dsimp only
              omega
            · dsimp only
              omega
            · exact hdata
            · rfl
      · rw [if_neg hinside]
        refine ⟨_, d, rfl, hpassed ?_⟩
        intro e' he'
        rw [hbefore] at he'
        cases he'
        unfold Extent.stop
        omega

/-! ## Whole reads -/

theorem readLoop_run {d : Device} (hl : d.volume.Laid) (hhost : Unchanged host d.volume)
    (hle : stop ≤ d.volume.size) {fuel : Nat} (hfuel : stop - position ≤ fuel) :
    ∃ handles, readLoop host stop fuel position d =
      .ok (d.volume.image.sub position (stop - position)) { d with handles := handles } := by
  induction fuel generalizing position d with
  | zero =>
      refine ⟨d.handles, ?_⟩
      rw [show stop - position = 0 by omega, Bytes.sub_zero]
      rfl
  | succ fuel ih =>
      unfold readLoop
      by_cases hlt : position < stop
      · rw [if_pos hlt]
        obtain ⟨⟨size, data⟩, d', hrun, hpassed⟩ := piece_run hl hhost hlt hle
        have hfurther : 0 < size := hpassed.further
        have hwithin : position + size ≤ stop := hpassed.within
        have hdata : data = d.volume.image.sub position size := hpassed.data
        have hframe := hpassed.frame
        generalize d'.handles = handles at hframe
        subst hframe
        obtain ⟨handles', hrest⟩ := @ih (position + size) { d with handles := handles } hl hhost hle
          (by omega)
        refine ⟨handles', ?_⟩
        rw [bind_ok hrun]
        dsimp only
        rw [bind_ok hrest, hdata]
        change EStateM.Result.ok (_ ++ _) _ = _
        rw [Bytes.sub_append, show size + (stop - (position + size)) = stop - position by omega]
      · rw [if_neg hlt]
        refine ⟨d.handles, ?_⟩
        rw [show stop - position = 0 by omega, Bytes.sub_zero]
        rfl

/-- The request lies in the disk, and the position in the request. -/
structure Valid (d : Device) : Prop where
  position : d.position ≤ d.limit
  limit : d.limit ≤ d.volume.size

theorem read_run {d : Device} (hl : d.volume.Laid) (hhost : Unchanged host d.volume)
    (hv : d.Valid) (count : Nat) :
    ∃ handles, read host count d =
      .ok (d.volume.image.sub d.position (min count (d.limit - d.position)))
        { d with position := d.position + min count (d.limit - d.position), handles := handles } := by
  have hposition := hv.position
  have hlimit := hv.limit
  have hstop : min (d.position + count) d.limit =
      d.position + min count (d.limit - d.position) := by omega
  obtain ⟨handles, hloop⟩ := @readLoop_run host d.position (min (d.position + count) d.limit) d hl
    hhost (by omega) _ (Nat.le_refl _)
  refine ⟨handles, ?_⟩
  unfold read
  rw [get_bind, bind_ok hloop, hstop, Nat.add_sub_cancel_left]
  rfl

/-- What reads of these counts get while so many bytes are left. -/
def granted : Nat → List Nat → List Nat
  | _, [] => []
  | left, count :: rest => min count left :: granted (left - min count left) rest

/-- Reads return slices of the image: all they ask for, up to the end of the request. -/
structure Sliced (d : Device) (counts : List Nat) (pieces : List Bytes) : Prop where
  joined : pieces.flatten =
    d.volume.image.sub d.position (min counts.sum (d.limit - d.position))
  lengths : pieces.map List.length = granted (d.limit - d.position) counts

theorem reads_run {d : Device} (hl : d.volume.Laid) (hhost : Unchanged host d.volume)
    (hv : d.Valid) (counts : List Nat) :
    ∃ pieces d', reads host counts d = .ok pieces d' ∧ d.Sliced counts pieces := by
  induction counts generalizing d with
  | nil =>
      refine ⟨[], d, rfl, ?_, rfl⟩
      rw [List.sum_nil, Nat.zero_min, Bytes.sub_zero]
      rfl
  | cons count rest ih =>
      have hposition := hv.position
      have hlimit := hv.limit
      obtain ⟨handles, hread⟩ := read_run hl hhost hv count
      generalize hsize : min count (d.limit - d.position) = size at hread
      let d' : Device := { d with position := d.position + size, handles := handles }
      have hleft : d'.limit - d'.position = d.limit - d.position - size := by
        change d.limit - (d.position + size) = _
        omega
      have hv' : d'.Valid := by
        constructor
        · change d.position + size ≤ d.limit
          omega
        · exact hlimit
      obtain ⟨pieces, d'', hreads, hsliced⟩ := @ih d' hl hhost hv'
      refine ⟨d.volume.image.sub d.position size :: pieces, d'', ?_, ?_, ?_⟩
      · unfold reads
        rw [bind_ok hread, bind_ok hreads]
        rfl
      · rw [List.flatten_cons, hsliced.joined, hleft, List.sum_cons]
        change d.volume.image.sub d.position size ++
          d.volume.image.sub (d.position + size) _ = _
        rw [Bytes.sub_append]
        congr 1
        omega
      · rw [List.map_cons, hsliced.lengths, hleft, Bytes.length_sub _ (by
          rw [length_image]; omega)]
        rw [granted, hsize]

end Device

/-! ## Every volume -/

theorem Built.laid {upper : Nat → Nat} {contents : Contents} {v : Volume}
    (h : Built upper contents v) : v.Laid := by
  have hbitmapEnd : v.heapOffset Volume.bitmapCluster + v.bitmapLength ≤
      v.heapOffset v.upcaseCluster := by
    have hbitmap := h.bitmap_le
    unfold Volume.upcaseCluster Volume.bitmapCluster
    rw [Volume.heapOffset_add (Nat.le_refl 2)]
    omega
  have htiles := h.tiles
  rw [← h.extents_eq] at htiles
  constructor
  · exact length_mbr v
  · exact length_boot v
  · have hheap := le_ceilDiv_mul (24 + v.fatLength) (show 0 < 64 by decide)
    unfold Volume.heapOffset Volume.heapSector Volume.bitmapCluster PARTITION SECTOR
    omega
  · exact htiles.between.ordered
  · intro e he
    exact Nat.le_trans hbitmapEnd (htiles.between.inside e he).1
  · exact htiles.filled

inductive Call
  | seek (sector : Nat) (sectorCount : Option Nat)
  | read (count : Nat)
  deriving DecidableEq, Repr

namespace Device

/-- What a call leaves. -/
def next (host : Host) (d : Device) : Call → Device
  | .seek sector sectorCount => final (seek sector sectorCount d)
  | .read count => final (read host count d)

/-- All sequences of calls on a new device. -/
def runs (v : Volume) (host : Host) : System Device Call := .ofNext (new v) (next host)

/-- A seek asks for sectors of the disk, as it has to for not to raise. -/
def Within (d : Device) : Call → Prop
  | .seek sector none => sector * SECTOR ≤ d.volume.size
  | .seek sector (some count) => (sector + count) * SECTOR ≤ d.volume.size
  | .read _ => True

/-- A seek on the disk succeeds and leaves a valid request. -/
theorem seek_valid {d : Device} {sector : Nat} {sectorCount : Option Nat}
    (h : d.Within (.seek sector sectorCount)) :
    (final (seek sector sectorCount d)).volume = d.volume ∧
      (final (seek sector sectorCount d)).Valid := by
  have hin : sector * SECTOR ≤ requestStop d.volume sector sectorCount ∧
      requestStop d.volume sector sectorCount ≤ d.volume.size := by
    cases sectorCount with
    | none => exact ⟨h, Nat.le_refl _⟩
    | some count =>
        refine ⟨Nat.le_add_right _ _, ?_⟩
        change sector * SECTOR + count * SECTOR ≤ _
        rw [← Nat.add_mul]
        exact h
  unfold seek
  rw [bind_ok (modify_apply _ d), get_bind]
  split
  · exact ⟨rfl, hin.1, hin.2⟩
  · exact absurd hin ‹_›

variable {v : Volume} {host : Host}

/-- A device over the volume, with a valid request. -/
structure Serves (v : Volume) (d : Device) : Prop where
  volume : d.volume = v
  valid : d.Valid

theorem serves_of_reached (hl : v.Laid) (hhost : Unchanged host v) {d : Device}
    (h : (runs v host).ReachedWhen Within d) : d.Serves v := by
  refine h.invariant ?_ ?_
  · rintro d rfl
    exact ⟨rfl, Nat.zero_le _, Nat.le_refl _⟩
  · rintro d call d' ⟨hvolume, hvalid⟩ hwithin rfl
    cases call with
    | seek sector sectorCount =>
        have hseek := seek_valid hwithin
        exact ⟨hseek.1.trans hvolume, hseek.2⟩
    | read count =>
        rw [← hvolume] at hl hhost
        obtain ⟨handles, hread⟩ := read_run hl hhost hvalid count
        change (final (read host count d)).Serves v
        rw [hread]
        have hposition := hvalid.position
        refine ⟨hvolume, ?_, hvalid.limit⟩
        change d.position + min count (d.limit - d.position) ≤ d.limit
        omega

/-- Behind any calls on a generated volume whose files have not changed, reads of any counts
return the slice of one image, as much as they ask for up to the end of the request, and
every pass of a read gets further. -/
theorem sliced_of_reached {upper : Nat → Nat} {found : Contents} (hbuild : build upper found = some v)
    (hhost : Unchanged host v) {d : Device} (h : (runs v host).ReachedWhen Within d)
    (counts : List Nat) :
    d.volume.image = v.image ∧ v.image.length = v.size ∧
      (∃ pieces d', reads host counts d = .ok pieces d' ∧ d.Sliced counts pieces) ∧
      ∀ position stop, position < stop → stop ≤ v.size →
        ∃ r d', piece host position stop d = .ok r d' ∧ d.Passed position stop r d' := by
  have hl := (built_of_build hbuild).laid
  obtain ⟨hvolume, hvalid⟩ := serves_of_reached hl hhost h
  rw [← hvolume] at hl hhost
  refine ⟨by rw [hvolume], Volume.length_image v, reads_run hl hhost hvalid counts, ?_⟩
  intro position stop hlt hle
  exact piece_run hl hhost hlt (hvolume ▸ hle)

/-- The host that still has the file of the small folder. -/
def smallHost : Host := fun path => if path = [[.char 'A']] then some ⟨⟨1, 2, 3⟩, [1, 2, 3]⟩ else none

theorem unchanged_smallHost {upper : Nat → Nat} {v : Volume}
    (hbuild : build upper smallFolder = some v) : Unchanged smallHost v := by
  have hb := built_of_build hbuild
  have hmem : ∀ {cluster length : Nat} {payload : Volume.Payload} {e : Volume.Extent},
      e ∈ v.extent cluster length payload → e.payload = payload := by
    intro cluster length payload e he
    unfold Volume.extent at he
    split at he
    · cases he
    · cases List.mem_singleton.mp he
      rfl
  have hsorted : smallFolder.sorted =
      .file [.char 'A'] ⟨1, 2, 3⟩ [1, 2, 3] (.folder [.char 'D'] .empty .empty) := by
    decide +kernel
  intro e he path stamp data hpayload
  rw [hb.extents_eq, hb.nodes, hsorted] at he
  simp only [place, Volume.nodeExtents, List.mem_append, List.not_mem_nil, or_false] at he
  rcases he with (he | he) | he | he
  · rw [hmem he] at hpayload
    cases hpayload
  · rw [hmem he] at hpayload
    cases hpayload
  · rw [hmem he] at hpayload
    cases hpayload
    rfl
  · rw [hmem he] at hpayload
    cases hpayload

/-- Reads of 100 and 5000 bytes at the start of its volume. -/
theorem sliced_smallFolder : ∃ v d, build id smallFolder = some v ∧
    ∃ pieces d', reads smallHost [100, 5000] d = .ok pieces d' ∧ d.Sliced [100, 5000] pieces := by
  obtain ⟨v, hbuild⟩ := build_smallFolder
  have hstart : (runs v smallHost).ReachedWhen Within (new v) := .init rfl
  have hseek : (new v).Within (.seek 0 none) := by
    change 0 * SECTOR ≤ _
    rw [Nat.zero_mul]
    exact Nat.zero_le _
  have hread := sliced_of_reached hbuild (unchanged_smallHost hbuild) (hstart.step hseek rfl)
    [100, 5000]
  exact ⟨v, _, hbuild, hread.2.2.1⟩

end Device

end Ps2Servers.Exfat
