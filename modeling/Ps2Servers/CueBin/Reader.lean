import Ps2Servers.Lib.Blocks
import Ps2Servers.Lib.Runs
import Ps2Servers.Lib.Splice
import Ps2Servers.Lib.Tables
import Ps2Servers.CueBin.Layout

/-!
# Reads of a virtual BIN

`ChdBinFile`: the raw sectors of a CD image, with silence where the layout has it. libchdr is a
parameter. It fails or reads a whole hunk, and a hunk is always the same.
-/

namespace Ps2Servers.CueBin

open Blocks (sub_flatMap)
open Runs
open Tables (mem_of_lookup)

def MAX_CACHE_BYTES : Nat := 4 * 1024 * 1024

def DEFAULT_CACHE_BLOCKS : Nat := 32

/-- A file that libchdr has open: its hunks, and whether an attempt to read one fails. -/
structure Chd (hunkBytes : Nat) where
  hunk : Nat → Bytes
  length_hunk (index : Nat) : (hunk index).length = hunkBytes
  fails : Nat → Nat → Bool

/-- `chd_read`. -/
def Chd.read {hunkBytes : Nat} (chd : Chd hunkBytes) (attempt index : Nat) : Option Bytes :=
  if chd.fails attempt index then none else some (chd.hunk index)

inductive BinError
  | closed
  | outside
  | chdRead (index : Nat)
  | hunkLength
  | hole
  | truncated
  | whence
  | negativeSeek
  /-- The call never returns. -/
  | noReturn
  deriving DecidableEq, Repr

/-- `ChdBinFile`. The cache has its least recently used hunk first; the attempts to read a hunk are
counted. -/
structure ChdBinFile where
  layout : Layout
  uncompressedSize : Nat
  framesPerHunk : Nat
  hunkBytes : Nat
  numHunks : Nat
  cacheSize : Nat
  cache : List (Nat × Bytes)
  cacheBytes : Nat
  pos : Nat
  handle : Bool
  attempts : Nat
  deriving DecidableEq, Repr

/-- `ChdBinFile.__init__` of a file that libchdr opens. -/
def ChdBinFile.open (table : TrackTable) (layout : Layout) (cacheSize : Option Int) : ChdBinFile where
  layout := layout
  uncompressedSize := layout.size
  framesPerHunk := table.hunkBytes / CD_FRAME_BYTES
  hunkBytes := table.hunkBytes
  numHunks := (table.logicalBytes + table.hunkBytes - 1) / table.hunkBytes
  cacheSize :=
    match cacheSize with
    | none => DEFAULT_CACHE_BLOCKS
    | some cacheSize => cacheSize.toNat
  cache := []
  cacheBytes := 0
  pos := 0
  handle := true
  attempts := 0

/-- `_swap_audio_bytes` of an even number of bytes. -/
def swapAudioBytes : Bytes → Bytes
  | a :: b :: rest => b :: a :: swapAudioBytes rest
  | rest => rest

/-- The loop of `_hunk` that makes room for `length` bytes. -/
def evict (cacheSize length : Nat) : List (Nat × Bytes) → Nat → List (Nat × Bytes) × Nat
  | [], cacheBytes => ([], cacheBytes)
  | (index, evicted) :: rest, cacheBytes =>
      if cacheSize ≤ rest.length + 1 ∨ MAX_CACHE_BYTES < cacheBytes + length then
        evict cacheSize length rest (cacheBytes - evicted.length)
      else ((index, evicted) :: rest, cacheBytes)

section

variable {hunkBytes : Nat} (chd : Chd hunkBytes)

/-- `_hunk`, where the hunk is not in the cache. -/
def ChdBinFile.readHunk (f : ChdBinFile) (index : Nat) : Except BinError Bytes × ChdBinFile :=
  let f' := { f with attempts := f.attempts + 1 }
  match chd.read f.attempts index with
  | none => (.error (.chdRead index), f')
  | some decoded =>
      if decoded.length ≠ f.hunkBytes then (.error .hunkLength, f')
      else if 0 < f.cacheSize ∧ decoded.length ≤ MAX_CACHE_BYTES then
        let kept := evict f.cacheSize decoded.length f.cache f.cacheBytes
        (.ok decoded, { f' with
          cache := kept.1 ++ [(index, decoded)]
          cacheBytes := kept.2 + decoded.length })
      else (.ok decoded, f')

/-- `_hunk`. -/
def ChdBinFile.hunk (f : ChdBinFile) (index : Nat) : Except BinError Bytes × ChdBinFile :=
  if f.numHunks ≤ index then (.error .outside, f)
  else
    match if 0 < f.cacheSize then f.cache.lookup index else none with
    | some cached =>
        (.ok cached, { f with cache := f.cache.filter (fun e => e.1 != index) ++ [(index, cached)] })
    | none => f.readHunk chd index

/-- The loop of `read`, from a position on. -/
def ChdBinFile.readLoop (size : Nat) :
    Nat → ChdBinFile → Nat → Bytes → Except BinError (Bytes × Nat) × ChdBinFile
  | 0, f, _, _ => (.error .noReturn, f)
  | fuel + 1, f, position, output =>
      if size ≤ output.length then (.ok (output, position), f)
      else
        let virtualFrame := position / CD_SECTOR_BYTES
        let sectorOffset := position % CD_SECTOR_BYTES
        let amount := min (CD_SECTOR_BYTES - sectorOffset) (size - output.length)
        match f.layout.spanAt virtualFrame with
        | none => (.error .hole, f)
        | some span =>
            match span.physicalStart with
            | none =>
                readLoop size fuel f (position + amount) (output ++ List.replicate amount 0)
            | some physicalStart =>
                let physicalFrame := physicalStart + virtualFrame - span.start
                match f.hunk chd (physicalFrame / f.framesPerHunk) with
                | (.error e, f) => (.error e, f)
                | (.ok decoded, f) =>
                    let sector :=
                      decoded.sub (physicalFrame % f.framesPerHunk * CD_FRAME_BYTES) CD_SECTOR_BYTES
                    if sector.length ≠ CD_SECTOR_BYTES then (.error .truncated, f)
                    else
                      let sector := if span.audio then swapAudioBytes sector else sector
                      readLoop size fuel f (position + amount)
                        (output ++ sector.sub sectorOffset amount)

/-- How many bytes are read, where so many are asked for; a size of `None` is negative. -/
def ChdBinFile.clamp (f : ChdBinFile) (size : Int) : Int :=
  let remaining : Int := f.uncompressedSize - f.pos
  if size < 0 then remaining else min size remaining

/-- `read`. -/
def ChdBinFile.read (f : ChdBinFile) (size : Int) : Except BinError Bytes × ChdBinFile :=
  if !f.handle then (.error .closed, f)
  else
    let size := f.clamp size
    if size ≤ 0 then (.ok [], f)
    else
      match readLoop chd size.toNat (size.toNat + 1) f f.pos [] with
      | (.error e, f) => (.error e, f)
      | (.ok (output, position), f) => (.ok output, { f with pos := position })

end

/-- `seek`. -/
def ChdBinFile.seek (f : ChdBinFile) (offset : Int) (whence : Nat) :
    Except BinError Nat × ChdBinFile :=
  let position : Option Int :=
    match whence with
    | 0 => some offset
    | 1 => some (f.pos + offset)
    | 2 => some (f.uncompressedSize + offset)
    | _ => none
  match position with
  | none => (.error .whence, f)
  | some position =>
      if position < 0 then (.error .negativeSeek, f)
      else (.ok position.toNat, { f with pos := position.toNat })

def ChdBinFile.close (f : ChdBinFile) : ChdBinFile :=
  { f with handle := false, cache := [], cacheBytes := 0 }

/-- What is done with an open file. -/
inductive Call
  | read (size : Int)
  | seek (offset : Int) (whence : Nat)
  | close
  deriving DecidableEq, Repr

def ChdBinFile.next {hunkBytes : Nat} (chd : Chd hunkBytes) (f : ChdBinFile) : Call → ChdBinFile
  | .read size => (f.read chd size).2
  | .seek offset whence => (f.seek offset whence).2
  | .close => f.close

/-! ## The bytes of a virtual BIN -/

/-- The bytes of a frame. -/
def Source.bytes {hunkBytes : Nat} (chd : Chd hunkBytes) : Source → Bytes
  | .silence => List.replicate CD_SECTOR_BYTES 0
  | .stored frame audio =>
      let framesPerHunk := hunkBytes / CD_FRAME_BYTES
      let sector := (chd.hunk (frame / framesPerHunk)).sub
        (frame % framesPerHunk * CD_FRAME_BYTES) CD_SECTOR_BYTES
      if audio then swapAudioBytes sector else sector

/-- Frame by frame, what the tracks say. -/
def TrackTable.bin (table : TrackTable) (chd : Chd table.hunkBytes) : Bytes :=
  (binSources 0 table.tracks).flatMap (Source.bytes chd)

/-- The geometry of hunks that `read_track_table` accepts. -/
structure TrackTable.Geometry (table : TrackTable) : Prop where
  pos : table.hunkBytes ≠ 0
  le : table.hunkBytes ≤ MAX_HUNK_BYTES
  frames : table.hunkBytes % CD_FRAME_BYTES = 0

/-- A read returns the bytes at its position, as far as there are, and goes on behind them. It fails
only where the file is closed or libchdr fails, and then the position stays. -/
structure ChdBinFile.ReadsBin (table : TrackTable) (chd : Chd table.hunkBytes) (f : ChdBinFile)
    (size : Int) : Prop where
  ok : ∀ data, (f.read chd size).1 = .ok data →
    data = (table.bin chd).sub f.pos
        (if size < 0 then (table.bin chd).length - f.pos else size.toNat) ∧
      (f.read chd size).2.pos = f.pos + data.length
  error : ∀ e, (f.read chd size).1 = .error e → (f.read chd size).2.pos = f.pos ∧
    (e = .closed ∧ f.handle = false ∨
      ∃ attempt index, e = .chdRead index ∧ chd.fails attempt index = true)

/-! ## Hunks -/

section

variable {table : TrackTable} {layout : Layout} {chd : Chd table.hunkBytes}

/-- A file on a CHD: what it was opened with stays, and its cache holds hunks. -/
structure ChdBinFile.Opened (layout : Layout) (chd : Chd table.hunkBytes) (f : ChdBinFile) :
    Prop where
  layout_eq : f.layout = layout
  size_eq : f.uncompressedSize = layout.size
  framesPerHunk_eq : f.framesPerHunk = table.hunkBytes / CD_FRAME_BYTES
  hunkBytes_eq : f.hunkBytes = table.hunkBytes
  numHunks_eq : f.numHunks = (table.logicalBytes + table.hunkBytes - 1) / table.hunkBytes
  cache : ∀ e ∈ f.cache, e.2 = chd.hunk e.1

theorem ChdBinFile.opened_open (cacheSize : Option Int) :
    (ChdBinFile.open table layout cacheSize).Opened layout chd := by
  refine ⟨rfl, rfl, rfl, rfl, rfl, ?_⟩
  intro e he
  cases he

theorem evict_suffix (cacheSize length : Nat) (cache : List (Nat × Bytes)) (cacheBytes : Nat) :
    (evict cacheSize length cache cacheBytes).1 <:+ cache := by
  induction cache generalizing cacheBytes with
  | nil => exact List.suffix_refl _
  | cons e rest ih =>
      unfold evict
      split
      · exact (ih _).trans (List.suffix_cons _ _)
      · exact List.suffix_refl _

/-- How a hunk is got: it is the one of the CHD, or libchdr fails. Only the cache changes. -/
structure GetsHunk (chd : Chd table.hunkBytes) (layout : Layout) (f : ChdBinFile) (index : Nat)
    (r : Except BinError Bytes × ChdBinFile) : Prop where
  opened : r.2.Opened layout chd
  pos : r.2.pos = f.pos
  result : r.1 = .ok (chd.hunk index) ∨
    ∃ attempt, r.1 = .error (.chdRead index) ∧ chd.fails attempt index = true

theorem ChdBinFile.Opened.readHunk {f : ChdBinFile} (hf : f.Opened layout chd) (index : Nat) :
    GetsHunk chd layout f index (f.readHunk chd index) := by
  have hmoved {g : ChdBinFile} (hlayout : g.layout = f.layout)
      (hsize : g.uncompressedSize = f.uncompressedSize) (hframes : g.framesPerHunk = f.framesPerHunk)
      (hbytes : g.hunkBytes = f.hunkBytes) (hnum : g.numHunks = f.numHunks)
      (hcache : ∀ e ∈ g.cache, e.2 = chd.hunk e.1) : g.Opened layout chd :=
    ⟨hlayout.trans hf.layout_eq, hsize.trans hf.size_eq, hframes.trans hf.framesPerHunk_eq,
      hbytes.trans hf.hunkBytes_eq, hnum.trans hf.numHunks_eq, hcache⟩
  unfold ChdBinFile.readHunk Chd.read
  dsimp only
  by_cases hfails : chd.fails f.attempts index = true
  · rw [if_pos hfails]
    exact ⟨hmoved rfl rfl rfl rfl rfl hf.cache, rfl, Or.inr ⟨f.attempts, rfl, hfails⟩⟩
  · rw [if_neg hfails]
    dsimp only
    rw [if_neg (not_not.mpr ((chd.length_hunk index).trans hf.hunkBytes_eq.symm))]
    split
    · refine ⟨hmoved rfl rfl rfl rfl rfl ?_, rfl, Or.inl rfl⟩
      intro e he
      rcases List.mem_append.mp he with he | he
      · exact hf.cache e ((evict_suffix _ _ _ _).subset he)
      · rw [List.mem_singleton.mp he]
    · exact ⟨hmoved rfl rfl rfl rfl rfl hf.cache, rfl, Or.inl rfl⟩

theorem ChdBinFile.Opened.hunk {f : ChdBinFile} (hf : f.Opened layout chd) {index : Nat}
    (hindex : index < f.numHunks) : GetsHunk chd layout f index (f.hunk chd index) := by
  unfold ChdBinFile.hunk
  rw [if_neg (Nat.not_le.mpr hindex)]
  split
  case h_1 cached hcached =>
    split at hcached
    case isTrue =>
      have hhunk : cached = chd.hunk index := hf.cache _ (mem_of_lookup hcached)
      refine ⟨⟨hf.layout_eq, hf.size_eq, hf.framesPerHunk_eq, hf.hunkBytes_eq, hf.numHunks_eq, ?_⟩,
        rfl, Or.inl (congrArg _ hhunk)⟩
      intro e he
      rcases List.mem_append.mp he with he | he
      · exact hf.cache e (List.mem_of_mem_filter he)
      · rw [List.mem_singleton.mp he]
        exact hhunk
    case isFalse => cases hcached
  case h_2 => exact hf.readHunk index

/-! ## Frames -/

theorem length_swapAudioBytes (sector : Bytes) :
    (swapAudioBytes sector).length = sector.length := by
  induction sector using swapAudioBytes.induct with
  | case1 a b rest ih => simp [swapAudioBytes, ih]
  | case2 rest h => rw [swapAudioBytes.eq_2 rest h]

theorem TrackTable.Geometry.frames_pos (hgeo : table.Geometry) :
    0 < table.hunkBytes / CD_FRAME_BYTES := by
  have hpos := hgeo.pos
  have hframes := hgeo.frames
  unfold CD_FRAME_BYTES at hframes ⊢
  omega

/-- A frame of a hunk is in it. -/
theorem TrackTable.Geometry.length_sector (hgeo : table.Geometry) (chd : Chd table.hunkBytes)
    (index frame : Nat) : ((chd.hunk index).sub
      (frame % (table.hunkBytes / CD_FRAME_BYTES) * CD_FRAME_BYTES) CD_SECTOR_BYTES).length =
        CD_SECTOR_BYTES := by
  have hlt := Nat.mod_lt frame hgeo.frames_pos
  have hframes := hgeo.frames
  apply Bytes.length_sub
  rw [chd.length_hunk]
  unfold CD_FRAME_BYTES CD_SECTOR_BYTES at *
  omega

theorem TrackTable.Geometry.length_bytes (hgeo : table.Geometry) (chd : Chd table.hunkBytes)
    (source : Source) : (source.bytes chd).length = CD_SECTOR_BYTES := by
  cases source with
  | silence => exact List.length_replicate
  | stored frame audio =>
      unfold Source.bytes
      dsimp only
      cases audio with
      | true => exact (length_swapAudioBytes _).trans (hgeo.length_sector chd _ _)
      | false => exact hgeo.length_sector chd _ _

theorem Span.sourceAt_silence {s : Span} (h : s.physicalStart = none) (offset : Nat) :
    s.sourceAt offset = .silence := by
  unfold Span.sourceAt
  rw [h]

theorem Span.sourceAt_stored {s : Span} {physicalStart : Nat}
    (h : s.physicalStart = some physicalStart) (offset : Nat) :
    s.sourceAt offset = .stored (physicalStart + offset) s.audio := by
  unfold Span.sourceAt
  rw [h]

/-- A stored frame is in a hunk of the CHD. -/
theorem TrackTable.Geometry.hunk_lt (hgeo : table.Geometry) {frame : Nat}
    (hframe : frame < table.logicalBytes / CD_FRAME_BYTES) :
    frame / (table.hunkBytes / CD_FRAME_BYTES) <
      (table.logicalBytes + table.hunkBytes - 1) / table.hunkBytes := by
  have hhunk : table.hunkBytes = table.hunkBytes / CD_FRAME_BYTES * CD_FRAME_BYTES := by
    have hframes := hgeo.frames
    unfold CD_FRAME_BYTES at *
    omega
  have hmul : frame / (table.hunkBytes / CD_FRAME_BYTES) * table.hunkBytes ≤
      frame * CD_FRAME_BYTES := by
    calc frame / (table.hunkBytes / CD_FRAME_BYTES) * table.hunkBytes
        = frame / (table.hunkBytes / CD_FRAME_BYTES) *
            (table.hunkBytes / CD_FRAME_BYTES) * CD_FRAME_BYTES := by
          rw [Nat.mul_assoc, ← hhunk]
      _ ≤ frame * CD_FRAME_BYTES := Nat.mul_le_mul_right _ (Nat.div_mul_le_self _ _)
  have hlt : frame * CD_FRAME_BYTES < table.logicalBytes := by
    unfold CD_FRAME_BYTES at *
    omega
  have hpos := Nat.pos_of_ne_zero hgeo.pos
  apply (Nat.lt_div_iff_mul_lt hpos).mpr
  omega

/-! ## Reads -/

variable {base size : Nat}

/-- What the loop returns: the bytes from a position on, or an error of libchdr. -/
structure ReadsFrom (chd : Chd table.hunkBytes) (layout : Layout) (f : ChdBinFile)
    (base size : Nat) (r : Except BinError (Bytes × Nat) × ChdBinFile) : Prop where
  opened : r.2.Opened layout chd
  pos : r.2.pos = f.pos
  result : r.1 = .ok ((table.bin chd).sub base size, base + size) ∨
    ∃ attempt index, r.1 = .error (.chdRead index) ∧ chd.fails attempt index = true

theorem ReadsFrom.of_pos {f g : ChdBinFile} {r : Except BinError (Bytes × Nat) × ChdBinFile}
    (h : ReadsFrom chd layout g base size r) (hpos : g.pos = f.pos) :
    ReadsFrom chd layout f base size r := ⟨h.opened, h.pos.trans hpos, h.result⟩

theorem length_bin (hgeo : table.Geometry) (hl : layout.Sound table) :
    (table.bin chd).length = layout.size := by
  unfold TrackTable.bin Layout.size
  rw [← hl.length_binSources, List.length_flatMap]
  have hsum : (binSources 0 table.tracks).map (fun s => (s.bytes chd).length) =
      List.replicate (binSources 0 table.tracks).length CD_SECTOR_BYTES := by
    rw [← List.map_const']
    exact List.map_congr_left fun s _ => hgeo.length_bytes chd s
  rw [hsum]
  exact List.sum_replicate_nat

/-- The loop goes on frame by frame. -/
theorem ChdBinFile.Opened.readLoop (hgeo : table.Geometry) (hl : layout.Sound table)
    (hend : base + size ≤ layout.size) {fuel done : Nat} {f : ChdBinFile}
    (hf : f.Opened layout chd) (hdone : done ≤ size) (hfuel : size - done < fuel) :
    ReadsFrom chd layout f base size
      (f.readLoop chd size fuel (base + done) ((table.bin chd).sub base done)) := by
  induction fuel generalizing f done with
  | zero => omega
  | succ fuel ih =>
      have hlength : ((table.bin chd).sub base done).length = done := by
        apply Bytes.length_sub
        rw [length_bin hgeo hl]
        omega
      unfold ChdBinFile.readLoop
      rw [hlength]
      by_cases hfull : size ≤ done
      · have heq : done = size := Nat.le_antisymm hdone hfull
        rw [if_pos hfull, heq]
        exact ⟨hf, rfl, Or.inl rfl⟩
      · rw [if_neg hfull]
        dsimp only
        have hvirtual : (base + done) / CD_SECTOR_BYTES < layout.totalFrames := by
          unfold Layout.size CD_SECTOR_BYTES at hend
          unfold CD_SECTOR_BYTES
          omega
        obtain ⟨span, hspan, hfound, hfrom, hto, hsource⟩ := hl.spanAt hvirtual
        have hoffset : (base + done) % CD_SECTOR_BYTES < CD_SECTOR_BYTES := Nat.mod_lt _ (by decide)
        obtain ⟨amount, hamount⟩ : ∃ amount, amount =
            min (CD_SECTOR_BYTES - (base + done) % CD_SECTOR_BYTES) (size - done) := ⟨_, rfl⟩
        have hslice : (table.bin chd).sub base (done + amount) =
            (table.bin chd).sub base done ++
              ((span.sourceAt ((base + done) / CD_SECTOR_BYTES - span.start)).bytes chd).sub
                ((base + done) % CD_SECTOR_BYTES) amount := by
          rw [← Bytes.sub_append]
          apply congrArg
          exact sub_flatMap (by decide) (hgeo.length_bytes chd) hsource (by omega)
        rw [hf.layout_eq, hfound, ← hamount, Nat.add_assoc]
        dsimp only
        cases hphysical : span.physicalStart with
        | none =>
            dsimp only
            have hzero : Bytes.sub (List.replicate CD_SECTOR_BYTES 0)
                ((base + done) % CD_SECTOR_BYTES) amount = List.replicate amount 0 := by
              unfold Bytes.sub
              rw [List.drop_replicate, List.take_replicate]
              congr 1
              omega
            rw [Span.sourceAt_silence hphysical, Source.bytes, hzero] at hslice
            rw [← hslice]
            exact ih hf (by omega) (by omega)
        | some physicalStart =>
            dsimp only
            rw [Nat.add_sub_assoc hfrom, hf.framesPerHunk_eq]
            obtain ⟨frame, hframe⟩ : ∃ frame, frame =
                physicalStart + ((base + done) / CD_SECTOR_BYTES - span.start) := ⟨_, rfl⟩
            rw [Span.sourceAt_stored hphysical, ← hframe] at hslice
            have hinside : frame < table.logicalBytes / CD_FRAME_BYTES := by
              have hroom := hl.inside span hspan physicalStart hphysical
              unfold Span.stop at hto
              omega
            rw [← hframe]
            have hgets := hf.hunk (show frame / (table.hunkBytes / CD_FRAME_BYTES) < f.numHunks from
              hf.numHunks_eq ▸ hgeo.hunk_lt hinside)
            cases hr : f.hunk chd (frame / (table.hunkBytes / CD_FRAME_BYTES)) with
            | mk result g =>
                rw [hr] at hgets
                rcases hgets.result with hok | ⟨attempt, herror, hfails⟩
                · dsimp only at hok
                  rw [hok]
                  dsimp only
                  have hg : g.framesPerHunk = table.hunkBytes / CD_FRAME_BYTES :=
                    hgets.opened.framesPerHunk_eq
                  rw [hg, if_neg (not_not.mpr (hgeo.length_sector chd _ frame))]
                  have hbytes : (if span.audio = true then
                      swapAudioBytes ((chd.hunk (frame / (table.hunkBytes / CD_FRAME_BYTES))).sub
                        (frame % (table.hunkBytes / CD_FRAME_BYTES) * CD_FRAME_BYTES)
                        CD_SECTOR_BYTES)
                      else (chd.hunk (frame / (table.hunkBytes / CD_FRAME_BYTES))).sub
                        (frame % (table.hunkBytes / CD_FRAME_BYTES) * CD_FRAME_BYTES)
                        CD_SECTOR_BYTES) = (Source.stored frame span.audio).bytes chd := rfl
                  rw [hbytes, ← hslice]
                  exact (ih hgets.opened (by omega) (by omega)).of_pos hgets.pos
                · dsimp only at herror
                  rw [herror]
                  exact ⟨hgets.opened, hgets.pos, Or.inr ⟨attempt, _, rfl, hfails⟩⟩

theorem ChdBinFile.read_closed {f : ChdBinFile} (h : f.handle = false) (size : Int) :
    f.read chd size = (.error .closed, f) := by
  unfold ChdBinFile.read
  rw [h]
  rfl

theorem ChdBinFile.read_nothing {f : ChdBinFile} (h : f.handle = true) {size : Int}
    (hclamp : f.clamp size ≤ 0) : f.read chd size = (.ok [], f) := by
  unfold ChdBinFile.read
  rw [h]
  exact if_pos hclamp

theorem ChdBinFile.read_ok {f g : ChdBinFile} (h : f.handle = true) {size : Int}
    (hclamp : 0 < f.clamp size) {output : Bytes} {position : Nat}
    (hloop : f.readLoop chd (f.clamp size).toNat ((f.clamp size).toNat + 1) f.pos [] =
      (.ok (output, position), g)) :
    f.read chd size = (.ok output, { g with pos := position }) := by
  unfold ChdBinFile.read
  rw [h]
  dsimp only
  rw [if_neg (by decide), if_neg (Int.not_le.mpr hclamp), hloop]

theorem ChdBinFile.read_error {f g : ChdBinFile} (h : f.handle = true) {size : Int}
    (hclamp : 0 < f.clamp size) {e : BinError}
    (hloop : f.readLoop chd (f.clamp size).toNat ((f.clamp size).toNat + 1) f.pos [] =
      (.error e, g)) : f.read chd size = (.error e, g) := by
  unfold ChdBinFile.read
  rw [h]
  dsimp only
  rw [if_neg (by decide), if_neg (Int.not_le.mpr hclamp), hloop]

/-- What is asked for is clamped to what is there. -/
theorem clamp_toNat {f : ChdBinFile} (hlength : (table.bin chd).length = f.uncompressedSize)
    (size : Int) : (f.clamp size).toNat =
      min (if size < 0 then (table.bin chd).length - f.pos else size.toNat)
        ((table.bin chd).length - f.pos) := by
  unfold ChdBinFile.clamp
  dsimp only
  split <;> omega

/-- A read at any position, of a file in any state. -/
theorem ChdBinFile.Opened.read (hgeo : table.Geometry) (hl : layout.Sound table) {f : ChdBinFile}
    (hf : f.Opened layout chd) (size : Int) :
    (f.read chd size).2.Opened layout chd ∧ f.ReadsBin table chd size := by
  have hlength : (table.bin chd).length = f.uncompressedSize :=
    (length_bin hgeo hl).trans hf.size_eq.symm
  have hslice : (table.bin chd).sub f.pos (f.clamp size).toNat = (table.bin chd).sub f.pos
      (if size < 0 then (table.bin chd).length - f.pos else size.toNat) := by
    rw [clamp_toNat hlength, Bytes.sub_min]
  by_cases hopen : f.handle = true
  case neg =>
    have hclosed := Bool.eq_false_iff.mpr hopen
    have hread := @ChdBinFile.read_closed table chd f hclosed size
    rw [hread]
    refine ⟨hf, ?_, ?_⟩
    · intro data hdata
      rw [hread] at hdata
      cases hdata
    · intro e he
      rw [hread] at he ⊢
      cases he
      exact ⟨rfl, Or.inl ⟨rfl, hclosed⟩⟩
  by_cases hclamp : f.clamp size ≤ 0
  case pos =>
    have hread := @ChdBinFile.read_nothing table chd f hopen size hclamp
    rw [Int.toNat_of_nonpos hclamp, Bytes.sub_zero] at hslice
    rw [hread]
    refine ⟨hf, ?_, ?_⟩
    · intro data hdata
      rw [hread] at hdata ⊢
      cases hdata
      exact ⟨hslice, rfl⟩
    · intro e he
      rw [hread] at he
      cases he
  have hpos : 0 < f.clamp size := Int.not_le.mp hclamp
  have hend : f.pos + (f.clamp size).toNat ≤ layout.size := by
    have hcount := clamp_toNat hlength size
    have hsize := hf.size_eq
    omega
  have hloop : ReadsFrom chd layout f f.pos (f.clamp size).toNat
      (f.readLoop chd (f.clamp size).toNat ((f.clamp size).toNat + 1) f.pos []) := by
    have hstart := @ChdBinFile.Opened.readLoop table layout chd f.pos (f.clamp size).toNat hgeo hl
      hend ((f.clamp size).toNat + 1) 0 f hf (Nat.zero_le _) (Nat.lt_succ_self _)
    rwa [Bytes.sub_zero] at hstart
  cases hr : f.readLoop chd (f.clamp size).toNat ((f.clamp size).toNat + 1) f.pos [] with
  | mk result g =>
      rw [hr] at hloop
      have hg := hloop.opened
      rcases hloop.result with hok | ⟨attempt, index, herror, hfails⟩
      · dsimp only at hok
        rw [hok] at hr
        have hread := ChdBinFile.read_ok hopen hpos hr
        have hcount : ((table.bin chd).sub f.pos (f.clamp size).toNat).length =
            (f.clamp size).toNat := by
          apply Bytes.length_sub
          rw [length_bin hgeo hl]
          exact hend
        rw [hread]
        refine ⟨⟨hg.layout_eq, hg.size_eq, hg.framesPerHunk_eq, hg.hunkBytes_eq, hg.numHunks_eq,
          hg.cache⟩, ?_, ?_⟩
        · intro data hdata
          rw [hread] at hdata ⊢
          cases hdata
          exact ⟨hslice, by rw [hcount]⟩
        · intro e he
          rw [hread] at he
          cases he
      · dsimp only at herror
        rw [herror] at hr
        have hread := ChdBinFile.read_error hopen hpos hr
        rw [hread]
        refine ⟨hg, ?_, ?_⟩
        · intro data hdata
          rw [hread] at hdata
          cases hdata
        · intro e he
          rw [hread] at he ⊢
          cases he
          exact ⟨hloop.pos, Or.inr ⟨attempt, index, rfl, hfails⟩⟩

theorem ChdBinFile.Opened.seek {f : ChdBinFile} (hf : f.Opened layout chd) (offset : Int)
    (whence : Nat) : (f.seek offset whence).2.Opened layout chd := by
  unfold ChdBinFile.seek
  dsimp only
  split
  · exact hf
  split
  · exact hf
  · exact ⟨hf.layout_eq, hf.size_eq, hf.framesPerHunk_eq, hf.hunkBytes_eq, hf.numHunks_eq, hf.cache⟩

theorem ChdBinFile.Opened.close {f : ChdBinFile} (hf : f.Opened layout chd) :
    f.close.Opened layout chd := by
  refine ⟨hf.layout_eq, hf.size_eq, hf.framesPerHunk_eq, hf.hunkBytes_eq, hf.numHunks_eq, ?_⟩
  intro e he
  cases he

/-- The calls on a file that was opened. -/
theorem ChdBinFile.opened_of_reached (hgeo : table.Geometry) (hl : layout.Sound table)
    {cacheSize : Option Int} {f : ChdBinFile}
    (h : (System.ofNext (ChdBinFile.open table layout cacheSize) (ChdBinFile.next chd)).Reached f) :
    f.Opened layout chd := by
  apply System.ReachedWhen.invariant _ _ h
  · rintro f rfl
    exact ChdBinFile.opened_open cacheSize
  · rintro f call _ hf - rfl
    cases call with
    | read size => exact (hf.read hgeo hl size).1
    | seek offset whence => exact hf.seek offset whence
    | close => exact hf.close

end

/-- The layout of an accepted table is sound, and a file over it, after any calls, reads the bytes of
its tracks at any position. -/
theorem layout_sound_and_reads {table : TrackTable} (hgeo : table.Geometry) {layout : Layout}
    (h : table.layout = .ok layout) :
    layout.Sound table ∧ ∀ (chd : Chd table.hunkBytes) (cacheSize : Option Int) (f : ChdBinFile),
      (System.ofNext (ChdBinFile.open table layout cacheSize) (ChdBinFile.next chd)).Reached f →
        ∀ size, f.ReadsBin table chd size := by
  refine ⟨TrackTable.layout_sound h, ?_⟩
  intro chd cacheSize f hf size
  have hl := TrackTable.layout_sound h
  exact ((ChdBinFile.opened_of_reached hgeo hl hf).read hgeo hl size).2

/-- Two tracks, the second with a pregap that is not stored. -/
def twoTracks : TrackTable :=
  ⟨CD_FRAME_BYTES, 11 * CD_FRAME_BYTES,
    [⟨1, "MODE2_RAW", 5, 0, "", 0⟩, ⟨2, "AUDIO", 3, 2, "", 1⟩]⟩

def twoTracksLayout : Layout :=
  ⟨[⟨0, 5, some 0, false⟩, ⟨5, 2, none, true⟩, ⟨7, 3, some 8, true⟩, ⟨10, 1, none, true⟩],
    [⟨⟨1, "MODE2_RAW", 5, 0, "", 0⟩, none, 0⟩, ⟨⟨2, "AUDIO", 3, 2, "", 1⟩, some 5, 7⟩], 11⟩

theorem twoTracks_sound_and_reads : twoTracksLayout.Sound twoTracks ∧
    ∀ (chd : Chd twoTracks.hunkBytes) (cacheSize : Option Int) (f : ChdBinFile),
      (System.ofNext (ChdBinFile.open twoTracks twoTracksLayout cacheSize)
        (ChdBinFile.next chd)).Reached f → ∀ size, f.ReadsBin twoTracks chd size :=
  layout_sound_and_reads ⟨by decide, by decide, by decide⟩ (by decide +kernel)

end Ps2Servers.CueBin
