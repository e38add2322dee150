import Ps2Servers.CueBin.Cue
import Ps2Servers.CueBin.Reader
import Ps2Servers.Lib.Lru
import Ps2Servers.Udpfs.Session

/-!
# Virtual CUE and BIN files of the UDPFS server

The views of `chd_cuebin` as objects of a session: the text of a CUE sheet in memory, and the raw
sectors behind libchdr. A view comes from a table that `read_track_table` has accepted, and an open
BIN keeps what it was opened with.

## Implementation notes

How a view is found in a directory is left to the caller; the search raises nothing.
-/

namespace Ps2Servers.Udpfs

open Text
open CueBin (Chd ChdBinFile BinError TrackTable CD_SECTOR_BYTES MAX_CACHE_BYTES binSources)

/-! ## Views -/

/-- `VirtualView`. -/
structure VirtualView where
  kind : CueBin.Kind
  path : Str
  chdPath : Str
  table : TrackTable
  layout : CueBin.Layout
  cueData : Bytes
  geometry : table.Geometry
  layout_eq : table.layout = .ok layout

def VirtualView.size (view : VirtualView) : Nat :=
  match view.kind with
  | .cue => view.cueData.length
  | .bin => view.layout.size

/-- `MemoryFile`. -/
structure MemoryFile where
  data : Bytes
  pos : Nat
  deriving DecidableEq, Repr

def MemoryFile.read (f : MemoryFile) (size : Nat) : Bytes × MemoryFile :=
  (f.data.sub f.pos size, { f with pos := f.pos + (f.data.sub f.pos size).length })

/-- `io.BytesIO.seek` with the whences that `MemoryFile` lets pass. -/
def MemoryFile.seek (f : MemoryFile) (offset : Int) (whence : Nat) : Except Exn Nat × MemoryFile :=
  let place := fun (base : Nat) =>
    if (MAX_OFFSET : Int) - base < offset then (.error .overflowError, f)
    else (.ok (base + offset).toNat, { f with pos := (base + offset).toNat })
  match whence with
  | 0 =>
      if offset < 0 then (.error .valueError, f)
      else (.ok offset.toNat, { f with pos := offset.toNat })
  | 1 => place f.pos
  | 2 => place f.data.length
  | _ => (.error .valueError, f)

/-- How many hunks the cache of a BIN holds at most. -/
def hunkLimit (f : ChdBinFile) : Nat := min f.cacheSize (MAX_CACHE_BYTES / f.hunkBytes)

/-- What every file object over a table keeps. -/
structure Over (table : TrackTable) (layout : CueBin.Layout) (f : ChdBinFile) : Prop where
  layout_eq : f.layout = layout
  size_eq : f.uncompressedSize = layout.size
  framesPerHunk_eq : f.framesPerHunk = table.hunkBytes / CueBin.CD_FRAME_BYTES
  hunkBytes_eq : f.hunkBytes = table.hunkBytes
  numHunks_eq : f.numHunks = (table.logicalBytes + table.hunkBytes - 1) / table.hunkBytes
  handle : f.handle = true
  entry : ∀ e ∈ f.cache, e.2.length = table.hunkBytes
  nodup : (f.cache.map Prod.fst).Nodup
  limit : f.cache.length ≤ hunkLimit f
  cacheBytes_eq : f.cacheBytes = f.cache.length * table.hunkBytes

/-- An open BIN: a file object over the image that libchdr has open. -/
structure BinFile where
  table : TrackTable
  layout : CueBin.Layout
  geometry : table.Geometry
  layout_eq : table.layout = .ok layout
  chd : Nat
  file : ChdBinFile
  isOver : Over table layout file

inductive OpenView
  | cue (f : MemoryFile)
  | bin (f : BinFile)

/-- The exceptions of a BIN. An error of libchdr is an `OSError` without an errno. -/
def binExn : BinError → Exn
  | .closed | .whence | .negativeSeek => .valueError
  | .outside | .chdRead _ | .hunkLength | .hole | .truncated => .osError none
  | .noReturn => .noReturn

/-! ## libchdr -/

section

variable {H : Type} (codecs : Codecs H) (h : H)

/-- `chd_read` into a buffer of one hunk. -/
def chdHunk (chd hunkBytes index : Nat) : Option Bytes :=
  match codecs.libchdr with
  | none => none
  | some (_, chdRead) =>
      (chdRead h chd (index % 0x100000000)).map fun hunk => ljust hunkBytes (hunk.take hunkBytes)

theorem length_chdHunk {chd hunkBytes index : Nat} {hunk : Bytes}
    (hhunk : chdHunk codecs h chd hunkBytes index = some hunk) : hunk.length = hunkBytes := by
  unfold chdHunk at hhunk
  split at hhunk
  · cases hhunk
  · obtain ⟨bytes, -, rfl⟩ := Option.map_eq_some_iff.mp hhunk
    unfold ljust
    rw [List.length_append, List.length_replicate, List.length_take]
    omega

/-- An image as libchdr reads it now. -/
def chdNow (chd hunkBytes : Nat) : Chd hunkBytes where
  hunk index := (chdHunk codecs h chd hunkBytes index).getD (List.replicate hunkBytes 0)
  length_hunk index := by
    cases hhunk : chdHunk codecs h chd hunkBytes index with
    | none => exact List.length_replicate
    | some hunk => exact length_chdHunk codecs h hhunk
  fails _ index := (chdHunk codecs h chd hunkBytes index).isNone

theorem read_chdNow (chd hunkBytes attempt index : Nat) :
    (chdNow codecs h chd hunkBytes).read attempt index = chdHunk codecs h chd hunkBytes index := by
  unfold Chd.read chdNow
  dsimp only
  split
  case isTrue hnone => exact (Option.isNone_iff_eq_none.mp hnone).symm
  case isFalse hsome =>
    rw [Option.isNone_iff_eq_none, ← ne_eq, Option.ne_none_iff_exists'] at hsome
    obtain ⟨hunk, hhunk⟩ := hsome
    rw [hhunk]
    rfl

end

/-! ## The cache of a BIN -/

variable {table : TrackTable} {layout : CueBin.Layout} {f : ChdBinFile}

/-- Making room drops the oldest hunks, so that with one more there are no more than the limit. -/
theorem evict_eq_drop {hunkBytes cacheSize : Nat} (hpos : 0 < hunkBytes)
    {cache : List (Nat × Bytes)} (hentry : ∀ e ∈ cache, e.2.length = hunkBytes) :
    CueBin.evict cacheSize hunkBytes cache (cache.length * hunkBytes) =
      (cache.drop (cache.length + 1 - min cacheSize (MAX_CACHE_BYTES / hunkBytes)),
        (cache.drop (cache.length + 1 - min cacheSize (MAX_CACHE_BYTES / hunkBytes))).length *
          hunkBytes) := by
  induction cache with
  | nil => simp [CueBin.evict]
  | cons e rest ih =>
      have hfull : (cacheSize ≤ rest.length + 1 ∨
          MAX_CACHE_BYTES < (e :: rest).length * hunkBytes + hunkBytes) ↔
          min cacheSize (MAX_CACHE_BYTES / hunkBytes) ≤ rest.length + 1 := by
        rw [min_le_iff]
        apply or_congr Iff.rfl
        rw [List.length_cons, ← Nat.succ_mul, ← Nat.div_lt_iff_lt_mul hpos]
        exact Nat.lt_succ_iff
      obtain ⟨index, evicted⟩ := e
      unfold CueBin.evict
      by_cases hroom : min cacheSize (MAX_CACHE_BYTES / hunkBytes) ≤ rest.length + 1
      · rw [if_pos (hfull.mpr hroom)]
        have hevicted : evicted.length = hunkBytes := hentry (index, evicted) List.mem_cons_self
        have hbytes : ((index, evicted) :: rest).length * hunkBytes - evicted.length =
            rest.length * hunkBytes := by
          rw [hevicted, List.length_cons, Nat.succ_mul, Nat.add_sub_cancel]
        rw [hbytes, ih fun e he => hentry e (List.mem_cons_of_mem _ he)]
        have hdrop : ((index, evicted) :: rest).length + 1 -
            min cacheSize (MAX_CACHE_BYTES / hunkBytes) =
            rest.length + 1 - min cacheSize (MAX_CACHE_BYTES / hunkBytes) + 1 := by
          rw [List.length_cons]
          omega
        rw [hdrop, List.drop_succ_cons]
      · rw [if_neg (fun h => hroom (hfull.mp h))]
        have hdrop : ((index, evicted) :: rest).length + 1 -
            min cacheSize (MAX_CACHE_BYTES / hunkBytes) = 0 := by
          rw [List.length_cons]
          omega
        rw [hdrop, List.drop_zero]

/-! ## Hunks -/

theorem Over.hunkBytes_pos (hf : Over table layout f) (hgeo : table.Geometry) : 0 < f.hunkBytes := by
  rw [hf.hunkBytes_eq]
  exact Nat.pos_of_ne_zero hgeo.pos

/-- A use of a hunk, wherever it comes from. -/
theorem Over.use (hf : Over table layout f) (index : Nat) {hunk : Bytes}
    (hlength : hunk.length = table.hunkBytes) (attempts : Nat) :
    Over table layout { f with
      cache := Lru.use (hunkLimit f) f.cache index hunk
      cacheBytes := (Lru.use (hunkLimit f) f.cache index hunk).length * table.hunkBytes
      attempts := attempts } where
  layout_eq := hf.layout_eq
  size_eq := hf.size_eq
  framesPerHunk_eq := hf.framesPerHunk_eq
  hunkBytes_eq := hf.hunkBytes_eq
  numHunks_eq := hf.numHunks_eq
  handle := hf.handle
  entry := by
    intro e he
    rcases Lru.mem_use he with he | rfl
    · exact hf.entry e he
    · exact hlength
  nodup := Lru.nodup_use hf.nodup
  limit := Lru.length_use_le hf.nodup hf.limit
  cacheBytes_eq := rfl

section

variable {H : Type} {codecs : Codecs H} {h : H} {chd index : Nat}

/-- What asking for a hunk comes to: it is the cached one, or libchdr reads it or fails. -/
inductive Fetched (table : TrackTable) (layout : CueBin.Layout) (f : ChdBinFile) (index : Nat) :
    Option Bytes → Except BinError Bytes × ChdBinFile → Prop
  | some {hunk : Bytes} {f' : ChdBinFile} (hlength : hunk.length = table.hunkBytes)
      (hover : Over table layout f') (hpos : f'.pos = f.pos) (hlimit : hunkLimit f' = hunkLimit f)
      (hcache : f'.cache = Lru.use (hunkLimit f) f.cache index hunk) :
      Fetched table layout f index (some hunk) (.ok hunk, f')
  | none {f' : ChdBinFile} (hover : Over table layout f') (hpos : f'.pos = f.pos) :
      Fetched table layout f index none (.error (.chdRead index), f')

theorem Over.readHunk (hf : Over table layout f) (hgeo : table.Geometry)
    (hmissing : f.cache.lookup index = none) :
    Fetched table layout f index (chdHunk codecs h chd table.hunkBytes index)
      (f.readHunk (chdNow codecs h chd table.hunkBytes) index) := by
  unfold ChdBinFile.readHunk
  dsimp only
  rw [read_chdNow]
  cases hhunk : chdHunk codecs h chd table.hunkBytes index with
  | none =>
      exact .none ⟨hf.layout_eq, hf.size_eq, hf.framesPerHunk_eq, hf.hunkBytes_eq, hf.numHunks_eq,
        hf.handle, hf.entry, hf.nodup, hf.limit, hf.cacheBytes_eq⟩ rfl
  | some hunk =>
      have hlength := length_chdHunk codecs h hhunk
      have hpos := hf.hunkBytes_pos hgeo
      have hover := hf.use index hlength (f.attempts + 1)
      dsimp only
      rw [if_neg (not_not.mpr (hlength.trans hf.hunkBytes_eq.symm))]
      by_cases hlimit : hunkLimit f = 0
      · -- No hunk fits into the cache.
        have hroom : ¬ (0 < f.cacheSize ∧ hunk.length ≤ MAX_CACHE_BYTES) := by
          rintro ⟨hsize, hle⟩
          rw [hlength, ← hf.hunkBytes_eq] at hle
          have hone : 0 < MAX_CACHE_BYTES / f.hunkBytes := Nat.div_pos hle hpos
          unfold hunkLimit at hlimit
          omega
        rw [if_neg hroom]
        rw [hlimit, Lru.use_zero hmissing, ← hf.cacheBytes_eq] at hover
        refine .some hlength hover rfl rfl ?_
        rw [hlimit, Lru.use_zero hmissing]
      · have hroom : 0 < f.cacheSize ∧ hunk.length ≤ MAX_CACHE_BYTES := by
          have hsize : hunkLimit f ≤ f.cacheSize := Nat.min_le_left _ _
          have hone : hunkLimit f ≤ MAX_CACHE_BYTES / f.hunkBytes := Nat.min_le_right _ _
          refine ⟨by omega, ?_⟩
          rw [hlength, ← hf.hunkBytes_eq]
          exact (Nat.div_pos_iff.mp (by omega : 0 < MAX_CACHE_BYTES / f.hunkBytes)).2
        have huse : Lru.use (hunkLimit f) f.cache index hunk = _ :=
          Lru.use_of_lookup_none hmissing hlimit
        have hevict := @evict_eq_drop _ f.cacheSize (hf.hunkBytes_eq ▸ hpos) _ hf.entry
        rw [← hf.hunkBytes_eq] at hevict
        change _ = (f.cache.drop (f.cache.length + 1 - hunkLimit f),
          (f.cache.drop (f.cache.length + 1 - hunkLimit f)).length * f.hunkBytes) at hevict
        rw [if_pos hroom, hlength, hf.cacheBytes_eq, ← hf.hunkBytes_eq, hevict]
        rw [huse, List.length_append, List.length_singleton, Nat.succ_mul, ← hf.hunkBytes_eq] at hover
        exact .some hlength hover rfl rfl huse.symm

theorem Over.hunk (hf : Over table layout f) (hgeo : table.Geometry) (hindex : index < f.numHunks) :
    Fetched table layout f index
      ((f.cache.lookup index).or (chdHunk codecs h chd table.hunkBytes index))
      (f.hunk (chdNow codecs h chd table.hunkBytes) index) := by
  unfold ChdBinFile.hunk
  rw [if_neg (Nat.not_le.mpr hindex)]
  cases hlookup : f.cache.lookup index with
  | some cached =>
      have hmem := Tables.mem_of_lookup hlookup
      have hkey : index ∈ f.cache.map Prod.fst := List.mem_map_of_mem hmem
      have hlimit : 0 < f.cacheSize := by
        have hpos := List.length_pos_of_mem hmem
        have hle := hf.limit
        unfold hunkLimit at hle
        omega
      have hlength := hf.entry _ hmem
      have huse : Lru.use (hunkLimit f) f.cache index cached = _ := Lru.use_of_lookup hlookup
      have hover := hf.use index hlength f.attempts
      rw [huse, List.length_append, List.length_singleton, Lru.length_filter_key hf.nodup hkey,
        ← hf.cacheBytes_eq] at hover
      rw [if_pos hlimit]
      exact .some hlength hover rfl rfl huse.symm
  | none =>
      have hnone : (if 0 < f.cacheSize then (none : Option Bytes) else none) = none := ite_self _
      rw [hnone]
      exact hf.readHunk hgeo hlookup

/-! ## Reads -/

/-- The hunk of a frame, if it is stored. -/
def hunkOf (framesPerHunk : Nat) : CueBin.Source → Option Nat
  | .silence => none
  | .stored frame _ => some (frame / framesPerHunk)

/-- The hunks of so many bytes at a position, in the order of their frames. -/
def hunksAt (table : TrackTable) (position size : Nat) : List Nat :=
  if size = 0 then []
  else
    (((binSources 0 table.tracks).take (ceilDiv (position + size) CD_SECTOR_BYTES)).drop
      (position / CD_SECTOR_BYTES)).filterMap (hunkOf (table.hunkBytes / CueBin.CD_FRAME_BYTES))

/-- The first frame before the others. -/
theorem hunksAt_eq {position size : Nat} {source : CueBin.Source} (hsize : 0 < size)
    (hsource : (binSources 0 table.tracks)[position / CD_SECTOR_BYTES]? = some source) :
    hunksAt table position size =
      (hunkOf (table.hunkBytes / CueBin.CD_FRAME_BYTES) source).toList ++
        hunksAt table
          (position + min (CD_SECTOR_BYTES - position % CD_SECTOR_BYTES) size)
          (size - min (CD_SECTOR_BYTES - position % CD_SECTOR_BYTES) size) := by
  have hframe := Nat.div_add_mod position CD_SECTOR_BYTES
  have hoffset : position % CD_SECTOR_BYTES < CD_SECTOR_BYTES := Nat.mod_lt _ (by decide)
  have hlast : position / CD_SECTOR_BYTES < ceilDiv (position + size) CD_SECTOR_BYTES := by
    unfold ceilDiv CD_SECTOR_BYTES
    omega
  have hhead : ((binSources 0 table.tracks).take
      (ceilDiv (position + size) CD_SECTOR_BYTES)).drop (position / CD_SECTOR_BYTES) =
      source :: ((binSources 0 table.tracks).take
        (ceilDiv (position + size) CD_SECTOR_BYTES)).drop (position / CD_SECTOR_BYTES + 1) := by
    obtain ⟨hlt, heq⟩ := List.getElem?_eq_some_iff.mp hsource
    rw [List.drop_eq_getElem_cons (by rw [List.length_take]; omega), List.getElem_take, heq]
  unfold hunksAt
  rw [if_neg (by omega), hhead]
  have hfilter (rest : List CueBin.Source) :
      (source :: rest).filterMap (hunkOf (table.hunkBytes / CueBin.CD_FRAME_BYTES)) =
        (hunkOf (table.hunkBytes / CueBin.CD_FRAME_BYTES) source).toList ++
          rest.filterMap (hunkOf (table.hunkBytes / CueBin.CD_FRAME_BYTES)) := by
    rw [List.filterMap_cons]
    cases hunkOf (table.hunkBytes / CueBin.CD_FRAME_BYTES) source <;> rfl
  rw [hfilter]
  apply congrArg
  rcases Nat.lt_or_ge (CD_SECTOR_BYTES - position % CD_SECTOR_BYTES) size with hmore | hless
  · -- There are frames behind this one.
    have hnext : position + (CD_SECTOR_BYTES - position % CD_SECTOR_BYTES) =
        CD_SECTOR_BYTES * (position / CD_SECTOR_BYTES + 1) := by
      rw [Nat.mul_succ]
      omega
    rw [Nat.min_eq_left (Nat.le_of_lt hmore), if_neg (by omega), hnext,
      Nat.mul_div_cancel_left _ (by decide), ← hnext]
    congr 4
    omega
  · rw [Nat.min_eq_right hless, Nat.sub_self, if_pos rfl]
    have hend : ceilDiv (position + size) CD_SECTOR_BYTES = position / CD_SECTOR_BYTES + 1 := by
      unfold ceilDiv CD_SECTOR_BYTES at *
      omega
    rw [hend, List.drop_eq_nil_of_le (List.length_take_le _ _)]
    rfl

/-- A frame of any hunk is in it. -/
theorem length_frame (hgeo : table.Geometry) {hunk : Bytes} (hlength : hunk.length = table.hunkBytes)
    (frame : Nat) : (hunk.sub (frame % (table.hunkBytes / CueBin.CD_FRAME_BYTES) *
      CueBin.CD_FRAME_BYTES) CD_SECTOR_BYTES).length = CD_SECTOR_BYTES :=
  hgeo.length_sector ⟨fun _ => hunk, fun _ => hlength, fun _ _ => false⟩ 0 frame

/-- How a loop over the frames ends: with all the bytes if each hunk is served, and else with an error
of libchdr. -/
structure Ends (table : TrackTable) (layout : CueBin.Layout) (f : ChdBinFile) (size : Nat)
    (served : Prop) (r : Except BinError (Bytes × Nat) × ChdBinFile) : Prop where
  isOver : Over table layout r.2
  pos : r.2.pos = f.pos
  result : (∃ data position, r.1 = .ok (data, position) ∧ data.length = size) ∧ served ∨
    (∃ index, r.1 = .error (.chdRead index)) ∧ ¬ served

theorem Ends.of_iff {f g : ChdBinFile} {size : Nat} {served served' : Prop}
    {r : Except BinError (Bytes × Nat) × ChdBinFile} (hr : Ends table layout g size served r)
    (hpos : g.pos = f.pos) (hiff : served' ↔ served) : Ends table layout f size served' r :=
  ⟨hr.isOver, hr.pos.trans hpos, by rw [hiff]; exact hr.result⟩

theorem Over.readLoop (hgeo : table.Geometry) (hl : layout.Sound table) {size fuel position : Nat}
    {output : Bytes} {f : ChdBinFile} (hf : Over table layout f) (hle : output.length ≤ size)
    (hend : position + (size - output.length) ≤ layout.size) (hfuel : size - output.length < fuel) :
    Ends table layout f size
      (Lru.Served (hunkLimit f) (chdHunk codecs h chd table.hunkBytes) f.cache
        (hunksAt table position (size - output.length)))
      (f.readLoop (chdNow codecs h chd table.hunkBytes) size fuel position output) := by
  induction fuel generalizing f position output with
  | zero => omega
  | succ fuel ih =>
      unfold ChdBinFile.readLoop
      split
      case isTrue hfull =>
        have hnone : size - output.length = 0 := by omega
        rw [hnone]
        exact ⟨hf, rfl, Or.inl ⟨⟨output, position, rfl, by omega⟩, trivial⟩⟩
      case isFalse hmore =>
        obtain ⟨amount, hamount⟩ : ∃ amount, amount =
            min (CD_SECTOR_BYTES - position % CD_SECTOR_BYTES) (size - output.length) := ⟨_, rfl⟩
        have hoffset : position % CD_SECTOR_BYTES < CD_SECTOR_BYTES := Nat.mod_lt _ (by decide)
        have hvirtual : position / CD_SECTOR_BYTES < layout.totalFrames := by
          unfold CueBin.Layout.size CD_SECTOR_BYTES at hend
          unfold CD_SECTOR_BYTES
          omega
        obtain ⟨span, hspan, hfound, hfrom, hto, hsource⟩ := hl.spanAt hvirtual
        have hhunks := hunksAt_eq (by omega : 0 < size - output.length) hsource
        rw [← hamount] at hhunks
        -- The rest of the loop, with the bytes of this frame.
        have hrest {g : ChdBinFile} {bytes : Bytes} (hg : Over table layout g)
            (hbytes : bytes.length = amount) := by
          have hlength : (output ++ bytes).length = output.length + amount := by
            rw [List.length_append, hbytes]
          have hnext := @ih (position + amount) (output ++ bytes) g hg (by omega) (by omega)
            (by omega)
          rw [hlength, Nat.sub_add_eq] at hnext
          exact hnext
        dsimp only
        rw [hf.layout_eq, hfound, ← hamount]
        dsimp only
        cases hphysical : span.physicalStart with
        | none =>
            rw [CueBin.Span.sourceAt_silence hphysical] at hhunks
            rw [hhunks]
            exact hrest hf List.length_replicate
        | some physicalStart =>
            rw [CueBin.Span.sourceAt_stored hphysical] at hhunks
            dsimp only
            rw [Nat.add_sub_assoc hfrom, hf.framesPerHunk_eq]
            obtain ⟨frame, hframe⟩ : ∃ frame, frame =
                physicalStart + (position / CD_SECTOR_BYTES - span.start) := ⟨_, rfl⟩
            rw [← hframe] at hhunks ⊢
            have hinside : frame < table.logicalBytes / CueBin.CD_FRAME_BYTES := by
              have hroom := hl.inside span hspan physicalStart hphysical
              unfold CueBin.Span.stop at hto
              omega
            have hindex : frame / (table.hunkBytes / CueBin.CD_FRAME_BYTES) < f.numHunks :=
              hf.numHunks_eq ▸ hgeo.hunk_lt hinside
            have hfetched := @Over.hunk _ _ _ _ codecs h chd _ hf hgeo hindex
            rw [hhunks]
            change Ends table layout f size (Lru.Served (hunkLimit f) _ f.cache
              (frame / (table.hunkBytes / CueBin.CD_FRAME_BYTES) :: _)) _
            generalize hget : (f.cache.lookup (frame / (table.hunkBytes / CueBin.CD_FRAME_BYTES))).or
              (chdHunk codecs h chd table.hunkBytes
                (frame / (table.hunkBytes / CueBin.CD_FRAME_BYTES))) = get at hfetched
            generalize f.hunk (chdNow codecs h chd table.hunkBytes)
              (frame / (table.hunkBytes / CueBin.CD_FRAME_BYTES)) = r at hfetched
            cases hfetched with
            | none hover hpos =>
                exact ⟨hover, hpos, Or.inr ⟨⟨_, rfl⟩, Lru.not_served_cons hget _⟩⟩
            | @some hunk g hlength hover hpos hlimit hcache =>
                dsimp only
                rw [hover.framesPerHunk_eq]
                have hsector := length_frame hgeo hlength frame
                rw [if_neg (not_not.mpr hsector)]
                have hbytes : ((if span.audio = true then CueBin.swapAudioBytes (hunk.sub
                    (frame % (table.hunkBytes / CueBin.CD_FRAME_BYTES) * CueBin.CD_FRAME_BYTES)
                    CD_SECTOR_BYTES) else hunk.sub
                    (frame % (table.hunkBytes / CueBin.CD_FRAME_BYTES) * CueBin.CD_FRAME_BYTES)
                    CD_SECTOR_BYTES).sub (position % CD_SECTOR_BYTES) amount).length = amount := by
                  apply Bytes.length_sub
                  split
                  · rw [CueBin.length_swapAudioBytes, hsector]
                    omega
                  · rw [hsector]
                    omega
                refine (hrest hover hbytes).of_iff hpos ?_
                rw [Lru.served_cons hget, hlimit, hcache]
                rfl

theorem Over.setPos (hf : Over table layout f) (pos : Nat) : Over table layout { f with pos := pos } :=
  ⟨hf.layout_eq, hf.size_eq, hf.framesPerHunk_eq, hf.hunkBytes_eq, hf.numHunks_eq, hf.handle, hf.entry,
    hf.nodup, hf.limit, hf.cacheBytes_eq⟩

/-- How a read ends. -/
structure ReadEnds (table : TrackTable) (layout : CueBin.Layout) (size : Nat) (served : Prop)
    (r : Except BinError Bytes × ChdBinFile) : Prop where
  isOver : Over table layout r.2
  result : (∃ data, r.1 = .ok data ∧ data.length = size) ∧ served ∨
    (∃ index, r.1 = .error (.chdRead index)) ∧ ¬ served

theorem Over.read (hgeo : table.Geometry) (hl : layout.Sound table) (hf : Over table layout f)
    (size : Nat) : ReadEnds table layout (min size (layout.size - f.pos))
      (Lru.Served (hunkLimit f) (chdHunk codecs h chd table.hunkBytes) f.cache
        (hunksAt table f.pos (min size (layout.size - f.pos))))
      (f.read (chdNow codecs h chd table.hunkBytes) size) := by
  have hclamp : (f.clamp size).toNat = min size (layout.size - f.pos) := by
    unfold ChdBinFile.clamp
    dsimp only
    rw [if_neg (by omega), hf.size_eq]
    omega
  by_cases hnothing : f.clamp size ≤ 0
  · have hzero : min size (layout.size - f.pos) = 0 := by omega
    rw [ChdBinFile.read_nothing hf.handle hnothing, hzero]
    exact ⟨hf, Or.inl ⟨⟨[], rfl, rfl⟩, trivial⟩⟩
  · have hsome := Int.not_le.mp hnothing
    have hloop := @Over.readLoop _ _ _ codecs h chd hgeo hl (f.clamp size).toNat
      ((f.clamp size).toNat + 1) f.pos [] f hf (Nat.zero_le _) (by rw [hclamp, List.length_nil]; omega)
      (Nat.lt_succ_of_le (Nat.sub_le _ _))
    rw [List.length_nil, Nat.sub_zero] at hloop
    cases hr : f.readLoop (chdNow codecs h chd table.hunkBytes) (f.clamp size).toNat
        ((f.clamp size).toNat + 1) f.pos [] with
    | mk result g =>
        rw [hr, hclamp] at hloop
        rcases hloop.result with ⟨⟨data, position, hok, hlength⟩, hserved⟩ | ⟨⟨index, herror⟩, hnot⟩
        · dsimp only at hok
          rw [hok] at hr
          rw [ChdBinFile.read_ok hf.handle hsome hr]
          exact ⟨hloop.isOver.setPos position, Or.inl ⟨⟨data, rfl, hlength⟩, hserved⟩⟩
        · dsimp only at herror
          rw [herror] at hr
          rw [ChdBinFile.read_error hf.handle hsome hr]
          exact ⟨hloop.isOver, Or.inr ⟨⟨index, rfl⟩, hnot⟩⟩

theorem Over.seek (hf : Over table layout f) (offset : Int) (whence : Nat) :
    Over table layout (f.seek offset whence).2 := by
  unfold ChdBinFile.seek
  dsimp only
  split
  · exact hf
  split
  · exact hf
  · exact hf.setPos _

end

theorem over_open (table : TrackTable) (layout : CueBin.Layout) (cacheSize : Int) :
    Over table layout (ChdBinFile.open table layout (some cacheSize)) :=
  ⟨rfl, rfl, rfl, rfl, rfl, rfl, nofun, List.nodup_nil, Nat.zero_le _, (Nat.zero_mul _).symm⟩

/-! ## The provider of views -/

/-- How views are found, and how the host spells a path for libchdr. -/
structure ViewNames (H : Type) where
  findVirtualView : H → Str → Option VirtualView
  listVirtualEntries : H → Option Str → List Entry → List (Str × VirtualView)
  /-- `os.fsencode`. -/
  fsencode : Str → Option Bytes

section

variable {H : Type} (host : Host H) (codecs : Codecs H) (names : ViewNames H) (h : H)

def BinFile.read (b : BinFile) (size : Nat) : Except Exn Bytes × BinFile :=
  let r := b.file.read (chdNow codecs h b.chd b.table.hunkBytes) size
  (r.1.mapError binExn, { b with
    file := r.2
    isOver := (b.isOver.read b.geometry (TrackTable.layout_sound b.layout_eq) size).isOver })

def BinFile.seek (b : BinFile) (offset : Int) (whence : Nat) : Except Exn Nat × BinFile :=
  let r := b.file.seek offset whence
  (r.1.mapError binExn, { b with file := r.2, isOver := b.isOver.seek offset whence })

/-- `ChdBinFile.__init__`. -/
def openBin (view : VirtualView) (cacheSize : Int) : Except Exn BinFile := do
  let (chdOpen, _) ← orRaise .importError codecs.libchdr
  let st ←
    match host.lstat h view.chdPath with
    | .error errno => throw (.osError (some errno))
    | .ok st => pure st
  if !st.isReg then throw .valueError
  let name ← orRaise .valueError (names.fsencode view.chdPath)
  let chd ← orRaise (.osError none) (chdOpen h name)
  return ⟨view.table, view.layout, view.geometry, view.layout_eq, chd,
    ChdBinFile.open view.table view.layout (some cacheSize), over_open _ _ _⟩

/-- The views of `chd_cuebin`. -/
def chdViews : Views H VirtualView OpenView where
  findVirtualView := names.findVirtualView
  listVirtualEntries := names.listVirtualEntries
  chdPath := VirtualView.chdPath
  path := VirtualView.path
  size := VirtualView.size
  openView h view cacheSize :=
    match view.kind with
    | .cue => .ok (.cue ⟨view.cueData, 0⟩)
    | .bin => .bin <$> openBin host codecs names h view cacheSize
  read h file size :=
    match file with
    | .cue f => (.ok (f.read size).1, .cue (f.read size).2)
    | .bin b => ((b.read codecs h size).1, .bin (b.read codecs h size).2)
  seek _ file offset whence :=
    match file with
    | .cue f => ((f.seek offset whence).1, .cue (f.seek offset whence).2)
    | .bin b => ((b.seek offset whence).1, .bin (b.seek offset whence).2)

end

end Ps2Servers.Udpfs
