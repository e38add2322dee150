import Ps2Servers.Lib.Blocks
import Ps2Servers.Lib.Tables
import Ps2Servers.Compression.Image
import Mathlib.Algebra.Ring.Int.Defs

/-!
# Reads of the Go server's images

Whatever is asked of an open image, its cache stays within its bounds, and a read hands out bytes of
one decoded image. What a read without a cache would do says which.
-/

namespace Ps2Servers.Compression

open Blocks
open Tables (mem_of_lookup lookup_isSome)
open Effects (bind_eq_ok)
open Edge.Blocks (transferCap minTransferCap)

variable {build : Build} {budget : Int}

/-! ## The cache -/

/-- The bytes of the blocks. -/
def heldBytes (cache : List (Nat × Bytes)) : Int := (cache.map fun e => (e.2.length : Int)).sum

theorem heldBytes_cons (n : Nat) (block : Bytes) (cache : List (Nat × Bytes)) :
    heldBytes ((n, block) :: cache) = block.length + heldBytes cache := List.sum_cons

theorem heldBytes_append (cache : List (Nat × Bytes)) (n : Nat) (block : Bytes) :
    heldBytes (cache ++ [(n, block)]) = heldBytes cache + block.length := by
  rw [heldBytes, List.map_append, List.sum_append]
  exact congrArg _ (Int.add_zero _)

/-- The cache of an image and what is counted of it: blocks of the file, the oldest first. -/
structure Image.CacheOk (build : Build) (budget : Int) (i : Image) : Prop where
  block : ∀ e ∈ i.cache, i.decodeBlock build e.1 = .ok e.2
  order : i.cacheOrder = i.cache.map Prod.fst
  nodup : (i.cache.map Prod.fst).Nodup
  bytes : i.cacheBytes = heldBytes i.cache
  bytes_le : heldBytes i.cache ≤ budget
  length_le : (i.cache.length : Int) ≤ i.cacheLimit
  limit_le : i.cacheLimit ≤ MaxCacheBlocks

/-- Blocks go from the oldest on, until there is room. -/
theorem evict_eq (limit : Int) (length : Nat) (cache : List (Nat × Bytes))
    (hnodup : (cache.map Prod.fst).Nodup) :
    ∃ kept, kept <:+ cache ∧
      evict budget limit length (cache.map Prod.fst) (heldBytes cache) cache =
        (kept.map Prod.fst, heldBytes kept, kept) ∧
      (kept = [] ∨ (kept.length : Int) < limit ∧ heldBytes kept + length ≤ budget) := by
  induction cache with
  | nil => exact ⟨[], List.suffix_refl _, rfl, Or.inl rfl⟩
  | cons e rest ih =>
      obtain ⟨n, block⟩ := e
      rw [List.map_cons, List.nodup_cons] at hnodup
      obtain ⟨kept, hsuffix, hevict, hroom⟩ := ih hnodup.2
      rw [List.map_cons, evict]
      split
      case isTrue =>
        have hlookup : ((n, block) :: rest).lookup n = some block := List.lookup_cons_self
        have hfilter : ((n, block) :: rest).filter (fun e => e.1 != n) = rest := by
          rw [List.filter_cons_of_neg (by simp), List.filter_eq_self]
          rintro ⟨m, data⟩ he
          rw [bne_iff_ne]
          rintro rfl
          exact hnodup.1 (List.mem_map.mpr ⟨_, he, rfl⟩)
        rw [hlookup]
        dsimp only
        rw [hfilter, heldBytes_cons, Int.add_comm, Int.add_sub_cancel]
        exact ⟨kept, hsuffix.trans (List.suffix_cons _ _), hevict, hroom⟩
      case isFalse hfits =>
        refine ⟨_, List.suffix_refl _, rfl, Or.inr ?_⟩
        rw [List.length_cons, List.length_map] at hfits
        rw [List.length_cons]
        omega

/-- A stored block is the youngest. -/
theorem Image.CacheOk.cacheStore {i : Image} (hi : i.CacheOk build budget) {n : Nat}
    {block : Bytes} (hblock : i.decodeBlock build n = .ok block) :
    (i.cacheStore budget n block).CacheOk build budget := by
  unfold Image.cacheStore
  split
  · exact hi
  split
  · exact hi
  case isFalse hlimit hsize =>
    split
    · exact hi
    case h_2 hnew =>
      obtain ⟨kept, hsuffix, hevict, hroom⟩ :=
        @evict_eq budget i.cacheLimit block.length i.cache hi.nodup
      rw [hi.order, hi.bytes, hevict]
      dsimp only
      have hfresh : n ∉ kept.map Prod.fst := by
        intro hmem
        obtain ⟨e, he, rfl⟩ := List.mem_map.mp hmem
        have hsome := lookup_isSome.mpr (List.mem_map_of_mem (hsuffix.subset he))
        rw [hnew] at hsome
        cases hsome
      refine ⟨?_, ?_, ?_, ?_, ?_, ?_, hi.limit_le⟩
      · intro e he
        rcases List.mem_append.mp he with he | he
        · exact hi.block e (hsuffix.subset he)
        · rw [List.mem_singleton.mp he]
          exact hblock
      · rw [List.map_append]
        rfl
      · rw [List.map_append]
        rw [List.nodup_append]
        refine ⟨hi.nodup.sublist (hsuffix.sublist.map _), List.nodup_singleton n, ?_⟩
        intro m hm m' hm' heq
        rw [heq, List.mem_singleton.mp hm'] at hm
        exact hfresh hm
      · exact (heldBytes_append _ _ _).symm
      · rw [heldBytes_append]
        rcases hroom with rfl | hroom
        · have hzero : heldBytes [] = 0 := rfl
          omega
        · exact hroom.2
      · dsimp only
        rw [List.length_append, List.length_singleton]
        rcases hroom with rfl | hroom
        · rw [List.length_nil]
          omega
        · omega

theorem Image.CacheOk.setCacheBlocks {i : Image} (hbudget : 0 ≤ budget) (n : Int) :
    (i.setCacheBlocks n).CacheOk build budget := by
  refine ⟨nofun, rfl, List.nodup_nil, rfl, hbudget, ?_, ?_⟩ <;>
    · unfold Image.setCacheBlocks MaxCacheBlocks
      dsimp only [List.length_nil]
      split <;> split <;> omega

/-! ## Reads without a cache -/

/-- The loop of `readAt` on blocks that are decoded each time. -/
def Image.uncached (build : Build) (i : Image) :
    Nat → Nat → Nat → Bytes → Bytes × Option ReadError
  | 0, _, _, total => (total, some .noReturn)
  | fuel + 1, len, off, total =>
      if len = 0 then (total, none)
      else if i.blockSize = 0 then (total, some .panic)
      else
        match i.decodeBlock build (off / i.blockSize) with
        | .error e => (total, some e)
        | .ok block =>
            if block.length < off % i.blockSize then (total, some .panic)
            else
              let copied := (block.drop (off % i.blockSize)).take len
              i.uncached build fuel (len - copied.length) (off + copied.length) (total ++ copied)

/-- The image without what reads and seeks change. -/
def Image.asOpened (i : Image) : Image :=
  { i with pos := 0, cacheLimit := 0, cacheBytes := 0, cache := [], cacheOrder := [] }

theorem uncached_asOpened (i : Image) (fuel len off : Nat) (total : Bytes) :
    i.asOpened.uncached build fuel len off total = i.uncached build fuel len off total := by
  induction fuel generalizing len off total with
  | zero => rfl
  | succ fuel ih =>
      unfold Image.uncached
      simp only [ih]
      rfl

/-- Storing a block changes the cache alone. -/
theorem asOpened_cacheStore (i : Image) (n : Nat) (block : Bytes) :
    (i.cacheStore budget n block).asOpened = i.asOpened ∧
      (i.cacheStore budget n block).pos = i.pos := by
  unfold Image.cacheStore
  split
  · exact ⟨rfl, rfl⟩
  split
  · exact ⟨rfl, rfl⟩
  split <;> exact ⟨rfl, rfl⟩

/-- The cache only saves work. -/
theorem readBlock_eq {i : Image} (hi : i.CacheOk build budget) (n : Nat) :
    ∃ i', i'.CacheOk build budget ∧ i'.asOpened = i.asOpened ∧ i'.pos = i.pos ∧
      i.readBlock build budget n = (i.decodeBlock build n, i') := by
  unfold Image.readBlock
  split
  case h_1 block hlookup =>
    rw [hi.block _ (mem_of_lookup hlookup)]
    exact ⟨i, hi, rfl, rfl, rfl⟩
  case h_2 =>
    cases hblock : i.decodeBlock build n with
    | error e => exact ⟨i, hi, rfl, rfl, rfl⟩
    | ok block =>
        obtain ⟨hsame, hpos⟩ := @asOpened_cacheStore budget i n block
        exact ⟨_, hi.cacheStore hblock, hsame, hpos, rfl⟩

theorem readBlocks_eq {i : Image} (hi : i.CacheOk build budget) (fuel len off : Nat)
    (total : Bytes) : ∃ i', i'.CacheOk build budget ∧ i'.asOpened = i.asOpened ∧ i'.pos = i.pos ∧
      i.readBlocks build budget fuel len off total =
        (i.uncached build fuel len off total, i') := by
  induction fuel generalizing i len off total with
  | zero => exact ⟨i, hi, rfl, rfl, rfl⟩
  | succ fuel ih =>
      obtain ⟨i', hi', hsame, hpos, hread⟩ := readBlock_eq hi (off / i.blockSize)
      unfold Image.readBlocks Image.uncached
      split
      · exact ⟨i, hi, rfl, rfl, rfl⟩
      split
      · exact ⟨i, hi, rfl, rfl, rfl⟩
      rw [hread]
      cases i.decodeBlock build (off / i.blockSize) with
      | error e => exact ⟨i', hi', hsame, hpos, rfl⟩
      | ok block =>
          have hblockSize : i'.blockSize = i.blockSize :=
            show i'.asOpened.blockSize = i.asOpened.blockSize from congrArg Image.blockSize hsame
          dsimp only
          rw [hblockSize]
          split
          · exact ⟨i', hi', hsame, hpos, rfl⟩
          · obtain ⟨i'', hi'', hsame'', hpos'', hrest⟩ := ih hi'
              (len - ((block.drop (off % i.blockSize)).take len).length)
              (off + ((block.drop (off % i.blockSize)).take len).length)
              (total ++ (block.drop (off % i.blockSize)).take len)
            refine ⟨i'', hi'', hsame''.trans hsame, hpos''.trans hpos, ?_⟩
            rw [hrest, ← uncached_asOpened, hsame, uncached_asOpened]

/-! ## The decoded image -/

/-- The bytes of a block, none of one that fails. -/
def Image.blockBytes (build : Build) (i : Image) (n : Nat) : Bytes :=
  match i.decodeBlock build n with
  | .error _ => []
  | .ok block => block

/-- The byte of the decoded image at a position. -/
def Image.decodedByte (build : Build) (i : Image) (position : Nat) : Option UInt8 :=
  if i.format = .plain then i.file.content[position]?
  else byteAt i.blockSize (i.blockBytes build) position

/-- Where the stored bytes of a block start, by the index. -/
def Image.storedAt (i : Image) (n : Nat) : Nat := (i.index.getD n 0 % 0x80000000) <<< i.align

/-- The block is one that the reader hands to the LZ4 decoder, and its stored bytes come to a length that
is no `int` of 32 bits. -/
structure Image.LongAt (i : Image) (n : Nat) : Prop where
  format : i.format = .zso
  compressed : i.index.getD n 0 < 0x80000000
  le_next : i.storedAt n ≤ i.storedAt (n + 1)
  length_le : i.storedAt (n + 1) - i.storedAt n ≤ i.blockSize * 2 + 4096
  inside : i.storedAt (n + 1) ≤ i.fileSize
  long : Word.LongBlock (i.file.content.sub (i.storedAt n) (i.storedAt (n + 1) - i.storedAt n))
    (i.expected n)

/-- The lengths in a block are numbers of the build. -/
def Image.ShortAt (build : Build) (i : Image) (n : Nat) : Prop := build.wide = true ∨ ¬ i.LongAt n

/-- So are those of the blocks that hold the positions of a read. -/
def Image.Short (build : Build) (i : Image) (len off : Nat) : Prop :=
  ∀ x, off ≤ x → x < off + len → x < i.size → i.ShortAt build (x / i.blockSize)

/-- A block that holds a position of the image goes that far and not beyond its size, or it fails, with
an error that is told if its lengths are numbers of the build. -/
structure Image.Sound (build : Build) (i : Image) : Prop where
  blockSize_pos : 0 < i.blockSize
  covers (x : Nat) (block : Bytes) : x < i.size →
    i.decodeBlock build (x / i.blockSize) = .ok block →
    x % i.blockSize < block.length ∧ block.length ≤ i.blockSize
  reported (x : Nat) (e : ReadError) : x < i.size → i.ShortAt build (x / i.blockSize) →
    i.decodeBlock build (x / i.blockSize) = .error e → e.Reported

theorem uncached_spec {i : Image} (hi : i.Sound build) {fuel len off : Nat} (hfuel : len < fuel)
    (hoff : off + len ≤ i.size) (total : Bytes) :
    ∃ k, k ≤ len ∧ (between i.blockSize (i.blockBytes build) off (off + k)).length = k ∧
      (i.uncached build fuel len off total).1 =
        total ++ between i.blockSize (i.blockBytes build) off (off + k) ∧
      ((i.uncached build fuel len off total).2 = none ∧ k = len ∨
        ∃ e, (i.uncached build fuel len off total).2 = some e ∧
          (i.Short build len off → e.Reported)) := by
  induction fuel generalizing len off total with
  | zero => omega
  | succ fuel ih =>
      have hself : between i.blockSize (i.blockBytes build) off off = [] := between_self off
      unfold Image.uncached
      split
      case isTrue hzero =>
        refine ⟨0, Nat.zero_le _, ?_, ?_, Or.inl ⟨rfl, hzero.symm⟩⟩
        · rw [Nat.add_zero, hself]
          rfl
        · rw [Nat.add_zero, hself, List.append_nil]
      case isFalse hlen =>
        rw [if_neg (Nat.ne_of_gt hi.blockSize_pos)]
        cases hblock : i.decodeBlock build (off / i.blockSize) with
        | error e =>
            refine ⟨0, Nat.zero_le _, ?_, ?_, Or.inr ⟨e, rfl, ?_⟩⟩
            · rw [Nat.add_zero, hself]
              rfl
            · rw [Nat.add_zero, hself, List.append_nil]
            · exact fun hshort => hi.reported off e (by omega)
                (hshort off (Nat.le_refl _) (by omega) (by omega)) hblock
        | ok block =>
            obtain ⟨hcovers, hle⟩ := hi.covers off block (by omega) hblock
            dsimp only
            rw [if_neg (Nat.not_lt_of_lt hcovers)]
            generalize hcopied : (block.drop (off % i.blockSize)).take len = copied
            have hlength : copied.length = min len (block.length - off % i.blockSize) := by
              rw [← hcopied, List.length_take, List.length_drop]
            have hbetween : between i.blockSize (i.blockBytes build) off
                (off + copied.length) = copied := by
              rw [between_block (by omega), Image.blockBytes, hblock]
              dsimp only
              rw [← hcopied]
              exact Bytes.sub_length block (off % i.blockSize) len
            have hleft : len - copied.length < fuel := by omega
            have hinside : off + copied.length + (len - copied.length) ≤ i.size := by omega
            obtain ⟨k, hk, hbytes, hdata, herr⟩ := ih hleft hinside (total ++ copied)
            have hjoin : copied ++ between i.blockSize (i.blockBytes build) (off + copied.length)
                (off + copied.length + k) =
                between i.blockSize (i.blockBytes build) off (off + (copied.length + k)) := by
              rw [← Nat.add_assoc, ← between_append (Nat.le_add_right off copied.length)
                (Nat.le_add_right _ k), hbetween]
            refine ⟨copied.length + k, by omega, ?_, ?_, ?_⟩
            · rw [← hjoin, List.length_append, hbytes]
            · rw [hdata, ← hjoin, List.append_assoc]
            · rcases herr with ⟨hnone, rfl⟩ | ⟨e, hsome, hreported⟩
              · exact Or.inl ⟨hnone, by omega⟩
              · refine Or.inr ⟨e, hsome, fun hshort => hreported fun x hx hx' => ?_⟩
                exact hshort x (by omega) (by omega)

/-! ## Open images -/

/-- What `openImage` leaves behind. -/
structure Image.Accepted (build : Build) (i : Image) : Prop where
  asOpened : i.asOpened = i
  sound : i.format ≠ .plain → i.Sound build

theorem reported_failed (message : String) : (ReadError.failed message).Reported := by
  constructor <;> nofun

theorem length_userData (data : Bytes) : (userData data).length = 2048 := by
  rw [userData, List.length_append, List.length_take, List.length_replicate]
  omega

theorem length_chdExtractUserData (sector : Bytes) : (chdExtractUserData sector).length = 2048 := by
  unfold chdExtractUserData
  split <;> exact length_userData _

/-- The blocks of a CHD image are whole. -/
theorem chdReadBlock_length {h : ChdHeader} {chd : ChdFile} {n : Nat} {block : Bytes}
    (hframes : h.isCD → h.blockSize = h.framesPerHunk * 2048)
    (hhunk : ¬ h.isCD → chd.hunkBytes = h.blockSize)
    (hblock : chdReadBlock h chd n = .ok block) : block.length = h.blockSize := by
  unfold chdReadBlock at hblock
  split at hblock
  · cases hblock
  split at hblock
  · cases hblock
  case h_2 hunkBuffer hread =>
    split at hblock
    case isTrue hplain =>
      cases hblock
      rw [chd.length_read n _ hread, hhunk (by simpa using hplain)]
    case isFalse hcd =>
      split at hblock
      · cases hblock
      · cases hblock
        rw [hframes (by simpa using hcd), List.length_flatMap]
        simp only [length_chdExtractUserData, List.map_const', List.length_range,
          List.sum_replicate_nat]

theorem chdReadBlock_reported {h : ChdHeader} {chd : ChdFile} {n : Nat} {e : ReadError}
    (hhunk : h.isCD → chd.hunkBytes = h.framesPerHunk * 2448)
    (he : chdReadBlock h chd n = .error e) : e.Reported := by
  unfold chdReadBlock at he
  split at he
  · cases he
    constructor <;> nofun
  split at he
  · cases he
    exact reported_failed _
  case h_2 hunkBuffer hread =>
    split at he
    · cases he
    case isFalse hcd =>
      rw [chd.length_read n _ hread, hhunk (by simpa using hcd), if_neg (Nat.lt_irrefl _)] at he
      cases he

/-- The geometry of a CHD header. -/
structure ChdHeader.Ok (h : ChdHeader) : Prop where
  blockSize_pos : 0 < h.blockSize
  frames : h.isCD → h.blockSize = h.framesPerHunk * 2048 ∧ h.hunkSize = h.framesPerHunk * 2448
  hunk : ¬ h.isCD → h.hunkSize = h.blockSize

theorem chdGeometry_ok {logical hunk : Nat} {isCD : Bool} {h : ChdHeader}
    (hgeometry : chdGeometry logical hunk isCD = .ok h) : h.Ok := by
  unfold chdGeometry at hgeometry
  generalize (if logical % hunk ≠ 0 then logical / hunk + 1 else logical / hunk) = blocks
    at hgeometry
  dsimp only at hgeometry
  split at hgeometry
  · cases hgeometry
  case isFalse hhunk =>
    split at hgeometry
    · cases hgeometry
    split at hgeometry
    · cases hgeometry
    split at hgeometry
    · cases hgeometry
      exact ⟨Nat.pos_of_ne_zero (not_or.mp hhunk).1, nofun, fun _ => rfl⟩
    split at hgeometry
    · cases hgeometry
    case isFalse hframes =>
      split at hgeometry
      · cases hgeometry
      · cases hgeometry
        refine ⟨?_, fun _ => ⟨rfl, ?_⟩, fun hcd => absurd rfl hcd⟩
        · dsimp only
          omega
        · dsimp only
          omega

theorem parseCHDHeader_ok {f : File} {h : ChdHeader} (hparse : parseCHDHeader f = .ok h) : h.Ok := by
  unfold parseCHDHeader at hparse
  split at hparse
  · cases hparse
  split at hparse
  · cases hparse
  split at hparse
  · cases hparse
  split at hparse
  · cases hparse
  · exact chdGeometry_ok hparse

/-! ## Opening -/

theorem inflated_length {stream out : Bytes} {expected : Int} (hexpected : 0 ≤ expected)
    (hout : inflated stream expected = some out) : (out.length : Int) = expected := by
  unfold inflated at hout
  split at hout
  · cases hout
  case isFalse hlong =>
    cases hout
    rw [List.length_take]
    omega

/-- A call that fails tells its error under a condition, and what else it returns has the size. -/
def Decodes (short : Prop) (expected : Int) (r : Except ReadError Bytes) : Prop :=
  (∃ e, (short → e.Reported) ∧ r = .error e) ∨ ∃ block, (block.length : Int) = expected ∧ r = .ok block

theorem decodes_error {short : Prop} {expected : Int} {e : ReadError} (he : e.Reported) :
    Decodes short expected (.error e) := Or.inl ⟨e, fun _ => he, rfl⟩

theorem reported_eof : ReadError.eof.Reported := ⟨by decide, by decide⟩

theorem reported_unexpectedEOF : ReadError.unexpectedEOF.Reported := ⟨by decide, by decide⟩

theorem decodes_lz4_wide {short : Prop} (raw : Bytes) (expected : Int) :
    Decodes short expected
      ((decodeLZ4Block raw expected).mapError DecodeError.toReadError) := by
  cases hlz4 : decodeLZ4Block raw expected with
  | error e =>
      obtain ⟨message, rfl⟩ := decodeLZ4Block_returns raw expected e hlz4
      exact decodes_error (reported_failed message)
  | ok block =>
      obtain ⟨b, -, -, hlength⟩ := decodeLZ4Block_ok.mp hlz4
      exact Or.inr ⟨block, hlength, rfl⟩

/-- With 32 bits the decoder tells its errors where no length is too long. -/
theorem decodes_lz4 {blockSize : Nat} {raw : Bytes} {expected : Int}
    (hadmitted : Word.Admitted blockSize raw expected) :
    Decodes (build.wide = true ∨ ¬ Word.LongBlock raw expected) expected
      (build.decodeLZ4Block raw expected) := by
  unfold Build.decodeLZ4Block
  split
  case isTrue => exact decodes_lz4_wide raw expected
  case isFalse hnarrow =>
    cases hlz4 : Word.decodeLZ4Block Word.int32 raw expected with
    | ok block => exact Or.inr ⟨block, Word.length_of_decodeLZ4Block hlz4, rfl⟩
    | error fault =>
        refine Or.inl ⟨fault.toReadError, fun hshort => ?_, rfl⟩
        have hsound := (Word.sound_iff_not_longBlock hadmitted).mpr (hshort.resolve_left hnarrow)
        rw [hsound.int32_eq hadmitted] at hlz4
        cases hdecode : decodeLZ4Block raw expected with
        | ok out =>
            rw [hdecode] at hlz4
            cases hlz4
        | error e =>
            obtain ⟨message, rfl⟩ := decodeLZ4Block_returns raw expected e hdecode
            rw [hdecode] at hlz4
            cases hlz4
            exact reported_failed message

theorem Decodes.weaken {short short' : Prop} {expected : Int} {r : Except ReadError Bytes}
    (h : Decodes short expected r) (himp : short' → short) : Decodes short' expected r := by
  rcases h with ⟨e, he, rfl⟩ | hok
  · exact Or.inl ⟨e, fun h => he (himp h), rfl⟩
  · exact Or.inr hok

theorem Image.decodes_raw {i : Image} {plain : Bool} {raw : Bytes} {expected : Int} {short : Prop}
    (hexpected : 0 ≤ expected)
    (hlz4 : i.format = .zso → plain = false → Decodes short expected (build.decodeLZ4Block raw expected)) :
    Decodes short expected (i.decodeRaw build plain raw expected) := by
  unfold Image.decodeRaw
  split
  · split
    · exact decodes_error reported_unexpectedEOF
    · rw [if_neg (Int.not_lt.mpr hexpected)]
      refine Or.inr ⟨_, ?_, rfl⟩
      rw [List.length_take]
      omega
  split
  case isTrue hzso => exact hlz4 hzso (by simpa using ‹¬ plain = true›)
  rw [if_neg (Int.not_lt.mpr hexpected)]
  split
  case h_1 out hout => exact Or.inr ⟨out, inflated_length hexpected hout, rfl⟩
  split
  · exact decodes_error (reported_failed _)
  split
  case h_1 out hout => exact Or.inr ⟨out, inflated_length hexpected hout, rfl⟩
  · exact decodes_error reported_unexpectedEOF

theorem Image.readRaw_reported {i : Image} {start stop : Nat} {e : ReadError}
    (he : i.readRaw start stop = .error e) : e.Reported := by
  unfold Image.readRaw at he
  split at he
  · cases he
    exact reported_failed _
  split at he
  · cases he
    exact reported_unexpectedEOF
  split at he
  · split at he
    · cases he
      exact reported_unexpectedEOF
    · cases he
  · split at he
    · cases he
      exact reported_unexpectedEOF
    · cases he
  case h_3 raw e' _ hread =>
    cases he
    exact i.file.reported start (stop - start) e (by rw [hread])

/-- The stored bytes of a block are in the file. -/
theorem Image.readRaw_eq {i : Image} {start stop : Nat} {raw : Bytes}
    (hraw : i.readRaw start stop = .ok raw) : start ≤ stop ∧ stop - start ≤ i.blockSize * 2 + 4096 ∧
      stop ≤ i.fileSize ∧ raw.length = stop - start ∧ raw = i.file.content.sub start (stop - start) := by
  have hall {data : Bytes} {err : Option ReadError} (hread : i.file.readAt start (stop - start) = (data, err))
      (hlength : data.length = stop - start) : data = i.file.content.sub start (stop - start) := by
    have heq := i.file.readAt_eq start (stop - start)
    rw [hread] at heq
    exact heq.trans (by rw [hlength])
  unfold Image.readRaw at hraw
  split at hraw
  · cases hraw
  case isFalse hrange =>
    split at hraw
    · cases hraw
    case isFalse hinside =>
      have hbounds : start ≤ stop ∧ stop - start ≤ i.blockSize * 2 + 4096 ∧ stop ≤ i.fileSize := by omega
      split at hraw
      case h_1 raw' hread =>
        split at hraw
        · cases hraw
        case isFalse hlength =>
          cases hraw
          exact ⟨hbounds.1, hbounds.2.1, hbounds.2.2, not_not.mp hlength, hall hread (not_not.mp hlength)⟩
      case h_2 raw' hread =>
        split at hraw
        · cases hraw
        case isFalse hlength =>
          cases hraw
          exact ⟨hbounds.1, hbounds.2.1, hbounds.2.2, not_not.mp hlength, hall hread (not_not.mp hlength)⟩
      case h_3 => cases hraw

/-- What the reader of an image hands to the decoder is admitted. -/
theorem Image.admitted_of_readRaw {i : Image} (hblock : i.blockSize ≤ 16777216) {start stop n : Nat}
    {raw : Bytes} (hraw : i.readRaw start stop = .ok raw) :
    Word.Admitted i.blockSize raw (i.expected n) := by
  obtain ⟨-, hle, -, hlength, -⟩ := Image.readRaw_eq hraw
  refine ⟨hblock, hlength ▸ hle, ?_⟩
  unfold Image.expected
  dsimp only
  split
  · omega
  · exact Int.le_refl _

/-- A block of a CSO or ZSO image has its size. -/
theorem Image.decodes_block {i : Image} (hchd : i.chd = none) (hblock : i.blockSize ≤ 16777216) {n : Nat}
    (hexpected : 0 ≤ i.expected n) :
    Decodes (i.ShortAt build n) (i.expected n) (i.decodeBlock build n) := by
  unfold Image.decodeBlock
  rw [hchd]
  dsimp only
  split
  · exact decodes_error reported_eof
  case isFalse hindex =>
    rw [List.getElem?_eq_getElem (show n < i.index.length by omega),
      List.getElem?_eq_getElem (show n + 1 < i.index.length by omega)]
    dsimp only
    split
    case h_1 e he => exact decodes_error (Image.readRaw_reported he)
    case h_2 raw hraw =>
      have hget {m : Nat} (hm : m < i.index.length) : i.index.getD m 0 = i.index[m] := by
        rw [List.getD_eq_getElem?_getD, List.getElem?_eq_getElem hm, Option.getD_some]
      have hstart : i.storedAt n = (i.index[n] % 0x80000000) <<< i.align := by
        rw [Image.storedAt, hget]
      have hstop : i.storedAt (n + 1) = (i.index[n + 1] % 0x80000000) <<< i.align := by
        rw [Image.storedAt, hget]
      rw [← hstart, ← hstop] at hraw
      obtain ⟨hle, hlength, hinside, -, heq⟩ := Image.readRaw_eq hraw
      refine Image.decodes_raw hexpected fun hzso hplain => ?_
      refine (decodes_lz4 (Image.admitted_of_readRaw hblock hraw)).weaken fun hshort => ?_
      refine hshort.imp_right fun hnot hlong => hnot ⟨hzso, ?_, hle, hlength, hinside, heq ▸ hlong⟩
      rw [hget]
      simpa using hplain

/-- A block whose stored bytes are there is what they decode to. -/
theorem decodeBlock_eq {i : Image} (hchd : i.chd = none) (hn : n + 1 < i.index.length) {a b : Nat}
    (ha : i.index[n]? = some a) (hb : i.index[n + 1]? = some b) {raw : Bytes}
    (hraw : i.readRaw ((a % 0x80000000) <<< i.align) ((b % 0x80000000) <<< i.align) = .ok raw) :
    i.decodeBlock build n = i.decodeRaw build (0x80000000 ≤ a) raw (i.expected n) := by
  unfold Image.decodeBlock
  rw [hchd]
  dsimp only
  rw [if_neg (by omega), ha, hb]
  dsimp only
  rw [hraw]

theorem accepted_openCHD {libchdr : Option (File → Option ChdFile)} {f : File} {i : Image}
    (ho : openCHD libchdr f = .ok i) : i.Accepted build := by
  unfold openCHD at ho
  split at ho
  · cases ho
  case h_2 chdOpen =>
    obtain ⟨h, hparse, ho⟩ := bind_eq_ok.mp ho
    have hh := parseCHDHeader_ok hparse
    split at ho
    · cases ho
    case h_2 chd hchd =>
      split at ho
      · cases ho
      case isFalse hsize =>
        cases ho
        have hhunkSize : chd.hunkBytes = h.hunkSize := not_not.mp hsize
        refine ⟨rfl, fun _ => ⟨hh.blockSize_pos, ?_, ?_⟩⟩
        · intro x block _ hblock
          have hlength := chdReadBlock_length (fun hcd => (hh.frames hcd).1)
            (fun hcd => hhunkSize.trans (hh.hunk hcd)) hblock
          dsimp only
          rw [hlength]
          exact ⟨Nat.mod_lt x hh.blockSize_pos, Nat.le_refl _⟩
        · intro x e _ _ he
          exact chdReadBlock_reported (fun hcd => hhunkSize.trans (hh.frames hcd).2) he

/-- The bounds that a header is checked for. -/
structure Header.Bounded (h : Header) : Prop where
  le_headerSize : 24 ≤ h.headerSize
  headerSize_lt : h.headerSize < 0x100000000
  size_le : h.size ≤ 0x7fffffffffffffff
  block_pos : 0 < h.block
  block_le : h.block ≤ 16777216
  align_le : h.align ≤ 31

theorem parseHeader_bounded {hdr : Bytes} {h : Header} (hparse : parseHeader hdr = .ok h) :
    h.Bounded := by
  unfold parseHeader at hparse
  split at hparse
  · cases hparse
  dsimp only at hparse
  split at hparse
  · cases hparse
  split at hparse
  · cases hparse
  case isFalse hvalid =>
    cases hparse
    have hsize := hdr.field_lt 4 4
    constructor
    all_goals
      dsimp only
      omega

/-- Every image that is opened is sound. -/
theorem accepted_openImage {libchdr : Option (File → Option ChdFile)} {ext : String} {f : File}
    {i : Image} (ho : openImage libchdr ext f = .ok i) : i.Accepted build := by
  unfold openImage at ho
  split at ho
  · exact accepted_openCHD ho
  split at ho
  · cases ho
    exact ⟨rfl, fun hplain => absurd rfl hplain⟩
  obtain ⟨hdr, -, ho⟩ := bind_eq_ok.mp ho
  obtain ⟨h, hparse, ho⟩ := bind_eq_ok.mp ho
  dsimp only at ho
  split at ho
  · cases ho
  split at ho
  · cases ho
  obtain ⟨index, -, ho⟩ := bind_eq_ok.mp ho
  have hpos := (parseHeader_bounded hparse).block_pos
  have hle := (parseHeader_bounded hparse).block_le
  generalize hi : (⟨f, h.format, h.size, f.size, h.block, h.align, index, 0, none, 0, 0, [], []⟩ :
    Image) = opened at ho
  cases ho
  have hblock : i.blockSize = h.block := by rw [← hi]
  have hsize : i.size = h.size := by rw [← hi]
  have hexpected {x : Nat} (hx : x < i.size) :
      (x % i.blockSize : Nat) < i.expected (x / i.blockSize) ∧
        i.expected (x / i.blockSize) ≤ i.blockSize := by
    have hsplit := Nat.div_add_mod x i.blockSize
    have hmod := Nat.mod_lt x (show 0 < i.blockSize by rwa [hblock])
    have hstart : ((x / i.blockSize : Nat) : Int) * i.blockSize =
        ((i.blockSize * (x / i.blockSize) : Nat) : Int) := by
      rw [Int.natCast_mul, Int.mul_comm]
    unfold Image.expected
    dsimp only
    rw [hstart]
    split <;> omega
  have hdecodes {x : Nat} (hx : x < i.size) :=
    @Image.decodes_block build i (by rw [← hi]) (by rwa [hblock]) _
      (Int.le_trans (Int.natCast_nonneg _) (Int.le_of_lt (hexpected hx).1))
  refine ⟨by rw [← hi]; rfl, fun _ => ⟨by rwa [hblock], ?_, ?_⟩⟩
  · intro x block hx hok
    rcases hdecodes hx with ⟨e, -, he⟩ | ⟨out, hlength, hout⟩
    · rw [hok] at he
      cases he
    · rw [hok] at hout
      cases hout
      have := hexpected hx
      omega
  · intro x e hx hshort he
    rcases hdecodes hx with ⟨e', hreported, he'⟩ | ⟨out, -, hout⟩
    · rw [he] at he'
      rw [Except.error.inj he']
      exact hreported hshort
    · rw [he] at hout
      cases hout

/-! ## Runs -/

inductive Operation
  | seek (off : Int) (whence : Whence)
  | read (len : Nat)
  | setCacheBlocks (n : Int)
  deriving DecidableEq, Repr

/-- The image after an operation. -/
def Image.apply (build : Build) (budget : Int) (i : Image) : Operation → Image
  | .seek off whence => (i.seek off whence).2
  | .read len => (i.read build budget len).2
  | .setCacheBlocks n => i.setCacheBlocks n

/-- What a read hands out, from the image as it was opened and the position. -/
def Image.readOf (build : Build) (i : Image) (len off : Nat) : Bytes × Option ReadError :=
  if i.size ≤ off then ([], some .eof)
  else
    let len := min len (i.size - off)
    if i.format = .plain then i.file.readAt off len
    else i.uncached build (len + 1) len off []

theorem readOf_asOpened (i : Image) (len off : Nat) :
    i.asOpened.readOf build len off = i.readOf build len off := by
  unfold Image.readOf
  simp only [uncached_asOpened]
  rfl

theorem Image.CacheOk.moved {i : Image} (hi : i.CacheOk build budget) (pos : Nat) :
    ({ i with pos := pos } : Image).CacheOk build budget :=
  ⟨hi.block, hi.order, hi.nodup, hi.bytes, hi.bytes_le, hi.length_le, hi.limit_le⟩

theorem read_eq {i : Image} (hi : i.CacheOk build budget) (len : Nat) :
    ∃ i', i'.CacheOk build budget ∧ i'.asOpened = i.asOpened ∧
      i'.pos = i.pos + (i.readOf build len i.pos).1.length ∧
      i.read build budget len = (i.readOf build len i.pos, i') := by
  have hreadAt : ∃ i', i'.CacheOk build budget ∧ i'.asOpened = i.asOpened ∧ i'.pos = i.pos ∧
      i.readAt build budget len i.pos = (i.readOf build len i.pos, i') := by
    unfold Image.readAt Image.readOf
    split
    · exact ⟨i, hi, rfl, rfl, rfl⟩
    dsimp only
    split
    · exact ⟨i, hi, rfl, rfl, rfl⟩
    · exact readBlocks_eq hi _ _ _ _
  obtain ⟨i', hi', hsame, hpos, hread⟩ := hreadAt
  refine ⟨{ i' with pos := i'.pos + (i.readOf build len i.pos).1.length }, hi'.moved _, hsame, ?_,
    ?_⟩
  · rw [← hpos]
  · rw [Image.read, hread]

/-- An operation keeps the cache in order and the image the same. -/
theorem Image.CacheOk.apply {i : Image} (hbudget : 0 ≤ budget) (hi : i.CacheOk build budget)
    (op : Operation) : (i.apply build budget op).CacheOk build budget ∧
      (i.apply build budget op).asOpened = i.asOpened := by
  cases op with
  | seek off whence =>
      unfold Image.apply Image.seek
      dsimp only
      split
      · exact ⟨hi, rfl⟩
      split
      · exact ⟨hi, rfl⟩
      · exact ⟨hi.moved _, rfl⟩
  | read len =>
      obtain ⟨i', hi', hsame, -, hread⟩ := read_eq hi len
      rw [Image.apply, hread]
      exact ⟨hi', hsame⟩
  | setCacheBlocks n => exact ⟨Image.CacheOk.setCacheBlocks hbudget n, rfl⟩

theorem cacheByteBudget_nonneg (totalBytes : Int) : 0 ≤ cacheByteBudget totalBytes := by
  unfold cacheByteBudget transferCap preferredCacheBytes minTransferCap
  split
  · decide
  split
  · decide
  split <;> omega

theorem Image.Accepted.cacheOk {i : Image} (ha : i.Accepted build) (hbudget : 0 ≤ budget) :
    i.CacheOk build budget := by
  rw [← ha.asOpened]
  exact ⟨nofun, rfl, List.nodup_nil, rfl, hbudget, Int.le_refl 0,
    show (0 : Int) ≤ MaxCacheBlocks by decide⟩

/-- An open image after some operations. -/
def Image.After (build : Build) (budget : Int) (i₀ i : Image) : Prop :=
  ∃ ops : List Operation, i = ops.foldl (Image.apply build budget) i₀

theorem Image.CacheOk.run {i : Image} (hbudget : 0 ≤ budget) (hi : i.CacheOk build budget)
    (ops : List Operation) :
    (ops.foldl (Image.apply build budget) i).CacheOk build budget ∧
      (ops.foldl (Image.apply build budget) i).asOpened = i.asOpened := by
  induction ops generalizing i with
  | nil => exact ⟨hi, rfl⟩
  | cons op ops ih =>
      obtain ⟨hi', hsame⟩ := hi.apply hbudget op
      obtain ⟨hrun, hsame'⟩ := ih hi'
      exact ⟨hrun, hsame'.trans hsame⟩

theorem cacheOk_of_after {i₀ i : Image} (ha : i₀.Accepted build) (hbudget : 0 ≤ budget)
    (hi : i₀.After build budget i) : i.CacheOk build budget ∧ i.asOpened = i₀ := by
  obtain ⟨ops, rfl⟩ := hi
  obtain ⟨hcache, hsame⟩ := (ha.cacheOk hbudget).run hbudget ops
  exact ⟨hcache, hsame.trans ha.asOpened⟩

/-- A read hands out bytes of the decoded image, all of them unless it tells an error. -/
theorem readOf_spec {i : Image} (ha : i.Accepted build) (len off : Nat) :
    (∀ k, k < (i.readOf build len off).1.length →
      (i.readOf build len off).1[k]? = i.decodedByte build (off + k)) ∧
    ((i.readOf build len off).2 = none ∧
        (i.readOf build len off).1.length = min len (i.size - off) ∨
      ∃ e, (i.readOf build len off).2 = some e ∧ (i.Short build len off → e.Reported)) := by
  unfold Image.readOf Image.decodedByte
  split
  case isTrue => exact ⟨nofun, Or.inr ⟨_, rfl, fun _ => reported_eof⟩⟩
  case isFalse hoff =>
    dsimp only
    split
    case isTrue hplain =>
      constructor
      · intro k hk
        rw [i.file.readAt_eq, Bytes.getElem?_sub, if_pos hk]
      · cases herr : (i.file.readAt off (min len (i.size - off))).2 with
        | none => exact Or.inl ⟨rfl, i.file.all_of_none _ _ herr⟩
        | some e => exact Or.inr ⟨e, rfl, fun _ => i.file.reported _ _ e herr⟩
    case isFalse hblocks =>
      have hsound := ha.sound hblocks
      obtain ⟨k, hk, hlength, hdata, herr⟩ := uncached_spec hsound
        (Nat.lt_succ_self (min len (i.size - off))) (show off + min len (i.size - off) ≤ i.size by
          omega) []
      rw [List.nil_append] at hdata
      rw [hdata]
      constructor
      · intro j hj
        rw [hlength] at hj
        apply getElem?_between
        · exact length_between_eq.mp (by rw [hlength, Nat.add_sub_cancel_left])
        · omega
      · rcases herr with ⟨hnone, hall⟩ | ⟨e, hsome, hreported⟩
        · exact Or.inl ⟨hnone, hlength.trans hall⟩
        · refine Or.inr ⟨e, hsome, fun hshort => hreported fun x hx hx' => ?_⟩
          exact hshort x hx (by omega)

/-- A read of an image that was opened as `i₀`. -/
structure Image.ReadsImage (build : Build) (budget : Int) (i₀ i : Image) (len : Nat) :
    Prop where
  /-- Nothing is out of range, and the read ends, if the lengths in its blocks are numbers of the
  build. -/
  reported : i₀.Short build len i.pos → ∀ e, (i.read build budget len).1.2 = some e →
    e ≠ .panic ∧ e ≠ .noReturn
  /-- Without an error all bytes come that were asked for and are there. -/
  length : (i.read build budget len).1.2 = none →
    (i.read build budget len).1.1.length = min len (i₀.size - i.pos)
  bytes : ∀ k, k < (i.read build budget len).1.1.length →
    (i.read build budget len).1.1[k]? = i₀.decodedByte build (i.pos + k)
  pos : (i.read build budget len).2.pos = i.pos + (i.read build budget len).1.1.length
  /-- What else was done before makes no difference. -/
  same : ∀ j, i₀.After build budget j → j.pos = i.pos →
    (j.read build budget len).1 = (i.read build budget len).1

/-- The cache of an image is within its bounds, and what is counted of it is true. -/
structure Image.Bounded (budget : Int) (i : Image) : Prop where
  bytes : i.cacheBytes = (i.cache.map fun e => (e.2.length : Int)).sum
  bytes_le : i.cacheBytes ≤ budget
  order : i.cacheOrder = i.cache.map Prod.fst
  nodup : i.cacheOrder.Nodup
  length_le : (i.cache.length : Int) ≤ i.cacheLimit
  limit_le : i.cacheLimit ≤ MaxCacheBlocks

theorem Image.CacheOk.bounded {i : Image} (hi : i.CacheOk build budget) : i.Bounded budget := by
  refine ⟨hi.bytes, ?_, hi.order, ?_, hi.length_le, hi.limit_le⟩
  · rw [hi.bytes]
    exact hi.bytes_le
  · rw [hi.order]
    exact hi.nodup

/-- Whatever is done with an open image, a read hands out all there is up to the end or fails, always with
bytes of one decoded image and the same whatever the cache was used for, and it tells its errors where
no length in its blocks is too long for the build; and the cache stays within its bounds. -/
theorem image_reads {libchdr : Option (File → Option ChdFile)} {ext : String} {f : File}
    {i₀ i : Image} (totalBytes : Int) (hopen : openImage libchdr ext f = .ok i₀)
    (hi : i₀.After build (cacheByteBudget totalBytes) i) (len : Nat) :
    i₀.ReadsImage build (cacheByteBudget totalBytes) i len ∧
      i.Bounded (cacheByteBudget totalBytes) := by
  have ha := @accepted_openImage build _ _ _ _ hopen
  have hbudget := cacheByteBudget_nonneg totalBytes
  have hread {j : Image} (hj : i₀.After build (cacheByteBudget totalBytes) j) :
      (j.read build (cacheByteBudget totalBytes) len).1 = i₀.readOf build len j.pos ∧
        (j.read build (cacheByteBudget totalBytes) len).2.pos =
          j.pos + (i₀.readOf build len j.pos).1.length := by
    obtain ⟨hcache, hsame⟩ := cacheOk_of_after ha hbudget hj
    obtain ⟨j', -, -, hpos, hj'⟩ := read_eq hcache len
    rw [hj', ← hsame, readOf_asOpened]
    exact ⟨rfl, hpos⟩
  obtain ⟨hcache, -⟩ := cacheOk_of_after ha hbudget hi
  obtain ⟨hresult, hpos⟩ := hread hi
  obtain ⟨hbytes, hends⟩ := readOf_spec ha len i.pos
  refine ⟨⟨?_, ?_, ?_, ?_, ?_⟩, hcache.bounded⟩
  · intro hshort e he
    rw [hresult] at he
    rcases hends with ⟨hnone, -⟩ | ⟨e', he', hreported⟩
    · rw [he] at hnone
      cases hnone
    · rw [he] at he'
      cases he'
      exact hreported hshort
  · intro hnone
    rw [hresult] at hnone ⊢
    rcases hends with ⟨-, hlength⟩ | ⟨e', he', -⟩
    · exact hlength
    · rw [hnone] at he'
      cases he'
  · rw [hresult]
    exact hbytes
  · rw [hpos, hresult]
  · intro j hj hsame
    rw [(hread hj).1, hsame, hresult]

/-- A file in memory. -/
def memoryFile (content : Bytes) : File where
  size := content.length
  content := content
  readAt offset n :=
    (content.sub offset n, if (content.sub offset n).length = n then none else some .eof)
  length_readAt offset n := content.sub_length_le offset n
  all_of_none offset n h := by
    by_contra hne
    rw [if_neg hne] at h
    cases h
  readAt_eq offset n := (content.sub_length offset n).symm
  reported offset n e h := by
    split at h
    · cases h
    · cases h
      exact reported_eof

theorem readFull_memoryFile {content : Bytes} {offset n : Nat} (h : offset + n ≤ content.length) :
    (memoryFile content).readFull offset n = .ok (content.sub offset n) := by
  have hlength : (content.sub offset n).length = n := by
    rw [Bytes.sub, List.length_take, List.length_drop]
    omega
  have hread : (memoryFile content).readAt offset n = (content.sub offset n, none) :=
    Prod.ext rfl (if_pos hlength)
  rw [File.readFull, hread]

/-- A CSO file of one stored block. -/
def storedCso : File :=
  memoryFile (cisoMagic ++ Bytes.ofNat 4 24 ++ Bytes.ofNat 8 2 ++ Bytes.ofNat 4 2 ++ [1, 0, 0, 0] ++
    Bytes.ofNat 4 0x80000020 ++ Bytes.ofNat 4 0x22 ++ [7, 8])

def openStored : Image :=
  ⟨storedCso, .cso, 2, storedCso.size, 2, 0, [0x80000020, 0x22], 0, none, 0, 0, [], []⟩

theorem openImage_stored : openImage none ".cso" storedCso = .ok openStored := by
  have hhdr : storedCso.readFull 0 24 = .ok (storedCso.content.take 24) := by decide +kernel
  have hparse : parseHeader (storedCso.content.take 24) = .ok ⟨.cso, 24, 2, 2, 0⟩ := by
    decide +kernel
  have hindex : readIndex storedCso 3 24 2 = .ok [0x80000020, 0x22] := by decide +kernel
  unfold openImage
  rw [if_neg (by decide), if_neg (by decide), hhdr]
  apply bind_eq_ok.mpr
  refine ⟨_, rfl, bind_eq_ok.mpr ⟨_, hparse, ?_⟩⟩
  dsimp only
  rw [if_neg (by decide +kernel), if_neg (by decide)]
  exact bind_eq_ok.mpr ⟨_, hindex, rfl⟩

theorem image_reads_stored :
    openStored.ReadsImage ⟨false, id, some⟩ (cacheByteBudget 0) (openStored.setCacheBlocks 32) 2 ∧
      (openStored.setCacheBlocks 32).Bounded (cacheByteBudget 0) :=
  image_reads 0 openImage_stored ⟨[.setCacheBlocks 32], rfl⟩ 2

/-! ## A block that a router cannot read -/

/-- The header and the index of a ZSO file of one block of 16 MiB, stored in 8421507 bytes. -/
def longFront : Bytes :=
  zisoMagic ++ Bytes.ofNat 4 24 ++ Bytes.ofNat 8 16777216 ++ Bytes.ofNat 4 16777216 ++ [1, 0, 0, 0] ++
    Bytes.ofNat 4 32 ++ Bytes.ofNat 4 8421539

def zsoOf (stored : Bytes) : File := memoryFile (longFront ++ stored)

def openZso (stored : Bytes) : Image :=
  ⟨zsoOf stored, .zso, 16777216, (zsoOf stored).size, 16777216, 0, [32, 8421539], 0, none, 0, 0, [], []⟩

theorem length_longFront : longFront.length = 32 := by decide +kernel

section

variable {stored : Bytes} (hstored : stored.length = 8421507)

include hstored

theorem size_zsoOf : (zsoOf stored).size = 8421539 := by
  change (longFront ++ stored).length = 8421539
  rw [List.length_append, length_longFront, hstored]

theorem readFull_zsoOf {offset n : Nat} (h : offset + n ≤ 32) :
    (zsoOf stored).readFull offset n = .ok (longFront.sub offset n) := by
  have hfront := length_longFront
  rw [zsoOf, readFull_memoryFile (by rw [List.length_append]; omega),
    Bytes.sub_append_left _ (by omega)]

theorem openImage_zsoOf : openImage none ".zso" (zsoOf stored) = .ok (openZso stored) := by
  have hparse : parseHeader (longFront.sub 0 24) = .ok ⟨.zso, 24, 16777216, 16777216, 0⟩ := by
    decide +kernel
  have hentries : (List.range 2).map (fun i => (longFront.sub 24 8).field (i * 4) 4) = [32, 8421539] := by
    decide +kernel
  have hindex : readIndex (zsoOf stored) 3 24 2 = .ok [32, 8421539] := by
    rw [← hentries, readIndex, if_neg (by decide)]
    dsimp only
    rw [readFull_zsoOf hstored (by decide)]
    rfl
  unfold openImage
  rw [if_neg (by decide), if_neg (by decide), readFull_zsoOf hstored (by decide)]
  apply bind_eq_ok.mpr
  refine ⟨_, rfl, bind_eq_ok.mpr ⟨_, hparse, ?_⟩⟩
  dsimp only
  rw [if_neg (by rw [size_zsoOf hstored]; decide +kernel), if_neg (by decide)]
  exact bind_eq_ok.mpr ⟨_, hindex, rfl⟩

theorem readRaw_zsoOf : (openZso stored).readRaw 32 8421539 = .ok stored := by
  have hslice : (longFront ++ stored).sub 32 (8421539 - 32) = stored := by
    rw [Bytes.sub_append_right _ _ (Nat.le_of_eq length_longFront), length_longFront]
    exact Bytes.sub_of_length hstored
  have hread : (openZso stored).file.readAt 32 (8421539 - 32) = (stored, none) := by
    refine Prod.ext hslice (if_pos ?_)
    rw [hslice, hstored]
  have hinside : ¬ (openZso stored).fileSize < 8421539 := by
    change ¬ (zsoOf stored).size < 8421539
    rw [size_zsoOf hstored]
    exact Nat.lt_irrefl _
  have hrange : ¬ (8421539 < 32 ∨ (openZso stored).blockSize * 2 + 4096 < 8421539 - 32) := by
    change ¬ (8421539 < 32 ∨ 16777216 * 2 + 4096 < 8421539 - 32)
    decide
  rw [Image.readRaw, if_neg hrange, if_neg hinside, hread]
  exact if_neg (not_not.mpr hstored)

/-- Where the decoder panics, so does a read. -/
theorem read_zsoOf (hpanic : Word.decodeLZ4Block Word.int32 stored 16777216 = .error .panic) :
    ((openZso stored).read ⟨false, id, some⟩ (cacheByteBudget 0) 1).1.2 = some .panic := by
  have hblock : (openZso stored).decodeBlock ⟨false, id, some⟩ 0 = .error .panic := by
    have hoffset : (32 % 0x80000000) <<< 0 = 32 ∧ (8421539 % 0x80000000) <<< 0 = 8421539 := by decide
    have hraw : (openZso stored).readRaw ((32 % 0x80000000) <<< (openZso stored).align)
        ((8421539 % 0x80000000) <<< (openZso stored).align) = .ok stored := by
      change (openZso stored).readRaw ((32 % 0x80000000) <<< 0) ((8421539 % 0x80000000) <<< 0) = _
      rw [hoffset.1, hoffset.2]
      exact readRaw_zsoOf hstored
    have hlength : 0 + 1 < (openZso stored).index.length := show 1 < 2 by decide
    have hexpected : (openZso stored).expected 0 = 16777216 := by
      have hsize : (openZso stored).size = 16777216 := rfl
      have hblockSize : (openZso stored).blockSize = 16777216 := rfl
      unfold Image.expected
      dsimp only
      rw [if_neg (by omega), hblockSize]
      rfl
    have hcompressed : ¬ decide (0x80000000 ≤ 32) = true := by decide
    have hformat : (openZso stored).format = .zso := rfl
    rw [decodeBlock_eq rfl hlength (a := 32) (b := 8421539) rfl rfl hraw, hexpected, Image.decodeRaw,
      if_neg hcompressed, if_pos hformat, Build.decodeLZ4Block, if_neg Bool.false_ne_true, hpanic]
    rfl
  have hread : (openZso stored).readBlock ⟨false, id, some⟩ (cacheByteBudget 0) 0 =
      (.error .panic, openZso stored) := by
    rw [Image.readBlock, hblock]
    rfl
  change ((openZso stored).readBlocks ⟨false, id, some⟩ (cacheByteBudget 0) 2 1 0 []).1.2 = _
  have hblocks : ¬ (openZso stored).blockSize = 0 := show ¬ 16777216 = 0 by decide
  rw [Image.readBlocks, if_neg (by decide), if_neg hblocks, Nat.zero_div, hread]

end

/-- An image that opens, and of which no byte can be read where an `int` has 32 bits. -/
theorem read_panics : openImage none ".zso" (zsoOf (Word.longBlock 8421505)) =
      .ok (openZso (Word.longBlock 8421505)) ∧
    ((openZso (Word.longBlock 8421505)).read ⟨false, id, some⟩ (cacheByteBudget 0) 1).1.2 =
      some .panic := by
  have hlength := Word.length_longBlock 8421505
  exact ⟨openImage_zsoOf hlength, read_zsoOf hlength
    (Word.longBlock_panics (by decide) (by decide) (by decide) (by decide))⟩

end Ps2Servers.Compression
