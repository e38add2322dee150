import Ps2Servers.Udpfs.WrapperReads
import Ps2Servers.Compression.SizeOf

/-!
# Core and Edge: compressed images

What a CSO or ZISO file is that holds some data: a header, a table with one offset more than
blocks, and the blocks, each as it is or compressed. Both servers open such a file, report
the length of the data and hand out slices of the data, whatever has been read before and
whatever their caches hold.

## Implementation notes

Which bytes are a compressed block of which data is a parameter, and so are the decompressors
of Core and what a build of Edge brings; Edge's LZ4 decoder is its own. Padding between the blocks
belongs to the stored bytes: of a block that is stored as it is, they may be longer.
-/

namespace Ps2Servers.Twins

variable {H : Type}

/-- The formats with a table. -/
inductive Kind
  | cso
  | ziso
  deriving DecidableEq, Repr

def Kind.magic : Kind → Bytes
  | cso => Compression.cisoMagic
  | ziso => Compression.zisoMagic

/-- An entry of the table: an offset, and a bit for a block that is stored as it is. -/
def entry (file : Bytes) (n : Nat) : Nat := file.field (24 + n * 4) 4

def blockOffset (file : Bytes) (align n : Nat) : Nat := (entry file n % 0x80000000) <<< align

/-- The bytes from a block's offset up to the next. -/
def storedBlock (file : Bytes) (align n : Nat) : Bytes :=
  file.sub (blockOffset file align n) (blockOffset file align (n + 1) - blockOffset file align n)

/-- The data of a block; the last may be shorter. -/
def piece (data : Bytes) (size n : Nat) : Bytes := data.sub (n * size) size

def blockTotal (data : Bytes) (size : Nat) : Nat := Udpfs.ceilDiv data.length size

/-- The file is an image of the data in blocks of a size. -/
structure Container (compressed : Bytes → Bytes → Prop) (kind : Kind) (file data : Bytes)
    (size align : Nat) : Prop where
  magic : file.take 4 = kind.magic
  headerSize : file.field 4 4 = 24
  dataSize : file.field 8 8 = data.length
  blockSize : file.field 16 4 = size
  alignment : file.field 21 1 = align
  size_pos : 0 < size
  size_le : size ≤ 16777216
  align_le : align ≤ 31
  total_le : blockTotal data size ≤ 268435456
  table : 24 + (blockTotal data size + 1) * 4 ≤ file.length
  ordered : ∀ n < blockTotal data size, blockOffset file align n ≤ blockOffset file align (n + 1)
  narrow : ∀ n < blockTotal data size,
    blockOffset file align (n + 1) - blockOffset file align n ≤ size * 2 + 4096
  inside : blockOffset file align (blockTotal data size) ≤ file.length
  blocks : ∀ n < blockTotal data size,
    if 0x80000000 ≤ entry file n then piece data size n <+: storedBlock file align n
    else compressed (storedBlock file align n) (piece data size n)

/-- The decompressors of both servers know the compressed blocks: as a DEFLATE stream, which may
have padding behind it, or as an LZ4 block, which may not, in a build whose `int` has 64 bits. -/
def Decodes (codecs : Udpfs.Codecs H) (build : Compression.Build)
    (compressed : Bytes → Bytes → Prop) (size : Nat) : Kind → Prop
  | .cso => ∀ raw data, compressed raw data →
      codecs.inflateRaw raw = some data ∧ build.flate raw = data
  | .ziso => (∀ raw data, compressed raw data → ∃ b : Lz4.Block, b.encode = raw ∧ b.expand = some data) ∧
      (∃ lz4, codecs.lz4 = some lz4 ∧
        ∀ raw data, compressed raw data → data.length ≤ size → lz4 raw size = some data) ∧
      build.wide = true

/-! ## Blocks of the data -/

section Pieces

variable {data : Bytes} {size n x : Nat}

theorem lt_blockTotal (hsize : 0 < size) (hx : x < data.length) :
    x / size < blockTotal data size := by
  unfold blockTotal Udpfs.ceilDiv
  rw [Nat.lt_div_iff_mul_lt hsize]
  have hsplit := Nat.div_mul_le_self x size
  omega

theorem mul_lt_of_lt_blockTotal (hsize : 0 < size) (hn : n < blockTotal data size) :
    n * size < data.length := by
  unfold blockTotal Udpfs.ceilDiv at hn
  have hmul := (Nat.le_div_iff_mul_le hsize).mp (Nat.succ_le_of_lt hn)
  rw [Nat.succ_mul] at hmul
  omega

theorem length_piece (data : Bytes) (size n : Nat) :
    (piece data size n).length = min size (data.length - n * size) := by
  unfold piece Bytes.sub
  rw [List.length_take, List.length_drop]

theorem piece_ne_nil (hsize : 0 < size) (hn : n < blockTotal data size) : piece data size n ≠ [] := by
  intro hnil
  have hlength := length_piece data size n
  have hlt := mul_lt_of_lt_blockTotal hsize hn
  rw [hnil, List.length_nil] at hlength
  omega

theorem length_piece_le (data : Bytes) (size n : Nat) : (piece data size n).length ≤ size :=
  data.sub_length_le _ _

/-- The byte at a position is one of its block. -/
theorem getElem?_piece (hsize : 0 < size) (x : Nat) :
    (piece data size (x / size))[x % size]? = data[x]? := by
  unfold piece
  rw [Bytes.getElem?_sub, if_pos (Nat.mod_lt x hsize), Nat.mul_comm, Nat.div_add_mod]

/-- Blocks that start with those of the data have its bytes. -/
theorem byteAt_of_piece (hsize : 0 < size) {block : Nat → Bytes}
    (hblock : ∀ n < blockTotal data size, piece data size n <+: block n) (hx : x < data.length) :
    Blocks.byteAt size block x = data[x]? := by
  obtain ⟨rest, hrest⟩ := hblock _ (lt_blockTotal hsize hx)
  have hlength := length_piece data size (x / size)
  have hsplit := Nat.div_add_mod' x size
  have hmod := Nat.mod_lt x hsize
  unfold Blocks.byteAt
  rw [← hrest, List.getElem?_append_left (by omega), getElem?_piece hsize x]

/-- Slices of such blocks are slices of the data. -/
theorem between_of_piece (hsize : 0 < size) {block : Nat → Bytes}
    (hblock : ∀ n < blockTotal data size, piece data size n <+: block n) {low high : Nat}
    (hhigh : high ≤ data.length) :
    Blocks.between size block low high = data.sub low (high - low) := by
  have hbyte : ∀ x, low ≤ x → x < high → (Blocks.byteAt size block x).isSome := by
    intro x _ hx
    rw [byteAt_of_piece hsize hblock (hx.trans_le hhigh)]
    simpa using hx.trans_le hhigh
  have hlength := Blocks.length_between_eq.mpr hbyte
  apply List.ext_getElem?
  intro i
  rw [Bytes.getElem?_sub]
  by_cases hi : i < high - low
  · rw [if_pos hi, Blocks.getElem?_between hbyte (by omega), byteAt_of_piece hsize hblock (by omega)]
  · rw [if_neg hi, List.getElem?_eq_none (by omega)]

end Pieces

/-! ## Core -/

section Core

open Udpfs Effects

variable {host : Host H} {codecs : Codecs H} {h : H} {inode : Inode} {file data : Bytes}
  {size align : Nat} {compressed : Bytes → Bytes → Prop}

/-- The host has the file, and every place of it can be sought. -/
structure HoldsFile (host : Host H) (h : H) (inode : Inode) (file : Bytes) : Prop where
  reads : ∀ offset size, host.readAt h inode offset size = .ok (file.sub offset size)
  seeks : file.length ≤ host.maxOffset h inode
  length_le : file.length ≤ MAX_OFFSET

theorem HoldsFile.readFrom (hf : HoldsFile host h inode file) {offset n : Nat}
    (hoffset : offset ≤ file.length) (hn : n ≤ MAX_OFFSET) :
    readFrom host h inode offset n = .ok (file.sub offset n) := by
  have hseeks := hf.seeks
  have hlength := hf.length_le
  unfold Udpfs.readFrom
  rw [if_neg (by omega), if_neg (by omega), if_neg (by omega), if_neg (by omega), if_neg (by omega),
    Int.toNat_natCast, hf.reads]
  rfl

theorem offsets_eq (n : Nat) (bytes : Bytes) :
    offsets n bytes = (List.range n).map fun i => bytes.field (i * 4) 4 := by
  induction n generalizing bytes with
  | zero => rfl
  | succ n ih =>
      rw [offsets, ih, List.range_succ_eq_map, List.map_cons, List.map_map]
      refine congrArg (List.cons _) (List.map_congr_left fun i _ => ?_)
      have hplace : 4 + i * 4 = (i + 1) * 4 := by omega
      unfold Bytes.field Bytes.sub
      rw [List.drop_drop, hplace]
      rfl

/-- The table of the file. -/
def table (file : Bytes) (count : Nat) : List Nat := (List.range count).map (entry file)

theorem table_sub {file : Bytes} {count : Nat} :
    (List.range count).map (fun i => (file.sub 24 (count * 4)).field (i * 4) 4) = table file count := by
  refine List.map_congr_left fun i hi => ?_
  have hlt := List.mem_range.mp hi
  exact Bytes.field_sub file (by omega)

theorem getElem?_table {file : Bytes} {count n : Nat} (hn : n < count) :
    (table file count)[n]? = some (entry file n) := by
  simp [table, hn]

theorem HoldsFile.readOffsets (hf : HoldsFile host h inode file) {count : Nat}
    (hcount : 24 + count * 4 ≤ file.length) :
    readOffsets host h inode 24 count = .ok (table file count) := by
  have hlength : ¬ (file.sub 24 (count * 4)).length < count * 4 := by
    rw [Bytes.length_sub file hcount]
    omega
  unfold Udpfs.readOffsets
  have hmax := hf.length_le
  rw [hf.readFrom (by omega) (by omega), ok_bind, if_neg hlength]
  rw [offsets_eq, table_sub]
  rfl

theorem Container.length_le {kind : Kind} (hc : Container compressed kind file data size align) :
    24 ≤ file.length := by
  have := hc.table
  omega

theorem Container.offset_le {kind : Kind} (hc : Container compressed kind file data size align) {n : Nat}
    (hn : n ≤ blockTotal data size) : blockOffset file align n ≤ file.length := by
  refine Nat.decreasingInduction (motive := fun n _ => blockOffset file align n ≤ file.length)
    (fun k hk ih => ?_) hc.inside hn
  exact (hc.ordered k hk).trans ih

/-- A block stands where the table says. -/
theorem Container.stored_end_le {kind : Kind} (hc : Container compressed kind file data size align) {n : Nat}
    (hn : n < blockTotal data size) : blockOffset file align n +
      (blockOffset file align (n + 1) - blockOffset file align n) ≤ file.length := by
  have hend := hc.offset_le (Nat.succ_le_of_lt hn)
  rw [Nat.add_sub_cancel' (hc.ordered n hn)]
  exact hend

/-- What the wrapper of an extension is made for. -/
def Kind.codec : Kind → Udpfs.Format
  | cso => .cso
  | ziso => .zso

/-- How the wrapper reads the blocks of the kind. -/
def Kind.layout (align : Nat) : Kind → Layout
  | cso => .cso align
  | ziso => .zso true align

/-- The wrapper of a file that has just been opened. -/
def wrapperOf (kind : Kind) (inode : Inode) (file data : Bytes) (size align : Nat) (cacheSize : Int) :
    Wrapper where
  inode := inode
  layout := kind.layout align
  pos := 0
  uncompressedSize := data.length
  blockSize := size
  numBlocks := blockTotal data size
  blockOffsets := table file (blockTotal data size + 1)
  cache := []
  cacheSize := cacheSize

theorem take_sub_zero (bytes : Bytes) {k n : Nat} (hk : k ≤ n) : (bytes.sub 0 n).take k = bytes.take k := by
  rw [Bytes.take_sub bytes 0 hk]
  rfl

/-- What the servers read at the start of the file. -/
theorem Container.header {kind : Kind} (hf : HoldsFile host h inode file)
    (hc : Container compressed kind file data size align) :
    readFrom host h inode 0 24 = .ok (file.sub 0 24) ∧ (file.sub 0 24).length = 24 ∧
      (file.sub 0 24).field 8 8 = data.length ∧ (file.sub 0 24).field 16 4 = size ∧
      (file.sub 0 24).field 21 1 = align := by
  refine ⟨hf.readFrom (n := 24) (Nat.zero_le _) (by decide),
    Bytes.length_sub file ((Nat.zero_add 24).trans_le hc.length_le), ?_, ?_, ?_⟩
  · rw [Bytes.field_sub file (by decide)]
    exact hc.dataSize
  · rw [Bytes.field_sub file (by decide)]
    exact hc.blockSize
  · rw [Bytes.field_sub file (by decide)]
    exact hc.alignment

theorem parseCso_container (hf : HoldsFile host h inode file)
    (hc : Container compressed .cso file data size align) (cacheSize : Int) :
    parseCso host h inode cacheSize = .ok (wrapperOf .cso inode file data size align cacheSize) := by
  obtain ⟨hread, hlength, hsize, hblock, halign⟩ := hc.header hf
  have hmagic : (file.sub 0 24).field 0 4 = CSO_MAGIC := by
    have htake := hc.magic
    rw [← take_sub_zero file (show 4 ≤ 24 by decide)] at htake
    unfold Bytes.field Bytes.sub
    unfold Bytes.sub at htake
    rw [List.drop_zero, htake]
    decide +kernel
  unfold parseCso
  rw [hread, ok_bind, if_neg (by omega)]
  dsimp only
  rw [if_neg (not_not.mpr hmagic), hblock, if_neg hc.size_pos.ne', hsize, halign]
  change (Udpfs.readOffsets host h inode 24 (blockTotal data size + 1) >>= _) = _
  rw [hf.readOffsets hc.table]
  rfl

theorem parseZso_container (hf : HoldsFile host h inode file)
    (hc : Container compressed .ziso file data size align) (cacheSize : Int) :
    parseZso host h inode cacheSize = .ok (wrapperOf .ziso inode file data size align cacheSize) := by
  obtain ⟨hread, hlength, hsize, hblock, halign⟩ := hc.header hf
  have hmagic : (file.sub 0 24).take 4 = ZISO_MAGIC := by
    rw [take_sub_zero file (by decide), hc.magic]
    rfl
  have hheader : (file.sub 0 24).field 4 4 = 24 := by
    rw [Bytes.field_sub file (by decide)]
    exact hc.headerSize
  unfold parseZso
  rw [hread, ok_bind, if_neg (by omega)]
  dsimp only
  rw [hmagic, hblock, hsize, halign, hheader]
  have hziso : (ZISO_MAGIC == ZISO_MAGIC) = true := beq_self_eq_true _
  rw [hziso, if_neg (by simp), if_neg hc.size_pos.ne', if_pos rfl, if_pos rfl]
  change (Udpfs.readOffsets host h inode 24 (blockTotal data size + 1) >>= _) = _
  rw [hf.readOffsets hc.table]
  rfl

/-- What is stored from an offset on starts with the block, also where more or less is read. -/
theorem prefix_of_stored {off n k : Nat} {bytes : Bytes} (h : bytes <+: file.sub off n)
    (hk : bytes.length ≤ k) : bytes <+: file.sub off k := by
  obtain ⟨rest, hrest⟩ := h
  have hdrop : bytes <+: file.drop off := by
    refine List.IsPrefix.trans ⟨rest, hrest⟩ ?_
    exact List.take_prefix _ _
  exact (List.prefix_take_iff.mpr ⟨hdrop, hk⟩)

/-- The wrapper reads the blocks of the file. -/
structure Serves (w : Wrapper) (kind : Kind) (inode : Inode) (file data : Bytes) (size align : Nat) : Prop where
  inode : w.inode = inode
  layout : w.layout = kind.layout align
  uncompressedSize : w.uncompressedSize = data.length
  blockSize : w.blockSize = size
  numBlocks : w.numBlocks = blockTotal data size
  blockOffsets : w.blockOffsets = table file (blockTotal data size + 1)

theorem Serves.offsetAt {w : Wrapper} {kind : Kind} (hw : Serves w kind inode file data size align) {n : Nat}
    (hn : n ≤ blockTotal data size) : offsetAt w n = .ok (entry file n) := by
  unfold Udpfs.offsetAt
  rw [hw.blockOffsets, getElem?_table (Nat.lt_succ_of_le hn)]
  rfl

variable {build : Compression.Build} {w : Wrapper} {n : Nat}

/-- What is stored of a block, as the server reads it. -/
theorem readFrom_stored {kind : Kind} (hf : HoldsFile host h inode file)
    (hc : Container compressed kind file data size align) (hn : n < blockTotal data size) :
    readFrom host h inode (entryOffset (entry file n) align)
      ((entryOffset (entry file (n + 1)) align : Int) - entryOffset (entry file n) align) =
        .ok (storedBlock file align n) := by
  have hoffset : ∀ k, entryOffset (entry file k) align = blockOffset file align k := fun _ => rfl
  have hend := hc.stored_end_le hn
  have hmax := hf.length_le
  rw [hoffset, hoffset, ← Int.natCast_sub (hc.ordered n hn)]
  exact hf.readFrom (hc.offset_le hn.le) (by omega)

theorem decompressCso_container (hw : Serves w .cso inode file data size align)
    (hf : HoldsFile host h inode file) (hc : Container compressed .cso file data size align)
    (hd : Decodes codecs build compressed size .cso) (hn : n < blockTotal data size) :
    ∃ out, decompressCso host codecs h w align n = .ok out ∧ piece data size n <+: out := by
  have hin : ¬ w.numBlocks ≤ n := by
    rw [hw.numBlocks]
    exact Nat.not_le.mpr hn
  have hblock := hc.blocks n hn
  unfold decompressCso
  rw [if_neg hin]
  dsimp only
  rw [hw.offsetAt hn.le, ok_bind, hw.offsetAt hn, ok_bind, hw.inode]
  by_cases hstored : 0x80000000 ≤ entry file n
  · rw [if_pos hstored] at hblock
    have hisStored : isStored (entry file n) = true := decide_eq_true hstored
    have hread : readFrom host h inode (entryOffset (entry file n) align) size =
        .ok (file.sub (blockOffset file align n) size) :=
      hf.readFrom (hc.offset_le hn.le) (hc.size_le.trans (by decide))
    rw [hisStored, if_pos rfl, hw.blockSize, hread, ok_bind, if_pos rfl]
    refine ⟨_, rfl, List.IsPrefix.trans ?_ (List.prefix_append _ _)⟩
    exact prefix_of_stored hblock (length_piece_le data size n)
  · rw [if_neg hstored] at hblock
    have hisStored : isStored (entry file n) = false := decide_eq_false hstored
    rw [hisStored, if_neg Bool.false_ne_true, readFrom_stored hf hc hn, ok_bind,
      if_neg Bool.false_ne_true, (hd _ _ hblock).1]
    exact ⟨_, rfl, List.prefix_append _ _⟩

theorem decompressZso_container (hw : Serves w .ziso inode file data size align)
    (hf : HoldsFile host h inode file) (hc : Container compressed .ziso file data size align)
    (hd : Decodes codecs build compressed size .ziso) (hn : n < blockTotal data size) :
    ∃ out, decompressZso host codecs h w true align n = .ok out ∧ piece data size n <+: out := by
  have hin : ¬ w.numBlocks ≤ n := by
    rw [hw.numBlocks]
    exact Nat.not_le.mpr hn
  have hblock := hc.blocks n hn
  obtain ⟨hblocks, ⟨lz4, hlz4, hdecodes⟩, -⟩ := hd
  unfold decompressZso
  rw [if_neg hin]
  dsimp only
  rw [hw.offsetAt hn.le, ok_bind, if_pos (Or.inl rfl), hw.offsetAt hn, ok_bind]
  change ∃ out, (readFrom host h w.inode _ _ >>= _) = _ ∧ _
  rw [hw.inode, readFrom_stored hf hc hn, ok_bind]
  by_cases hstored : 0x80000000 ≤ entry file n
  · rw [if_pos hstored] at hblock
    have hisStored : isStored (entry file n) = true := decide_eq_true hstored
    rw [hisStored, if_pos rfl]
    exact ⟨_, rfl, hblock⟩
  · rw [if_neg hstored] at hblock
    have hisStored : isStored (entry file n) = false := decide_eq_false hstored
    have hne : (storedBlock file align n).length ≠ 0 := by
      intro hzero
      obtain ⟨b, hencode, hexpand⟩ := hblocks _ _ hblock
      have hempty := Lz4.encode_eq_nil (hencode.trans (List.eq_nil_of_length_eq_zero hzero))
      subst hempty
      exact piece_ne_nil hc.size_pos hn (Option.some.inj hexpand).symm
    obtain ⟨fuel, hfuel⟩ := Nat.exists_eq_succ_of_ne_zero hne
    rw [hisStored, if_neg Bool.false_ne_true, hlz4, hfuel, hw.blockSize]
    dsimp only
    rw [lz4Retry, hdecodes _ _ hblock (length_piece_le data size n)]
    exact ⟨_, rfl, List.prefix_refl _⟩

/-- Every block of the data is decoded. -/
theorem fetch_container {kind : Kind} (hw : Serves w kind inode file data size align)
    (hf : HoldsFile host h inode file) (hc : Container compressed kind file data size align)
    (hd : Decodes codecs build compressed size kind) (hcache : 0 < w.cacheSize)
    (hn : n < blockTotal data size) :
    ∃ out, w.fetch host codecs h n = .ok out ∧ piece data size n <+: out := by
  have hdecompress : ∃ out, decompressBlock host codecs h w n = .ok out ∧ piece data size n <+: out := by
    unfold decompressBlock
    rw [hw.layout]
    cases kind with
    | cso => exact decompressCso_container hw hf hc hd hn
    | ziso => exact decompressZso_container hw hf hc hd hn
  obtain ⟨out, hout, hprefix⟩ := hdecompress
  exact ⟨out, fetch_of_limit hcache hout, hprefix⟩

/-- The wrapper that a path is opened as. -/
theorem openCompressed_container {kind : Kind} (hf : HoldsFile host h inode file)
    (hc : Container compressed kind file data size align)
    (hd : Decodes codecs build compressed size kind) {path : Str}
    (hopen : host.openRead h path = .ok inode)
    (hformat : formatForExtension host path = some kind.codec) (cacheSize : Int) :
    let limit := if cacheSize = 0 then DEFAULT_CACHE_SIZE else cacheSize
    let w := wrapperOf kind inode file data size align limit
    openCompressed host codecs h path cacheSize = .ok (some w) ∧ Opens host h inode cacheSize w := by
  intro limit w
  unfold openCompressed
  cases kind with
  | cso =>
      have hparse := parseCso_container hf hc limit
      rw [hformat, hopen]
      dsimp only
      rw [ok_bind]
      constructor
      · change some <$> parseCso host h inode limit = _
        rw [hparse]
        rfl
      · exact Or.inl hparse
  | ziso =>
      have hparse := parseZso_container hf hc limit
      obtain ⟨-, ⟨lz4, hlz4, -⟩, -⟩ := hd
      rw [hformat, hopen, hlz4]
      dsimp only
      rw [ok_bind]
      constructor
      · change some <$> parseZso host h inode limit = _
        rw [hparse]
        rfl
      · exact Or.inr hparse

theorem serves_wrapperOf (kind : Kind) (inode : Inode) (file data : Bytes) (size align : Nat)
    (cacheSize : Int) :
    Serves (wrapperOf kind inode file data size align cacheSize) kind inode file data size align :=
  ⟨rfl, rfl, rfl, rfl, rfl, rfl⟩

/-- A read of the open image, whatever was done with it before. -/
theorem read_container {kind : Kind} {w₀ : Wrapper} (hw : Serves w₀ kind inode file data size align)
    (hf : HoldsFile host h inode file) (hc : Container compressed kind file data size align)
    (hd : Decodes codecs build compressed size kind) (hcache : 0 < w₀.cacheSize)
    (ho : w₀.Opened host codecs h) (hafter : w₀.After host codecs h w) (n : Nat) :
    (w.read host codecs h n).1 = .ok (data.sub w.pos n) ∧
      (w.read host codecs h n).2.pos = w.pos + (data.sub w.pos n).length := by
  have hm := moved_of_after ho hafter
  obtain ⟨-, hout⟩ := read_outcome ho hm n
  have hprefix : ∀ k < blockTotal data size, piece data size k <+: w₀.blockBytes host codecs h k := by
    intro k hk
    obtain ⟨out, hfetch, hprefix⟩ := fetch_container hw hf hc hd hcache hk
    rw [Wrapper.blockBytes, hfetch]
    exact hprefix
  have hbytes : ∀ {low high : Nat}, high ≤ data.length →
      w₀.imageBytes host codecs h low high = data.sub low (high - low) := by
    intro low high hhigh
    unfold Wrapper.imageBytes
    rw [hw.blockSize]
    exact between_of_piece hc.size_pos hprefix hhigh
  have hlength : ∀ {low high : Nat}, low ≤ high → high ≤ data.length →
      (w₀.imageBytes host codecs h low high).length = high - low := by
    intro low high hlow hhigh
    rw [hbytes hhigh, Bytes.length_sub]
    omega
  rw [hw.uncompressedSize] at hout
  have hslice : data.sub w.pos (min n (data.length - w.pos)) = data.sub w.pos n := Bytes.sub_min _ _ _
  generalize (w.read host codecs h n).1 = r at hout
  generalize (w.read host codecs h n).2.pos = last at hout
  cases hout with
  | done _ hlow hhigh hcomes hall hleast =>
      rw [hw.uncompressedSize] at hhigh
      rw [List.nil_append, hlength hlow hhigh] at hall
      rw [List.nil_append, hbytes hhigh, hall, hslice]
      refine ⟨rfl, ?_⟩
      rw [← hslice, ← hall, ← hbytes hhigh, hlength hlow hhigh]
      omega
  | raised _ e hlow hhigh hcomes hless hfetch =>
      exfalso
      rw [hw.uncompressedSize] at hhigh
      rw [List.nil_append, hlength hlow hhigh] at hless
      have hin : last < data.length := by omega
      obtain ⟨out, hout, -⟩ := fetch_container hw hf hc hd hcache (lt_blockTotal hc.size_pos hin)
      rw [hw.blockSize, hout] at hfetch
      cases hfetch
  | endless hlow hcomes hless hshort =>
      exfalso
      rw [hw.uncompressedSize] at hlow hless
      rw [List.nil_append, hlength hlow (Nat.le_refl _)] at hless
      omega

end Core

/-! ## Edge -/

section Edge

open Compression Effects

variable {build : Build} {codecs : Udpfs.Codecs H} {f : File} {file data : Bytes}
  {size align : Nat} {compressed : Bytes → Bytes → Prop}

/-- The open file has the bytes, and what is there is read. -/
structure HasBytes (f : File) (file : Bytes) : Prop where
  size : f.size = file.length
  reads : ∀ offset n, offset + n ≤ file.length → f.readAt offset n = (file.sub offset n, none)

theorem HasBytes.readFull (hf : HasBytes f file) {offset n : Nat} (h : offset + n ≤ file.length) :
    f.readFull offset n = .ok (file.sub offset n) := by
  unfold File.readFull
  rw [hf.reads offset n h]

theorem HasBytes.readIndex (hf : HasBytes f file) {fuel offset count : Nat} (hfuel : count < fuel)
    (h : offset + count * 4 ≤ file.length) :
    readIndex f fuel offset count = .ok ((List.range count).map fun i => file.field (offset + i * 4) 4) := by
  induction fuel generalizing offset count with
  | zero => omega
  | succ fuel ih =>
      unfold Compression.readIndex
      split
      · rename_i hzero
        rw [hzero]
        rfl
      · rename_i hcount
        dsimp only
        generalize hn : min count 2048 = n
        obtain ⟨rest, rfl⟩ : ∃ rest, count = n + rest := Nat.exists_eq_add_of_le (by omega)
        have hfront : (List.range n).map (fun i => (file.sub offset (n * 4)).field (i * 4) 4) =
            (List.range n).map fun i => file.field (offset + i * 4) 4 := by
          refine List.map_congr_left fun i hi => ?_
          have hlt := List.mem_range.mp hi
          exact Bytes.field_sub file (by omega)
        have hback : (List.range rest).map (fun i => file.field (offset + n * 4 + i * 4) 4) =
            (List.range rest).map fun i => file.field (offset + (n + i) * 4) 4 := by
          refine List.map_congr_left fun i _ => ?_
          rw [Nat.add_mul, Nat.add_assoc]
        rw [hf.readFull (by omega), Nat.add_sub_cancel_left]
        dsimp only
        rw [ih (by omega) (by omega)]
        dsimp only
        rw [hfront, hback, List.range_add, List.map_append, List.map_map]
        rfl

/-- The format of the kind. -/
def Kind.format : Kind → Compression.Format
  | cso => .cso
  | ziso => .zso

/-- The image of a file that has just been opened. -/
def imageOf (kind : Kind) (f : File) (file data : Bytes) (size align : Nat) : Image where
  file := f
  format := kind.format
  size := data.length
  fileSize := f.size
  blockSize := size
  align := align
  index := table file (blockTotal data size + 1)
  pos := 0
  chd := none
  cacheLimit := 0
  cacheBytes := 0
  cache := []
  cacheOrder := []

theorem length_le_blockTotal (data : Bytes) (hsize : 0 < size) :
    data.length ≤ blockTotal data size * size := by
  by_contra hgt
  have hlt : blockTotal data size * size < data.length := Nat.not_le.mp hgt
  have hin := lt_blockTotal hsize hlt
  rw [Nat.mul_div_cancel _ hsize] at hin
  exact absurd hin (Nat.lt_irrefl _)

theorem parseHeader_container {kind : Kind} (hc : Container compressed kind file data size align) :
    parseHeader (file.sub 0 24) = .ok ⟨kind.format, 24, data.length, size, align⟩ := by
  have hlength : (file.sub 0 24).length = 24 :=
    Bytes.length_sub file ((Nat.zero_add 24).trans_le hc.length_le)
  have hfield : ∀ offset n, offset + n ≤ 24 → (file.sub 0 24).field offset n = file.field offset n := by
    intro offset n h
    rw [Bytes.field_sub file h, Nat.zero_add]
  have hmagic : (file.sub 0 24).take 4 = kind.magic := by
    rw [take_sub_zero file (by decide), hc.magic]
  have hne : zisoMagic ≠ cisoMagic := by decide +kernel
  have hformat : (if (file.sub 0 24).take 4 = cisoMagic then some Compression.Format.cso
      else if (file.sub 0 24).take 4 = zisoMagic ∨ (file.sub 0 24).take 4 = zsoMagic then
        some .zso else none) = some kind.format := by
    rw [hmagic]
    cases kind with
    | cso => exact if_pos rfl
    | ziso => exact (if_neg hne).trans (if_pos (Or.inl rfl))
  have hbound := (length_le_blockTotal data hc.size_pos).trans (Nat.mul_le_mul hc.total_le hc.size_le)
  have hsize := hc.size_pos
  have hle := hc.size_le
  have halign := hc.align_le
  unfold parseHeader
  rw [if_neg (by omega), hformat]
  dsimp only
  rw [hfield 4 4 (by decide), hfield 8 8 (by decide), hfield 16 4 (by decide), hfield 21 1 (by decide),
    hc.headerSize, hc.dataSize, hc.blockSize, hc.alignment, if_neg (by omega)]

theorem blockCount_container {kind : Kind} (hc : Container compressed kind file data size align) :
    blockCount ⟨kind.format, 24, data.length, size, align⟩ = blockTotal data size := by
  have hbound := (length_le_blockTotal data hc.size_pos).trans (Nat.mul_le_mul hc.total_le hc.size_le)
  have hsize := hc.size_pos
  have hle := hc.size_le
  have hsum : (data.length : Int) + size - 1 = ((data.length + size - 1 : Nat) : Int) := by omega
  unfold blockCount
  dsimp only
  rw [int64_of_lt (by omega) (by omega), hsum]
  exact Int.ofNat_tdiv _ _ |>.symm

theorem openImage_container {kind : Kind} (hf : HasBytes f file)
    (hc : Container compressed kind file data size align)
    (libchdr : Option (File → Option ChdFile)) {ext : String} (hext : Indexed ext) :
    openImage libchdr ext f = .ok (imageOf kind f file data size align) := by
  have hchd : ext ≠ ".chd" := by
    rcases hext with rfl | rfl | rfl | rfl
    all_goals decide
  have hindexed : ¬ (ext ≠ ".cso" ∧ ext ≠ ".ciso" ∧ ext ≠ ".zso" ∧ ext ≠ ".ziso") :=
    fun h => not_indexed_iff.mp h hext
  have htable := hc.table
  have htotal := hc.total_le
  have hfits : (24 + ((blockTotal data size : Int) + 1) % 0x10000000000000000 * 4) %
      0x10000000000000000 = 24 + ((blockTotal data size : Int) + 1) * 4 := by
    rw [Int.emod_eq_of_lt (show 0 ≤ (blockTotal data size : Int) + 1 by omega) (by omega),
      Int.emod_eq_of_lt (by omega) (by omega)]
  have hcount : ((blockTotal data size : Int) + 1).toNat = blockTotal data size + 1 := by omega
  unfold openImage
  rw [if_neg hchd, if_neg hindexed, hf.readFull hc.length_le, ok_bind, parseHeader_container hc, ok_bind]
  dsimp only
  have hgood : ¬ (268435456 < (blockTotal data size : Int) ∨ (file.length : Int) <
      (((24 : Nat) : Int) + ((blockTotal data size : Int) + 1) % 0x10000000000000000 * 4) %
        0x10000000000000000) := by
    rw [Nat.cast_ofNat, hfits]
    omega
  have hindex : Compression.readIndex f (blockTotal data size + 1 + 1) 24 (blockTotal data size + 1) =
      .ok (table file (blockTotal data size + 1)) := hf.readIndex (Nat.lt_succ_self _) htable
  rw [blockCount_container hc, hf.size, if_neg hgood, if_neg (by omega), hcount, hindex, ok_bind,
    ← hf.size]
  rfl

variable {kind : Kind} {n : Nat}

theorem expected_container (hc : Container compressed kind file data size align)
    (hn : n < blockTotal data size) :
    (imageOf kind f file data size align).expected n = ((piece data size n).length : Int) := by
  have hlt := mul_lt_of_lt_blockTotal hc.size_pos hn
  have hstart : (n : Int) * size = ((n * size : Nat) : Int) := by rw [Int.natCast_mul]
  unfold Image.expected imageOf
  dsimp only
  rw [length_piece, hstart]
  split <;> omega

theorem decodeRaw_container (hc : Container compressed kind file data size align)
    (hd : Decodes codecs build compressed size kind) (hn : n < blockTotal data size) :
    (imageOf kind f file data size align).decodeRaw build (decide (0x80000000 ≤ entry file n))
      (storedBlock file align n) (piece data size n).length = .ok (piece data size n) := by
  have hblock := hc.blocks n hn
  have hnat : ¬ ((piece data size n).length : Int) < 0 := Int.not_lt.mpr (Int.natCast_nonneg _)
  unfold Image.decodeRaw
  by_cases hstored : 0x80000000 ≤ entry file n
  · rw [if_pos hstored] at hblock
    have hlong : ¬ ((storedBlock file align n).length : Int) < (piece data size n).length :=
      Int.not_lt.mpr (Int.ofNat_le.mpr hblock.length_le)
    rw [if_pos (decide_eq_true hstored), if_neg hlong, if_neg hnat, Int.toNat_natCast,
      ← List.prefix_iff_eq_take.mp hblock]
  · rw [if_neg hstored] at hblock
    rw [if_neg (by simpa using hstored)]
    cases kind with
    | cso =>
        have hinflated : inflated (piece data size n) (piece data size n).length =
            some (piece data size n) := by
          unfold inflated
          rw [if_neg (Int.lt_irrefl _), Int.toNat_natCast, List.take_length]
        have hformat : ¬ (imageOf .cso f file data size align).format = .zso := by
          intro h
          cases h
        rw [if_neg hformat, if_neg hnat, (hd _ _ hblock).2, hinflated]
    | ziso =>
        obtain ⟨b, hencode, hexpand⟩ := hd.1 _ _ hblock
        have hformat : (imageOf .ziso f file data size align).format = .zso := rfl
        rw [if_pos hformat, Build.decodeLZ4Block, if_pos hd.2.2,
          decodeLZ4Block_ok.mpr ⟨b, hencode, hexpand, rfl⟩]
        rfl

theorem readRaw_eq {i : Image} {start stop : Nat} {raw : Bytes} (hle : start ≤ stop)
    (hwidth : stop - start ≤ i.blockSize * 2 + 4096) (hinside : stop ≤ i.fileSize)
    (hread : i.file.readAt start (stop - start) = (raw, none)) (hlength : raw.length = stop - start) :
    i.readRaw start stop = .ok raw := by
  have hrange : ¬ (stop < start ∨ i.blockSize * 2 + 4096 < stop - start) :=
    not_or.mpr ⟨Nat.not_lt.mpr hle, Nat.not_lt.mpr hwidth⟩
  unfold Image.readRaw
  rw [if_neg hrange, if_neg (Nat.not_lt.mpr hinside), hread]
  exact if_neg (not_not.mpr hlength)

/-- Every block of the data is decoded, and to nothing else. -/
theorem decodeBlock_container (hf : HasBytes f file)
    (hc : Container compressed kind file data size align)
    (hd : Decodes codecs build compressed size kind) (hn : n < blockTotal data size) :
    (imageOf kind f file data size align).decodeBlock build n = .ok (piece data size n) := by
  have hlength : (table file (blockTotal data size + 1)).length = blockTotal data size + 1 := by
    simp [table]
  have hend := hc.stored_end_le hn
  have hinside : blockOffset file align (n + 1) ≤ f.size := by
    rw [hf.size]
    exact hc.offset_le (Nat.succ_le_of_lt hn)
  have hstored : (storedBlock file align n).length =
      blockOffset file align (n + 1) - blockOffset file align n := Bytes.length_sub file hend
  have hraw : (imageOf kind f file data size align).readRaw (blockOffset file align n)
      (blockOffset file align (n + 1)) = .ok (storedBlock file align n) :=
    readRaw_eq (hc.ordered n hn) (hc.narrow n hn) hinside (hf.reads _ _ hend) hstored
  calc (imageOf kind f file data size align).decodeBlock build n
      = (imageOf kind f file data size align).decodeRaw build (0x80000000 ≤ entry file n)
          (storedBlock file align n) ((imageOf kind f file data size align).expected n) :=
        decodeBlock_eq rfl (hlength ▸ Nat.succ_lt_succ hn) (getElem?_table (Nat.lt_succ_of_lt hn))
          (getElem?_table (Nat.succ_lt_succ hn)) hraw
    _ = .ok (piece data size n) := by
        rw [expected_container hc hn]
        exact decodeRaw_container hc hd hn

/-- The loop of a read, by induction on what is left to read. -/
theorem uncached_container (hf : HasBytes f file)
    (hc : Container compressed kind file data size align)
    (hd : Decodes codecs build compressed size kind) {fuel len off : Nat} (hfuel : len < fuel)
    (hoff : off + len ≤ data.length) (total : Bytes) :
    (imageOf kind f file data size align).uncached build fuel len off total =
      (total ++ data.sub off len, none) := by
  induction fuel generalizing len off total with
  | zero => omega
  | succ fuel ih =>
      unfold Image.uncached
      split
      · rename_i hzero
        rw [hzero, Bytes.sub_zero, List.append_nil]
      rename_i hlen
      have hpos := hc.size_pos
      have hblockSize : (imageOf kind f file data size align).blockSize = size := rfl
      have hsplit := Nat.div_add_mod' off size
      have hmod := Nat.mod_lt off hpos
      have hin : off < data.length := by omega
      have hpiece := length_piece data size (off / size)
      rw [hblockSize, if_neg hpos.ne', decodeBlock_container hf hc hd (lt_blockTotal hpos hin)]
      dsimp only
      rw [if_neg (by omega)]
      generalize hm : min len (size - off % size) = m
      have hcopied : ((piece data size (off / size)).drop (off % size)).take len = data.sub off m := by
        change (piece data size (off / size)).sub (off % size) len = _
        apply List.ext_getElem?
        intro j
        rw [Bytes.getElem?_sub, Bytes.getElem?_sub, piece, Bytes.getElem?_sub]
        by_cases hj : j < m
        · rw [if_pos (by omega), if_pos (by omega), if_pos hj, ← Nat.add_assoc, hsplit]
        · rw [if_neg hj]
          by_cases hjlen : j < len
          · rw [if_pos hjlen, if_neg (by omega)]
          · rw [if_neg hjlen]
      have hlength : (data.sub off m).length = m := Bytes.length_sub data (by omega)
      rw [hcopied, hlength, ih (by omega) (by omega), List.append_assoc, Bytes.sub_append]
      congr 3
      omega

/-- A read of the open image, whatever was done with it before. -/
theorem imageRead_container (hf : HasBytes f file)
    (hc : Container compressed kind file data size align)
    (hd : Decodes codecs build compressed size kind)
    (libchdr : Option (File → Option ChdFile)) {ext : String} (hext : Indexed ext) (totalBytes : Int)
    {i : Image} (hi : (imageOf kind f file data size align).After build (cacheByteBudget totalBytes) i)
    (len : Nat) :
    (i.read build (cacheByteBudget totalBytes) len).1 =
        (if data.length ≤ i.pos then ([], some .eof) else (data.sub i.pos len, none)) ∧
      (i.read build (cacheByteBudget totalBytes) len).2.pos =
        i.pos + (data.sub i.pos len).length := by
  have ha := @accepted_openImage build libchdr ext f _ (openImage_container hf hc libchdr hext)
  obtain ⟨hcache, hsame⟩ := cacheOk_of_after ha (cacheByteBudget_nonneg totalBytes) hi
  obtain ⟨j, -, -, hpos, hread⟩ := read_eq hcache len
  have hout : i.readOf build len i.pos =
      if data.length ≤ i.pos then ([], some .eof) else (data.sub i.pos len, none) := by
    rw [← readOf_asOpened, hsame]
    unfold Image.readOf
    have hsize : (imageOf kind f file data size align).size = data.length := rfl
    rw [hsize]
    split
    · rfl
    · rename_i hin
      dsimp only
      have hformat : (imageOf kind f file data size align).format ≠ .plain := by
        cases kind <;> exact nofun
      rw [if_neg hformat, uncached_container hf hc hd (Nat.lt_succ_self _) (by omega), Bytes.sub_min]
      rfl
  rw [hout] at hpos hread
  rw [hread]
  refine ⟨rfl, hpos.trans ?_⟩
  split
  · rename_i hin
    rw [Bytes.sub, List.drop_eq_nil_of_le hin, List.take_nil]
  · rfl

end Edge

/-! ## Both -/

section Both

open Udpfs Compression Text

variable {host : Host H} {codecs : Codecs H} {h : H} {path : Str} {inode : Inode} {build : Build}
  {f : File} {ext : String} {file data : Bytes} {size align : Nat} {kind : Kind}
  {compressed : Bytes → Bytes → Prop}

/-- Core opens the path as an image of the data, and every read is a slice of the data, whatever was
done with the image before. -/
def CoreServes (host : Host H) (codecs : Codecs H) (h : H) (path : Str) (cacheSize : Int)
    (data : Bytes) : Prop :=
  ∃ w₀, openCompressed host codecs h path cacheSize = .ok (some w₀) ∧
    w₀.uncompressedSize = data.length ∧ w₀.pos = 0 ∧
    ∀ w, w₀.After host codecs h w → ∀ n,
      (w.read host codecs h n).1 = .ok (data.sub w.pos n) ∧
        (w.read host codecs h n).2.pos = w.pos + (data.sub w.pos n).length

/-- Edge opens the file as an image of the data, and every read is a slice of the data, whatever was
done with the image before; at the end of the data it says so. -/
def EdgeServes (build : Build) (libchdr : Option (File → Option ChdFile)) (ext : String)
    (f : File) (totalBytes : Int) (data : Bytes) : Prop :=
  ∃ i₀, openImage libchdr ext f = .ok i₀ ∧ i₀.size = data.length ∧ i₀.pos = 0 ∧
    ∀ i, i₀.After build (cacheByteBudget totalBytes) i → ∀ len,
      (i.read build (cacheByteBudget totalBytes) len).1 =
          (if data.length ≤ i.pos then ([], some .eof) else (data.sub i.pos len, none)) ∧
        (i.read build (cacheByteBudget totalBytes) len).2.pos =
          i.pos + (data.sub i.pos len).length

/-- Two blocks of a ZISO: one is stored as it is, and the other is compressed. -/
def twoBlocks : Bytes :=
  zisoMagic ++ Bytes.ofNat 4 24 ++ Bytes.ofNat 8 7 ++ Bytes.ofNat 4 4 ++ [1, 0, 0, 0] ++
    [0x80000024, 40, 44].flatMap (Bytes.ofNat 4) ++ [1, 2, 3, 4] ++ [0x30, 5, 6, 7]

/-- The second block, and what it expands to. -/
def literals : Bytes → Bytes → Prop := fun raw data => raw = [0x30, 5, 6, 7] ∧ data = [5, 6, 7]

/-- Codecs that know the second block. -/
def literalCodecs : Codecs Disk :=
  ⟨fun _ => none, fun _ => none, some fun raw _ => if raw = [0x30, 5, 6, 7] then some [5, 6, 7] else none,
    none⟩

def twoBlocksDisk : Disk := ⟨[([lit "a.ziso"], .file 5)], [(5, twoBlocks)]⟩

theorem twoBlocks_container :
    Container literals .ziso twoBlocks [1, 2, 3, 4, 5, 6, 7] 4 0 where
  magic := by decide +kernel
  headerSize := by decide +kernel
  dataSize := by decide +kernel
  blockSize := by decide +kernel
  alignment := by decide +kernel
  size_pos := by decide
  size_le := by decide
  align_le := by decide
  total_le := by decide
  table := by decide +kernel
  ordered := by decide +kernel
  narrow := by decide +kernel
  inside := by decide +kernel
  blocks := by
    unfold literals
    decide +kernel

theorem twoBlocks_decodes {build : Build} (hwide : build.wide = true) :
    Decodes literalCodecs build literals 4 .ziso := by
  refine ⟨?_, ?_, hwide⟩
  · rintro raw data ⟨rfl, rfl⟩
    exact ⟨⟨[], some ⟨[5, 6, 7], 0⟩⟩, by decide +kernel, rfl⟩
  · refine ⟨_, rfl, ?_⟩
    rintro raw data ⟨rfl, rfl⟩ -
    rfl

theorem twoBlocks_held : HoldsFile diskHost twoBlocksDisk 5 twoBlocks :=
  ⟨fun _ _ => rfl, by decide +kernel, by decide +kernel⟩

theorem hasBytes_memoryFile (content : Bytes) : HasBytes (memoryFile content) content where
  size := rfl
  reads offset n h := by
    have hlength : (content.sub offset n).length = n := Bytes.length_sub content h
    exact congrArg (Prod.mk _) (if_pos hlength)

end Both

end Ps2Servers.Twins
