import Ps2Servers.Udpfs.Host

/-!
# Compressed images

`compressed_iso`: the CSO, ZSO and CHD wrappers that the server serves an image
through, block by block and with a cache, and the header probe that lists them.

## Implementation notes

zlib, lz4 and libchdr are parameters: they return bytes or fail, and the wrapper
raises. The wrappers are opened without the strict limits, which only the image
inspection uses. A read that goes on for ever raises `noReturn`: each round that moves
the position moves it towards the end of the image, so a read that needs more rounds
than there are bytes left is one that no longer moves.
-/

namespace Ps2Servers.Udpfs

open Text

/-- The decompressors. -/
structure Codecs (H : Type) where
  /-- `zlib.decompressobj(-zlib.MAX_WBITS).decompress`. -/
  inflateRaw : Bytes → Option Bytes
  /-- `zlib.decompress`. -/
  inflate : Bytes → Option Bytes
  /-- `lz4.block.decompress`, if the package is there. -/
  lz4 : Option (Bytes → Nat → Option Bytes)
  /-- `chd_open` and `chd_read` of libchdr, if it is there. -/
  libchdr : Option ((H → Bytes → Option Nat) × (H → Nat → Nat → Option Bytes))

inductive Format
  | zso
  | cso
  | chd
  deriving DecidableEq, Repr

/-- `_EXTENSION_FORMATS`. -/
def EXTENSION_FORMATS : List (Str × Format) :=
  [(lit ".zso", .zso), (lit ".ziso", .zso), (lit ".cso", .cso), (lit ".ciso", .cso),
    (lit ".chd", .chd)]

section Extensions

variable {H : Type} (host : Host H) (codecs : Codecs H)

/-- `_format_for_extension`. -/
def formatForExtension (path : Str) : Option Format := EXTENSION_FORMATS.lookup (extension host path)

def available : Format → Bool
  | .zso => codecs.lz4.isSome
  | .cso => true
  | .chd => codecs.libchdr.isSome

def COMPRESSED_EXTENSIONS : List Str :=
  (EXTENSION_FORMATS.filter fun e => available codecs e.2).map Prod.fst

end Extensions

/-! ## Headers -/

/-- A big-endian field. -/
def bigEndian (bytes : Bytes) (offset size : Nat) : Nat := Bytes.le (bytes.sub offset size).reverse

def ZSO_MAGIC : Bytes := "ZSO\x00".toUTF8.toList

def ZISO_MAGIC : Bytes := "ZISO".toUTF8.toList

def CSO_MAGIC : Nat := 0x4F534943

def CHD_MAGIC : Bytes := "MComprHD".toUTF8.toList

/-- `_CD_CODECS`: cdlz, cdzl and cdfl. -/
def CD_CODECS : List Nat := [0x63646c7a, 0x63647a6c, 0x6364666c]

def CD_FRAME_SIZE : Nat := 2448

def USER_DATA : Nat := 2048

/-- `(a + b - 1) // b`. -/
def ceilDiv (a b : Nat) : Nat := (a + b - 1) / b

/-- A CD unit size or a CD codec, and hunks of whole frames. -/
def isCdFormat (header : Bytes) : Bool :=
  let compressors := [16, 20, 24, 28].map fun at_ => bigEndian header at_ 4
  (bigEndian header 60 4 = CD_FRAME_SIZE || compressors.any CD_CODECS.contains) &&
    bigEndian header 56 4 % CD_FRAME_SIZE = 0

/-- The size of the image behind a CHD header. -/
def chdSize (header : Bytes) : Nat :=
  let logical := bigEndian header 32 8
  let hunk := bigEndian header 56 4
  if 0 < hunk ∧ isCdFormat header then
    ceilDiv logical hunk * (hunk / CD_FRAME_SIZE) * USER_DATA
  else logical

def orRaise {α : Type} (e : Exn) : Option α → Except Exn α
  | some a => .ok a
  | none => .error e

/-- How a wrapper reads its blocks. -/
inductive Layout
  | cso (align : Nat)
  /-- Both ZSO layouts; ZISO has an alignment and one offset more than blocks. -/
  | zso (ziso : Bool) (align : Nat)
  | chd (handle hunkSize : Nat) (cd : Bool)
  deriving DecidableEq, Repr

/-- `CompressedFileWrapper`. The cache has its least recently used block first. -/
structure Wrapper where
  inode : Inode
  layout : Layout
  pos : Nat
  uncompressedSize : Nat
  blockSize : Nat
  numBlocks : Nat
  blockOffsets : List Nat
  cache : List (Nat × Bytes)
  cacheSize : Int
  deriving DecidableEq, Repr

section

variable {H : Type} (host : Host H) (codecs : Codecs H) (h : H)

/-- `struct.unpack("<nI", data)`. -/
def offsets : Nat → Bytes → List Nat
  | 0, _ => []
  | n + 1, data => data.field 0 4 :: offsets n (data.drop 4)

/-- The offset table of a CSO or ZSO file. -/
def readOffsets (inode : Inode) (at_ count : Nat) : Except Exn (List Nat) := do
  let data ← readFrom host h inode at_ (count * 4 : Nat)
  if data.length < count * 4 then throw .valueError
  return offsets count data

def parseCso (inode : Inode) (cacheSize : Int) : Except Exn Wrapper := do
  let header ← readFrom host h inode 0 24
  if header.length < 24 then throw .valueError
  if header.field 0 4 ≠ CSO_MAGIC then throw .valueError
  let size := header.field 8 8
  let blockSize := header.field 16 4
  if blockSize = 0 then throw .valueError
  let numBlocks := ceilDiv size blockSize
  let blockOffsets ← readOffsets host h inode 24 (numBlocks + 1)
  return ⟨inode, .cso (header.field 21 1), 0, size, blockSize, numBlocks, blockOffsets, [], cacheSize⟩

def parseZso (inode : Inode) (cacheSize : Int) : Except Exn Wrapper := do
  let header ← readFrom host h inode 0 24
  if header.length < 24 then throw .valueError
  let ziso := header.take 4 == ZISO_MAGIC
  if !ziso && header.take 4 ≠ ZSO_MAGIC then throw .valueError
  let size := header.field 8 8
  let blockSize := header.field 16 4
  if blockSize = 0 then throw .valueError
  let align := if ziso then header.field 21 1 else 0
  let numBlocks := ceilDiv size blockSize
  let count := if ziso then numBlocks + 1 else numBlocks
  let blockOffsets ← readOffsets host h inode (header.field 4 4) count
  return ⟨inode, .zso ziso align, 0, size, blockSize, numBlocks, blockOffsets, [], cacheSize⟩

def parseChd (chdOpen : H → Bytes → Option Nat) (path : Str) (inode : Inode) (cacheSize : Int) :
    Except Exn Wrapper := do
  let header ← readFrom host h inode 0 124
  if header.length < 64 ∨ header.take 8 ≠ CHD_MAGIC then throw .valueError
  if bigEndian header 12 4 ≠ 5 then throw .valueError
  let hunk := bigEndian header 56 4
  if hunk = 0 then throw .valueError
  let cd := isCdFormat header
  let blockSize := if cd then hunk / CD_FRAME_SIZE * USER_DATA else hunk
  -- The name is encoded strictly, and an error of libchdr carries no errno.
  let name ← orRaise .valueError (encode path)
  let handle ← orRaise (.osError none) (chdOpen h name)
  return ⟨inode, .chd handle hunk cd, 0, chdSize header, blockSize,
    ceilDiv (bigEndian header 32 8) hunk, [], [], cacheSize⟩

def DEFAULT_CACHE_SIZE : Int := 32

/-- `open_compressed`. -/
def openCompressed (path : Str) (cacheSize : Int) : Except Exn (Option Wrapper) := do
  let cacheSize := if cacheSize = 0 then DEFAULT_CACHE_SIZE else cacheSize
  let file : Except Exn Inode :=
    match host.openRead h path with
    | .ok inode => .ok inode
    | .error errno => .error (.osError (some errno))
  match formatForExtension host path, codecs.lz4, codecs.libchdr with
  | some .cso, _, _ => some <$> parseCso host h (← file) cacheSize
  | some .zso, some _, _ => some <$> parseZso host h (← file) cacheSize
  | some .chd, _, some (chdOpen, _) => some <$> parseChd host h chdOpen path (← file) cacheSize
  | _, _, _ => return none

/-- `get_compressed_info`: the uncompressed size. -/
def getCompressedInfo (path : Str) : Option Nat :=
  let start : Nat → Option Bytes := fun size =>
    match host.openRead h path with
    | .error _ => none
    | .ok inode =>
        match host.readAt h inode 0 size with
        | .error _ => none
        | .ok header => if header.length < size then none else some header
  match formatForExtension host path with
  | some .chd => do
      let header ← start 64
      guard (header.take 8 = CHD_MAGIC ∧ bigEndian header 12 4 = 5)
      return chdSize header
  | some .zso => do
      let header ← start 24
      guard (header.take 4 = ZSO_MAGIC ∨ header.take 4 = ZISO_MAGIC)
      return header.field 8 8
  | some .cso => do
      let header ← start 24
      guard (header.field 0 4 = CSO_MAGIC)
      return header.field 8 8
  | none => none

/-! ## Blocks -/

/-- The offset in an entry of the table, and whether its block is stored as it is. -/
def entryOffset (raw align : Nat) : Nat := (raw % 0x80000000) <<< align

def isStored (raw : Nat) : Bool := 0x80000000 ≤ raw

def offsetAt (w : Wrapper) (i : Nat) : Except Exn Nat := orRaise .indexError w.blockOffsets[i]?

/-- `CsoFileWrapper._decompress_block`. -/
def decompressCso (w : Wrapper) (align block : Nat) : Except Exn Bytes := do
  if w.numBlocks ≤ block then throw .valueError
  let raw ← offsetAt w block
  let next ← offsetAt w (block + 1)
  let offset := entryOffset raw align
  let size : Int := if isStored raw then w.blockSize else (entryOffset next align : Int) - offset
  let data ← readFrom host h w.inode offset size
  let decompressed ←
    if isStored raw then pure data
    else orRaise .valueError ((codecs.inflateRaw data).orElse fun _ => codecs.inflate data)
  return decompressed ++ List.replicate (w.blockSize - decompressed.length) 0

/-- The bytes are tried without their last one until they decompress. -/
def lz4Retry (lz4 : Bytes → Nat → Option Bytes) (blockSize : Nat) : Nat → Bytes → Except Exn Bytes
  | 0, _ => .error .valueError
  | fuel + 1, data =>
      match lz4 data blockSize with
      | some decompressed => .ok decompressed
      | none => lz4Retry lz4 blockSize fuel data.dropLast

/-- `ZsoFileWrapper._decompress_block`. -/
def decompressZso (w : Wrapper) (ziso : Bool) (align block : Nat) : Except Exn Bytes := do
  if w.numBlocks ≤ block then throw .valueError
  let raw ← offsetAt w block
  let offset := entryOffset raw align
  let next ←
    if ziso ∨ block + 1 < w.numBlocks then do
      pure (entryOffset (← offsetAt w (block + 1)) align)
    else pure (host.fileEnd h w.inode)
  let data ← readFrom host h w.inode offset ((next : Int) - offset)
  if isStored raw then return data
  match codecs.lz4 with
  | none => throw .importError
  | some lz4 => lz4Retry lz4 w.blockSize data.length data

def CD_SYNC : Bytes := 0x00 :: List.replicate 10 0xff ++ [0x00]

/-- `bytes.ljust(size, b"\0")`. -/
def ljust (size : Nat) (bytes : Bytes) : Bytes := bytes ++ List.replicate (size - bytes.length) 0

/-- `_extract_user_data`. -/
def extractUserData (sector : Bytes) : Bytes :=
  if sector.length < USER_DATA then ljust USER_DATA sector
  else
    let offset := if sector.take 12 = CD_SYNC then if sector.field 15 1 = 2 then 24 else 16 else 0
    ljust USER_DATA (sector.sub offset USER_DATA)

/-- `ChdFileWrapper._decompress_block`. libchdr fills a buffer of one hunk. -/
def decompressChd (handle hunkSize : Nat) (cd : Bool) (block : Nat) : Except Exn Bytes :=
  match codecs.libchdr with
  | none => .error .importError
  | some (_, chdRead) =>
      match chdRead h handle (block % 0x100000000) with
      | none => .error (.osError none)
      | some hunk =>
          let raw := ljust hunkSize (hunk.take hunkSize)
          if cd then
            .ok ((List.range (hunkSize / CD_FRAME_SIZE)).flatMap fun i =>
              extractUserData (raw.sub (i * CD_FRAME_SIZE) 2352))
          else .ok raw

def decompressBlock (w : Wrapper) (block : Nat) : Except Exn Bytes :=
  match w.layout with
  | .cso align => decompressCso host codecs h w align block
  | .zso ziso align => decompressZso host codecs h w ziso align block
  | .chd handle hunkSize cd => decompressChd codecs h handle hunkSize cd block

/-- `_get_block`. -/
def getBlock (w : Wrapper) (block : Nat) : Except Exn Bytes × Wrapper :=
  match w.cache.lookup block with
  | some data =>
      (.ok data, { w with cache := w.cache.filter (fun e => e.1 != block) ++ [(block, data)] })
  | none =>
      match decompressBlock host codecs h w block with
      | .error e => (.error e, w)
      | .ok data =>
          -- Without a positive limit the cache is emptied, and then there is nothing to drop.
          if w.cacheSize ≤ 0 then (.error .keyError, { w with cache := [] })
          else
            let kept := w.cache.drop (w.cache.length + 1 - w.cacheSize.toNat)
            (.ok data, { w with cache := kept ++ [(block, data)] })

/-- How much of a block one round of a read takes. -/
def Wrapper.readSize (w : Wrapper) (remaining : Nat) : Nat :=
  let offset := w.pos % w.blockSize
  if w.pos / w.blockSize + 1 = w.numBlocks then
    let last := w.uncompressedSize % w.blockSize
    min remaining ((if last = 0 then w.blockSize else last) - offset)
  else min remaining (w.blockSize - offset)

/-- The loop of `read`, with the bytes it has so far. -/
def readLoop (size : Nat) : Nat → Wrapper → Bytes → Except Exn Bytes × Wrapper
  | 0, w, _ => (.error .noReturn, w)
  | fuel + 1, w, result =>
      if size ≤ result.length then (.ok result, w)
      else
        let taken := w.readSize (size - result.length)
        match getBlock host codecs h w (w.pos / w.blockSize) with
        | (.error e, w') => (.error e, w')
        | (.ok data, w') =>
            readLoop size fuel { w' with pos := w.pos + taken }
              (result ++ data.sub (w.pos % w.blockSize) taken)

/-- `CompressedFileWrapper.read`. -/
def Wrapper.read (w : Wrapper) (size : Nat) : Except Exn Bytes × Wrapper :=
  if size = 0 ∨ w.uncompressedSize ≤ w.pos then (.ok [], w)
  else
    let size := min size (w.uncompressedSize - w.pos)
    readLoop host codecs h size (w.uncompressedSize - w.pos + 2) w []

/-- `CompressedFileWrapper.seek`. -/
def Wrapper.seek (w : Wrapper) (offset : Int) (whence : Nat) : Nat × Wrapper :=
  let target : Int :=
    match whence with
    | 0 => offset
    | 1 => w.pos + offset
    | 2 => w.uncompressedSize + offset
    | _ => w.pos
  let position := (max 0 (min target w.uncompressedSize)).toNat
  (position, { w with pos := position })

end

end Ps2Servers.Udpfs
