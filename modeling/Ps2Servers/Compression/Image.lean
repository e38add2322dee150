import Ps2Servers.Compression.Lz4Word
import Ps2Servers.Edge.Blocks

/-!
# Compressed images of the Go server

CSO, ZSO and CHD images behind `Seek` and `Read`, with a cache of decoded blocks that is bounded by
their number and by their bytes.

## Implementation notes

The file, the inflaters and libchdr are parameters; a file does not change while it is open, and it
is read by positional reads. Numbers that the source keeps in an `int64` are natural where they
cannot be negative. An `int` has 32 or 64 bits, as the build has it. With 64, the lengths in a block
that was read into memory add up to no more than an `int` holds, and the decoder is that with unbounded
integers. `panic` stands for an index out of range or a negative length, and `noReturn` for a read that
goes on for ever.
-/

namespace Ps2Servers.Compression

open Edge.Blocks (int64 transferCap)

inductive ReadError
  | eof
  | unexpectedEOF
  | failed (message : String)
  /-- What the operating system reports. -/
  | host (code : Nat)
  | panic
  | noReturn
  deriving DecidableEq, Repr

/-- The errors that a caller is told. -/
def ReadError.Reported (e : ReadError) : Prop := e ≠ .panic ∧ e ≠ .noReturn

/-- A file that is open for reading. -/
structure File where
  size : Nat
  content : Bytes
  /-- `ReadAt` of so many bytes: those that came, and an error if not all did. -/
  readAt : Nat → Nat → Bytes × Option ReadError
  length_readAt (offset n : Nat) : (readAt offset n).1.length ≤ n
  all_of_none (offset n : Nat) : (readAt offset n).2 = none → (readAt offset n).1.length = n
  readAt_eq (offset n : Nat) :
    (readAt offset n).1 = content.sub offset (readAt offset n).1.length
  reported (offset n : Nat) (e : ReadError) : (readAt offset n).2 = some e → e.Reported

/-- `io.ReadFull` at a position. -/
def File.readFull (f : File) (offset n : Nat) : Except ReadError Bytes :=
  match f.readAt offset n with
  | (data, none) => .ok data
  | ([], some e) => .error e
  | (_, some .eof) => .error .unexpectedEOF
  | (_, some e) => .error e

/-- What a build brings: whether its `int` has 64 bits, and the streams of `compress/flate` and
`compress/zlib`, the bytes up to their end or an error. The second may already fail at its header. -/
structure Build where
  wide : Bool
  flate : Bytes → Bytes
  zlib : Bytes → Option Bytes

/-- A file that libchdr has open; a read fills a whole hunk. -/
structure ChdFile where
  hunkBytes : Nat
  read : Nat → Option Bytes
  length_read (hunk : Nat) (data : Bytes) : read hunk = some data → data.length = hunkBytes

/-! ## CHD -/

def maxCHDHunkBytes : Nat := 16777216

structure ChdHeader where
  isCD : Bool
  blocks : Nat
  framesPerHunk : Nat
  hunkSize : Nat
  blockSize : Nat
  size : Nat
  deriving DecidableEq, Repr

def chdMagic : Bytes := "MComprHD".toUTF8.toList

def chdCDCodecs : List Nat := [0x63646c7a, 0x63647a6c, 0x6364666c]

/-- The part of `parseCHDHeader` behind the fields it reads. -/
def chdGeometry (logical hunk : Nat) (isCD : Bool) : Except ReadError ChdHeader :=
  let blocks := if logical % hunk ≠ 0 then logical / hunk + 1 else logical / hunk
  let framesPerHunk := hunk / 2448
  if hunk = 0 ∨ maxCHDHunkBytes < hunk then .error (.failed "invalid CHD hunk size")
  else if 0x7fffffffffffffff < logical then .error (.failed "CHD logical size overflows int64")
  else if 0xffffffff < blocks then .error (.failed "CHD has too many hunks")
  else if !isCD then .ok ⟨false, blocks, 0, hunk, hunk, logical⟩
  else if hunk % 2448 ≠ 0 then .error (.failed "CD CHD hunk size is not frame-aligned")
  else if 0 < blocks ∧ 0x7fffffffffffffff / 2048 / blocks < framesPerHunk then
    .error (.failed "CD CHD output size overflows int64")
  else .ok ⟨true, blocks, framesPerHunk, hunk, framesPerHunk * 2048, blocks * framesPerHunk * 2048⟩

def parseCHDHeader (f : File) : Except ReadError ChdHeader :=
  match f.readFull 0 124 with
  | .error e => .error e
  | .ok raw =>
      if raw.take 8 ≠ chdMagic then .error (.failed "not a valid CHD file")
      else if raw.fieldBE 12 4 ≠ 5 then .error (.failed "unsupported CHD version")
      else if raw.fieldBE 8 4 ≠ 124 then .error (.failed "invalid CHDv5 header size")
      else
        chdGeometry (raw.fieldBE 32 8) (raw.fieldBE 56 4) (raw.fieldBE 60 4 = 2448 ||
          [16, 20, 24, 28].any fun offset => chdCDCodecs.contains (raw.fieldBE offset 4))

/-- `copy` into a fresh buffer of 2048 bytes. -/
def userData (data : Bytes) : Bytes := data.take 2048 ++ List.replicate (2048 - data.length) 0

def chdSync : Bytes := [0x00, 0xff, 0xff, 0xff, 0xff, 0xff, 0xff, 0xff, 0xff, 0xff, 0xff, 0x00]

def chdExtractUserData (sector : Bytes) : Bytes :=
  if sector.length < 2048 then userData sector
  else
    let offset := if sector.take 12 = chdSync then if sector.field 15 1 = 2 then 24 else 16 else 0
    userData (sector.drop offset)

/-- The `readBlock` of a CHD image. -/
def chdReadBlock (h : ChdHeader) (chd : ChdFile) (block : Nat) : Except ReadError Bytes :=
  if h.blocks ≤ block then .error .eof
  else
    match chd.read block with
    | none => .error (.failed "chd_read failed")
    | some hunkBuffer =>
        if !h.isCD then .ok hunkBuffer
        else if hunkBuffer.length < h.framesPerHunk * 2448 then .error .panic
        else .ok ((List.range h.framesPerHunk).flatMap fun frame =>
          chdExtractUserData (hunkBuffer.sub (frame * 2448) 2352))

/-! ## Images -/

inductive Format
  | plain
  | cso
  | zso
  | chd
  deriving DecidableEq, Repr

/-- `Image`. The map of the cache is a list of its entries. -/
structure Image where
  file : File
  format : Format
  size : Nat
  fileSize : Nat
  blockSize : Nat
  align : Nat
  index : List Nat
  pos : Nat
  chd : Option (Nat → Except ReadError Bytes)
  cacheLimit : Int
  cacheBytes : Int
  cache : List (Nat × Bytes)
  cacheOrder : List Nat

def MaxCacheBlocks : Int := 4096

def preferredCacheBytes : Int := 8388608

/-- `cacheByteBudget`, of the total that `memory.Detect` finds. -/
def cacheByteBudget (totalBytes : Int) : Int := transferCap totalBytes preferredCacheBytes

def Image.setCacheBlocks (i : Image) (n : Int) : Image :=
  let n := if n < 0 then 0 else n
  let n := if MaxCacheBlocks < n then MaxCacheBlocks else n
  { i with cacheLimit := n, cache := [], cacheOrder := [], cacheBytes := 0 }

/-- The loop of `cacheStore` that makes room for `length` bytes. -/
def evict (budget limit : Int) (length : Nat) :
    List Nat → Int → List (Nat × Bytes) → List Nat × Int × List (Nat × Bytes)
  | [], cacheBytes, cache => ([], cacheBytes, cache)
  | oldest :: cacheOrder, cacheBytes, cache =>
      if limit ≤ ((oldest :: cacheOrder).length : Int) ∨ budget < cacheBytes + length then
        match cache.lookup oldest with
        | some evicted =>
            evict budget limit length cacheOrder (cacheBytes - evicted.length)
              (cache.filter fun e => e.1 != oldest)
        | none => evict budget limit length cacheOrder cacheBytes cache
      else (oldest :: cacheOrder, cacheBytes, cache)

def Image.cacheStore (budget : Int) (i : Image) (n : Nat) (block : Bytes) : Image :=
  if i.cacheLimit ≤ 0 then i
  else if budget < block.length then i
  else
    match i.cache.lookup n with
    | some _ => i
    | none =>
        match evict budget i.cacheLimit block.length i.cacheOrder i.cacheBytes i.cache with
        | (cacheOrder, cacheBytes, cache) =>
            { i with
              cache := cache ++ [(n, block)]
              cacheBytes := cacheBytes + block.length
              cacheOrder := cacheOrder ++ [n] }

/-- `header`. -/
structure Header where
  format : Format
  headerSize : Nat
  size : Nat
  block : Nat
  align : Nat
  deriving DecidableEq, Repr

def cisoMagic : Bytes := "CISO".toUTF8.toList

def zisoMagic : Bytes := "ZISO".toUTF8.toList

def zsoMagic : Bytes := "ZSO\x00".toUTF8.toList

def parseHeader (hdr : Bytes) : Except ReadError Header :=
  if hdr.length < 24 then .error (.failed "short image header")
  else
    let format : Option Format :=
      if hdr.take 4 = cisoMagic then some .cso
      else if hdr.take 4 = zisoMagic ∨ hdr.take 4 = zsoMagic then some .zso
      else none
    match format with
    | none => .error (.failed "unsupported image magic")
    | some format =>
        let h : Header := ⟨format, hdr.field 4 4, hdr.field 8 8, hdr.field 16 4, hdr.field 21 1⟩
        -- A size from 2 ^ 63 on is negative as an `int64`.
        if h.headerSize < 24 ∨ 0x7fffffffffffffff < h.size ∨ h.block = 0 ∨ 16777216 < h.block ∨
            31 < h.align then
          .error (.failed "invalid header")
        else .ok h

/-- `readIndex`: so many entries, through a buffer of 2048. -/
def readIndex (f : File) : Nat → Nat → Nat → Except ReadError (List Nat)
  | 0, _, _ => .ok []
  | fuel + 1, offset, count =>
      if count = 0 then .ok []
      else
        let n := min count 2048
        match f.readFull offset (n * 4) with
        | .error e => .error e
        | .ok scratch =>
            match readIndex f fuel (offset + n * 4) (count - n) with
            | .error e => .error e
            | .ok index => .ok ((List.range n).map (fun i => scratch.field (i * 4) 4) ++ index)

/-- The number of blocks, as `int64` arithmetic has it. -/
def blockCount (h : Header) : Int := (int64 (h.size + h.block - 1)).tdiv h.block

/-- `openCHD`, in a build with libchdr. -/
def openCHD (libchdr : Option (File → Option ChdFile)) (f : File) : Except ReadError Image :=
  match libchdr with
  | none => .error (.failed "CHD support requires CGO and libchdr (build with -tags chd)")
  | some chdOpen => do
      let h ← parseCHDHeader f
      match chdOpen f with
      | none => throw (.failed "chd_open failed")
      | some chd =>
          if chd.hunkBytes ≠ h.hunkSize then throw (.failed "CHD hunk size mismatch")
          return ⟨f, .chd, h.size, f.size, h.blockSize, 0, [], 0, some (chdReadBlock h chd),
            0, 0, [], []⟩

/-- `openImage` of a file by the lower-case extension of its name. -/
def openImage (libchdr : Option (File → Option ChdFile)) (ext : String) (f : File) :
    Except ReadError Image :=
  if ext = ".chd" then openCHD libchdr f
  else if ext ≠ ".cso" ∧ ext ≠ ".ciso" ∧ ext ≠ ".zso" ∧ ext ≠ ".ziso" then
    .ok ⟨f, .plain, f.size, f.size, 0, 0, [], 0, none, 0, 0, [], []⟩
  else do
    let hdr ← f.readFull 0 24
    let h ← parseHeader hdr
    let blocks := blockCount h
    if 268435456 < blocks ∨ (f.size : Int) <
        (h.headerSize + (blocks + 1) % 0x10000000000000000 * 4) % 0x10000000000000000 then
      throw (.failed "image index too large or extends past file size")
    -- `make` of a negative length.
    if blocks + 1 < 0 then throw .panic
    let count := (blocks + 1).toNat
    let index ← readIndex f (count + 1) h.headerSize count
    return ⟨f, h.format, h.size, f.size, h.block, h.align, index, 0, none, 0, 0, [], []⟩

inductive Whence
  | start
  | current
  | end_
  | invalid
  deriving DecidableEq, Repr

def Image.seek (i : Image) (off : Int) (whence : Whence) : Except ReadError Nat × Image :=
  let target : Option Int :=
    match whence with
    | .start => some off
    | .current => some (int64 (i.pos + off))
    | .end_ => some (int64 (i.size + off))
    | .invalid => none
  match target with
  | none => (.error (.failed "invalid whence"), i)
  | some n =>
      if n < 0 then (.error (.failed "negative seek"), i)
      else (.ok n.toNat, { i with pos := n.toNat })

section

variable (build : Build) (budget : Int)

def DecodeError.toReadError : DecodeError → ReadError
  | .failed message => .failed message
  | .panic => .panic
  | .noReturn => .noReturn

/-- The wrapping machine has no overflow. -/
def Word.Fault.toReadError : Word.Fault → ReadError
  | .decode e => e.toReadError
  | .overflow => .panic

/-- `decodeLZ4Block`. -/
def Build.decodeLZ4Block (raw : Bytes) (expected : Int) : Except ReadError Bytes :=
  if build.wide then (Compression.decodeLZ4Block raw expected).mapError DecodeError.toReadError
  else (Word.decodeLZ4Block Word.int32 raw expected).mapError Word.Fault.toReadError

/-- How many bytes a block decodes to. -/
def Image.expected (i : Image) (n : Nat) : Int :=
  let remain := (i.size : Int) - n * i.blockSize
  if remain < i.blockSize then remain else i.blockSize

/-- `io.ReadFull` of a stream into a buffer. -/
def inflated (stream : Bytes) (expected : Int) : Option Bytes :=
  if (stream.length : Int) < expected then none else some (stream.take expected.toNat)

/-- `decodeBlock` once the stored bytes of the block are there. -/
def Image.decodeRaw (i : Image) (plain : Bool) (raw : Bytes) (expected : Int) :
    Except ReadError Bytes :=
  if plain then
    if (raw.length : Int) < expected then .error .unexpectedEOF
    else if expected < 0 then .error .panic
    else .ok (raw.take expected.toNat)
  else if i.format = .zso then build.decodeLZ4Block raw expected
  else if expected < 0 then .error .panic
  else
    match inflated (build.flate raw) expected with
    | some out => .ok out
    | none =>
        match build.zlib raw with
        | none => .error (.failed "zlib: invalid header")
        | some stream =>
            match inflated stream expected with
            | some out => .ok out
            | none => .error .unexpectedEOF

/-- The stored bytes from one offset up to another. -/
def Image.readRaw (i : Image) (start stop : Nat) : Except ReadError Bytes :=
  if stop < start ∨ i.blockSize * 2 + 4096 < stop - start then
    .error (.failed "invalid block range")
  else if i.fileSize < stop then .error .unexpectedEOF
  else
    match i.file.readAt start (stop - start) with
    | (raw, none) => if raw.length ≠ stop - start then .error .unexpectedEOF else .ok raw
    | (raw, some .eof) => if raw.length ≠ stop - start then .error .unexpectedEOF else .ok raw
    | (_, some e) => .error e

def Image.decodeBlock (i : Image) (n : Nat) : Except ReadError Bytes :=
  match i.chd with
  | some readBlock => readBlock n
  | none =>
      if (i.index.length : Int) - 1 ≤ n then .error .eof
      else
        match i.index[n]?, i.index[n + 1]? with
        | some a, some b =>
            match i.readRaw ((a % 0x80000000) <<< i.align) ((b % 0x80000000) <<< i.align) with
            | .error e => .error e
            | .ok raw => i.decodeRaw build (0x80000000 ≤ a) raw (i.expected n)
        | _, _ => .error .panic

def Image.readBlock (i : Image) (n : Nat) : Except ReadError Bytes × Image :=
  match i.cache.lookup n with
  | some block => (.ok block, i)
  | none =>
      match i.decodeBlock build n with
      | .error e => (.error e, i)
      | .ok block => (.ok block, i.cacheStore budget n block)

/-- The loop of `readAt`: what is left of the buffer, and the bytes it has so far. -/
def Image.readBlocks : Nat → Image → Nat → Nat → Bytes → (Bytes × Option ReadError) × Image
  | 0, i, _, _, total => ((total, some .noReturn), i)
  | fuel + 1, i, len, off, total =>
      if len = 0 then ((total, none), i)
      else if i.blockSize = 0 then ((total, some .panic), i)
      else
        match i.readBlock build budget (off / i.blockSize) with
        | (.error e, i) => ((total, some e), i)
        | (.ok block, i) =>
            if block.length < off % i.blockSize then ((total, some .panic), i)
            else
              let copied := (block.drop (off % i.blockSize)).take len
              readBlocks fuel i (len - copied.length) (off + copied.length) (total ++ copied)

def Image.readAt (i : Image) (len off : Nat) : (Bytes × Option ReadError) × Image :=
  if i.size ≤ off then (([], some .eof), i)
  else
    let len := min len (i.size - off)
    if i.format = .plain then (i.file.readAt off len, i)
    else i.readBlocks build budget (len + 1) len off []

/-- `Read` into a buffer of so many bytes: what is in it and the error. -/
def Image.read (i : Image) (len : Nat) : (Bytes × Option ReadError) × Image :=
  match i.readAt build budget len i.pos with
  | ((data, err), i) => ((data, err), { i with pos := i.pos + data.length })

end

end Ps2Servers.Compression
