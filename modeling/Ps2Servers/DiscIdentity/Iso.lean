import Ps2Servers.Lib.Bytes
import Ps2Servers.Lib.Effects
import Mathlib.Data.List.DropRight

/-!
# Disc identity

The inspector reads a few sectors of a disc image: the volume descriptors, the root directory,
`SYSTEM.CNF`, the directories of the path that its `BOOT2` setting names, and the first bytes of
the executable. Everything it reads there is chosen by whoever made the image, so all reads share
one budget, and one bound limits the records of all directories.

## Implementation notes

An image of any length is given with the size it claims to have. `cancel` says of each read
whether the inspection has been cancelled by then. `State.reads` records the reads, and the code
does not look at it. Text is ASCII, and stays bytes.
-/

namespace Ps2Servers.DiscIdentity

open Effects

def SECTOR : Nat := 2048

def MAX_READ_BYTES : Nat := 4 * 1024 ^ 2

def MAX_DIRECTORY_BYTES : Nat := 1024 ^ 2

def MAX_CNF_BYTES : Nat := 16 * 1024

def MAX_RECORDS : Nat := 8192

def MAX_PATH_DEPTH : Nat := 8

inductive Status
  | unknown
  | invalid
  | verified
  deriving DecidableEq, Repr

/-- `DiscIdentity`. -/
structure Identity where
  status : Status
  discId : Bytes
  bootPath : Bytes
  detail : String
  deriving DecidableEq, Repr

inductive Exn
  | value (message : String)
  | unsupported (message : String)
  | interrupted (message : String)
  /-- A `UnicodeDecodeError`, by the codec. -/
  | unicode
  deriving DecidableEq, Repr

/-- An image: its bytes, of which there are `length`. -/
structure Image where
  byte : Nat → UInt8
  length : Nat

/-- How many bytes a read returns. -/
def Image.available (img : Image) (offset length : Nat) : Nat := min length (img.length - offset)

def Image.slice (img : Image) (offset length : Nat) : Bytes :=
  (List.range' offset (img.available offset length)).map img.byte

structure Extent where
  offset : Nat
  size : Nat
  deriving DecidableEq, Repr

/-- `_IsoReader`. -/
structure State where
  remaining : Nat
  records : Nat
  volumeBytes : Nat
  reads : List Extent
  deriving DecidableEq, Repr

def State.new (size : Nat) : State := ⟨MAX_READ_BYTES, 0, size, []⟩

abbrev Inspector := EStateM Exn State

def raise {α : Type} : Except Exn α → Inspector α
  | .ok a => pure a
  | .error e => throw e

/-- An exception where something is found. -/
def refuse (p : Prop) [Decidable p] (e : Exn) : Inspector Unit := if p then throw e else pure ()

/-- `_both`. -/
def both (data : Bytes) : Except Exn Nat :=
  let half := data.length / 2
  let little := Bytes.le (data.take half)
  if little ≠ Bytes.le (data.drop half).reverse then
    .error (.value "ISO9660 byte-order fields disagree.")
  else .ok little

/-- `_IsoReader.extent`. -/
def extent (volumeBytes : Nat) (record : Bytes) (directory : Bool) : Except Exn Extent :=
  if record.length < 34 ∨ record.field 0 1 ≠ record.length ∨
      record.length < 33 + record.field 32 1 then
    .error (.value "Malformed ISO9660 directory record.")
  else if decide (record.field 25 1 &&& 2 ≠ 0) ≠ directory then
    .error (.value "ISO9660 path has an unexpected file/directory type.")
  else if record.field 1 1 ≠ 0 ∨ record.field 26 1 ≠ 0 ∨ record.field 27 1 ≠ 0 ∨
      record.field 25 1 &&& 0x80 ≠ 0 then
    .error (.unsupported
      "Extended, interleaved or multi-extent boot metadata is unsupported.")
  else do
    let lba ← both (record.sub 2 8)
    let size ← both (record.sub 10 8)
    if lba = 0 ∨ size = 0 ∨ volumeBytes < lba * SECTOR + size then
      throw (.value "Invalid or truncated ISO9660 extent.")
    else if directory ∧ MAX_DIRECTORY_BYTES < size then
      throw (.unsupported "ISO9660 directory exceeds the inspection limit.")
    else return ⟨lba * SECTOR, size⟩

/-- `upper` of ASCII. -/
def upper (b : UInt8) : UInt8 := if 0x61 ≤ b ∧ b ≤ 0x7a then b - 0x20 else b

def lit (s : String) : Bytes := s.toUTF8.toList

/-- The name of a record; one that is not ASCII reads as the empty one. -/
def entryName (record : Bytes) : Bytes :=
  let rawName := record.sub 33 (record.field 32 1)
  if rawName.all (· < 0x80) then rawName else []

/-- Only an absent version or `;1` is supported. -/
def matches_ (name record : Bytes) : Bool :=
  let entry := (entryName record).map upper
  entry = name.map upper || entry = name.map upper ++ lit ";1"

section

variable (img : Image) (size : Nat) (cancel : Nat → Bool)

/-- `_IsoReader.read`. -/
def read (offset length : Nat) : Inspector Bytes := do
  let s ← get
  refuse (cancel s.reads.length) (.interrupted "Disc ID inspection cancelled.")
  refuse (s.volumeBytes < offset + length)
    (.value "ISO9660 extent lies outside the image/volume.")
  refuse (s.remaining < length)
    (.unsupported "Disc metadata exceeds the inspection read budget.")
  set { s with remaining := s.remaining - length, reads := s.reads ++ [Extent.mk offset length] }
  refuse (img.available offset length ≠ length) (.value "Truncated ISO9660 data.")
  return img.slice offset length

/-- The volume size of a primary descriptor. -/
def volumeOf (descriptor : Bytes) : Inspector Nat := do
  let block ← raise (both (descriptor.sub 128 4))
  refuse (block ≠ SECTOR) (.unsupported "Only 2048-byte ISO9660 logical blocks are inspected.")
  let blocks ← raise (both (descriptor.sub 80 8))
  refuse (¬ (17 * SECTOR ≤ blocks * SECTOR ∧ blocks * SECTOR ≤ size))
    (.value "Invalid or truncated ISO9660 volume size.")
  return blocks * SECTOR

/-- The root directory of a primary descriptor. -/
def rootRecord (descriptor : Bytes) : Bytes := descriptor.sub 156 (descriptor.field 156 1)

/-- The loop of `_IsoReader.root`. -/
def rootFrom : List Nat → Inspector Extent
  | [] => throw (.unsupported "No primary volume descriptor within the inspection limit.")
  | sector :: rest => do
      let descriptor ← read img cancel (sector * SECTOR) SECTOR
      refuse (descriptor.sub 1 6 ≠ lit "CD001\x01") (.value "No valid ISO9660 volume descriptor.")
      refuse (descriptor.field 0 1 = 255) (.value "No ISO9660 primary volume descriptor.")
      if descriptor.field 0 1 ≠ 1 then rootFrom rest
      else do
        let volumeBytes ← volumeOf size descriptor
        modify fun s => { s with volumeBytes := volumeBytes }
        raise (extent volumeBytes (rootRecord descriptor) true)

/-- `_IsoReader.root`. -/
def root : Inspector Extent := rootFrom img size cancel (List.range' 16 32)

/-- What `_IsoReader.find` makes of a record. -/
def take (name : Bytes) (isDirectory : Bool) (found : Option Extent) (record : Bytes) :
    Inspector (Option Extent) :=
  if matches_ name record then do
    refuse found.isSome (.value "Ambiguous ISO9660 boot path (duplicate names/versions).")
    let s ← get
    let e ← raise (extent s.volumeBytes record isDirectory)
    return some e
  else pure found

/-- The records of a sector, up to a length of zero. -/
def scan (name : Bytes) (isDirectory : Bool) (found : Option Extent) :
    Bytes → Inspector (Option Extent)
  | [] => pure found
  | length :: data =>
      if length = 0 then pure found
      else do
        modify fun s => { s with records := s.records + 1 }
        let s ← get
        refuse (MAX_RECORDS < s.records)
          (.unsupported "Too many ISO9660 records for one inspection.")
        refuse (length.toNat < 34 ∨ data.length + 1 < length.toNat)
          (.value "Malformed ISO9660 directory record.")
        let record : Bytes := (length :: data).take length.toNat
        refuse (record.field 32 1 = 0 ∨ length.toNat < 33 + record.field 32 1)
          (.value "Malformed ISO9660 filename.")
        let found ← take name isDirectory found record
        scan name isDirectory found (data.drop (length.toNat - 1))
termination_by data => data.length
decreasing_by
  rw [List.length_drop, List.length_cons]
  omega

/-- The loop of `_IsoReader.find` over the sectors of a directory. -/
def findFrom (directory : Extent) (name : Bytes) (isDirectory : Bool) :
    Option Extent → List Nat → Inspector (Option Extent)
  | found, [] => pure found
  | found, offset :: rest => do
      let data ← read img cancel (directory.offset + offset) (min SECTOR (directory.size - offset))
      let found ← scan name isDirectory found data
      findFrom directory name isDirectory found rest

/-- `range(0, size, SECTOR)`. -/
def sectorsOf (size : Nat) : List Nat :=
  (List.range ((size + SECTOR - 1) / SECTOR)).map (· * SECTOR)

/-- `_IsoReader.find`. -/
def find (directory : Extent) (name : Bytes) (isDirectory : Bool) : Inspector (Option Extent) :=
  findFrom img cancel directory name isDirectory none (sectorsOf directory.size)

def isBlank (b : UInt8) : Bool := b = 0x20 || b = 0x09

/-- White space of ASCII, as `str.strip` and `\s` have it. -/
def isSpace (b : UInt8) : Bool := (9 ≤ b && b ≤ 13) || (28 ≤ b && b ≤ 32)

def isSlash (b : UInt8) : Bool := b = 0x5c || b = 0x2f

/-- The value of a line that is a `BOOT2` setting. -/
def boot2Value (line : Bytes) : Option Bytes :=
  let key := line.dropWhile isBlank
  if (key.take 5).map upper ≠ lit "BOOT2" then none
  else
    match (key.drop 5).dropWhile isBlank with
    | 0x3d :: value => some ((value.dropWhile isBlank).takeWhile (· ≠ 0x0d))
    | _ => none

/-- The matches of `^[ \t]*BOOT2[ \t]*=[ \t]*([^\r\n]*)`, at most one a line. -/
def settings (text : Bytes) : List Bytes := (text.splitOn 0x0a).filterMap boot2Value

/-- `str.strip`. -/
def strip (s : Bytes) : Bytes := (s.dropWhile isSpace).rdropWhile isSpace

/-- The group of `cdrom0:[\\/]*([^;\s]+)(?:;1)?`. A path of slashes alone gets back the last. -/
def bootTarget (setting : Bytes) : Option Bytes :=
  if (setting.take 7).map upper ≠ lit "CDROM0:" then none
  else
    let slashes := (setting.drop 7).takeWhile isSlash
    let body := (setting.drop 7).dropWhile isSlash
    let path := body.takeWhile fun b => b ≠ 0x3b && !isSpace b
    let version := body.drop path.length
    if version ≠ [] ∧ version ≠ lit ";1" then none
    else if path ≠ [] then some path
    else slashes.getLast?.map fun b => [b]

/-- `/` for a backslash. -/
def forward (b : UInt8) : UInt8 := if b = 0x5c then 0x2f else b

def piecesOf (target : Bytes) : List Bytes := (target.map forward).splitOn 0x2f

def badPiece (part : Bytes) : Bool :=
  part = [] || part = lit "." || part = lit ".." || 64 < part.length || part.contains 0x3a

/-- `"/".join`. -/
def joinPieces (pieces : List Bytes) : Bytes := [0x2f].intercalate pieces

def isUpperLetter (b : UInt8) : Bool := 0x41 ≤ b && b ≤ 0x5a

def isDigit (b : UInt8) : Bool := 0x30 ≤ b && b ≤ 0x39

/-- `[A-Z]{4}_\d{3}\.\d{2}`, without regard to case. -/
def isSerial (part : Bytes) : Bool :=
  part.length = 11 && (part.take 4).all (fun b => isUpperLetter (upper b)) &&
    part.sub 4 1 = lit "_" && (part.sub 5 3).all isDigit && part.sub 8 1 = lit "." &&
    (part.sub 9 2).all isDigit

/-- The walk over the pieces of the path; the last one is a file. -/
def walk : Extent → List Bytes → Inspector (Option Extent)
  | current, [] => pure (some current)
  | current, part :: rest => do
      match ← find img cancel current part (!rest.isEmpty) with
      | none => return none
      | some next => walk next rest

/-- The verdict on a path and the extent that it leads to. -/
def judge (pieces : List Bytes) (target : Extent) : Inspector Identity :=
  let bootPath := joinPieces pieces
  let serial := pieces.getLast?.getD []
  let noElf : Identity := ⟨.invalid, [], bootPath, "BOOT2 target has no ELF signature."⟩
  if target.size < 4 then pure noElf
  else do
    let signature ← read img cancel target.offset 4
    if signature ≠ 0x7f :: lit "ELF" then return noElf
    else if !isSerial serial then
      return ⟨.unknown, [], bootPath, "BOOT2 references an ELF without a canonical PS2 serial."⟩
    else
      return ⟨.verified, serial.map upper, bootPath,
        "SYSTEM.CNF BOOT2 serial and referenced ELF signature inspected."⟩

/-- The verdict on a path, if it leads anywhere. -/
def follow (pieces : List Bytes) : Option Extent → Inspector Identity
  | none => return ⟨.invalid, [], joinPieces pieces, "BOOT2 executable/path is missing."⟩
  | some target => judge img cancel pieces target

/-- The verdict on the text of `SYSTEM.CNF`. -/
def inspectText (root : Extent) (text : Bytes) : Inspector Identity :=
  match settings text with
  | [setting] =>
      match bootTarget (strip setting) with
      | none =>
          return ⟨.unknown, [], [], "BOOT2 uses an unsupported device, path or version."⟩
      | some target =>
          let pieces := piecesOf target
          if MAX_PATH_DEPTH < pieces.length ∨ pieces.any badPiece then
            return ⟨.unknown, [], [], "BOOT2 path is invalid or exceeds the inspection depth."⟩
          else walk img cancel root pieces >>= follow img cancel pieces
  | _ => return ⟨.unknown, [], [], "Expected exactly one BOOT2 setting in SYSTEM.CNF."⟩

/-- The verdict on the root directory. -/
def inspectRoot (root : Extent) : Inspector Identity := do
  match ← find img cancel root (lit "SYSTEM.CNF") false with
  | none => return ⟨.unknown, [], [], "No SYSTEM.CNF in the ISO9660 root."⟩
  | some cnf => do
      refuse (MAX_CNF_BYTES < cnf.size) (.unsupported "SYSTEM.CNF exceeds the inspection limit.")
      let text ← read img cancel cnf.offset cnf.size
      refuse (¬ text.all (· < 0x80)) .unicode
      inspectText img cancel root text

/-- `_IsoReader.inspect`. -/
def inspect : Inspector Identity := root img size cancel >>= inspectRoot img cancel

end

end Ps2Servers.DiscIdentity
