import Ps2Servers.Lib.Utf16
import Mathlib.Data.BitVec

/-!
# Reading an exFAT disk

What a driver does with a disk that has one exFAT partition: it finds the partition in
the MBR, checks the boot region and its copy, follows the FAT or a contiguous allocation,
checks the up-case table and every entry set, and descends into the folders. Nothing here
knows how the disk was made.
-/

namespace Ps2Servers.Exfat.Reader

/-- The sum of exFAT: rotate right by one bit, add the byte. -/
def rotatedSum (bits : Nat) (skip : List Nat) (data : Bytes) : BitVec bits :=
  data.zipIdx.foldl (fun sum b =>
    if b.2 ∈ skip then sum else sum.rotateRight 1 + BitVec.ofNat bits b.1.toNat) 0

def units : Bytes → List Nat
  | a :: b :: rest => (a.toNat + 256 * b.toNat) :: units rest
  | _ => []

/-- The parameters of a volume, in bytes from the start of the disk. -/
structure Geometry where
  fat : Nat
  heap : Nat
  clusterBytes : Nat
  clusterCount : Nat
  rootCluster : Nat
  deriving DecidableEq, Repr

/-- A boot region of 12 sectors: signatures, sector sizes, and the sum of its first 11 sectors. -/
def bootValid (region : Bytes) : Bool :=
  region.sub 3 8 = [0x45, 0x58, 0x46, 0x41, 0x54, 0x20, 0x20, 0x20] &&
    region.sub 510 2 = [0x55, 0xaa] && region.field 108 1 = 9 && region.field 110 1 = 1 &&
    region.sub (11 * 512) 512 = (List.replicate 128 (Bytes.ofNat 4
      (rotatedSum 32 [106, 107, 112] (region.sub 0 (11 * 512))).toNat)).flatten

def readGeometry (disk : Bytes) : Option Geometry :=
  let start := disk.field 454 4 * 512
  let region := disk.sub start (12 * 512)
  if disk.sub 510 2 = [0x55, 0xaa] ∧ disk.field 450 1 = 7 ∧ bootValid region = true ∧
      disk.sub (start + 12 * 512) (12 * 512) = region ∧ region.field 64 8 * 512 = start then
    some {
      fat := start + region.field 80 4 * 512
      heap := start + region.field 88 4 * 512
      clusterBytes := 512 * 2 ^ region.field 109 1
      clusterCount := region.field 92 4
      rootCluster := region.field 96 4 }
  else none

section

variable (g : Geometry) (disk : Bytes)

def Geometry.Valid (cluster : Nat) : Prop := 2 ≤ cluster ∧ cluster < g.clusterCount + 2

instance (cluster : Nat) : Decidable (g.Valid cluster) := inferInstanceAs (Decidable (_ ∧ _))

/-- The FAT chain from a cluster on. -/
def chain : Nat → Nat → Option (List Nat)
  | 0, _ => none
  | fuel + 1, cluster =>
      let next := disk.field (g.fat + 4 * cluster) 4
      if ¬ g.Valid cluster then none
      else if next = 0xffffffff then some [cluster]
      else (chain fuel next).map (cluster :: ·)

def clusterData (cluster : Nat) : Bytes :=
  disk.sub (g.heap + (cluster - 2) * g.clusterBytes) g.clusterBytes

/-- The clusters and the data of a stream. -/
def stream (first length : Nat) (noFatChain : Bool) : Option (List Nat × Bytes) :=
  if length = 0 then if first = 0 then some ([], []) else none
  else
    let count := (length + g.clusterBytes - 1) / g.clusterBytes
    let clusters := if noFatChain then some (List.range' first count)
      else chain g disk g.clusterCount first
    match clusters with
    | none => none
    | some clusters =>
        if clusters.length = count ∧ ∀ c ∈ clusters, g.Valid c then
          some (clusters, (clusters.flatMap (clusterData g disk)).take length)
        else none

end

/-! ## Directories -/

/-- The entry set of a file or folder. -/
structure EntrySet where
  directory : Bool
  name : List Nat
  nameHash : Nat
  noFatChain : Bool
  first : Nat
  length : Nat
  deriving DecidableEq, Repr

inductive Item
  | bitmap (first length : Nat)
  | upcase (sum first length : Nat)
  | label
  | set (e : EntrySet)
  deriving DecidableEq, Repr

/-- The units of so many name entries. -/
def readNames : Nat → Bytes → Option (List Nat)
  | 0, _ => some []
  | count + 1, data =>
      if data.field 0 1 = 0xc1 then
        (readNames count (data.drop 32)).map (units (data.sub 2 30) ++ ·)
      else none

/-- A primary entry with its secondaries. -/
def readSet (set : Bytes) : Option EntrySet :=
  if (rotatedSum 16 [2, 3] set).toNat = set.field 2 2 ∧ set.field 32 1 = 0xc0 ∧
      set.field 33 1 % 2 = 1 ∧ set.field 40 8 = set.field 56 8 then
    match readNames (set.field 1 1 - 1) (set.drop 64) with
    | none => none
    | some name =>
        if set.field 35 1 ≤ name.length then
          some {
            directory := set.field 4 2 / 16 % 2 = 1
            name := name.take (set.field 35 1)
            nameHash := set.field 36 2
            noFatChain := set.field 33 1 / 2 % 2 = 1
            first := set.field 52 4
            length := set.field 56 8 }
        else none
  else none

/-- The entries of a directory, up to the end marker. -/
def readDirectory : Nat → Bytes → Option (List Item)
  | 0, _ => none
  | fuel + 1, data =>
      if data.length < 32 then none
      else if data.field 0 1 = 0 then some []
      else if data.field 0 1 = 0x81 then
        (readDirectory fuel (data.drop 32)).map (.bitmap (data.field 20 4) (data.field 24 8) :: ·)
      else if data.field 0 1 = 0x82 then
        (readDirectory fuel (data.drop 32)).map
          (.upcase (data.field 4 4) (data.field 20 4) (data.field 24 8) :: ·)
      else if data.field 0 1 = 0x83 then (readDirectory fuel (data.drop 32)).map (.label :: ·)
      else if data.field 0 1 = 0x85 then
        let size := (data.field 1 1 + 1) * 32
        if data.length < size then none
        else
          match readSet (data.take size) with
          | none => none
          | some e => (readDirectory fuel (data.drop size)).map (.set e :: ·)
      else none

/-! ## Folders -/

/-- The table that compressed units stand for: 0xFFFF and a count for a run of characters that
are their own upper case. -/
def decodeTable : Nat → List Nat → List Nat
  | _, [] => []
  | _, [u] => [u]
  | c, u :: n :: rest =>
      if u = 0xffff then List.range' c n ++ decodeTable (c + n) rest
      else u :: decodeTable (c + 1) (n :: rest)

/-- Names and contents of a folder. -/
inductive Tree
  | empty
  | file (name : Str) (data : Bytes) (rest : Tree)
  | folder (name : Str) (inner rest : Tree)
  deriving DecidableEq, Repr

/-- The bytes of a name. -/
def nameBytes (name : List Nat) : Bytes := name.flatMap (Bytes.ofNat 2)

/-- The entries of a folder, and the clusters of every stream below it. -/
def readItems (g : Geometry) (disk : Bytes) (table : List Nat) :
    Nat → List Item → Option (Tree × List (List Nat))
  | 0, _ => none
  | _ + 1, [] => some (.empty, [])
  | fuel + 1, .set e :: rest =>
      if (rotatedSum 16 [] (nameBytes (e.name.map fun c => table.getD c 0))).toNat = e.nameHash then
        match stream g disk e.first e.length e.noFatChain, readItems g disk table fuel rest with
        | some (clusters, data), some (tree, streams) =>
            let name := Text.decodeUtf16 (nameBytes e.name)
            if e.directory then
              match (readDirectory (data.length + 1) data).bind (readItems g disk table fuel) with
              | none => none
              | some (inner, below) => some (.folder name inner tree, clusters :: below ++ streams)
            else some (.file name data tree, clusters :: streams)
        | _, _ => none
      else none
  | fuel + 1, _ :: rest => readItems g disk table fuel rest

/-- What is read from a disk: the folder, the allocation bitmap, and the clusters of the
bitmap, the up-case table, the directories and the files. -/
structure Found where
  tree : Tree
  clusterCount : Nat
  bitmap : Bytes
  streams : List (List Nat)

/-- The bit of a cluster is set. -/
def Found.Allocated (r : Found) (cluster : Nat) : Prop :=
  ((r.bitmap.getD ((cluster - 2) / 8) 0).toNat / 2 ^ ((cluster - 2) % 8)) % 2 = 1

def bitmapOf : List Item → Option (Nat × Nat)
  | [] => none
  | .bitmap first length :: _ => some (first, length)
  | _ :: rest => bitmapOf rest

def upcaseOf : List Item → Option (Nat × Nat × Nat)
  | [] => none
  | .upcase sum first length :: _ => some (sum, first, length)
  | _ :: rest => upcaseOf rest

/-- The root directory has no length of its own: its chain has. -/
def readRoot (g : Geometry) (disk : Bytes) : Option (List Nat × List Item) := do
  let clusters ← chain g disk g.clusterCount g.rootCluster
  let data := clusters.flatMap (clusterData g disk)
  let items ← readDirectory (data.length + 1) data
  return (clusters, items)

/-- A whole disk. -/
def read (disk : Bytes) : Option Found := do
  let g ← readGeometry disk
  let (rootClusters, items) ← readRoot g disk
  let (bitmapFirst, bitmapLength) ← bitmapOf items
  let (bitmapClusters, bitmap) ← stream g disk bitmapFirst bitmapLength false
  let (sum, upcaseFirst, upcaseLength) ← upcaseOf items
  let (upcaseClusters, upcase) ← stream g disk upcaseFirst upcaseLength false
  if (rotatedSum 32 [] upcase).toNat = sum ∧ g.clusterCount ≤ 8 * bitmap.length then
    let (tree, streams) ← readItems g disk (decodeTable 0 (units upcase)) disk.length items
    return ⟨tree, g.clusterCount, bitmap, bitmapClusters :: upcaseClusters :: rootClusters :: streams⟩
  else none

end Ps2Servers.Exfat.Reader
