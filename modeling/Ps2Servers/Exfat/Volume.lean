import Ps2Servers.Lib.Intervals
import Ps2Servers.Lib.Splice
import Ps2Servers.Lib.Utf16

/-!
# A virtual exFAT volume over a folder

The volume that is laid out over a frozen inventory of a host folder: which folders are
accepted, where the bitmap, the up-case table, the directories and the files lie, and
the bytes of everything that is not a file's content.

## Implementation notes

The entries of a folder are a list written as first entry and rest, so that a whole tree
is one inductive type. `upper` is the table of single-character upper cases. Sizes and
cluster numbers are checked against the capacity of the volume before they are packed.
-/

namespace Ps2Servers.Exfat

def SECTOR : Nat := 512

def CLUSTER : Nat := 32768

def PARTITION : Nat := 2048

/-- `math.ceil(n / d)`. -/
def ceilDiv (n d : Nat) : Nat := (n + d - 1) / d

def checksumFrom (bits : Nat) (skip : List Nat) : Nat → Nat → Bytes → Nat
  | _, value, [] => value
  | i, value, byte :: rest =>
      checksumFrom bits skip (i + 1)
        (if i ∈ skip then value
          else (value / 2 + value % 2 * 2 ^ (bits - 1) + byte.toNat) % 2 ^ bits) rest

def checksum (data : Bytes) (bits : Nat) (skip : List Nat) : Nat := checksumFrom bits skip 0 0 data

/-! ## Names -/

/-- `struct.unpack('<HH...')`. -/
def unpackUnits : Bytes → List Nat
  | a :: b :: rest => (a.toNat + 256 * b.toNat) :: unpackUnits rest
  | _ => []

/-- `struct.pack('<HH...')`. -/
def packUnits (units : List Nat) : Bytes := units.flatMap (Bytes.ofNat 2)

def forbidden : List Nat := "\"*/:<>?\\|".toList.map Char.toNat

/-- `name_units`. -/
def nameUnits (name : Str) : Option (List Nat) := do
  let bytes ← Text.encodeUtf16 name
  let units := unpackUnits bytes
  if units = [] ∨ 255 < units.length ∨ units.any fun c => c < 32 || c ∈ forbidden then none
  else some units

/-- The units of a name that was accepted. -/
def unitsOf (name : Str) : List Nat := (nameUnits name).getD []

/-- `upcase_table` of what `str.upper` makes of each code point. -/
def upcaseTable (strUpper : Nat → List Nat) (c : Nat) : Nat :=
  match strUpper c with
  | [u] => if u ≤ 65535 then u else c
  | _ => c

/-- Where a run of characters that are their own upper case ends. -/
def runEnd (upper : Nat → Nat) (c : Nat) : Nat → Nat → Nat
  | 0, stop => stop
  | fuel + 1, stop =>
      if stop < 65536 ∧ upper stop = stop ∧ stop - c < 65535 then runEnd upper c fuel (stop + 1)
      else stop

/-- The compressed up-case table from `c` on. -/
def encodeFrom (upper : Nat → Nat) : Nat → Nat → List Nat
  | 0, _ => []
  | fuel + 1, c =>
      if c < 65536 then
        let stop := runEnd upper c 65536 c
        if 1 < stop - c ∨ c = 65535 then 0xffff :: (stop - c) :: encodeFrom upper fuel stop
        else upper c :: encodeFrom upper fuel (c + 1)
      else []

def encodeTable (upper : Nat → Nat) : List Nat := encodeFrom upper 65536 0

/-! ## Folders -/

/-- What `lstat` says of a file besides its size. -/
structure Stamp where
  dev : Nat
  ino : Nat
  mtime : Nat
  deriving DecidableEq, Repr

/-- The entries of a host folder. Links, reparse points and devices are `special`. -/
inductive Contents
  | empty
  | file (name : Str) (stamp : Stamp) (data : Bytes) (rest : Contents)
  | folder (name : Str) (inner rest : Contents)
  | special (name : Str) (rest : Contents)
  deriving DecidableEq, Repr

namespace Contents

/-- `sorted(..., key=lambda p: p.name)` orders by code points. -/
def nameLe : Str → Str → Bool
  | [], _ => true
  | _ :: _, [] => false
  | a :: rest, b :: rest' =>
      a.toNat < b.toNat || (a.toNat = b.toNat && nameLe rest rest')

/-- An entry in its place among sorted entries. -/
def insertBy (name : Str) (entry : Contents → Contents) : Contents → Contents
  | .empty => entry .empty
  | .file n stamp data rest =>
      if nameLe name n then entry (.file n stamp data rest)
      else .file n stamp data (insertBy name entry rest)
  | .folder n inner rest =>
      if nameLe name n then entry (.folder n inner rest)
      else .folder n inner (insertBy name entry rest)
  | .special n rest =>
      if nameLe name n then entry (.special n rest) else .special n (insertBy name entry rest)

/-- Every folder in the order its entries are visited. -/
def sorted : Contents → Contents
  | .empty => .empty
  | .file name stamp data rest => insertBy name (.file name stamp data) rest.sorted
  | .folder name inner rest => insertBy name (.folder name inner.sorted) rest.sorted
  | .special name rest => insertBy name (.special name) rest.sorted

/-- `_scan` of the entries at a depth, with the keys of those before them and the number of
nodes so far. -/
def scan (upper : Nat → Nat) : Nat → List (List Nat) → Contents → Nat → Option Nat
  | _, _, .empty, count => some count
  | depth, names, .file name _ _ rest, count => do
      let units ← nameUnits name
      if units.map upper ∈ names ∨ 64 < depth ∨ 100000 < count + 1 then none
      else scan upper depth (units.map upper :: names) rest (count + 1)
  | depth, names, .folder name inner rest, count => do
      let units ← nameUnits name
      if units.map upper ∈ names ∨ 64 < depth ∨ 100000 < count + 1 then none
      else
        let count ← scan upper (depth + 1) [] inner (count + 1)
        scan upper depth (units.map upper :: names) rest count
  | _, _, .special _ _, _ => none

/-- The 32-byte entries that the entries of a folder take. -/
def entryCount : Contents → Nat
  | .empty => 0
  | .file name _ _ rest => 2 + ceilDiv (unitsOf name).length 15 + rest.entryCount
  | .folder name _ rest => 2 + ceilDiv (unitsOf name).length 15 + rest.entryCount
  | .special _ rest => rest.entryCount

/-- The size of a directory, with the end marker. Bitmap, up-case table and label are in the
root. -/
def dirSize (contents : Contents) (isRoot : Bool) : Nat :=
  ((if isRoot then 3 else 0) + contents.entryCount + 1) * 32

/-- The clusters of all entries below a folder. -/
def clusters : Contents → Nat
  | .empty => 0
  | .file _ _ data rest => ceilDiv data.length CLUSTER + rest.clusters
  | .folder _ inner rest =>
      ceilDiv (inner.dirSize false) CLUSTER + inner.clusters + rest.clusters
  | .special _ rest => rest.clusters

end Contents

/-- The entries of a folder with their clusters, and the paths of the files. -/
inductive Nodes
  | empty
  | file (parent : List Str) (name : Str) (stamp : Stamp) (data : Bytes) (cluster : Nat)
      (rest : Nodes)
  | folder (name : Str) (cluster size : Nat) (inner rest : Nodes)
  deriving DecidableEq, Repr

/-- Clusters are given out in the order of the scan; an empty file gets none. -/
def place (path : List Str) : Contents → Nat → Nodes × Nat
  | .empty, next => (.empty, next)
  | .file name stamp data rest, next =>
      let clusters := ceilDiv data.length CLUSTER
      let placed := place path rest (next + clusters)
      (.file path name stamp data (if clusters = 0 then 0 else next) placed.1, placed.2)
  | .folder name inner rest, next =>
      let size := inner.dirSize false
      let inside := place (path ++ [name]) inner (next + ceilDiv size CLUSTER)
      let placed := place path rest inside.2
      (.folder name next size inside.1 placed.1, placed.2)
  | .special _ rest, next => place path rest next

/-! ## Directory entries -/

def nameEntry (chunk : List Nat) : Bytes :=
  [0xc1, 0] ++ packUnits chunk ++ List.replicate (30 - 2 * chunk.length) 0

def nameEntries (units : List Nat) : Bytes :=
  (List.range (ceilDiv units.length 15)).flatMap fun i => nameEntry ((units.drop (15 * i)).take 15)

def primaryEntry (count sum : Nat) (directory : Bool) : Bytes :=
  Bytes.ofNat 1 0x85 ++ Bytes.ofNat 1 count ++ Bytes.ofNat 2 sum ++
    Bytes.ofNat 2 (if directory then 0x10 else 0x20) ++ Bytes.ofNat 2 0 ++
    Bytes.ofNat 4 0x00210000 ++ Bytes.ofNat 4 0x00210000 ++ Bytes.ofNat 4 0x00210000 ++
    List.replicate 12 0

def streamEntry (flags units hash cluster length : Nat) : Bytes :=
  Bytes.ofNat 1 0xc0 ++ Bytes.ofNat 1 flags ++ Bytes.ofNat 1 0 ++ Bytes.ofNat 1 units ++
    Bytes.ofNat 2 hash ++ Bytes.ofNat 2 0 ++ Bytes.ofNat 8 length ++ Bytes.ofNat 4 0 ++
    Bytes.ofNat 4 cluster ++ Bytes.ofNat 8 length

section

variable (upper : Nat → Nat)

/-- The entries of a child, with this set checksum. -/
def groupWith (sum : Nat) (name : Str) (directory : Bool) (cluster clusters size : Nat) : Bytes :=
  let units := unitsOf name
  let hash := checksum (packUnits (units.map upper)) 16 []
  let length := if directory then clusters * CLUSTER else size
  primaryEntry (1 + ceilDiv units.length 15) sum directory ++
    streamEntry (if directory ∨ clusters = 0 then 1 else 3) units.length hash cluster length ++
    nameEntries units

def group (name : Str) (directory : Bool) (cluster clusters size : Nat) : Bytes :=
  groupWith upper
    (checksum (groupWith upper 0 name directory cluster clusters size) 16 [2, 3])
    name directory cluster clusters size

/-- The groups of all children. -/
def Nodes.groups : Nodes → Bytes
  | .empty => []
  | .file _ name _ data cluster rest =>
      group upper name false cluster (ceilDiv data.length CLUSTER) data.length ++ rest.groups
  | .folder name cluster size _ rest =>
      group upper name true cluster (ceilDiv size CLUSTER) size ++ rest.groups

end

/-! ## The volume -/

structure Volume where
  upper : Nat → Nat
  upcase : Bytes
  bitmapClusters : Nat
  clusterCount : Nat
  rootSize : Nat
  nodes : Nodes
  /-- The first cluster that nobody uses. -/
  next : Nat

namespace Volume

variable (v : Volume)

def upcaseClusters : Nat := ceilDiv v.upcase.length CLUSTER

def bitmapLength : Nat := ceilDiv v.clusterCount 8

def bitmapCluster : Nat := 2

def upcaseCluster : Nat := 2 + v.bitmapClusters

def rootCluster : Nat := v.upcaseCluster + v.upcaseClusters

def allocatedClusters : Nat := v.next - 2

def fatLength : Nat := ceilDiv ((v.clusterCount + 2) * 4) SECTOR

def heapSector : Nat := ceilDiv (24 + v.fatLength) 64 * 64

def volumeSectors : Nat := v.heapSector + v.clusterCount * (CLUSTER / SECTOR)

def size : Nat := (PARTITION + v.volumeSectors) * SECTOR

/-- `_heap_offset`. -/
def heapOffset (cluster : Nat) : Nat := (PARTITION + v.heapSector) * SECTOR + (cluster - 2) * CLUSTER

/-- `_directory_bytes` of the root. -/
def rootDirectory : Bytes :=
  Bytes.ofNat 1 0x81 ++ List.replicate 19 0 ++ Bytes.ofNat 4 bitmapCluster ++
    Bytes.ofNat 8 v.bitmapLength ++
    (Bytes.ofNat 1 0x82 ++ List.replicate 3 0 ++ Bytes.ofNat 4 (checksum v.upcase 32 []) ++
      List.replicate 12 0 ++ Bytes.ofNat 4 v.upcaseCluster ++ Bytes.ofNat 8 v.upcase.length) ++
    (Bytes.ofNat 1 0x83 ++ Bytes.ofNat 1 9 ++
      packUnits ("PS2SERVER".toList.map Char.toNat) ++ List.replicate 12 0) ++
    v.nodes.groups v.upper ++ List.replicate 32 0

/-- `_directory_bytes` of another folder. -/
def directory (inner : Nodes) : Bytes := inner.groups v.upper ++ List.replicate 32 0

/-- What an extent holds: bytes made beforehand, or a file read on demand. -/
inductive Payload
  | bytes (data : Bytes)
  | file (path : List Str) (stamp : Stamp) (data : Bytes)

/-- The bytes of an extent. -/
def Payload.data : Payload → Bytes
  | .bytes data => data
  | .file _ _ data => data

structure Extent where
  start : Nat
  length : Nat
  payload : Payload

def Extent.stop (e : Extent) : Nat := e.start + e.length

/-- `_add_extent`. -/
def extent (cluster length : Nat) (payload : Payload) : List Extent :=
  if length = 0 then [] else [⟨v.heapOffset cluster, length, payload⟩]

def nodeExtents : Nodes → List Extent
  | .empty => []
  | .file parent name stamp data cluster rest =>
      v.extent cluster data.length (.file (parent ++ [name]) stamp data) ++ nodeExtents rest
  | .folder _ cluster size inner rest =>
      v.extent cluster size (.bytes (v.directory inner)) ++ nodeExtents inner ++ nodeExtents rest

/-- `_extents`, in the order of their starts. -/
def extents : List Extent :=
  (v.extent v.upcaseCluster v.upcase.length (.bytes v.upcase) ++
    v.extent v.rootCluster v.rootSize (.bytes v.rootDirectory) ++
    v.nodeExtents v.nodes).mergeSort fun a b => decide (a.start ≤ b.start)

/-- Clusters that the FAT links: first and number. -/
abbrev Chain := Nat × Nat

def nodeChains : Nodes → List Chain
  | .empty => []
  | .file _ _ _ _ _ rest => nodeChains rest
  | .folder _ cluster size inner rest =>
      (cluster, ceilDiv size CLUSTER) :: nodeChains inner ++ nodeChains rest

/-- `_chains`. -/
def chains : List Chain :=
  ((bitmapCluster, v.bitmapClusters) :: (v.upcaseCluster, v.upcaseClusters) ::
    (v.rootCluster, ceilDiv v.rootSize CLUSTER) :: nodeChains v.nodes).mergeSort
      fun a b => decide (a.1 < b.1) || (decide (a.1 = b.1) && decide (a.2 ≤ b.2))

/-- The FAT entry of a cluster, as `_fat` makes it. -/
def fatEntry (i : Nat) : Nat :=
  if i = 0 then 0xfffffff8
  else if i = 1 then 0xffffffff
  else
    match Intervals.before Prod.fst v.chains i with
    | none => 0
    | some (start, length) =>
        if i < start + length then
          if i < start + length - 1 then i + 1 else 0xffffffff
        else 0

/-- `_fat`. -/
def fat (offset count : Nat) : Bytes :=
  let first := offset / 4
  let last := ceilDiv (offset + count) 4
  Bytes.sub ((List.range' first (last - first)).flatMap fun i => Bytes.ofNat 4 (v.fatEntry i))
    (offset % 4) count

/-- A byte of the allocation bitmap. -/
def bitmapByte (i : Nat) : UInt8 :=
  if i < v.allocatedClusters / 8 then 255
  else if i = v.allocatedClusters / 8 then UInt8.ofNat (2 ^ (v.allocatedClusters % 8) - 1)
  else 0

/-- `_boot_region`. -/
def boot : Bytes :=
  let fields := Bytes.ofNat 8 PARTITION ++ Bytes.ofNat 8 v.volumeSectors ++ Bytes.ofNat 4 24 ++
    Bytes.ofNat 4 v.fatLength ++ Bytes.ofNat 4 v.heapSector ++ Bytes.ofNat 4 v.clusterCount ++
    Bytes.ofNat 4 v.rootCluster ++ Bytes.ofNat 4 0x50533253 ++ Bytes.ofNat 2 0x100 ++
    Bytes.ofNat 2 0 ++ Bytes.ofNat 1 9 ++ Bytes.ofNat 1 6 ++ Bytes.ofNat 1 1 ++
    Bytes.ofNat 1 0x80 ++ Bytes.ofNat 1 (ceilDiv (v.allocatedClusters * 100) v.clusterCount)
  let first := [0xeb, 0x76, 0x90, 0x45, 0x58, 0x46, 0x41, 0x54, 0x20, 0x20, 0x20] ++
    List.replicate 53 0 ++ fields ++ List.replicate 397 0 ++ [0x55, 0xaa]
  let extended := List.replicate 508 0 ++ Bytes.ofNat 4 0xaa550000
  let boot := first ++ (List.replicate 8 extended).flatten ++ List.replicate (2 * SECTOR) 0
  let region := boot ++
    (List.replicate (SECTOR / 4) (Bytes.ofNat 4 (checksum boot 32 [106, 107, 112]))).flatten
  region ++ region

/-- The MBR with its one partition. -/
def mbr : Bytes :=
  List.replicate 446 0 ++ [0, 0xfe, 0xff, 0xff, 7, 0xfe, 0xff, 0xff] ++ Bytes.ofNat 4 PARTITION ++
    Bytes.ofNat 4 v.volumeSectors ++ List.replicate 48 0 ++ [0x55, 0xaa]

end Volume

/-- The loop that finds a bitmap large enough for itself. -/
def solve (payload upcaseClusters : Nat) : Nat → Nat → Option (Nat × Nat)
  | 0, _ => none
  | fuel + 1, bitmapClusters =>
      let clusterCount := max 64 (payload + bitmapClusters + upcaseClusters + 16)
      let needed := ceilDiv (ceilDiv clusterCount 8) CLUSTER
      if needed = bitmapClusters then some (clusterCount, bitmapClusters)
      else solve payload upcaseClusters fuel needed

/-- `VirtualExfat.__init__`. -/
def build (upper : Nat → Nat) (found : Contents) : Option Volume := do
  let contents := found.sorted
  let _ ← contents.scan upper 1 [] 1
  let upcase := packUnits (encodeTable upper)
  let upcaseClusters := ceilDiv upcase.length CLUSTER
  let rootSize := contents.dirSize true
  let payload := ceilDiv rootSize CLUSTER + contents.clusters
  let (clusterCount, bitmapClusters) ← solve payload upcaseClusters (payload + upcaseClusters + 64) 1
  let rootCluster := 2 + bitmapClusters + upcaseClusters
  let placed := place [] contents (rootCluster + ceilDiv rootSize CLUSTER)
  let v : Volume := ⟨upper, upcase, bitmapClusters, clusterCount, rootSize, placed.1, placed.2⟩
  if 0xffffffff < v.size / SECTOR then none else some v

end Ps2Servers.Exfat
