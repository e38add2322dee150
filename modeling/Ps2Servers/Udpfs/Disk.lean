import Ps2Servers.Lib.Splice
import Ps2Servers.Udpfs.Host

/-!
# A host without links

A POSIX file system of directories and regular files as a host of the server. Paths
are walked component by component, so a component behind a missing folder or behind a
file is an error even where `..` leaves it again.
-/

namespace Ps2Servers.Udpfs

open Text

inductive Node
  | dir
  | file (inode : Inode)
  deriving DecidableEq, Repr

/-- Directories and files by their components, and the contents of the files. -/
structure Disk where
  nodes : List (List Str × Node)
  contents : List (Inode × Bytes)
  deriving DecidableEq, Repr

namespace Disk

def ENOTEMPTY : Errno := 39

def EEXIST : Errno := 17

def find (d : Disk) (path : List Str) : Option Node :=
  if path = [] then some .dir else d.nodes.lookup path

/-- Where a path leads from a directory. -/
def walk (d : Disk) : List Str → List Str → Except Errno (List Str × Node)
  | here, [] =>
      match d.find here with
      | some node => .ok (here, node)
      | none => .error ENOENT
  | here, c :: rest =>
      match d.find here with
      | some .dir =>
          if c = [] ∨ c = lit "." then walk d here rest
          else if c = lit ".." then walk d here.dropLast rest
          else walk d (here ++ [c]) rest
      | some (.file _) => .error ENOTDIR
      | none => .error ENOENT

def look (d : Disk) (path : Str) : Except Errno (List Str × Node) := d.walk [] (path.splitOn slash)

def bytes (d : Disk) (inode : Inode) : Bytes := (d.contents.lookup inode).getD []

def statNode (d : Disk) : Node → Stat
  | .dir => ⟨false, true, false, false, 0, 0, 0, 0⟩
  | .file inode => ⟨true, false, false, false, (d.bytes inode).length, 0, 0, 0⟩

def stat (d : Disk) (path : Str) : Except Errno Stat := do
  let (_, node) ← d.look path
  return d.statNode node

/-- The entries of a directory. -/
def scandir (d : Disk) (path : Option Str) : Except Errno (List Entry) := do
  let path := path.getD [slash]
  match ← d.look path with
  | (_, .file _) => throw ENOTDIR
  | (here, .dir) =>
      return d.nodes.filterMap fun (at_, _) =>
        if at_ ≠ [] ∧ at_.dropLast = here then
          at_.getLast?.map fun name => ⟨name, join path name⟩
        else none

def openRead (d : Disk) (path : Str) : Except Errno Inode := do
  match ← d.look path with
  | (_, .file inode) => return inode
  | (_, .dir) => throw EISDIR

/-- A file's contents are replaced. -/
def put (d : Disk) (inode : Inode) (data : Bytes) : Disk :=
  { d with contents := (inode, data) :: d.contents.filter fun e => e.1 != inode }

def freshInode (d : Disk) : Inode := d.contents.foldl (fun n e => max n (e.1 + 1)) 0

/-- The directory of a path and its last component. -/
def parentOf (d : Disk) (path : Str) : Except Errno (List Str × Str) := do
  let comps := path.splitOn slash
  match ← d.walk [] comps.dropLast with
  | (_, .file _) => throw ENOTDIR
  | (here, .dir) => return (here, comps.getLast?.getD [])

def openWrite (d : Disk) (path : Str) (mode : Mode) : Except Errno (Inode × Disk) :=
  match d.look path with
  | .ok (_, .dir) => .error EISDIR
  | .ok (_, .file inode) =>
      if mode = .wb ∨ mode = .wPlus then .ok (inode, d.put inode []) else .ok (inode, d)
  | .error errno =>
      if mode = .rPlus then .error errno
      else do
        let (here, name) ← d.parentOf path
        let created : Disk := { d with nodes := d.nodes ++ [(here ++ [name], .file d.freshInode)] }
        return (d.freshInode, created.put d.freshInode [])

def writeAt (d : Disk) (inode : Inode) (offset : Nat) (data : Bytes) : Disk :=
  d.put inode ((d.bytes inode).splice offset data)

def mkdir (d : Disk) (path : Str) : Except Errno Disk := do
  if (d.look path).isOk then throw EEXIST
  let (here, name) ← d.parentOf path
  return { d with nodes := d.nodes ++ [(here ++ [name], .dir)] }

/-- The missing directories of a path, from the top. -/
def makedirsFrom (d : Disk) (here : List Str) : List Str → Except Errno Unit × Disk
  | [] => (.ok (), d)
  | c :: rest =>
      if c = [] then makedirsFrom d here rest
      else
        match d.find (here ++ [c]) with
        | some .dir => makedirsFrom d (here ++ [c]) rest
        | some (.file _) => (.error (if rest = [] then EEXIST else ENOTDIR), d)
        | none =>
            makedirsFrom { d with nodes := d.nodes ++ [(here ++ [c], .dir)] } (here ++ [c]) rest

def unlink (d : Disk) (path : Str) : Except Errno Disk := do
  match ← d.look path with
  | (_, .dir) => throw EISDIR
  | (here, .file _) => return { d with nodes := d.nodes.filter fun e => e.1 != here }

def rmdir (d : Disk) (path : Str) : Except Errno Disk := do
  match ← d.look path with
  | (_, .file _) => throw ENOTDIR
  | (here, .dir) =>
      if d.nodes.any fun e => e.1 ≠ [] && e.1.dropLast = here then throw ENOTEMPTY
      return { d with nodes := d.nodes.filter fun e => e.1 != here }

end Disk

/-! ## Paths -/

/-- `posixpath.split`. -/
def posixSplit (path : Str) : Str × Str :=
  let name := basename path
  let head := path.take (path.length - name.length)
  let bare := head.rdropWhile (· = slash)
  (if bare = [] then head else bare, name)

/-- `posixpath.splitext`: the last dot, unless only dots stand before it in the name. -/
def posixSplitext (path : Str) : Str × Str :=
  let name := basename path
  let ext := name.rtakeWhile (· ≠ dot)
  let stem := name.take (name.length - ext.length - 1)
  if ext.length = name.length ∨ stem.all (· = dot) then (path, [])
  else (path.take (path.length - ext.length - 1), dot :: ext)

/-- `posixpath.relpath` of normalized absolute paths. -/
def posixRelpath (path start : Str) : Str :=
  let comps := fun p => ((normpath p).splitOn slash).filter fun c => c ≠ []
  let shared := ((comps path).zip (comps start)).takeWhile fun p => p.1 = p.2
  let up := List.replicate ((comps start).length - shared.length) (lit "..")
  let rel := up ++ (comps path).drop shared.length
  if rel = [] then lit "." else joinSlash rel

/-- A code point without a lower case, other than a slash. -/
def caseless (c : CodePoint) : Str := if c = slash then [] else [c]

theorem slash_notMem_caseless (c : CodePoint) : slash ∉ caseless c := by
  unfold caseless
  split
  · exact List.not_mem_nil
  · rename_i h
    exact fun hmem => h (List.mem_singleton.mp hmem).symm

/-- Lower-casing that leaves all but ASCII alone. -/
def asciiCasing : Casing where
  lower _ c _ := caseless c
  digit _ := false
  slash_notMem _ c _ := slash_notMem_caseless c

/-- A host over a disk; its clock stands at the epoch. -/
def diskHost : Host Disk where
  casing := asciiCasing
  sep := slash
  join := join
  split := posixSplit
  splitext := posixSplitext
  abspath := normpath
  relpath := posixRelpath
  realpath _ := normpath
  stat := Disk.stat
  lstat := Disk.stat
  scandir := Disk.scandir
  localtime _ := .ok ⟨0, 0, 0, 1, 1, 1970⟩
  openRead := Disk.openRead
  openWrite := Disk.openWrite
  fstat d inode := .ok (d.statNode (.file inode))
  fileEnd d inode := (d.bytes inode).length
  maxOffset _ _ := MAX_OFFSET
  readAt d inode offset size := .ok ((d.bytes inode).sub offset size)
  seekHole := none
  writeAt d inode offset data := (.ok (), d.writeAt inode offset data)
  hasPread := true
  hasPwrite := true
  pwrite d inode offset data := (.ok data.length, d.writeAt inode offset data)
  mkdir d path _ := d.mkdir path
  makedirs d path := d.makedirsFrom [] (path.splitOn slash)
  unlink := Disk.unlink
  rmdir := Disk.rmdir

end Ps2Servers.Udpfs
