import Ps2Servers.Lib.UrlPath

/-!
# The host of the UDPFS server

What the handlers call: the host's files and paths, the Python file objects over
them, and the resolution of client paths against the served folder.

## Implementation notes

The calls are collected in `Host`, over any type `H` of host states, for a POSIX or
a Windows host alike. A call that only looks is a function of the state. `os.path.exists`
and `os.path.lexists` are `os.stat` and `os.lstat` that did not fail. A file object keeps
its position here; its buffer is left out, which shows only where the same file is written
through another object, or where a flush has failed. Files are regular, so every one can
be sought.
-/

namespace Ps2Servers.Udpfs

open Text

abbrev Errno := UInt16

def ENOENT : Errno := 2

def EIO : Errno := 5

def EBADF : Errno := 9

def EACCES : Errno := 13

def ENOTDIR : Errno := 20

def EISDIR : Errno := 21

def EINVAL : Errno := 22

def EMFILE : Errno := 24

/-- Exceptions, by class. -/
inductive Exn
  | osError (errno : Option Errno)
  /-- `io.UnsupportedOperation`: an `OSError` whose errno is `None`, and a `ValueError`. -/
  | unsupportedOperation
  /-- `ValueError`, and `UnicodeEncodeError` below it. -/
  | valueError
  | typeError
  | structError
  | overflowError
  | memoryError
  | indexError
  | keyError
  | attributeError
  | importError
  /-- The call never returns. -/
  | noReturn
  deriving DecidableEq, Repr

def Exn.isOSError : Exn → Bool
  | osError _ => true
  | unsupportedOperation => true
  | _ => false

def Exn.isValueError : Exn → Bool
  | unsupportedOperation => true
  | valueError => true
  | _ => false

/-- `e.errno`. -/
def Exn.errno : Exn → Option Errno
  | osError n => n
  | _ => none

@[simp] theorem Exn.isOSError_osError (n : Option Errno) : (osError n).isOSError = true := rfl

@[simp] theorem Exn.errno_osError (n : Option Errno) : (osError n).errno = n := rfl

@[simp] theorem Exn.isOSError_structError : structError.isOSError = false := rfl

/-- How a read of a file fails. -/
inductive Fault
  | os (errno : Errno)
  | memory
  deriving DecidableEq, Repr

def Fault.exn : Fault → Exn
  | os errno => .osError (some errno)
  | memory => .memoryError

structure Stat where
  isReg : Bool
  isDir : Bool
  isLnk : Bool
  /-- The reparse tag of a Windows junction. -/
  isMountPoint : Bool
  size : Nat
  ctime : Int
  atime : Int
  mtime : Int
  deriving DecidableEq, Repr

/-- `time.localtime`. -/
structure LocalTime where
  sec : UInt8
  min : UInt8
  hour : UInt8
  mday : UInt8
  mon : UInt8
  year : Int
  deriving DecidableEq, Repr

/-- What `os.scandir` yields. -/
structure Entry where
  name : Str
  path : Str
  deriving DecidableEq, Repr

abbrev Inode := Nat

/-- Modes of `open`. -/
inductive Mode
  | rb
  | rPlus
  | wb
  | wPlus
  | ab
  | aPlus
  deriving DecidableEq, Repr

def Mode.readable : Mode → Bool
  | wb => false
  | ab => false
  | _ => true

def Mode.writable : Mode → Bool
  | rb => false
  | _ => true

def Mode.appends : Mode → Bool
  | ab => true
  | aPlus => true
  | _ => false

/-- The calls on the host. `H` is its state: every file, directory and device. -/
structure Host (H : Type) where
  casing : Casing
  sep : CodePoint
  /-- `os.path.join`, `split`, `splitext`, `abspath` and `relpath`. -/
  join : Str → Str → Str
  split : Str → Str × Str
  splitext : Str → Str × Str
  abspath : Str → Str
  relpath : Str → Str → Str
  realpath : H → Str → Str
  stat : H → Str → Except Errno Stat
  lstat : H → Str → Except Errno Stat
  /-- `os.scandir`; without a path it lists the working directory. -/
  scandir : H → Option Str → Except Errno (List Entry)
  localtime : Int → Except Exn LocalTime
  /-- `open(path, "rb")`. -/
  openRead : H → Str → Except Errno Inode
  /-- `open` in any other mode, which may create or truncate. -/
  openWrite : H → Str → Mode → Except Errno (Inode × H)
  fstat : H → Inode → Except Errno Stat
  /-- The position behind the last byte of a file. -/
  fileEnd : H → Inode → Nat
  /-- The last position that can be sought. -/
  maxOffset : H → Inode → Nat
  /-- The bytes at a position, fewer at the end of the file. -/
  readAt : H → Inode → Nat → Nat → Except Fault Bytes
  /-- `SEEK_DATA` and `SEEK_HOLE`, on hosts that have them. -/
  seekHole : Option (H → Inode → Nat → Int → Except Errno Nat)
  /-- `write` and `flush` at a position. -/
  writeAt : H → Inode → Nat → Bytes → Except Errno Unit × H
  /-- Positional reads and writes of a descriptor: `os.pread` and `os.pwrite`. -/
  hasPread : Bool
  hasPwrite : Bool
  pwrite : H → Inode → Nat → Bytes → Except Errno Nat × H
  mkdir : H → Str → Nat → Except Errno H
  makedirs : H → Str → Except Errno Unit × H
  unlink : H → Str → Except Errno H
  rmdir : H → Str → Except Errno H

/-! ## File objects -/

/-- A file object of `open`. -/
structure PlainFile where
  inode : Inode
  mode : Mode
  pos : Nat
  deriving DecidableEq, Repr

/-- The largest file offset. -/
def MAX_OFFSET : Nat := 0x7fffffffffffffff

section

variable {H : Type} (host : Host H)

/-- Bytes read, or the exception of the call. -/
def orFault : Except Fault Bytes → Except Exn Bytes
  | .ok data => .ok data
  | .error fault => .error fault.exn

/-- `f.read(size)`. -/
def PlainFile.read (h : H) (f : PlainFile) (size : Nat) : Except Exn Bytes × PlainFile :=
  if f.mode.readable then
    match host.readAt h f.inode f.pos size with
    | .ok data => (.ok data, { f with pos := f.pos + data.length })
    | .error fault => (.error fault.exn, f)
  else (.error .unsupportedOperation, f)

/-- Where a seek leads. -/
def PlainFile.target (h : H) (f : PlainFile) (offset : Int) (whence : Nat) : Except Exn Nat :=
  let place := fun (position : Int) =>
    if position < 0 ∨ host.maxOffset h f.inode < position then .error (.osError (some EINVAL))
    else .ok position.toNat
  match whence with
  | 0 => place offset
  | 1 => place (f.pos + offset)
  | 2 => place (host.fileEnd h f.inode + offset)
  | n =>
      match host.seekHole with
      | none => .error .valueError
      | some seekHole =>
          if n = 3 ∨ n = 4 then
            match seekHole h f.inode n offset with
            | .ok position => .ok position
            | .error errno => .error (.osError (some errno))
          else .error .valueError

/-- `f.seek(offset, whence)`. -/
def PlainFile.seek (h : H) (f : PlainFile) (offset : Int) (whence : Nat) :
    Except Exn Nat × PlainFile :=
  match f.target host h offset whence with
  | .ok position => (.ok position, { f with pos := position })
  | .error e => (.error e, f)

/-- `f.write(data)` and `f.flush()`: the number of bytes written. The bytes that a failed flush leaves in
the buffer of the file object are not kept; Python would try them again with the next call. -/
def PlainFile.write (h : H) (f : PlainFile) (data : Bytes) :
    Except Exn Nat × PlainFile × H :=
  if f.mode.writable then
    let offset := if f.mode.appends then host.fileEnd h f.inode else f.pos
    match host.writeAt h f.inode offset data with
    | (.ok (), h') => (.ok data.length, { f with pos := offset + data.length }, h')
    | (.error errno, h') => (.error (.osError (some errno)), f, h')
  else (.error .unsupportedOperation, f, h)

/-- No flush fails, so no buffer holds bytes between two calls. -/
def Host.Flushes : Prop := ∀ h inode offset data, (host.writeAt h inode offset data).1 = .ok ()

/-- `f.seek(offset)` and `f.read(size)` on a reader of the whole file. -/
def readFrom (h : H) (inode : Inode) (offset : Nat) (size : Int) : Except Exn Bytes :=
  if MAX_OFFSET < offset then .error .valueError
  else if host.maxOffset h inode < offset then .error (.osError (some EINVAL))
  else if size < -1 then .error .valueError
  else if size = -1 then orFault (host.readAt h inode offset (host.fileEnd h inode - offset))
  else if MAX_OFFSET < size then .error .overflowError
  else orFault (host.readAt h inode offset size.toNat)

/-! ## Paths -/

def exists_ (h : H) (path : Str) : Bool := (host.stat h path).isOk

def lexists (h : H) (path : Str) : Bool := (host.lstat h path).isOk

def dirname (path : Str) : Str := (host.split path).1

/-- `path.lower().endswith(suffix)`. -/
def lowerEndsWith (path suffix : Str) : Bool := suffix.isSuffixOf (lower host.casing path)

/-- The extension, in lower case. -/
def extension (path : Str) : Str := lower host.casing (host.splitext path).2

def backslash : CodePoint := .char '\\'

/-- `path.replace("\\", "/")`. -/
def forwardSlashes (path : Str) : Str := path.map fun c => if c = backslash then slash else c

/-- The components of a client path that name something. -/
def pathParts (path : Str) : List Str :=
  ((forwardSlashes path).splitOn slash).filter fun p => p ≠ [] && p ≠ lit "."

variable (rootDir : Option Str)

/-- `_resolve_path`. -/
def resolvePath (h : H) (clientPath : Str) : Option Str :=
  match rootDir with
  | none => none
  | some root =>
      let relative := forwardSlashes (clientPath.dropWhile fun c => c = slash || c = backslash)
      let resolved := host.realpath h (host.join root relative)
      let folder := if root.getLast? = some host.sep then root else root ++ [host.sep]
      if !folder.isPrefixOf resolved && resolved ≠ root then none else some resolved

/-- `_resolve_entry`. -/
def resolveEntry (h : H) (clientPath : Str) : Option Str :=
  match rootDir with
  | none => none
  | some root =>
      let parts := pathParts clientPath
      match parts.getLast? with
      | none => some root
      | some name =>
          if name = lit ".." then none
          else
            match resolvePath host rootDir h (joinSlash parts.dropLast) with
            | none => none
            | some parent =>
                let entry := host.join parent name
                if host.abspath entry ≠ entry then none else some entry

/-- The folders of `_through_linked_folder`, looked at one after the other. -/
def anyLinked (h : H) : List Str → Except Errno Bool
  | [] => .ok false
  | folder :: rest =>
      match host.lstat h folder with
      | .error errno => .error errno
      | .ok st => if st.isLnk || st.isMountPoint then .ok true else anyLinked h rest

/-- `_through_linked_folder`. -/
def throughLinkedFolder (h : H) (root clientPath : Str) : Except Errno Bool :=
  let parts := pathParts clientPath
  let depths := (List.range parts.length).drop 1
  anyLinked host h (depths.map fun depth => host.join root (joinSlash (parts.take depth)))

end

end Ps2Servers.Udpfs
