import Ps2Servers.Lib.Text
import Ps2Servers.Smb2.Wire

/-!
# The host and the shares of the SMB2 server

The calls the server makes on its host, and how a client path becomes a real path
below the root of a share.

## Implementation notes

The calls are collected in `Host`, over any type `H` of host states and any type `F`
of file objects. A path is absolute and is the list of its components, with the
drive as the first where there are drives; so `os.path.join` appends a component,
and `os.path.commonpath` compares whole components. Times are FILETIMEs, as
`to_filetime` makes them. The laws are what the calls are documented to do to
symbolic links: `realpath` leads to a path without any, and no call turns a path
without links into one with links except `os.replace`.
-/

namespace Ps2Servers.Smb2

open Text

abbrev Name := Str

abbrev Path := List Name

def NUL : CodePoint := .char (Char.ofNat 0)

inductive Errno
  | enoent
  | eperm
  | eacces
  | eexist
  | eisdir
  | enotdir
  | enospc
  | enotempty
  | other (code : Nat)
  deriving DecidableEq, Repr

/-- Exceptions, as far as `_dispatch` tells them apart. -/
inductive Exn
  /-- `Smb2Error`, `PathError` and `AuthError`, which know their status. -/
  | status (code : Status)
  | osError (errno : Errno)
  | other
  deriving DecidableEq, Repr

/-- `_status_for_oserror`. -/
def statusForOserror : Errno → Status
  | .enoent => STATUS_OBJECT_NAME_NOT_FOUND
  | .eacces => STATUS_ACCESS_DENIED
  | .eperm => STATUS_ACCESS_DENIED
  | .eexist => STATUS_OBJECT_NAME_COLLISION
  | .eisdir => STATUS_FILE_IS_A_DIRECTORY
  | .enotdir => STATUS_NOT_A_DIRECTORY
  | .enospc => STATUS_DISK_FULL
  | .enotempty => STATUS_DIRECTORY_NOT_EMPTY
  | .other _ => STATUS_INVALID_PARAMETER

/-- The `except` clauses of `_dispatch`. -/
def Exn.toStatus : Exn → Status
  | .status code => code
  | .osError errno => statusForOserror errno
  | .other => STATUS_INVALID_PARAMETER

/-- `os.stat`. -/
structure Stat where
  isDir : Bool
  size : Nat
  ctime : Nat
  atime : Nat
  mtime : Nat
  dev : Nat
  ino : Nat
  deriving DecidableEq, Repr

/-- What `fs_info` asks of a file system. -/
structure Volume where
  total : Nat
  free : Nat
  sectorsPerUnit : Nat
  deriving DecidableEq, Repr

/-- `str.upper`, `str.lower` and `str.casefold`. -/
structure Letters where
  upper : Str → Str
  lower : Str → Str
  casefold : Str → Str

/-- The calls on the host. -/
structure Host (H F : Type) where
  letters : Letters
  /-- `fnmatch.fnmatch`. -/
  fnmatch : Str → Str → Bool
  realpath : H → Path → Path
  stat : H → Path → Except Errno Stat
  listdir : H → Path → Except Errno (List Name)
  /-- `open(path, "wb")`, closed at once. -/
  create : H → Path → Except Errno Unit × H
  mkdir : H → Path → Except Errno Unit × H
  remove : H → Path → Except Errno Unit × H
  rmdir : H → Path → Except Errno Unit × H
  replace : H → Path → Path → Except Errno Unit × H
  /-- `open(path, "r+b")`, or `"rb"`. -/
  openFile : H → Path → Bool → Except Errno F
  /-- `fh.seek(offset)` and `fh.read(length)`. The seek writes what is still in the buffer. -/
  read : H → F → Nat → Nat → Except Exn Bytes × F × H
  /-- `fh.seek(offset)`, `fh.write(data)` and `fh.flush()`: the number of bytes written. -/
  write : H → F → Nat → Bytes → Except Exn Nat × F × H
  /-- `fh.truncate(size)`. -/
  truncate : H → F → Int → Except Exn Unit × F × H
  /-- `fh.flush()` and `os.fsync`. -/
  flush : H → F → Except Exn Unit × F × H
  /-- `fh.close()`, which writes what is still in the buffer. -/
  close : H → F → H
  volume : H → Path → Volume
  /-- `to_filetime(time.time())`. -/
  now : H → UInt64
  realpath_realpath : ∀ h p, realpath h (realpath h p) = realpath h p
  realpath_create : ∀ h p, realpath h p = p → realpath (create h p).2 p = p
  realpath_mkdir : ∀ h p q, realpath h q = q → realpath (mkdir h q).2 p = realpath h p
  realpath_close : ∀ h f p, realpath (close h f) p = realpath h p

/-! ## Shares -/

structure Share where
  name : Name
  /-- A real path. -/
  root : Path
  readOnly : Bool
  deriving DecidableEq, Repr

def MAX_COMPONENT : Nat := 255

def MAX_PATH_CHARS : Nat := 4096

def backslash : CodePoint := .char '\\'

/-- `_RESERVED_DEVICE_NAMES`. -/
def reservedDeviceNames : List Name :=
  ["CON", "PRN", "AUX", "NUL", "CLOCK$", "COM1", "COM2", "COM3", "COM4", "COM5", "COM6", "COM7",
    "COM8", "COM9", "LPT1", "LPT2", "LPT3", "LPT4", "LPT5", "LPT6", "LPT7", "LPT8", "LPT9"].map lit

/-- `_ILLEGAL`, with the stream separator. -/
def illegal (c : CodePoint) : Bool := c.toNat < 32 || (lit "<>:\"|?*").contains c

/-- The status `resolve` refuses a component with. -/
def refusal (letters : Letters) (part : Name) : Option Status :=
  if part = lit ".." then some STATUS_OBJECT_PATH_SYNTAX_BAD
  else if MAX_COMPONENT < part.length ∨ part.any illegal ∨
      reservedDeviceNames.contains (letters.upper (part.takeWhile (· ≠ dot))) ∨
      part.getLast? = some dot ∨ part.getLast? = some (.char ' ') then
    some STATUS_OBJECT_NAME_INVALID
  else none

/-- `Share._inside`. -/
def Share.inside (share : Share) (real : Path) : Bool := share.root.isPrefixOf real

def slashes (path : Str) : Str := path.map fun c => if c = backslash then slash else c

/-- The components of a client path that name something. -/
def components (path : Str) : List Name :=
  ((slashes path).splitOn slash).filter fun part => part ≠ [] && part ≠ lit "."

/-- `Share.resolve`: the real path, or the status of the refusal. -/
def Share.resolve {H F : Type} (host : Host H F) (h : H) (share : Share) (clientPath : Str) :
    Except Status Path :=
  if MAX_PATH_CHARS < clientPath.length then .error STATUS_OBJECT_NAME_INVALID
  else if (lit "//").isPrefixOf (slashes clientPath) then .error STATUS_OBJECT_PATH_SYNTAX_BAD
  else
    match (components clientPath).findSome? (refusal host.letters) with
    | some status => .error status
    | none =>
        let real := host.realpath h (share.root ++ components clientPath)
        if share.inside real then .ok real else .error STATUS_ACCESS_DENIED

/-- What is resolved is a real path inside the share. -/
theorem Share.resolve_eq_ok {H F : Type} {host : Host H F} {h : H} {share : Share}
    {clientPath : Str} {path : Path} (hp : share.resolve host h clientPath = .ok path) :
    share.root <+: path ∧ host.realpath h path = path := by
  unfold Share.resolve at hp
  split at hp
  · cases hp
  · split at hp
    · cases hp
    · split at hp
      · cases hp
      · dsimp only at hp
        split at hp
        · rename_i hinside
          cases hp
          exact ⟨List.isPrefixOf_iff_prefix.mp hinside, host.realpath_realpath h _⟩
        · cases hp

end Ps2Servers.Smb2
