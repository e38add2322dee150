import Ps2Servers.Lib.Splice
import Ps2Servers.Smb2.Rules

/-!
# A host in memory

A host whose files are a function from paths to nodes. What it shows of a path that is apart from all
shares that may be changed is a rule that its calls keep.
-/

namespace Ps2Servers.Smb2

open Text Effects

/-- A file of a host in memory that is open, and whether for reading only. -/
abbrev Opened := Path × Bool

/-- A call on a file that is there, or on a directory. -/
def Tree.drop (tree : Tree) (path : Path) (node : Node → Bool) : Except Errno Unit × Tree :=
  match tree path with
  | none => (.error .enoent, tree)
  | some found =>
      if node found then (.ok (), fun p => if p = path then none else tree p) else (.error .eacces, tree)

def Tree.replace (tree : Tree) (path dest : Path) : Except Errno Unit × Tree :=
  match tree path with
  | none => (.error .enoent, tree)
  | some node => (.ok (), fun p => if p = dest then some node else if p = path then none else tree p)

/-- A change of the content of a file that is open for writing. -/
def Tree.change {α : Type} (tree : Tree) (fh : Opened) (f : Bytes → Bytes) (a : α) :
    Except Exn α × Opened × Tree :=
  match tree fh.1 with
  | some (.file content) =>
      if fh.2 then (.error .other, fh, tree) else (.ok a, fh, tree.put fh.1 (.file (f content)))
  | _ => (.error .other, fh, tree)

/-- The tree as a host whose files are written, too. -/
def memoryHost : Host Tree Opened where
  letters := treeHost.letters
  fnmatch := treeHost.fnmatch
  realpath _ p := p
  stat := Tree.stat
  listdir := treeHost.listdir
  create := Tree.create
  mkdir := Tree.mkdir
  remove tree path := tree.drop path (· != .dir)
  rmdir tree path := tree.drop path (· == .dir)
  replace := Tree.replace
  openFile tree path forWriting :=
    match tree path with
    | some (.file _) => .ok (path, !forWriting)
    | _ => .error .enoent
  read tree fh offset length :=
    match tree fh.1 with
    | some (.file content) => (.ok ((content.drop offset).take length), fh, tree)
    | _ => (.error .other, fh, tree)
  write tree fh offset data := tree.change fh (Bytes.splice · offset data) data.length
  truncate tree fh size := tree.change fh (·.take size.toNat) ()
  flush tree fh := (.ok (), fh, tree)
  close tree _ := tree
  volume _ _ := ⟨0, 0, 1⟩
  now _ := 0
  realpath_realpath _ _ := rfl
  realpath_create _ _ h := h
  realpath_mkdir _ _ _ _ := rfl
  realpath_close _ _ _ := rfl

/-- A server of shares on a host in memory. -/
def memoryService (readOnly : Bool) (shares : List (Name × Share)) : Service Tree Opened where
  host := memoryHost
  reading := Prod.snd
  readOnly := readOnly
  shares := shares
  rows := []

theorem Tree.change_other {α : Type} {tree : Tree} {fh : Opened} {f : Bytes → Bytes} {a : α} {path : Path}
    (hpath : path ≠ fh.1) : (tree.change fh f a).2.2 path = tree path := by
  unfold Tree.change
  split
  · split
    · rfl
    · exact if_neg hpath
  · rfl

theorem Tree.change_file {α : Type} (tree : Tree) (fh : Opened) (f : Bytes → Bytes) (a : α) :
    (tree.change fh f a).2.1 = fh := by
  unfold Tree.change
  split
  · split
    · rfl
    · rfl
  · rfl

theorem Tree.drop_other {tree : Tree} {path p : Path} {node : Node → Bool} (hp : p ≠ path) :
    (tree.drop path node).2 p = tree p := by
  unfold Tree.drop
  split
  · rfl
  · split
    · exact if_neg hp
    · rfl

theorem Tree.put_other {tree : Tree} {path p : Path} {node : Node} (hp : p ≠ path) :
    tree.put path node p = tree p := if_neg hp

theorem Tree.replace_other {tree : Tree} {path dest p : Path} (hpath : p ≠ path) (hdest : p ≠ dest) :
    (tree.replace path dest).2 p = tree p := by
  unfold Tree.replace
  split
  · rfl
  · exact (if_neg hdest).trans (if_neg hpath)

theorem Tree.create_other {tree : Tree} {path p : Path} (hp : p ≠ path) : (tree.create path).2 p = tree p := by
  rcases Tree.create_cases tree path with ⟨e, h⟩ | h
  · rw [h]
  · rw [h]
    exact Tree.put_other hp

theorem Tree.mkdir_other {tree : Tree} {path p : Path} (hp : p ≠ path) : (tree.mkdir path).2 p = tree p := by
  rcases Tree.mkdir_cases tree path with ⟨e, h⟩ | h
  · rw [h]
  · rw [h]
    exact Tree.put_other hp

theorem memory_open {tree : Tree} {path : Path} {forWriting : Bool} {fh : Opened}
    (h : memoryHost.openFile tree path forWriting = .ok fh) : fh = (path, !forWriting) := by
  unfold memoryHost at h
  dsimp only at h
  split at h
  · cases h
    rfl
  · cases h

theorem memory_read (tree : Tree) (fh : Opened) (offset length : Nat) :
    (memoryHost.read tree fh offset length).2 = (fh, tree) := by
  unfold memoryHost
  dsimp only
  split
  · rfl
  · rfl

/-- A path that is apart from the shares that may be changed keeps its node. -/
theorem memory_sound {readOnly : Bool} {shares : List (Name × Share)} {tree change : Share → Prop}
    {path : Path} (hpath : ∀ share, change share → ¬ share.root <+: path ∧ ¬ path <+: share.root)
    (node : Option Node) :
    (Rule.mk (fun h => h path = node)
      (fun fh => fh.2 = false → ∃ share, change share ∧ share.root <+: fh.1) tree change).Sound
        (memoryService readOnly shares) := by
  have hother : ∀ {share : Share} {p : Path}, change share → share.root <+: p → path ≠ p := by
    rintro share p hshare hroot rfl
    exact (hpath share hshare).1 hroot
  have hchange : ∀ {α : Type} {h : Tree} {fh : Opened} (f : Bytes → Bytes) (a : α), h path = node →
      (fh.2 = false → ∃ share, change share ∧ share.root <+: fh.1) → fh.2 = false →
      ((h.change fh f a).2.1.2 = false → ∃ share, change share ∧ share.root <+: (h.change fh f a).2.1.1) ∧
        (h.change fh f a).2.2 path = node := by
    intro α h fh f a hh hfh hwrite
    obtain ⟨share, hshare, hroot⟩ := hfh hwrite
    rw [Tree.change_file]
    exact ⟨hfh, (Tree.change_other (hother hshare hroot)).trans hh⟩
  constructor
  case openRead =>
    intro h share p fh _ _ _ hfh
    cases memory_open hfh
    exact fun h => (by cases h)
  case openWrite =>
    intro h share p fh _ hshare hroot hfh
    cases memory_open hfh
    exact ⟨fun _ => ⟨share, hshare, hroot⟩, rfl⟩
  case read =>
    intro h fh offset length hh hfh
    have hread : ((memoryService readOnly shares).host.read h fh offset length).2 = (fh, h) :=
      memory_read h fh offset length
    rw [hread]
    exact ⟨hfh, hh⟩
  case flush => exact fun hh hfh => ⟨hfh, hh⟩
  case close => exact fun hh _ => hh
  case write => exact fun offset data => hchange _ _
  case truncate => exact fun size => hchange _ _
  case create => exact fun hh hshare hroot => (Tree.create_other (hother hshare hroot)).trans hh
  case mkdir =>
    intro h share dir p hh hshare hroot hp
    refine (Tree.mkdir_other ?_).trans hh
    rintro rfl
    -- Two prefixes of one path.
    rcases List.prefix_or_prefix_of_prefix hroot hp with h | h
    · exact (hpath share hshare).1 h
    · exact (hpath share hshare).2 h
  case remove => exact fun hh hshare hroot => (Tree.drop_other (hother hshare hroot)).trans hh
  case rmdir => exact fun hh hshare hroot => (Tree.drop_other (hother hshare hroot)).trans hh
  case replace =>
    exact fun hh hshare hroot hdest =>
      (Tree.replace_other (hother hshare hroot) (hother hshare hdest)).trans hh

/-! ## Clients -/

/-- A server that lets in who logs on. -/
def openAccess : Env ShareTree Unit where
  ceiling := DIALECT_302
  hmacSha256 _ message := message
  aesCmac _ message := message
  kdf key := key
  buildChallenge challenge _ _ := NTLMSSP_SIGNATURE ++ challenge
  trim token := token
  prove _ _ _ _ := .unproved
  shareNamed _ := none
  serve _ tables _ _ _ := (.of STATUS_NOT_SUPPORTED, tables)

/-- One request, without a signature. -/
def ask (command : Command) (treeId : Nat) (body : Bytes) : Event :=
  .input (.request ⟨⟨0, command, 1, 0, 0, 0, treeId, 0⟩, [], body⟩ (Bytes.ofNat 16 5))

/-- A SESSION_SETUP with a bare NTLM message. -/
def setupWith (kind : Nat) : Event :=
  ask .sessionSetup 0 (Bytes.ofNat 12 25 ++ Bytes.ofNat 2 88 ++ Bytes.ofNat 2 12 ++ Bytes.ofNat 8 0 ++
    NTLMSSP_SIGNATURE ++ Bytes.ofNat 4 kind)

/-- A TREE_CONNECT of `G`. -/
def connectG : Event := ask .treeConnect 0 (Bytes.ofNat 4 9 ++ Bytes.ofNat 2 72 ++ Bytes.ofNat 2 2 ++ [0x47, 0])

/-- A CREATE of `S` for writing, with a disposition. -/
def createS (disposition : Nat) : Event :=
  ask .create 1 (Bytes.ofNat 24 57 ++ Bytes.ofNat 4 6 ++ Bytes.ofNat 8 0 ++ Bytes.ofNat 4 disposition ++
    Bytes.ofNat 4 0 ++ Bytes.ofNat 2 120 ++ Bytes.ofNat 2 2 ++ Bytes.ofNat 8 0 ++ [0x53, 0])

/-- A WRITE of one byte through the first handle. -/
def writeOne : Event :=
  ask .write 1 (Bytes.ofNat 2 49 ++ Bytes.ofNat 2 112 ++ Bytes.ofNat 4 1 ++ Bytes.ofNat 8 0 ++ Bytes.ofNat 8 1 ++
    Bytes.ofNat 8 1 ++ Bytes.ofNat 16 0 ++ [0x2a])

/-- A share next to a directory that is none. -/
def gamesShare : Share := ⟨lit "G", [lit "games"], false⟩

def memoryTree : Tree :=
  Tree.put (Tree.put (Tree.put (fun _ => none) [] .dir) [lit "games"] .dir) [lit "private"] (.file [0x70])

def saving : List Event := [setupWith 1, setupWith 3, connectG, createS FILE_CREATE, writeOne]

end Ps2Servers.Smb2
