import Ps2Servers.Lib.Effects
import Ps2Servers.Smb2.Enumeration

/-!
# CREATE

How a file or a directory is opened, made or emptied, and what is left of it when the request is refused
all the same.

## Implementation notes

The state is the host and the handle table of the connection. The lookup of the tree is left out: the
share is one on a disk. `Nodes` is what a host shows of its files, by path; a path that `stat` does not
find has no node.
-/

namespace Ps2Servers.Smb2

open Struct (Item)
open Text Effects

/-! ## Handles -/

/-- `Handle`, of a file or a directory. -/
structure Handle (F : Type) where
  fileId : Nat
  share : Share
  path : Path
  rel : Str
  isDir : Bool
  fh : Option F
  deleteOnClose : Bool
  canWrite : Bool
  listing : Option (List Name)
  cursor : Nat
  deriving DecidableEq, Repr

/-- `Connection.handles` with its counter, which is above every id in use. -/
structure Handles (F : Type) where
  next : Nat
  entries : List (Nat × Handle F)
  below : ∀ e ∈ entries, e.1 < next

def Handles.empty {F : Type} : Handles F := ⟨1, [], fun _ he => by cases he⟩

/-- `Connection.add_handle`. The id is new, so that the entry is the last one. -/
def Handles.add {F : Type} (t : Handles F) (handle : Nat → Handle F) : Handles F where
  next := t.next + 1
  entries := t.entries ++ [(t.next, handle t.next)]
  below := by
    intro e he
    rcases List.mem_append.mp he with he | he
    · exact Nat.lt_succ_of_lt (t.below e he)
    · rw [List.mem_singleton.mp he]
      exact Nat.lt_succ_self t.next

/-- A change of the handle with this id. -/
def Handles.update {F : Type} (t : Handles F) (id : Nat) (f : Handle F → Handle F) : Handles F where
  next := t.next
  entries := t.entries.map fun e => if e.1 == id then (e.1, f e.2) else e
  below := by
    intro e he
    obtain ⟨e', he', rfl⟩ := List.mem_map.mp he
    split
    · exact t.below e' he'
    · exact t.below e' he'

@[simp] theorem Handles.length_add {F : Type} (t : Handles F) (handle : Nat → Handle F) :
    (t.add handle).entries.length = t.entries.length + 1 := List.length_append

@[simp] theorem Handles.length_update {F : Type} (t : Handles F) (id : Nat) (f : Handle F → Handle F) :
    (t.update id f).entries.length = t.entries.length := List.length_map _

/-- The host, and the handles of the connection. -/
structure Disk (H F : Type) where
  host : H
  handles : Handles F

/-- A handler. -/
abbrev Serve (H F : Type) := EStateM Exn (Disk H F)

variable {H F : Type} (host : Host H F)

/-- A call on the host that raises an `OSError`. -/
def call {α : Type} (f : H → Except Errno α × H) : Serve H F α := fun s =>
  match f s.host with
  | (.ok a, h) => .ok a { s with host := h }
  | (.error e, h) => .error (.osError e) { s with host := h }

def addHandle (handle : Nat → Handle F) : Serve H F Nat := fun s =>
  .ok s.handles.next { s with handles := s.handles.add handle }

/-- `_writable`. -/
def writable (readOnly : Bool) : Serve H F Unit :=
  if readOnly then throw (.status STATUS_MEDIA_WRITE_PROTECTED) else pure ()

/-! ## Directories that are made -/

def exists? (h : H) (path : Path) : Bool := (host.stat h path).toOption.isSome

def isDir? (h : H) (path : Path) : Bool := (host.stat h path).toOption.any Stat.isDir

/-- `os.mkdir`, where an existing directory will do. -/
def mkdirExisting (h : H) (path : Path) : Except Errno Unit × H :=
  match host.mkdir h path with
  | (.ok (), h) => (.ok (), h)
  | (.error e, h) => if isDir? host h path then (.ok (), h) else (.error e, h)

/-- `os.makedirs(path, exist_ok=True)`, over the components from the last to the first. -/
def makedirs (h : H) : List Name → Except Errno Unit × H
  | [] => mkdirExisting host h []
  | name :: parents =>
      let path := (name :: parents).reverse
      if exists? host h parents.reverse then mkdirExisting host h path
      else
        match makedirs h parents with
        | (.ok (), h) => mkdirExisting host h path
        -- Another process may have made the parent.
        | (.error .eexist, h) => mkdirExisting host h path
        | (.error e, h) => (.error e, h)

/-! ## `h_create` -/

def FILE_SUPERSEDE : Nat := 0

def FILE_OPEN : Nat := 1

def FILE_CREATE : Nat := 2

def FILE_OPEN_IF : Nat := 3

def FILE_OVERWRITE : Nat := 4

def FILE_OVERWRITE_IF : Nat := 5

def FILE_SUPERSEDED : Nat := 0

def FILE_OPENED : Nat := 1

def FILE_CREATED : Nat := 2

def FILE_OVERWRITTEN : Nat := 3

def FILE_DIRECTORY_FILE : Nat := 0x00000001

def FILE_NON_DIRECTORY_FILE : Nat := 0x00000040

def FILE_DELETE_ON_CLOSE : Nat := 0x00001000

def ACCESS_WRITE_ANY : Nat := 0x52000006

/-- What a CREATE asks for. -/
structure Open where
  disposition : Nat
  wantDir : Bool
  wantFile : Bool
  deleteOnClose : Bool
  canWrite : Bool

/-- The fields of a CREATE. -/
def openOf (body : Bytes) : Open :=
  let options := body.field 40 4
  ⟨body.field 36 4, options &&& FILE_DIRECTORY_FILE != 0, options &&& FILE_NON_DIRECTORY_FILE != 0,
    options &&& FILE_DELETE_ON_CLOSE != 0, body.field 24 4 &&& ACCESS_WRITE_ANY != 0⟩

/-- What `h_create` does to the path before it looks at it: the action. -/
def prepare (readOnly : Bool) (path : Path) (o : Open) : Serve H F Nat := do
  let s ← get
  let found := exists? host s.host path
  if o.disposition = FILE_OPEN ∧ found = false then throw (.status STATUS_OBJECT_NAME_NOT_FOUND)
  else if o.disposition = FILE_CREATE ∧ found then throw (.status STATUS_OBJECT_NAME_COLLISION)
  else if found = false then
    writable readOnly
    if o.wantDir then
      call fun h => makedirs host h path.reverse
      return FILE_CREATED
    else if [FILE_CREATE, FILE_OPEN_IF, FILE_OVERWRITE_IF, FILE_SUPERSEDE].contains o.disposition then
      call fun h => host.create h path
      return FILE_CREATED
    else throw (.status STATUS_OBJECT_NAME_NOT_FOUND)
  else if [FILE_OVERWRITE, FILE_OVERWRITE_IF, FILE_SUPERSEDE].contains o.disposition ∧
      isDir? host s.host path = false then
    writable readOnly
    call fun h => host.create h path
    return FILE_OVERWRITTEN
  else return FILE_OPENED

/-- The reply of `h_create`. -/
def createItems (action : Nat) (st : Stat) (readOnly : Bool) (fileId : Nat) : List Item :=
  [.H 89, .B 0, .B 0, .I action, .Q st.ctime, .Q st.atime, .Q st.mtime, .Q st.mtime,
    .q (allocationOf st), .q st.size, .I (attributesFor st readOnly), .I 0, .Q fileId, .Q fileId, .I 0, .I 0]

/-- `struct.pack` of a reply. -/
def packed (items : List Item) : Serve H F Bytes :=
  match Struct.pack items with
  | none => throw .other
  | some reply => return reply

/-- The handle of a CREATE. -/
def newHandle (share : Share) (path : Path) (rel : Str) (o : Open) (st : Stat) (id : Nat) : Handle F :=
  ⟨id, share, path, rel, st.isDir, none, false, o.canWrite, none, 0⟩

def setDeleteOnClose (handle : Handle F) : Handle F := { handle with deleteOnClose := true }

/-- The end of `h_create`: a handle, and the reply. -/
def register (share : Share) (readOnly : Bool) (path : Path) (rel : Str) (o : Open) (action : Nat)
    (st : Stat) : Serve H F Bytes := do
  let fileId ← addHandle (newHandle share path rel o st)
  if o.deleteOnClose then
    writable readOnly
    modify fun s => { s with handles := s.handles.update fileId setDeleteOnClose }
  packed (createItems action st readOnly fileId)

/-- What `h_create` does with the path that it resolved. -/
def openPath (share : Share) (readOnly : Bool) (path : Path) (rel : Str) (o : Open) : Serve H F Bytes := do
  let action ← prepare host readOnly path o
  let st ← call fun h => (host.stat h path, h)
  if st.isDir ∧ o.wantFile then throw (.status STATUS_FILE_IS_A_DIRECTORY)
  else if st.isDir = false ∧ o.wantDir then throw (.status STATUS_NOT_A_DIRECTORY)
  else register share readOnly path rel o action st

/-- `h_create`, on a share on a disk. -/
def hCreate (serverReadOnly : Bool) (share : Share) (body : Bytes) : Serve H F Bytes := do
  if body.length < 56 then throw (.status STATUS_INVALID_PARAMETER)
  else
    match requestBuffer body (body.field 44 2) (body.field 46 2) (HEADER_SIZE + 56) with
    | none => throw (.status STATUS_INVALID_PARAMETER)
    | some raw =>
        let rel := decodeUtf16 raw
        let s ← get
        match share.resolve host s.host rel with
        | .error status => throw (.status status)
        | .ok path => openPath host share (serverReadOnly || share.readOnly) path rel (openOf body)

/-! ## What a host shows of its files -/

inductive Node
  | dir
  | file (content : Bytes)
  deriving DecidableEq, Repr

/-- Files and directories by path, and what the calls of CREATE do to them. -/
structure Nodes (host : Host H F) where
  node : H → Path → Option Node
  stat_dir : ∀ h p st, host.stat h p = .ok st → st.isDir = true → node h p = some .dir
  stat_file : ∀ h p st, host.stat h p = .ok st → st.isDir = false → ∃ content, node h p = some (.file content)
  stat_error : ∀ h p e, host.stat h p = .error e → node h p = none
  create_ok : ∀ h p, (host.create h p).1 = .ok () → node (host.create h p).2 p = some (.file [])
  /-- Emptying a file that is empty changes nothing. -/
  create_same : ∀ h p, node h p = some (.file []) → node (host.create h p).2 = node h
  create_error : ∀ h p e, (host.create h p).1 = .error e → node (host.create h p).2 = node h
  mkdir_ok : ∀ h p, (host.mkdir h p).1 = .ok () → node (host.mkdir h p).2 p = some .dir

/-! ## What a CREATE promises -/

/-- The outcome that the disposition prescribes, for what was there and what is there now. -/
def Prescribed (o : Open) (before after : Option Node) (action : Nat) : Prop :=
  match before with
  | none => match o.disposition with
      | 0 | 2 | 3 | 5 => after = some (if o.wantDir then .dir else .file []) ∧ action = FILE_CREATED
      | 1 | 4 => False
      | _ => True
  | some .dir => match o.disposition with
      | 0 | 1 | 3 | 4 | 5 => after = some .dir ∧ action = FILE_OPENED
      | 2 => False
      | _ => True
  | some (.file content) => match o.disposition with
      | 0 => after = some (.file []) ∧ action = FILE_SUPERSEDED
      | 1 | 3 => after = some (.file content) ∧ action = FILE_OPENED
      | 2 => False
      | 4 | 5 => after = some (.file []) ∧ action = FILE_OVERWRITTEN
      | _ => True

/-- The path that a request names, if it is well-formed and the path is inside the share. -/
def pathOf (h : H) (share : Share) (body : Bytes) : Option Path :=
  if body.length < 56 then none
  else (requestBuffer body (body.field 44 2) (body.field 46 2) (HEADER_SIZE + 56)).bind fun raw =>
    (share.resolve host h (decodeUtf16 raw)).toOption

/-- A refused CREATE leaves all as it was, and one that succeeds does what is prescribed. -/
def Atomic {host : Host H F} (nodes : Nodes host) (serverReadOnly : Bool) (share : Share) (body : Bytes)
    (s : Disk H F) : Prop :=
  match hCreate host serverReadOnly share body s with
  | .error _ s' => nodes.node s'.host = nodes.node s.host ∧ s'.handles.entries = s.handles.entries
  | .ok reply s' => ∃ path, pathOf host s.host share body = some path ∧
      Prescribed (openOf body) (nodes.node s.host path) (nodes.node s'.host path) (reply.field 4 4)

/-! ## When it keeps the promise -/

/-- What a CREATE does to its path. -/
inductive Plan
  | refuse
  | keep
  | empty
  | makeFile
  | makeDir
  deriving DecidableEq, Repr

/-- The plan for a path that was found or not, and is a directory or not. -/
def plan (found dir readOnly : Bool) (o : Open) : Plan :=
  if o.disposition = FILE_OPEN ∧ found = false then .refuse
  else if o.disposition = FILE_CREATE ∧ found then .refuse
  else if found = false then
    if readOnly then .refuse
    else if o.wantDir then .makeDir
    else if [FILE_CREATE, FILE_OPEN_IF, FILE_OVERWRITE_IF, FILE_SUPERSEDE].contains o.disposition then
      .makeFile
    else .refuse
  else if [FILE_OVERWRITE, FILE_OVERWRITE_IF, FILE_SUPERSEDE].contains o.disposition ∧ dir = false then
    if readOnly then .refuse else .empty
  else .keep

/-- The attributes that the reply carries fit their fields. -/
def Reported (host : Host H F) (h : H) (path : Path) (fileId : Nat) : Prop :=
  ∀ st, host.stat h path = .ok st → st.ctime < 2 ^ 64 ∧ st.atime < 2 ^ 64 ∧ st.mtime < 2 ^ 64 ∧
    allocationOf st < 2 ^ 63 ∧ fileId < 2 ^ 64

/-- The condition on a CREATE of this path, by what it does. -/
def Harmless {host : Host H F} (nodes : Nodes host) (readOnly : Bool) (path : Path) (o : Open)
    (s : Disk H F) : Prop :=
  match plan (exists? host s.host path) (isDir? host s.host path) readOnly o with
  | .refuse => True
  | .keep =>
      -- A file for a directory, or the other way round, is refused before anything was done.
      (if isDir? host s.host path then o.wantFile else o.wantDir) = true ∨
        (o.deleteOnClose = true → readOnly = false) ∧ Reported host s.host path s.handles.next
  | .empty =>
      (host.create s.host path).1 ≠ .ok () ∨
        if o.wantDir then nodes.node s.host path = some (.file [])
        else o.disposition ≠ FILE_SUPERSEDE ∧
          Reported host (host.create s.host path).2 path s.handles.next
  | .makeFile =>
      (host.create s.host path).1 ≠ .ok () ∨
        Reported host (host.create s.host path).2 path s.handles.next
  | .makeDir =>
      if (makedirs host s.host path.reverse).1 = .ok () then
        o.wantFile = false ∧ o.disposition ≠ FILE_OVERWRITE ∧
          Reported host (makedirs host s.host path.reverse).2 path s.handles.next
      else nodes.node (makedirs host s.host path.reverse).2 = nodes.node s.host

variable {host}

theorem call_ok {α : Type} {f : H → Except Errno α × H} {s : Disk H F} {a : α}
    (h : (f s.host).1 = .ok a) : call f s = .ok a { s with host := (f s.host).2 } := by
  unfold call
  generalize f s.host = r at h ⊢
  obtain ⟨r, h'⟩ := r
  cases h
  rfl

theorem call_error {α : Type} {f : H → Except Errno α × H} {s : Disk H F} {e : Errno}
    (h : (f s.host).1 = .error e) : call f s = .error (.osError e) { s with host := (f s.host).2 } := by
  unfold call
  generalize f s.host = r at h ⊢
  obtain ⟨r, h'⟩ := r
  cases h
  rfl

/-- A call on the host, and a value to return. -/
def step {α : Type} (f : H → Except Errno Unit × H) (a : α) : Serve H F α := do
  call f
  return a

/-- What `prepare` does, by the plan. -/
theorem prepare_cases (readOnly : Bool) (path : Path) (o : Open) (s : Disk H F) :
    (plan (exists? host s.host path) (isDir? host s.host path) readOnly o = .refuse ∧
      ∃ e, prepare host readOnly path o s = .error e s) ∨
    (plan (exists? host s.host path) (isDir? host s.host path) readOnly o = .keep ∧
      exists? host s.host path = true ∧ o.disposition ≠ FILE_CREATE ∧
      (isDir? host s.host path = false →
        [FILE_OVERWRITE, FILE_OVERWRITE_IF, FILE_SUPERSEDE].contains o.disposition = false) ∧
      prepare host readOnly path o s = .ok FILE_OPENED s) ∨
    (plan (exists? host s.host path) (isDir? host s.host path) readOnly o = .empty ∧
      exists? host s.host path = true ∧ isDir? host s.host path = false ∧ readOnly = false ∧
      [FILE_OVERWRITE, FILE_OVERWRITE_IF, FILE_SUPERSEDE].contains o.disposition = true ∧
      prepare host readOnly path o s = step (fun h => host.create h path) FILE_OVERWRITTEN s) ∨
    (plan (exists? host s.host path) (isDir? host s.host path) readOnly o = .makeFile ∧
      exists? host s.host path = false ∧ readOnly = false ∧ o.wantDir = false ∧
      [FILE_CREATE, FILE_OPEN_IF, FILE_OVERWRITE_IF, FILE_SUPERSEDE].contains o.disposition = true ∧
      prepare host readOnly path o s = step (fun h => host.create h path) FILE_CREATED s) ∨
    (plan (exists? host s.host path) (isDir? host s.host path) readOnly o = .makeDir ∧
      exists? host s.host path = false ∧ readOnly = false ∧ o.wantDir = true ∧
      o.disposition ≠ FILE_OPEN ∧
      prepare host readOnly path o s = step (fun h => makedirs host h path.reverse) FILE_CREATED s) := by
  unfold prepare plan
  rw [get_bind]
  generalize isDir? host s.host path = dir
  generalize exists? host s.host path = found
  by_cases hopen : o.disposition = FILE_OPEN ∧ found = false
  · left
    rw [if_pos hopen, if_pos hopen]
    exact ⟨rfl, _, rfl⟩
  rw [if_neg hopen, if_neg hopen]
  by_cases hcreate : o.disposition = FILE_CREATE ∧ found = true
  · left
    rw [if_pos hcreate, if_pos hcreate]
    exact ⟨rfl, _, rfl⟩
  rw [if_neg hcreate, if_neg hcreate]
  by_cases hfound : found = false
  · rw [if_pos hfound, if_pos hfound]
    cases readOnly with
    | true =>
        left
        exact ⟨rfl, _, rfl⟩
    | false =>
        by_cases hdir : o.wantDir = true
        · right; right; right; right
          rw [if_pos hdir, if_neg Bool.false_ne_true]
          refine ⟨rfl, hfound, rfl, hdir, fun h => hopen ⟨h, hfound⟩, ?_⟩
          rw [if_pos hdir]
          rfl
        · rw [if_neg hdir, if_neg Bool.false_ne_true]
          by_cases hfile : [FILE_CREATE, FILE_OPEN_IF, FILE_OVERWRITE_IF, FILE_SUPERSEDE].contains
              o.disposition = true
          · right; right; right; left
            rw [if_pos hfile]
            refine ⟨rfl, hfound, rfl, by simpa using hdir, hfile, ?_⟩
            rw [if_neg hdir, if_pos hfile]
            rfl
          · left
            rw [if_neg hfile, if_neg hdir, if_neg hfile]
            exact ⟨rfl, _, rfl⟩
  · have hfound' : found = true := by simpa using hfound
    rw [if_neg hfound, if_neg hfound]
    by_cases hempty : [FILE_OVERWRITE, FILE_OVERWRITE_IF, FILE_SUPERSEDE].contains o.disposition = true ∧
        dir = false
    · rw [if_pos hempty, if_pos hempty]
      cases readOnly with
      | true =>
          left
          exact ⟨rfl, _, rfl⟩
      | false =>
          right; right; left
          exact ⟨rfl, hfound', hempty.2, rfl, hempty.1, rfl⟩
    · right; left
      rw [if_neg hempty, if_neg hempty]
      refine ⟨rfl, hfound', fun h => hcreate ⟨h, hfound'⟩, fun hdir => ?_, rfl⟩
      exact Bool.eq_false_iff.mpr fun h => hempty ⟨h, hdir⟩

theorem createItems_fits_iff {action : Nat} (haction : action < 2 ^ 32) (st : Stat) (readOnly : Bool)
    (fileId : Nat) : (createItems action st readOnly fileId).all Item.fits = true ↔
      st.ctime < 2 ^ 64 ∧ st.atime < 2 ^ 64 ∧ st.mtime < 2 ^ 64 ∧ allocationOf st < 2 ^ 63 ∧
        fileId < 2 ^ 64 := by
  have hattributes := attributesFor_lt st readOnly
  have hsize := size_le_allocationOf st
  simp only [createItems, List.all_cons, List.all_nil, Item.fits, Bool.and_true, Bool.and_eq_true,
    decide_eq_true_eq]
  omega

/-- The action stands behind three items of the reply. -/
theorem field_reply {action : Nat} (haction : action < 2 ^ 32) (st : Stat) (readOnly : Bool) (fileId : Nat) :
    Bytes.field ((createItems action st readOnly fileId).flatMap Item.bytes) 4 4 = action := by
  have hfield := Struct.field_flatMap [.H 89, .B 0, .B 0] haction
    ((createItems action st readOnly fileId).drop 4) []
  rw [List.append_nil] at hfield
  exact hfield

theorem packed_ok {items : List Item} (h : items.all Item.fits = true) (s : Disk H F) :
    packed items s = .ok (items.flatMap Item.bytes) s := by
  rw [packed, Struct.pack_eq_some.mpr ⟨h, rfl⟩]
  rfl

theorem packed_error {items : List Item} (h : ¬ items.all Item.fits = true) (s : Disk H F) :
    packed items s = .error .other s := by
  have hnone : Struct.pack items = none := if_neg h
  rw [packed, hnone]
  rfl

variable {share : Share} {readOnly : Bool} {path : Path} {rel : Str} {o : Open} {t : Disk H F}
  {action : Nat} {st : Stat}

/-- With a handle, and the delete flag where it is allowed, only the reply is left. -/
theorem register_eq (hdelete : o.deleteOnClose = true → readOnly = false) :
    ∃ t', register share readOnly path rel o action st t =
        packed (createItems action st readOnly t.handles.next) t' ∧
      t'.host = t.host ∧ t'.handles.entries.length = t.handles.entries.length + 1 := by
  unfold register
  cases hclose : o.deleteOnClose with
  | false => exact ⟨{ t with handles := t.handles.add (newHandle share path rel o st) }, rfl, rfl,
      Handles.length_add _ _⟩
  | true =>
      rw [hdelete hclose]
      refine ⟨⟨t.host, (t.handles.add (newHandle share path rel o st)).update t.handles.next
        setDeleteOnClose⟩, rfl, rfl, ?_⟩
      rw [Handles.length_update, Handles.length_add]

theorem register_ok (hdelete : o.deleteOnClose = true → readOnly = false)
    (hfits : (createItems action st readOnly t.handles.next).all Item.fits = true) :
    ∃ t', register share readOnly path rel o action st t =
      .ok ((createItems action st readOnly t.handles.next).flatMap Item.bytes) t' ∧ t'.host = t.host := by
  obtain ⟨t', hregister, hhost, -⟩ := @register_eq _ _ share readOnly path rel o t action st hdelete
  exact ⟨t', hregister.trans (packed_ok hfits t'), hhost⟩

/-- What fails here fails behind a new handle. -/
theorem register_error (hnot : ¬ ((o.deleteOnClose = true → readOnly = false) ∧
      (createItems action st readOnly t.handles.next).all Item.fits = true)) :
    ∃ e t', register share readOnly path rel o action st t = .error e t' ∧
      t'.handles.entries.length = t.handles.entries.length + 1 := by
  by_cases hdelete : o.deleteOnClose = true → readOnly = false
  · obtain ⟨t', hregister, -, hlength⟩ := @register_eq _ _ share readOnly path rel o t action st hdelete
    exact ⟨.other, t', hregister.trans (packed_error (fun h => hnot ⟨hdelete, h⟩) t'), hlength⟩
  · rw [Classical.not_imp, Bool.not_eq_false] at hdelete
    refine ⟨.status STATUS_MEDIA_WRITE_PROTECTED,
      { t with handles := t.handles.add (newHandle share path rel o st) }, ?_, Handles.length_add _ _⟩
    unfold register
    rw [hdelete.1, hdelete.2]
    rfl

/-- The look at the path, after it was prepared: a refusal that changes nothing more, or a new handle,
and with it an error or a reply that tells the action. -/
theorem openPath_cases {s : Disk H F} (hprepare : prepare host readOnly path o s = .ok action t)
    (haction : action < 2 ^ 32) (hstat : host.stat t.host path = .ok st) :
    ((if st.isDir then o.wantFile else o.wantDir) = true ∧
      ∃ e, openPath host share readOnly path rel o s = .error e t) ∨
    (if st.isDir then o.wantFile else o.wantDir) = false ∧
      ((((o.deleteOnClose = true → readOnly = false) ∧ Reported host t.host path t.handles.next) ∧
        ∃ reply t', openPath host share readOnly path rel o s = .ok reply t' ∧ t'.host = t.host ∧
          reply.field 4 4 = action) ∨
      (¬ ((o.deleteOnClose = true → readOnly = false) ∧ Reported host t.host path t.handles.next) ∧
        ∃ e t', openPath host share readOnly path rel o s = .error e t' ∧
          t'.handles.entries.length = t.handles.entries.length + 1)) := by
  have hcall : call (fun h => (host.stat h path, h)) t = .ok st t := call_ok hstat
  have hreported : Reported host t.host path t.handles.next ↔
      (createItems action st readOnly t.handles.next).all Item.fits = true := by
    rw [createItems_fits_iff haction]
    constructor
    · exact fun h => h st hstat
    · intro h st' hst'
      rw [hstat] at hst'
      cases hst'
      exact h
  unfold openPath
  rw [bind_ok hprepare, bind_ok hcall]
  by_cases hclash : (if st.isDir then o.wantFile else o.wantDir) = true
  · left
    refine ⟨hclash, ?_⟩
    cases hdir : st.isDir with
    | true =>
        rw [hdir, if_pos rfl] at hclash
        rw [if_pos ⟨rfl, hclash⟩]
        exact ⟨_, rfl⟩
    | false =>
        rw [hdir, if_neg Bool.false_ne_true] at hclash
        rw [if_neg (fun h => Bool.false_ne_true h.1), if_pos ⟨rfl, hclash⟩]
        exact ⟨_, rfl⟩
  · right
    refine ⟨by simpa using hclash, ?_⟩
    have hfile : ¬ (st.isDir = true ∧ o.wantFile = true) := by
      rintro ⟨hdir, hwant⟩
      rw [hdir, if_pos rfl] at hclash
      exact hclash hwant
    have hdir : ¬ (st.isDir = false ∧ o.wantDir = true) := by
      rintro ⟨hdir, hwant⟩
      rw [hdir, if_neg Bool.false_ne_true] at hclash
      exact hclash hwant
    rw [if_neg hfile, if_neg hdir, hreported]
    by_cases hboth : (o.deleteOnClose = true → readOnly = false) ∧
        (createItems action st readOnly t.handles.next).all Item.fits = true
    · obtain ⟨t', hregister, hhost⟩ :=
        @register_ok _ _ share readOnly path rel o t action st hboth.1 hboth.2
      exact Or.inl ⟨hboth, _, t', hregister, hhost, field_reply haction st readOnly t.handles.next⟩
    · exact Or.inr ⟨hboth, register_error hboth⟩

/-! ## The nodes -/

variable (nodes : Nodes host)

theorem stat_of_exists {h : H} (hfound : exists? host h path = true) :
    ∃ st, host.stat h path = .ok st ∧ isDir? host h path = st.isDir := by
  unfold exists? at hfound
  unfold isDir?
  cases hstat : host.stat h path with
  | error e =>
      rw [hstat] at hfound
      cases hfound
  | ok st => exact ⟨st, rfl, rfl⟩

theorem node_of_not_exists {h : H} (hfound : exists? host h path = false) :
    nodes.node h path = none := by
  unfold exists? at hfound
  cases hstat : host.stat h path with
  | error e => exact nodes.stat_error h path e hstat
  | ok st =>
      rw [hstat] at hfound
      cases hfound

theorem stat_of_node {h : H} {n : Node} (hnode : nodes.node h path = some n) :
    ∃ st, host.stat h path = .ok st ∧ (st.isDir = true ↔ n = .dir) := by
  cases hstat : host.stat h path with
  | error e =>
      rw [nodes.stat_error h path e hstat] at hnode
      cases hnode
  | ok st =>
      refine ⟨st, rfl, ?_⟩
      cases hdir : st.isDir with
      | true =>
          rw [nodes.stat_dir h path st hstat hdir] at hnode
          cases hnode
          exact iff_of_true rfl rfl
      | false =>
          obtain ⟨content, hfile⟩ := nodes.stat_file h path st hstat hdir
          rw [hfile] at hnode
          cases hnode
          exact iff_of_false Bool.false_ne_true Node.noConfusion

theorem node_of_isDir {h : H} (hdir : isDir? host h path = true) : nodes.node h path = some .dir := by
  unfold isDir? at hdir
  cases hstat : host.stat h path with
  | error e =>
      rw [hstat] at hdir
      cases hdir
  | ok st =>
      rw [hstat] at hdir
      exact nodes.stat_dir h path st hstat hdir

theorem mkdirExisting_ok {h : H} (hok : (mkdirExisting host h path).1 = .ok ()) :
    nodes.node (mkdirExisting host h path).2 path = some .dir := by
  have hmade := nodes.mkdir_ok h path
  unfold mkdirExisting at hok ⊢
  generalize host.mkdir h path = result at hok hmade ⊢
  obtain ⟨_ | ⟨⟨⟩⟩, h'⟩ := result
  · dsimp only at hok ⊢
    split at hok
    · rename_i hdir
      rw [if_pos hdir]
      exact node_of_isDir nodes hdir
    · cases hok
  · exact hmade rfl

theorem makedirs_ok {h : H} (names : List Name) (hok : (makedirs host h names).1 = .ok ()) :
    nodes.node (makedirs host h names).2 names.reverse = some .dir := by
  cases names with
  | nil => exact mkdirExisting_ok nodes hok
  | cons name parents =>
      rw [makedirs] at hok ⊢
      split at hok
      · rename_i hfound
        rw [if_pos hfound]
        exact mkdirExisting_ok nodes hok
      · rename_i hfound
        rw [if_neg hfound]
        generalize makedirs host h parents = result at hok ⊢
        obtain ⟨_ | ⟨⟨⟩⟩, h'⟩ := result
        · rename_i e
          cases e with
          | eexist => exact mkdirExisting_ok nodes hok
          | _ => cases hok
        · exact mkdirExisting_ok nodes hok

theorem step_ok {f : H → Except Errno Unit × H} {s : Disk H F} {a : Nat} (h : (f s.host).1 = .ok ()) :
    step f a s = .ok a { s with host := (f s.host).2 } := by
  rw [step, bind_ok (call_ok h)]
  rfl

theorem step_error {f : H → Except Errno Unit × H} {s : Disk H F} {a : Nat} {e : Errno}
    (h : (f s.host).1 = .error e) :
    step f a s = .error (.osError e) { s with host := (f s.host).2 } := by
  rw [step, bind_error (call_error h)]

/-! ## One path -/

/-- `Atomic`, of a path that was resolved. -/
def AtomicAt (share : Share) (readOnly : Bool) (path : Path) (rel : Str) (o : Open) (s : Disk H F) : Prop :=
  match openPath host share readOnly path rel o s with
  | .error _ s' => nodes.node s'.host = nodes.node s.host ∧ s'.handles.entries = s.handles.entries
  | .ok reply s' =>
      Prescribed o (nodes.node s.host path) (nodes.node s'.host path) (reply.field 4 4)

variable {nodes} {s : Disk H F}

theorem atomicAt_error {e : Exn} {s' : Disk H F}
    (h : openPath host share readOnly path rel o s = .error e s') :
    AtomicAt nodes share readOnly path rel o s ↔
      nodes.node s'.host = nodes.node s.host ∧ s'.handles.entries = s.handles.entries := by
  rw [AtomicAt, h]

theorem atomicAt_ok {reply : Bytes} {s' : Disk H F}
    (h : openPath host share readOnly path rel o s = .ok reply s') :
    AtomicAt nodes share readOnly path rel o s ↔
      Prescribed o (nodes.node s.host path) (nodes.node s'.host path) (reply.field 4 4) := by
  rw [AtomicAt, h]

/-- An error of `prepare` is the error of the request. -/
theorem openPath_prepare_error {e : Exn} {s' : Disk H F} (h : prepare host readOnly path o s = .error e s') :
    openPath host share readOnly path rel o s = .error e s' := bind_error h

/-- What is left to tell once the path was prepared, whose handles are the same. -/
theorem atomicAt_prepared (hprepare : prepare host readOnly path o s = .ok action t)
    (haction : action < 2 ^ 32) (hstat : host.stat t.host path = .ok st)
    (hhandles : t.handles = s.handles) :
    AtomicAt nodes share readOnly path rel o s ↔
      if (if st.isDir then o.wantFile else o.wantDir) = true then
        nodes.node t.host = nodes.node s.host
      else ((o.deleteOnClose = true → readOnly = false) ∧ Reported host t.host path s.handles.next) ∧
        Prescribed o (nodes.node s.host path) (nodes.node t.host path) action := by
  rw [← hhandles]
  rcases @openPath_cases _ _ host share readOnly path rel o t action st s hprepare haction hstat with
    ⟨hclash, e, herror⟩ | ⟨hclash, ⟨hboth, reply, t', hok, hhost, hreply⟩ | ⟨hnot, e, t', herror, hlength⟩⟩
  · rw [if_pos hclash, atomicAt_error herror, hhandles]
    exact and_iff_left rfl
  · rw [if_neg (by rw [hclash]; decide), atomicAt_ok hok, hhost, hreply]
    exact (and_iff_right hboth).symm
  · rw [if_neg (by rw [hclash]; decide), atomicAt_error herror]
    refine iff_of_false (fun h => ?_) fun h => hnot h.1
    rw [h.2, hhandles] at hlength
    exact absurd hlength (Nat.ne_of_lt (Nat.lt_succ_self _))

theorem prescribed_keep (hcreate : o.disposition ≠ FILE_CREATE) {n : Node}
    (hover : n ≠ .dir → [FILE_OVERWRITE, FILE_OVERWRITE_IF, FILE_SUPERSEDE].contains o.disposition = false) :
    Prescribed o (some n) (some n) FILE_OPENED := by
  unfold Prescribed
  generalize o.disposition = d at hcreate hover ⊢
  cases n with
  | dir =>
      dsimp only
      split
      all_goals first | exact ⟨rfl, rfl⟩ | exact hcreate rfl | trivial
  | file content =>
      have hnot := hover Node.noConfusion
      dsimp only
      split
      · exact absurd hnot (by decide)
      · exact ⟨rfl, rfl⟩
      · exact ⟨rfl, rfl⟩
      · exact hcreate rfl
      · exact absurd hnot (by decide)
      · exact absurd hnot (by decide)
      · trivial

theorem prescribed_empty_iff
    (hover : [FILE_OVERWRITE, FILE_OVERWRITE_IF, FILE_SUPERSEDE].contains o.disposition = true)
    (content : Bytes) :
    Prescribed o (some (.file content)) (some (.file [])) FILE_OVERWRITTEN ↔
      o.disposition ≠ FILE_SUPERSEDE := by
  unfold Prescribed
  simp only [List.contains_iff_mem, List.mem_cons, List.not_mem_nil, or_false] at hover
  rcases hover with h | h | h
  · rw [h]
    exact iff_of_true ⟨rfl, rfl⟩ (by decide)
  · rw [h]
    exact iff_of_true ⟨rfl, rfl⟩ (by decide)
  · rw [h]
    exact iff_of_false (fun h => by cases h.2) fun h => h rfl

theorem prescribed_makeFile (hdir : o.wantDir = false)
    (hmake : [FILE_CREATE, FILE_OPEN_IF, FILE_OVERWRITE_IF, FILE_SUPERSEDE].contains o.disposition = true) :
    Prescribed o none (some (.file [])) FILE_CREATED := by
  unfold Prescribed
  rw [hdir]
  simp only [List.contains_iff_mem, List.mem_cons, List.not_mem_nil, or_false] at hmake
  rcases hmake with h | h | h | h
  all_goals
    rw [h]
    exact ⟨rfl, rfl⟩

theorem prescribed_makeDir_iff (hdir : o.wantDir = true) (hopen : o.disposition ≠ FILE_OPEN) :
    Prescribed o none (some .dir) FILE_CREATED ↔ o.disposition ≠ FILE_OVERWRITE := by
  unfold Prescribed
  rw [hdir]
  generalize o.disposition = d at hopen ⊢
  dsimp only
  split
  · exact iff_of_true ⟨rfl, rfl⟩ (by decide)
  · exact iff_of_true ⟨rfl, rfl⟩ (by decide)
  · exact iff_of_true ⟨rfl, rfl⟩ (by decide)
  · exact iff_of_true ⟨rfl, rfl⟩ (by decide)
  · exact absurd rfl hopen
  · exact iff_of_false id fun h => h rfl
  · rename_i h4 h5
    exact iff_of_true trivial h5

theorem atomicAt_keep (hfound : exists? host s.host path = true) (hcreate : o.disposition ≠ FILE_CREATE)
    (hover : isDir? host s.host path = false →
      [FILE_OVERWRITE, FILE_OVERWRITE_IF, FILE_SUPERSEDE].contains o.disposition = false)
    (hprepare : prepare host readOnly path o s = .ok FILE_OPENED s) :
    AtomicAt nodes share readOnly path rel o s ↔
      (if isDir? host s.host path then o.wantFile else o.wantDir) = true ∨
        (o.deleteOnClose = true → readOnly = false) ∧ Reported host s.host path s.handles.next := by
  obtain ⟨st, hstat, hdir⟩ := stat_of_exists hfound
  rw [atomicAt_prepared hprepare (by decide) hstat rfl, hdir]
  have hprescribed : Prescribed o (nodes.node s.host path) (nodes.node s.host path) FILE_OPENED := by
    cases hst : st.isDir with
    | true =>
        rw [nodes.stat_dir s.host path st hstat hst]
        exact prescribed_keep hcreate fun h => absurd rfl h
    | false =>
        obtain ⟨content, hfile⟩ := nodes.stat_file s.host path st hstat hst
        rw [hfile]
        exact prescribed_keep hcreate fun _ => hover (hdir.trans hst)
  by_cases hclash : (if st.isDir then o.wantFile else o.wantDir) = true
  · rw [if_pos hclash]
    exact iff_of_true rfl (Or.inl hclash)
  · rw [if_neg hclash, or_iff_right hclash]
    exact and_iff_left hprescribed

/-- The host is asked for a new or empty file. -/
theorem atomicAt_create (haction : action < 2 ^ 32)
    (hprepare : prepare host false path o s = step (fun h => host.create h path) action s) :
    AtomicAt nodes share false path rel o s ↔
      (host.create s.host path).1 ≠ .ok () ∨
        if o.wantDir = true then nodes.node (host.create s.host path).2 = nodes.node s.host
        else Reported host (host.create s.host path).2 path s.handles.next ∧
          Prescribed o (nodes.node s.host path) (some (.file [])) action := by
  cases hcreate : (host.create s.host path).1 with
  | error e =>
      have herror : openPath host share false path rel o s =
          .error (.osError e) { s with host := (host.create s.host path).2 } :=
        openPath_prepare_error (hprepare.trans (step_error hcreate))
      rw [atomicAt_error herror]
      exact iff_of_true ⟨nodes.create_error _ _ e hcreate, rfl⟩ (Or.inl fun h => by cases h)
  | ok u =>
      have hnode := nodes.create_ok s.host path hcreate
      obtain ⟨st', hstat', hdir'⟩ := stat_of_node nodes hnode
      have hnot : st'.isDir = false := Bool.eq_false_iff.mpr fun h => by cases hdir'.mp h
      rw [atomicAt_prepared (hprepare.trans (step_ok hcreate)) haction hstat' rfl, hnot,
        if_neg Bool.false_ne_true, or_iff_right (fun h => h rfl), hnode]
      split
      · rfl
      · exact and_congr_left fun _ => and_iff_right fun _ => rfl

theorem atomicAt_empty (hfound : exists? host s.host path = true)
    (hdir : isDir? host s.host path = false)
    (hover : [FILE_OVERWRITE, FILE_OVERWRITE_IF, FILE_SUPERSEDE].contains o.disposition = true)
    (hprepare : prepare host false path o s = step (fun h => host.create h path) FILE_OVERWRITTEN s) :
    AtomicAt nodes share false path rel o s ↔
      (host.create s.host path).1 ≠ .ok () ∨
        if o.wantDir then nodes.node s.host path = some (.file [])
        else o.disposition ≠ FILE_SUPERSEDE ∧
          Reported host (host.create s.host path).2 path s.handles.next := by
  obtain ⟨st, hstat, hst⟩ := stat_of_exists hfound
  obtain ⟨content, hfile⟩ := nodes.stat_file s.host path st hstat (hst.symm.trans hdir)
  refine (atomicAt_create (by decide) hprepare).trans (or_congr_right' fun hmade => ?_)
  have hnode := nodes.create_ok s.host path (not_not.mp hmade)
  rw [hfile, prescribed_empty_iff hover]
  split
  · constructor
    · intro hsame
      have hat := congrFun hsame path
      rw [hnode, hfile] at hat
      exact hat.symm
    · intro hempty
      exact nodes.create_same s.host path (hfile.trans hempty)
  · exact and_comm

theorem atomicAt_makeFile (hfound : exists? host s.host path = false) (hdir : o.wantDir = false)
    (hmake : [FILE_CREATE, FILE_OPEN_IF, FILE_OVERWRITE_IF, FILE_SUPERSEDE].contains o.disposition = true)
    (hprepare : prepare host false path o s = step (fun h => host.create h path) FILE_CREATED s) :
    AtomicAt nodes share false path rel o s ↔
      (host.create s.host path).1 ≠ .ok () ∨
        Reported host (host.create s.host path).2 path s.handles.next := by
  have hnone := node_of_not_exists nodes hfound
  rw [atomicAt_create (by decide) hprepare, hdir, if_neg Bool.false_ne_true, hnone,
    and_iff_left (prescribed_makeFile hdir hmake)]

theorem atomicAt_makeDir (hfound : exists? host s.host path = false) (hdir : o.wantDir = true)
    (hopen : o.disposition ≠ FILE_OPEN)
    (hprepare : prepare host false path o s =
      step (fun h => makedirs host h path.reverse) FILE_CREATED s) :
    AtomicAt nodes share false path rel o s ↔
      if (makedirs host s.host path.reverse).1 = .ok () then
        o.wantFile = false ∧ o.disposition ≠ FILE_OVERWRITE ∧
          Reported host (makedirs host s.host path.reverse).2 path s.handles.next
      else nodes.node (makedirs host s.host path.reverse).2 = nodes.node s.host := by
  have hnone := node_of_not_exists nodes hfound
  cases hmake : (makedirs host s.host path.reverse).1 with
  | error e =>
      have herror : openPath host share false path rel o s =
          .error (.osError e) { s with host := (makedirs host s.host path.reverse).2 } :=
        openPath_prepare_error (hprepare.trans (step_error hmake))
      rw [atomicAt_error herror, if_neg (fun h => by cases h)]
      exact and_iff_left rfl
  | ok u =>
      have hnode := makedirs_ok nodes path.reverse hmake
      rw [List.reverse_reverse] at hnode
      obtain ⟨st', hstat', hdir'⟩ := stat_of_node nodes hnode
      rw [atomicAt_prepared (hprepare.trans (step_ok hmake)) (by decide) hstat' rfl, hdir'.mpr rfl,
        if_pos rfl, if_pos rfl, hnode, hnone, prescribed_makeDir_iff hdir hopen]
      by_cases hwant : o.wantFile = true
      · rw [if_pos hwant, hwant]
        refine iff_of_false (fun hsame => ?_) fun h => Bool.false_ne_true h.1.symm
        have hat := congrFun hsame path
        rw [hnode, hnone] at hat
        cases hat
      · rw [if_neg hwant]
        constructor
        · exact fun h => ⟨Bool.eq_false_iff.mpr hwant, h.2, h.1.2⟩
        · exact fun h => ⟨⟨fun _ => rfl, h.2.2⟩, h.2.1⟩

theorem atomicAt_iff :
    AtomicAt nodes share readOnly path rel o s ↔ Harmless nodes readOnly path o s := by
  unfold Harmless
  rcases @prepare_cases _ _ host readOnly path o s with ⟨hplan, e, hprepare⟩ |
    ⟨hplan, hfound, hcreate, hover, hprepare⟩ | ⟨hplan, hfound, hdir, rfl, hover, hprepare⟩ |
    ⟨hplan, hfound, rfl, hdir, hmake, hprepare⟩ | ⟨hplan, hfound, rfl, hdir, hopen, hprepare⟩
  · rw [hplan, atomicAt_error (openPath_prepare_error hprepare)]
    exact iff_of_true ⟨rfl, rfl⟩ trivial
  · rw [hplan]
    exact atomicAt_keep hfound hcreate hover hprepare
  · rw [hplan]
    exact atomicAt_empty hfound hdir hover hprepare
  · rw [hplan]
    exact atomicAt_makeFile hfound hdir hmake hprepare
  · rw [hplan]
    exact atomicAt_makeDir hfound hdir hopen hprepare

/-- A CREATE keeps its promise, exactly if what it does to the path that it names is harmless. -/
theorem atomic_iff (serverReadOnly : Bool) (share : Share) (body : Bytes) (s : Disk H F) :
    Atomic nodes serverReadOnly share body s ↔
      ∀ path, pathOf host s.host share body = some path →
        Harmless nodes (serverReadOnly || share.readOnly) path (openOf body) s := by
  unfold Atomic hCreate pathOf
  by_cases hshort : body.length < 56
  · rw [if_pos hshort, if_pos hshort]
    exact iff_of_true ⟨rfl, rfl⟩ fun path h => by cases h
  rw [if_neg hshort, if_neg hshort]
  cases hname : requestBuffer body (body.field 44 2) (body.field 46 2) (HEADER_SIZE + 56) with
  | none => exact iff_of_true ⟨rfl, rfl⟩ fun path h => by cases h
  | some raw =>
      dsimp only
      rw [get_bind, Option.bind_some]
      cases hresolve : share.resolve host s.host (decodeUtf16 raw) with
      | error status => exact iff_of_true ⟨rfl, rfl⟩ fun path h => by cases h
      | ok path =>
          have hat := @atomicAt_iff _ _ host share (serverReadOnly || share.readOnly) path
            (decodeUtf16 raw) (openOf body) nodes s
          unfold AtomicAt at hat
          have hpath : (Except.ok path : Except Status Path).toOption = some path := rfl
          rw [hpath]
          change _ ↔ ∀ p, some path = some p → _
          dsimp only
          generalize openPath host share (serverReadOnly || share.readOnly) path (decodeUtf16 raw) (openOf body)
            s = result at hat ⊢
          cases result with
          | error e s' => exact ⟨fun h p hp => by cases hp; exact hat.mp h, fun h => hat.mpr (h path rfl)⟩
          | ok reply s' =>
              constructor
              · rintro ⟨p, hp, hprescribed⟩ q hq
                cases hp
                cases hq
                exact hat.mp hprescribed
              · exact fun h => ⟨path, rfl, hat.mpr (h path rfl)⟩

/-! ## A host in memory -/

/-- A file system without links, and without times. -/
abbrev Tree := Path → Option Node

def Tree.put (tree : Tree) (path : Path) (node : Node) : Tree := fun p =>
  if p = path then some node else tree p

def Tree.stat (tree : Tree) (path : Path) : Except Errno Stat :=
  match tree path with
  | none => .error .enoent
  | some .dir => .ok ⟨true, 0, 0, 0, 0, 0, 0⟩
  | some (.file content) => .ok ⟨false, content.length, 0, 0, 0, 0, 0⟩

def Tree.create (tree : Tree) (path : Path) : Except Errno Unit × Tree :=
  if tree path = some .dir then (.error .eisdir, tree)
  else if tree path.dropLast = some .dir then (.ok (), tree.put path (.file []))
  else (.error .enoent, tree)

def Tree.mkdir (tree : Tree) (path : Path) : Except Errno Unit × Tree :=
  if (tree path).isSome then (.error .eexist, tree)
  else if tree path.dropLast = some .dir then (.ok (), tree.put path .dir)
  else (.error .enoent, tree)

/-- The tree as a host, where files are made and emptied only. -/
def treeHost : Host Tree Unit where
  letters := ⟨List.map CodePoint.asciiUpper, List.map CodePoint.asciiLower, List.map CodePoint.asciiLower⟩
  fnmatch name pattern := name == pattern
  realpath _ p := p
  stat := Tree.stat
  listdir _ _ := .ok []
  create := Tree.create
  mkdir := Tree.mkdir
  remove h _ := (.error .eacces, h)
  rmdir h _ := (.error .eacces, h)
  replace h _ _ := (.error .eacces, h)
  openFile _ _ _ := .error .eacces
  read h f _ _ := (.error (.osError .eacces), f, h)
  write h f _ _ := (.error (.osError .eacces), f, h)
  truncate h f _ := (.error (.osError .eacces), f, h)
  flush h f := (.ok (), f, h)
  close h _ := h
  volume _ _ := ⟨0, 0, 1⟩
  now _ := 0
  realpath_realpath _ _ := rfl
  realpath_create _ _ h := h
  realpath_mkdir _ _ _ _ := rfl
  realpath_close _ _ _ := rfl

theorem Tree.put_same (tree : Tree) (path : Path) (node : Node) : tree.put path node path = some node :=
  if_pos rfl

theorem Tree.create_cases (tree : Tree) (path : Path) :
    (∃ e, tree.create path = (.error e, tree)) ∨ tree.create path = (.ok (), tree.put path (.file [])) := by
  unfold Tree.create
  split
  · exact Or.inl ⟨_, rfl⟩
  · split
    · exact Or.inr rfl
    · exact Or.inl ⟨_, rfl⟩

theorem Tree.mkdir_cases (tree : Tree) (path : Path) :
    (∃ e, tree.mkdir path = (.error e, tree)) ∨ tree.mkdir path = (.ok (), tree.put path .dir) := by
  unfold Tree.mkdir
  split
  · exact Or.inl ⟨_, rfl⟩
  · split
    · exact Or.inr rfl
    · exact Or.inl ⟨_, rfl⟩

/-- The tree shows its nodes. -/
def treeNodes : Nodes treeHost where
  node tree := tree
  stat_dir := by
    intro tree p st hstat hdir
    change Tree.stat tree p = .ok st at hstat
    unfold Tree.stat at hstat
    split at hstat
    · cases hstat
    · assumption
    · cases hstat
      cases hdir
  stat_file := by
    intro tree p st hstat hdir
    change Tree.stat tree p = .ok st at hstat
    unfold Tree.stat at hstat
    split at hstat
    · cases hstat
    · cases hstat
      cases hdir
    · exact ⟨_, by assumption⟩
  stat_error := by
    intro tree p e hstat
    change Tree.stat tree p = .error e at hstat
    unfold Tree.stat at hstat
    split at hstat
    · assumption
    · cases hstat
    · cases hstat
  create_ok := by
    intro tree p hok
    change (Tree.create tree p).1 = .ok () at hok
    change (Tree.create tree p).2 p = _
    rcases Tree.create_cases tree p with ⟨e, h⟩ | h
    · rw [h] at hok
      cases hok
    · rw [h]
      exact Tree.put_same tree p _
  create_same := by
    intro tree p hempty
    change (Tree.create tree p).2 = tree
    rcases Tree.create_cases tree p with ⟨e, h⟩ | h
    · rw [h]
    · rw [h]
      funext q
      change (if q = p then some (Node.file []) else tree q) = tree q
      split
      · rename_i hq
        rw [hq, hempty]
      · rfl
  create_error := by
    intro tree p e herror
    change (Tree.create tree p).1 = .error e at herror
    change (Tree.create tree p).2 = tree
    rcases Tree.create_cases tree p with ⟨e', h⟩ | h
    · rw [h]
    · rw [h] at herror
      cases herror
  mkdir_ok := by
    intro tree p hok
    change (Tree.mkdir tree p).1 = .ok () at hok
    change (Tree.mkdir tree p).2 p = _
    rcases Tree.mkdir_cases tree p with ⟨e, h⟩ | h
    · rw [h] at hok
      cases hok
    · rw [h]
      exact Tree.put_same tree p _

/-- A directory that holds one game. -/
def oneGame : Tree := Tree.put (Tree.put (fun _ => none) [] .dir) [lit "G"] (.file [0x50, 0x53, 0x32])

/-- A CREATE of `G` that overwrites, as a directory. -/
def overwriteAsDirectory : Bytes :=
  [57, 0, 0, 0] ++ List.replicate 20 0 ++ [0x81, 0, 0, 0] ++ List.replicate 8 0 ++ [5, 0, 0, 0] ++
    [1, 0, 0, 0] ++ [120, 0, 2, 0] ++ List.replicate 8 0 ++ [0x47, 0]

/-- The request is refused, and the game is empty. -/
theorem game_emptied :
    ∃ s', hCreate treeHost false ⟨lit "games", [], false⟩ overwriteAsDirectory ⟨oneGame, Handles.empty⟩ =
        .error (.status STATUS_NOT_A_DIRECTORY) s' ∧
      oneGame [lit "G"] = some (.file [0x50, 0x53, 0x32]) ∧ s'.host [lit "G"] = some (.file []) ∧
      ¬ Atomic treeNodes false ⟨lit "games", [], false⟩ overwriteAsDirectory ⟨oneGame, Handles.empty⟩ := by
  have hrefused : hCreate treeHost false ⟨lit "games", [], false⟩ overwriteAsDirectory
      ⟨oneGame, Handles.empty⟩ = .error (.status STATUS_NOT_A_DIRECTORY)
        ⟨(Tree.create oneGame [lit "G"]).2, Handles.empty⟩ := rfl
  refine ⟨⟨(Tree.create oneGame [lit "G"]).2, Handles.empty⟩, hrefused, rfl, rfl, fun h => ?_⟩
  unfold Atomic at h
  rw [hrefused] at h
  have hgame : some (Node.file []) = some (Node.file [0x50, 0x53, 0x32]) := congrFun h.1 [lit "G"]
  cases hgame

end Ps2Servers.Smb2
