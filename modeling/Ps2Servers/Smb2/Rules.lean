import Ps2Servers.Lib.Tables
import Ps2Servers.Smb2.Serving

/-!
# What a connection does to its host

Which calls on the host a run makes: those that read, on any share that is connected, and those that
change something, on shares where this is allowed. What all of these keep is kept by the run.

## Implementation notes

The check for writing looks at the share of the tree that a request names, and the file comes from a
handle, which may be one of another share. So a rule says apart on which shares handles may stand and
which of them may be changed, and a request has to be `Fair` for the second to follow from the check.
-/

namespace Ps2Servers.Smb2

open Struct (Item)
open Text Effects

/-- A property of the host and of the file objects, with the shares that may be connected and those
that may be changed. -/
structure Rule (H F : Type) where
  host : H → Prop
  file : F → Prop
  tree : Share → Prop
  change : Share → Prop

variable {H F : Type} (svc : Service H F) (R : Rule H F)

/-- The calls on the host that are allowed keep what the rule says. -/
structure Rule.Sound : Prop where
  openRead : ∀ {h share path fh}, R.host h → R.tree share → share.root <+: path →
    svc.host.openFile h path false = .ok fh → R.file fh
  read : ∀ {h fh} (offset length), R.host h → R.file fh →
    R.file (svc.host.read h fh offset length).2.1 ∧ R.host (svc.host.read h fh offset length).2.2
  flush : ∀ {h fh}, R.host h → R.file fh →
    R.file (svc.host.flush h fh).2.1 ∧ R.host (svc.host.flush h fh).2.2
  close : ∀ {h fh}, R.host h → R.file fh → R.host (svc.host.close h fh)
  openWrite : ∀ {h share path fh}, R.host h → R.change share → share.root <+: path →
    svc.host.openFile h path true = .ok fh → R.file fh ∧ svc.reading fh = false
  write : ∀ {h fh} (offset data), R.host h → R.file fh → svc.reading fh = false →
    R.file (svc.host.write h fh offset data).2.1 ∧ R.host (svc.host.write h fh offset data).2.2
  truncate : ∀ {h fh} (size), R.host h → R.file fh → svc.reading fh = false →
    R.file (svc.host.truncate h fh size).2.1 ∧ R.host (svc.host.truncate h fh size).2.2
  create : ∀ {h share path}, R.host h → R.change share → share.root <+: path →
    R.host (svc.host.create h path).2
  /-- `os.makedirs` makes the directories above a path, too. -/
  mkdir : ∀ {h share path p}, R.host h → R.change share → share.root <+: path → p <+: path →
    R.host (svc.host.mkdir h p).2
  remove : ∀ {h share path}, R.host h → R.change share → share.root <+: path →
    R.host (svc.host.remove h path).2
  rmdir : ∀ {h share path}, R.host h → R.change share → share.root <+: path →
    R.host (svc.host.rmdir h path).2
  replace : ∀ {h share path dest}, R.host h → R.change share → share.root <+: path →
    share.root <+: dest → R.host (svc.host.replace h path dest).2

/-- A handle that the rule allows. -/
structure Rule.Allows (handle : Handle F) : Prop where
  tree : R.tree handle.share
  inside : handle.share.root <+: handle.path
  file : ∀ fh, handle.fh = some fh → R.file fh
  /-- An entry goes with its handle only where this was allowed. -/
  deletes : handle.deleteOnClose = true → R.change handle.share

/-- What the rule says of a host and its handles. -/
structure Rule.HoldsOn (d : Disk H F) : Prop where
  host : R.host d.host
  handles : ∀ e ∈ d.handles.entries, R.Allows e.2
  unique : (d.handles.entries.map Prod.fst).Nodup

/-- What the rule says of the files of a connection. -/
def Rule.Holds (s : Files H F) : Prop := R.HoldsOn s.toDisk

variable {svc R}

theorem Files.find_file {s : Files H F} {id : Nat} {handle : Handle F}
    (h : s.find id = some (.file handle)) : s.handles.entries.lookup id = some handle := by
  unfold Files.find at h
  split at h
  · rename_i found hfound
    cases h
    exact hfound
  · rw [Option.map_eq_some_iff] at h
    obtain ⟨_, _, h⟩ := h
    cases h

theorem Rule.Holds.handle {s : Files H F} (hs : R.Holds s) {id : Nat} {handle : Handle F}
    (h : s.find id = some (.file handle)) : R.Allows handle :=
  hs.handles _ (Tables.mem_of_lookup (Files.find_file h))

theorem Rule.Holds.withHost {s : Files H F} (hs : R.Holds s) {h : H} (hh : R.host h) :
    R.Holds { s with host := h } := ⟨hh, hs.handles, hs.unique⟩

theorem Rule.Holds.erase {s : Files H F} (hs : R.Holds s) (id : Nat) : R.Holds (s.erase id) := by
  refine ⟨hs.host, fun e he => hs.handles e (List.mem_filter.mp he).1, ?_⟩
  exact (List.filter_sublist.map Prod.fst).nodup hs.unique

@[simp] theorem Handles.keys_update (t : Handles F) (id : Nat) (f : Handle F → Handle F) :
    (t.update id f).entries.map Prod.fst = t.entries.map Prod.fst := by
  unfold Handles.update
  rw [List.map_map]
  apply List.map_congr_left
  intro e _
  dsimp only [Function.comp]
  split
  · rfl
  · rfl

/-- A new handle takes an id that is not in use. -/
theorem Handles.nodup_add {t : Handles F} (ht : (t.entries.map Prod.fst).Nodup) (handle : Nat → Handle F) :
    ((t.add handle).entries.map Prod.fst).Nodup := by
  unfold Handles.add
  rw [List.map_append]
  refine List.Nodup.append ht (List.nodup_singleton _) ?_
  intro id hid hnew
  obtain ⟨e, he, rfl⟩ := List.mem_map.mp hid
  exact (t.below e he).ne (List.mem_singleton.mp hnew)

/-! ## Handlers that read -/

section

variable (c : Context) (s : Files H F)

/-- The tree of a request is connected, and the client has logged on. -/
theorem observes_treeOf (ipcOk : Bool) :
    Observes (treeOf c ipcOk : Action H F ShareTree) s fun tree =>
      c.authenticated = true ∧ c.trees.lookup c.treeId = some tree := by
  unfold treeOf
  refine Observes.ite (fun _ => Observes.throw _) fun hauth => ?_
  rw [Bool.not_eq_false] at hauth
  cases hlookup : c.trees.lookup c.treeId with
  | none => exact Observes.throw _
  | some tree =>
      cases tree with
      | ipc =>
          apply Observes.ite
          · exact fun _ => Observes.pure ⟨hauth, rfl⟩
          · exact fun _ => Observes.throw _
      | disk share => exact Observes.pure ⟨hauth, rfl⟩

theorem observes_shareOf :
    Observes (shareOf c : Action H F Share) s fun share =>
      c.authenticated = true ∧ c.trees.lookup c.treeId = some (.disk share) := by
  refine (observes_treeOf c s false).bind fun tree htree => ?_
  cases tree with
  | ipc => exact Observes.throw _
  | disk share => exact Observes.pure htree

theorem observes_checkWritable (tree : ShareTree) :
    Observes (checkWritable svc tree : Action H F Unit) s fun _ => svc.protects tree = false := by
  apply Observes.ite
  · exact fun _ => Observes.throw _
  · exact fun h => Observes.pure (Bool.eq_false_of_not_eq_true h)

/-- The handle of a request stands under the id that the request names. -/
theorem observes_handleFrom (raw : Bytes) :
    Observes (handleFrom c raw : Action H F (Nat × AnyHandle F)) s fun named =>
      named.1 = (c.fileId raw).field 8 8 ∧ s.find named.1 = some named.2 := by
  apply Observes.ite
  · exact fun _ => Observes.throw _
  · intro _
    apply Observes.get
    dsimp only
    cases hfind : s.find ((c.fileId raw).field 8 8) with
    | none => exact Observes.throw _
    | some named =>
        apply Observes.ite
        · exact fun _ => Observes.throw _
        · exact fun _ => Observes.pure ⟨rfl, hfind⟩

theorem observes_bufferOf (offset length least : Nat) :
    Observes (bufferOf c offset length least : Action H F Bytes) s fun _ => True := by
  unfold bufferOf
  split
  · exact Observes.throw _
  · exact Observes.pure trivial

theorem observes_packItems (items : List Item) :
    Observes (packItems items : Action H F Bytes) s fun _ => True := by
  unfold packItems onDisk packed
  cases Struct.pack items with
  | none => exact ⟨rfl, fun _ _ h => by cases h⟩
  | some reply => exact ⟨rfl, fun _ _ _ => trivial⟩

variable {inv : Files H F → Prop}

theorem keeps_treeOf (ipcOk : Bool) : Keeps inv (treeOf c ipcOk : Action H F ShareTree) :=
  Observes.keeps fun s => observes_treeOf c s ipcOk

theorem keeps_shareOf : Keeps inv (shareOf c : Action H F Share) :=
  Observes.keeps fun s => observes_shareOf c s

theorem keeps_handleFrom (raw : Bytes) : Keeps inv (handleFrom c raw : Action H F (Nat × AnyHandle F)) :=
  Observes.keeps fun s => observes_handleFrom c s raw

theorem keeps_bufferOf (offset length least : Nat) :
    Keeps inv (bufferOf c offset length least : Action H F Bytes) :=
  Observes.keeps fun s => observes_bufferOf c s offset length least

end

/-- A reply that is packed changes nothing. -/
theorem keeps_reply {inv : Files H F → Prop} (items : List Item) (f : Bytes → Answer) :
    Keeps inv (do return f (← packItems items)) :=
  (Observes.keeps (observes_packItems · items)).bind fun _ => Keeps.pure _

/-! ## Handles -/

theorem keeps_onDisk {α : Type} {x : Serve H F α} (hx : Keeps R.HoldsOn x) : Keeps R.Holds (onDisk x) := by
  intro s hs
  have hx := hx s.toDisk hs
  unfold onDisk
  cases hr : x s.toDisk with
  | ok a d =>
      rw [hr] at hx
      exact hx
  | error e d =>
      rw [hr] at hx
      exact hx

/-- The handle with an id is changed, where the change is one that the rule allows. -/
theorem Rule.HoldsOn.update {d : Disk H F} (hd : R.HoldsOn d) (id : Nat) {f : Handle F → Handle F}
    (hf : ∀ handle, d.handles.entries.lookup id = some handle → R.Allows (f handle)) :
    R.HoldsOn { d with handles := d.handles.update id f } := by
  refine ⟨hd.host, fun e he => ?_, ?_⟩
  · obtain ⟨⟨id', handle⟩, he', rfl⟩ := List.mem_map.mp he
    split
    · rename_i hid
      cases beq_iff_eq.mp hid
      exact hf handle (Tables.lookup_of_mem hd.unique he')
    · exact hd.handles _ he'
  · rw [Handles.keys_update]
    exact hd.unique

theorem keeps_updateFile (id : Nat) {f : Handle F → Handle F}
    (hf : ∀ handle, R.Allows handle → R.Allows (f handle)) : Keeps R.Holds (updateFile id f) :=
  Keeps.modify fun _ hs => Rule.HoldsOn.update hs id fun handle hlookup =>
    hf handle (hs.handles _ (Tables.mem_of_lookup hlookup))

theorem keeps_updatePipe (id : Nat) (f : PipeHandle → PipeHandle) :
    Keeps R.Holds (updatePipe id f : Action H F Unit) :=
  Keeps.modify fun _ hs => ⟨hs.host, hs.handles, hs.unique⟩

theorem Rule.Allows.withFile {handle : Handle F} (h : R.Allows handle) {fh : F} (hfh : R.file fh) :
    R.Allows { handle with fh := some fh } := by
  refine ⟨h.tree, h.inside, ?_, h.deletes⟩
  rintro _ ⟨⟩
  exact hfh

theorem keeps_keepFile (id : Nat) {fh : F} (hfh : R.file fh) : Keeps R.Holds (keepFile id fh) :=
  keeps_updateFile id fun _ h => h.withFile hfh

/-- A file object that is opened again is one that the rule allows. -/
theorem produces_openAgain (hR : R.Sound svc) (id : Nat) {handle : Handle F} (hhandle : R.Allows handle)
    {forWriting : Bool} (hchange : forWriting = true → R.change handle.share) :
    Produces R.Holds (fun fh => R.file fh ∧ (forWriting = true → svc.reading fh = false))
      (openAgain svc id handle forWriting) := by
  intro s hs
  unfold openAgain
  rw [get_bind]
  cases hopen : svc.host.openFile s.host handle.path forWriting with
  | error e => exact ⟨hs, fun _ _ h => by cases h⟩
  | ok fh =>
      have hfh : R.file fh ∧ (forWriting = true → svc.reading fh = false) := by
        cases forWriting with
        | false => exact ⟨hR.openRead hs.host hhandle.tree hhandle.inside hopen, fun h => by cases h⟩
        | true =>
            obtain ⟨hfile, hreading⟩ := hR.openWrite hs.host (hchange rfl) hhandle.inside hopen
            exact ⟨hfile, fun _ => hreading⟩
      refine ⟨?_, fun _ _ h => ?_⟩
      · exact (keeps_updateFile id fun _ h => h.withFile hfh.1).bind (fun _ => Keeps.pure fh) s hs
      · cases h
        exact hfh

/-- The file object of a handle is one that the rule allows. -/
theorem produces_openHandle (hR : R.Sound svc) (id : Nat) {handle : Handle F} (hhandle : R.Allows handle)
    {forWriting : Bool} (hchange : forWriting = true → R.change handle.share) :
    Produces R.Holds (fun fh => R.file fh ∧ (forWriting = true → svc.reading fh = false))
      (openHandle svc id handle forWriting) := by
  unfold openHandle
  cases hfh : handle.fh with
  | none => exact produces_openAgain hR id hhandle hchange
  | some fh =>
      have hfile := hhandle.file fh hfh
      dsimp only
      split
      · rename_i hreopen
        obtain ⟨hwrite, -⟩ := Bool.and_eq_true_iff.mp hreopen
        cases hwrite
        intro s hs
        exact produces_openAgain hR id hhandle hchange _ (hs.withHost (hR.close hs.host hfile))
      · rename_i hkeep
        refine Produces.pure ⟨hfile, fun hwrite => ?_⟩
        rw [hwrite, Bool.true_and] at hkeep
        exact Bool.eq_false_of_not_eq_true hkeep

/-! ## CREATE -/

/-- What a request is told of its connection is what the rule allows. -/
structure Rule.Grants (svc : Service H F) (R : Rule H F) (c : Context) : Prop where
  tree : ∀ {id share}, (id, .disk share) ∈ c.trees → R.tree share
  change : ∀ {id share}, (id, .disk share) ∈ c.trees → svc.protects (.disk share) = false → R.change share

theorem keeps_call {α : Type} {f : H → Except Errno α × H} (hf : ∀ h, R.host h → R.host (f h).2) :
    Keeps R.HoldsOn (call f) := by
  intro d hd
  have hf := hf d.host hd.host
  unfold call
  generalize f d.host = r at hf ⊢
  obtain ⟨r, h⟩ := r
  cases r with
  | ok a => exact ⟨hf, hd.handles, hd.unique⟩
  | error e => exact ⟨hf, hd.handles, hd.unique⟩

theorem Rule.Sound.mkdirExisting (hR : R.Sound svc) {share : Share} (hchange : R.change share)
    {path p : Path} (hpath : share.root <+: path) (hp : p <+: path) {h : H} (hh : R.host h) :
    R.host (mkdirExisting svc.host h p).2 := by
  have hmkdir := hR.mkdir hh hchange hpath hp
  unfold Smb2.mkdirExisting
  generalize svc.host.mkdir h p = r at hmkdir ⊢
  obtain ⟨r, h'⟩ := r
  cases r with
  | ok _ => exact hmkdir
  | error e =>
      dsimp only
      split
      · exact hmkdir
      · exact hmkdir

/-- A directory is made with those above it, by induction on the components. -/
theorem Rule.Sound.makedirs (hR : R.Sound svc) {share : Share} (hchange : R.change share) {path : Path}
    (hpath : share.root <+: path) {names : List Name} (hnames : names.reverse <+: path) {h : H}
    (hh : R.host h) : R.host (makedirs svc.host h names).2 := by
  induction names generalizing h with
  | nil => exact hR.mkdirExisting hchange hpath hnames hh
  | cons name parents ih =>
      have hparents : parents.reverse <+: path := by
        refine List.IsPrefix.trans ?_ hnames
        rw [List.reverse_cons]
        exact List.prefix_append _ _
      have ih := ih hparents hh
      unfold Smb2.makedirs
      dsimp only
      split
      · exact hR.mkdirExisting hchange hpath hnames hh
      · generalize Smb2.makedirs svc.host h parents = r at ih ⊢
        obtain ⟨r, h'⟩ := r
        cases r with
        | ok _ => exact hR.mkdirExisting hchange hpath hnames ih
        | error e =>
            cases e with
            | eexist => exact hR.mkdirExisting hchange hpath hnames ih
            | _ => exact ih

theorem keeps_step {α : Type} {f : H → Except Errno Unit × H} (hf : ∀ h, R.host h → R.host (f h).2)
    (a : α) : Keeps R.HoldsOn (step f a) :=
  (keeps_call hf).bind fun _ => Keeps.pure a

theorem keeps_prepare (hR : R.Sound svc) {share : Share} {readOnly : Bool}
    (hchange : readOnly = false → R.change share) {path : Path} (hpath : share.root <+: path) (o : Open) :
    Keeps R.HoldsOn (prepare svc.host readOnly path o) := by
  intro d hd
  rcases @prepare_cases H F svc.host readOnly path o d with ⟨-, e, h⟩ | ⟨-, -, -, -, h⟩ |
    ⟨-, -, -, hwrite, -, h⟩ | ⟨-, -, hwrite, -, -, h⟩ | ⟨-, -, hwrite, -, -, h⟩
  · rw [h]
    exact hd
  · rw [h]
    exact hd
  · rw [h]
    exact keeps_step (fun _ hh => hR.create hh (hchange hwrite) hpath) _ d hd
  · rw [h]
    exact keeps_step (fun _ hh => hR.create hh (hchange hwrite) hpath) _ d hd
  · rw [h]
    refine keeps_step (fun _ hh => hR.makedirs (hchange hwrite) hpath ?_ hh) _ d hd
    rw [List.reverse_reverse]

theorem keeps_packed (items : List Item) : Keeps R.HoldsOn (packed items : Serve H F Bytes) := by
  unfold packed
  split
  · exact Keeps.throw _
  · exact Keeps.pure _

theorem keeps_register {share : Share} {readOnly : Bool} (htree : R.tree share)
    (hchange : readOnly = false → R.change share) {path : Path} (hpath : share.root <+: path) (rel : Str)
    (o : Open) (action : Nat) (st : Stat) :
    Keeps R.HoldsOn (register share readOnly path rel o action st : Serve H F Bytes) := by
  intro d hd
  have hnew : R.Allows (newHandle share path rel o st d.handles.next : Handle F) :=
    ⟨htree, hpath, fun _ h => (by cases h), fun h => (by cases h)⟩
  have hadd : R.HoldsOn { d with handles := d.handles.add (newHandle share path rel o st) } := by
    refine ⟨hd.host, fun e he => ?_, Handles.nodup_add hd.unique _⟩
    rcases List.mem_append.mp he with he | he
    · exact hd.handles e he
    · rw [List.mem_singleton.mp he]
      exact hnew
  have hlookup : (d.handles.add (newHandle share path rel o st)).entries.lookup d.handles.next =
      some (newHandle share path rel o st d.handles.next) := by
    apply Tables.lookup_of_mem hadd.unique
    exact List.mem_append_right _ (List.mem_singleton_self _)
  change KeepsFrom R.HoldsOn _ (ite (o.deleteOnClose = true) _ _)
  split
  · cases readOnly with
    | true => exact hadd
    | false =>
        refine KeepsFrom.pure_bind (a := ()) (KeepsFrom.bind (hadd.update _ ?_) fun _ => keeps_packed _)
        intro handle h
        cases hlookup.symm.trans h
        exact ⟨hnew.tree, hnew.inside, hnew.file, fun _ => hchange rfl⟩
  · exact keeps_packed _ _ hadd

theorem keeps_openPath (hR : R.Sound svc) {share : Share} {readOnly : Bool} (htree : R.tree share)
    (hchange : readOnly = false → R.change share) {path : Path} (hpath : share.root <+: path) (rel : Str)
    (o : Open) : Keeps R.HoldsOn (openPath svc.host share readOnly path rel o) := by
  refine (keeps_prepare hR hchange hpath o).bind fun action => ?_
  refine (keeps_call fun _ hh => hh).bind fun st => ?_
  refine Keeps.ite (Keeps.throw _) (Keeps.ite (Keeps.throw _) ?_)
  exact keeps_register htree hchange hpath rel o action st

theorem keeps_hCreate (hR : R.Sound svc) {share : Share} (htree : R.tree share)
    (hchange : svc.protects (.disk share) = false → R.change share) (body : Bytes) :
    Keeps R.HoldsOn (hCreate svc.host svc.readOnly share body) := by
  apply Keeps.ite
  · exact Keeps.throw _
  · split
    · exact Keeps.throw _
    · rename_i raw _
      refine Keeps.get fun d hd => ?_
      cases hresolve : share.resolve svc.host d.host (decodeUtf16 raw) with
      | error status => exact Keeps.throw _
      | ok path => exact keeps_openPath hR htree hchange (Share.resolve_eq_ok hresolve).1 _ _

theorem keeps_createPipe (c : Context) : Keeps R.Holds (createPipe svc c : Action H F Answer) := by
  refine (keeps_bufferOf c _ _ _).bind fun raw => ?_
  apply Keeps.ite
  · exact Keeps.throw _
  · intro s hs
    have hnext : R.Holds { s with
        handles := s.handles.skip
        pipes := s.pipes ++ [(s.handles.next, PipeHandle.mk Pipe.new false)] } :=
      ⟨hs.host, hs.handles, hs.unique⟩
    exact keeps_reply _ Answer.success _ hnext

variable {c : Context}

theorem keeps_hCreateFile (hR : R.Sound svc) (hc : R.Grants svc c) :
    Keeps R.Holds (hCreateFile svc c : Action H F Answer) := by
  intro s hs
  refine KeepsFrom.observes (observes_treeOf c s true) hs fun tree htree => ?_
  split
  · exact hs
  · cases tree with
    | ipc => exact keeps_createPipe c s hs
    | disk share =>
        have hmem := Tables.mem_of_lookup htree.2
        exact (keeps_onDisk (keeps_hCreate hR (hc.tree hmem) (hc.change hmem) c.body)).map s hs

/-! ## The other commands -/

/-- Where a request may write, the file behind the handle that it names may be changed. READ, WRITE and
SET_INFO name a handle in the same place. -/
def Rule.Fair (svc : Service H F) (R : Rule H F) (c : Context) (s : Files H F) : Prop :=
  ∀ share handle, c.trees.lookup c.treeId = some (.disk share) → svc.protects (.disk share) = false →
    s.find ((c.fileId (c.body.sub 16 16)).field 8 8) = some (.file handle) → R.change handle.share

theorem Rule.Sound.closeFile (hR : R.Sound svc) {handle : Handle F} (hhandle : R.Allows handle) {h : H}
    (hh : R.host h) : R.host (closeFile svc handle h) := by
  unfold Smb2.closeFile
  cases hfh : handle.fh with
  | none => exact hh
  | some fh => exact hR.close hh (hhandle.file fh hfh)

theorem Rule.Sound.deleteNamed (hR : R.Sound svc) {handle : Handle F} (hhandle : R.Allows handle)
    (hdelete : handle.deleteOnClose = true) {h : H} (hh : R.host h) :
    R.host (deleteNamed svc handle h) := by
  unfold Smb2.deleteNamed
  split
  · exact hR.rmdir hh (hhandle.deletes hdelete) hhandle.inside
  · exact hR.remove hh (hhandle.deletes hdelete) hhandle.inside

theorem keeps_hClose (hR : R.Sound svc) : Keeps R.Holds (hClose svc c : Action H F Answer) := by
  intro s hs
  refine KeepsFrom.observes (observes_treeOf c s true) hs fun tree htree => ?_
  split
  · exact hs
  · refine KeepsFrom.observes (observes_handleFrom c s _) hs ?_
    rintro ⟨id, named⟩ ⟨-, hfind⟩
    refine KeepsFrom.get ?_
    cases named with
    | pipe handle =>
        refine KeepsFrom.set_bind ?_
        split
        · exact hs.erase id
        · exact keeps_reply _ Answer.success _ (hs.erase id)
    | file handle =>
        have hhandle := hs.handle hfind
        have hclosed := hR.closeFile hhandle hs.host
        have hnext : R.Holds { s.erase id with
            host := if handle.deleteOnClose then deleteNamed svc handle (closeFile svc handle s.host)
              else closeFile svc handle s.host } := by
          apply (hs.erase id).withHost
          split
          · exact hR.deleteNamed hhandle ‹_› hclosed
          · exact hclosed
        refine KeepsFrom.bind (x := set _) hnext fun _ => ?_
        split
        · exact keeps_reply _ _
        · exact Keeps.ite (keeps_reply _ _) (keeps_reply _ _)

/-- The host and the file object after a call on it. -/
theorem keeps_called {α : Type} (id : Nat) {s : Files H F} (hs : R.Holds s) {fh : F} {h : H}
    (hnew : R.file fh ∧ R.host h) {x : Action H F α} (hx : Keeps R.Holds x) :
    KeepsFrom R.Holds s (do
      set { s with host := h }
      keepFile id fh
      x) :=
  KeepsFrom.bind (x := set _) (hs.withHost hnew.2) fun _ =>
    (keeps_keepFile id hnew.1).bind fun _ => hx

theorem keeps_hFlush (hR : R.Sound svc) : Keeps R.Holds (hFlush svc c : Action H F Answer) := by
  intro s hs
  refine KeepsFrom.observes (observes_shareOf c s) hs fun share _ => ?_
  refine KeepsFrom.observes (observes_handleFrom c s _) hs ?_
  rintro ⟨id, named⟩ ⟨-, hfind⟩
  cases named with
  | pipe handle => exact keeps_reply _ Answer.success s hs
  | file handle =>
      dsimp only
      cases hfh : handle.fh with
      | none => exact keeps_reply _ Answer.success s hs
      | some fh =>
          refine KeepsFrom.get ?_
          refine keeps_called id hs (hR.flush hs.host ((hs.handle hfind).file fh hfh)) ?_
          split
          · exact keeps_reply _ _
          · exact Keeps.throw _
          · exact keeps_reply _ _

theorem keeps_readPipe (id : Nat) (handle : PipeHandle) :
    Keeps R.Holds (readPipe c id handle : Action H F Answer) := by
  refine (keeps_updatePipe id _).bind fun _ => ?_
  apply Keeps.ite
  · exact Keeps.throw _
  · exact (Observes.keeps (observes_packItems · _)).bind fun _ => Keeps.pure _

theorem keeps_readFile (hR : R.Sound svc) (id : Nat) {handle : Handle F} (hhandle : R.Allows handle) :
    Keeps R.Holds (readFile svc c id handle) := by
  apply Keeps.ite
  · exact Keeps.throw _
  · refine (produces_openHandle hR id hhandle fun h => by cases h).keeps_bind fun fh hfh => ?_
    refine Keeps.from fun s hs => KeepsFrom.get ?_
    refine keeps_called id hs (hR.read _ _ hs.host hfh.1) ?_
    split
    · exact Keeps.throw _
    · apply Keeps.ite
      · exact Keeps.throw _
      · exact (Observes.keeps (observes_packItems · _)).bind fun _ => Keeps.pure _

theorem keeps_hRead (hR : R.Sound svc) : Keeps R.Holds (hRead svc c : Action H F Answer) := by
  intro s hs
  refine KeepsFrom.observes (observes_treeOf c s true) hs fun tree _ => ?_
  split
  · exact hs
  · refine KeepsFrom.observes (observes_handleFrom c s _) hs ?_
    rintro ⟨id, named⟩ ⟨-, hfind⟩
    cases named with
    | pipe handle => exact keeps_readPipe id handle s hs
    | file handle => exact keeps_readFile hR id (hs.handle hfind) s hs

theorem keeps_writePipe (id : Nat) (handle : PipeHandle) :
    Keeps R.Holds (writePipe svc c id handle : Action H F Answer) := by
  refine (keeps_bufferOf c _ _ _).bind fun data => ?_
  split
  · exact (keeps_updatePipe id _).bind fun _ => Keeps.throw _
  · exact (keeps_updatePipe id _).bind fun _ => keeps_reply _ _

theorem keeps_writeFile (hR : R.Sound svc) (tree : ShareTree) (id : Nat) {handle : Handle F}
    (hhandle : R.Allows handle) (hchange : svc.protects tree = false → R.change handle.share) :
    Keeps R.Holds (writeFile svc c tree id handle) := by
  intro s hs
  refine KeepsFrom.observes (observes_checkWritable s tree) hs fun _ hwrite => ?_
  refine Keeps.ite (Keeps.throw _) (Keeps.ite (Keeps.throw _) (Keeps.ite (Keeps.throw _) ?_)) s hs
  refine (keeps_bufferOf c _ _ _).bind fun data => ?_
  refine (produces_openHandle hR id hhandle fun _ => hchange hwrite).keeps_bind fun fh hfh => ?_
  refine Keeps.from fun s hs => KeepsFrom.get ?_
  have hnew := hR.write (c.body.field 8 8) data hs.host hfh.1 (hfh.2 rfl)
  generalize svc.host.write s.host fh (c.body.field 8 8) data = r at hnew ⊢
  obtain ⟨result, fh', h⟩ := r
  refine keeps_called id hs hnew ?_
  cases result with
  | error e => exact Keeps.throw _
  | ok written => exact keeps_reply _ _

theorem keeps_hWrite (hR : R.Sound svc) {s : Files H F} (hs : R.Holds s) (hfair : R.Fair svc c s) :
    KeepsFrom R.Holds s (hWrite svc c : Action H F Answer) := by
  refine KeepsFrom.observes (observes_treeOf c s true) hs fun tree htree => ?_
  split
  · exact hs
  · refine KeepsFrom.observes (observes_handleFrom c s _) hs ?_
    rintro ⟨id, named⟩ ⟨hid, hfind⟩
    cases named with
    | pipe handle => exact keeps_writePipe id handle s hs
    | file handle =>
        refine keeps_writeFile hR tree id (hs.handle hfind) (fun hwrite => ?_) s hs
        cases tree with
        | ipc => cases hwrite
        | disk share =>
            cases hid
            exact hfair share handle htree.2 hwrite hfind

theorem keeps_hQueryDir : Keeps R.Holds (hQueryDir svc c : Action H F Answer) := by
  intro s hs
  refine KeepsFrom.observes (observes_shareOf c s) hs fun share _ => ?_
  split
  · exact hs
  · refine KeepsFrom.observes (observes_handleFrom c s _) hs ?_
    rintro ⟨id, named⟩ -
    cases named with
    | pipe handle => exact hs
    | file handle =>
        refine KeepsFrom.get ?_
        generalize hQueryDirectory svc.host s.host share (svc.readOnly || share.readOnly) handle.dir c.body = r
        obtain ⟨dir, result⟩ := r
        have hlisted : ∀ found, R.Allows found →
            R.Allows { found with listing := dir.listing, cursor := dir.cursor } :=
          fun _ h => ⟨h.tree, h.inside, h.file, h.deletes⟩
        refine KeepsFrom.bind (keeps_updateFile id hlisted s hs) fun _ => ?_
        split
        · exact Keeps.throw _
        · exact Keeps.pure _

theorem observes_infoOf (share : Share) (named : AnyHandle F) (s : Files H F) :
    Observes (infoOf svc c share named) s fun _ => True := by
  apply Observes.get
  dsimp only
  split
  · cases named with
    | pipe handle => exact Observes.throw _
    | file handle =>
        dsimp only
        split
        · exact Observes.throw _
        · split
          · exact Observes.throw _
          · exact Observes.pure trivial
  · split
    · split
      · exact Observes.pure trivial
      · exact (observes_packItems s _).bind fun _ _ => Observes.pure trivial
    · exact Observes.throw _

theorem keeps_hQueryInfo : Keeps R.Holds (hQueryInfo svc c : Action H F Answer) := by
  intro s hs
  refine KeepsFrom.observes (observes_shareOf c s) hs fun share _ => ?_
  split
  · exact hs
  · refine KeepsFrom.observes (observes_handleFrom c s _) hs ?_
    rintro ⟨id, named⟩ -
    refine KeepsFrom.observes (observes_infoOf share named s) hs fun blob _ => ?_
    cases blob with
    | none => exact hs
    | some blob =>
        dsimp only
        split
        · exact hs
        · exact keeps_reply _ (fun head => Answer.success (head ++ blob)) s hs

theorem keeps_setEndOfFile (hR : R.Sound svc) (id : Nat) (payload : Bytes) {named : AnyHandle F}
    (hnamed : ∀ handle, named = .file handle → R.Allows handle ∧ R.change handle.share) :
    Keeps R.Holds (setEndOfFile svc id payload named) := by
  cases named with
  | pipe handle => exact Keeps.throw _
  | file handle =>
      obtain ⟨hhandle, hchange⟩ := hnamed handle rfl
      refine Keeps.ite (Keeps.throw _) ?_
      refine (produces_openHandle hR id hhandle fun _ => hchange).keeps_bind fun fh hfh => ?_
      refine Keeps.from fun s hs => KeepsFrom.get ?_
      have hnew := hR.truncate (signed64 payload) hs.host hfh.1 (hfh.2 rfl)
      generalize svc.host.truncate s.host fh (signed64 payload) = r at hnew ⊢
      obtain ⟨result, fh', h⟩ := r
      refine keeps_called id hs hnew ?_
      cases result with
      | error e => exact Keeps.throw _
      | ok _ => exact Keeps.pure _

theorem keeps_setDisposition (id : Nat) (delete : Bool) {named : AnyHandle F} {s : Files H F}
    (hs : R.Holds s) (hfind : s.find id = some named)
    (hnamed : ∀ handle, named = .file handle → R.Allows handle ∧ R.change handle.share) :
    KeepsFrom R.Holds s (setDisposition id delete named) := by
  cases named with
  | pipe handle => exact keeps_updatePipe id (fun handle => { handle with deleteOnClose := delete }) s hs
  | file handle =>
      obtain ⟨hhandle, hchange⟩ := hnamed handle rfl
      refine Rule.HoldsOn.update hs id fun found hlookup => ?_
      cases (Files.find_file hfind).symm.trans hlookup
      exact ⟨hhandle.tree, hhandle.inside, hhandle.file, fun _ => hchange⟩

theorem observes_clashes (path dest : Path) (s : Files H F) :
    Observes (clashes svc path dest) s fun _ => True := by
  refine Observes.get (Observes.ite (fun _ => ?_) fun _ => Observes.pure trivial)
  split
  · exact Observes.throw _
  · exact Observes.pure trivial

/-- A file is renamed inside the share of its handle. -/
theorem keeps_renameTo (hR : R.Sound svc) (id : Nat) {handle : Handle F} {s : Files H F} (hs : R.Holds s)
    (hfind : s.find id = some (.file handle)) (hchange : R.change handle.share) (replaceIfExists : Bool)
    (target : Str) {dest : Path} (hdest : handle.share.root <+: dest) :
    KeepsFrom R.Holds s (renameTo svc id handle replaceIfExists target dest) := by
  have hhandle := hs.handle hfind
  refine KeepsFrom.observes (observes_clashes handle.path dest s) hs fun clash _ => ?_
  split
  · exact hs
  · have hreplace := hR.replace hs.host hchange hhandle.inside hdest
    unfold KeepsFrom
    rw [bind_apply]
    unfold onDisk call
    beta_reduce
    generalize svc.host.replace s.host handle.path dest = r at hreplace ⊢
    obtain ⟨r, h⟩ := r
    cases r with
    | error e => exact hs.withHost hreplace
    | ok _ =>
        refine Rule.HoldsOn.update (hs.withHost hreplace) id fun found hlookup => ?_
        cases (Files.find_file hfind).symm.trans hlookup
        exact ⟨hhandle.tree, hdest, hhandle.file, hhandle.deletes⟩

theorem keeps_setName (hR : R.Sound svc) (id : Nat) (payload : Bytes) {named : AnyHandle F} {s : Files H F}
    (hs : R.Holds s) (hfind : s.find id = some named)
    (hchange : ∀ handle, named = .file handle → R.change handle.share) :
    KeepsFrom R.Holds s (setName svc id payload named) := by
  unfold setName
  dsimp only
  split
  · exact hs
  · cases named with
    | pipe handle => exact hs
    | file handle =>
        refine KeepsFrom.get ?_
        cases hresolve : handle.share.resolve svc.host s.host
            (decodeUtf16 (payload.sub 20 (payload.field 16 4))) with
        | error status => exact hs
        | ok dest =>
            have hdest := (Share.resolve_eq_ok hresolve).1
            exact keeps_renameTo hR id hs hfind (hchange handle rfl) _ _ hdest

theorem keeps_setInfo (hR : R.Sound svc) (id : Nat) (payload : Bytes) {named : AnyHandle F} {s : Files H F}
    (hs : R.Holds s) (hfind : s.find id = some named)
    (hchange : ∀ handle, named = .file handle → R.change handle.share) :
    KeepsFrom R.Holds s (setInfo svc c id named payload) := by
  have hnamed : ∀ handle, named = .file handle → R.Allows handle ∧ R.change handle.share := by
    rintro handle rfl
    exact ⟨hs.handle hfind, hchange handle rfl⟩
  unfold setInfo
  dsimp only
  split
  · exact hs
  · split
    · exact keeps_setEndOfFile hR id payload hnamed s hs
    · split
      · exact keeps_setDisposition id _ hs hfind hnamed
      · split
        · exact hs
        · split
          · exact keeps_setName hR id payload hs hfind hchange
          · exact hs

theorem keeps_hSetInfo (hR : R.Sound svc) {s : Files H F} (hs : R.Holds s) (hfair : R.Fair svc c s) :
    KeepsFrom R.Holds s (hSetInfo svc c : Action H F Answer) := by
  refine KeepsFrom.observes (observes_shareOf c s) hs fun share hshare => ?_
  refine KeepsFrom.observes (observes_checkWritable s _) hs fun _ hwrite => ?_
  split
  · exact hs
  · refine KeepsFrom.observes (observes_handleFrom c s _) hs ?_
    rintro ⟨id, named⟩ ⟨hid, hfind⟩
    refine KeepsFrom.observes (observes_bufferOf c s _ _ _) hs fun payload _ => ?_
    refine KeepsFrom.bind ?_ fun _ => keeps_reply _ _
    refine keeps_setInfo hR id payload hs hfind ?_
    rintro handle rfl
    cases hid
    exact hfair share handle hshare.2 hwrite hfind

theorem keeps_transceive (data : Bytes) : Keeps R.Holds (transceive svc c data : Action H F Answer) := by
  refine (keeps_handleFrom c _).bind ?_
  rintro ⟨id, named⟩
  cases named with
  | file handle => exact Keeps.throw _
  | pipe handle =>
      dsimp only
      split
      · exact (keeps_updatePipe id _).bind fun _ => Keeps.throw _
      · exact (keeps_updatePipe id _).bind fun _ => Keeps.pure _

theorem keeps_hPipeIoctl : Keeps R.Holds (hPipeIoctl svc c : Action H F Answer) := by
  refine (keeps_treeOf c true).bind fun tree => ?_
  refine Keeps.ite (Keeps.throw _) ?_
  refine (keeps_bufferOf c _ _ _).bind fun data => ?_
  exact Keeps.ite (keeps_transceive data) (Keeps.throw _)

/-- Every command keeps what the rule says. -/
theorem keeps_execute (hR : R.Sound svc) (hc : R.Grants svc c) (command : Command) {s : Files H F}
    (hs : R.Holds s) (hfair : command = .write ∨ command = .setInfo → R.Fair svc c s) :
    KeepsFrom R.Holds s (execute svc c command) := by
  cases command with
  | create => exact keeps_hCreateFile hR hc s hs
  | close => exact keeps_hClose hR s hs
  | flush => exact keeps_hFlush hR s hs
  | read => exact keeps_hRead hR s hs
  | write => exact keeps_hWrite hR hs (hfair (Or.inl rfl))
  | queryDirectory => exact keeps_hQueryDir s hs
  | queryInfo => exact keeps_hQueryInfo s hs
  | setInfo => exact keeps_hSetInfo hR hs (hfair (Or.inr rfl))
  | ioctl => exact keeps_hPipeIoctl s hs
  | negotiate | sessionSetup | logoff | treeConnect | treeDisconnect | cancel | echo | other => exact hs

/-- The end of a connection closes its files, one after the other. -/
theorem Rule.Holds.closeAll (hR : R.Sound svc) {s : Files H F} (hs : R.Holds s) :
    R.Holds (s.closeAll svc) := by
  refine ⟨?_, fun e he => (by cases he), List.nodup_nil⟩
  have hfold : ∀ (entries : List (Nat × Handle F)) (h : H), (∀ e ∈ entries, R.Allows e.2) → R.host h →
      R.host (entries.foldl (fun h e => Smb2.closeFile svc e.2 h) h) := by
    intro entries
    induction entries with
    | nil => exact fun _ _ hh => hh
    | cons e rest ih =>
        intro h hall hh
        rw [List.forall_mem_cons] at hall
        exact ih _ hall.2 (hR.closeFile hall.1 hh)
  exact hfold _ _ hs.handles hs.host

end Ps2Servers.Smb2
