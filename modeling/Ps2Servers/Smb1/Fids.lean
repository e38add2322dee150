import Ps2Servers.Smb1.EdgeFids

/-!
# The FIDs of the two servers

The Python server gives FIDs by the same count as Edge and makes no room, so a connection keeps
every file until it is closed. The ledger of a connection is written as the session goes: it follows
what a request does to the next FID and to the table of open files.

## Implementation notes

The files that a request opens in a `with` block are closed by its end and are not in the ledger.
Neither is what the interpreter does with the file object of an entry that is stored over.
-/

namespace Ps2Servers.Smb1

open Effects Runs Ledger

variable {H F : Type} {ops : Ops H F} {cfg : Config} {r : Req}

/-! ## What a request does to the table -/

/-- The FID of a CLOSE. -/
def closing (r : Req) : Nat := if 2 ≤ r.params.length then r.params.field 0 2 else 0

/-- What a request may do to the next FID and the open files. -/
inductive FileEdit (c : Conn F) (r : Req) (c' : Conn F) : Prop
  | keep (hcmd : r.cmd ≠ .close) (hfid : c'.nextFid = c.nextFid) (hfiles : c'.files = c.files)
  | give (file : OpenFile F) (hfid : c'.nextFid = allocate c.nextFid 0x1000)
      (hfiles : c'.files = store c.files c'.nextFid file)
  | read (hcmd : r.cmd ≠ .close) (fid : Nat) (file : OpenFile F) (fh fh' : F)
      (hfile : c.files.lookup fid = some file) (hfh : file.fh = some fh)
      (hfid : c'.nextFid = c.nextFid)
      (hfiles : c'.files = store c.files fid { file with fh := some fh' })
  | close (hcmd : r.cmd = .close) (hfid : c'.nextFid = c.nextFid)
      (hfiles : c'.files = remove c.files (closing r))

/-- The next FID and the open files are those of this connection. -/
def Same (c : Conn F) (s : State H F) : Prop := s.conn.nextFid = c.nextFid ∧ s.conn.files = c.files

section Keeps

variable {inv : State H F → Prop}

theorem keeps_orRaise {α : Type} (a : Option α) : Keeps inv (orRaise a : Handler H F α) := by
  cases a with
  | none => exact .throw ()
  | some a => exact .pure a

theorem keeps_unpack (bytes : Bytes) (offset size : Nat) :
    Keeps inv (unpack bytes offset size : Handler H F Nat) := by
  unfold unpack
  split
  · exact .pure _
  · exact .throw ()

theorem keeps_pack (items : List Struct.Item) : Keeps inv (pack items : Handler H F Bytes) :=
  keeps_orRaise _

/-- A reply whose parameters are packed. -/
theorem keeps_packed (items : List Struct.Item) (f : Bytes → Reply) :
    Keeps inv ((pack items : Handler H F Bytes) >>= fun params => pure (f params)) :=
  (keeps_pack items).bind fun params => .pure (f params)

theorem keeps_parseSessionSetup (r : Req) :
    Keeps inv (parseSessionSetup r : Handler H F (Name × List Char)) := by
  unfold parseSessionSetup
  split
  · exact .pure _
  · refine (keeps_unpack _ _ _).bind fun ansiLen => ?_
    refine (keeps_unpack _ _ _).bind fun uniLen => ?_
    dsimp only
    split
    · exact .pure _
    · exact .pure _

theorem keeps_logon (r : Req) : Keeps inv (logon cfg r : Handler H F Bool) := by
  unfold logon
  split
  · exact .pure _
  · refine (keeps_parseSessionSetup r).bind fun setup => ?_
    dsimp only
    split
    · exact .pure _
    · exact keeps_orRaise _

theorem keeps_parseTreeconnectPath (r : Req) :
    Keeps inv (parseTreeconnectPath r : Handler H F Name) := by
  have hlength : Keeps inv (passwordLength r : Handler H F Nat) := by
    unfold passwordLength
    split
    · exact keeps_unpack _ _ _
    · exact .pure _
  exact hlength.bind fun pwlen => .pure _

theorem keeps_transReply (tParams tData : Bytes) :
    Keeps inv (transReply tParams tData : Handler H F Reply) := keeps_packed _ _

theorem keeps_dirEntry104 (host : H) (name path : String) :
    Keeps inv (dirEntry104 ops host name path) := (keeps_pack _).bind fun _ => .pure _

theorem keeps_hQueryPath (r : Req) (tParams : Bytes) : Keeps inv (hQueryPath ops r tParams) := by
  refine (keeps_unpack _ _ _).bind fun level => ?_
  refine Keeps.get fun s hs => ?_
  split
  · exact .pure _
  dsimp only
  split
  · exact .pure _
  · exact (keeps_pack _).bind fun tData => keeps_transReply _ _

theorem keeps_hCheckDirectory (r : Req) : Keeps inv (hCheckDirectory ops r) := by
  refine Keeps.get fun s hs => ?_
  split
  · exact .pure _
  dsimp only
  split
  · exact .pure _
  · exact .pure _

end Keeps

section Same

variable {c : Conn F}

theorem same_hSessionSetup (r : Req) :
    Keeps (Same c) (hSessionSetup cfg r : Handler H F Reply) := by
  refine (keeps_logon r).bind fun accepted => ?_
  split
  · refine Keeps.bind (Keeps.modify fun s hs => hs) fun _ => ?_
    exact Keeps.get fun s hs => keeps_packed _ _
  · exact .pure _

theorem same_hTreeConnect (r : Req) : Keeps (Same c) (hTreeConnect cfg r : Handler H F Reply) := by
  refine (keeps_parseTreeconnectPath r).bind fun name => ?_
  refine Keeps.get fun s hs => ?_
  refine Keeps.bind (Keeps.modify fun s hs => hs) fun _ => ?_
  split
  · exact .pure _
  · refine Keeps.bind (Keeps.modify fun s hs => hs) fun _ => ?_
    exact keeps_packed _ _

theorem same_hTreeDisconnect (r : Req) :
    Keeps (Same c) (hTreeDisconnect r : Handler H F Reply) :=
  Keeps.bind (Keeps.modify fun _ hs => hs) fun _ => .pure _

theorem same_hWriteAndx (r : Req) : Keeps (Same c) (hWriteAndx ops cfg r) := by
  unfold hWriteAndx
  split
  · exact .pure _
  refine (keeps_unpack _ _ _).bind fun fid => ?_
  refine (keeps_unpack _ _ _).bind fun offLow => ?_
  refine (keeps_unpack _ _ _).bind fun lenHigh => ?_
  refine (keeps_unpack _ _ _).bind fun lenLow => ?_
  refine (keeps_unpack _ _ _).bind fun dataOff => ?_
  dsimp only
  generalize (if 28 ≤ r.params.length then r.params.field 24 4 else 0) = offHigh
  refine Keeps.get fun s hs => ?_
  split
  · exact .pure _
  split
  · exact .pure _
  split
  · exact .throw ()
  split
  · exact .pure _
  · refine Keeps.bind (Keeps.set ?_) fun _ => keeps_packed _ _
    exact hs

theorem same_hCreateDirectory (r : Req) : Keeps (Same c) (hCreateDirectory ops cfg r) := by
  unfold hCreateDirectory
  split
  · exact .pure _
  refine Keeps.get fun s hs => ?_
  split
  · exact .pure _
  dsimp only
  split
  · exact .pure _
  split
  · exact .pure _
  split
  · exact .pure _
  split
  · exact .pure _
  · exact .pure _
  · refine Keeps.bind (Keeps.set ?_) fun _ => .pure _
    exact hs

theorem same_hFindFirst2 (r : Req) (tParams : Bytes) :
    Keeps (Same c) (hFindFirst2 ops r tParams) := by
  refine Keeps.get fun s hs => ?_
  split
  · exact .pure _
  dsimp only
  split
  · split
    · refine Keeps.bind (Keeps.set ?_) fun _ => ?_
      · exact hs
      refine (keeps_pack _).bind fun tParams => ?_
      exact (keeps_dirEntry104 _ _ _).bind fun tData => keeps_transReply _ _
    · exact .pure _
  · exact .pure _

theorem same_hFindNext2 (tParams : Bytes) : Keeps (Same c) (hFindNext2 ops tParams) := by
  refine (keeps_unpack _ _ _).bind fun sid => ?_
  refine Keeps.get fun s hs => ?_
  have hfinished : Keeps (Same (H := H) c) (pack [.H 0, .H 1, .H 0, .H 0] >>= fun tParams =>
      transReply tParams []) := (keeps_pack _).bind fun tParams => keeps_transReply _ _
  dsimp only
  split
  · exact hfinished
  split
  · refine Keeps.bind (Keeps.set ?_) fun _ => hfinished
    exact hs
  · refine Keeps.bind (Keeps.set ?_) fun _ => ?_
    · exact hs
    refine (keeps_pack _).bind fun tParams => ?_
    exact (keeps_dirEntry104 _ _ _).bind fun tData => keeps_transReply _ _

theorem same_hTrans2 (r : Req) : Keeps (Same c) (hTrans2 ops r) := by
  refine (keeps_unpack _ _ _).bind fun paramCount => ?_
  refine (keeps_unpack _ _ _).bind fun paramOff => ?_
  refine (keeps_unpack _ _ _).bind fun dataCount => ?_
  refine (keeps_unpack _ _ _).bind fun dataOff => ?_
  refine (keeps_unpack _ _ _).bind fun setupCount => ?_
  have hsetup : Keeps (Same (H := H) c) (trans2Setup r setupCount) := by
    unfold trans2Setup
    split
    · exact keeps_unpack _ _ _
    · exact .pure _
  refine hsetup.bind fun setup => ?_
  unfold trans2Command
  split
  · exact same_hFindFirst2 _ _
  · exact same_hFindNext2 _
  · exact keeps_hQueryPath _ _
  · exact .pure _

end Same

section Edit

variable {s : State H F}

/-- What a request may do, from the state it comes in. -/
def Edits (s : State H F) (r : Req) {α : Type} (x : Handler H F α) : Prop :=
  KeepsFrom (fun s' => FileEdit s.conn r s'.conn) s x

/-- A handler that leaves the next FID and the open files alone. -/
theorem edits_same {α : Type} {x : Handler H F α} (hcmd : r.cmd ≠ .close)
    (h : ∀ c : Conn F, Keeps (Same c) x) : Edits s r x := by
  have hsame : Same s.conn (final (x s)) := h s.conn s ⟨rfl, rfl⟩
  exact .keep hcmd hsame.1 hsame.2

theorem edits_pure {α : Type} (hcmd : r.cmd ≠ .close) (a : α) :
    Edits s r (pure a : Handler H F α) := .keep hcmd rfl rfl

theorem edits_throw {α : Type} (hcmd : r.cmd ≠ .close) : Edits s r (throw () : Handler H F α) :=
  .keep hcmd rfl rfl

/-- A file gets a FID, and the answer is packed. -/
theorem edits_addFile {t : State H F} (hconn : t.conn = s.conn) (file : OpenFile F)
    (items : Nat → List Struct.Item) (f : Nat → Bytes → Reply) :
    KeepsFrom (fun s' => FileEdit s.conn r s'.conn) t (addFile file >>= fun fid =>
      (pack (items fid) : Handler H F Bytes) >>= fun params => pure (f fid params)) := by
  refine KeepsFrom.bind ?_ fun fid => keeps_packed _ _
  rw [← hconn]
  exact .give file rfl rfl

theorem edits_hOpenAndx (hcmd : r.cmd ≠ .close) : Edits s r (hOpenAndx ops r) := by
  apply KeepsFrom.get
  split
  · exact edits_pure hcmd _
  dsimp only
  split
  · split
    · cases hfile : newOpenFile ops s.host _ false with
      | none => exact edits_throw hcmd
      | some file =>
          apply KeepsFrom.pure_bind
          exact edits_addFile rfl file _ _
    · exact edits_pure hcmd _
  · exact edits_pure hcmd _

theorem edits_openCreated {t : State H F} (hconn : t.conn = s.conn) (hcmd : r.cmd ≠ .close)
    (host : H) (path : String) (action : Nat) :
    KeepsFrom (fun s' => FileEdit s.conn r s'.conn) t (openCreated ops host path action) := by
  unfold openCreated
  dsimp only
  split
  · exact edits_addFile hconn _ _ _
  · refine .keep hcmd ?_ ?_
    · exact congrArg Conn.nextFid hconn
    · exact congrArg Conn.files hconn

theorem edits_hNtCreateAndx (hcmd : r.cmd ≠ .close) : Edits s r (hNtCreateAndx ops cfg r) := by
  apply KeepsFrom.get
  split
  · exact edits_pure hcmd _
  dsimp only
  split
  · exact edits_pure hcmd _
  split
  · exact edits_pure hcmd _
  split
  · exact edits_pure hcmd _
  · apply KeepsFrom.set_bind
    apply edits_openCreated
    · rfl
    · exact hcmd

/-- What follows a value that is unpacked. -/
theorem edits_unpack (hcmd : r.cmd ≠ .close) {α : Type} {bytes : Bytes} {offset size : Nat}
    {f : Nat → Handler H F α} (h : ∀ n, Edits s r (f n)) :
    Edits s r ((unpack bytes offset size : Handler H F Nat) >>= f) := by
  unfold unpack
  split
  · exact h _
  · exact edits_throw hcmd

theorem edits_hReadAndx (hcmd : r.cmd ≠ .close) : Edits s r (hReadAndx ops r) := by
  refine edits_unpack hcmd fun fid => ?_
  refine edits_unpack hcmd fun offLow => ?_
  refine edits_unpack hcmd fun countLow => ?_
  refine edits_unpack hcmd fun countHigh => ?_
  dsimp only
  generalize (if 24 ≤ r.params.length then r.params.field 20 4 else 0) = offHigh
  apply KeepsFrom.get
  split
  · exact edits_pure hcmd _
  rename_i file hfile
  split
  · exact edits_pure hcmd _
  rename_i fh hfh
  generalize (if offLow + offHigh * 0x100000000 < OFFSET_LIMIT then
    ops.readAt s.host fh (offLow + offHigh * 0x100000000)
      (min (countLow + countHigh * 0x10000) 0xFFFF) else none) = found
  cases found with
  | none => exact edits_throw hcmd
  | some chunk =>
      apply KeepsFrom.pure_bind
      apply KeepsFrom.set_bind
      refine KeepsFrom.bind ?_ fun _ => .pure _
      exact keeps_pack _ _ (.read hcmd fid file fh chunk.2 hfile hfh rfl rfl)

theorem edits_hClose (hcmd : r.cmd = .close) : Edits s r (hClose r : Handler H F Reply) :=
  .close hcmd rfl rfl

/-- What a request does. -/
theorem edits_handle (s : State H F) (r : Req) : Edits s r (handle ops cfg r) := by
  unfold handle
  cases hcmd : r.cmd with
  | close => exact edits_hClose hcmd
  | createDirectory => exact edits_same (by simp [hcmd]) fun _ => same_hCreateDirectory r
  | checkDirectory => exact edits_same (by simp [hcmd]) fun _ => keeps_hCheckDirectory r
  | transaction =>
      exact edits_same (by simp [hcmd]) fun _ => (keeps_orRaise _).bind fun _ =>
        (keeps_pack _).bind fun _ => keeps_transReply _ _
  | echo => exact edits_same (by simp [hcmd]) fun _ => keeps_packed _ _
  | openAndx => exact edits_hOpenAndx (by simp [hcmd])
  | readAndx => exact edits_hReadAndx (by simp [hcmd])
  | writeAndx => exact edits_same (by simp [hcmd]) fun _ => same_hWriteAndx r
  | trans2 => exact edits_same (by simp [hcmd]) fun _ => same_hTrans2 r
  | treeDisconnect => exact edits_same (by simp [hcmd]) fun _ => same_hTreeDisconnect r
  | negotiate => exact edits_same (by simp [hcmd]) fun _ => keeps_packed _ _
  | sessionSetupAndx => exact edits_same (by simp [hcmd]) fun _ => same_hSessionSetup r
  | logoffAndx => exact edits_same (by simp [hcmd]) fun _ => keeps_packed _ _
  | treeConnectAndx => exact edits_same (by simp [hcmd]) fun _ => same_hTreeConnect r
  | queryInformationDisk => exact edits_same (by simp [hcmd]) fun _ => keeps_packed _ _
  | ntCreateAndx => exact edits_hNtCreateAndx (by simp [hcmd])
  | other code => exact edits_pure (by simp [hcmd]) _

theorem edits_exchange (s : State H F) (r : Req) : Edits s r (exchange ops cfg r) :=
  KeepsFrom.bind (edits_handle s r) fun _ => keeps_orRaise _

end Edit

/-! ## Sessions -/

namespace Ledger

/-- A FID is closed. -/
def close (l : Ledger) (fid : Nat) : Ledger :=
  { l with
    files := Tables.erase l.files fid
    closed := l.closed ++ ((l.files.lookup fid).bind File.fh).toList }

/-- The ledger after a request that did this to the connection. -/
def follow (l : Ledger) (r : Req) (before after : Conn F) : Ledger :=
  if after.nextFid ≠ before.nextFid then
    l.record after.nextFid ((after.files.lookup after.nextFid).bind OpenFile.fh).isNone
  else if r.cmd = .close then l.close (closing r)
  else l

theorem settles_closed {l : Ledger} (h : l.fids.Nodup) (fid : Nat) : Settles l (l.close fid) := by
  have hsystem (files : List (Nat × File)) :
      systemFiles files = (files.map Prod.snd).filterMap File.fh := by
    unfold systemFiles
    rw [List.filterMap_map]
    rfl
  have hfreed : ((l.files.lookup fid).bind File.fh).toList =
      (l.files.lookup fid).toList.filterMap File.fh := by
    cases l.files.lookup fid with
    | none => rfl
    | some file =>
        cases hfh : file.fh with
        | none => simp [hfh]
        | some fh => simp [hfh]
  apply settles_close
  · exact List.filter_sublist
  · have hperm := (Aged.perm_delete h fid).filterMap File.fh
    rw [List.filterMap_append] at hperm
    rw [hsystem, hsystem, hfreed]
    exact hperm

end Ledger

/-- A connection, with what has become of its files. -/
structure Session (H F : Type) where
  state : State H F
  ledger : Ledger
  ended : Bool
  deriving DecidableEq, Repr

namespace Session

def new (host : H) : Session H F := ⟨⟨host, Conn.new⟩, ⟨0, [], 0, []⟩, false⟩

variable (ops cfg) in
/-- A request. An exception ends the session. -/
def step (s : Session H F) (r : Req) : Session H F :=
  if s.ended then s
  else
    match exchange ops cfg r s.state with
    | .ok _ state => ⟨state, s.ledger.follow r s.state.conn state.conn, false⟩
    | .error _ state => ⟨state, s.ledger.follow r s.state.conn state.conn, true⟩

/-- `cleanup`. -/
def cleanup (s : Session H F) : Session H F :=
  { s with
    state := { s.state with conn := { s.state.conn with files := [] } }
    ledger := s.ledger.finish }

def fid (s : Session H F) : Nat := s.state.conn.nextFid

/-- No file goes to make room. -/
def room (s : Session H F) : List (Nat × File) := s.ledger.files

/-- The FIDs of the ledger are those of the connection, and so is which of them have a file of the
system. -/
structure Shows (s : Session H F) : Prop where
  fid : s.fid = fidAt s.ledger.opens
  files : ∀ fid, (s.state.conn.files.lookup fid).map (fun f => f.fh.isNone) =
    (s.ledger.files.lookup fid).map fun f => f.fh.isNone

theorem shows_new (host : H) : (new host : Session H F).Shows := ⟨rfl, fun _ => rfl⟩

theorem lookup_store {α : Type} (d : List (Nat × α)) (key other : Nat) (a : α) :
    (store d key a).lookup other = if other = key then some a else d.lookup other := by
  unfold store
  split
  · rename_i h
    rw [h, List.lookup_cons_self]
  · rename_i h
    rw [List.lookup_cons, beq_false_of_ne h]
    exact Tables.lookup_erase_of_ne h d

theorem lookup_remove {α : Type} (d : List (Nat × α)) (key other : Nat) :
    (remove d key).lookup other = (Tables.erase d key).lookup other := rfl

theorem fidAt_succ_ne (place : Nat) : fidAt (place + 1) ≠ fidAt place := by
  intro h
  have hplace := fidAt_inj (Nat.le_succ place) (by unfold FIDS; omega) h.symm
  omega

/-- What a request does to the ledger. -/
theorem shows_follow {s : Session H F} (h : s.Shows) {state : State H F}
    (hedit : FileEdit s.state.conn r state.conn) (ended : Bool) :
    Shows ⟨state, s.ledger.follow r s.state.conn state.conn, ended⟩ ∧
      (s.ledger.Inv → Step s.ledger s.room (s.ledger.follow r s.state.conn state.conn)) := by
  have hnext : s.state.conn.nextFid = fidAt s.ledger.opens := h.fid
  cases hedit with
  | keep hcmd hfid hfiles =>
      have hledger : s.ledger.follow r s.state.conn state.conn = s.ledger := by
        unfold Ledger.follow
        rw [if_neg (not_not_intro hfid), if_neg hcmd]
      rw [hledger]
      constructor
      · refine ⟨hfid.trans h.fid, fun fid => ?_⟩
        dsimp only
        rw [hfiles]
        exact h.files fid
      · exact fun _ => .quiet (Settles.refl _)
  | give file hfid hfiles =>
      have hplace : state.conn.nextFid = fidAt (s.ledger.opens + 1) := by
        rw [hfid, hnext]
        exact allocate_fidAt _
      have hne : state.conn.nextFid ≠ s.state.conn.nextFid := by
        rw [hplace, hnext]
        exact fidAt_succ_ne _
      have hfile : (state.conn.files.lookup state.conn.nextFid).bind OpenFile.fh = file.fh := by
        rw [hfiles, lookup_store, if_pos rfl]
        rfl
      have hledger : s.ledger.follow r s.state.conn state.conn =
          s.ledger.record (fidAt (s.ledger.opens + 1)) file.fh.isNone := by
        unfold Ledger.follow
        rw [if_pos hne, hfile, hplace]
      rw [hledger]
      constructor
      · refine ⟨hplace, fun fid => ?_⟩
        dsimp only [Ledger.record]
        rw [hfiles, lookup_store, hplace]
        split
        · rename_i heq
          rw [heq, Tables.lookup_assign_self, Option.map_some, Option.map_some]
          cases file.fh with
          | none => rfl
          | some fh => rfl
        · rename_i hother
          rw [Tables.lookup_assign_of_ne hother]
          exact h.files fid
      · exact fun _ => .opens (Settles.refl _) rfl _
  | read hcmd fid file fh fh' hfile hfh hfid hfiles =>
      have hledger : s.ledger.follow r s.state.conn state.conn = s.ledger := by
        unfold Ledger.follow
        rw [if_neg (not_not_intro hfid), if_neg hcmd]
      rw [hledger]
      constructor
      · refine ⟨hfid.trans h.fid, fun other => ?_⟩
        dsimp only
        rw [hfiles, lookup_store, ← h.files other]
        split
        · rename_i heq
          rw [heq, hfile, Option.map_some, Option.map_some, hfh]
          rfl
        · rfl
      · exact fun _ => .quiet (Settles.refl _)
  | close hcmd hfid hfiles =>
      have hledger : s.ledger.follow r s.state.conn state.conn = s.ledger.close (closing r) := by
        unfold Ledger.follow
        rw [if_neg (not_not_intro hfid), if_pos hcmd]
      rw [hledger]
      constructor
      · refine ⟨hfid.trans h.fid, fun fid => ?_⟩
        dsimp only [Ledger.close]
        rw [hfiles, lookup_remove]
        by_cases heq : fid = closing r
        · rw [heq, Tables.lookup_erase_self, Tables.lookup_erase_self]
          rfl
        · rw [Tables.lookup_erase_of_ne heq, Tables.lookup_erase_of_ne heq]
          exact h.files fid
      · exact fun hinv => .quiet (settles_closed hinv.nodup _)

theorem shows_step {s : Session H F} (h : s.Shows) (r : Req) :
    (step ops cfg s r).Shows ∧
      (s.ledger.Inv → Step s.ledger s.room (step ops cfg s r).ledger) := by
  have hedit : FileEdit s.state.conn r (final (exchange ops cfg r s.state)).conn :=
    edits_exchange s.state r
  unfold step
  split
  · exact ⟨h, fun _ => .quiet (Settles.refl _)⟩
  split
  · rename_i heq
    rw [heq] at hedit
    exact shows_follow h hedit false
  · rename_i heq
    rw [heq] at hedit
    exact shows_follow h hedit true

/-- A request that gives a FID gives one that is not in use, and all files are accounted for. -/
def FidSound (ops : Ops H F) (cfg : Config) : Session H F → Req → Prop :=
  StepSound (step ops cfg) Session.ledger room fid

/-- A request that gives a FID comes while no file is open that was opened 61440 opens before. -/
def FidInTime (ops : Ops H F) (cfg : Config) : Session H F → Req → Prop :=
  StepInTime (step ops cfg) Session.ledger room

theorem shows_run {s : Session H F} (h : s.Shows) (reqs : List Req) :
    (reqs.foldl (step ops cfg) s).Shows := by
  induction reqs generalizing s with
  | nil => exact h
  | cons r rest ih => exact ih (shows_step h r).1

theorem session_fids (ops : Ops H F) (cfg : Config) (host : H) (reqs : List Req) :
    (Along (step ops cfg) (FidSound ops cfg) (new host) reqs ↔
      Along (step ops cfg) (FidInTime ops cfg) (new host) reqs) ∧
    (Along (step ops cfg) (FidInTime ops cfg) (new host) reqs →
      (cleanup (reqs.foldl (step ops cfg) (new host))).ledger.AllClosed) := by
  have hrun := @run_sound_iff (Session H F) Req (step ops cfg) Session.ledger room fid Shows
    (fun _ h => h.fid) (fun s r h hinv => ⟨(shows_step h r).2 hinv, (shows_step h r).1⟩)
    (new host) (shows_new host) inv_new reqs
  exact ⟨hrun.1, fun h => (hrun.2 h).2.allClosed⟩

end Session

/-- On a connection of either server, over every run of requests: each open gives a FID that is not
in use and leaves every file of the system that was opened either closed or under exactly one FID, if
and only if none gives a FID while a file stays open that was opened 61440 opens before. The end of
such a run closes them all. -/
theorem fids_sound_iff {H' : Type} (edge : Edge.Ops H') (edgeCfg : Edge.Config) (edgeHost : H')
    (ops : Ops H F) (cfg : Config) (host : H) :
    (∀ reqs : List Req,
      (Along (Edge.step edge edgeCfg) (Edge.FidSound edge edgeCfg) (.new edgeHost) reqs ↔
        Along (Edge.step edge edgeCfg) (Edge.FidInTime edge edgeCfg) (.new edgeHost) reqs) ∧
      (Along (Edge.step edge edgeCfg) (Edge.FidInTime edge edgeCfg) (.new edgeHost) reqs →
        (Edge.cleanup (reqs.foldl (Edge.step edge edgeCfg) (.new edgeHost))).ledger.AllClosed)) ∧
    ∀ reqs : List Req,
      (reqs.foldl (Session.step ops cfg) (.new host)).Shows ∧
      (Along (Session.step ops cfg) (Session.FidSound ops cfg) (.new host) reqs ↔
        Along (Session.step ops cfg) (Session.FidInTime ops cfg) (.new host) reqs) ∧
      (Along (Session.step ops cfg) (Session.FidInTime ops cfg) (.new host) reqs →
        (Session.cleanup (reqs.foldl (Session.step ops cfg) (.new host))).ledger.AllClosed) := by
  constructor
  · exact Edge.edge_fids edge edgeCfg edgeHost
  · intro reqs
    obtain ⟨hiff, hclosed⟩ := Session.session_fids ops cfg host reqs
    exact ⟨Session.shows_run (Session.shows_new host) reqs, hiff, hclosed⟩

/-! ## A file that is kept open -/

namespace Edge

def openGame : Req := request 0x2d 2 []

def closeFid (fid : Nat) : Req := request 0x04 2 (le16 fid)

/-- So many files are opened and closed, and one more is opened. -/
def rounds (place : Nat) : Nat → List Req
  | 0 => [openGame]
  | n + 1 => openGame :: closeFid (fidAt (place + 1)) :: rounds (place + 1) n

def gameFile (handle place : Nat) : OpenFile := ⟨"/srv/game.iso", some handle, false, 4, place⟩

/-- The connection after so many opens, when the first file is open and all others are closed. -/
def held (place : Nat) (closed : List Nat) : World Unit where
  host := ()
  conn := {
    uid := 0
    nextFID := UInt16.ofNat (fidAt place)
    nextTID := 2
    nextSID := 1
    trees := ⟨[(2, ⟨[0x67], "/srv/game.iso"⟩)], [2]⟩
    files := ⟨[(0x1001, gameFile 0 1)], [0x1001]⟩
    searches := .empty }
  opened := place
  closed := closed
  opens := place

theorem fidAt_lt (place : Nat) : fidAt place < 0x10000 := by
  unfold fidAt FIDS
  omega

theorem alloc_fidAt (place : Nat) :
    alloc (UInt16.ofNat (fidAt place)) 0x1000 = UInt16.ofNat (fidAt (place + 1)) := by
  apply UInt16.toNat_inj.mp
  rw [alloc_toNat, UInt16.toNat_ofNat_of_lt' (fidAt_lt _), UInt16.toNat_ofNat_of_lt' (fidAt_lt _)]
  exact allocate_fidAt place

/-- The connection when one file more is open. -/
def opened (place : Nat) (fid : UInt16) (closed : List Nat) : World Unit :=
  let w := held (place + 1) closed
  { w with conn := { w.conn with
      files := ⟨[(0x1001, gameFile 0 1), (fid, gameFile place (place + 1))], [0x1001, fid]⟩ } }

theorem step_open {place : Nat} (hplace : UInt16.ofNat (fidAt (place + 1)) ≠ 0x1001)
    (closed : List Nat) :
    step oneFile oneShare (held place closed) openGame =
      opened place (UInt16.ofNat (fidAt (place + 1))) closed := by
  have hnot : UInt16.ofNat (fidAt (place + 1)) ∉ [(0x1001, gameFile 0 1)].map Prod.fst := by
    intro h
    exact hplace (List.mem_singleton.mp h)
  have hput : (⟨[(0x1001, gameFile 0 1)], [0x1001]⟩ : Aged UInt16 OpenFile).put
      (UInt16.ofNat (fidAt (place + 1))) (gameFile place (place + 1)) =
      (opened place (UInt16.ofNat (fidAt (place + 1))) closed).conn.files := by
    unfold Aged.put
    rw [Aged.assign_of_not_mem hnot]
    rfl
  have hstep : step oneFile oneShare (held place closed) openGame =
      (openFile (held place closed) "/srv/game.iso" 4).2 := rfl
  rw [hstep]
  unfold openFile addFile
  have hevict : (held place closed).conn.files.evict MaxOpenFiles =
      (⟨[(0x1001, gameFile 0 1)], [0x1001]⟩, []) := rfl
  have hfid : (held place closed).conn.nextFID = UInt16.ofNat (fidAt place) := rfl
  dsimp only
  rw [hevict, hfid, alloc_fidAt]
  have hfiles := congrArg (fun files => ({ held (place + 1) closed with
    conn := { (held (place + 1) closed).conn with files := files } } : World Unit)) hput
  refine Eq.trans ?_ hfiles
  unfold World.closeAll
  rw [List.filterMap_nil, List.append_nil]
  rfl

theorem step_close {place : Nat} (hplace : UInt16.ofNat (fidAt (place + 1)) ≠ 0x1001)
    (closed : List Nat) :
    step oneFile oneShare (opened place (UInt16.ofNat (fidAt (place + 1))) closed)
      (closeFid (fidAt (place + 1))) = held (place + 1) (closed ++ [place]) := by
  have hstep (w : World Unit) (fid : Nat) :
      step oneFile oneShare w (closeFid fid) = (closeFile (closeFid fid) w).2 := rfl
  rw [hstep]
  have hu16 : u16 (closeFid (fidAt (place + 1))).params 0 = fidAt (place + 1) := by
    have hfield := Bytes.field_ofNat 2 (fidAt (place + 1)) []
    have hlt : fidAt (place + 1) < 256 ^ 2 := fidAt_lt (place + 1)
    rw [List.append_nil, Nat.mod_eq_of_lt hlt] at hfield
    have hlength : (Bytes.ofNat 2 (fidAt (place + 1))).length = 2 := Bytes.length_ofNat _ _
    unfold u16
    change (if 0 + 2 ≤ (Bytes.ofNat 2 (fidAt (place + 1))).length then
      (Bytes.ofNat 2 (fidAt (place + 1))).field 0 2 else 0) = _
    rw [hlength, if_pos (Nat.le_refl 2), hfield]
  unfold closeFile
  dsimp only
  rw [hu16]
  generalize UInt16.ofNat (fidAt (place + 1)) = fid at hplace
  have hne : (fid == 0x1001) = false := beq_false_of_ne hplace
  have hlookup : (opened place fid closed).conn.files.entries.lookup fid =
      some (gameFile place (place + 1)) := by
    change List.lookup fid [(0x1001, _), (fid, _)] = _
    rw [List.lookup_cons, hne, List.lookup_cons_self]
  have hentries : Tables.erase [(0x1001, gameFile 0 1), (fid, gameFile place (place + 1))] fid =
      [(0x1001, gameFile 0 1)] := by
    have hfirst : ((0x1001 : UInt16) == fid) = false := beq_false_of_ne hplace.symm
    unfold Tables.erase
    rw [List.filter_cons_of_pos (by simp [hfirst]), List.filter_cons_of_neg (by simp)]
    rfl
  have hage : [0x1001, fid].erase fid = [0x1001] := by
    rw [List.erase_cons_tail (by simpa using hplace.symm), List.erase_cons_head]
  have hremove : (opened place fid closed).conn.files.remove fid =
      ⟨[(0x1001, gameFile 0 1)], [0x1001]⟩ := by
    unfold Aged.remove
    rw [hlookup, Option.isSome_some, if_pos rfl]
    exact congrArg₂ Aged.mk hentries hage
  have hfiles (w : World Unit) (files : List OpenFile) :
      (w.closeAll files).conn.files = w.conn.files := rfl
  rw [hlookup, hfiles, hremove]
  rfl

/-- As long as the count does not come back to the first FID the first file stays. -/
theorem not_along_rounds (n : Nat) : ∀ (place : Nat) (closed : List Nat), 1 ≤ place →
    place + n = FIDS → ¬ Along (step oneFile oneShare) (FidSound oneFile oneShare)
      (held place closed) (rounds place n) := by
  induction n with
  | zero =>
      intro place closed _ hplace h
      have hplace : place = FIDS := hplace
      subst hplace
      have hopens : (step oneFile oneShare (held FIDS closed) openGame).opens = FIDS + 1 := rfl
      have hfid : (step oneFile oneShare (held FIDS closed) openGame).fid = 0x1001 := by
        have hnext : (step oneFile oneShare (held FIDS closed) openGame).fid =
            (alloc (UInt16.ofNat (fidAt FIDS)) 0x1000).toNat := rfl
        rw [hnext, alloc_fidAt, UInt16.toNat_ofNat_of_lt' (fidAt_lt _)]
        rfl
      have hroom : (held FIDS closed).room.map Prod.fst = [0x1001] := rfl
      apply h.1.fresh
      · change (step oneFile oneShare (held FIDS closed) openGame).opens ≠ FIDS
        rw [hopens]
        exact Nat.succ_ne_self FIDS
      · rw [hfid, hroom]
        exact List.mem_singleton_self _
  | succ n ih =>
      intro place closed hone hplace h
      have hne : UInt16.ofNat (fidAt (place + 1)) ≠ 0x1001 := by
        intro heq
        have hnat := congrArg UInt16.toNat heq
        rw [UInt16.toNat_ofNat_of_lt' (fidAt_lt _)] at hnat
        have hfirst : fidAt (place + 1) = 0x1001 := hnat
        unfold fidAt FIDS at hfirst
        unfold FIDS at hplace
        omega
      apply ih (place + 1) (closed ++ [place]) (Nat.le_succ_of_le hone) (by omega)
      have hrest := h.2.2
      rw [step_open hne, step_close hne] at hrest
      exact hrest

/-- The first file is kept open while 61439 others are opened and closed, and one more is opened. -/
theorem kept_file_stored_over : ¬ Along (step oneFile oneShare) (FidSound oneFile oneShare)
    (World.new ()) (connectTree :: openGame :: rounds 1 61439) := by
  intro h
  have hheld : step oneFile oneShare (step oneFile oneShare (World.new ()) connectTree) openGame =
      held 1 [] := by decide +kernel
  have hrest := h.2.2
  rw [hheld] at hrest
  exact not_along_rounds 61439 1 [] (Nat.le_refl 1) rfl hrest

end Edge

end Ps2Servers.Smb1
