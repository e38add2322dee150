import Ps2Servers.Lib.Runs
import Ps2Servers.Smb1.Edge

/-!
# What a connection of Edge keeps

A connection never keeps more trees, open files and searches than it may: the age list of a table
holds every key of it. It holds others too. A tree that is disconnected and a search that has come
to its end leave the table and stay in the list, and so does a number that is given out while it is
in use. Where none of these happens, the list is the keys of the table in the order they came.
-/

namespace Ps2Servers.Smb1.Edge

open Runs

variable {H : Type} {ops : Ops H} {cfg : Config} {r : Req} {w : World H}

/-! ## What a request changes -/

/-- The host changes, and a file of the system may be opened and closed. -/
inductive Touch (w : World H) : World H → Prop
  | host (host : H) : Touch w { w with host := host }
  | transient (host : H) : Touch w { w.transient with host := host }

theorem Touch.refl (w : World H) : Touch w w := Touch.host w.host

theorem Touch.conn {w w' : World H} (h : Touch w w') : w'.conn = w.conn := by
  cases h with
  | host host => rfl
  | transient host => rfl

/-- The search of a FIND_NEXT2. -/
def searchOf (r : Req) : UInt16 := UInt16.ofNat (u16 (slice r (u16 r.params 20) (u16 r.params 18)) 0)

/-- The subcommand of a TRANS2. -/
def setupOf (r : Req) : Nat := if 1 ≤ (r.params.getD 26 0).toNat then u16 r.params 28 else 0

/-- What a request may do to a connection. -/
inductive Edit (w : World H) (r : Req) : World H → Prop
  | keep {w' : World H} (h : Touch w w') : Edit w r w'
  | login (uid : UInt16) : Edit w r { w with conn := { w.conn with uid := uid } }
  /-- A tree that is not kept. -/
  | room (hcmd : r.cmd = .treeConnectAndx) : Edit w r { w with conn := { w.conn with
      nextTID := alloc w.conn.nextTID 1, trees := (w.conn.trees.evict MaxTrees).1 } }
  | connect (hcmd : r.cmd = .treeConnectAndx) (share : Share) :
      Edit w r { w with conn := { w.conn with
        nextTID := alloc w.conn.nextTID 1
        trees := (w.conn.trees.evict MaxTrees).1.put (alloc w.conn.nextTID 1) share } }
  | disconnect (hcmd : r.cmd = .treeDisconnect) :
      Edit w r { w with conn := { w.conn with
        trees := w.conn.trees.delete (UInt16.ofNat r.tid), searches := .empty } }
  | logoff : Edit w r { w with conn := w.conn.dropSearches }
  | directory {w' : World H} (h : Touch w w') (hcmd : r.cmd = .ntCreateAndx) (path : String) :
      Edit w r (addFile w' path none true 0).2
  | file {w' : World H} (h : Touch w w') (hcmd : r.cmd = .openAndx ∨ r.cmd = .ntCreateAndx)
      (path : String) (size : Nat) : Edit w r (openFile w' path size).2
  | close (fid : UInt16) :
      Edit w r { w.closeAll (w.conn.files.entries.lookup fid).toList with
        conn := { w.conn with files := w.conn.files.remove fid } }
  | find (hcmd : r.cmd = .trans2) (hsetup : setupOf r = 0x01) (search : Search) :
      Edit w r { w with conn := { w.conn with
        nextSID := alloc w.conn.nextSID 1
        searches := (w.conn.searches.evict MaxSearches).1.put (alloc w.conn.nextSID 1) search } }
  | next (f : Search → Search) :
      Edit w r { w with conn := { w.conn with
        searches := w.conn.searches.update (searchOf r) f } }
  | finish (hcmd : r.cmd = .trans2) (hsetup : setupOf r = 0x02) (search : Search)
      (hsearch : w.conn.searches.entries.lookup (searchOf r) = some search)
      (hdone : search.entries.length ≤ search.cursor) :
      Edit w r { w with conn := { w.conn with searches := w.conn.searches.delete (searchOf r) } }

theorem Edit.refl (w : World H) (r : Req) : Edit w r w := .keep (Touch.refl w)

theorem edit_treeConnect (hcmd : r.cmd = .treeConnectAndx) :
    Edit w r (treeConnect ops cfg r w).2 := by
  unfold treeConnect
  dsimp only
  split
  · exact .room hcmd
  split
  · exact .room hcmd
  · exact .connect hcmd _

theorem edit_openAndX (hcmd : r.cmd = .openAndx) : Edit w r (openAndX ops r w).2 := by
  unfold openAndX
  split
  · exact .refl w r
  split
  · exact .refl w r
  split
  · exact .refl w r
  split
  · exact .refl w r
  split
  · exact .file (Touch.refl w) (Or.inl hcmd) _ _
  · exact .refl w r

theorem touch_ntCreate (path : String) (disposition : Disposition) (requestedDir : Bool) :
    Touch w (ntCreate ops cfg w path disposition requestedDir).2 := by
  unfold ntCreate
  split
  · split
    · exact .refl w
    split
    · exact .refl w
    split
    · split
      · exact .refl w
      split
      · exact .refl w
      · exact .transient _
    · exact .refl w
  · split
    · exact .refl w
    split
    · exact .refl w
    split
    · exact .refl w
    split
    · exact .refl w
    split
    · split
      · exact .refl w
      · exact .refl w
      · exact .host _
    · split
      · exact .refl w
      · exact .refl w
      · exact .transient _
  · exact .refl w

theorem edit_openCreated {w' : World H} (h : Touch w w') (hcmd : r.cmd = .ntCreateAndx)
    (path : String) (action : Nat) : Edit w r (openCreated ops w' path action).2 := by
  unfold openCreated
  split
  · exact .keep h
  split
  · exact .directory h hcmd _
  split
  · exact .file h (Or.inr hcmd) _ _
  · exact .keep h

theorem edit_ntCreateAndX (hcmd : r.cmd = .ntCreateAndx) :
    Edit w r (ntCreateAndX ops cfg r w).2 := by
  unfold ntCreateAndX
  split
  · exact .refl w r
  dsimp only
  split
  · exact .refl w r
  split
  · exact .refl w r
  · rename_i share _ _ disposition _ _ path _
    have htouch := @touch_ntCreate H ops cfg w path disposition
      ((if 43 ≤ r.params.length then u32 r.params 39 else 0) &&& 1 != 0)
    split
    · rename_i hcreate
      rw [hcreate] at htouch
      exact .keep htouch
    · rename_i hcreate
      rw [hcreate] at htouch
      exact edit_openCreated htouch hcmd _ _

theorem touch_writeAndX : Touch w (writeAndX ops cfg r w).2 := by
  unfold writeAndX
  split
  · exact .refl w
  dsimp only
  split
  · exact .refl w
  split
  · exact .transient _
  · exact .refl w

theorem touch_createDirectory : Touch w (createDirectory ops cfg r w).2 := by
  unfold createDirectory
  split
  · exact .refl w
  split
  · exact .refl w
  dsimp only
  split
  · exact .refl w
  split
  · exact .refl w
  · split
    · exact .refl w
    split
    · exact .refl w
    · exact .refl w
    · exact .host _
  · exact .refl w
  · exact .refl w

theorem edit_findFirst2 (hcmd : r.cmd = .trans2) (hsetup : setupOf r = 0x01) (tParams : Bytes) :
    Edit w r (findFirst2 ops r tParams w).2 := by
  unfold findFirst2
  split
  · exact .refl w r
  split
  · exact .refl w r
  dsimp only
  split
  · exact .refl w r
  split
  · split
    · exact .find hcmd hsetup _
    · exact .refl w r
  · exact .refl w r

theorem edit_findNext2 (hcmd : r.cmd = .trans2) (hsetup : setupOf r = 0x02) :
    Edit w r (findNext2 ops (slice r (u16 r.params 20) (u16 r.params 18)) w).2 := by
  unfold findNext2
  dsimp only
  split
  · exact .refl w r
  · rename_i search hsearch
    split
    · rename_i hnone
      exact .finish hcmd hsetup search hsearch (List.getElem?_eq_none_iff.mp hnone)
    · exact .next _

theorem edit_trans2 (hcmd : r.cmd = .trans2) : Edit w r (trans2 ops r w).2 := by
  have hsetup : setupOf r = if 1 ≤ (r.params.getD 26 0).toNat then u16 r.params 28 else 0 := rfl
  unfold trans2
  dsimp only
  rw [← hsetup]
  split
  · rename_i h
    exact edit_findFirst2 hcmd h _
  · rename_i h
    exact edit_findNext2 hcmd h
  · exact .refl w r
  · exact .refl w r

/-- A request does one of these. -/
theorem edit_step (ops : Ops H) (cfg : Config) (w : World H) (r : Req) :
    Edit w r (step ops cfg w r) := by
  unfold step dispatch
  cases hcmd : r.cmd with
  | createDirectory => exact .keep touch_createDirectory
  | close => exact .close _
  | checkDirectory => exact .refl w r
  | transaction => exact .refl w r
  | echo => exact .refl w r
  | openAndx => exact edit_openAndX hcmd
  | readAndx => exact .refl w r
  | writeAndx => exact .keep touch_writeAndX
  | trans2 => exact edit_trans2 hcmd
  | treeDisconnect => exact .disconnect hcmd
  | negotiate => exact .refl w r
  | sessionSetupAndx => exact .login _
  | logoffAndx => exact .logoff
  | treeConnectAndx => exact edit_treeConnect hcmd
  | queryInformationDisk => exact .refl w r
  | ntCreateAndx => exact edit_ntCreateAndX hcmd
  | other code => exact .refl w r

/-! ## Limits -/

/-- So many trees, open files and searches at most. -/
structure Conn.Limited (c : Conn) : Prop where
  trees : c.trees.entries.length ≤ MaxTrees
  files : c.files.entries.length ≤ MaxOpenFiles
  searches : c.searches.entries.length ≤ MaxSearches

structure Conn.Covered (c : Conn) : Prop where
  trees : c.trees.Covered
  files : c.files.Covered
  searches : c.searches.Covered

theorem covered_new : Conn.new.Covered :=
  ⟨Aged.covered_empty, Aged.covered_empty, Aged.covered_empty⟩

theorem limited_new : Conn.new.Limited := ⟨Nat.zero_le _, Nat.zero_le _, Nat.zero_le _⟩

section Room

variable {κ α : Type*} [BEq κ] [LawfulBEq κ] {t : Aged κ α} {cap : Nat}

/-- An entry that comes when room was made. -/
theorem covered_put_evict (h : t.Covered) (hcap : 0 < cap) (key : κ) (a : α) :
    ((t.evict cap).1.put key a).Covered ∧ ((t.evict cap).1.put key a).entries.length ≤ cap := by
  have hlt := h.length_evict_lt hcap
  have hle := Aged.length_put_le (t.evict cap).1 key a
  exact ⟨(h.evict hcap).put key a, by omega⟩

end Room

theorem limited_addFile (w' : World H) (hconn : w'.conn = w.conn) (hc : w.conn.Covered)
    (hl : w.conn.Limited) (path : String) (fh : Option Nat) (isDir : Bool) (size : Nat) :
    (addFile w' path fh isDir size).2.conn.Covered ∧
      (addFile w' path fh isDir size).2.conn.Limited := by
  obtain ⟨hfiles, hlength⟩ := covered_put_evict hc.files (by decide : 0 < MaxOpenFiles)
    (alloc w.conn.nextFID 0x1000) ⟨path, fh, isDir, size, w'.opens + 1⟩
  unfold addFile
  rw [hconn]
  exact ⟨⟨hc.trees, hfiles, hc.searches⟩, ⟨hl.trees, hlength, hl.searches⟩⟩

theorem Edit.limited {w' : World H} (h : Edit w r w') (hc : w.conn.Covered)
    (hl : w.conn.Limited) : w'.conn.Covered ∧ w'.conn.Limited := by
  cases h with
  | keep h =>
      rw [h.conn]
      exact ⟨hc, hl⟩
  | login uid => exact ⟨⟨hc.trees, hc.files, hc.searches⟩, ⟨hl.trees, hl.files, hl.searches⟩⟩
  | room hcmd =>
      have hroom : 0 < MaxTrees := by decide
      exact ⟨⟨hc.trees.evict hroom, hc.files, hc.searches⟩,
        ⟨Nat.le_of_lt (hc.trees.length_evict_lt hroom), hl.files, hl.searches⟩⟩
  | connect hcmd share =>
      obtain ⟨htrees, hlength⟩ := covered_put_evict hc.trees (by decide : 0 < MaxTrees)
        (alloc w.conn.nextTID 1) share
      exact ⟨⟨htrees, hc.files, hc.searches⟩, ⟨hlength, hl.files, hl.searches⟩⟩
  | disconnect hcmd =>
      exact ⟨⟨hc.trees.delete _, hc.files, Aged.covered_empty⟩,
        ⟨Nat.le_trans (Aged.length_delete_le _ _) hl.trees, hl.files, Nat.zero_le _⟩⟩
  | logoff =>
      exact ⟨⟨hc.trees, hc.files, Aged.covered_empty⟩, ⟨hl.trees, hl.files, Nat.zero_le _⟩⟩
  | @directory w₁ h hcmd path => exact limited_addFile w₁ h.conn hc hl _ _ _ _
  | @file w₁ h hcmd path size =>
      exact limited_addFile { w₁ with opened := w₁.opened + 1 } h.conn hc hl _ _ _ _
  | close fid =>
      exact ⟨⟨hc.trees, hc.files.remove fid, hc.searches⟩,
        ⟨hl.trees, Nat.le_trans (Aged.length_remove_le _ _) hl.files, hl.searches⟩⟩
  | find hcmd hsetup search =>
      obtain ⟨hsearches, hlength⟩ := covered_put_evict hc.searches (by decide : 0 < MaxSearches)
        (alloc w.conn.nextSID 1) search
      exact ⟨⟨hc.trees, hc.files, hsearches⟩, ⟨hl.trees, hl.files, hlength⟩⟩
  | next f =>
      refine ⟨⟨hc.trees, hc.files, hc.searches.update _ f⟩, ⟨hl.trees, hl.files, ?_⟩⟩
      rw [Aged.length_update]
      exact hl.searches
  | finish hcmd hsetup search hsearch hdone =>
      exact ⟨⟨hc.trees, hc.files, hc.searches.delete _⟩,
        ⟨hl.trees, hl.files, Nat.le_trans (Aged.length_delete_le _ _) hl.searches⟩⟩

theorem limited_run (ops : Ops H) (cfg : Config) (host : H) (reqs : List Req) :
    (reqs.foldl (step ops cfg) (World.new host)).conn.Covered ∧
      (reqs.foldl (step ops cfg) (World.new host)).conn.Limited := by
  have hrun : ∀ w : World H, w.conn.Covered ∧ w.conn.Limited →
      (reqs.foldl (step ops cfg) w).conn.Covered ∧
        (reqs.foldl (step ops cfg) w).conn.Limited := by
    induction reqs with
    | nil => exact fun w h => h
    | cons r rest ih =>
        intro w h
        exact ih _ ((edit_step ops cfg w r).limited h.1 h.2)
  exact hrun _ ⟨covered_new, limited_new⟩

/-! ## Age lists -/

/-- Each age list is the keys of its table, in the order they came. -/
structure Conn.Exact (c : Conn) : Prop where
  trees : c.trees.Exact
  files : c.files.Exact
  searches : c.searches.Exact

theorem exact_new : Conn.new.Exact := ⟨Aged.exact_empty, Aged.exact_empty, Aged.exact_empty⟩

/-- A request that finds the age lists exact leaves them so: no tree is disconnected, no search is
asked for more than it has, and no number is given out that is in use. -/
structure Keeps (c : Conn) (r : Req) : Prop where
  tid : r.cmd = .treeConnectAndx → alloc c.nextTID 1 ∉ (c.trees.evict MaxTrees).1.keys
  fid : r.cmd = .openAndx ∨ r.cmd = .ntCreateAndx →
    alloc c.nextFID 0x1000 ∉ (c.files.evict MaxOpenFiles).1.keys
  sid : r.cmd = .trans2 → setupOf r = 0x01 →
    alloc c.nextSID 1 ∉ (c.searches.evict MaxSearches).1.keys
  disconnect : r.cmd = .treeDisconnect → UInt16.ofNat r.tid ∉ c.trees.keys
  next : r.cmd = .trans2 → setupOf r = 0x02 →
    ∀ search, c.searches.entries.lookup (searchOf r) = some search →
      search.cursor < search.entries.length

theorem exact_addFile (w' : World H) (hconn : w'.conn = w.conn) (hc : w.conn.Exact)
    (hfid : alloc w.conn.nextFID 0x1000 ∉ (w.conn.files.evict MaxOpenFiles).1.keys)
    (path : String) (fh : Option Nat) (isDir : Bool) (size : Nat) :
    (addFile w' path fh isDir size).2.conn.Exact := by
  have hfiles := (hc.files.evict MaxOpenFiles).put hfid ⟨path, fh, isDir, size, w'.opens + 1⟩
  unfold addFile
  rw [hconn]
  exact ⟨hc.trees, hfiles, hc.searches⟩

theorem Edit.exact {w' : World H} (h : Edit w r w') (hc : w.conn.Exact) (hk : Keeps w.conn r) :
    w'.conn.Exact := by
  cases h with
  | keep h =>
      rw [h.conn]
      exact hc
  | login uid => exact ⟨hc.trees, hc.files, hc.searches⟩
  | room hcmd => exact ⟨hc.trees.evict _, hc.files, hc.searches⟩
  | connect hcmd share =>
      exact ⟨(hc.trees.evict _).put (hk.tid hcmd) share, hc.files, hc.searches⟩
  | disconnect hcmd =>
      exact ⟨hc.trees.delete (hk.disconnect hcmd), hc.files, Aged.exact_empty⟩
  | logoff => exact ⟨hc.trees, hc.files, Aged.exact_empty⟩
  | @directory w₁ h hcmd path => exact exact_addFile w₁ h.conn hc (hk.fid (Or.inr hcmd)) _ _ _ _
  | @file w₁ h hcmd path size =>
      exact exact_addFile { w₁ with opened := w₁.opened + 1 } h.conn hc (hk.fid hcmd) _ _ _ _
  | close fid => exact ⟨hc.trees, hc.files.remove fid, hc.searches⟩
  | find hcmd hsetup search =>
      exact ⟨hc.trees, hc.files, (hc.searches.evict _).put (hk.sid hcmd hsetup) search⟩
  | next f => exact ⟨hc.trees, hc.files, hc.searches.update _ f⟩
  | finish hcmd hsetup search hsearch hdone =>
      have hmore := hk.next hcmd hsetup search hsearch
      omega

theorem exact_run (ops : Ops H) (cfg : Config) (host : H) (reqs : List Req)
    (h : Along (step ops cfg) (fun w r => Keeps w.conn r) (World.new host) reqs) :
    (reqs.foldl (step ops cfg) (World.new host)).conn.Exact := by
  have hrun : ∀ w : World H, w.conn.Exact →
      Along (step ops cfg) (fun w r => Keeps w.conn r) w reqs →
      (reqs.foldl (step ops cfg) w).conn.Exact := by
    clear h
    induction reqs with
    | nil => exact fun w hw _ => hw
    | cons r rest ih =>
        intro w hw h
        exact ih _ ((edit_step ops cfg w r).exact hw h.1) h.2
  exact hrun _ exact_new h

/-- A table of at most `cap` entries whose age list is its keys: when room is made, the oldest entry
goes, and only if there is no room. -/
structure Ages {κ α : Type} [BEq κ] (cap : Nat) (t : Aged κ α) : Prop where
  exact : t.Exact
  short : t.age.length ≤ cap
  room : t.entries.length < cap → t.evict cap = (t, [])
  oldest : ∀ e rest, t.entries = e :: rest → t.entries.length = cap →
    t.evict cap = (⟨rest, rest.map Prod.fst⟩, [e.2])

theorem ages_of_exact {κ α : Type} [BEq κ] [LawfulBEq κ] {cap : Nat} {t : Aged κ α}
    (h : t.Exact) (hlength : t.entries.length ≤ cap) : Ages cap t := by
  constructor
  · exact h
  · rw [h.age, Aged.keys, List.length_map]
    exact hlength
  · intro hlt
    rw [h.evict_eq, Nat.sub_eq_zero_of_le hlt]
    rfl
  · intro e rest hentries hfull
    have hone : t.entries.length + 1 - cap = 1 := by
      omega
    rw [h.evict_eq, hone, h.age, Aged.keys, hentries]
    rfl

/-- Over every run of requests a connection keeps at most so many trees, open files and searches.
Over every run whose requests disconnect no tree, ask no search for more than it has and come to no
number that is in use, each age list is the keys of its table in the order they came, and what goes
when there is no room is the oldest entry. -/
theorem connection_ages (ops : Ops H) (cfg : Config) (host : H) :
    (∀ reqs : List Req, (reqs.foldl (step ops cfg) (World.new host)).conn.Limited) ∧
    ∀ reqs : List Req, Along (step ops cfg) (fun w r => Keeps w.conn r) (World.new host) reqs →
      Ages MaxTrees (reqs.foldl (step ops cfg) (World.new host)).conn.trees ∧
      Ages MaxOpenFiles (reqs.foldl (step ops cfg) (World.new host)).conn.files ∧
      Ages MaxSearches (reqs.foldl (step ops cfg) (World.new host)).conn.searches := by
  constructor
  · exact fun reqs => (limited_run ops cfg host reqs).2
  · intro reqs h
    have hexact := exact_run ops cfg host reqs h
    have hlimited := (limited_run ops cfg host reqs).2
    exact ⟨ages_of_exact hexact.trees hlimited.trees, ages_of_exact hexact.files hlimited.files,
      ages_of_exact hexact.searches hlimited.searches⟩

/-! ## A tree that is disconnected -/

/-- A host with one file. -/
def oneFile : Ops Unit where
  lower := id
  resolve _ share _ _ := some share.root
  stat _ _ := .ok ⟨false, true, 4, 0⟩
  openRead _ _ := true
  readAt _ _ _ _ := []
  readDirNames _ _ := none
  dirname := id
  join a b := a ++ b
  truncate host _ := .ok (host, true)
  createFile host _ := .ok (host, true)
  mkdir host _ := .ok host
  openWrite _ _ := true
  writeAt host _ _ _ := (host, some 0)

def oneShare : Config := ⟨[([0x67], ⟨[0x67], "/srv/game.iso"⟩)], true⟩

def request (code tid : Nat) (params : Bytes) : Req := ⟨code, tid, 1, 0, 1, 0, params, [], []⟩

def connectTree : Req := request 0x75 0 []

def disconnectTree : Req := request 0x71 2 []

instance Keeps.decidable (c : Conn) (r : Req) : Decidable (Keeps c r) :=
  decidable_of_iff
    ((r.cmd = .treeConnectAndx → alloc c.nextTID 1 ∉ (c.trees.evict MaxTrees).1.keys) ∧
      (r.cmd = .openAndx ∨ r.cmd = .ntCreateAndx →
        alloc c.nextFID 0x1000 ∉ (c.files.evict MaxOpenFiles).1.keys) ∧
      (r.cmd = .trans2 → setupOf r = 0x01 →
        alloc c.nextSID 1 ∉ (c.searches.evict MaxSearches).1.keys) ∧
      (r.cmd = .treeDisconnect → UInt16.ofNat r.tid ∉ c.trees.keys) ∧
      (r.cmd = .trans2 → setupOf r = 0x02 →
        (c.searches.entries.lookup (searchOf r)).all
          fun search => search.cursor < search.entries.length))
    ⟨fun ⟨htid, hfid, hsid, hdisconnect, hnext⟩ => ⟨htid, hfid, hsid, hdisconnect,
        fun hcmd hsetup => by simpa [Option.all_eq_true] using hnext hcmd hsetup⟩,
      fun h => ⟨h.tid, h.fid, h.sid, h.disconnect,
        fun hcmd hsetup => by simpa [Option.all_eq_true] using h.next hcmd hsetup⟩⟩

/-- A host with a folder of one file. -/
def oneFolder : Ops Unit :=
  { oneFile with
    resolve := fun _ share name _ => some (if name = [0x67] then "/srv/g" else share.root)
    stat := fun _ path => .ok ⟨path != "/srv/g", path == "/srv/g", 4, 0⟩
    readDirNames := fun _ _ => some ["g"] }

/-- A TRANS2 of the newest tree. -/
def transact (setup : Nat) (tParams : Bytes) : Req :=
  ⟨0x32, 18, 1, 0, 1, 15, List.replicate 18 0 ++ le16 tParams.length ++ le16 0 ++
    List.replicate 4 0 ++ [1, 0] ++ le16 setup, [], tParams⟩

/-- A tree more than there is room for; then a file is opened twice and closed once, and the folder is
listed twice, the first time as far as the second entry. -/
def browsing : List Req :=
  List.replicate 17 connectTree ++
    [⟨0x2D, 18, 1, 0, 1, 0, [], [0x67, 0], []⟩, ⟨0x2D, 18, 1, 0, 1, 0, [], [0x67, 0], []⟩,
      request 0x04 18 (le16 0x1001), transact 1 (List.replicate 13 0), transact 2 (le16 2),
      transact 1 (List.replicate 13 0)]

theorem browsing_ages :
    let c := (browsing.foldl (step oneFolder oneShare) (World.new ())).conn
    (Ages MaxTrees c.trees ∧ Ages MaxOpenFiles c.files ∧ Ages MaxSearches c.searches) ∧
      c.trees.age = (List.range' 3 16).map UInt16.ofNat ∧ c.files.age = [0x1002] ∧
      c.searches.age = [2, 3] :=
  ⟨(connection_ages oneFolder oneShare ()).2 browsing (by decide +kernel), by decide +kernel⟩

/-- The number stays in the age list of a table that is empty. -/
theorem disconnected_tree_ages :
    let w := [connectTree, disconnectTree].foldl (step oneFile oneShare) (World.new ())
    w.conn.trees.entries = [] ∧ w.conn.trees.age = [2] ∧ ¬ Ages MaxTrees w.conn.trees := by
  have hage : ([connectTree, disconnectTree].foldl (step oneFile oneShare)
      (World.new ())).conn.trees = ⟨[], [2]⟩ := by decide +kernel
  dsimp only
  rw [hage]
  refine ⟨rfl, rfl, fun h => ?_⟩
  have hexact := h.exact.age
  cases hexact

end Ps2Servers.Smb1.Edge
