import Ps2Servers.Smb2.Sessions

/-!
# A client stays inside its shares

Whatever a client sends, what happens to the host happens at paths inside the shares of the server. A
client of protected shares changes nothing at all. And where each request that writes names a handle of
its own tree, nothing changes but inside the shares that are not protected.
-/

namespace Ps2Servers.Smb2

open Text Effects

variable {H F : Type} {svc : Service H F} {base : Env ShareTree Unit} {R : Rule H F}

/-- The server has this share. -/
def Service.Has (svc : Service H F) (share : Share) : Prop := ∃ name, (name, share) ∈ svc.shares

theorem Service.has_of_treeNamed {path : Bytes} {share : Share}
    (h : svc.treeNamed path = some (.disk share)) : svc.Has share := by
  unfold Service.treeNamed at h
  dsimp only at h
  split at h
  · cases h
  · rw [Option.map_eq_some_iff] at h
    obtain ⟨found, hfound, h⟩ := h
    cases h
    unfold Service.shareCalled at hfound
    split at hfound
    · rename_i hlookup
      cases hfound
      exact ⟨_, Tables.mem_of_lookup hlookup⟩
    · rw [Option.map_eq_some_iff] at hfound
      obtain ⟨e, he, rfl⟩ := hfound
      exact ⟨e.1, List.mem_of_find?_eq_some he⟩

/-- The trees of a connection are shares that the server has. -/
def Serving.Offered (svc : Service H F) (w : Serving H F) : Prop :=
  ∀ id share, (id, .disk share) ∈ w.state.conn.tables.trees → svc.Has share

theorem Serving.Offered.next {w : Serving H F} (hw : w.Offered svc) (e : Event) :
    (w.next svc base e).Offered svc := by
  intro id share ht
  cases w.step_cases svc base e with
  | quiet _ _ htrees =>
      rcases htrees _ ht with h | ⟨-, path, h⟩
      · exact hw id share h
      · exact Service.has_of_treeNamed h
  | logoff p random he hcommand haccess =>
      have htrees : (w.next svc base e).state.conn.tables.trees = [] := congrArg (fun a => a.2.2) haccess
      rw [htrees] at ht
      cases ht
  | challenge p random token raw he haccess =>
      have htrees : (w.next svc base e).state.conn.tables.trees = w.state.conn.tables.trees :=
        congrArg (fun a => a.2.2) haccess
      rw [htrees] at ht
      exact hw id share ht
  | accept p random key he haccess =>
      have htrees : (w.next svc base e).state.conn.tables.trees = w.state.conn.tables.trees :=
        congrArg (fun a => a.2.2) haccess
      rw [htrees] at ht
      exact hw id share ht

/-- The rule covers what a step may do. -/
structure Rule.Covers (svc : Service H F) (R : Rule H F) (w : Serving H F) (e : Event) : Prop where
  tree : ∀ {id share}, (id, .disk share) ∈ w.state.conn.tables.trees → R.tree share
  change : ∀ {id share}, (id, .disk share) ∈ w.state.conn.tables.trees →
    svc.protects (.disk share) = false → R.change share
  fair : ∀ {p random}, e = .input (.request p random) →
    p.hdr.command = .write ∨ p.hdr.command = .setInfo → R.Fair svc (w.context p) w.files

theorem Rule.Holds.next (hR : R.Sound svc) {w : Serving H F} (hw : R.Holds w.files) {e : Event}
    (he : R.Covers svc w e) : R.Holds (w.next svc base e).files :=
  w.next_keeps svc base (fun _ hs => hs.closeAll hR) hw fun p _ hevent =>
    keeps_execute hR (c := w.context p) ⟨he.tree, he.change⟩ p.hdr.command hw (he.fair hevent)

/-- A rule that covers every step of a run holds in all of it. -/
theorem reached_holds (hR : R.Sound svc) {h : H} (hh : R.host h) {ok : Serving H F → Event → Prop}
    (hok : ∀ w e, ok w e → w.Offered svc → R.Holds w.files → R.Covers svc w e) {w : Serving H F}
    (hw : (serving svc base h).ReachedWhen ok w) : R.Holds w.files ∧ w.Offered svc := by
  induction hw with
  | init hinit =>
      cases hinit
      refine ⟨⟨hh, fun e he => (by cases he), List.nodup_nil⟩, ?_⟩
      intro id share ht
      cases ht
  | step _ hstep hs ih =>
      cases hs
      exact ⟨ih.1.next hR (hok _ _ hstep ih.2 ih.1), ih.2.next _⟩

/-! ## Protected shares -/

/-- A file object that was opened for reading changes nothing. -/
structure Service.ReadsOnly (svc : Service H F) : Prop where
  openFile : ∀ {h path fh}, svc.host.openFile h path false = .ok fh → svc.reading fh = true
  read : ∀ {h fh} (offset length), svc.reading fh = true →
    svc.reading (svc.host.read h fh offset length).2.1 = true ∧
      (svc.host.read h fh offset length).2.2 = h
  flush : ∀ {h fh}, svc.reading fh = true →
    svc.reading (svc.host.flush h fh).2.1 = true ∧ (svc.host.flush h fh).2.2 = h
  close : ∀ {h fh}, svc.reading fh = true → svc.host.close h fh = h

/-- Every tree that is connected is protected. -/
def Serving.Protected (svc : Service H F) (w : Serving H F) : Prop :=
  ∀ t ∈ w.state.conn.tables.trees, svc.protects t.2 = true

/-- A run on protected shares leaves the host as it was. -/
theorem protected_unchanged (hreads : svc.ReadsOnly) {h : H} {w : Serving H F}
    (hw : (serving svc base h).ReachedWhen (fun w _ => w.Protected svc) w) : w.files.host = h := by
  let R : Rule H F := ⟨(· = h), fun fh => svc.reading fh = true, fun _ => True, fun _ => False⟩
  have hR : R.Sound svc := {
    openRead := fun _ _ _ hopen => hreads.openFile hopen
    read := fun offset length hh hfh =>
      ⟨(hreads.read offset length hfh).1, (hreads.read offset length hfh).2.trans hh⟩
    flush := fun hh hfh => ⟨(hreads.flush hfh).1, (hreads.flush hfh).2.trans hh⟩
    close := fun hh hfh => (hreads.close hfh).trans hh
    openWrite := fun _ hchange => hchange.elim
    write := fun _ _ _ hfh hwrite => (by cases hwrite.symm.trans hfh)
    truncate := fun _ _ hfh hwrite => (by cases hwrite.symm.trans hfh)
    create := fun _ hchange => hchange.elim
    mkdir := fun _ hchange => hchange.elim
    remove := fun _ hchange => hchange.elim
    rmdir := fun _ hchange => hchange.elim
    replace := fun _ hchange => hchange.elim }
  refine (reached_holds hR rfl (fun w e hprotected _ _ => ?_) hw).1.host
  refine ⟨fun _ => trivial, fun ht hwrite => ?_, fun _ _ share handle hlookup hwrite _ => ?_⟩
  · cases hwrite.symm.trans (hprotected _ ht)
  · cases hwrite.symm.trans (hprotected _ (Tables.mem_of_lookup hlookup))

theorem memory_readsOnly (readOnly : Bool) (shares : List (Name × Share)) :
    (memoryService readOnly shares).ReadsOnly where
  openFile := by
    intro h path fh hfh
    cases memory_open hfh
    rfl
  read := by
    intro h fh offset length hfh
    have hread : ((memoryService readOnly shares).host.read h fh offset length).2 = (fh, h) :=
      memory_read h fh offset length
    rw [hread]
    exact ⟨hfh, rfl⟩
  flush := fun hfh => ⟨hfh, rfl⟩
  close := fun _ => rfl

theorem protected_unchanged_saving :
    (saving.foldl (Serving.next (memoryService true [(lit "G", gamesShare)]) openAccess)
        (Serving.new memoryTree)).state.conn.tables.trees = [(1, .disk gamesShare)] ∧
      (saving.foldl (Serving.next (memoryService true [(lit "G", gamesShare)]) openAccess)
        (Serving.new memoryTree)).files.host = memoryTree := by
  refine ⟨rfl, @protected_unchanged Tree Opened _ openAccess (memory_readsOnly true [(lit "G", gamesShare)])
    memoryTree _ ?_⟩
  refine Runs.System.ReachedWhen.along (.init rfl) (.of_forall (fun w e t _ => ?_) _ saving)
  cases t.2 with
  | ipc => rfl
  | disk share => rfl

/-! ## Shares that may be changed -/

/-- What calls on paths inside the shares of the server keep is kept by every run. -/
theorem confined {P : H → Prop} {file : F → Prop} (hP : (Rule.mk P file svc.Has svc.Has).Sound svc) {h : H}
    (hh : P h) {w : Serving H F} (hw : (serving svc base h).Reached w) : P w.files.host := by
  refine (reached_holds hP hh (fun w e _ hoffered hfiles => ?_) hw).1.host
  refine ⟨fun ht => hoffered _ _ ht, fun ht _ => hoffered _ _ ht, fun _ _ share handle _ _ hfind => ?_⟩
  exact (hfiles.handle hfind).tree

theorem confined_saving :
    (saving.foldl (Serving.next (memoryService false [(lit "G", gamesShare)]) openAccess)
        (Serving.new memoryTree)).files.host [lit "games", lit "S"] = some (.file [0x2a]) ∧
      (saving.foldl (Serving.next (memoryService false [(lit "G", gamesShare)]) openAccess)
        (Serving.new memoryTree)).files.host [lit "private"] = some (.file [0x70]) := by
  refine ⟨rfl, ?_⟩
  refine @confined Tree Opened _ openAccess (fun tree => tree [lit "private"] = some (.file [0x70])) _
    (memory_sound ?_ _) memoryTree rfl _
    (Runs.System.ReachedWhen.along (.init rfl) (.of_forall (fun _ _ => trivial) _ saving))
  rintro share ⟨name, hshare⟩
  cases List.mem_singleton.mp hshare
  decide

/-- A request that writes names a handle of the share whose tree it names. -/
def Serving.Matched (w : Serving H F) : Event → Prop
  | .input (.request p _) => p.hdr.command = .write ∨ p.hdr.command = .setInfo →
      ∀ share handle, (w.context p).trees.lookup (w.context p).treeId = some (.disk share) →
        w.files.find (((w.context p).fileId ((w.context p).body.sub 16 16)).field 8 8) =
          some (.file handle) → handle.share = share
  | _ => True

theorem Serving.matched_ask (w : Serving H F) {command : Command} {treeId : Nat} {body : Bytes}
    (h : ¬ (command = .write ∨ command = .setInfo)) : w.Matched (ask command treeId body) :=
  fun hwrites => absurd hwrites h

/-- Where requests that write name handles of their own trees, what calls on paths inside the shares that
are not protected keep is kept by every run. -/
theorem confined_of_matched {P : H → Prop} {file : F → Prop}
    (hP : (Rule.mk P file svc.Has fun share =>
      svc.Has share ∧ svc.protects (.disk share) = false).Sound svc) {h : H} (hh : P h) {w : Serving H F}
    (hw : (serving svc base h).ReachedWhen (fun w e => w.Matched e) w) : P w.files.host := by
  refine (reached_holds hP hh (fun w e hmatched hoffered hfiles => ?_) hw).1.host
  refine ⟨fun ht => hoffered _ _ ht, fun ht hwrite => ⟨hoffered _ _ ht, hwrite⟩, ?_⟩
  rintro p random rfl hcommand share handle hlookup hwrite hfind
  cases hmatched hcommand share handle hlookup hfind
  exact ⟨(hfiles.handle hfind).tree, hwrite⟩

/-- A share that may be changed, and one that may not. -/
def twoShares : List (Name × Share) := [(lit "G", gamesShare), (lit "K", ⟨lit "K", [lit "kept"], true⟩)]

def twoFolders : Tree :=
  Tree.put (Tree.put memoryTree [lit "kept"] .dir) [lit "kept", lit "S"] (.file [0x6b])

def connectK : Event := ask .treeConnect 0 (Bytes.ofNat 4 9 ++ Bytes.ofNat 2 72 ++ Bytes.ofNat 2 2 ++ [0x4b, 0])

/-- A CREATE of `S` on the second tree. -/
def createK (access disposition : Nat) : Event :=
  ask .create 2 (Bytes.ofNat 24 57 ++ Bytes.ofNat 4 access ++ Bytes.ofNat 8 0 ++ Bytes.ofNat 4 disposition ++
    Bytes.ofNat 4 0 ++ Bytes.ofNat 2 120 ++ Bytes.ofNat 2 2 ++ Bytes.ofNat 8 0 ++ [0x53, 0])

/-- A WRITE of one byte through the second handle. -/
def writeK : Event :=
  ask .write 2 (Bytes.ofNat 2 49 ++ Bytes.ofNat 2 112 ++ Bytes.ofNat 4 1 ++ Bytes.ofNat 8 0 ++ Bytes.ofNat 8 2 ++
    Bytes.ofNat 8 2 ++ Bytes.ofNat 16 0 ++ [0x2a])

/-- Both shares are connected, and on both a file is opened and written. -/
def savingTwice : List Event :=
  [setupWith 1, setupWith 3, connectG, connectK, createS FILE_CREATE, writeOne, createK 1 FILE_OPEN,
    writeK, createK 2 FILE_OVERWRITE]

def savedTwice : Serving Tree Opened :=
  savingTwice.foldl (Serving.next (memoryService false twoShares) openAccess) (Serving.new twoFolders)

theorem confined_of_matched_savingTwice :
    savedTwice.state.conn.tables.trees.length = 2 ∧
      savedTwice.files.host [lit "games", lit "S"] = some (.file [0x2a]) ∧
      savedTwice.files.host [lit "kept", lit "S"] = some (.file [0x6b]) := by
  refine ⟨by decide +kernel, by decide +kernel, ?_⟩
  refine @confined_of_matched Tree Opened _ openAccess
    (fun tree => tree [lit "kept", lit "S"] = some (.file [0x6b])) _ (memory_sound ?_ _) twoFolders rfl
    _ (Runs.System.ReachedWhen.along (.init rfl) ?_)
  · rintro share ⟨⟨name, hshare⟩, hwrite⟩
    rcases List.mem_cons.mp hshare with h | h
    · cases h
      decide
    · cases List.mem_singleton.mp h
      cases hwrite
  · refine ⟨Serving.matched_ask _ (by decide), Serving.matched_ask _ (by decide),
      Serving.matched_ask _ (by decide), Serving.matched_ask _ (by decide),
      Serving.matched_ask _ (by decide), ?_, Serving.matched_ask _ (by decide), ?_,
      Serving.matched_ask _ (by decide), trivial⟩
    · intro _ share handle hshare hhandle
      cases hshare
      cases hhandle
      rfl
    · intro _ share handle hshare hhandle
      cases hshare
      cases hhandle
      rfl

end Ps2Servers.Smb2
