import Ps2Servers.Smb1.Server

/-!
# What a connection without a logon can see

A reply shows nothing of the files of a share when it is the same whatever the
host holds. On a connection with no tree of a disk share, no open file and no
search, no command reads or changes the host, so this is what every run keeps in
which no TREE_CONNECT_ANDX names a disk share. The logon is checked by
SESSION_SETUP_ANDX alone: TREE_CONNECT_ANDX hands out a disk share to a client
whose logon was refused or never tried.
-/

namespace Ps2Servers.Smb1

open Effects

variable {H F : Type} (ops : Ops H F) (cfg : Config)

/-- The message is a SESSION_SETUP_ANDX with a configured account and its password. -/
def accepted (msg : Bytes) : Bool :=
  match parseReq msg with
  | none => false
  | some r =>
      r.cmd = .sessionSetupAndx &&
        match (credentials cfg r : Handler Unit Unit Bool) ⟨(), Conn.new⟩ with
        | .ok ok _ => ok
        | .error _ _ => false

/-- The message is a TREE_CONNECT_ANDX that is given the tree of a disk share. -/
def connectsDisk (msg : Bytes) : Bool :=
  match parseReq msg with
  | none => false
  | some r =>
      r.cmd = .treeConnectAndx &&
        match (parseTreeconnectPath r : Handler Unit Unit Name) ⟨(), Conn.new⟩ with
        | .ok name _ =>
            match treeNamed cfg name with
            | some (.disk _) => true
            | _ => false
        | .error _ _ => false

/-- Without a logon the replies show nothing of the host, and the host stays as it is. -/
def Gated (msgs : List Message) : Prop :=
  cfg.users ≠ [] → (∀ msg ∈ msgs, accepted cfg msg = false) → ∀ host : H,
    (serve ops cfg ⟨host, Conn.new⟩ msgs).1.host = host ∧
      ∀ host', (serve ops cfg ⟨host', Conn.new⟩ msgs).2 =
        (serve ops cfg ⟨host, Conn.new⟩ msgs).2

/-! ## Connections that reach no share -/

/-- Nothing on the connection leads to a share. -/
structure Conn.Locked (c : Conn F) : Prop where
  trees : ∀ e ∈ c.trees, e.2 = Tree.ipc
  files : c.files = []
  searches : c.searches = []

/-- From `c` a handler gives the same result on every host and leaves the host alone. -/
def Blind {α : Type} (x : Handler H F α) (c : Conn F) : Prop :=
  (∃ a c', Conn.Locked c' ∧ ∀ host, x ⟨host, c⟩ = .ok a ⟨host, c'⟩) ∨
    ∃ c', ∀ host, x ⟨host, c⟩ = .error () ⟨host, c'⟩

theorem Conn.locked_new : (Conn.new : Conn F).Locked := ⟨by simp [Conn.new], rfl, rfl⟩

variable {c : Conn F}

theorem Blind.pure {α : Type} (hc : c.Locked) (a : α) : Blind (H := H) (pure a) c :=
  Or.inl ⟨a, c, hc, fun _ => rfl⟩

theorem Blind.throw {α : Type} : Blind (H := H) (throw () : Handler H F α) c :=
  Or.inr ⟨c, fun _ => rfl⟩

/-- Blindness is kept by sequencing. -/
theorem Blind.bind {α β : Type} {x : Handler H F α} {f : α → Handler H F β}
    (hx : Blind x c) (hf : ∀ a c', Conn.Locked c' → Blind (f a) c') : Blind (x >>= f) c := by
  rcases hx with ⟨a, c', hc', hx⟩ | ⟨c', hx⟩
  · rcases hf a c' hc' with ⟨b, c'', hc'', hf⟩ | ⟨c'', hf⟩
    · exact Or.inl ⟨b, c'', hc'', fun host => (bind_ok (hx host)).trans (hf host)⟩
    · exact Or.inr ⟨c'', fun host => (bind_ok (hx host)).trans (hf host)⟩
  · exact Or.inr ⟨c', fun host => bind_error (hx host)⟩

theorem Blind.unpack (hc : c.Locked) (bytes : Bytes) (offset size : Nat) :
    Blind (H := H) (unpack bytes offset size) c := by
  unfold Smb1.unpack
  split
  · exact Blind.pure hc _
  · exact Blind.throw

theorem Blind.orRaise {α : Type} (hc : c.Locked) (a : Option α) :
    Blind (H := H) (orRaise a) c := by
  cases a with
  | none => exact Blind.throw
  | some a => exact Blind.pure hc a

theorem Blind.pack (hc : c.Locked) (items : List Struct.Item) : Blind (H := H) (pack items) c :=
  Blind.orRaise hc _

/-- Looking at the state is harmless where what follows does not depend on the host. -/
theorem Blind.get {α : Type} {f : State H F → Handler H F α} {g : Handler H F α}
    (hg : Blind g c) (hf : ∀ host, f ⟨host, c⟩ = g) : Blind (get >>= f) c := by
  have hstart (host : H) : (MonadState.get >>= f) ⟨host, c⟩ = g ⟨host, c⟩ := by
    rw [get_bind, hf]
  rcases hg with ⟨a, c', hc', hg⟩ | ⟨c', hg⟩
  · exact Or.inl ⟨a, c', hc', fun host => (hstart host).trans (hg host)⟩
  · exact Or.inr ⟨c', fun host => (hstart host).trans (hg host)⟩

theorem Blind.modify {f : State H F → State H F} {c' : Conn F} (hc' : c'.Locked)
    (hf : ∀ host, f ⟨host, c⟩ = ⟨host, c'⟩) : Blind (modify f : Handler H F Unit) c :=
  Or.inl ⟨(), c', hc', fun host => by rw [modify_apply, hf host]⟩

theorem Conn.Locked.shareForTid (hc : c.Locked) (r : Req) : shareForTid c r = none := by
  unfold Smb1.shareForTid
  cases h : c.trees.lookup r.tid with
  | none => rfl
  | some tree =>
      obtain ⟨l₁, l₂, heq, -⟩ := List.lookup_eq_some_iff.mp h
      have htree : tree = .ipc := hc.trees (r.tid, tree) (by simp [heq])
      rw [htree]

theorem Conn.Locked.file (hc : c.Locked) (fid : Nat) : c.files.lookup fid = none := by
  rw [hc.files]
  rfl

theorem Conn.Locked.search (hc : c.Locked) (sid : Nat) : c.searches.lookup sid = none := by
  rw [hc.searches]
  rfl

/-! ## The handlers -/

theorem blind_parseSessionSetup (hc : c.Locked) (r : Req) :
    Blind (H := H) (parseSessionSetup r) c := by
  unfold parseSessionSetup
  split
  · exact Blind.pure hc _
  · apply (Blind.unpack hc _ _ _).bind
    intro ansiLen c' hc'
    apply (Blind.unpack hc' _ _ _).bind
    intro uniLen c'' hc''
    dsimp only
    split
    · exact Blind.pure hc'' _
    · exact Blind.pure hc'' _

theorem blind_credentials (hc : c.Locked) (r : Req) : Blind (H := H) (credentials cfg r) c := by
  unfold credentials
  apply (blind_parseSessionSetup hc r).bind
  rintro ⟨account, password⟩ c' hc'
  dsimp only
  split
  · exact Blind.pure hc' _
  · exact Blind.orRaise hc' _

theorem blind_hSessionSetup (hc : c.Locked) (r : Req) :
    Blind (H := H) (hSessionSetup cfg r) c := by
  unfold hSessionSetup
  have hlogon : Blind (H := H) (logon cfg r) c := by
    unfold logon
    split
    · exact Blind.pure hc _
    · exact blind_credentials cfg hc r
  apply hlogon.bind
  intro ok c' hc'
  split
  · have hlocked : Conn.Locked { c' with uid := if c'.uid = 0 then 0x0800 else c'.uid } :=
      ⟨hc'.trees, hc'.files, hc'.searches⟩
    apply (Blind.modify hlocked fun _ => rfl).bind
    intro _ c'' hc''
    refine Blind.get (g := pack _ >>= fun params => Pure.pure
      ⟨params, "OPLSMB\x00OPLSMB\x00".toUTF8.toList, STATUS_SUCCESS, some c''.uid, none⟩) ?_
      fun _ => rfl
    exact (Blind.pack hc'' _).bind fun params c₁ hc₁ => Blind.pure hc₁ _
  · exact Blind.pure hc' _

/-- A handler that first looks for the share of its tree. -/
theorem blind_of_share (hc : c.Locked) (r : Req) (status : Status)
    {f : State H F → Handler H F Reply} (hf : ∀ s, shareForTid s.conn r = none → f s = pure (.fail status)) :
    Blind (get >>= f) c :=
  (Blind.pure hc _).get fun _ => hf _ (hc.shareForTid r)

theorem blind_hOpenAndx (hc : c.Locked) (r : Req) : Blind (hOpenAndx ops r) c :=
  blind_of_share hc r STATUS_OBJECT_NAME_NOT_FOUND fun s hs => by simp only [hs]

theorem blind_hNtCreateAndx (hc : c.Locked) (r : Req) : Blind (hNtCreateAndx ops cfg r) c :=
  blind_of_share hc r STATUS_OBJECT_NAME_NOT_FOUND fun s hs => by simp only [hs]

theorem blind_hCheckDirectory (hc : c.Locked) (r : Req) : Blind (hCheckDirectory ops r) c :=
  blind_of_share hc r STATUS_OBJECT_NAME_NOT_FOUND fun s hs => by simp only [hs]

theorem blind_hCreateDirectory (hc : c.Locked) (r : Req) :
    Blind (hCreateDirectory ops cfg r) c := by
  unfold hCreateDirectory
  split
  · exact Blind.pure hc _
  · exact blind_of_share hc r STATUS_OBJECT_NAME_NOT_FOUND fun s hs => by simp only [hs]

theorem blind_hFindFirst2 (hc : c.Locked) (r : Req) (tParams : Bytes) :
    Blind (hFindFirst2 ops r tParams) c :=
  blind_of_share hc r STATUS_OBJECT_NAME_NOT_FOUND fun s hs => by simp only [hs]

theorem blind_hQueryPath (hc : c.Locked) (r : Req) (tParams : Bytes) :
    Blind (hQueryPath ops r tParams) c := by
  apply (Blind.unpack hc _ _ _).bind
  intro level c' hc'
  exact blind_of_share hc' r STATUS_OBJECT_NAME_NOT_FOUND fun s hs => by simp only [hs]

theorem blind_transReply (hc : c.Locked) (tParams tData : Bytes) :
    Blind (H := H) (transReply tParams tData) c := by
  apply (Blind.pack hc _).bind
  intro params c' hc'
  exact Blind.pure hc' _

theorem blind_hFindNext2 (hc : c.Locked) (tParams : Bytes) :
    Blind (hFindNext2 ops tParams) c := by
  apply (Blind.unpack hc _ _ _).bind
  intro sid c' hc'
  have hfinished : Blind (H := H)
      (pack [.H 0, .H 1, .H 0, .H 0] >>= fun params => transReply params []) c' :=
    (Blind.pack hc' _).bind fun params c₁ hc₁ => blind_transReply hc₁ params []
  exact hfinished.get fun _ => by simp only [hc'.search]

theorem blind_hTrans2 (hc : c.Locked) (r : Req) : Blind (hTrans2 ops r) c := by
  unfold hTrans2
  apply (Blind.unpack hc _ _ _).bind
  intro paramCount c hc
  apply (Blind.unpack hc _ _ _).bind
  intro paramOff c hc
  apply (Blind.unpack hc _ _ _).bind
  intro _ c hc
  apply (Blind.unpack hc _ _ _).bind
  intro _ c hc
  apply (Blind.unpack hc _ _ _).bind
  intro setupCount c hc
  have hsetup : Blind (H := H) (trans2Setup r setupCount) c := by
    unfold trans2Setup
    split
    · exact Blind.unpack hc _ _ _
    · exact Blind.pure hc _
  apply hsetup.bind
  intro setup c hc
  unfold trans2Command
  split
  · exact blind_hFindFirst2 ops hc r _
  · exact blind_hFindNext2 ops hc _
  · exact blind_hQueryPath ops hc r _
  · exact Blind.pure hc _

theorem blind_hReadAndx (hc : c.Locked) (r : Req) : Blind (hReadAndx ops r) c := by
  unfold hReadAndx
  apply (Blind.unpack hc _ _ _).bind
  intro fid c hc
  apply (Blind.unpack hc _ _ _).bind
  intro offLow c hc
  apply (Blind.unpack hc _ _ _).bind
  intro countLow c hc
  apply (Blind.unpack hc _ _ _).bind
  intro countHigh c hc
  exact (Blind.pure hc (.fail STATUS_OBJECT_NAME_NOT_FOUND)).get fun _ => by simp only [hc.file]

theorem blind_hWriteAndx (hc : c.Locked) (r : Req) : Blind (hWriteAndx ops cfg r) c := by
  unfold hWriteAndx
  split
  · exact Blind.pure hc _
  · unfold writeAndx
    apply (Blind.unpack hc _ _ _).bind
    intro fid c hc
    apply (Blind.unpack hc _ _ _).bind
    intro offLow c hc
    apply (Blind.unpack hc _ _ _).bind
    intro lenHigh c hc
    apply (Blind.unpack hc _ _ _).bind
    intro lenLow c hc
    apply (Blind.unpack hc _ _ _).bind
    intro dataOff c hc
    exact (Blind.pure hc (.fail STATUS_ACCESS_DENIED)).get fun _ => by simp only [hc.file]

theorem blind_hClose (hc : c.Locked) (r : Req) : Blind (H := H) (hClose r) c := by
  have hlocked (fid : Nat) : Conn.Locked { c with files := remove c.files fid } :=
    ⟨hc.trees, by simp [remove, hc.files], hc.searches⟩
  apply (Blind.modify (hlocked _) fun _ => rfl).bind
  intro _ c hc
  exact Blind.pure hc _

theorem blind_hTreeDisconnect (hc : c.Locked) (r : Req) :
    Blind (H := H) (hTreeDisconnect r) c := by
  have hlocked : Conn.Locked { c with trees := remove c.trees r.tid } :=
    ⟨fun e he => hc.trees e (List.mem_of_mem_filter he), hc.files, hc.searches⟩
  apply (Blind.modify hlocked fun _ => rfl).bind
  intro _ c hc
  exact Blind.pure hc _

/-- The path of a TREE_CONNECT_ANDX is read off the request alone. -/
theorem parseTreeconnectPath_eq (r : Req) (s : State H F) :
    parseTreeconnectPath r s =
      match (parseTreeconnectPath r : Handler Unit Unit Name) ⟨(), Conn.new⟩ with
      | .ok name _ => .ok name s
      | .error _ _ => .error () s := by
  simp only [parseTreeconnectPath, passwordLength, Smb1.unpack, bind_apply]
  by_cases hcount : 4 ≤ r.wordcount
  · by_cases hlength : 6 + 2 ≤ r.params.length
    · simp only [hcount, hlength, if_true, pure_apply]
    · simp only [hcount, hlength, if_true, if_false, throw_apply]
  · simp only [hcount, if_false, pure_apply]

/-- The IPC tree leads to no share. -/
theorem Conn.Locked.store_ipc (hc : c.Locked) (tid : Nat) :
    Conn.Locked { c with trees := store c.trees tid .ipc } := by
  refine ⟨fun e he => ?_, hc.files, hc.searches⟩
  obtain rfl | he := List.mem_cons.mp he
  · rfl
  · exact hc.trees e (List.mem_of_mem_filter he)

/-- A TREE_CONNECT_ANDX that is not given a disk share. -/
theorem blind_hTreeConnect (hc : c.Locked) {r : Req} {msg : Bytes} (hr : parseReq msg = some r)
    (hcmd : r.cmd = .treeConnectAndx) (hdisk : connectsDisk cfg msg = false) :
    Blind (H := H) (hTreeConnect cfg r) c := by
  simp only [connectsDisk, hr, hcmd, decide_true, Bool.true_and] at hdisk
  cases hpath : (parseTreeconnectPath r : Handler Unit Unit Name) ⟨(), Conn.new⟩ with
  | error e s =>
      refine Or.inr ⟨c, fun host => bind_error ?_⟩
      rw [parseTreeconnectPath_eq, hpath]
  | ok name s =>
      have hstart (host : H) :
          parseTreeconnectPath r (⟨host, c⟩ : State H F) = .ok name ⟨host, c⟩ := by
        rw [parseTreeconnectPath_eq, hpath]
      have hnext : Conn.Locked { c with nextTid := allocate c.nextTid 1 } :=
        ⟨hc.trees, hc.files, hc.searches⟩
      rw [hpath] at hdisk
      cases htree : treeNamed cfg name with
      | none =>
          refine Or.inl ⟨.fail STATUS_OBJECT_NAME_NOT_FOUND, _, hnext, fun host => ?_⟩
          rw [hTreeConnect, bind_ok (hstart host)]
          simp only [htree]
          rfl
      | some tree =>
          cases tree with
          | disk share => simp [htree] at hdisk
          | ipc =>
              refine Or.inl ⟨⟨[0xff, 0, 0, 0, 1, 0],
                "IPC\x00".toUTF8.toList ++ "NTFS\x00".toUTF8.toList, STATUS_SUCCESS, none,
                some (allocate c.nextTid 1)⟩, _, hnext.store_ipc (allocate c.nextTid 1),
                fun host => ?_⟩
              rw [hTreeConnect, bind_ok (hstart host)]
              simp only [htree]
              rfl

/-- A handler that answers with fixed parameters. -/
theorem blind_pack_pure (hc : c.Locked) (items : List Struct.Item) (f : Bytes → Reply) :
    Blind (H := H) (pack items >>= fun params => Pure.pure (f params)) c :=
  (Blind.pack hc items).bind fun params _ hc' => Blind.pure hc' (f params)

theorem blind_hTransaction (hc : c.Locked) : Blind (H := H) (hTransaction cfg) c := by
  apply (Blind.orRaise hc _).bind
  intro records c hc
  apply (Blind.pack hc _).bind
  intro rparams c hc
  exact blind_transReply hc rparams _

theorem blind_handle (hc : c.Locked) {r : Req} {msg : Bytes} (hr : parseReq msg = some r)
    (hdisk : connectsDisk cfg msg = false) : Blind (handle ops cfg r) c := by
  unfold handle
  split
  · exact blind_hCreateDirectory ops cfg hc r
  · exact blind_hClose hc r
  · exact blind_hCheckDirectory ops hc r
  · exact blind_hTransaction cfg hc
  · exact blind_pack_pure hc _ _
  · exact blind_hOpenAndx ops hc r
  · exact blind_hReadAndx ops hc r
  · exact blind_hWriteAndx ops cfg hc r
  · exact blind_hTrans2 ops hc r
  · exact blind_hTreeDisconnect hc r
  · exact blind_pack_pure hc _ _
  · exact blind_hSessionSetup cfg hc r
  · exact blind_pack_pure hc _ _
  · rename_i hcmd
    exact blind_hTreeConnect cfg hc hr hcmd hdisk
  · exact blind_pack_pure hc _ _
  · exact blind_hNtCreateAndx ops cfg hc r
  · exact Blind.pure hc _

theorem blind_exchange (hc : c.Locked) {r : Req} {msg : Bytes} (hr : parseReq msg = some r)
    (hdisk : connectsDisk cfg msg = false) : Blind (exchange ops cfg r) c :=
  (blind_handle ops cfg hc hr hdisk).bind fun reply _ hc' => Blind.orRaise hc' (respond r reply)

/-- A run in which no message connects a disk share. -/
theorem serve_blind (msgs : List Message) (hmsgs : ∀ msg ∈ msgs, connectsDisk cfg msg = false) :
    ∀ c : Conn F, c.Locked → ∃ c' replies, ∀ host : H,
      serve ops cfg ⟨host, c⟩ msgs = (⟨host, c'⟩, replies) := by
  induction msgs with
  | nil => exact fun c _ => ⟨c, [], fun _ => rfl⟩
  | cons msg msgs ih =>
      intro c hc
      have hrest := ih fun m hm => hmsgs m (List.mem_cons_of_mem _ hm)
      cases hr : parseReq msg with
      | none =>
          obtain ⟨c', replies, hserve⟩ := hrest c hc
          refine ⟨c', replies, fun host => ?_⟩
          simp only [serve, hr]
          exact hserve host
      | some r =>
          obtain ⟨reply, c₁, hc₁, hstep⟩ | ⟨c₁, hstep⟩ :=
            blind_exchange ops cfg hc hr (hmsgs msg List.mem_cons_self)
          · obtain ⟨c', replies, hserve⟩ := hrest c₁ hc₁
            refine ⟨c', reply :: replies, fun host => ?_⟩
            simp only [serve, hr, hstep, hserve]
          · refine ⟨c₁, [], fun host => ?_⟩
            simp only [serve, hr, hstep]

/-- **Without a logon nothing of a share is seen or changed**, in every run in which no
TREE_CONNECT_ANDX is given a disk share. -/
theorem gated_of_no_disk (msgs : List Message)
    (hmsgs : ∀ msg ∈ msgs, connectsDisk cfg msg = false) : Gated ops cfg msgs := by
  intro _ _ host
  obtain ⟨c', replies, hserve⟩ := serve_blind ops cfg msgs hmsgs Conn.new Conn.locked_new
  constructor
  · rw [hserve]
  · intro host'
    rw [hserve, hserve]

/-! ## A share handed out without a logon -/

/-- A host whose one file `g` holds the bytes it is. -/
def oneFile : Ops Bytes Unit where
  resolve _ _ _ := some "/srv/g"
  stat h _ := some ⟨false, true, h.length, 0⟩
  openRead _ _ := some ()
  readAt h _ offset count := some (h.sub offset count, ())
  readAt_length h := by
    cases h
    exact Bytes.sub_length_le _ _ _
  listDir _ _ := none
  dirname _ := "/srv"
  join _ n := "/srv/" ++ n
  truncate _ _ := .ok []
  createFile _ _ := .error .exists
  mkdir _ _ := .error .exists
  openWrite _ _ := true
  writeAt _ _ _ data := .ok data

/-- A request with the given command, tree, parameters and data. -/
def request (cmd : UInt8) (tid : UInt8) (params data : Bytes) : Bytes :=
  SMB_MAGIC ++ [cmd] ++ List.replicate 19 0 ++ [tid] ++ List.replicate 7 0 ++
    [UInt8.ofNat (params.length / 2)] ++ params ++ Bytes.ofNat 2 data.length ++ data

/-- TREE_CONNECT_ANDX to `s`, OPEN_ANDX of `g` and READ_ANDX of its first byte. -/
def readUnknown : List Message :=
  [⟨request 0x75 0 (List.replicate 8 0) [0x73, 0], by decide⟩,
    ⟨request 0x2d 2 [] [0x67, 0], by decide⟩,
    ⟨request 0x2e 2 ([0, 0, 0, 0, 0x01, 0x10, 0, 0, 0, 0, 1] ++ List.replicate 5 0) [],
      by decide⟩]

def guarded : Config := ⟨[⟨[0x73], "/srv"⟩], [("opl", "secret")], false, 1⟩

/-- The bytes of a file are read by a client that never logged on. -/
theorem not_gated_readUnknown :
    ¬ ∀ (cfg : Config) (msgs : List Message), Gated oneFile cfg msgs := by
  intro h
  have hsame := (h guarded readUnknown (by decide) (by decide +kernel) [7]).2 [8]
  revert hsame
  decide +kernel

/-- A refused logon, and a READ_ANDX of a file that was never opened. -/
theorem gated_refused :
    Gated oneFile guarded
      [⟨request 0x73 0 (List.replicate 26 0) [0x6f, 0x70, 0x6c, 0], by decide⟩,
        ⟨request 0x2e 2 (List.replicate 16 0) [], by decide⟩] :=
  gated_of_no_disk oneFile guarded _ (by decide +kernel)

end Ps2Servers.Smb1
