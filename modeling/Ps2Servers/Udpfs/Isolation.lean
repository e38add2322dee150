import Ps2Servers.Udpfs.ReadOnly

/-!
# Isolation of sessions

While the host does not change, what a peer is answered depends on the requests of
others in one place: the position of the block device's file object, which all
sessions share. READ and LSEEK from the current position use it and READ and LSEEK,
and on hosts without positional reads BREAD, move it. A peer that never meets a
position somebody else has moved gets the replies it would get alone.
-/

namespace Ps2Servers.Udpfs

open Text Effects Runs

variable {H V B : Type} (env : Env H V B)

/-- A request of a peer, served whole. -/
abbrev Request := Addr × Bytes

def Server.serve (s : Server H V B) (r : Request) : Server H V B :=
  (s.run r.1 (handleMessage env r.2)).1

/-- The requests of the statement: OPEN, CLOSE, READ, LSEEK, DREAD, GETSTAT and BREAD. -/
def isQuery (payload : Bytes) : Bool :=
  [MsgType.open_, .close, .read, .lseek, .dread, .getstat, .bread].contains (msgType payload)

/-- What a peer is sent in a run. -/
def repliesTo (a : Addr) : Server H V B → List Request → List Bytes
  | _, [] => []
  | s, r :: rest =>
      (if r.1 = a then (s.run r.1 (handleMessage env r.2)).2 else []) ++
        repliesTo a (s.serve env r) rest

/-- A request for the block device. -/
def onDevice (payload : Bytes) : Bool := signed payload 4 4 = 0

/-- The reply depends on the position of the block device. -/
def usesPosition (payload : Bytes) : Bool :=
  onDevice payload &&
    (msgType payload = .read || msgType payload = .lseek && payload.field 1 1 = 1)

/-- The request may move the position of the block device. -/
def movesPosition (payload : Bytes) : Bool :=
  onDevice payload &&
    (msgType payload = .read || msgType payload = .lseek ||
      msgType payload = .bread && !env.host.hasPread)

/-- A seek of the block device to a place that its position has no part in. -/
def setsPosition (s : Server H V B) (payload : Bytes) : Bool :=
  onDevice payload && msgType payload = .lseek && 16 ≤ payload.length && payload.field 1 1 ≠ 1 &&
    s.bd.any fun d =>
      ((d.file env).target env.host s.host (signed payload 8 8) (payload.field 1 1)).isOk

/-- Whenever the peer's reply depends on the position of the block device, nobody else has moved it
since the peer last sought it, or at all. `own` is whether that is so at the start. -/
def Undisturbed (a : Addr) (s : Server H V B) : Bool → List Request → Prop
  | _, [] => True
  | own, r :: rest =>
      if r.1 = a then
        (usesPosition r.2 → own) ∧
          Undisturbed a s (own || setsPosition env s r.2) rest
      else Undisturbed a s (own && !movesPosition env r.2) rest

instance Undisturbed.decidable (a : Addr) (s : Server H V B) :
    (own : Bool) → (requests : List Request) → Decidable (Undisturbed env a s own requests)
  | _, [] => inferInstanceAs (Decidable True)
  | own, r :: rest =>
      have := Undisturbed.decidable a s (own || setsPosition env s r.2) rest
      have := Undisturbed.decidable a s (own && !movesPosition env r.2) rest
      inferInstanceAs (Decidable (if r.1 = a then _ else _))

/-! ## Worlds that differ in the position -/

/-- Worlds that are the same up to the position of the block device. -/
structure Alike (w v : World H V B) : Prop where
  host : w.host = v.host
  session : w.session = v.session
  sent : w.sent = v.sent
  bd : w.bd.map BlockDevice.inode = v.bd.map BlockDevice.inode

variable {w v : World H V B}

theorem Alike.isSome_bd (h : Alike w v) : w.bd.isSome = v.bd.isSome := by
  simpa using congrArg Option.isSome h.bd

theorem Alike.handle (h : Alike w v) {n : Int} (hn : n ≠ 0) : w.handle env n = v.handle env n := by
  simp only [World.handle, if_neg hn, h.session]

theorem Alike.isNone_handle (h : Alike w v) (n : Int) :
    (w.handle env n).isNone = (v.handle env n).isNone := by
  by_cases hn : n = 0
  · have hbd := h.isSome_bd
    subst hn
    cases hw : w.bd <;> cases hv : v.bd <;> simp_all [World.handle]
  · rw [h.handle env hn]

theorem Alike.update (h : Alike w v) {n : Int} (hn : n ≠ 0) (obj : Obj V B) :
    Alike (w.update n obj) (v.update n obj) := by
  simp only [World.update, if_neg hn]
  exact ⟨h.host, by rw [h.session], h.sent, h.bd⟩

section Blocks

variable {R : World H V B → World H V B → Prop}

theorem Agree.raise {α : Type} (r : Except Exn α) : Agree R (raise r) (raise r) := by
  cases r with
  | ok a => exact Agree.pure a
  | error e => exact Agree.throw e

theorem Agree.osCall {α : Type} (r : Except Errno α) : Agree R (osCall r) (osCall r) := by
  cases r with
  | ok a => exact Agree.pure a
  | error errno => exact Agree.throw _

theorem Agree.negErrno (e : Exn) : Agree R (negErrno e) (negErrno e) := by
  unfold Udpfs.negErrno
  split
  · exact Agree.pure _
  · exact Agree.throw _

theorem Agree.packInt (n : Int) : Agree R (packInt n) (packInt n) := by
  unfold Udpfs.packInt
  split
  · exact Agree.pure _
  · exact Agree.throw _

theorem Agree.packShort (n : Nat) : Agree R (packShort n) (packShort n) := by
  unfold Udpfs.packShort
  split
  · exact Agree.pure _
  · exact Agree.throw _

theorem Agree.answerErrno {reply : Int → Handler H V B Unit} {x y : Handler H V B Unit}
    (hreply : ∀ n, Agree R (reply n) (reply n)) (hbody : Agree R x y) :
    Agree R (answerErrno reply x) (answerErrno reply y) :=
  Agree.rescue hbody fun _ => (Agree.negErrno _).bind fun n => hreply n

end Blocks

/-! ## Requests that the position has no part in -/

theorem agree_sendData (reply : Bytes) :
    Agree (Alike (H := H) (V := V) (B := B)) (sendData reply) (sendData reply) :=
  Agree.modify fun _ _ h => ⟨h.host, h.session, by rw [h.sent], h.bd⟩

theorem agree_sendOpenReply (handle : Int) (info : StatInfo) :
    Agree (Alike (H := H) (V := V) (B := B)) (sendOpenReply handle info)
      (sendOpenReply handle info) :=
  (Agree.packInt _).bind fun _ => agree_sendData _

theorem agree_openedReply (handle : Int) (info : StatInfo) :
    Agree (Alike (H := H) (V := V) (B := B)) (openedReply handle info)
      (openedReply handle info) := by
  unfold openedReply
  split <;> exact agree_sendOpenReply _ _

theorem agree_sendNumber (type : UInt8) (result : Int) (data : Bytes) :
    Agree (Alike (H := H) (V := V) (B := B)) (sendNumber type result data)
      (sendNumber type result data) :=
  (Agree.packInt _).bind fun _ => agree_sendData _

theorem agree_sendLseekReply (position : Int) :
    Agree (Alike (H := H) (V := V) (B := B)) (sendLseekReply position)
      (sendLseekReply position) := by
  unfold sendLseekReply
  split
  · exact (Agree.packInt _).bind fun _ => agree_sendData _
  · exact agree_sendData _

theorem agree_sendDreadReply (result : Int) (name : Str) (info : StatInfo) :
    Agree (Alike (H := H) (V := V) (B := B)) (sendDreadReply result name info)
      (sendDreadReply result name info) := by
  refine (Agree.raise _).bind fun bytes => ?_
  refine (Agree.packShort _).bind fun length => ?_
  exact (Agree.packInt _).bind fun _ => agree_sendData _

theorem agree_sendGetstatReply (result : Int) (info : StatInfo) :
    Agree (Alike (H := H) (V := V) (B := B)) (sendGetstatReply result info)
      (sendGetstatReply result info) :=
  (Agree.packInt _).bind fun _ => agree_sendData _

theorem agree_setHost (h : H) :
    Agree (Alike (V := V) (B := B)) (setHost h) (setHost h) :=
  Agree.modify fun _ _ hw => ⟨rfl, hw.session, hw.sent, hw.bd⟩

theorem agree_hostCall {α : Type} (call : H → Except Errno α × H) :
    Agree (Alike (V := V) (B := B)) (hostCall call) (hostCall call) := by
  refine Agree.get fun w v h => ?_
  rw [h.host]
  exact (agree_setHost _).bind fun _ => Agree.osCall _

theorem agree_allocHandle (obj : Obj V B) :
    Agree (Alike (H := H)) (allocHandle obj) (allocHandle obj) := by
  refine Agree.get fun w v h => ?_
  have hcount : w.handleCount = v.handleCount := by
    rw [World.handleCount, World.handleCount, h.session, h.isSome_bd]
  rw [hcount, h.session]
  split
  · exact Agree.pure _
  · refine (Agree.set ?_).bind fun _ => Agree.pure _
    exact ⟨h.host, rfl, h.sent, h.bd⟩

/-- Calls on an object of the session. -/
theorem agree_onObject {α : Type} {handle : Int} (hne : handle ≠ 0)
    (call : H → Except Exn α × Obj V B) :
    Agree Alike (onObject handle call) (onObject handle call) := by
  refine Agree.get fun w v h => ?_
  rw [h.host]
  exact (Agree.set (h.update hne _)).bind fun _ => Agree.raise _

theorem agree_statPath (path : Option Str) :
    Agree Alike (statPath env path) (statPath env path) := by
  refine Agree.get fun w v h => ?_
  rw [h.host]
  split
  · exact Agree.osCall _
  · exact Agree.throw _

theorem agree_openDirectory (resolved : Option Str) :
    Agree Alike (openDirectory env resolved) (openDirectory env resolved) := by
  refine Agree.answerErrno (fun _ => agree_sendOpenReply _ _) (Agree.get fun w v h => ?_)
  rw [h.host]
  refine (Agree.osCall _).bind fun entries => ?_
  refine (Agree.raise _).bind fun prepared => ?_
  refine (agree_allocHandle _).bind fun handle => ?_
  split
  · exact agree_sendOpenReply _ _
  · refine (agree_statPath env _).bind fun st => ?_
    exact (Agree.raise _).bind fun info => agree_sendOpenReply _ _

theorem agree_openVirtual (view : V) (flags : Nat) :
    Agree Alike (openVirtual env view flags) (openVirtual env view flags) := by
  unfold openVirtual
  split
  · exact agree_sendOpenReply _ _
  · refine Agree.rescue (Agree.get fun w v h => ?_) fun _ => agree_sendOpenReply _ _
    rw [h.host]
    refine (Agree.raise _).bind fun obj => ?_
    refine (Agree.osCall _).bind fun st => ?_
    refine (Agree.raise _).bind fun info => ?_
    exact (agree_allocHandle _).bind fun handle => agree_openedReply _ _

theorem agree_openImage (path : Str) : Agree Alike (openImage env path) (openImage env path) := by
  refine Agree.get fun w v h => ?_
  rw [h.host]
  refine (Agree.raise _).bind fun wrapper => ?_
  split
  · exact agree_sendOpenReply _ _
  · refine (Agree.osCall _).bind fun st => ?_
    refine (Agree.raise _).bind fun info => ?_
    exact (agree_allocHandle _).bind fun handle => agree_openedReply _ _

theorem agree_openPath (path : Str) (mode : Mode) :
    Agree Alike (openPath env path mode) (openPath env path mode) := by
  refine Agree.get fun w v h => ?_
  rw [h.host]
  split
  · exact Agree.osCall _
  · refine (Agree.osCall _).bind fun opened => ?_
    exact (agree_setHost _).bind fun _ => Agree.pure _

theorem agree_openPlain (path : Str) (mode : Mode) :
    Agree Alike (openPlain env path mode) (openPlain env path mode) := by
  refine (agree_openPath env _ _).bind fun inode => ?_
  refine Agree.get fun w v h => ?_
  rw [h.host]
  refine (Agree.osCall _).bind fun st => ?_
  refine (Agree.raise _).bind fun info => ?_
  exact (agree_allocHandle _).bind fun handle => agree_openedReply _ _

theorem agree_openFile (path : Str) (compressed : Bool) (flags : Nat) :
    Agree Alike (openFile env path compressed flags) (openFile env path compressed flags) := by
  refine Agree.get fun w v h => ?_
  rw [h.host]
  dsimp only
  split
  · exact agree_sendOpenReply _ _
  · refine Agree.answerErrno (fun _ => agree_sendOpenReply _ _) ?_
    refine Agree.bind (Agree.get fun w v h => ?_) fun _ => ?_
    · rw [h.host]
      split
      · exact agree_hostCall _
      · exact Agree.pure _
    · split
      · exact agree_openImage env _
      · exact agree_openPlain env _ _

theorem agree_handleOpen (payload : Bytes) :
    Agree Alike (handleOpen env payload) (handleOpen env payload) := by
  unfold handleOpen
  split
  · exact agree_sendOpenReply _ _
  · refine Agree.get fun w v h => ?_
    rw [h.host]
    dsimp only
    split
    · exact agree_sendOpenReply _ _
    split
    · exact agree_openDirectory env _
    split
    · exact agree_sendOpenReply _ _
    split
    · exact agree_openVirtual env _ _
    · exact agree_openFile env _ _ _
    · exact agree_openFile env _ _ _
    · exact agree_sendOpenReply _ _

theorem agree_handleClose (payload : Bytes) :
    Agree Alike (handleClose env payload) (handleClose env payload) := by
  unfold handleClose
  split
  · exact agree_sendNumber _ _ _
  · refine Agree.get fun w v h => ?_
    dsimp only
    rw [h.isNone_handle env]
    split
    · exact agree_sendNumber _ _ _
    split
    · exact agree_sendNumber _ _ _
    · refine Agree.bind (Agree.modify fun w v h => ?_) fun _ => agree_sendNumber _ _ _
      exact ⟨h.host, by rw [h.session], h.sent, h.bd⟩

theorem Alike.file (h : Alike w v) {n : Int} (hn : n ≠ 0) : w.file env n = v.file env n := by
  rw [World.file, World.file, h.handle env hn]

theorem agree_handleRead {payload : Bytes} (hne : signed payload 4 4 ≠ 0) :
    Agree Alike (handleRead env payload) (handleRead env payload) := by
  unfold handleRead
  split
  · exact agree_sendNumber _ _ _
  · refine Agree.get fun w v h => ?_
    dsimp only
    rw [h.file env hne]
    split
    · exact agree_sendNumber _ _ _
    split
    · exact agree_sendNumber _ _ _
    · refine Agree.answerErrno (fun _ => agree_sendNumber _ _ _) ?_
      exact (agree_onObject hne _).bind fun data => agree_sendNumber _ _ _

theorem agree_handleDread (payload : Bytes) :
    Agree Alike (handleDread env payload) (handleDread env payload) := by
  unfold handleDread
  split
  · exact agree_sendDreadReply _ _ _
  · refine Agree.get fun w v h => ?_
    dsimp only
    by_cases hzero : signed payload 4 4 = 0
    · -- The block device is no listing.
      have hfile : ∀ u : World H V B, ∀ entries, u.handle env (signed payload 4 4) ≠
          some (.dir entries) := by
        intro u entries
        rw [hzero]
        cases hbd : u.bd <;> simp [World.handle, hbd]
      split
      · rename_i hdir
        exact absurd hdir (hfile _ _)
      split
      · rename_i hdir
        exact absurd hdir (hfile _ _)
      · exact agree_sendDreadReply _ _ _
    · rw [h.handle env hzero, h.host]
      split
      · split
        · refine (Agree.set (h.update hzero _)).bind fun _ => ?_
          exact agree_sendDreadReply _ _ _
        · refine (Agree.set (h.update hzero _)).bind fun _ => ?_
          exact (Agree.raise _).bind fun info => agree_sendDreadReply _ _ _
      · exact agree_sendDreadReply _ _ _

theorem agree_handleGetstat (payload : Bytes) :
    Agree Alike (handleGetstat env payload) (handleGetstat env payload) := by
  unfold handleGetstat
  split
  · exact agree_sendGetstatReply _ _
  · refine Agree.get fun w v h => ?_
    rw [h.host, h.isSome_bd]
    dsimp only
    split
    · exact agree_sendGetstatReply _ _
    split
    · refine Agree.get fun w v h => ?_
      rw [h.host]
      refine (Agree.raise _).bind fun info => ?_
      split
      · exact agree_sendGetstatReply _ _
      · refine (Agree.raise _).bind fun info => ?_
        split <;> exact agree_sendGetstatReply _ _
    · refine Agree.answerErrno (fun _ => agree_sendGetstatReply _ _) ?_
      refine (agree_statPath env _).bind fun st => ?_
      exact (Agree.raise _).bind fun info => agree_sendGetstatReply _ _

/-! ## Requests for the block device -/

/-- The block devices of both worlds, which are the same file. -/
theorem Alike.bd_cases (h : Alike w v) :
    (w.bd = none ∧ v.bd = none) ∨
      ∃ d e : BlockDevice, w.bd = some d ∧ v.bd = some e ∧ d.inode = e.inode := by
  have hbd := h.bd
  cases hw : w.bd <;> cases hv : v.bd <;> simp_all

theorem file_zero (u : World H V B) :
    u.file env 0 = u.bd.map fun d => .file (d.file env) := by
  cases hbd : u.bd <;> simp [World.file, World.handle, hbd, Obj.isDir, Option.filter]

/-- The object of the block device after a call on it. -/
theorem update_zero (u : World H V B) (f : PlainFile) :
    u.update 0 (.file f) = { u with bd := u.bd.map fun d => { d with pos := f.pos } } := rfl

theorem Alike.update_zero (h : Alike w v) (f g : PlainFile) :
    Alike (w.update 0 (.file f)) (v.update 0 (.file g)) := by
  refine ⟨h.host, h.session, h.sent, ?_⟩
  simpa [Udpfs.update_zero, Function.comp_def] using h.bd

/-- Calls on the block device's object whose outcomes are the same. -/
theorem agree_onDevice {α : Type} {call call' : H → Except Exn α × PlainFile}
    (hcall : ∀ h, (call h).1 = (call' h).1) :
    Agree (Alike (V := V) (B := B)) (onObject 0 fun h => ((call h).1, .file (call h).2))
      (onObject 0 fun h => ((call' h).1, .file (call' h).2)) := by
  refine Agree.get fun w v h => ?_
  rw [h.host, hcall]
  exact (Agree.set (h.update_zero _ _)).bind fun _ => Agree.raise _

/-- A seek that does not start from the position leads to the same place. -/
theorem target_congr {d e : BlockDevice} (hde : d.inode = e.inode) (h : H) (offset : Int)
    {whence : Nat} (hwhence : whence ≠ 1) :
    (d.file env).target env.host h offset whence = (e.file env).target env.host h offset whence := by
  unfold PlainFile.target BlockDevice.file
  rw [hde]
  match whence, hwhence with
  | 0, _ => rfl
  | 1, h => exact absurd rfl h
  | 2, _ => rfl
  | _ + 3, _ => rfl

theorem seek_fst (f : PlainFile) (h : H) (offset : Int) (whence : Nat) :
    (f.seek env.host h offset whence).1 = f.target env.host h offset whence := by
  unfold PlainFile.seek
  split <;> simp_all

theorem agree_handleLseek {payload : Bytes}
    (huse : signed payload 4 4 ≠ 0 ∨ payload.field 1 1 ≠ 1) :
    Agree Alike (handleLseek env payload) (handleLseek env payload) := by
  have hrescue : ∀ e : Exn, Agree (Alike (H := H) (V := V) (B := B))
      (do if e.isOSError then sendLseekReply (← negErrno e) else sendLseekReply (-EINVAL.toNat))
      (do if e.isOSError then sendLseekReply (← negErrno e) else sendLseekReply (-EINVAL.toNat)) := by
    intro e
    split
    · exact (Agree.negErrno _).bind fun _ => agree_sendLseekReply _
    · exact agree_sendLseekReply _
  unfold handleLseek
  split
  · exact agree_sendLseekReply _
  · refine Agree.get fun w v h => ?_
    dsimp only
    by_cases hzero : signed payload 4 4 = 0
    · have hwhence : payload.field 1 1 ≠ 1 := huse.resolve_left (not_not.mpr hzero)
      rw [hzero, file_zero, file_zero]
      obtain ⟨hw, hv⟩ | ⟨d, e, hw, hv, hde⟩ := h.bd_cases
      · rw [hw, hv]
        exact agree_sendLseekReply _
      · rw [hw, hv]
        refine Agree.rescue ?_ hrescue
        refine Agree.bind ?_ fun _ => agree_sendLseekReply _
        refine agree_onDevice fun h => ?_
        rw [seek_fst, seek_fst, target_congr env hde h _ hwhence]
    · rw [h.file env hzero]
      split
      · exact agree_sendLseekReply _
      · exact Agree.rescue ((agree_onObject hzero _).bind fun _ => agree_sendLseekReply _) hrescue

/-- A read behind a seek to an offset. -/
def PlainFile.seekRead (h : H) (f : PlainFile) (offset size : Nat) : Except Exn Bytes × PlainFile :=
  match f.seek env.host h offset 0 with
  | (.ok _, f') => f'.read env.host h size
  | (.error e, f') => (.error e, f')

theorem seekRead_file (h : H) (f : PlainFile) (offset size : Nat) :
    (Obj.file f : Obj V B).seekRead env h offset size =
      ((f.seekRead env h offset size).1, .file (f.seekRead env h offset size).2) := by
  unfold Obj.seekRead PlainFile.seekRead
  simp only [Obj.seek]
  rcases f.seek env.host h offset 0 with ⟨_ | _, f'⟩ <;> rfl

theorem seekRead_congr {d e : BlockDevice} (hde : d.inode = e.inode) (h : H) (offset size : Nat) :
    ((d.file env).seekRead env h offset size).1 = ((e.file env).seekRead env h offset size).1 := by
  have htarget := target_congr env hde h (offset : Int) Nat.zero_ne_one
  unfold PlainFile.seekRead PlainFile.seek
  rw [htarget]
  cases (e.file env).target env.host h offset 0 with
  | error e => rfl
  | ok position => simp only [BlockDevice.file, hde]

theorem agree_readSectors (handle : Int) {obj obj' : Obj V B}
    (hobj : handle ≠ 0 → obj = obj') (offset size : Nat) :
    Agree Alike (readSectors env handle obj offset size)
      (readSectors env handle obj' offset size) := by
  refine Agree.get fun w v h => ?_
  split
  · obtain ⟨hw, hv⟩ | ⟨d, e, hw, hv, hde⟩ := h.bd_cases
    · rw [hw, hv]
      exact Agree.throw _
    · rw [hw, hv]
      unfold bdRead
      dsimp only
      split
      · refine Agree.get fun w v h => ?_
        rw [h.host, hde]
        exact Agree.raise _
      · simp only [seekRead_file]
        exact agree_onDevice fun h => seekRead_congr env hde h _ _
  · rename_i hne
    rw [hobj hne]
    exact agree_onObject hne _

theorem agree_handleBread (payload : Bytes) :
    Agree Alike (handleBread env payload) (handleBread env payload) := by
  -- Once the handle is found, the objects found may differ for the block device only.
  have hfound : ∀ (handle : Int) {obj obj' : Obj V B}, (handle ≠ 0 → obj = obj') →
      Agree Alike (breadFrom env payload handle obj) (breadFrom env payload handle obj') := by
    intro handle obj obj' hobj
    unfold breadFrom
    dsimp only
    split
    · exact agree_sendNumber _ _ _
    split
    · exact agree_sendNumber _ _ _
    refine Agree.bind (Agree.rescue (agree_readSectors env handle hobj _ _).map fun e => ?_)
      fun outcome => ?_
    · exact (Agree.negErrno e).map
    · split <;> exact agree_sendNumber _ _ _
  unfold handleBread
  split
  · exact agree_sendNumber _ _ _
  · refine Agree.get fun w v h => ?_
    dsimp only
    by_cases hzero : signed payload 4 4 = 0
    · rw [hzero, file_zero, file_zero]
      obtain ⟨hw, hv⟩ | ⟨d, e, hw, hv, hde⟩ := h.bd_cases
      · rw [hw, hv]
        exact agree_sendNumber _ _ _
      · rw [hw, hv]
        exact hfound 0 fun hne => absurd rfl hne
    · rw [h.file env hzero]
      split
      · exact agree_sendNumber _ _ _
      · exact hfound _ fun _ => rfl

/-- A request whose reply does not depend on the position. -/
theorem agree_handleMessage {payload : Bytes} (hquery : isQuery payload)
    (huse : usesPosition payload = false) :
    Agree Alike (handleMessage env payload) (handleMessage env payload) := by
  unfold handleMessage
  unfold isQuery at hquery
  simp only [usesPosition, onDevice, Bool.and_eq_false_iff, decide_eq_false_iff_not,
    Bool.or_eq_false_iff] at huse
  split
  · exact agree_handleOpen env _
  · exact agree_handleClose env _
  · rename_i htype
    refine agree_handleRead env ?_
    rcases huse with hne | ⟨hread, -⟩
    · exact hne
    · exact absurd htype hread
  · simp_all
  · simp_all
  · rename_i htype
    refine agree_handleLseek env ?_
    rcases huse with hne | ⟨-, hlseek | hwhence⟩
    · exact Or.inl hne
    · exact absurd htype hlseek
    · exact Or.inr hwhence
  · exact agree_handleDread env _
  · exact agree_handleGetstat env _
  · simp_all
  · simp_all
  · simp_all
  · exact agree_handleBread env _
  · simp_all
  · simp_all

/-- A seek to a place of its own leaves that place as the position. -/
theorem bd_final_lseek {payload : Bytes} {d : BlockDevice} {position : Nat}
    (hlength : 16 ≤ payload.length) (hzero : signed payload 4 4 = 0) (hbd : w.bd = some d)
    (htarget : (d.file env).target env.host w.host (signed payload 8 8) (payload.field 1 1) =
      .ok position) :
    (final (handleLseek env payload w)).bd = some { d with pos := position } := by
  have hseek : (d.file env).seek env.host w.host (signed payload 8 8) (payload.field 1 1) =
      (.ok position, { d.file env with pos := position }) := by
    rw [PlainFile.seek, htarget]
  have hreply : ∀ u : World H V B, ∃ sent,
      sendLseekReply (position : Int) u = .ok () { u with sent := sent } := by
    intro u
    rw [sendLseekReply, if_neg (Int.not_lt.mpr (Int.natCast_nonneg position))]
    exact ⟨_, rfl⟩
  unfold handleLseek
  rw [if_neg (Nat.not_lt.mpr hlength), get_bind, hzero, file_zero, hbd]
  obtain ⟨sent, hsent⟩ := hreply (w.update 0 (.file { d.file env with pos := position }))
  have hbody : (do
      let position ← onObject 0 fun h => (Obj.file (d.file env) : Obj V B).seek env h
        (signed payload 8 8) (payload.field 1 1)
      sendLseekReply position : Handler H V B Unit) w = .ok () { w.update 0
        (.file { d.file env with pos := position }) with sent := sent } := by
    rw [bind_ok (onObject_ok (a := position) (by simp [Obj.seek, hseek]))]
    simp only [Obj.seek, hseek]
    exact hsent
  simp only [Option.map_some]
  rw [rescue_ok hbody]
  simp [final, update_zero, hbd]

/-! ## What others leave of the block device -/

theorem stable_inode (i : Option Inode) :
    Stable (fun _ => True) fun w : World H V B => w.bd.map BlockDevice.inode = i where
  sent _ _ hw := hw
  handles _ _ _ hw := hw
  update w handle obj _ hw := by
    unfold World.update
    split
    · split
      · simpa [Function.comp_def] using hw
      · exact hw
    · exact hw

theorem stable_bd (b : Option BlockDevice) :
    Stable (fun handle => handle ≠ 0) fun w : World H V B => w.bd = b where
  sent _ _ hw := hw
  handles _ _ _ hw := hw
  update w handle obj hfree hw := by
    unfold World.update
    rw [if_neg hfree]
    exact hw

/-- A query keeps what is stable and says nothing of the host, if the objects it may change are
free to. -/
theorem Stable.handleMessage {free : Int → Prop} {inv : World H V B → Prop}
    (hinv : Stable free inv) (hhost : ∀ w h, inv w → inv { w with host := h }) {payload : Bytes}
    (hquery : isQuery payload)
    (hfree : signed payload 4 4 ≠ 0 ∨ movesPosition env payload → free (signed payload 4 4)) :
    Keeps inv (handleMessage env payload) := by
  have hmoves : (msgType payload = .read ∨ msgType payload = .lseek ∨
      msgType payload = .bread ∧ env.host.hasPread = false) → free (signed payload 4 4) := by
    intro htype
    by_cases hzero : signed payload 4 4 = 0
    · apply hfree
      right
      rcases htype with h | h | ⟨h, hpread⟩ <;> simp [movesPosition, onDevice, *]
    · exact hfree (Or.inl hzero)
  unfold Udpfs.handleMessage
  unfold isQuery at hquery
  split
  · exact (hinv.tracked env).handleOpen (fun w _ => hhost w _) (fun w _ _ _ _ => hhost w _) _
  · exact (hinv.tracked env).handleClose _
  · exact (hinv.tracked env).handleRead (hmoves (Or.inl (by assumption)))
  · simp_all
  · simp_all
  · exact (hinv.tracked env).handleLseek (hmoves (Or.inr (Or.inl (by assumption))))
  · exact (hinv.tracked env).handleDread fun hne => hfree (Or.inl hne)
  · exact (hinv.tracked env).handleGetstat _
  · simp_all
  · simp_all
  · simp_all
  · rename_i htype
    refine (hinv.tracked env).handleBread fun h => ?_
    rcases h with hne | hpread
    · exact hfree (Or.inl hne)
    · exact hmoves (Or.inr (Or.inr ⟨htype, hpread⟩))
  · simp_all
  · simp_all

/-! ## Runs -/

/-- A run with others beside it and a run alone: what the peer sees is the same, up to the position
of the block device while it is not the peer's own. -/
structure Twin (a : Addr) (own : Bool) (s t : Server H V B) : Prop where
  host : s.host = t.host
  session : s.session a = t.session a
  inode : s.bd.map BlockDevice.inode = t.bd.map BlockDevice.inode
  bd : own → s.bd = t.bd

variable {env} {a : Addr} {own : Bool} {s t : Server H V B}

theorem Twin.alike (h : Twin a own s t) : Alike (s.world a) (t.world a) :=
  ⟨h.host, h.session, rfl, h.inode⟩

theorem session_run_self (s : Server H V B) (a : Addr) (handler : Handler H V B Unit) :
    (s.run a handler).1.session a = (final (handler (s.world a))).session := by
  simp [Server.run, Server.settle, Server.session]

theorem session_run_of_ne (s : Server H V B) {a b : Addr} (hne : a ≠ b)
    (handler : Handler H V B Unit) : (s.run b handler).1.session a = s.session a := by
  simp [Server.run, Server.settle, Server.session, hne]

/-- What is the same for the peer in both worlds is the same in both servers. -/
theorem Alike.twin {payload : Bytes}
    (h : Alike (final (handleMessage env payload (s.world a)))
      (final (handleMessage env payload (t.world a))))
    (hown : own → (final (handleMessage env payload (s.world a))).bd =
      (final (handleMessage env payload (t.world a))).bd) :
    Twin a own (s.serve env (a, payload)) (t.serve env (a, payload)) := by
  refine ⟨h.host, ?_, h.bd, hown⟩
  rw [Server.serve, Server.serve, session_run_self, session_run_self, h.session]

/-- A seek to a place of its own takes both block devices there. -/
theorem Twin.seek_same (h : Twin a own s t) {payload : Bytes}
    (hsets : setsPosition env s payload = true) :
    ∃ b, (final (handleMessage env payload (s.world a))).bd = b ∧
      (final (handleMessage env payload (t.world a))).bd = b := by
  simp only [setsPosition, onDevice, Bool.and_eq_true, decide_eq_true_eq] at hsets
  obtain ⟨⟨⟨⟨hzero, htype⟩, hlength⟩, hwhence⟩, htarget⟩ := hsets
  obtain ⟨hs, -⟩ | ⟨d, e, hs, ht, hde⟩ := h.alike.bd_cases
  · simp [show s.bd = none from hs] at htarget
  · have hsbd : s.bd = some d := hs
    rw [hsbd, Option.any_some] at htarget
    cases hd : (d.file env).target env.host s.host (signed payload 8 8) (payload.field 1 1) with
    | error e => simp [hd, Except.isOk, Except.toBool] at htarget
    | ok position =>
        have he := (target_congr env hde s.host (signed payload 8 8) hwhence).symm.trans hd
        refine ⟨some { d with pos := position }, ?_, ?_⟩
        · simp only [handleMessage, htype]
          exact bd_final_lseek env hlength hzero hs hd
        · simp only [handleMessage, htype]
          have he : (e.file env).target env.host (t.world a).host (signed payload 8 8)
              (payload.field 1 1) = .ok position := by
            rw [show (t.world a).host = s.host from h.host.symm]
            exact he
          rw [bd_final_lseek env hlength hzero ht he, hde]

/-- One request of the peer: the same reply, and servers that are twins again. -/
theorem Twin.self (h : Twin a own s t) {payload : Bytes} (hquery : isQuery payload)
    (huse : usesPosition payload → own) :
    (s.run a (handleMessage env payload)).2 = (t.run a (handleMessage env payload)).2 ∧
      Twin a (own || setsPosition env s payload) (s.serve env (a, payload))
        (t.serve env (a, payload)) := by
  cases hown : own with
  | true =>
      have hworld : s.world a = t.world a := by
        unfold Server.world
        rw [h.host, h.bd hown, h.session]
      refine ⟨by rw [Server.run, Server.run, hworld], ?_⟩
      refine Alike.twin ?_ fun _ => by rw [hworld]
      rw [hworld]
      exact ⟨rfl, rfl, rfl, rfl⟩
  | false =>
      have huse : usesPosition payload = false := by
        cases hp : usesPosition payload with
        | false => rfl
        | true => simp [hown] at huse; simp [huse] at hp
      have hagree := agree_handleMessage env hquery huse _ _ h.alike
      refine ⟨hagree.final.sent, hagree.final.twin fun hsets => ?_⟩
      obtain ⟨position, hs, ht⟩ := h.seek_same (by simpa using hsets)
      rw [hs, ht]

/-- Another peer's request leaves the peer's session alone, and the position unless it moves it. -/
theorem Twin.other (h : Twin a own s t) {b : Addr} (hne : b ≠ a) {payload : Bytes}
    (hquery : isQuery payload) (hhost : (s.serve env (b, payload)).host = s.host) :
    Twin a (own && !movesPosition env payload) (s.serve env (b, payload)) t := by
  refine ⟨hhost.trans h.host, ?_, ?_, fun hown => ?_⟩
  · rw [Server.serve, session_run_of_ne s hne.symm, h.session]
  · have hkeeps := (stable_inode (s.bd.map BlockDevice.inode)).handleMessage env (fun _ _ hw => hw)
      hquery fun _ => trivial
    exact (hkeeps (s.world b) rfl).trans h.inode
  · simp only [Bool.and_eq_true, Bool.not_eq_true'] at hown
    have hkeeps := (stable_bd s.bd).handleMessage env (fun _ _ hw => hw) hquery fun hmoves =>
      hmoves.resolve_right (by simp [hown.2])
    exact (hkeeps (s.world b) rfl).trans (h.bd hown.1)

/-- A query leaves the block device the file it is. -/
theorem inode_serve (s : Server H V B) {r : Request} (hquery : isQuery r.2) :
    (s.serve env r).bd.map BlockDevice.inode = s.bd.map BlockDevice.inode :=
  (stable_inode (s.bd.map BlockDevice.inode)).handleMessage env (fun _ _ hw => hw) hquery
    (fun _ => trivial) (s.world r.1) rfl

theorem setsPosition_congr (hhost : t.host = s.host)
    (hinode : t.bd.map BlockDevice.inode = s.bd.map BlockDevice.inode) (payload : Bytes) :
    setsPosition env t payload = setsPosition env s payload := by
  unfold setsPosition
  by_cases hwhence : payload.field 1 1 = 1
  · simp [hwhence]
  · congr 1
    cases ht : t.bd with
    | none =>
        cases hs : s.bd with
        | none => rfl
        | some e => simp [ht, hs] at hinode
    | some d =>
        cases hs : s.bd with
        | none => simp [ht, hs] at hinode
        | some e =>
            have hde : d.inode = e.inode := by simpa [ht, hs] using hinode
            simp only [Option.any_some, hhost, target_congr env hde s.host _ hwhence]

/-- The condition looks at the file of the block device only. -/
theorem undisturbed_congr (hhost : t.host = s.host)
    (hinode : t.bd.map BlockDevice.inode = s.bd.map BlockDevice.inode) {own : Bool}
    {requests : List Request} (h : Undisturbed env a s own requests) :
    Undisturbed env a t own requests := by
  induction requests generalizing own with
  | nil => trivial
  | cons r rest ih =>
      unfold Undisturbed at h ⊢
      split
      · rename_i hr
        rw [if_pos hr] at h
        rw [setsPosition_congr hhost hinode]
        exact ⟨h.1, ih h.2⟩
      · rename_i hr
        rw [if_neg hr] at h
        exact ih h

theorem Twin.replies {requests : List Request} (h : Twin a own s t)
    (hquery : ∀ r ∈ requests, isQuery r.2)
    (hhost : Along (Server.serve env) (fun s r => (s.serve env r).host = s.host) s requests)
    (hown : Undisturbed env a s own requests) :
    repliesTo env a s requests = repliesTo env a t (requests.filter fun r => r.1 = a) := by
  induction requests generalizing s t own with
  | nil => rfl
  | cons r rest ih =>
      have hr : isQuery r.2 := hquery r List.mem_cons_self
      have hrest : ∀ r ∈ rest, isQuery r.2 := fun r hr => hquery r (List.mem_cons_of_mem _ hr)
      have hcongr : ∀ own', Undisturbed env a s own' rest →
          Undisturbed env a (s.serve env r) own' rest :=
        fun own' h => undisturbed_congr hhost.1 (inode_serve s hr) h
      unfold Undisturbed at hown
      by_cases ha : r.1 = a
      · obtain ⟨b, payload⟩ := r
        obtain rfl : b = a := ha
        rw [if_pos rfl] at hown
        have hreply : (s.run b (handleMessage env payload)).2 =
            (t.run b (handleMessage env payload)).2 := (h.self hr hown.1).1
        have htwin : Twin b _ (s.serve env (b, payload)) (t.serve env (b, payload)) :=
          (h.self hr hown.1).2
        rw [List.filter_cons_of_pos (by simp), repliesTo, repliesTo, if_pos rfl, if_pos rfl, hreply,
          ih htwin hrest hhost.2 (hcongr _ hown.2)]
      · rw [if_neg ha] at hown
        have htwin : Twin a _ (s.serve env r) t := h.other ha hr hhost.1
        rw [List.filter_cons_of_neg (by simpa using ha), repliesTo, if_neg ha, List.nil_append,
          ih htwin hrest hhost.2 (hcongr _ hown)]

/-- A share and a block device image of eight bytes. -/
def eightBytes : Disk where
  nodes := [([lit "srv"], .dir), ([lit "srv", lit "g"], .file 7), ([lit "bd"], .file 8)]
  contents := [(7, [5, 6]), (8, [1, 2, 3, 4, 5, 6, 7, 8])]

def secondConsole : Addr := ("192.168.1.11", 62966)

def readRequest (handle size : Nat) : Bytes :=
  [0x14, 0, 0, 0] ++ Bytes.ofNat 4 handle ++ Bytes.ofNat 4 size

def lseekRequest (whence handle offset : Nat) : Bytes :=
  [0x1a, UInt8.ofNat whence, 0, 0] ++ Bytes.ofNat 4 handle ++ Bytes.ofNat 8 offset

end Ps2Servers.Udpfs
