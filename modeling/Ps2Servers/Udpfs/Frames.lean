import Ps2Servers.Udpfs.Server

/-!
# What requests leave alone

A property of the world that says nothing of replies and handles is kept by every
request that only looks at the host: OPEN of a directory, a view or an image, CLOSE,
READ, LSEEK, DREAD, GETSTAT and BREAD. Which objects a property allows to change is a
parameter: the block device is one object of all sessions.
-/

namespace Ps2Servers.Udpfs

open Text Effects

variable {H V B : Type}

/-- A call that succeeds, and what it leaves. -/
theorem onObject_ok {α : Type} {handle : Int} {call : H → Except Exn α × Obj V B}
    {w : World H V B} {a : α} (h : (call w.host).1 = .ok a) :
    onObject handle call w = .ok a (w.update handle (call w.host).2) := by
  unfold onObject
  rw [get_bind, bind_ok (set_apply _ _), h]
  rfl

/-- What an object stays while it is read and sought. -/
inductive Kind
  | file (inode : Inode) (mode : Mode)
  | image
  | view
  | dir
  deriving DecidableEq, Repr

def Obj.kind : Obj V B → Kind
  | file f => .file f.inode f.mode
  | image _ => .image
  | view _ => .view
  | dir _ => .dir

/-- A property of the world that replies, the handle table and changes of the objects behind the
handles in `free` do not touch. -/
structure Stable (free : Int → Prop) (inv : World H V B → Prop) : Prop where
  sent : ∀ w replies, inv w → inv { w with sent := replies }
  handles : ∀ w handles next, inv w →
    inv { w with session := { w.session with handles := handles, nextHandle := next } }
  update : ∀ w handle obj, free handle → inv w → inv (w.update handle obj)

/-- A property of the world that replies do not touch, nor new handles and closed ones, nor what
becomes of the objects behind the handles in `free` while they stay what they are. -/
structure Tracked (env : Env H V B) (free : Int → Prop) (inv : World H V B → Prop) : Prop where
  sent : ∀ w replies, inv w → inv { w with sent := replies }
  alloc : ∀ w obj, inv w → inv { w with session := { w.session with
    handles := w.session.handles ++ [(w.session.nextHandle, obj)]
    nextHandle := w.session.nextHandle + 1 } }
  release : ∀ w (handle : Int), inv w → inv { w with session := { w.session with
    handles := w.session.handles.filter fun e => e.1 != handle.toNat } }
  update : ∀ w handle obj obj', free handle → w.handle env handle = some obj →
    obj'.kind = obj.kind → inv w → inv (w.update handle obj')

theorem Stable.tracked {free : Int → Prop} {inv : World H V B → Prop} (hinv : Stable free inv)
    (env : Env H V B) : Tracked env free inv where
  sent := hinv.sent
  alloc _ _ := hinv.handles _ _ _
  release _ _ := hinv.handles _ _ _
  update _ _ _ _ hfree _ _ := hinv.update _ _ _ hfree

/-! ## Objects -/

section Objects

variable (env : Env H V B)

theorem Obj.kind_read (h : H) (size : Nat) (obj : Obj V B) :
    (obj.read env h size).2.kind = obj.kind := by
  cases obj with
  | file f =>
      simp only [Obj.read, PlainFile.read]
      split
      · split <;> rfl
      · rfl
  | image w => rfl
  | view b => rfl
  | dir entries => rfl

theorem Obj.kind_seek (h : H) (offset : Int) (whence : Nat) (obj : Obj V B) :
    (obj.seek env h offset whence).2.kind = obj.kind := by
  cases obj with
  | file f =>
      simp only [Obj.seek, PlainFile.seek]
      split <;> rfl
  | image w => rfl
  | view b => rfl
  | dir entries => rfl

theorem Obj.kind_seekRead (h : H) (offset size : Nat) (obj : Obj V B) :
    (obj.seekRead env h offset size).2.kind = obj.kind := by
  have hseek := obj.kind_seek env h offset 0
  unfold Obj.seekRead
  split
  · rename_i obj' heq
    rw [heq] at hseek
    exact (obj'.kind_read env h size).trans hseek
  · rename_i heq
    rw [heq] at hseek
    exact hseek

theorem World.handle_of_file {w : World H V B} {handle : Int} {obj : Obj V B}
    (h : w.file env handle = some obj) : w.handle env handle = some obj :=
  (Option.filter_eq_some_iff.mp h).1

end Objects

section Blocks

variable {inv : World H V B → Prop}

theorem Keeps.raise {α : Type} (r : Except Exn α) : Keeps inv (raise r) := by
  cases r with
  | ok a => exact Keeps.pure a
  | error e => exact Keeps.throw e

theorem Keeps.osCall {α : Type} (r : Except Errno α) : Keeps inv (osCall r) := by
  cases r with
  | ok a => exact Keeps.pure a
  | error errno => exact Keeps.throw _

theorem Keeps.negErrno (e : Exn) : Keeps inv (negErrno e) := by
  unfold Udpfs.negErrno
  split
  · exact Keeps.pure _
  · exact Keeps.throw _

theorem Keeps.packInt (n : Int) : Keeps inv (packInt n) := by
  unfold Udpfs.packInt
  split
  · exact Keeps.pure _
  · exact Keeps.throw _

theorem Keeps.packShort (n : Nat) : Keeps inv (packShort n) := by
  unfold Udpfs.packShort
  split
  · exact Keeps.pure _
  · exact Keeps.throw _

theorem KeepsFrom.answerErrno {reply : Int → Handler H V B Unit} {body : Handler H V B Unit}
    {w : World H V B} (hbody : KeepsFrom inv w body) (hreply : ∀ n, Keeps inv (reply n)) :
    KeepsFrom inv w (answerErrno reply body) :=
  KeepsFrom.rescue hbody fun _ => (Keeps.negErrno _).bind fun n => hreply n

theorem Keeps.answerErrno {reply : Int → Handler H V B Unit} {body : Handler H V B Unit}
    (hreply : ∀ n, Keeps inv (reply n)) (hbody : Keeps inv body) :
    Keeps inv (answerErrno reply body) :=
  fun w hw => KeepsFrom.answerErrno (hbody w hw) hreply

theorem Keeps.statPath (env : Env H V B) (path : Option Str) : Keeps inv (statPath env path) := by
  refine Keeps.get fun w _ => ?_
  split
  · exact Keeps.osCall _
  · exact Keeps.throw _

end Blocks

namespace Tracked

variable {env : Env H V B} {free : Int → Prop} {inv : World H V B → Prop}
  (hinv : Tracked env free inv)

include hinv

/-! ## Replies and handles -/

theorem sendData (reply : Bytes) : Keeps inv (sendData reply) :=
  Keeps.modify fun w hw => hinv.sent w _ hw

theorem sendOpenReply (handle : Int) (info : StatInfo) : Keeps inv (sendOpenReply handle info) :=
  (Keeps.packInt _).bind fun _ => hinv.sendData _

theorem openedReply (handle : Int) (info : StatInfo) : Keeps inv (openedReply handle info) := by
  unfold Udpfs.openedReply
  split <;> exact hinv.sendOpenReply _ _

theorem sendNumber (type : UInt8) (result : Int) (data : Bytes) :
    Keeps inv (sendNumber type result data) :=
  (Keeps.packInt _).bind fun _ => hinv.sendData _

theorem sendLseekReply (position : Int) : Keeps inv (sendLseekReply position) := by
  unfold Udpfs.sendLseekReply
  split
  · exact (Keeps.packInt _).bind fun _ => hinv.sendData _
  · exact hinv.sendData _

theorem sendDreadReply (result : Int) (name : Str) (info : StatInfo) :
    Keeps inv (sendDreadReply result name info) := by
  refine (Keeps.raise _).bind fun bytes => ?_
  refine (Keeps.packShort _).bind fun length => ?_
  exact (Keeps.packInt _).bind fun _ => hinv.sendData _

theorem sendGetstatReply (result : Int) (info : StatInfo) :
    Keeps inv (sendGetstatReply result info) :=
  (Keeps.packInt _).bind fun _ => hinv.sendData _

/-- A call on the object that is behind the handle. -/
theorem onObject {α : Type} {handle : Int} (hfree : free handle) {w : World H V B} (hw : inv w)
    {obj : Obj V B} (hobj : w.handle env handle = some obj) {call : H → Except Exn α × Obj V B}
    (hcall : (call w.host).2.kind = obj.kind) : KeepsFrom inv w (onObject handle call) := by
  refine KeepsFrom.get (KeepsFrom.bind ?_ fun _ => Keeps.raise _)
  exact hinv.update w handle obj _ hfree hobj hcall hw

theorem allocHandle (obj : Obj V B) : Keeps inv (allocHandle obj) := by
  refine Keeps.get fun w hw => ?_
  split
  · exact Keeps.pure _
  · exact (Keeps.set (hinv.alloc w _ hw)).bind fun _ => Keeps.pure _

/-! ## Requests -/

theorem openDirectory (resolved : Option Str) : Keeps inv (openDirectory env resolved) := by
  refine Keeps.answerErrno (fun _ => hinv.sendOpenReply _ _) (Keeps.get fun w hw => ?_)
  refine (Keeps.osCall _).bind fun entries => ?_
  refine (Keeps.raise _).bind fun prepared => ?_
  refine (hinv.allocHandle _).bind fun handle => ?_
  split
  · exact hinv.sendOpenReply _ _
  · refine (Keeps.statPath env _).bind fun st => ?_
    exact (Keeps.raise _).bind fun info => hinv.sendOpenReply _ _

theorem openVirtual (view : V) (flags : Nat) : Keeps inv (openVirtual env view flags) := by
  unfold Udpfs.openVirtual
  split
  · exact hinv.sendOpenReply _ _
  · refine Keeps.rescue (Keeps.get fun w hw => ?_) fun _ => hinv.sendOpenReply _ _
    refine (Keeps.raise _).bind fun obj => ?_
    refine (Keeps.osCall _).bind fun st => ?_
    refine (Keeps.raise _).bind fun info => ?_
    exact (hinv.allocHandle _).bind fun handle => hinv.openedReply _ _

theorem openImage (path : Str) : Keeps inv (openImage env path) := by
  refine Keeps.get fun w hw => ?_
  refine (Keeps.raise _).bind fun wrapper => ?_
  split
  · exact hinv.sendOpenReply _ _
  · refine (Keeps.osCall _).bind fun st => ?_
    refine (Keeps.raise _).bind fun info => ?_
    exact (hinv.allocHandle _).bind fun handle => hinv.openedReply _ _

theorem openPlain {path : Str} {mode : Mode} (hopen : Keeps inv (openPath env path mode)) :
    Keeps inv (openPlain env path mode) := by
  refine hopen.bind fun inode => ?_
  refine Keeps.get fun w hw => ?_
  refine (Keeps.osCall _).bind fun st => ?_
  refine (Keeps.raise _).bind fun info => ?_
  exact (hinv.allocHandle _).bind fun handle => hinv.openedReply _ _

/-- An OPEN may change the host in other modes, and nothing else besides. -/
theorem handleOpen
    (hmake : ∀ w path, inv w → inv { w with host := (env.host.makedirs w.host path).2 })
    (hopen : ∀ w path mode opened, env.host.openWrite w.host path mode = .ok opened → inv w →
      inv { w with host := opened.2 }) (payload : Bytes) :
    Keeps inv (handleOpen env payload) := by
  have hparents : ∀ path flags, Keeps inv (makeParents env path flags) := by
    intro path flags
    refine Keeps.get fun w hw => ?_
    split
    · intro w hw
      refine KeepsFrom.get (KeepsFrom.bind ?_ fun _ => Keeps.osCall _)
      exact hmake w _ hw
    · exact Keeps.pure _
  have hpath : ∀ path mode, Keeps inv (openPath env path mode) := by
    intro path mode w hw
    change KeepsFrom inv w _
    refine KeepsFrom.get ?_
    split
    · exact Keeps.osCall _ w hw
    · cases hopened : env.host.openWrite w.host path mode with
      | ok opened => exact hopen w path mode opened hopened hw
      | error errno => exact hw
  have hfile : ∀ path compressed flags, Keeps inv (openFile env path compressed flags) := by
    intro path compressed flags
    refine Keeps.get fun w hw => ?_
    dsimp only
    split
    · exact hinv.sendOpenReply _ _
    · refine Keeps.answerErrno (fun _ => hinv.sendOpenReply _ _) ?_
      refine (hparents _ _).bind fun _ => ?_
      split
      · exact hinv.openImage _
      · exact hinv.openPlain (hpath _ _)
  unfold Udpfs.handleOpen
  split
  · exact hinv.sendOpenReply _ _
  · refine Keeps.get fun w hw => ?_
    dsimp only
    split
    · exact hinv.sendOpenReply _ _
    split
    · exact hinv.openDirectory _
    split
    · exact hinv.sendOpenReply _ _
    split
    · exact hinv.openVirtual _ _
    · exact hfile _ _ _
    · exact hfile _ _ _
    · exact hinv.sendOpenReply _ _

theorem handleClose (payload : Bytes) : Keeps inv (handleClose env payload) := by
  unfold Udpfs.handleClose
  split
  · exact hinv.sendNumber _ _ _
  · refine Keeps.get fun w hw => ?_
    dsimp only
    split
    · exact hinv.sendNumber _ _ _
    split
    · exact hinv.sendNumber _ _ _
    · refine Keeps.bind ?_ fun _ => hinv.sendNumber _ _ _
      exact Keeps.modify fun w hw => hinv.release w _ hw

theorem handleRead {payload : Bytes} (hfree : free (signed payload 4 4)) :
    Keeps inv (handleRead env payload) := by
  unfold Udpfs.handleRead
  split
  · exact hinv.sendNumber _ _ _
  · refine Keeps.from fun w hw => KeepsFrom.get ?_
    dsimp only
    split
    · exact hinv.sendNumber _ _ _ w hw
    split
    · exact hinv.sendNumber _ _ _ w hw
    · rename_i hobj
      refine KeepsFrom.answerErrno ?_ fun _ => hinv.sendNumber _ _ _
      refine KeepsFrom.bind ?_ fun data => hinv.sendNumber _ _ _
      exact hinv.onObject hfree hw (World.handle_of_file env hobj) (Obj.kind_read env _ _ _)

theorem handleLseek {payload : Bytes} (hfree : free (signed payload 4 4)) :
    Keeps inv (handleLseek env payload) := by
  unfold Udpfs.handleLseek
  split
  · exact hinv.sendLseekReply _
  · refine Keeps.from fun w hw => KeepsFrom.get ?_
    dsimp only
    split
    · exact hinv.sendLseekReply _ w hw
    · rename_i hobj
      refine KeepsFrom.rescue ?_ fun e => ?_
      · refine KeepsFrom.bind ?_ fun _ => hinv.sendLseekReply _
        exact hinv.onObject hfree hw (World.handle_of_file env hobj) (Obj.kind_seek env _ _ _ _)
      split
      · exact (Keeps.negErrno _).bind fun _ => hinv.sendLseekReply _
      · exact hinv.sendLseekReply _

/-- Positional reads of the block device move no position. -/
theorem readSectors {handle : Int} (hfree : handle ≠ 0 ∨ env.host.hasPread = false → free handle)
    {w : World H V B} (hw : inv w) {obj : Obj V B} (hobj : w.handle env handle = some obj)
    (offset size : Nat) : KeepsFrom inv w (readSectors env handle obj offset size) := by
  refine KeepsFrom.get ?_
  split
  · rename_i hzero
    subst hzero
    split
    · rename_i d hbd
      unfold bdRead
      split
      · exact Keeps.get (fun w hw => Keeps.raise _) w hw
      · rename_i hpread
        have hdevice : w.handle env 0 = some (.file (d.file env)) := by
          rw [World.handle, if_pos rfl, hbd]
          rfl
        exact hinv.onObject (hfree (Or.inr (by simpa using hpread))) hw hdevice
          (Obj.kind_seekRead env _ _ _ _)
    · exact hw
  · rename_i hne
    exact hinv.onObject (hfree (Or.inl hne)) hw hobj (Obj.kind_seekRead env _ _ _ _)

theorem handleBread {payload : Bytes}
    (hfree : signed payload 4 4 ≠ 0 ∨ env.host.hasPread = false → free (signed payload 4 4)) :
    Keeps inv (handleBread env payload) := by
  unfold Udpfs.handleBread
  split
  · exact hinv.sendNumber _ _ _
  · refine Keeps.from fun w hw => KeepsFrom.get ?_
    dsimp only
    split
    · exact hinv.sendNumber _ _ _ w hw
    rename_i hobj
    unfold breadFrom
    dsimp only
    split
    · exact hinv.sendNumber _ _ _ w hw
    split
    · exact hinv.sendNumber _ _ _ w hw
    refine KeepsFrom.bind (KeepsFrom.rescue ?_ fun e => (Keeps.negErrno e).map) fun outcome => ?_
    · refine KeepsFrom.bind ?_ fun data => Keeps.pure _
      exact hinv.readSectors hfree hw (World.handle_of_file env hobj) _ _
    · split <;> exact hinv.sendNumber _ _ _

/-- A listing is an object of the session. -/
theorem handleDread {payload : Bytes} (hfree : signed payload 4 4 ≠ 0 → free (signed payload 4 4)) :
    Keeps inv (handleDread env payload) := by
  unfold Udpfs.handleDread
  split
  · exact hinv.sendDreadReply _ _ _
  · refine Keeps.from fun w hw => KeepsFrom.get ?_
    dsimp only
    split
    · rename_i entries hdir
      have hne : signed payload 4 4 ≠ 0 := by
        intro hzero
        cases hbd : w.bd <;> simp [World.handle, hzero, hbd] at hdir
      have hupdate : ∀ rest, inv (w.update (signed payload 4 4) (.dir rest)) := fun rest =>
        hinv.update w _ _ (.dir rest) (hfree hne) hdir rfl hw
      split
      · exact KeepsFrom.bind (hupdate []) fun _ => hinv.sendDreadReply _ _ _
      · refine KeepsFrom.bind (hupdate _) fun _ => ?_
        exact (Keeps.raise _).bind fun info => hinv.sendDreadReply _ _ _
    · exact hinv.sendDreadReply _ _ _ w hw

theorem getstatAlias (path : Str) : Keeps inv (getstatAlias env path) := by
  refine Keeps.get fun w hw => ?_
  refine (Keeps.raise _).bind fun info => ?_
  split
  · exact hinv.sendGetstatReply _ _
  · refine (Keeps.raise _).bind fun info => ?_
    split <;> exact hinv.sendGetstatReply _ _

theorem handleGetstat (payload : Bytes) : Keeps inv (handleGetstat env payload) := by
  unfold Udpfs.handleGetstat
  split
  · exact hinv.sendGetstatReply _ _
  · refine Keeps.get fun w hw => ?_
    dsimp only
    split
    · exact hinv.sendGetstatReply _ _
    split
    · exact hinv.getstatAlias _
    · refine Keeps.answerErrno (fun _ => hinv.sendGetstatReply _ _) ?_
      refine (Keeps.statPath env _).bind fun st => ?_
      exact (Keeps.raise _).bind fun info => hinv.sendGetstatReply _ _

end Tracked

end Ps2Servers.Udpfs
