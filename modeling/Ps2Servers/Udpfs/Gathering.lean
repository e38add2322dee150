import Ps2Servers.Udpfs.WriteOpens

/-!
# Where the bytes of a write come from

WRITE_REQ and BWRITE_REQ start a write, and the chunks that its session accepts behind it
are put together until one says that it is the last. Other messages of the session stand
between them, and messages of other peers. Over a whole run, what reaches the host are the
bodies of the chunks 0, 1, 2 and so on since the last request that started a write, and
the file object is the one its handle named then.
-/

namespace Ps2Servers.Udpfs

open Text Effects Chunks

variable {H V B : Type}

/-! ## The messages of a run -/

/-- The message of an event that a peer's session accepts. -/
def Server.message (s : Server H V B) (addr : Addr) : Event → Option Bytes
  | .data a datagram =>
      if a ≠ addr ∨ datagram.length < 2 ∨ packetType datagram ≠ DATA then none
      else (acceptedPayload (s.session addr) datagram).filter fun payload => payload ≠ []
  | _ => none

/-- The server after a run. -/
def Server.after (env : Env H V B) (s : Server H V B) (events : List Event) : Server H V B :=
  events.foldl (Server.next env) s

theorem Server.after_concat (env : Env H V B) (s : Server H V B) (events : List Event) (e : Event) :
    s.after env (events ++ [e]) = (s.after env events).next env e := by
  simp [Server.after]

def isWriteRequest (message : Bytes) : Bool :=
  msgType message = .writeReq || msgType message = .bwriteReq

/-- Messages that create, rename or delete names of the share. -/
def changesNames (message : Bytes) : Bool :=
  msgType message = .open_ || msgType message = .mkdir || msgType message = .remove ||
    msgType message = .rmdir

/-- A WRITE_REQ is accepted, for a file object. -/
structure WriteArms (env : Env H V B) (w : World H V B) (request : Bytes) (f : PlainFile) : Prop where
  header : 12 ≤ request.length
  writableShare : env.cfg.readOnly = false
  size : request.field 8 4 ≤ env.cfg.maxTransferBytes
  file : w.file env (signed request 4 4) = some (.file f)
  writable : f.mode.writable

/-- The request starts a write to the file object behind its handle. -/
def Arms (env : Env H V B) (w : World H V B) (request : Bytes) (f : PlainFile) : Prop :=
  msgType request = .writeReq ∧ WriteArms env w request f ∨
    msgType request = .bwriteReq ∧ BwriteArms env w request f

/-- The last request of the peer that started a write, the file object its handle named then, and
the messages that the session has accepted since. -/
inductive Underway (env : Env H V B) (init : Server H V B) (addr : Addr) :
    List Event → Bytes → PlainFile → List Bytes → Prop
  | request {events : List Event} {e : Event} {request : Bytes} {f : PlainFile}
      (hmessage : (init.after env events).message addr e = some request)
      (harms : Arms env ((init.after env events).world addr) request f) :
      Underway env init addr (events ++ [e]) request f []
  | message {events : List Event} {e : Event} {request message : Bytes} {f : PlainFile}
      {rest : List Bytes} (h : Underway env init addr events request f rest)
      (hmessage : (init.after env events).message addr e = some message)
      (hrest : isWriteRequest message = false) :
      Underway env init addr (events ++ [e]) request f (rest ++ [message])
  | other {events : List Event} {e : Event} {request : Bytes} {f : PlainFile} {rest : List Bytes}
      (h : Underway env init addr events request f rest)
      (hmessage : (init.after env events).message addr e = none) (hstays : e ≠ .gone addr) :
      Underway env init addr (events ++ [e]) request f rest

def headerSize (request : Bytes) : Nat := if msgType request = .bwriteReq then 16 else 12

/-- The chunk that stands behind the header of a request. -/
def inlineChunk (request : Bytes) : List Bytes :=
  if headerSize request < request.length then [request.drop (headerSize request)] else []

/-- The chunks of a transfer. -/
def transferChunks (request : Bytes) (rest : List Bytes) : List (Option (Chunk UInt8)) :=
  (inlineChunk request ++ rest.filter fun message => msgType message = .writeData).map chunkOf

theorem transferChunks_concat (request : Bytes) (rest : List Bytes) {message : Bytes}
    (h : msgType message = .writeData) :
    transferChunks request (rest ++ [message]) = transferChunks request rest ++ [chunkOf message] := by
  simp [transferChunks, h]

theorem transferChunks_other (request : Bytes) (rest : List Bytes) {message : Bytes}
    (h : msgType message ≠ .writeData) :
    transferChunks request (rest ++ [message]) = transferChunks request rest := by
  simp [transferChunks, h]

/-- The host once the data of a write are in the file. -/
def writtenHost (env : Env H V B) (h : H) (request : Bytes) (f : PlainFile) (data : Bytes) : H :=
  if msgType request = .bwriteReq then
    (blockCall env h (signed request 4 4) f (sectorOffset env request)
      (data.take (declaredSize env request))).2
  else (env.host.writeAt h f.inode (f.place env.host h f.pos) data).2

/-- The data of a write are in the file. Of a block write, the call has been made. -/
def Wrote (env : Env H V B) (h : H) (request : Bytes) (f : PlainFile) (data : Bytes) (h' : H) : Prop :=
  if msgType request = .bwriteReq then
    ∃ r, blockCall env h (signed request 4 4) f (sectorOffset env request)
      (data.take (declaredSize env request)) = (r, h')
  else env.host.writeAt h f.inode (f.place env.host h f.pos) data = (.ok (), h')

theorem wrote_of_flushes {env : Env H V B} (hflushes : env.host.Flushes) {h h' : H} {request : Bytes}
    {f : PlainFile} {data : Bytes} (hhost : h' = writtenHost env h request f data) :
    Wrote env h request f data h' := by
  unfold Wrote
  rw [hhost, writtenHost]
  split
  · exact ⟨_, rfl⟩
  · exact Prod.ext (hflushes ..) rfl

/-! ## The table of handles -/

/-- A property of the world that no reply touches, no change of the host, no write and no change of
the objects behind the handles. -/
structure Loose (inv : World H V B → Prop) : Prop where
  sent : ∀ w replies, inv w → inv { w with sent := replies }
  host : ∀ w h, inv w → inv { w with host := h }
  write : ∀ w s, s.handles = w.session.handles → s.nextHandle = w.session.nextHandle → inv w →
    inv { w with session := s }
  alloc : ∀ w obj, inv w → inv { w with session := { w.session with
    handles := w.session.handles ++ [(w.session.nextHandle, obj)]
    nextHandle := w.session.nextHandle + 1 } }
  release : ∀ w (handle : Int), inv w → inv { w with session := { w.session with
    handles := w.session.handles.filter fun e => e.1 != handle.toNat } }
  update : ∀ w handle obj, inv w → inv (w.update handle obj)

theorem Loose.tracked {inv : World H V B → Prop} (hinv : Loose inv) (env : Env H V B) :
    Tracked env (fun _ => True) inv where
  sent := hinv.sent
  alloc := hinv.alloc
  release := hinv.release
  update w handle _ obj' _ _ _ := hinv.update w handle obj'

/-- Messages of a write. -/
def isWrite (message : Bytes) : Bool := isWriteRequest message || msgType message = .writeData

section Messages

variable {env : Env H V B} {inv : World H V B → Prop}

theorem Keeps.hostEdit (hhost : ∀ w h, inv w → inv { w with host := h })
    (call : H → Except Errno H) : Keeps inv (hostEdit call) := by
  refine Keeps.get fun w _ => ?_
  refine (Keeps.osCall _).bind fun h => ?_
  exact Keeps.modify fun w hw => hhost w h hw

namespace Tracked

variable {free : Int → Prop} (hinv : Tracked env free inv)
  (hhost : ∀ w h, inv w → inv { w with host := h })

include hinv

theorem resultError (errno : Errno) : Keeps inv (resultError errno) := hinv.sendNumber _ _ _

theorem writeError (errno : Errno) : Keeps inv (writeError errno) := hinv.sendNumber _ _ _

include hhost

theorem handleMkdir (payload : Bytes) : Keeps inv (handleMkdir env payload) := by
  unfold Udpfs.handleMkdir
  split
  · exact hinv.resultError _
  · refine Keeps.get fun w _ => ?_
    dsimp only
    split
    · exact hinv.resultError _
    split
    · exact hinv.resultError _
    · refine Keeps.answerErrno (fun _ => hinv.sendNumber _ _ _) ?_
      exact (Keeps.hostEdit hhost _).bind fun _ => hinv.sendNumber _ _ _

theorem deleteEntry (root path entry : Str) (refused : Stat → Bool) (errno : Errno)
    (delete : H → Str → Except Errno H) :
    Keeps inv (deleteEntry env root path entry refused errno delete) := by
  refine Keeps.answerErrno (fun _ => hinv.sendNumber _ _ _) (Keeps.get fun w _ => ?_)
  refine (Keeps.osCall _).bind fun linked => ?_
  split
  · exact hinv.resultError _
  · refine (Keeps.osCall _).bind fun st => ?_
    split
    · exact hinv.resultError _
    · exact (Keeps.hostEdit hhost _).bind fun _ => hinv.sendNumber _ _ _

theorem handleRemove (payload : Bytes) : Keeps inv (handleRemove env payload) := by
  unfold Udpfs.handleRemove
  split
  · exact hinv.resultError _
  · refine Keeps.get fun w _ => ?_
    dsimp only
    split
    · exact hinv.resultError _
    split
    · exact hinv.deleteEntry hhost _ _ _ _ _ _
    · exact hinv.resultError _

theorem handleRmdir (payload : Bytes) : Keeps inv (handleRmdir env payload) := by
  unfold Udpfs.handleRmdir
  split
  · exact hinv.resultError _
  · refine Keeps.get fun w _ => ?_
    dsimp only
    split
    · exact hinv.resultError _
    split
    · split
      · exact hinv.resultError _
      · exact hinv.deleteEntry hhost _ _ _ _ _ _
    · exact hinv.resultError _

/-- Every message that belongs to no write. -/
theorem handleOther (hfree : ∀ handle, free handle) {payload : Bytes}
    (hother : isWrite payload = false) : Keeps inv (handleMessage env payload) := by
  unfold isWrite isWriteRequest at hother
  unfold handleMessage
  split
  · exact hinv.handleOpen (fun w _ => hhost w _) (fun w _ _ _ _ => hhost w _) _
  · exact hinv.handleClose _
  · exact hinv.handleRead (hfree _)
  · simp_all
  · simp_all
  · exact hinv.handleLseek (hfree _)
  · exact hinv.handleDread fun _ => hfree _
  · exact hinv.handleGetstat _
  · exact hinv.handleMkdir hhost _
  · exact hinv.handleRemove hhost _
  · exact hinv.handleRmdir hhost _
  · exact hinv.handleBread fun _ => hfree _
  · simp_all
  · exact Keeps.pure _

end Tracked

theorem host_update (w : World H V B) (handle : Int) (obj : Obj V B) :
    (w.update handle obj).host = w.host := by
  unfold World.update
  split
  · split <;> rfl
  · rfl

theorem stable_host (h : H) : Stable (fun _ => True) fun w : World H V B => w.host = h where
  sent _ _ hw := hw
  handles _ _ _ hw := hw
  update w handle obj _ hw := (host_update w handle obj).trans hw

/-- A message that belongs to no write and changes no names leaves the host alone. -/
theorem keeps_host (h : H) {payload : Bytes} (hother : isWrite payload = false)
    (hnames : changesNames payload = false) :
    Keeps (fun w : World H V B => w.host = h) (handleMessage env payload) := by
  have hinv := (stable_host (V := V) (B := B) h).tracked env
  unfold isWrite isWriteRequest at hother
  unfold changesNames at hnames
  unfold handleMessage
  split
  · simp_all
  · exact hinv.handleClose _
  · exact hinv.handleRead trivial
  · simp_all
  · simp_all
  · exact hinv.handleLseek trivial
  · exact hinv.handleDread fun _ => trivial
  · exact hinv.handleGetstat _
  · simp_all
  · simp_all
  · simp_all
  · exact hinv.handleBread fun _ => trivial
  · simp_all
  · exact Keeps.pure _

end Messages

section Tables

variable {env : Env H V B} {inv : World H V B → Prop}

namespace Loose

variable (hinv : Loose inv)

include hinv

theorem resetWrite : Keeps inv (resetWrite : Handler H V B Unit) :=
  Keeps.modify fun w hw => hinv.write w _ rfl rfl hw

theorem writeObject (handle : Int) (f : PlainFile) (data : Bytes) :
    Keeps inv (writeObject env handle f data) := by
  refine Keeps.from fun w hw => KeepsFrom.get ?_
  refine KeepsFrom.bind ?_ fun _ => Keeps.raise _
  exact hinv.host _ _ (hinv.update w _ _ hw)

theorem seekWrite (handle : Int) (f : PlainFile) (offset : Nat) (data : Bytes) :
    Keeps inv (seekWrite env handle f offset data) := by
  refine Keeps.get fun w _ => ?_
  refine (Keeps.raise _).bind fun _ => ?_
  exact (hinv.writeObject _ _ _).bind fun _ => Keeps.pure _

theorem bdWrite (d : BlockDevice) (offset : Nat) (data : Bytes) : Keeps inv (bdWrite env d offset data) := by
  unfold Udpfs.bdWrite
  split
  · refine Keeps.bind (Keeps.get fun w _ => ?_) fun _ => Keeps.pure _
    exact (Keeps.modify fun w hw => hinv.host w _ hw).bind fun _ => Keeps.osCall _
  · exact hinv.seekWrite _ _ _ _

theorem completeWrite : Keeps inv (completeWrite env) := by
  have hreply : ∀ n, Keeps inv (sendWriteDone n) := fun n => (hinv.tracked env).sendNumber _ _ _
  refine Keeps.get fun w _ => hinv.resetWrite.bind fun _ => ?_
  split
  · exact hreply _
  · refine Keeps.answerErrno hreply ?_
    split
    · exact (hinv.writeObject _ _ _).bind fun _ => hreply _
    · exact Keeps.throw _

theorem completeBwrite : Keeps inv (completeBwrite env) := by
  have hreply : ∀ n, Keeps inv (sendWriteDone n) := fun n => (hinv.tracked env).sendNumber _ _ _
  refine Keeps.get fun w _ => hinv.resetWrite.bind fun _ => ?_
  split
  · exact hreply _
  · refine Keeps.answerErrno hreply ?_
    refine Keeps.ite ?_ ?_
    · split
      · exact (hinv.bdWrite _ _ _).bind fun _ => hreply _
      · exact Keeps.throw _
    · split
      · exact (hinv.seekWrite _ _ _ _).bind fun _ => hreply _
      · exact Keeps.throw _

theorem handleWriteData (payload : Bytes) : Keeps inv (handleWriteData env payload) := by
  refine Keeps.from fun w hw => KeepsFrom.get ?_
  dsimp only
  split
  · exact hw
  split
  · exact hinv.resetWrite.bind (fun _ => (hinv.tracked env).writeError _) w hw
  · refine KeepsFrom.set_bind ?_
    have hset := hinv.write w { w.session with
      writeData := w.session.writeData ++ payload.sub 8 (payload.field 4 2)
      writeTotalChunks := payload.field 6 2
      writeReceivedChunks := w.session.writeReceivedChunks + 1 } rfl rfl hw
    split
    · split
      · exact hinv.completeBwrite _ hset
      · exact hinv.completeWrite _ hset
    · exact hset

theorem handleWriteReq (payload : Bytes) : Keeps inv (handleWriteReq env payload) := by
  have hreply : ∀ errno, Keeps inv (writeError errno) := (hinv.tracked env).writeError
  refine hinv.resetWrite.bind fun _ => ?_
  split
  · exact Keeps.pure _
  refine Keeps.from fun w hw => KeepsFrom.get ?_
  dsimp only
  split
  · exact hreply _ w hw
  split
  · exact hreply _ w hw
  split
  · exact hreply _ w hw
  split
  · exact hreply _ w hw
  · refine KeepsFrom.set_bind ?_
    have hset := hinv.write w { w.session with writeHandle := signed payload 4 4 } rfl rfl hw
    split
    · exact hinv.handleWriteData _ _ hset
    · exact hset

theorem handleBwriteReq (payload : Bytes) : Keeps inv (handleBwriteReq env payload) := by
  have hreply : ∀ errno, Keeps inv (writeError errno) := (hinv.tracked env).writeError
  refine hinv.resetWrite.bind fun _ => ?_
  split
  · exact Keeps.pure _
  refine Keeps.from fun w hw => KeepsFrom.get ?_
  dsimp only
  split
  · exact hreply _ w hw
  split
  · exact hreply _ w hw
  split
  · exact hreply _ w hw
  split
  · exact hreply _ w hw
  split
  · exact hreply _ w hw
  · refine KeepsFrom.set_bind ?_
    have hset := hinv.write w { w.session with
      writeHandle := signed payload 4 4
      writeIsBlock := true
      writeSectorNr := payload.field 8 8
      writeSectorCount := payload.field 2 2 } rfl rfl hw
    split
    · exact hinv.handleWriteData _ _ hset
    · exact hset

theorem handleMessage (payload : Bytes) : Keeps inv (handleMessage env payload) := by
  by_cases hwrite : isWrite payload
  · unfold isWrite isWriteRequest at hwrite
    simp only [Bool.or_eq_true, decide_eq_true_eq] at hwrite
    unfold Udpfs.handleMessage
    obtain (h | h) | h := hwrite
    · rw [h]
      exact hinv.handleWriteReq _
    · rw [h]
      exact hinv.handleBwriteReq _
    · rw [h]
      exact hinv.handleWriteData _
  · exact (hinv.tracked env).handleOther hinv.host (fun _ => trivial) (Bool.eq_false_iff.mpr hwrite)

end Loose

/-- The block device is the file `b`, and the next handle is a new one. -/
structure Tabled (b : Option Inode) (w : World H V B) : Prop where
  device : w.bd.map BlockDevice.inode = b
  first : 0 < w.session.nextHandle
  below : ∀ e ∈ w.session.handles, e.1 < w.session.nextHandle

theorem loose_tabled (b : Option Inode) : Loose (Tabled b : World H V B → Prop) where
  sent _ _ hw := ⟨hw.device, hw.first, hw.below⟩
  host _ _ hw := ⟨hw.device, hw.first, hw.below⟩
  write w s hhandles hnext hw := by
    refine ⟨hw.device, ?_, ?_⟩
    · exact hnext ▸ hw.first
    · intro e he
      have hmem : e ∈ w.session.handles := hhandles ▸ he
      exact lt_of_lt_of_eq (hw.below e hmem) hnext.symm
  alloc w obj hw := by
    refine ⟨hw.device, Nat.succ_pos _, fun e he => ?_⟩
    obtain hold | hnew := List.mem_append.mp he
    · exact (hw.below e hold).trans (Nat.lt_succ_self _)
    · rw [List.mem_singleton.mp hnew]
      exact Nat.lt_succ_self _
  release w handle hw := ⟨hw.device, hw.first, fun e he => hw.below e (List.mem_of_mem_filter he)⟩
  update w handle obj hw := by
    unfold World.update
    split
    · split
      · exact ⟨by simpa [Function.comp_def] using hw.device, hw.first, hw.below⟩
      · exact hw
    · refine ⟨hw.device, hw.first, fun e he => ?_⟩
      obtain ⟨e', he', rfl⟩ := List.mem_map.mp he
      split
      · exact hw.below e' he'
      · exact hw.below e' he'

/-- As long as it is open, the handle holds an object of the kind, and its number is no new one. -/
structure Follows (env : Env H V B) (handle : Int) (kind : Kind) (w : World H V B) : Prop where
  number : handle.toNat < w.session.nextHandle
  kind : ∀ obj, w.handle env handle = some obj → obj.kind = kind

theorem lookup_update_of_ne (l : List (Nat × Obj V B)) {n k : Nat} (obj : Obj V B) (h : n ≠ k) :
    (l.map fun e => if e.1 = k then (e.1, obj) else e).lookup n = l.lookup n := by
  induction l with
  | nil => rfl
  | cons e rest ih =>
      obtain ⟨key, value⟩ := e
      by_cases hkey : key = k
      · have hne : (n == k) = false := beq_false_of_ne h
        simp [List.lookup_cons, hkey, hne, ih]
      · simp [List.lookup_cons, hkey, ih]

/-- The kind of the object behind a handle, by what the sessions share and the peer's own table. -/
theorem kind_congr {w v : World H V B} (hdevice : w.bd.map BlockDevice.inode = v.bd.map BlockDevice.inode)
    (hhandles : w.session.handles = v.session.handles) (handle : Int) :
    (w.handle env handle).map Obj.kind = (v.handle env handle).map Obj.kind := by
  have hkind : ∀ u : World H V B, (u.bd.map fun d => (Obj.file (d.file env) : Obj V B)).map Obj.kind =
      (u.bd.map BlockDevice.inode).map fun inode =>
        .file inode (if env.cfg.readOnly then .rb else .rPlus) := by
    intro u
    rw [Option.map_map, Option.map_map]
    rfl
  unfold World.handle
  split
  · rw [hkind, hkind, hdevice]
  · rw [hhandles]

theorem Follows.congr {handle : Int} {kind : Kind} {w v : World H V B} (hw : Follows env handle kind w)
    (hdevice : w.bd.map BlockDevice.inode = v.bd.map BlockDevice.inode)
    (hhandles : v.session.handles = w.session.handles)
    (hnext : v.session.nextHandle = w.session.nextHandle) : Follows env handle kind v := by
  constructor
  · rw [hnext]
    exact hw.number
  · intro obj hobj
    have hsame := @kind_congr H V B env w v hdevice hhandles.symm handle
    rw [hobj] at hsame
    obtain ⟨obj', hobj', hkind⟩ := Option.map_eq_some_iff.mp hsame
    rw [← hkind]
    exact hw.kind obj' hobj'

/-- A change of an object that leaves it of its kind leaves every object of its kind. -/
theorem kind_update {w : World H V B} {changed : Int} {obj obj' : Obj V B}
    (hobj : w.handle env changed = some obj) (hkind : obj'.kind = obj.kind) (handle : Int) :
    ((w.update changed obj').handle env handle).map Obj.kind =
      (w.handle env handle).map Obj.kind := by
  unfold World.update
  split
  · split
    · refine @kind_congr H V B env { w with bd := w.bd.map _ } w ?_ rfl handle
      simp [Function.comp_def]
    · rfl
  rename_i hne
  unfold World.handle
  split
  · rfl
  split
  · rfl
  rename_i hzero hneg
  by_cases hsame : handle.toNat = changed.toNat
  · have hpos : ¬ changed < 0 := by
      intro hlt
      rw [World.handle, if_neg hne, if_pos hlt] at hobj
      cases hobj
    rw [World.handle, if_neg hne, if_neg hpos] at hobj
    rw [hsame, lookup_update, hobj, Option.map_some, Option.map_some, Option.map_some, hkind]
  · rw [lookup_update_of_ne _ _ hsame]

theorem nextHandle_update (w : World H V B) (handle : Int) (obj : Obj V B) :
    (w.update handle obj).session.nextHandle = w.session.nextHandle := by
  unfold World.update
  split
  · split <;> rfl
  · rfl

theorem tracked_follows (handle : Int) (kind : Kind) :
    Tracked env (fun _ => True) (Follows env handle kind) where
  sent _ _ hw := hw.congr rfl rfl rfl
  alloc w obj hw := by
    refine ⟨hw.number.trans (Nat.lt_succ_self _), fun obj' hobj' => hw.kind obj' ?_⟩
    have hne : (handle.toNat == w.session.nextHandle) = false := beq_false_of_ne hw.number.ne
    unfold World.handle at hobj' ⊢
    rw [List.lookup_append, List.lookup_cons, hne, List.lookup_nil, Option.or_none] at hobj'
    exact hobj'
  release w closed hw := by
    refine ⟨hw.number, fun obj' hobj' => hw.kind obj' ?_⟩
    unfold World.handle at hobj' ⊢
    split
    · rwa [if_pos ‹_›] at hobj'
    rw [if_neg ‹_›] at hobj'
    split
    · rwa [if_pos ‹_›] at hobj'
    rw [if_neg ‹_›] at hobj'
    change (Tables.erase w.session.handles closed.toNat).lookup _ = _ at hobj'
    by_cases hsame : handle.toNat = closed.toNat
    · rw [hsame, Tables.lookup_erase_self] at hobj'
      cases hobj'
    · rwa [Tables.lookup_erase_of_ne hsame] at hobj'
  update w changed obj obj' _ hobj hkind hw := by
    constructor
    · rw [nextHandle_update]
      exact hw.number
    · intro o ho
      have hsame := kind_update hobj hkind handle
      rw [ho] at hsame
      obtain ⟨o', ho', hkind'⟩ := Option.map_eq_some_iff.mp hsame.symm
      rw [← hkind']
      exact hw.kind o' ho'

end Tables

/-! ## One message of a write -/

/-- The session has the write of a request in progress, whose chunks have come to the data. -/
structure Session.Writing (s : Session V B) (request : Bytes) (received : Nat) (data : Bytes) :
    Prop where
  handle : s.writeHandle = signed request 4 4
  isBlock : s.writeIsBlock = decide (msgType request = .bwriteReq)
  sectors : msgType request = .bwriteReq →
    s.writeSectorNr = request.field 8 8 ∧ s.writeSectorCount = request.field 2 2
  received : s.writeReceivedChunks = received
  data : s.writeData = data

/-- The session collects the chunks of the request, for the file object `f`. -/
def Gathering (env : Env H V B) (w : World H V B) (request : Bytes) (f : PlainFile)
    (messages : List (Option (Chunk UInt8))) : Prop :=
  ∃ received data, assembled env.cfg.maxTransferBytes messages = .collecting received data ∧
    w.session.Writing request received data ∧
    Follows env (signed request 4 4) (.file f.inode f.mode) w

/-- The chunks are complete, and the write takes the host from the first world to the second. -/
def Finishes (env : Env H V B) (w v : World H V B) (request : Bytes) (f₀ : PlainFile)
    (messages : List (Option (Chunk UInt8))) : Prop :=
  v.session.writeHandle < 0 ∧ ∃ data f,
    assembled env.cfg.maxTransferBytes messages = .complete data ∧
      w.file env (signed request 4 4) = some (.file f) ∧ f.inode = f₀.inode ∧ f.mode = f₀.mode ∧
      v.host = writtenHost env w.host request f data

/-- What a message of a write comes to: the host stays, or the write is complete. -/
def Advances (env : Env H V B) (w v : World H V B) (request : Bytes) (f : PlainFile)
    (messages : List (Option (Chunk UInt8))) : Prop :=
  v.host = w.host ∧ (0 ≤ v.session.writeHandle → Gathering env v request f messages) ∨
    Finishes env w v request f messages

section Steps

variable {env : Env H V B} {w : World H V B} {request : Bytes} {f : PlainFile}

/-- Nothing was written, and no write is in progress. -/
theorem Advances.over {v : World H V B} {messages : List (Option (Chunk UInt8))}
    (hhost : v.host = w.host) (hover : v.session.writeHandle < 0) :
    Advances env w v request f messages :=
  Or.inl ⟨hhost, fun h => absurd h (not_le.mpr hover)⟩

theorem frozen_reset (w : World H V B) : Frozen w.host w.writeReset := ⟨rfl, Int.negSucc_lt_zero 0⟩

theorem keeps_writeDone (h : H) (n : Int) :
    Keeps (Frozen h : World H V B → Prop) (sendWriteDone n) := by
  refine (Keeps.packInt n).bind fun _ => Keeps.modify fun w hw => ?_
  exact ⟨hw.host, hw.idle⟩

/-- The file object behind the handle is still the one that was there. -/
theorem Follows.file {handle : Int} {kind : PlainFile} {f : PlainFile}
    (h : Follows env handle (.file kind.inode kind.mode) w)
    (hfile : w.file env handle = some (.file f)) : f.inode = kind.inode ∧ f.mode = kind.mode := by
  have hkind := h.kind _ (World.handle_of_file env hfile)
  simpa [Obj.kind] using hkind

/-- A finished WRITE. -/
theorem completeWrite_host {g : PlainFile}
    (hfile : w.file env w.session.writeHandle = some (.file g)) (hwritable : g.mode.writable) :
    let call := env.host.writeAt w.host g.inode (g.place env.host w.host g.pos) w.session.writeData
    Frozen call.2 (final (completeWrite env w)) := by
  intro call
  obtain ⟨v, hhost, -, hhandle, hcall⟩ := @writeObject_call H V B env w.writeReset
    w.session.writeHandle g w.session.writeData hwritable
  have hfrozen : Frozen call.2 v := ⟨hhost, hhandle ▸ Int.negSucc_lt_zero 0⟩
  unfold completeWrite
  rw [get_bind, bind_ok (resetWrite_apply w), hfile]
  refine KeepsFrom.answerErrno (KeepsFrom.bind ?_ fun n => keeps_writeDone _ _) (keeps_writeDone _)
  unfold KeepsFrom
  rw [hcall]
  exact Keeps.raise _ v hfrozen

/-- A handle that is no file object any more is written to no file. -/
theorem completeWrite_closed (hfile : ∀ g, w.file env w.session.writeHandle ≠ some (.file g)) :
    Frozen w.host (final (completeWrite env w)) := by
  have hreset := frozen_reset w
  unfold completeWrite
  rw [get_bind, bind_ok (resetWrite_apply w)]
  cases hobj : w.file env w.session.writeHandle with
  | none => exact keeps_writeDone _ _ _ hreset
  | some obj =>
      refine Keeps.answerErrno (keeps_writeDone _) ?_ _ hreset
      cases obj with
      | file g => exact absurd hobj (hfile g)
      | image _ => exact Keeps.throw _
      | view _ => exact Keeps.throw _
      | dir _ => exact Keeps.throw _

theorem completeBwrite_closed (hfile : ∀ g, w.file env w.session.writeHandle ≠ some (.file g)) :
    Frozen w.host (final (completeBwrite env w)) := by
  have hreset := frozen_reset w
  unfold completeBwrite
  rw [get_bind]
  dsimp only
  rw [bind_ok (resetWrite_apply w)]
  cases hobj : w.file env w.session.writeHandle with
  | none => exact keeps_writeDone _ _ _ hreset
  | some obj =>
      refine Keeps.answerErrno (keeps_writeDone _) ?_ _ hreset
      by_cases hzero : w.session.writeHandle = 0
      · exfalso
        rw [hzero, file_zero, Option.map_eq_some_iff] at hobj
        obtain ⟨d, hd, -⟩ := hobj
        refine hfile (d.file env) ?_
        rw [hzero, file_zero, hd]
        rfl
      · rw [if_neg hzero]
        cases obj with
        | file g => exact absurd hobj (hfile g)
        | image _ => exact Keeps.throw _
        | view _ => exact Keeps.throw _
        | dir _ => exact Keeps.throw _

/-- The last chunk of a write. -/
theorem finishes_of_complete {received : Nat} {data : Bytes} {messages : List (Option (Chunk UInt8))}
    (hwriting : w.session.Writing request received data)
    (hfollows : Follows env (signed request 4 4) (.file f.inode f.mode) w)
    (hwritable : f.mode.writable)
    (hcomplete : assembled env.cfg.maxTransferBytes messages = .complete data) {v : World H V B}
    (hhost : v.host = w.host) (hfile : v.file env = w.file env) :
    Advances env v
      (final ((if w.session.writeIsBlock then completeBwrite env else completeWrite env) w))
      request f messages := by
  by_cases hclosed : ∀ g, w.file env w.session.writeHandle ≠ some (.file g)
  · have hfrozen : Frozen w.host
        (final ((if w.session.writeIsBlock then completeBwrite env else completeWrite env) w)) := by
      split
      · exact completeBwrite_closed hclosed
      · exact completeWrite_closed hclosed
    exact Advances.over (hfrozen.host.trans hhost.symm) hfrozen.idle
  obtain ⟨g, hg⟩ := not_forall_not.mp hclosed
  have hnamed : w.file env (signed request 4 4) = some (.file g) := hwriting.handle ▸ hg
  obtain ⟨hinode, hmode⟩ := hfollows.file hnamed
  right
  have hwhole : ∀ {u : World H V B}, u.session.writeHandle < 0 →
      u.host = writtenHost env w.host request g data → Finishes env v u request f messages := by
    intro u hidle hu
    refine ⟨hidle, data, g, hcomplete, ?_, hinode, hmode, ?_⟩
    · rw [hfile]
      exact hnamed
    · rw [hhost]
      exact hu
  by_cases hblock : msgType request = .bwriteReq
  · have hisBlock : w.session.writeIsBlock = true := by rw [hwriting.isBlock, hblock]; rfl
    obtain ⟨hnr, hcount⟩ := hwriting.sectors hblock
    obtain ⟨u, hu, huhost, -, hidle⟩ := completeBwrite_call hg (hmode ▸ hwritable)
    rw [if_pos hisBlock, hu]
    refine hwhole (u := u) (hidle ▸ Int.negSucc_lt_zero 0) ?_
    rw [huhost, hnr, hcount, hwriting.data, hwriting.handle, writtenHost, if_pos hblock]
    rfl
  · have hisBlock : ¬ w.session.writeIsBlock = true := by
      rw [hwriting.isBlock]
      simpa using hblock
    have hfrozen := completeWrite_host hg (hmode ▸ hwritable)
    rw [if_neg hisBlock]
    refine hwhole hfrozen.idle ?_
    rw [writtenHost, if_neg hblock, ← hwriting.data]
    exact hfrozen.host

/-- One chunk of the write in progress. -/
theorem Gathering.chunk {messages : List (Option (Chunk UInt8))}
    (hw : Gathering env w request f messages) (hhandle : 0 ≤ w.session.writeHandle)
    (hwritable : f.mode.writable) (payload : Bytes) :
    Advances env w (final (handleWriteData env payload w)) request f
      (messages ++ [chunkOf payload]) := by
  obtain ⟨received, data, hassembled, hwriting, hfollows⟩ := hw
  obtain ⟨total, hstep⟩ := @handleWriteData_armed H V B env w payload hhandle
  have hassembly : w.assembly = assembled env.cfg.maxTransferBytes messages := by
    rw [hassembled, World.assembly, hwriting.received, hwriting.data]
  rw [hassembly, ← assembled_concat] at hstep
  rw [hstep]
  cases hnext : assembled env.cfg.maxTransferBytes (messages ++ [chunkOf payload]) with
  | collecting received' data' =>
      left
      refine ⟨rfl, fun _ => ⟨received', data', hnext, ?_, hfollows.congr rfl rfl rfl⟩⟩
      exact ⟨hwriting.handle, hwriting.isBlock, hwriting.sectors, rfl, rfl⟩
  | complete data' =>
      have hlast : (w.collected (w.session.writeReceivedChunks + 1) data' total).session.Writing
          request (w.session.writeReceivedChunks + 1) data' :=
        ⟨hwriting.handle, hwriting.isBlock, hwriting.sectors, rfl, rfl⟩
      exact finishes_of_complete hlast (hfollows.congr rfl rfl rfl) hwritable hnext rfl rfl
  | refused =>
      have hfrozen : Frozen w.host (final (writeError EINVAL w.writeReset)) :=
        keeps_writeDone _ _ _ (frozen_reset w)
      exact Advances.over hfrozen.host hfrozen.idle
  | closed =>
      exfalso
      rw [assembled_concat, hassembled] at hnext
      exact add_ne_closed _ _ hnext

/-- The chunk behind the header of the request. -/
theorem Gathering.inline {n : Nat} (hn : headerSize request = n) (hw : Gathering env w request f [])
    (hhandle : 0 ≤ w.session.writeHandle) (hwritable : f.mode.writable) :
    Advances env w (final (if n < request.length then handleWriteData env (request.drop n) w
      else .ok () w)) request f (transferChunks request []) := by
  unfold transferChunks inlineChunk
  rw [hn]
  split
  · exact hw.chunk hhandle hwritable _
  · exact Or.inl ⟨rfl, fun _ => hw⟩

theorem World.file_lt {b : Option Inode} (hw : Tabled b w) {handle : Int} {obj : Obj V B}
    (h : w.file env handle = some obj) : handle.toNat < w.session.nextHandle := by
  have hhandle := World.handle_of_file env h
  unfold World.handle at hhandle
  split at hhandle
  · rename_i hzero
    rw [hzero]
    exact hw.first
  split at hhandle
  · cases hhandle
  · exact hw.below _ (Tables.mem_of_lookup hhandle)

theorem follows_of_file {b : Option Inode} (hw : Tabled b w) {handle : Int} {obj : Obj V B}
    (h : w.file env handle = some obj) : Follows env handle obj.kind w := by
  refine ⟨World.file_lt hw h, fun obj' hobj' => ?_⟩
  rw [World.handle_of_file env h, Option.some.injEq] at hobj'
  rw [hobj']

/-- A WRITE_REQ. -/
theorem advances_writeReq {b : Option Inode} (hw : Tabled b w) (htype : msgType request = .writeReq) :
    (∃ f, Arms env w request f ∧ Advances env w (final (handleWriteReq env request w)) request f
      (transferChunks request [])) ∨ Frozen w.host (final (handleWriteReq env request w)) := by
  by_cases harms : ∃ f, WriteArms env w request f
  · obtain ⟨f, h⟩ := harms
    have hhandle : 0 ≤ signed request 4 4 := fileHandle_nonneg h.file
    have hgathering : Gathering env (w.writing (signed request 4 4)) request f [] := by
      refine ⟨0, [], rfl, ⟨rfl, ?_, ?_, rfl, rfl⟩, (follows_of_file hw h.file).congr rfl rfl rfl⟩
      · rw [htype]
        rfl
      · intro hblock
        rw [htype] at hblock
        cases hblock
    left
    refine ⟨f, Or.inl ⟨htype, h⟩, ?_⟩
    rw [handleWriteReq_armed h.header h.writableShare h.size h.file h.writable]
    exact hgathering.inline (if_neg (by simp [htype])) hhandle h.writable
  · right
    have hreset := frozen_reset w
    unfold handleWriteReq
    rw [bind_ok (resetWrite_apply w)]
    split
    · exact hreset
    rename_i hshort
    rw [get_bind]
    dsimp only
    split
    · exact keeps_writeDone _ _ _ hreset
    rename_i hro
    split
    · exact keeps_writeDone _ _ _ hreset
    rename_i hsize
    cases hobj : w.writeReset.file env (signed request 4 4) with
    | none => exact keeps_writeDone _ _ _ hreset
    | some obj =>
        cases obj with
        | file f =>
            dsimp only
            split
            · exact keeps_writeDone _ _ _ hreset
            rename_i hwritable
            refine absurd ⟨f, Nat.not_lt.mp hshort, Bool.eq_false_iff.mpr hro, Nat.not_lt.mp hsize,
              hobj, ?_⟩ harms
            simpa [Obj.writable] using hwritable
        | image _ => exact keeps_writeDone _ _ _ hreset
        | view _ => exact keeps_writeDone _ _ _ hreset
        | dir _ => exact keeps_writeDone _ _ _ hreset

/-- A BWRITE_REQ. -/
theorem advances_bwriteReq {b : Option Inode} (hw : Tabled b w)
    (htype : msgType request = .bwriteReq) :
    (∃ f, Arms env w request f ∧ Advances env w (final (handleBwriteReq env request w)) request f
      (transferChunks request [])) ∨ Frozen w.host (final (handleBwriteReq env request w)) := by
  by_cases harms : ∃ f, BwriteArms env w request f
  · obtain ⟨f, h⟩ := harms
    have hhandle : 0 ≤ signed request 4 4 := fileHandle_nonneg h.file
    have hgathering : Gathering env (w.armed request) request f [] := by
      refine ⟨0, [], rfl, ⟨rfl, ?_, ?_, rfl, rfl⟩, (follows_of_file hw h.file).congr rfl rfl rfl⟩
      · rw [htype]
        rfl
      · exact fun _ => ⟨rfl, rfl⟩
    left
    refine ⟨f, Or.inr ⟨htype, h⟩, ?_⟩
    rw [handleBwriteReq_armed h]
    exact hgathering.inline (if_pos htype) hhandle h.writable
  · right
    have hreset := frozen_reset w
    unfold handleBwriteReq
    rw [bind_ok (resetWrite_apply w)]
    split
    · exact hreset
    rename_i hshort
    rw [get_bind]
    dsimp only
    split
    · exact keeps_writeDone _ _ _ hreset
    rename_i hro
    cases hobj : w.writeReset.file env (signed request 4 4) with
    | none => exact keeps_writeDone _ _ _ hreset
    | some obj =>
        cases obj with
        | file f =>
            dsimp only
            split
            · exact keeps_writeDone _ _ _ hreset
            rename_i hwritable
            split
            · exact keeps_writeDone _ _ _ hreset
            rename_i hsize
            split
            · exact keeps_writeDone _ _ _ hreset
            rename_i hoffset
            refine absurd ⟨f, Nat.not_lt.mp hshort, Bool.eq_false_iff.mpr hro, hobj, ?_,
              Nat.not_lt.mp hsize, Nat.not_lt.mp hoffset⟩ harms
            simpa [Obj.writable] using hwritable
        | image _ => exact keeps_writeDone _ _ _ hreset
        | view _ => exact keeps_writeDone _ _ _ hreset
        | dir _ => exact keeps_writeDone _ _ _ hreset

end Steps

/-! ## Other messages -/

/-- The write in progress. -/
def Session.write (s : Session V B) : Int × Bool × Nat × Nat × Bytes × Nat :=
  (s.writeHandle, s.writeIsBlock, s.writeSectorNr, s.writeSectorCount, s.writeData,
    s.writeReceivedChunks)

theorem stable_write (write : Int × Bool × Nat × Nat × Bytes × Nat) :
    Stable (fun _ => True) fun w : World H V B => w.session.write = write where
  sent _ _ hw := hw
  handles _ _ _ hw := hw
  update w handle obj _ hw := by
    unfold World.update
    split
    · split
      · exact hw
      · exact hw
    · exact hw

theorem Session.Writing.congr {s t : Session V B} {request : Bytes} {received : Nat} {data : Bytes}
    (hs : s.Writing request received data) (h : t.write = s.write) :
    t.Writing request received data := by
  simp only [Session.write, Prod.mk.injEq] at h
  obtain ⟨hhandle, hblock, hnr, hcount, hdata, hreceived⟩ := h
  refine ⟨hhandle.trans hs.handle, hblock.trans hs.isBlock, fun htype => ?_,
    hreceived.trans hs.received, hdata.trans hs.data⟩
  rw [hnr, hcount]
  exact hs.sectors htype

/-- A message that belongs to no write leaves the one in progress as it is. -/
theorem Gathering.other {env : Env H V B} {w : World H V B} {request message : Bytes} {f : PlainFile}
    {messages : List (Option (Chunk UInt8))} (hw : Gathering env w request f messages)
    (hother : isWrite message = false) :
    Gathering env (final (handleMessage env message w)) request f messages := by
  obtain ⟨received, data, hassembled, hwriting, hfollows⟩ := hw
  refine ⟨received, data, hassembled, hwriting.congr ?_, ?_⟩
  · exact ((stable_write _).tracked env).handleOther (fun _ _ hw => hw) (fun _ => trivial) hother w rfl
  · have hhost : ∀ (v : World H V B) h, Follows env (signed request 4 4) (.file f.inode f.mode) v →
        Follows env (signed request 4 4) (.file f.inode f.mode) { v with host := h } :=
      fun _ _ hv => hv.congr rfl rfl rfl
    exact (tracked_follows _ _).handleOther hhost (fun _ => trivial) hother w hfollows

theorem writeHandle_other {env : Env H V B} {message : Bytes} (hother : isWrite message = false)
    (w : World H V B) :
    (final (handleMessage env message w)).session.writeHandle = w.session.writeHandle := by
  have hwrite := ((stable_write w.session.write).tracked env).handleOther (fun _ _ hw => hw)
    (fun _ => trivial) hother w rfl
  exact congrArg Prod.fst hwrite

/-! ## Runs -/

section Runs

variable {env : Env H V B} {s init : Server H V B}

/-- The number of the next packet is another one. -/
def World.expecting (w : World H V B) (rx : Nat) : World H V B :=
  { w with session := { w.session with rxSeqNrExpected := rx } }

theorem Server.message_of_ne {a b : Addr} {e : Event} {message : Bytes}
    (h : s.message a e = some message) (hne : b ≠ a) : s.message b e = none := by
  cases e with
  | data addr datagram =>
      have haddr : addr = a := by
        by_contra hother
        rw [Server.message, if_pos (Or.inl hother)] at h
        cases h
      exact if_pos (Or.inl (haddr ▸ hne.symm))
  | discovery _ _ _ => cases h
  | gone _ => cases h

/-- An event that no session accepts a message of. -/
structure Server.Quiet (env : Env H V B) (s : Server H V B) (e : Event) : Prop where
  message : ∀ addr, s.message addr e = none
  host : (s.next env e).host = s.host
  device : (s.next env e).bd = s.bd
  gone : ∀ addr, e = .gone addr → (s.next env e).session addr = Session.new
  stays : ∀ addr, e ≠ .gone addr →
    ∃ rx, (s.next env e).world addr = (s.world addr).expecting rx

/-- The number of the next packet is all that has changed, and that of one peer. -/
theorem Server.quiet_of_settle {e : Event} (hmessage : ∀ addr, s.message addr e = none)
    (hstays : ∀ addr, e ≠ .gone addr) {addr : Addr} {n : Nat}
    (hnext : s.next env e = s.settle addr ((s.world addr).expecting n)) : s.Quiet env e := by
  refine ⟨hmessage, by rw [hnext]; rfl, by rw [hnext]; rfl,
    fun a ha => absurd ha (hstays a), fun a _ => ?_⟩
  rw [hnext]
  by_cases ha : a = addr
  · subst ha
    exact ⟨n, by simp [Server.world, Server.settle, Server.session, World.expecting]⟩
  · refine ⟨(s.session a).rxSeqNrExpected, ?_⟩
    simp [Server.world, Server.settle, Server.session, World.expecting, ha]

theorem Server.quiet_of_eq {e : Event} (hmessage : ∀ addr, s.message addr e = none)
    (hstays : ∀ addr, e ≠ .gone addr) (hnext : s.next env e = s) : s.Quiet env e := by
  refine ⟨hmessage, by rw [hnext], by rw [hnext], fun a ha => absurd ha (hstays a), fun a _ => ?_⟩
  rw [hnext]
  exact ⟨(s.session a).rxSeqNrExpected, rfl⟩

/-- What an event does: one message of one peer runs, or none. -/
theorem Server.next_cases (s : Server H V B) (e : Event) :
    (∃ addr message rx, s.message addr e = some message ∧ s.next env e =
      s.settle addr (final (handleMessage env message ((s.world addr).expecting rx)))) ∨
    s.Quiet env e := by
  cases e with
  | data addr datagram =>
      have hstays : ∀ a, Event.data addr datagram ≠ .gone a := fun a h => by cases h
      by_cases hskip : datagram.length < 2 ∨ packetType datagram ≠ DATA
      · right
        refine Server.quiet_of_eq (fun a => if_pos (Or.inr hskip)) hstays ?_
        rw [Server.next.eq_1, if_pos hskip]
      have hmessage : ∀ a, s.message a (.data addr datagram) =
          if addr = a then (acceptedPayload (s.session a) datagram).filter fun p => p ≠ [] else none := by
        intro a
        by_cases ha : addr = a
        · rw [if_pos ha, Server.message, if_neg fun h => h.elim (fun h => h ha) hskip]
        · rw [if_neg ha, Server.message, if_pos (Or.inl ha)]
      have hnext : s.next env (.data addr datagram) =
          s.settle addr (final (handleData env datagram (s.world addr))) := by
        rw [Server.next.eq_1, if_neg hskip]
        rfl
      have hsession : (s.world addr).session = s.session addr := rfl
      unfold handleData at hnext
      rw [get_bind, hsession] at hnext
      cases haccepted : acceptedPayload (s.session addr) datagram with
      | none =>
          right
          rw [haccepted] at hnext
          refine Server.quiet_of_settle (n := (s.session addr).rxSeqNrExpected) (fun a => ?_)
            hstays hnext
          rw [hmessage a]
          split
          · rename_i ha
            rw [← ha, haccepted]
            rfl
          · rfl
      | some payload =>
          rw [haccepted] at hnext
          dsimp only at hnext
          rw [bind_ok (set_apply _ _)] at hnext
          by_cases hempty : payload = []
          · right
            rw [if_pos hempty] at hnext
            refine Server.quiet_of_settle (n := (seqNr datagram + 1) % 0x1000) (fun a => ?_)
              hstays hnext
            rw [hmessage a]
            split
            · rename_i ha
              rw [← ha, haccepted, hempty]
              rfl
            · rfl
          · left
            rw [if_neg hempty] at hnext
            refine ⟨addr, payload, (seqNr datagram + 1) % 0x1000, ?_, hnext⟩
            rw [hmessage addr, if_pos rfl, haccepted]
            simp [hempty]
  | discovery addr datagram repeated =>
      right
      have hstays : ∀ a, Event.discovery addr datagram repeated ≠ .gone a := fun a h => by cases h
      by_cases hskip : datagram.length < 6 ∨ packetType datagram ≠ DISCOVERY ∨
          datagram.field 2 2 ≠ UDPRDMA_SVC_UDPFS
      · refine Server.quiet_of_eq (fun a => rfl) hstays ?_
        rw [Server.next.eq_2, if_pos hskip]
      · have hnext : s.next env (.discovery addr datagram repeated) =
            s.settle addr (final (handleDiscovery env datagram repeated (s.world addr))) := by
          rw [Server.next.eq_2, if_neg hskip]
          rfl
        unfold handleDiscovery at hnext
        rw [modify_apply] at hnext
        by_cases hcompat : env.cfg.moduloCompat && !repeated
        · rw [if_pos hcompat] at hnext
          exact Server.quiet_of_settle (fun a => rfl) hstays hnext
        · rw [if_neg hcompat] at hnext
          exact Server.quiet_of_settle (n := (s.session addr).rxSeqNrExpected) (fun a => rfl)
            hstays hnext
  | gone addr =>
      right
      refine ⟨fun a => rfl, rfl, rfl, fun a ha => ?_, fun a ha => ?_⟩
      · cases ha
        simp [Server.next, Server.session]
      · have hne : a ≠ addr := fun h => ha (h ▸ rfl)
        refine ⟨(s.session a).rxSeqNrExpected, ?_⟩
        simp [Server.next, Server.world, Server.session, World.expecting, hne]

/-- After the events, each session that has a write in progress collects the chunks of the last
request that started one. -/
structure Gathered (env : Env H V B) (init : Server H V B) (b : Option Inode) (events : List Event) :
    Prop where
  tabled : ∀ addr, Tabled b ((init.after env events).world addr)
  writes : ∀ addr, 0 ≤ ((init.after env events).session addr).writeHandle → ∃ request f rest,
    Underway env init addr events request f rest ∧ f.mode.writable ∧
      Gathering env ((init.after env events).world addr) request f (transferChunks request rest)

theorem gathered_new (h : H) (bd : Option Inode) :
    Gathered env (Server.new h bd : Server H V B) bd [] := by
  refine ⟨fun addr => ⟨?_, Nat.one_pos, fun e he => by cases he⟩, fun addr hidle => ?_⟩
  · cases bd <;> rfl
  · exact absurd hidle (not_le.mpr (Int.negSucc_lt_zero 0))

theorem Arms.writable {w : World H V B} {request : Bytes} {f : PlainFile}
    (h : Arms env w request f) : f.mode.writable := by
  obtain ⟨-, h⟩ | ⟨-, h⟩ := h
  · exact h.writable
  · exact h.writable

theorem Gathering.congr {w v : World H V B} {request : Bytes} {f : PlainFile}
    {messages : List (Option (Chunk UInt8))} (hw : Gathering env w request f messages)
    (hdevice : w.bd.map BlockDevice.inode = v.bd.map BlockDevice.inode)
    (hhandles : v.session.handles = w.session.handles)
    (hnext : v.session.nextHandle = w.session.nextHandle)
    (hwrite : v.session.write = w.session.write) : Gathering env v request f messages := by
  obtain ⟨received, data, hassembled, hwriting, hfollows⟩ := hw
  exact ⟨received, data, hassembled, hwriting.congr hwrite, hfollows.congr hdevice hhandles hnext⟩

/-- A message of a write, from a session whose write in progress is that of the last request. -/
theorem write_message {b : Option Inode} {events : List Event} {e : Event} {addr : Addr}
    {message : Bytes} {w : World H V B} (hwrite : isWrite message) (hw : Tabled b w)
    (hwrites : 0 ≤ w.session.writeHandle → ∃ request f rest,
      Underway env init addr events request f rest ∧ f.mode.writable ∧
        Gathering env w request f (transferChunks request rest))
    (hmessage : (init.after env events).message addr e = some message)
    (harms : ∀ request f, Arms env w request f →
      Arms env ((init.after env events).world addr) request f) :
    Frozen w.host (final (handleMessage env message w)) ∨
      ∃ request f rest, Underway env init addr (events ++ [e]) request f rest ∧ f.mode.writable ∧
        Advances env w (final (handleMessage env message w)) request f
          (transferChunks request rest) := by
  have hrequest : (∃ f, Arms env w message f ∧ Advances env w (final (handleMessage env message w))
      message f (transferChunks message [])) ∨ Frozen w.host (final (handleMessage env message w)) →
      Frozen w.host (final (handleMessage env message w)) ∨ ∃ request f rest,
        Underway env init addr (events ++ [e]) request f rest ∧ f.mode.writable ∧
          Advances env w (final (handleMessage env message w)) request f
            (transferChunks request rest) := by
    rintro (⟨f, hf, hadvances⟩ | hfrozen)
    · exact Or.inr ⟨message, f, [], .request hmessage (harms _ _ hf), hf.writable, hadvances⟩
    · exact Or.inl hfrozen
  unfold isWrite isWriteRequest at hwrite
  simp only [Bool.or_eq_true, decide_eq_true_eq] at hwrite
  obtain (htype | htype) | htype := hwrite
  · apply hrequest
    unfold handleMessage
    rw [htype]
    exact advances_writeReq hw htype
  · apply hrequest
    unfold handleMessage
    rw [htype]
    exact advances_bwriteReq hw htype
  · have hhandler : handleMessage env message = handleWriteData env message := by
      unfold handleMessage
      rw [htype]
    rw [hhandler]
    by_cases hhandle : w.session.writeHandle < 0
    · left
      rw [handleWriteData_idle hhandle]
      exact ⟨rfl, hhandle⟩
    · obtain ⟨request, f, rest, htransfer, hwritable, hgathering⟩ := hwrites (not_lt.mp hhandle)
      have hnext : Underway env init addr (events ++ [e]) request f (rest ++ [message]) :=
        htransfer.message hmessage (by simp [isWriteRequest, htype])
      refine Or.inr ⟨request, f, rest ++ [message], hnext, hwritable, ?_⟩
      rw [transferChunks_concat request rest htype]
      exact hgathering.chunk (not_lt.mp hhandle) hwritable message

/-- What an event does to the host: nothing, or the message of one peer creates, renames or deletes
names, or it completes a write. -/
def Explained (env : Env H V B) (init : Server H V B) (events : List Event) (e : Event) : Prop :=
  let s := init.after env events
  (s.next env e).host = s.host ∨ ∃ addr message, s.message addr e = some message ∧
    (changesNames message ∨ ∃ request f rest, isWrite message ∧
      Underway env init addr (events ++ [e]) request f rest ∧
      Finishes env (s.world addr) ((s.next env e).world addr) request f (transferChunks request rest))

/-- One event that no message runs in. -/
theorem Gathered.quiet {b : Option Inode} {events : List Event} (hs : Gathered env init b events)
    {e : Event} (hquiet : (init.after env events).Quiet env e) : Gathered env init b (events ++ [e]) := by
  obtain ⟨hmessage, hhost, hdevice, hgone, hstays⟩ := hquiet
  constructor
  · intro addr
    rw [Server.after_concat]
    have htabled := hs.tabled addr
    by_cases he : e = .gone addr
    · have hsession : (((init.after env events).next env e).world addr).session = Session.new :=
        hgone addr he
      refine ⟨?_, ?_, ?_⟩
      · rw [← htabled.device]
        exact congrArg (Option.map BlockDevice.inode) hdevice
      · rw [hsession]
        exact Nat.one_pos
      · rw [hsession]
        intro entry hentry
        cases hentry
    · obtain ⟨rx, hworld⟩ := hstays addr he
      rw [hworld]
      exact ⟨htabled.device, htabled.first, htabled.below⟩
  · intro addr hhandle
    rw [Server.after_concat] at hhandle ⊢
    have he : e ≠ .gone addr := by
      intro he
      rw [hgone addr he] at hhandle
      exact absurd hhandle (not_le.mpr (Int.negSucc_lt_zero 0))
    obtain ⟨rx, hworld⟩ := hstays addr he
    have hsame : ((init.after env events).next env e).session addr =
        (((init.after env events).world addr).expecting rx).session := by
      rw [← hworld]
      rfl
    rw [hsame] at hhandle
    obtain ⟨request, f, rest, htransfer, hwritable, hgathering⟩ := hs.writes addr hhandle
    refine ⟨request, f, rest, htransfer.other (hmessage addr) he, hwritable, ?_⟩
    rw [hworld]
    exact hgathering.congr rfl rfl rfl rfl

theorem Server.world_settle (s : Server H V B) (addr : Addr) (v : World H V B) :
    (s.settle addr v).world addr = { v with sent := [] } := by
  simp [Server.world, Server.settle, Server.session]

theorem Server.world_settle_of_ne (s : Server H V B) {addr a : Addr} (h : a ≠ addr) (v : World H V B) :
    (s.settle addr v).world a = { s.world a with host := v.host, bd := v.bd } := by
  simp [Server.world, Server.settle, Server.session, h]

theorem Server.not_gone_of_message {addr : Addr} {e : Event} {message : Bytes}
    (h : s.message addr e = some message) (a : Addr) : e ≠ .gone a := by
  rintro rfl
  cases h

theorem Arms.of_expecting {w : World H V B} {rx : Nat} {request : Bytes} {f : PlainFile}
    (h : Arms env (w.expecting rx) request f) : Arms env w request f := by
  obtain ⟨htype, h⟩ | ⟨htype, h⟩ := h
  · exact Or.inl ⟨htype, h.header, h.writableShare, h.size, h.file, h.writable⟩
  · exact Or.inr ⟨htype, h.header, h.writableShare, h.file, h.writable, h.size, h.offset⟩

/-- The peer whose message runs, after it. -/
theorem Gathered.writes_self {b : Option Inode} {events : List Event} (hs : Gathered env init b events)
    {e : Event} {addr : Addr} {message : Bytes} {rx : Nat}
    (hmessage : (init.after env events).message addr e = some message) :
    let w := ((init.after env events).world addr).expecting rx
    let v := final (handleMessage env message w)
    (0 ≤ v.session.writeHandle → ∃ request f rest,
      Underway env init addr (events ++ [e]) request f rest ∧ f.mode.writable ∧
        Gathering env v request f (transferChunks request rest)) ∧
    (v.host = w.host ∨ changesNames message ∨ ∃ request f rest, isWrite message ∧
      Underway env init addr (events ++ [e]) request f rest ∧
      Finishes env w v request f (transferChunks request rest)) := by
  intro w v
  have hwrites : 0 ≤ w.session.writeHandle → ∃ request f rest,
      Underway env init addr events request f rest ∧ f.mode.writable ∧
        Gathering env w request f (transferChunks request rest) := by
    intro hhandle
    obtain ⟨request, f, rest, htransfer, hwritable, hgathering⟩ := hs.writes addr hhandle
    exact ⟨request, f, rest, htransfer, hwritable, hgathering.congr rfl rfl rfl rfl⟩
  by_cases hwrite : isWrite message
  · have hw : Tabled b w := ⟨(hs.tabled addr).device, (hs.tabled addr).first, (hs.tabled addr).below⟩
    obtain hfrozen | ⟨request, f, rest, htransfer, hwritable, hadvances⟩ :=
      write_message hwrite hw hwrites hmessage fun _ _ h => h.of_expecting
    · exact ⟨fun hhandle => absurd hhandle (not_le.mpr hfrozen.idle), Or.inl hfrozen.host⟩
    · obtain ⟨hhost, hgathering⟩ | hfinishes := hadvances
      · exact ⟨fun hhandle => ⟨request, f, rest, htransfer, hwritable, hgathering hhandle⟩,
          Or.inl hhost⟩
      · exact ⟨fun hhandle => absurd hhandle (not_le.mpr hfinishes.1),
          Or.inr (Or.inr ⟨request, f, rest, hwrite, htransfer, hfinishes⟩)⟩
  · have hother := Bool.eq_false_iff.mpr hwrite
    constructor
    · intro hhandle
      have hsame : v.session.writeHandle = w.session.writeHandle := writeHandle_other hother w
      rw [hsame] at hhandle
      obtain ⟨request, f, rest, htransfer, hwritable, hgathering⟩ := hwrites hhandle
      have hrest : isWriteRequest message = false ∧ msgType message ≠ .writeData := by
        simpa [isWrite] using hother
      refine ⟨request, f, rest ++ [message], htransfer.message hmessage hrest.1, hwritable, ?_⟩
      rw [transferChunks_other request rest hrest.2]
      exact hgathering.other hother
    · by_cases hnames : changesNames message
      · exact Or.inr (Or.inl hnames)
      · exact Or.inl (keeps_host w.host hother (Bool.eq_false_iff.mpr hnames) w rfl)

/-- One message of one peer. -/
theorem Gathered.message {b : Option Inode} {events : List Event} (hs : Gathered env init b events)
    {e : Event} {addr : Addr} {message : Bytes} {rx : Nat}
    (hmessage : (init.after env events).message addr e = some message)
    (hnext : (init.after env events).next env e = (init.after env events).settle addr
      (final (handleMessage env message (((init.after env events).world addr).expecting rx)))) :
    Gathered env init b (events ++ [e]) ∧ Explained env init events e := by
  obtain ⟨hwrites, hhost⟩ := @Gathered.writes_self H V B env init b events hs e addr message rx hmessage
  have hw : Tabled b (((init.after env events).world addr).expecting rx) :=
    ⟨(hs.tabled addr).device, (hs.tabled addr).first, (hs.tabled addr).below⟩
  have hv : Tabled b (final (handleMessage env message _)) :=
    (loose_tabled b).handleMessage message _ hw
  unfold Explained
  generalize hfinal : final (handleMessage env message
    (((init.after env events).world addr).expecting rx)) = v at hwrites hhost hv hnext
  refine ⟨⟨fun a => ?_, fun a hhandle => ?_⟩, ?_⟩
  · rw [Server.after_concat, hnext]
    by_cases ha : a = addr
    · subst ha
      rw [Server.world_settle]
      exact ⟨hv.device, hv.first, hv.below⟩
    · rw [Server.world_settle_of_ne _ ha]
      exact ⟨hv.device, (hs.tabled a).first, (hs.tabled a).below⟩
  · have hsession : ((init.after env (events ++ [e])).session a) =
        ((init.after env (events ++ [e])).world a).session := rfl
    rw [hsession] at hhandle
    rw [Server.after_concat, hnext] at hhandle ⊢
    by_cases ha : a = addr
    · subst ha
      rw [Server.world_settle] at hhandle ⊢
      obtain ⟨request, f, rest, htransfer, hwritable, hgathering⟩ := hwrites hhandle
      exact ⟨request, f, rest, htransfer, hwritable, hgathering.congr rfl rfl rfl rfl⟩
    · rw [Server.world_settle_of_ne _ ha] at hhandle ⊢
      obtain ⟨request, f, rest, htransfer, hwritable, hgathering⟩ := hs.writes a hhandle
      have hnone := Server.message_of_ne hmessage ha
      refine ⟨request, f, rest, htransfer.other hnone (Server.not_gone_of_message hmessage a),
        hwritable, hgathering.congr ?_ rfl rfl rfl⟩
      exact (hs.tabled a).device.trans hv.device.symm
  · dsimp only
    rw [hnext]
    obtain hsame | hnames | ⟨request, f, rest, hwrite, htransfer, hfinishes⟩ := hhost
    · exact Or.inl hsame
    · exact Or.inr ⟨addr, message, hmessage, Or.inl hnames⟩
    · refine Or.inr ⟨addr, message, hmessage, Or.inr ⟨request, f, rest, hwrite, htransfer, ?_⟩⟩
      rw [Server.world_settle]
      exact hfinishes

/-- One event. -/
theorem Gathered.next {b : Option Inode} {events : List Event} (hs : Gathered env init b events)
    (e : Event) : Gathered env init b (events ++ [e]) ∧ Explained env init events e := by
  obtain ⟨addr, message, rx, hmessage, hnext⟩ | hquiet :=
    @Server.next_cases H V B env (init.after env events) e
  · exact hs.message hmessage hnext
  · exact ⟨hs.quiet hquiet, Or.inl hquiet.host⟩

/-- A whole run, by induction on its events. -/
theorem gathered_run (h : H) (bd : Option Inode) (events : List Event) :
    Gathered env (Server.new h bd : Server H V B) bd events := by
  induction events using List.reverseRecOn with
  | nil => exact gathered_new h bd
  | append_singleton events e ih => exact (ih.next e).1

/-- With the event a write of the peer is complete: the chunks numbered from zero that its session
has accepted since the last request that started one are all there, the file object is the one
behind the request's handle, and their bodies are what the host is given. -/
structure Completes (env : Env H V B) (init : Server H V B) (events : List Event) (e : Event)
    (addr : Addr) (request : Bytes) (f₀ f : PlainFile) (rest : List Bytes) (data : Bytes) : Prop where
  transfer : Underway env init addr (events ++ [e]) request f₀ rest
  complete : assembled env.cfg.maxTransferBytes (transferChunks request rest) = .complete data
  numbers : (accepted (transferChunks request rest)).map Chunk.nr =
    List.range (accepted (transferChunks request rest)).length
  bodies : data = (accepted (transferChunks request rest)).flatMap Chunk.body
  fits : data.length ≤ env.cfg.maxTransferBytes
  file : ((init.after env events).world addr).file env (signed request 4 4) = some (.file f)
  inode : f.inode = f₀.inode
  mode : f.mode = f₀.mode
  host : Wrote env (init.after env events).host request f data ((init.after env events).next env e).host
  ended : (((init.after env events).next env e).session addr).writeHandle < 0

/-- In every run of any number of peers on a host where flushes go through, whatever changes the host is a
message of one session that creates, renames or deletes names, or one that completes a write. -/
theorem changes_gathered (hflushes : env.host.Flushes) (h : H) (bd : Option Inode)
    (events : List Event) (e : Event)
    (hchange : (((Server.new h bd : Server H V B).after env events).next env e).host ≠
      ((Server.new h bd : Server H V B).after env events).host) :
    ∃ addr message,
      ((Server.new h bd : Server H V B).after env events).message addr e = some message ∧
        (changesNames message ∨ isWrite message ∧ ∃ request f₀ f rest data,
          Completes env (Server.new h bd) events e addr request f₀ f rest data) := by
  obtain hsame | ⟨addr, message, hmessage, hnames | hwrite⟩ :=
    ((@gathered_run H V B env h bd events).next e).2
  · exact absurd hsame hchange
  · exact ⟨addr, message, hmessage, Or.inl hnames⟩
  · obtain ⟨request, f₀, rest, hwrite, htransfer, hover, data, f, hcomplete, hfile, hinode, hmode,
      hhost⟩ := hwrite
    refine ⟨addr, message, hmessage, Or.inr ⟨hwrite, request, f₀, f, rest, data, ?_⟩⟩
    exact ⟨htransfer, hcomplete, accepted_nr _, data_of_complete hcomplete,
      length_of_complete hcomplete, hfile, hinode, hmode, wrote_of_flushes hflushes hhost, hover⟩

theorem changes_gathered_sector :
    ∃ addr message, ((Server.new oneGame (some 8)).after (diskEnv false)
        [.data console (dataPacket 0 oneSector)]).message addr
          (.data console (dataPacket 1 oneByte)) = some message ∧
      (changesNames message ∨ isWrite message ∧ ∃ request f₀ f rest data,
        Completes (diskEnv false) (Server.new oneGame (some 8))
          [.data console (dataPacket 0 oneSector)] (.data console (dataPacket 1 oneByte)) addr
          request f₀ f rest data) :=
  changes_gathered (fun _ _ _ _ => rfl) oneGame (some 8) [.data console (dataPacket 0 oneSector)]
    (.data console (dataPacket 1 oneByte)) (by decide +kernel)

end Runs

end Ps2Servers.Udpfs
