import Ps2Servers.Udpfs.Isolation
import Ps2Servers.Udpfs.Sendable

/-!
# Which requests are answered

A request is answered when its handler sends one reply and raises nothing. The handlers
turn an `OSError` into its negative errno, and little else: an exception without an
errno, a file object that cannot be read, a name that has no UTF-8, a year that has
no sixteen bits or a handle number that has no thirty-two leave the console waiting.
The conditions here say for each request what it finds on the host, in the images and
behind the decompressors that it is answered for.
-/

namespace Ps2Servers.Udpfs

open Text Effects

section

variable {H V B : Type} (env : Env H V B)

/-- One reply more than before, and no exception. -/
def Answered (before : List Bytes) : EStateM.Result Exn (World H V B) Unit → Prop
  | .ok _ w => w.sent ≠ [] ∧ w.sent.dropLast = before
  | .error _ _ => False

instance Answered.decidable (before : List Bytes) :
    (r : EStateM.Result Exn (World H V B) Unit) → Decidable (Answered before r)
  | .ok _ _ => inferInstanceAs (Decidable (_ ∧ _))
  | .error _ _ => inferInstanceAs (Decidable False)

/-- OPEN, CLOSE, READ, LSEEK, DREAD, GETSTAT, MKDIR, REMOVE, RMDIR or BREAD. -/
def expectsReply (payload : Bytes) : Bool :=
  [MsgType.open_, .close, .read, .lseek, .dread, .getstat, .mkdir, .remove, .rmdir,
    .bread].contains (msgType payload)

/-! ## Conditions on calls -/

/-- There is a path, and what its `os.stat` returns is fit to go on. -/
def StatThen (h : H) (path : Option Str) (next : Stat → Prop) : Prop :=
  match path with
  | none => False
  | some path => HostThen (env.host.stat h path) next

/-- The table is full, or the next handle has a number that can be sent. -/
def World.HandleFits (w : World H V B) : Prop :=
  MAX_HANDLES ≤ w.handleCount ∨ fits32 w.session.nextHandle

/-! ## Conditions on requests -/

/-- DREAD: the next entry's times and name can be sent. An image's were read with the listing. -/
def EntryAnswers (h : H) (entries : List (Advertised V)) : Prop :=
  match nextServed env h entries with
  | none => True
  | some (a, st, _) =>
      (a.view.isSome ∨ a.statInfo.isNone → StatFits env st) ∧
        (encode a.name).any fun name => name.length < 0x10000

/-- The stat of the image behind a path. -/
def SourceStat (h : H) (path : Str) (st : Stat) : Prop :=
  ∃ source, resolveCompressedSibling env h path = some source ∧ env.host.stat h source = .ok st ∧
    (getCompressedInfo env.host h source).isSome

/-- The stat of the image of the view behind a path. -/
def ViewStat (h : H) (path : Str) (st : Stat) : Prop :=
  ∃ view, resolveVirtualChd env h path = some view ∧
    env.host.lstat h (env.views.chdPath view) = .ok st

/-- GETSTAT: the times can be sent, and a path whose entry is there leads somewhere inside. -/
def GetstatAnswers (w : World H V B) (path : Str) : Prop :=
  path = [] ∧ w.bd.isSome ∨
    if realFileExists env w.host path then
      StatThen env w.host (resolvePath env.host env.cfg.rootDir w.host path) (StatFits env)
    else
      (∀ st, SourceStat env w.host path st → StatFits env st) ∧
        ((∃ st, SourceStat env w.host path st) ∨
          ∀ st, ViewStat env w.host path st → StatFits env st)

/-- OPEN of a directory. -/
def DirectoryAnswers (w : World H V B) (resolved : Option Str) : Prop :=
  HostThen (env.host.scandir w.host resolved) fun entries =>
    ListingFits env w.host entries ∧
      (MAX_HANDLES ≤ w.handleCount ∨
        StatThen env w.host resolved fun st => StatFits env st ∧ fits32 w.session.nextHandle)

/-- OPEN of an image by its alias: what is in it may refuse it, but may not be too large to ask for,
or to hold. -/
def ImageAnswers (w : World H V B) (path : Str) : Prop :=
  OpensThen env.host env.codecs w.host path
    (HostThen (env.host.stat w.host path) fun st => StatFits env st ∧ w.HandleFits)

/-- OPEN of a file in a mode. -/
def PlainAnswers (w : World H V B) (path : Str) (mode : Mode) : Prop :=
  let opened := fun (inode : Inode) (h : H) =>
    HostThen (env.host.fstat h inode) fun st => StatFits env st ∧ w.HandleFits
  if mode = .rb then HostThen (env.host.openRead w.host path) fun inode => opened inode w.host
  else HostThen (env.host.openWrite w.host path mode) fun p => opened p.1 p.2

/-- OPEN of a file or an image: in the host with the parent directories that it makes. -/
def FileAnswers (w : World H V B) (path : Str) (compressed : Bool) (flags : Nat) : Prop :=
  let there := exists_ env.host w.host path
  let answers := fun w : World H V B =>
    if compressed then ImageAnswers env w path else PlainAnswers env w path (flagsToMode flags there)
  (there = false ∧ hasFlag flags O_CREAT = false) ∨
    if hasFlag flags O_CREAT ∧ !exists_ env.host w.host (dirname env.host path) then
      HostThen (env.host.makedirs w.host (dirname env.host path)).1 fun _ =>
        answers { w with host := (env.host.makedirs w.host (dirname env.host path)).2 }
    else answers w

end

section

variable {H : Type} (env : Env H VirtualView OpenView) (names : ViewNames H)

/-- A read at a position of an object: a file open for reading whose bytes fit in memory, an image or
a view that can be read there; and fewer than `2^31` bytes. -/
def ReadsAt (h : H) (pos size : Nat) : Obj VirtualView OpenView → Prop
  | .file f =>
      f.mode.readable ∧
        match env.host.readAt h f.inode pos size with
        | .ok data => fits32 data.length
        | .error (.os _) => True
        | .error .memory => False
  | .image w => w.ReadsAt env.host env.codecs h pos size
  | .view b => b.ReadsAt env.codecs h pos size
  | .dir _ => False

/-- A read of an object, where it is. -/
def ReadAnswers (h : H) (size : Nat) : Obj VirtualView OpenView → Prop
  | .file f => ReadsAt env h f.pos size (.file f)
  | .image w => ReadsAt env h w.pos size (.image w)
  | .view b => ReadsAt env h b.pos size (.view b)
  | .dir _ => False

/-- A seek of an object. Files and images always answer. -/
def SeekAnswers (offset : Int) (whence : Nat) : Obj VirtualView OpenView → Prop
  | .view b => b.Seeks offset whence
  | .dir _ => False
  | _ => True

/-- A seek and a read, as BREAD makes them on an object of the session: a file that cannot be sought
has an errno. -/
def SeekReadAnswers (h : H) (offset size : Nat) : Obj VirtualView OpenView → Prop
  | .file f => env.host.maxOffset h f.inode < offset ∨ ReadsAt env h offset size (.file f)
  | obj => ReadsAt env h offset size obj

/-- BREAD: through the object, and on the block device at an offset. -/
def SectorsAnswer (w : World H VirtualView OpenView) (handle : Int) (obj : Obj VirtualView OpenView)
    (offset size : Nat) : Prop :=
  if handle = 0 ∧ env.host.hasPread then
    match w.bd with
    | none => False
    | some d =>
        match env.host.readAt w.host d.inode offset size with
        | .ok data => fits32 data.length
        | .error (.os _) => True
        | .error .memory => False
  else SeekReadAnswers env w.host offset size obj

/-- OPEN of a virtual CUE or BIN. -/
def VirtualAnswers (w : World H VirtualView OpenView) (view : VirtualView) (flags : Nat) : Prop :=
  (flags &&& 0x03 ≠ O_RDONLY ∨ hasFlag flags (O_APPEND ||| O_CREAT ||| O_TRUNC)) ∨
    (view.Opens env.host env.codecs w.host names →
      HostThen (env.host.lstat w.host view.chdPath) fun st =>
        TimesEnd env [st.ctime, st.atime, st.mtime])

/-- OPEN, once the path is looked up. -/
def OpenAnswers (w : World H VirtualView OpenView) (payload : Bytes) : Prop :=
  let flags := payload.field 2 2
  let path := clientPath (payload.drop 8)
  let resolved := resolvePath env.host env.cfg.rootDir w.host path
  let source := (aliasOf env w.host path).1
  let view := (aliasOf env w.host path).2
  if resolved.isNone && source.isNone && view.isNone then True
  else if payload.field 1 1 ≠ 0 then DirectoryAnswers env w resolved
  else if env.cfg.readOnly && hasFlag flags O_WRONLY then True
  else
    match view, source, resolved with
    | some view, _, _ => VirtualAnswers env names w view flags
    | none, some source, _ => FileAnswers env w source true flags
    | none, none, some resolved => FileAnswers env w resolved false flags
    | none, none, none => True

/-- A request that the server answers. -/
def Answers (w : World H VirtualView OpenView) (payload : Bytes) : Prop :=
  match msgType payload with
  | .open_ => 8 ≤ payload.length → OpenAnswers env names w payload
  | .read =>
      12 ≤ payload.length → payload.field 8 4 ≤ env.cfg.maxTransferBytes →
        ∀ obj, w.file env (signed payload 4 4) = some obj →
          ReadAnswers env w.host (payload.field 8 4) obj
  | .lseek =>
      16 ≤ payload.length → ∀ obj, w.file env (signed payload 4 4) = some obj →
        SeekAnswers (signed payload 8 8) (payload.field 1 1) obj
  | .dread =>
      8 ≤ payload.length → ∀ entries, w.handle env (signed payload 4 4) = some (.dir entries) →
        EntryAnswers env w.host entries
  | .getstat => 4 ≤ payload.length → GetstatAnswers env w (clientPath (payload.drop 4))
  | .bread =>
      16 ≤ payload.length → ∀ obj, w.file env (signed payload 4 4) = some obj →
        let total := payload.field 2 2 * sectorSize env (signed payload 4 4)
        let offset := payload.field 8 8 * sectorSize env (signed payload 4 4)
        total ≤ env.cfg.maxTransferBytes → offset ≤ MAX_OFFSET →
          SectorsAnswer env w (signed payload 4 4) obj offset total
  | _ => True

end

section

variable {H V B : Type} (env : Env H V B)

/-! ## Calls in a handler -/

section Calls

variable {α : Type} {f : α → Handler H V B Unit} {w : World H V B}

theorem osCall_ok_bind (a : α) : (osCall (.ok a) >>= f) w = f a w := rfl

theorem osCall_error_bind (errno : Errno) :
    (osCall (.error errno) >>= f) w = .error (.osError (some errno)) w := rfl

theorem raise_ok_bind (a : α) : (raise (.ok a) >>= f) w = f a w := rfl

theorem raise_error_bind (e : Exn) : (raise (.error e) >>= f) w = .error e w := rfl

theorem allocHandle_full {obj : Obj V B} {f : Int → Handler H V B Unit}
    (h : MAX_HANDLES ≤ w.handleCount) : (allocHandle obj >>= f) w = f (-EMFILE.toNat) w := by
  refine bind_ok ?_
  unfold allocHandle
  rw [get_bind, if_pos h]
  rfl

theorem allocHandle_free (obj : Obj V B) {f : Int → Handler H V B Unit}
    (h : ¬ MAX_HANDLES ≤ w.handleCount) :
    ∃ w' : World H V B, w'.sent = w.sent ∧ w'.host = w.host ∧
      (allocHandle obj >>= f) w = f w.session.nextHandle w' := by
  refine ⟨{ w with session := { w.session with
    handles := w.session.handles ++ [(w.session.nextHandle, obj)]
    nextHandle := w.session.nextHandle + 1 } }, rfl, rfl, bind_ok ?_⟩
  unfold allocHandle
  rw [get_bind, if_neg h]
  rfl

end Calls

/-! ## Replies -/

section Replies

variable {w : World H V B}

theorem fits32_errno (errno : Errno) : fits32 (-(errno.toNat : Int)) = true := by
  have := errno.toNat_lt
  unfold fits32
  simp only [Bool.and_eq_true, decide_eq_true_eq]
  omega

theorem packInt_bind {f : Bytes → Handler H V B Unit} {n : Int} (h : fits32 n) :
    (packInt n >>= f) w = f (Bytes.ofNat 4 (n % 0x100000000).toNat) w := by
  rw [packInt, if_pos h]
  rfl

theorem packInt_bind_error {f : Bytes → Handler H V B Unit} {n : Int} (h : ¬ fits32 n) :
    (packInt n >>= f) w = .error .structError w := by
  rw [packInt, if_neg h]
  rfl

/-- A reply built from a number that fits. -/
theorem answered_packInt {n : Int} {b : Bytes → Bytes} :
    Answered w.sent ((packInt n >>= fun number => sendData (b number)) w) ↔ fits32 n := by
  by_cases h : fits32 n
  · rw [packInt_bind h]
    simp [Answered, sendData, h]
  · rw [packInt_bind_error h]
    simp [Answered, h]

theorem answered_sendOpenReply {handle : Int} {info : StatInfo} :
    Answered w.sent (sendOpenReply handle info w) ↔ fits32 handle := answered_packInt

theorem answered_sendNumber {type : UInt8} {result : Int} {data : Bytes} :
    Answered w.sent (sendNumber type result data w) ↔ fits32 result := answered_packInt

theorem answered_number_iff {type : UInt8} {result : Int} {data : Bytes} {before : List Bytes} :
    Answered before (sendNumber type result data w) ↔ fits32 result ∧ w.sent = before := by
  unfold sendNumber
  by_cases h : fits32 result
  · rw [packInt_bind h]
    simp [Answered, sendData, h]
  · rw [packInt_bind_error h]
    simp [Answered, h]

theorem answered_sendGetstatReply {result : Int} {info : StatInfo} :
    Answered w.sent (sendGetstatReply result info w) ↔ fits32 result := answered_packInt

theorem answered_openError (errno : Errno) : Answered w.sent (openError errno w) :=
  answered_sendOpenReply.mpr (fits32_errno errno)

theorem answered_numberError (type : UInt8) (errno : Errno) :
    Answered w.sent (sendNumber type (-errno.toNat) [] w) :=
  answered_sendNumber.mpr (fits32_errno errno)

theorem answered_sendLseekReply {position : Int} (h : position < 0 → fits32 position) :
    Answered w.sent (sendLseekReply position w) := by
  unfold sendLseekReply
  split
  · exact answered_packInt.mpr (h (by assumption))
  · simp [Answered, sendData]

theorem sendLseekReply_nat (position : Nat) (w : World H V B) :
    sendLseekReply position w = .ok () { w with sent := w.sent ++ [[LSEEK_REPLY, 0, 0, 0] ++
      words [position % 0x100000000, position / 0x100000000 % 0x100000000]] } := by
  unfold sendLseekReply
  rw [if_neg (by omega)]
  rfl

theorem answered_sendDreadReply {result : Int} {name : Str} {info : StatInfo}
    (hresult : fits32 result) :
    Answered w.sent (sendDreadReply result name info w) ↔
      (encode name).any fun bytes => bytes.length < 0x10000 := by
  unfold sendDreadReply
  cases hname : encode name with
  | none => simp [orRaise, raise_error_bind, Answered]
  | some bytes =>
      rw [orRaise, raise_ok_bind]
      by_cases hlength : bytes.length < 0x10000
      · rw [packShort, if_pos hlength]
        refine (answered_packInt (b := fun number => _)).trans ?_
        simp [hresult, hlength]
      · rw [packShort, if_neg hlength]
        simp only [Option.any_some, decide_eq_true_eq, hlength, iff_false]
        exact id

end Replies

/-! ## Requests that answer an `OSError` with its errno -/

/-- The result is answered, or it is an `OSError` with an errno and nothing has been sent. -/
def Settled (before : List Bytes) : EStateM.Result Exn (World H V B) Unit → Prop
  | .ok () w => Answered before (.ok () w)
  | .error e w => (e.isOSError ∧ e.errno.isSome) ∧ w.sent = before

section Rescued

variable {w : World H V B}

/-- A handler that replies with the number it is given. -/
def RepliesErrno (reply : Int → Handler H V B Unit) : Prop :=
  ∀ (errno : Errno) (w : World H V B), ∃ bytes,
    reply (-errno.toNat) w = .ok () { w with sent := w.sent ++ [bytes] }

theorem repliesErrno_packInt {b : Bytes → Bytes} :
    RepliesErrno fun n => (packInt n >>= fun number => sendData (b number) : Handler H V B Unit) :=
  fun errno _ => ⟨_, packInt_bind (fits32_errno errno)⟩

theorem repliesErrno_sendOpenReply :
    RepliesErrno fun n => (sendOpenReply n .blank : Handler H V B Unit) := repliesErrno_packInt

theorem repliesErrno_sendNumber (type : UInt8) :
    RepliesErrno fun n => (sendNumber type n [] : Handler H V B Unit) := repliesErrno_packInt

theorem repliesErrno_sendGetstatReply :
    RepliesErrno fun n => (sendGetstatReply n .blank : Handler H V B Unit) := repliesErrno_packInt

theorem repliesErrno_sendLseekReply :
    RepliesErrno (sendLseekReply : Int → Handler H V B Unit) := by
  intro errno w
  unfold sendLseekReply
  split
  · exact ⟨_, packInt_bind (fits32_errno errno)⟩
  · exact ⟨_, rfl⟩

theorem answered_concat (w : World H V B) {bytes : Bytes} {before : List Bytes} :
    Answered before (.ok () { w with sent := w.sent ++ [bytes] }) ↔ w.sent = before := by
  simp [Answered]

/-- What an exception becomes. -/
theorem answered_negErrno {reply : Int → Handler H V B Unit} (hreply : RepliesErrno reply)
    (before : List Bytes) (e : Exn) :
    Answered before ((do reply (← negErrno e)) w) ↔ e.errno.isSome ∧ w.sent = before := by
  unfold negErrno
  cases he : e.errno with
  | none =>
      simp only [Option.isSome_none, Bool.false_eq_true, false_and, iff_false]
      exact id
  | some errno =>
      obtain ⟨bytes, hbytes⟩ := hreply errno w
      simp only [Option.isSome_some, true_and]
      change Answered before (reply (-errno.toNat) w) ↔ _
      rw [hbytes, answered_concat]

theorem answered_answerErrno {reply : Int → Handler H V B Unit} (hreply : RepliesErrno reply)
    (before : List Bytes) (body : Handler H V B Unit) :
    Answered before (answerErrno reply body w) ↔ Settled before (body w) := by
  unfold answerErrno rescue
  cases body w with
  | ok a w' => rfl
  | error e w' =>
      dsimp only [Settled]
      split
      · rename_i hos
        rw [answered_negErrno hreply]
        simp [hos]
      · rename_i hos
        simp [Answered, hos]

/-- A request that is too short, or asks for too much, is refused; the condition is about the others. -/
theorem answered_unless {n m : Nat} {x y : Handler H V B Unit} {next : Prop}
    (hx : Answered w.sent (x w)) (hy : m ≤ n → (Answered w.sent (y w) ↔ next)) :
    Answered w.sent ((if n < m then x else y) w) ↔ (m ≤ n → next) := by
  split
  case isTrue hlt => exact iff_of_true hx fun hle => absurd hlt (Nat.not_lt.mpr hle)
  case isFalse hnot =>
    have hle := Nat.not_lt.mp hnot
    exact (hy hle).trans (imp_iff_right hle).symm

/-- Replies raise what no handler catches. -/
theorem settled_packInt {n : Int} {b : Bytes → Bytes} :
    Settled w.sent ((packInt n >>= fun number => sendData (b number)) w) ↔ fits32 n := by
  by_cases h : fits32 n
  · rw [packInt_bind h]
    simp [Settled, Answered, sendData, h]
  · rw [packInt_bind_error h]
    simp [Settled, h]

theorem settled_sendOpenReply {handle : Int} {info : StatInfo} :
    Settled w.sent (sendOpenReply handle info w) ↔ fits32 handle := settled_packInt

theorem settled_sendNumber {type : UInt8} {result : Int} {data : Bytes} :
    Settled w.sent (sendNumber type result data w) ↔ fits32 result := settled_packInt

theorem settled_opened {obj : Obj V B} {info : StatInfo} :
    Settled w.sent ((allocHandle obj >>= fun handle => openedReply handle info) w) ↔
      w.HandleFits := by
  unfold World.HandleFits
  by_cases hfull : MAX_HANDLES ≤ w.handleCount
  · rw [allocHandle_full hfull]
    simp only [hfull, true_or, iff_true]
    exact settled_sendOpenReply.mpr (fits32_errno EMFILE)
  · obtain ⟨w', hsent, -, heq⟩ := allocHandle_free obj
      (f := fun handle => openedReply handle info) hfull
    rw [heq, ← hsent]
    unfold openedReply
    rw [if_neg (by omega), settled_sendOpenReply]
    simp [hfull]

/-- A call on the host inside such a request. -/
theorem settled_osCall {α : Type} {r : Except Errno α} {f : α → Handler H V B Unit}
    {next : α → Prop} (h : ∀ a, r = .ok a → (Settled w.sent (f a w) ↔ next a)) :
    Settled w.sent ((osCall r >>= f) w) ↔ HostThen r next := by
  cases r with
  | ok a => exact h a rfl
  | error errno =>
      rw [osCall_error_bind]
      simp [Settled, HostThen]

theorem settled_osCall_of {α : Type} {r : Except Errno α} {f : α → Handler H V B Unit}
    (h : ∀ a, Settled w.sent (f a w)) : Settled w.sent ((osCall r >>= f) w) := by
  cases r with
  | ok a => exact h a
  | error errno =>
      rw [osCall_error_bind]
      simp [Settled]

/-- Another call. -/
theorem settled_raise {α : Type} {r : Except Exn α} {f : α → Handler H V B Unit}
    {next : α → Prop} (h : ∀ a, r = .ok a → (Settled w.sent (f a w) ↔ next a)) :
    Settled w.sent ((raise r >>= f) w) ↔ ErrnoThen r next := by
  cases r with
  | ok a => exact h a rfl
  | error e =>
      rw [raise_error_bind]
      simp [Settled, ErrnoThen, Exn.hasErrno]

/-- A call that fits. -/
theorem settled_fits {α : Type} {r : Except Exn α} {f : α → Handler H V B Unit} {p next : Prop}
    (hr : Fits p r) (h : ∀ a, Settled w.sent (f a w) ↔ next) :
    Settled w.sent ((raise r >>= f) w) ↔ p ∧ next :=
  (settled_raise fun a _ => h a).trans (hr.errnoThen next)

variable {env}

/-- `os.stat` of a path that may be `None`. -/
theorem settled_statPath {path : Option Str} {f : Stat → Handler H V B Unit} {next : Stat → Prop}
    (h : ∀ st, Settled w.sent (f st w) ↔ next st) :
    Settled w.sent ((statPath env path >>= f) w) ↔ StatThen env w.host path next := by
  cases path with
  | none =>
      simp only [StatThen, iff_false]
      rintro ⟨⟨hos, -⟩, -⟩
      exact Bool.false_ne_true hos
  | some path => exact settled_osCall fun st _ => h st

theorem answered_openDirectory (resolved : Option Str) :
    Answered w.sent (openDirectory env resolved w) ↔ DirectoryAnswers env w resolved := by
  unfold openDirectory DirectoryAnswers
  refine (answered_answerErrno repliesErrno_sendOpenReply _ _).trans ?_
  rw [get_bind]
  refine settled_osCall fun entries _ =>
    settled_fits (fits_prepareDirectoryEntries w.host entries) fun prepared => ?_
  by_cases hfull : MAX_HANDLES ≤ w.handleCount
  · rw [allocHandle_full hfull]
    simp only [hfull, true_or, iff_true]
    exact settled_sendOpenReply.mpr (fits32_errno EMFILE)
  · obtain ⟨w', hsent, hhost, heq⟩ := allocHandle_free (.dir prepared) (f := fun handle => do
      if handle < 0 then sendOpenReply handle .blank
      else
        let st ← statPath env resolved
        let info ← raise (statToBytes env st)
        sendOpenReply handle info) hfull
    rw [heq, ← hsent, if_neg (by omega)]
    simp only [hfull, false_or]
    rw [← hhost]
    exact settled_statPath fun st => settled_fits (fits_statToBytes env st) fun info =>
      settled_sendOpenReply

/-- The errors of an image are reported as none, and there is no other with an errno. -/
theorem errnoThen_openWrapper (path : Str) (opened : Prop) :
    ErrnoThen (openWrapper env w.host path) (fun wrapper => wrapper.isNone ∨ opened) ↔
      OpensThen env.host env.codecs w.host path opened := by
  refine Iff.trans ?_ (imageThen_openCompressed path env.cfg.compressionCacheSize opened)
  unfold openWrapper
  cases openCompressed env.host env.codecs w.host path env.cfg.compressionCacheSize with
  | ok wrapper => rfl
  | error e =>
      dsimp only
      split
      case isTrue himage => exact iff_of_true (Or.inl rfl) himage
      case isFalse himage =>
        refine iff_of_false (fun herrno => himage ?_) himage
        unfold Exn.isImageError
        rw [herrno.1, Bool.or_true, Bool.true_or]

theorem settled_openImage (path : Str) :
    Settled w.sent (openImage env path w) ↔ ImageAnswers env w path := by
  unfold openImage ImageAnswers
  rw [get_bind]
  refine (settled_raise fun wrapper _ => ?_).trans (errnoThen_openWrapper path _)
  cases wrapper with
  | none =>
      simp only [Option.isNone_none, true_or, iff_true]
      exact settled_sendOpenReply.mpr (fits32_errno EIO)
  | some wrapper =>
      simp only [Option.isNone_some, Bool.false_eq_true, false_or]
      exact settled_osCall fun st _ =>
        settled_fits (fits_imageFields w.host path st) fun info => settled_opened

/-- The file is opened, or a failure of the host is raised. -/
theorem openPath_bind (path : Str) (mode : Mode) (f : Inode → Handler H V B Unit) :
    (openPath env path mode >>= f) w =
      if mode = .rb then
        match env.host.openRead w.host path with
        | .ok inode => f inode w
        | .error errno => .error (.osError (some errno)) w
      else
        match env.host.openWrite w.host path mode with
        | .ok p => f p.1 { w with host := p.2 }
        | .error errno => .error (.osError (some errno)) w := by
  unfold openPath
  rw [bind_assoc, get_bind]
  split
  · cases env.host.openRead w.host path <;> rfl
  · cases env.host.openWrite w.host path mode <;> rfl

/-- The parent directories are made if a file is to be created and they are not there. -/
theorem makeParents_bind (path : Str) (flags : Nat) (f : Unit → Handler H V B Unit) :
    (makeParents env path flags >>= f) w =
      if hasFlag flags O_CREAT ∧ !exists_ env.host w.host (dirname env.host path) then
        match (env.host.makedirs w.host (dirname env.host path)).1 with
        | .ok _ => f () { w with host := (env.host.makedirs w.host (dirname env.host path)).2 }
        | .error errno => .error (.osError (some errno))
            { w with host := (env.host.makedirs w.host (dirname env.host path)).2 }
      else f () w := by
  unfold makeParents hostCall
  rw [bind_assoc, get_bind]
  split
  · change (osCall (env.host.makedirs w.host (dirname env.host path)).1 >>= f)
      { w with host := (env.host.makedirs w.host (dirname env.host path)).2 } = _
    cases (env.host.makedirs w.host (dirname env.host path)).1 <;> rfl
  · rfl

theorem settled_openPlain (path : Str) (mode : Mode) :
    Settled w.sent (openPlain env path mode w) ↔ PlainAnswers env w path mode := by
  have hopened : ∀ (inode : Inode) (h : H), Settled w.sent ((do
      let w ← get
      let st ← osCall (env.host.fstat w.host inode)
      let info ← raise (statToBytes env st)
      let start := if mode.appends then env.host.fileEnd w.host inode else 0
      let handle ← allocHandle (.file ⟨inode, mode, start⟩)
      openedReply handle info : Handler H V B Unit) { w with host := h }) ↔
      HostThen (env.host.fstat h inode) fun st => StatFits env st ∧ w.HandleFits := by
    intro inode h
    rw [get_bind]
    exact settled_osCall fun st _ => settled_fits (fits_statToBytes env st) fun info => settled_opened
  unfold openPlain PlainAnswers
  rw [openPath_bind]
  dsimp only
  split
  · cases env.host.openRead w.host path with
    | ok inode => exact hopened inode w.host
    | error errno => simp [Settled, HostThen]
  · cases env.host.openWrite w.host path mode with
    | ok p => exact hopened p.1 p.2
    | error errno => simp [Settled, HostThen]

theorem answered_openFile (path : Str) (compressed : Bool) (flags : Nat) :
    Answered w.sent (openFile env path compressed flags w) ↔
      FileAnswers env w path compressed flags := by
  have hrest : ∀ (mode : Mode) (v : World H V B), v.sent = w.sent →
      (Settled w.sent ((if compressed then openImage env path else openPlain env path mode) v) ↔
        if compressed then ImageAnswers env v path else PlainAnswers env v path mode) := by
    intro mode v hv
    rw [← hv]
    cases compressed with
    | true => exact settled_openImage path
    | false => exact settled_openPlain path mode
  unfold openFile FileAnswers
  rw [get_bind]
  dsimp only
  by_cases hthere : exists_ env.host w.host path = false ∧ hasFlag flags O_CREAT = false
  · simp only [hthere, and_self, true_or, iff_true]
    exact answered_openError ENOENT
  · rw [if_neg (by simpa using hthere)]
    simp only [hthere, false_or]
    refine (answered_answerErrno repliesErrno_sendOpenReply _ _).trans ?_
    rw [makeParents_bind]
    split
    · cases (env.host.makedirs w.host (dirname env.host path)).1 with
      | error errno => simp [Settled, HostThen]
      | ok u => exact hrest _ _ rfl
    · exact hrest _ _ rfl

/-- The result is answered, or it is an error of an image and nothing has been sent. -/
def SettledImage (before : List Bytes) : EStateM.Result Exn (World H V B) Unit → Prop
  | .ok () w => Answered before (.ok () w)
  | .error e w => e.isImageError ∧ w.sent = before

theorem answered_rescueImage (before : List Bytes) (body : Handler H V B Unit) :
    Answered before (rescue body Exn.isImageError (fun _ => openError EIO) w) ↔
      SettledImage before (body w) := by
  unfold rescue
  cases body w with
  | ok a w' => rfl
  | error e w' =>
      dsimp only [SettledImage]
      split
      · rename_i himage
        obtain ⟨bytes, hbytes⟩ := repliesErrno_sendOpenReply EIO w'
        have hreply : openError EIO w' = .ok () { w' with sent := w'.sent ++ [bytes] } := hbytes
        rw [hreply, answered_concat]
        simp [himage]
      · rename_i himage
        simp [Answered, himage]

theorem settledImage_raise {α : Type} {r : Except Exn α} {f : α → Handler H V B Unit}
    {next : α → Prop} (h : ∀ a, SettledImage w.sent (f a w) ↔ next a) :
    SettledImage w.sent ((raise r >>= f) w) ↔ ImageThen r next := by
  cases r with
  | ok a => exact h a
  | error e =>
      rw [raise_error_bind]
      simp [SettledImage, ImageThen]

theorem settledImage_osCall {α : Type} {r : Except Errno α} {f : α → Handler H V B Unit}
    {next : α → Prop} (h : ∀ a, SettledImage w.sent (f a w) ↔ next a) :
    SettledImage w.sent ((osCall r >>= f) w) ↔ HostThen r next := by
  cases r with
  | ok a => exact h a
  | error errno =>
      rw [osCall_error_bind]
      simp [SettledImage, HostThen, Exn.isImageError]

/-- A number that does not fit is an error of an image here. -/
theorem settledImage_opened {obj : Obj V B} {info : StatInfo} :
    SettledImage w.sent ((allocHandle obj >>= fun handle => openedReply handle info) w) := by
  have hreply : ∀ (v : World H V B) (handle : Int) (info : StatInfo),
      SettledImage v.sent (sendOpenReply handle info v) := by
    intro v handle info
    unfold sendOpenReply
    by_cases hfits : fits32 handle
    · rw [packInt_bind hfits]
      simp [SettledImage, Answered, sendData]
    · rw [packInt_bind_error hfits]
      simp [SettledImage, Exn.isImageError]
  by_cases hfull : MAX_HANDLES ≤ w.handleCount
  · rw [allocHandle_full hfull]
    exact hreply _ _ _
  · obtain ⟨w', hsent, -, heq⟩ := allocHandle_free obj
      (f := fun handle => openedReply handle info) hfull
    rw [heq, ← hsent]
    unfold openedReply
    rw [if_neg (by omega)]
    exact hreply w' _ info

theorem answered_handleClose (payload : Bytes) :
    Answered w.sent (handleClose env payload w) := by
  unfold handleClose
  split
  · exact answered_numberError _ EINVAL
  · rw [get_bind]
    split
    · exact answered_sendNumber.mpr rfl
    split
    · exact answered_numberError _ EBADF
    · rw [freeHandle, bind_ok (modify_apply _ _)]
      exact answered_sendNumber.mpr (rfl : fits32 0 = true)

/-! ## Reads -/

theorem isSome_file_iff {handle : Int} {obj : Obj V B} (h : w.file env handle = some obj) :
    obj.isDir = false := by
  unfold World.file at h
  simpa using (Option.filter_eq_some_iff.mp h).2

theorem sent_update (handle : Int) (obj : Obj V B) : (w.update handle obj).sent = w.sent := by
  unfold World.update
  split
  · split <;> rfl
  · rfl

theorem onObject_error {α : Type} {handle : Int} {call : H → Except Exn α × Obj V B} {e : Exn}
    (h : (call w.host).1 = .error e) :
    onObject handle call w = .error e (w.update handle (call w.host).2) := by
  rw [onObject, get_bind, bind_ok (set_apply _ _), h]
  rfl

/-- A call on an object inside a request that answers with an errno. -/
theorem settled_onObject {α : Type} {handle : Int} {call : H → Except Exn α × Obj V B}
    {f : α → Handler H V B Unit} {next : α → Prop}
    (h : ∀ a, (call w.host).1 = .ok a →
      (Settled w.sent (f a (w.update handle (call w.host).2)) ↔ next a)) :
    Settled w.sent ((onObject handle call >>= f) w) ↔ ErrnoThen (call w.host).1 next := by
  cases hcall : (call w.host).1 with
  | ok a =>
      rw [bind_ok (onObject_ok hcall)]
      exact h a hcall
  | error e =>
      rw [bind_error (onObject_error hcall)]
      simp [Settled, ErrnoThen, Exn.hasErrno, sent_update]

/-! ## Seeks and sectors -/

theorem positionThen_target (env : Env H V B) (f : PlainFile) (h : H) (offset : Int)
    (whence : Nat) :
    PositionThen (f.target env.host h offset whence) := by
  have hplace : ∀ position : Int, PositionThen
      (if position < 0 ∨ env.host.maxOffset h f.inode < position then
        .error (.osError (some EINVAL)) else .ok position.toNat) := by
    intro position
    split <;> trivial
  unfold PlainFile.target
  split
  · exact hplace _
  · exact hplace _
  · exact hplace _
  · split
    · trivial
    · split
      · split <;> trivial
      · trivial

/-- A seek, and what is sent when it raises. -/
theorem answered_seek (handle : Int) (call : H → Except Exn Nat × Obj V B) :
    Answered w.sent (rescue
      (do
        let position ← onObject handle call
        sendLseekReply position)
      (fun e => e.isOSError || e.isValueError)
      (fun e => do
        if e.isOSError then sendLseekReply (← negErrno e) else sendLseekReply (-EINVAL.toNat)) w) ↔
      PositionThen (call w.host).1 := by
  cases hseek : (call w.host).1 with
  | ok position =>
      simp only [PositionThen, iff_true]
      rw [rescue_ok ((bind_ok (onObject_ok hseek)).trans (sendLseekReply_nat position _)),
        answered_concat]
      exact sent_update _ _
  | error e =>
      dsimp only [PositionThen]
      have hbody : (onObject handle call >>= fun position : Nat =>
          (sendLseekReply position : Handler H V B Unit)) w =
            .error e (w.update handle (call w.host).2) := bind_error (onObject_error hseek)
      by_cases hos : e.isOSError
      · rw [rescue_caught hbody (by simp [hos])]
        simp only [hos, if_true]
        rw [answered_negErrno repliesErrno_sendLseekReply]
        simp [sent_update]
      · rw [if_neg hos]
        by_cases hvalue : e.isValueError
        · rw [rescue_caught hbody (by simp [hvalue])]
          simp only [hos, if_false, hvalue, iff_true, Bool.false_eq_true]
          rw [← sent_update handle (call w.host).2]
          exact answered_sendLseekReply fun _ => fits32_errno EINVAL
        · rw [rescue_passed hbody (by simp [hos, hvalue])]
          simp [Answered, hvalue]

/-- Bytes whose number can be sent, or an `OSError` with an errno; and nothing sent so far. -/
def SettledBytes (before : List Bytes) : EStateM.Result Exn (World H V B) Bytes → Prop
  | .ok data w => fits32 data.length ∧ w.sent = before
  | .error e w => (e.isOSError ∧ e.errno.isSome) ∧ w.sent = before

theorem answered_sectors (body : Handler H V B Bytes) (before : List Bytes) :
    Answered before ((do
      let outcome ← rescue (Except.ok <$> body) Exn.isOSError fun e => Except.error <$> negErrno e
      match outcome with
      | .ok data => sendReadResult data.length data
      | .error number => sendReadResult number [] : Handler H V B Unit) w) ↔
      SettledBytes before (body w) := by
  cases hbody : body w with
  | ok data w' =>
      rw [bind_ok (rescue_ok (map_ok hbody))]
      exact answered_number_iff
  | error e w' =>
      by_cases hos : e.isOSError
      · cases herrno : e.errno with
        | none =>
            have hcaught : (Except.error <$> negErrno e : Handler H V B (Except Int Bytes)) w' =
                .error .typeError w' := by
              rw [negErrno, herrno]
              rfl
            rw [bind_error ((rescue_caught (map_error hbody) hos).trans hcaught)]
            simp [Answered, SettledBytes, herrno]
        | some errno =>
            have hcaught : (Except.error <$> negErrno e : Handler H V B (Except Int Bytes)) w' =
                .ok (.error (-errno.toNat)) w' := by
              rw [negErrno, herrno]
              rfl
            rw [bind_ok ((rescue_caught (map_error hbody) hos).trans hcaught)]
            refine answered_number_iff.trans ?_
            simp [SettledBytes, hos, herrno, fits32_errno]
      · rw [bind_error (rescue_passed (map_error hbody) hos)]
        simp [Answered, SettledBytes, hos]

theorem settledBytes_onObject {handle : Int} {call : H → Except Exn Bytes × Obj V B} :
    SettledBytes w.sent (onObject handle call w) ↔
      ErrnoThen (call w.host).1 fun data => fits32 data.length := by
  cases hcall : (call w.host).1 with
  | ok data =>
      rw [onObject_ok hcall]
      simp [SettledBytes, ErrnoThen, sent_update]
  | error e =>
      rw [onObject_error hcall]
      simp [SettledBytes, ErrnoThen, Exn.hasErrno, sent_update]

/-! ## Directories and stats -/

/-- A call whose exceptions nobody catches. -/
theorem answered_raise {α : Type} {r : Except Exn α} {f : α → Handler H V B Unit}
    {next : α → Prop} (h : ∀ a, Answered w.sent (f a w) ↔ next a) :
    Answered w.sent ((raise r >>= f) w) ↔ ReturnsThen r next := by
  cases r with
  | ok a => exact h a
  | error e =>
      rw [raise_error_bind]
      simp [Answered, ReturnsThen]

/-- The fields of an image were read with the listing. -/
theorem fits_fields (a : Advertised V) (st : Stat) :
    Fits (a.view.isSome ∨ a.statInfo.isNone → StatFits env st) (a.fields env st) := by
  unfold Advertised.fields
  cases a.view with
  | some view => exact (fits_virtualStat env view st).of_iff (by simp)
  | none =>
      cases a.statInfo with
      | some info => exact .ok info (by simp)
      | none => exact (fits_statToBytes env st).of_iff (by simp)

/-- The next entry of a directory. -/
theorem answered_entry (handle : Int) (entries : List (Advertised V)) :
    Answered w.sent ((match nextServed env w.host entries with
      | none => do
          set (w.update handle (.dir []))
          sendDreadReply 0 [] .blank
      | some (a, st, rest) => do
          set (w.update handle (.dir rest))
          let info ← raise (a.fields env st)
          sendDreadReply 1 a.name info : Handler H V B Unit) w) ↔
      EntryAnswers env w.host entries := by
  unfold EntryAnswers
  cases nextServed env w.host entries with
  | none =>
      simp only [iff_true]
      rw [bind_ok (set_apply _ _), ← sent_update handle (.dir [])]
      exact (answered_sendDreadReply (rfl : fits32 0 = true)).mpr rfl
  | some p =>
      obtain ⟨a, st, rest⟩ := p
      dsimp only
      rw [bind_ok (set_apply _ _), ← sent_update handle (.dir rest)]
      refine (answered_raise fun info => answered_sendDreadReply (rfl : fits32 1 = true)).trans ?_
      exact (fits_fields a st).returnsThen _

theorem answered_badHandle {p : Prop} (hp : p) :
    Answered w.sent (sendDreadReply (-EBADF.toNat) [] .blank w) ↔ p :=
  iff_of_true ((answered_sendDreadReply (fits32_errno EBADF)).mpr rfl) hp

theorem answered_handleDread (payload : Bytes) :
    Answered w.sent (handleDread env payload w) ↔
      (8 ≤ payload.length → ∀ entries,
        w.handle env (signed payload 4 4) = some (.dir entries) →
          EntryAnswers env w.host entries) := by
  unfold handleDread
  refine answered_unless ((answered_sendDreadReply (fits32_errno EINVAL)).mpr rfl) fun _ => ?_
  rw [get_bind]
  cases hhandle : w.handle env (signed payload 4 4) with
  | none => exact answered_badHandle (by simp)
  | some obj =>
      cases obj with
      | dir entries =>
          simp only [Option.some.injEq, Obj.dir.injEq, forall_eq']
          exact answered_entry (signed payload 4 4) entries
      | file f => exact answered_badHandle (by simp)
      | image i => exact answered_badHandle (by simp)
      | view b => exact answered_badHandle (by simp)

/-- The image behind a path, if its times can be sent. -/
theorem returnsThen_sourceFields (h : H) (path : Str) (next : Prop) :
    ReturnsThen (sourceFields env h path) (fun info => info.isSome ∨ next) ↔
      (∀ st, SourceStat env h path st → StatFits env st) ∧
        ((∃ st, SourceStat env h path st) ∨ next) := by
  have hnone (hnot : ∀ st, ¬ SourceStat env h path st) :
      ReturnsThen (.ok (none : Option StatInfo)) (fun info => info.isSome ∨ next) ↔
        (∀ st, SourceStat env h path st → StatFits env st) ∧
          ((∃ st, SourceStat env h path st) ∨ next) := by
    have hall : ∀ st, SourceStat env h path st → StatFits env st := fun st hst => absurd hst (hnot st)
    have hex : ¬ ∃ st, SourceStat env h path st := fun ⟨st, hst⟩ => hnot st hst
    rw [and_iff_right hall, or_iff_right hex]
    exact or_iff_right (by simp)
  unfold sourceFields
  cases hsource : resolveCompressedSibling env h path with
  | none =>
      refine hnone fun st hst => ?_
      obtain ⟨source, hsome, -⟩ := hst
      rw [hsource] at hsome
      cases hsome
  | some source =>
      dsimp only
      cases hstat : env.host.stat h source with
      | error errno =>
          refine hnone fun st hst => ?_
          obtain ⟨source', hsome, hok, -⟩ := hst
          rw [hsource] at hsome
          cases hsome
          rw [hstat] at hok
          cases hok
      | ok st =>
          have hiff (st' : Stat) : SourceStat env h path st' ↔
              st' = st ∧ (getCompressedInfo env.host h source).isSome := by
            constructor
            · rintro ⟨source', hsome, hok, hinfo⟩
              rw [hsource] at hsome
              cases hsome
              rw [hstat] at hok
              cases hok
              exact ⟨rfl, hinfo⟩
            · rintro ⟨rfl, hinfo⟩
              exact ⟨source, hsource, hstat, hinfo⟩
          simp only [hiff, exists_and_right, exists_eq, true_and, and_imp, forall_eq]
          unfold getCompressedStat
          cases getCompressedInfo env.host h source with
          | none => simp [ReturnsThen]
          | some size =>
              dsimp only
              have hfields := fits_statFields env FIO_S_IFREG size st
              generalize statFields env FIO_S_IFREG size st = r at hfields ⊢
              cases hfields with
              | ok info hfits => simp [ReturnsThen, hfits]
              | error e he hnot => simp [ReturnsThen, hnot]

theorem returnsThen_viewFields (h : H) (path : Str) :
    ReturnsThen (viewFields env h path) (fun _ => True) ↔
      ∀ st, ViewStat env h path st → StatFits env st := by
  unfold viewFields ViewStat
  cases resolveVirtualChd env h path with
  | none => simp [ReturnsThen]
  | some view =>
      dsimp only
      cases hstat : env.host.lstat h (env.views.chdPath view) with
      | error errno => simp [ReturnsThen, hstat]
      | ok st =>
          refine ((fits_virtualStat env view st).map.returnsThen True).trans ?_
          simp [hstat]

theorem answered_getstatAlias (path : Str) :
    Answered w.sent (getstatAlias env path w) ↔
      (∀ st, SourceStat env w.host path st → StatFits env st) ∧
        ((∃ st, SourceStat env w.host path st) ∨
          ∀ st, ViewStat env w.host path st → StatFits env st) := by
  unfold getstatAlias
  rw [get_bind, ← returnsThen_viewFields, ← returnsThen_sourceFields]
  refine answered_raise fun info => ?_
  cases info with
  | some info =>
      simp only [Option.isSome_some, true_or, iff_true]
      exact answered_sendGetstatReply.mpr (rfl : fits32 0 = true)
  | none =>
      simp only [Option.isSome_none, Bool.false_eq_true, false_or]
      refine answered_raise fun view => ?_
      simp only [iff_true]
      cases view with
      | some info => exact answered_sendGetstatReply.mpr (rfl : fits32 0 = true)
      | none => exact answered_sendGetstatReply.mpr (fits32_errno _)

theorem answered_handleGetstat (payload : Bytes) :
    Answered w.sent (handleGetstat env payload w) ↔
      (4 ≤ payload.length → GetstatAnswers env w (clientPath (payload.drop 4))) := by
  unfold handleGetstat
  refine answered_unless (answered_sendGetstatReply.mpr (fits32_errno EINVAL)) fun _ => ?_
  rw [get_bind]
  unfold GetstatAnswers
  split
  · rename_i hdevice
    exact iff_of_true (answered_sendGetstatReply.mpr (rfl : fits32 0 = true)) (Or.inl hdevice)
  · rename_i hdevice
    rw [or_iff_right hdevice]
    cases hreal : realFileExists env w.host (clientPath (payload.drop 4)) with
    | false => exact answered_getstatAlias _
    | true =>
        refine (answered_answerErrno repliesErrno_sendGetstatReply _ _).trans ?_
        refine settled_statPath fun st => (settled_fits (fits_statToBytes env st)
          fun info => ?_).trans (and_iff_left trivial)
        exact iff_of_true (settled_packInt.mpr (rfl : fits32 0 = true)) trivial

/-! ## Changes of the file system -/

theorem settled_hostEdit (call : H → Except Errno H) :
    Settled w.sent ((do hostEdit call; sendResultReply 0) w) := by
  cases hcall : call w.host with
  | ok h =>
      have hedit : hostEdit call w = .ok () { w with host := h } := by
        rw [hostEdit, get_bind, hcall]
        rfl
      rw [bind_ok hedit]
      exact settled_sendNumber.mpr (rfl : fits32 0 = true)
  | error errno =>
      have hedit : hostEdit call w = .error (.osError (some errno)) w := by
        rw [hostEdit, get_bind, hcall]
        rfl
      rw [bind_error hedit]
      simp [Settled]

theorem answered_resultError (errno : Errno) : Answered w.sent (resultError errno w) :=
  answered_numberError _ errno

theorem answered_deleteEntry (root path entry : Str) (refused : Stat → Bool) (errno : Errno)
    (delete : H → Str → Except Errno H) :
    Answered w.sent (deleteEntry env root path entry refused errno delete w) := by
  have hrefuse : ∀ errno, Settled w.sent (resultError errno w) := fun errno =>
    settled_sendNumber.mpr (fits32_errno errno)
  unfold deleteEntry
  refine (answered_answerErrno (repliesErrno_sendNumber RESULT_REPLY) _ _).mpr ?_
  rw [get_bind]
  refine settled_osCall_of fun linked => ?_
  split
  · exact hrefuse EACCES
  · refine settled_osCall_of fun st => ?_
    split
    · exact hrefuse errno
    · exact settled_hostEdit _

theorem answered_handleMkdir (payload : Bytes) :
    Answered w.sent (handleMkdir env payload w) := by
  unfold handleMkdir
  split
  · exact answered_resultError EINVAL
  · rw [get_bind]
    split
    · exact answered_resultError EACCES
    · cases resolveEntry env.host env.cfg.rootDir w.host (clientPath (payload.drop 4)) with
      | none => exact answered_resultError EACCES
      | some entry =>
          exact (answered_answerErrno (repliesErrno_sendNumber RESULT_REPLY) _ _).mpr
            (settled_hostEdit _)

theorem answered_handleRemove (payload : Bytes) :
    Answered w.sent (handleRemove env payload w) := by
  unfold handleRemove
  split
  · exact answered_resultError EINVAL
  · rw [get_bind]
    split
    · exact answered_resultError EACCES
    · cases env.cfg.rootDir with
      | none => exact answered_resultError EACCES
      | some root =>
          cases resolveEntry env.host (some root) w.host (clientPath (payload.drop 4)) with
          | none => exact answered_resultError EACCES
          | some entry => exact answered_deleteEntry _ _ _ _ _ _

theorem answered_handleRmdir (payload : Bytes) :
    Answered w.sent (handleRmdir env payload w) := by
  unfold handleRmdir
  split
  · exact answered_resultError EINVAL
  · rw [get_bind]
    split
    · exact answered_resultError EACCES
    · cases env.cfg.rootDir with
      | none => exact answered_resultError EACCES
      | some root =>
          cases resolveEntry env.host (some root) w.host (clientPath (payload.drop 4)) with
          | none => exact answered_resultError EACCES
          | some entry =>
              dsimp only
              split
              · exact answered_resultError EACCES
              · exact answered_deleteEntry _ _ _ _ _ _

end Rescued

end

/-! ## Objects of the server -/

section

variable {H V B : Type} {env : Env H V B}

/-- What the host has at a place, and what becomes of its faults. -/
theorem errnoThen_orFault (r : Except Fault Bytes) :
    ErrnoThen (orFault r) (fun data => fits32 data.length) ↔
      match r with
      | .ok data => fits32 data.length
      | .error (.os _) => True
      | .error .memory => False := by
  cases r with
  | ok data => rfl
  | error fault =>
      cases fault with
      | os errno => exact iff_of_true ⟨rfl, rfl⟩ trivial
      | memory => exact iff_of_false (Exn.not_hasErrno rfl) id

theorem settledBytes_readAt {w : World H V B} (r : Except Fault Bytes) :
    SettledBytes w.sent ((raise (orFault r) : Handler H V B Bytes) w) ↔
      match r with
      | .ok data => fits32 data.length
      | .error (.os _) => True
      | .error .memory => False := by
  rw [← errnoThen_orFault]
  cases orFault r with
  | ok data => exact and_iff_left rfl
  | error e => exact and_iff_left rfl

end

section

variable {H : Type} {env : Env H VirtualView OpenView} {names : ViewNames H}
  (hviews : env.views = chdViews env.host env.codecs names) {w : World H VirtualView OpenView}

include hviews

theorem answered_openVirtual (view : VirtualView) (flags : Nat) :
    Answered w.sent (openVirtual env view flags w) ↔ VirtualAnswers env names w view flags := by
  unfold openVirtual VirtualAnswers
  split
  · rename_i hflags
    exact iff_of_true (answered_openError EACCES) (Or.inl hflags)
  · rename_i hflags
    rw [or_iff_right hflags]
    refine (answered_rescueImage _ _).trans ?_
    rw [get_bind, hviews]
    have hstats : ∀ obj : OpenView, SettledImage w.sent ((do
        let st ← osCall (env.host.lstat w.host view.chdPath)
        let info ← raise (virtualStat env view st)
        let handle ← allocHandle (.view obj)
        openedReply handle info : Handler H VirtualView OpenView Unit) w) ↔
        HostThen (env.host.lstat w.host view.chdPath) fun st =>
          TimesEnd env [st.ctime, st.atime, st.mtime] := fun obj =>
      settledImage_osCall fun st =>
        (settledImage_raise fun info => iff_true_intro settledImage_opened).trans
          (imageThen_virtualStat view st)
    exact (settledImage_raise hstats).trans (imageThen_openView names view _ _)

theorem answered_handleOpen (payload : Bytes) :
    Answered w.sent (handleOpen env payload w) ↔
      (8 ≤ payload.length → OpenAnswers env names w payload) := by
  unfold handleOpen
  refine answered_unless (answered_openError EINVAL) fun _ => ?_
  rw [get_bind]
  unfold OpenAnswers
  dsimp only
  split
  · exact iff_true_intro (answered_openError EACCES)
  split
  · exact answered_openDirectory _
  split
  · exact iff_true_intro (answered_openError EACCES)
  generalize (aliasOf env w.host (clientPath (payload.drop 8))).2 = view
  generalize (aliasOf env w.host (clientPath (payload.drop 8))).1 = source
  generalize resolvePath env.host env.cfg.rootDir w.host (clientPath (payload.drop 8)) = resolved
  match view, source, resolved with
  | some view, _, _ => exact answered_openVirtual hviews view _
  | none, some source, _ => exact answered_openFile source true _
  | none, none, some resolved => exact answered_openFile resolved false _
  | none, none, none => exact iff_true_intro (answered_openError EACCES)

omit hviews in
theorem errnoThen_fileRead {h : H} (f : PlainFile) (size : Nat) :
    ErrnoThen (f.read env.host h size).1 (fun data => fits32 data.length) ↔
      ReadsAt env h f.pos size (.file f) := by
  unfold PlainFile.read ReadsAt
  dsimp only
  by_cases hreadable : f.mode.readable = true
  · rw [if_pos hreadable, and_iff_right hreadable, ← errnoThen_orFault]
    cases env.host.readAt h f.inode f.pos size with
    | ok data => rfl
    | error fault => rfl
  · rw [if_neg hreadable]
    exact iff_of_false (fun herrno => by cases herrno.2) fun hreads => hreadable hreads.1

/-- What is read of an object, by the kind of object. -/
theorem readAnswers_iff {h : H} {size : Nat} {obj : Obj VirtualView OpenView}
    (hobj : obj.isDir = false) :
    ReadAnswers env h size obj ↔
      ErrnoThen (obj.read env h size).1 fun data => fits32 data.length := by
  cases obj with
  | file f => exact (errnoThen_fileRead f size).symm
  | image w => exact (errnoThen_imageRead w w.pos size).symm
  | view b =>
      change _ ↔ ErrnoThen (env.views.read h b size).1 _
      rw [hviews]
      exact (errnoThen_viewRead names b size).symm
  | dir entries => cases hobj

theorem answered_handleRead (payload : Bytes) :
    Answered w.sent (handleRead env payload w) ↔
      (12 ≤ payload.length → payload.field 8 4 ≤ env.cfg.maxTransferBytes →
        ∀ obj, w.file env (signed payload 4 4) = some obj →
          ReadAnswers env w.host (payload.field 8 4) obj) := by
  unfold handleRead
  refine answered_unless (answered_numberError _ EINVAL) fun _ => ?_
  rw [get_bind]
  refine answered_unless (answered_numberError _ EINVAL) fun _ => ?_
  cases hfile : w.file env (signed payload 4 4) with
  | none => exact iff_of_true (answered_numberError _ EBADF) nofun
  | some obj =>
      simp only [Option.some.injEq, forall_eq']
      refine (answered_answerErrno (repliesErrno_sendNumber _) _ _).trans ?_
      refine (settled_onObject fun data _ => ?_).trans
        (readAnswers_iff hviews (isSome_file_iff hfile)).symm
      rw [← sent_update (signed payload 4 4) (obj.read env w.host (payload.field 8 4)).2]
      exact settled_sendNumber

theorem seekAnswers_iff {h : H} {offset : Int} {whence : Nat} {obj : Obj VirtualView OpenView}
    (hobj : obj.isDir = false) :
    SeekAnswers offset whence obj ↔ PositionThen (obj.seek env h offset whence).1 := by
  cases obj with
  | file f =>
      have htarget := positionThen_target env f h offset whence
      refine iff_of_true trivial ?_
      change PositionThen (f.seek env.host h offset whence).1
      unfold PlainFile.seek
      cases hseek : f.target env.host h offset whence with
      | ok position => trivial
      | error e =>
          rw [hseek] at htarget
          exact htarget
  | image w => exact iff_of_true trivial trivial
  | view b =>
      change _ ↔ PositionThen (env.views.seek h b offset whence).1
      rw [hviews]
      exact (viewSeeks_iff names b offset whence).symm
  | dir entries => cases hobj

theorem answered_handleLseek (payload : Bytes) :
    Answered w.sent (handleLseek env payload w) ↔
      (16 ≤ payload.length → ∀ obj, w.file env (signed payload 4 4) = some obj →
        SeekAnswers (signed payload 8 8) (payload.field 1 1) obj) := by
  unfold handleLseek
  refine answered_unless (answered_sendLseekReply fun _ => fits32_errno EINVAL) fun _ => ?_
  rw [get_bind]
  cases hfile : w.file env (signed payload 4 4) with
  | none => exact iff_of_true (answered_sendLseekReply fun _ => fits32_errno EBADF) nofun
  | some obj =>
      simp only [Option.some.injEq, forall_eq']
      rw [seekAnswers_iff hviews (h := w.host) (isSome_file_iff hfile)]
      exact answered_seek (signed payload 4 4) fun h =>
        obj.seek env h (signed payload 8 8) (payload.field 1 1)

theorem seekReadAnswers_iff {h : H} {offset size : Nat} {obj : Obj VirtualView OpenView}
    (hobj : obj.isDir = false) :
    SeekReadAnswers env h offset size obj ↔
      ErrnoThen (obj.seekRead env h offset size).1 fun data => fits32 data.length := by
  cases obj with
  | file f =>
      unfold Obj.seekRead Obj.seek PlainFile.seek SeekReadAnswers
      dsimp only
      have htarget : f.target env.host h offset 0 =
          if (offset : Int) < 0 ∨ (env.host.maxOffset h f.inode : Int) < offset then
            .error (.osError (some EINVAL)) else .ok (offset : Int).toNat := rfl
      rw [htarget]
      by_cases hfar : env.host.maxOffset h f.inode < offset
      · rw [if_pos (Or.inr (Int.ofNat_lt.mpr hfar))]
        exact iff_of_true (Or.inl hfar) ⟨rfl, rfl⟩
      · rw [if_neg (by omega), or_iff_right hfar, Int.toNat_natCast]
        exact (errnoThen_fileRead { f with pos := offset } size).symm
  | image w => exact (errnoThen_imageSeekRead w offset size).symm
  | view b =>
      obtain ⟨b', hseek, hread⟩ := viewSeek_start env.host env.codecs h names b offset size
      have hobject : (Obj.view b : Obj VirtualView OpenView).seek env h offset 0 =
          (.ok offset, .view b') := by
        change ((env.views.seek h b offset 0).1, Obj.view (env.views.seek h b offset 0).2) = _
        rw [hviews, hseek]
      unfold Obj.seekRead
      rw [hobject]
      change _ ↔ ErrnoThen (env.views.read h b' size).1 _
      rw [hviews]
      exact hread.symm
  | dir entries => cases hobj

theorem settledBytes_readSectors {handle : Int} {obj : Obj VirtualView OpenView} {offset size : Nat}
    (hfile : w.file env handle = some obj) :
    SettledBytes w.sent (readSectors env handle obj offset size w) ↔
      SectorsAnswer env w handle obj offset size := by
  have hobj := isSome_file_iff hfile
  unfold readSectors SectorsAnswer
  rw [get_bind]
  by_cases hzero : handle = 0
  · rw [hzero, file_zero] at hfile
    rw [if_pos hzero]
    obtain ⟨d, hbd, hd⟩ := Option.map_eq_some_iff.mp hfile
    rw [hbd, hzero]
    dsimp only
    unfold bdRead
    by_cases hpread : env.host.hasPread = true
    · rw [if_pos hpread, if_pos ⟨rfl, hpread⟩, get_bind]
      exact settledBytes_readAt _
    · rw [if_neg hpread, if_neg fun hboth => hpread hboth.2, hd, seekReadAnswers_iff hviews hobj]
      exact settledBytes_onObject
  · rw [if_neg hzero, if_neg (fun h => hzero h.1), seekReadAnswers_iff hviews hobj]
    exact settledBytes_onObject

theorem answered_handleBread (payload : Bytes) :
    Answered w.sent (handleBread env payload w) ↔
      (16 ≤ payload.length → ∀ obj, w.file env (signed payload 4 4) = some obj →
        payload.field 2 2 * sectorSize env (signed payload 4 4) ≤ env.cfg.maxTransferBytes →
        payload.field 8 8 * sectorSize env (signed payload 4 4) ≤ MAX_OFFSET →
          SectorsAnswer env w (signed payload 4 4) obj
            (payload.field 8 8 * sectorSize env (signed payload 4 4))
            (payload.field 2 2 * sectorSize env (signed payload 4 4))) := by
  unfold handleBread
  refine answered_unless (answered_numberError _ EINVAL) fun _ => ?_
  rw [get_bind]
  cases hfile : w.file env (signed payload 4 4) with
  | none => exact iff_of_true (answered_numberError _ EBADF) nofun
  | some obj =>
      simp only [Option.some.injEq, forall_eq']
      unfold breadFrom
      refine answered_unless (answered_numberError _ EINVAL) fun _ => ?_
      refine answered_unless (answered_numberError _ EINVAL) fun _ => ?_
      exact (answered_sectors _ _).trans (settledBytes_readSectors hviews hfile)

/-- The handler of a message answers exactly the requests that meet the condition. -/
theorem answered_handleMessage {payload : Bytes} (hexpects : expectsReply payload)
    (w : World H VirtualView OpenView) :
    Answered w.sent (handleMessage env payload w) ↔ Answers env names w payload := by
  unfold handleMessage Answers
  cases htype : msgType payload with
  | open_ => exact answered_handleOpen hviews payload
  | close => exact iff_of_true (answered_handleClose payload) trivial
  | read => exact answered_handleRead hviews payload
  | lseek => exact answered_handleLseek hviews payload
  | dread => exact answered_handleDread payload
  | getstat => exact answered_handleGetstat payload
  | mkdir => exact iff_of_true (answered_handleMkdir payload) trivial
  | remove => exact iff_of_true (answered_handleRemove payload) trivial
  | rmdir => exact iff_of_true (answered_handleRmdir payload) trivial
  | bread => exact answered_handleBread hviews payload
  | writeReq => simp [expectsReply, htype] at hexpects
  | writeData => simp [expectsReply, htype] at hexpects
  | bwriteReq => simp [expectsReply, htype] at hexpects
  | other => simp [expectsReply, htype] at hexpects

end

/-! ## All requests -/

/-- A server whose views are those of `chd_cuebin`. -/
def chdEnv {H : Type} (host : Host H) (codecs : Codecs H) (names : ViewNames H) (cfg : Config) :
    Env H VirtualView OpenView :=
  ⟨host, codecs, chdViews host codecs names, cfg⟩

/-- A folder without views. -/
def diskNames : ViewNames Disk where
  findVirtualView _ _ := none
  listVirtualEntries _ _ _ := []
  fsencode := encode

/-- A share with a file and a CSO image of one stored block. -/
def oneImage : Disk where
  nodes := [([lit "srv"], .dir), ([lit "srv", lit "g"], .file 7),
    ([lit "srv", lit "c.cso"], .file 8)]
  contents := [(7, [1, 2, 3, 4]),
    (8, Bytes.ofNat 4 CSO_MAGIC ++ Bytes.ofNat 4 24 ++ Bytes.ofNat 8 4 ++ Bytes.ofNat 4 4 ++
      [1, 0, 0, 0] ++ Bytes.ofNat 4 0x80000020 ++ Bytes.ofNat 4 0x80000024 ++ [1, 2, 3, 4])]

/-- A writable server of `/srv` that serves images. -/
def imageEnv : Env Disk VirtualView OpenView :=
  chdEnv diskHost (noCodecs Disk) diskNames
    ⟨some (lit "/srv"), false, true, 32, 0x800000, 512, 0, false⟩

/-- The console of a writable share has opened a file. -/
def opened (flags : Nat) (path : String) : World Disk VirtualView OpenView :=
  final (handleData imageEnv (dataPacket 0 (openRequest flags path))
    ((Server.new oneImage none).world console))

end Ps2Servers.Udpfs
