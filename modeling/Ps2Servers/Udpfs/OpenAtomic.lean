import Ps2Servers.Udpfs.Answers

/-!
# What a refused OPEN leaves behind

A negative reply to an OPEN or a DOPEN tells the console that nothing was opened. The
handler makes the parent folders, creates or truncates the file and takes a handle before
the last calls that may fail, and it undoes none of this. So a request is refused without
a trace when none of these later calls fails with an errno, and when the table of handles
has room for a file that the host has already changed.
-/

namespace Ps2Servers.Udpfs

open Text Effects

variable {H V B : Type} (env : Env H V B)

/-- The request is answered with a negative number. -/
def Refused (before after : World H V B) : Prop :=
  ∃ reply, after.sent = before.sent ++ [reply] ∧ signed reply 4 4 < 0

/-- The handle table and the host are as they were. -/
def Untouched (before after : World H V B) : Prop :=
  after.session.handles = before.session.handles ∧ after.host = before.host

/-- A refused request has changed nothing. -/
def Atomic (before : World H V B) (r : EStateM.Result Exn (World H V B) Unit) : Prop :=
  Refused before (final r) → Untouched before (final r)

/-! ## Conditions -/

/-- Where something has changed, the call does not fail with an errno. -/
def CallKeeps {α : Type} (kept : Prop) (r : Except Errno α) (next : α → Prop) : Prop :=
  match r with
  | .ok a => next a
  | .error errno => errno = 0 ∨ kept

/-- DOPEN: behind the listing and the handle stands one more `os.stat` of the folder. -/
def DirectoryKeeps (w : World H V B) (resolved : Option Str) : Prop :=
  ∀ entries prepared path errno, env.host.scandir w.host resolved = .ok entries →
    prepareDirectoryEntries env w.host entries = .ok prepared → w.handleCount < MAX_HANDLES →
      resolved = some path → env.host.stat w.host path = .error errno → errno = 0

/-- OPEN of a virtual CUE or BIN: the number of its handle can be sent. -/
def VirtualKeeps (w : World H V B) (view : V) : Prop :=
  ∀ obj st info, env.views.openView w.host view env.cfg.compressionCacheSize = .ok obj →
    env.host.lstat w.host (env.views.chdPath view) = .ok st → virtualStat env view st = .ok info →
      w.HandleFits

/-- OPEN of an image by its alias, which `kept` says is the first effect. -/
def ImageKeeps (kept : Prop) (w : World H V B) (path : Str) : Prop :=
  match openWrapper env w.host path with
  | .error _ => True
  | .ok none => kept
  | .ok (some _) => CallKeeps kept (env.host.stat w.host path) fun st =>
      (imageFields env w.host path st).isOk → MAX_HANDLES ≤ w.handleCount → kept

/-- OPEN of a file in a mode, where the host was `before` when the request came. -/
def PlainKeeps (before : H) (w : World H V B) (path : Str) (mode : Mode) : Prop :=
  let opened := fun (inode : Inode) (h : H) =>
    CallKeeps (h = before) (env.host.fstat h inode) fun st =>
      (statToBytes env st).isOk → MAX_HANDLES ≤ w.handleCount → h = before
  if mode = .rb then
    CallKeeps (w.host = before) (env.host.openRead w.host path) fun inode => opened inode w.host
  else
    CallKeeps (w.host = before) (env.host.openWrite w.host path mode) fun p => opened p.1 p.2

/-- OPEN of a file or an image: with the parent folders that it makes. -/
def FileKeeps (w : World H V B) (path : Str) (compressed : Bool) (flags : Nat) : Prop :=
  let there := exists_ env.host w.host path
  let keeps := fun after : World H V B =>
    if compressed then ImageKeeps env (after.host = w.host) after path
    else PlainKeeps env w.host after path (flagsToMode flags there)
  (there = false ∧ hasFlag flags O_CREAT = false) ∨
    if hasFlag flags O_CREAT ∧ !exists_ env.host w.host (dirname env.host path) then
      let (made, h) := env.host.makedirs w.host (dirname env.host path)
      CallKeeps (h = w.host) made fun _ => keeps { w with host := h }
    else keeps w

/-- The first change that an OPEN makes is followed by no failure that it answers. -/
def OpenKeeps (w : World H V B) (payload : Bytes) : Prop :=
  let flags := payload.field 2 2
  let path := clientPath (payload.drop 8)
  let resolved := resolvePath env.host env.cfg.rootDir w.host path
  let source := (aliasOf env w.host path).1
  let view := (aliasOf env w.host path).2
  if resolved.isNone && source.isNone && view.isNone then True
  else if payload.field 1 1 ≠ 0 then DirectoryKeeps env w resolved
  else if env.cfg.readOnly && hasFlag flags O_WRONLY then True
  else
    match view, source, resolved with
    | some view, _, _ =>
        (flags &&& 0x03 ≠ O_RDONLY ∨ hasFlag flags (O_APPEND ||| O_CREAT ||| O_TRUNC)) ∨
          VirtualKeeps env w view
    | none, some source, _ => FileKeeps env w source true flags
    | none, none, some resolved => FileKeeps env w resolved false flags
    | none, none, none => True

/-! ## Replies -/

section Replies

variable {before w : World H V B}

theorem Untouched.refl (w : World H V B) : Untouched w w := ⟨rfl, rfl⟩

/-- A signed field that was written by `packInt`. -/
theorem signed_packInt {n : Int} (h : fits32 n) {head : Bytes} (hhead : head.length = 4)
    (tail : Bytes) : signed (head ++ (Bytes.ofNat 4 (n % 0x100000000).toNat ++ tail)) 4 4 = n := by
  have hfield : Bytes.field (head ++ (Bytes.ofNat 4 (n % 0x100000000).toNat ++ tail)) 4 4 =
      (n % 0x100000000).toNat % 256 ^ 4 := by
    have hright := Bytes.field_append head (Bytes.ofNat 4 (n % 0x100000000).toNat ++ tail) 0 4
    rw [hhead] at hright
    exact hright.trans (Bytes.field_ofNat 4 _ tail)
  unfold signed
  rw [hfield]
  unfold fits32 at h
  simp only [Bool.and_eq_true, decide_eq_true_eq] at h
  dsimp only
  split <;> omega

theorem not_refused (hsent : w.sent = before.sent) : ¬ Refused before w := by
  rintro ⟨reply, hreply, -⟩
  rw [hsent] at hreply
  simpa using congrArg List.length hreply

/-- What `sendOpenReply` sends. -/
theorem refused_sendOpenReply (hsent : w.sent = before.sent) (n : Int) (info : StatInfo) :
    Refused before (final (sendOpenReply n info w)) ↔ fits32 n ∧ n < 0 := by
  unfold sendOpenReply
  by_cases hfits : fits32 n
  · rw [packInt_bind hfits]
    have hsigned := signed_packInt hfits (rfl : [OPEN_REPLY, 0, 0, 0].length = 4)
      (words [info.mode, info.size, info.hisize] ++ info.ctime ++ info.mtime)
    simp only [List.append_assoc, List.cons_append, List.nil_append] at hsigned
    simp [Refused, sendData, final, hsent, hsigned, hfits]
  · rw [packInt_bind_error hfits]
    simp only [hfits, Bool.false_eq_true, false_and, iff_false]
    exact not_refused hsent

theorem untouched_sendOpenReply (n : Int) (info : StatInfo) :
    Untouched before (final (sendOpenReply n info w)) ↔ Untouched before w := by
  unfold sendOpenReply
  by_cases hfits : fits32 n
  · rw [packInt_bind hfits]
    rfl
  · rw [packInt_bind_error hfits]
    rfl

theorem atomic_sendOpenReply (hsent : w.sent = before.sent) (n : Int) (info : StatInfo) :
    Atomic before (sendOpenReply n info w) ↔ (fits32 n → n < 0 → Untouched before w) := by
  unfold Atomic
  rw [refused_sendOpenReply hsent, untouched_sendOpenReply]
  exact and_imp

theorem atomic_openError (errno : Errno) : Atomic w (openError errno w) :=
  (atomic_sendOpenReply rfl _ _).mpr fun _ _ => Untouched.refl w

/-- The session has one more handle. -/
def World.withHandle (w : World H V B) (obj : Obj V B) : World H V B :=
  { w with session := { w.session with
      handles := w.session.handles ++ [(w.session.nextHandle, obj)]
      nextHandle := w.session.nextHandle + 1 } }

theorem allocHandle_room (obj : Obj V B) {f : Int → Handler H V B Unit}
    (h : ¬ MAX_HANDLES ≤ w.handleCount) :
    (allocHandle obj >>= f) w = f w.session.nextHandle (w.withHandle obj) := by
  refine bind_ok ?_
  unfold allocHandle
  rw [get_bind, if_neg h]
  rfl

theorem not_untouched_withHandle (w : World H V B) (obj : Obj V B) :
    ¬ Untouched w (w.withHandle obj) := by
  rintro ⟨hhandles, -⟩
  simpa [World.withHandle] using congrArg List.length hhandles

end Replies

/-! ## Calls -/

section Calls

variable {before w : World H V B}

/-- What `except OSError` makes of a result. -/
def answeredErrno : EStateM.Result Exn (World H V B) Unit → EStateM.Result Exn (World H V B) Unit
  | .ok _ w => .ok () w
  | .error e w =>
      if e.isOSError then (do sendOpenReply (← negErrno e) .blank) w else .error e w

theorem answerErrno_eq (body : Handler H V B Unit) (w : World H V B) :
    answerErrno (sendOpenReply · .blank) body w = answeredErrno (body w) := by
  unfold answerErrno rescue answeredErrno
  cases body w <;> rfl

/-- An exception that is no `OSError` leaves the request without a reply. -/
theorem atomic_silent (hsent : w.sent = before.sent) {e : Exn} (he : e.isOSError = false) :
    Atomic before (answeredErrno (.error e w)) := by
  have hpassed : answeredErrno (.error e w) = .error e w := by
    dsimp only [answeredErrno]
    rw [if_neg (by simp [he])]
  rw [hpassed]
  exact fun hrefused => absurd hrefused (not_refused hsent)

theorem atomic_osError (hsent : w.sent = before.sent) (errno : Errno) :
    Atomic before (answeredErrno (.error (.osError (some errno)) w)) ↔
      errno = 0 ∨ Untouched before w := by
  have hanswer : answeredErrno (.error (.osError (some errno)) w) =
      sendOpenReply (-errno.toNat) .blank w := rfl
  have hneg : (-errno.toNat : Int) < 0 ↔ errno ≠ 0 := by
    rw [ne_eq, ← UInt16.toNat_inj]
    simp only [UInt16.toNat_zero]
    omega
  rw [hanswer, atomic_sendOpenReply hsent, hneg]
  simp only [fits32_errno, true_imp_iff]
  exact imp_iff_not_or.trans (or_congr_left not_not)

/-- A call that comes before every change. -/
theorem atomic_of_untouched (hsent : w.sent = before.sent) (huntouched : Untouched before w)
    (e : Exn) : Atomic before (answeredErrno (.error e w)) := by
  cases he : e.isOSError with
  | false => exact atomic_silent hsent he
  | true =>
      dsimp only [answeredErrno, negErrno]
      rw [if_pos he]
      cases e.errno with
      | none => exact fun hrefused => absurd hrefused (not_refused hsent)
      | some errno => exact (atomic_sendOpenReply hsent _ _).mpr fun _ _ => huntouched

theorem answeredErrno_sendOpenReply (hsent : w.sent = before.sent) (n : Int) (info : StatInfo) :
    Atomic before (answeredErrno (sendOpenReply n info w)) ↔
      (fits32 n → n < 0 → Untouched before w) := by
  have hcaught : answeredErrno (sendOpenReply n info w) = sendOpenReply n info w := by
    unfold sendOpenReply
    by_cases hfits : fits32 n
    · rw [packInt_bind hfits]
      rfl
    · rw [packInt_bind_error hfits]
      rfl
  rw [hcaught, atomic_sendOpenReply hsent]

theorem atomic_osCall (hsent : w.sent = before.sent) {α : Type} {r : Except Errno α}
    {f : α → Handler H V B Unit} {next : α → Prop}
    (h : ∀ a, r = .ok a → (Atomic before (answeredErrno (f a w)) ↔ next a)) :
    Atomic before (answeredErrno ((osCall r >>= f) w)) ↔ CallKeeps (Untouched before w) r next := by
  cases r with
  | ok a => exact h a rfl
  | error errno =>
      rw [osCall_error_bind]
      exact atomic_osError hsent errno

/-- A call that raises no `OSError`. -/
theorem atomic_raise (hsent : w.sent = before.sent) {α : Type} {r : Except Exn α}
    (hr : ∀ e, r = .error e → e.isOSError = false) {f : α → Handler H V B Unit} {next : Prop}
    (h : ∀ a, r = .ok a → (Atomic before (answeredErrno (f a w)) ↔ next)) :
    Atomic before (answeredErrno ((raise r >>= f) w)) ↔ (r.isOk → next) := by
  cases r with
  | ok a =>
      rw [raise_ok_bind]
      simpa [Except.isOk, Except.toBool] using h a rfl
  | error e =>
      rw [raise_error_bind]
      simpa [Except.isOk, Except.toBool] using atomic_silent hsent (hr e rfl)

/-- The last step of an OPEN. -/
theorem atomic_opened (hsent : w.sent = before.sent) (obj : Obj V B) (info : StatInfo) :
    Atomic before (answeredErrno ((allocHandle obj >>= fun handle => openedReply handle info) w)) ↔
      (MAX_HANDLES ≤ w.handleCount → Untouched before w) := by
  by_cases hfull : MAX_HANDLES ≤ w.handleCount
  · rw [allocHandle_full hfull]
    simp only [hfull, true_imp_iff]
    refine (answeredErrno_sendOpenReply hsent _ _).trans ?_
    exact ⟨fun h => h (fits32_errno EMFILE) (by decide), fun h _ _ => h⟩
  · rw [allocHandle_room obj hfull]
    unfold openedReply
    rw [if_neg (by omega), answeredErrno_sendOpenReply (w := w.withHandle obj) hsent]
    simp only [hfull, false_imp_iff, iff_true]
    exact fun _ hneg => absurd hneg (by omega)

variable {env}

theorem isOSError_encodeTime {timestamp : Int} {e : Exn}
    (h : encodeTime env timestamp = .error e) : e.isOSError = false := by
  unfold encodeTime at h
  cases hclock : env.host.localtime timestamp with
  | ok t =>
      simp only [hclock] at h
      split at h
      · cases h
      · cases h
        rfl
  | error raised =>
      simp only [hclock] at h
      split at h
      · cases h
      · rename_i hcaught
        cases h
        cases hos : e.isOSError with
        | false => rfl
        | true => exact absurd (by simp [hos]) hcaught

/-- The fields of a stat raise no `OSError`: `_encode_time` catches what the clock raises. -/
theorem isOSError_statFields {mode size : Nat} {st : Stat} {e : Exn}
    (h : statFields env mode size st = .error e) : e.isOSError = false := by
  unfold statFields at h
  cases hctime : encodeTime env st.ctime with
  | error raised =>
      rw [hctime] at h
      cases h
      exact isOSError_encodeTime hctime
  | ok ctime =>
      cases hatime : encodeTime env st.atime with
      | error raised =>
          rw [hctime, hatime] at h
          cases h
          exact isOSError_encodeTime hatime
      | ok atime =>
          cases hmtime : encodeTime env st.mtime with
          | error raised =>
              rw [hctime, hatime, hmtime] at h
              cases h
              exact isOSError_encodeTime hmtime
          | ok mtime =>
              rw [hctime, hatime, hmtime] at h
              cases h

theorem isOSError_imageFields {h : H} {path : Str} {st : Stat} {e : Exn}
    (herror : imageFields env h path st = .error e) : e.isOSError = false := by
  unfold imageFields getCompressedStat at herror
  cases hinfo : getCompressedInfo env.host h path with
  | none =>
      simp only [hinfo] at herror
      exact isOSError_statFields herror
  | some size =>
      simp only [hinfo] at herror
      cases hfields : statFields env FIO_S_IFREG size st with
      | ok info =>
          rw [hfields] at herror
          cases herror
      | error raised =>
          rw [hfields] at herror
          cases herror
          exact isOSError_statFields hfields

/-- `openWrapper` reports every `OSError` as no wrapper. -/
theorem isOSError_openWrapper {h : H} {path : Str} {e : Exn}
    (herror : openWrapper env h path = .error e) : e.isOSError = false := by
  unfold openWrapper at herror
  split at herror
  · cases herror
  · split at herror
    · cases herror
    · rename_i himage
      cases herror
      cases hos : e.isOSError with
      | false => rfl
      | true => exact absurd (by simp [Exn.isImageError, hos]) himage

end Calls

/-! ## Requests -/

section Requests

variable {w : World H V B} {env}

theorem atomic_openDirectory (resolved : Option Str) :
    Atomic w (openDirectory env resolved w) ↔ DirectoryKeeps env w resolved := by
  unfold openDirectory
  rw [answerErrno_eq, get_bind]
  cases hentries : env.host.scandir w.host resolved with
  | error errno =>
      refine iff_of_true (atomic_of_untouched rfl (Untouched.refl w) _) ?_
      intro entries _ _ _ hscan
      rw [hentries] at hscan
      cases hscan
  | ok entries =>
      rw [osCall_ok_bind]
      cases hprepared : prepareDirectoryEntries env w.host entries with
      | error e =>
          refine iff_of_true (atomic_of_untouched rfl (Untouched.refl w) _) ?_
          intro entries' _ _ _ hscan hprepare
          rw [hentries] at hscan
          cases hscan
          rw [hprepared] at hprepare
          cases hprepare
      | ok prepared =>
          rw [raise_ok_bind]
          by_cases hfull : MAX_HANDLES ≤ w.handleCount
          · rw [allocHandle_full hfull]
            refine iff_of_true ?_ ?_
            · exact (answeredErrno_sendOpenReply rfl _ _).mpr fun _ _ => Untouched.refl w
            · intro _ _ _ _ _ _ hroom
              exact absurd hroom (Nat.not_lt.mpr hfull)
          · rw [allocHandle_room _ hfull, if_neg (by omega)]
            -- The handle is taken: from here a failure leaves it behind.
            have hsent : (w.withHandle (.dir prepared)).sent = w.sent := rfl
            have hopened : ∀ st : Stat, Atomic w (answeredErrno ((do
                let info ← raise (statToBytes env st)
                sendOpenReply w.session.nextHandle info : Handler H V B Unit)
                  (w.withHandle (.dir prepared)))) := by
              intro st
              have hreply : ∀ info : StatInfo, Atomic w (answeredErrno
                  (sendOpenReply w.session.nextHandle info (w.withHandle (.dir prepared)))) :=
                fun info => (answeredErrno_sendOpenReply hsent _ info).mpr
                  fun _ hneg => absurd hneg (by omega)
              exact (atomic_raise hsent (fun _ he => isOSError_statFields he)
                fun info _ => iff_true_intro (hreply info)).mpr fun _ => trivial
            cases resolved with
            | none =>
                refine iff_of_true (atomic_silent hsent rfl) ?_
                intro _ _ path errno _ _ _ hpath
                cases hpath
            | some path =>
                have hstat := atomic_osCall hsent (r := env.host.stat w.host path)
                  fun st _ => iff_true_intro (hopened st)
                refine hstat.trans ?_
                unfold CallKeeps DirectoryKeeps
                constructor
                · intro hkeeps _ _ path' errno _ _ _ hpath herror
                  cases hpath
                  rw [herror] at hkeeps
                  exact hkeeps.resolve_right (not_untouched_withHandle w _)
                · intro hkeeps
                  split
                  · trivial
                  · rename_i errno herror
                    exact Or.inl (hkeeps entries prepared path errno hentries hprepared
                      (Nat.not_le.mp hfull) rfl herror)

/-- What `except (ImportError, ValueError, OSError, struct.error)` makes of a result. -/
def answeredImage : EStateM.Result Exn (World H V B) Unit → EStateM.Result Exn (World H V B) Unit
  | .ok _ w => .ok () w
  | .error e w => if e.isImageError then openError EIO w else .error e w

theorem atomic_rescueImage (body : Handler H V B Unit) :
    Atomic w (rescue body Exn.isImageError (fun _ => openError EIO) w) ↔
      Atomic w (answeredImage (body w)) := by
  unfold rescue answeredImage
  cases body w <;> rfl

theorem atomic_imageError (e : Exn) : Atomic w (answeredImage (.error e w)) := by
  dsimp only [answeredImage]
  split
  · exact atomic_openError EIO
  · exact fun hrefused => absurd hrefused (not_refused rfl)

/-- A number that cannot be sent is an error of an image, and the handle stays taken. -/
theorem atomic_openedView (obj : B) (info : StatInfo) :
    Atomic w (answeredImage ((allocHandle (.view obj) >>= fun handle => openedReply handle info) w)) ↔
      w.HandleFits := by
  unfold World.HandleFits
  by_cases hfull : MAX_HANDLES ≤ w.handleCount
  · rw [allocHandle_full hfull]
    exact iff_of_true (atomic_openError EMFILE) (Or.inl hfull)
  · have hsent : (w.withHandle (.view obj)).sent = w.sent := rfl
    rw [allocHandle_room _ hfull, or_iff_right hfull]
    unfold openedReply
    rw [if_neg (by omega)]
    by_cases hfits : fits32 w.session.nextHandle
    · have hreply := (atomic_sendOpenReply hsent w.session.nextHandle info).mpr
        fun _ hneg => absurd hneg (by omega)
      unfold sendOpenReply at hreply ⊢
      rw [packInt_bind hfits] at hreply ⊢
      exact iff_of_true hreply hfits
    · have hcaught : answeredImage (sendOpenReply w.session.nextHandle info
          (w.withHandle (.view obj))) = openError EIO (w.withHandle (.view obj)) := by
        unfold sendOpenReply
        rw [packInt_bind_error hfits]
        rfl
      rw [hcaught]
      refine iff_of_false (fun hatomic => ?_) hfits
      exact not_untouched_withHandle w (.view obj)
        ((atomic_sendOpenReply hsent _ _).mp hatomic (fits32_errno EIO) (by decide))

theorem atomic_openVirtual (view : V) (flags : Nat) :
    Atomic w (openVirtual env view flags w) ↔
      (flags &&& 0x03 ≠ O_RDONLY ∨ hasFlag flags (O_APPEND ||| O_CREAT ||| O_TRUNC)) ∨
        VirtualKeeps env w view := by
  unfold openVirtual
  split
  · rename_i hflags
    exact iff_of_true (atomic_openError EACCES) (Or.inl hflags)
  · rename_i hflags
    rw [or_iff_right hflags]
    refine (atomic_rescueImage _).trans ?_
    rw [get_bind]
    unfold VirtualKeeps
    cases hopen : env.views.openView w.host view env.cfg.compressionCacheSize with
    | error e => exact iff_of_true (atomic_imageError e) (by simp)
    | ok obj =>
        rw [raise_ok_bind]
        cases hstat : env.host.lstat w.host (env.views.chdPath view) with
        | error errno => exact iff_of_true (atomic_imageError _) (by simp)
        | ok st =>
            rw [osCall_ok_bind]
            cases hinfo : virtualStat env view st with
            | error e =>
                refine iff_of_true (atomic_imageError e) ?_
                intro _ st' info _ hst hfields
                cases hst
                rw [hinfo] at hfields
                cases hfields
            | ok info =>
                rw [raise_ok_bind]
                refine (atomic_openedView obj info).trans ?_
                constructor
                · intro hfits _ _ _ _ _ _
                  exact hfits
                · intro hfits
                  exact hfits obj st info rfl rfl hinfo

section Files

variable {before : World H V B} (hsent : w.sent = before.sent)
  (hhandles : w.session.handles = before.session.handles)

include hhandles in
theorem untouched_iff : Untouched before w ↔ w.host = before.host := by
  unfold Untouched
  exact and_iff_right hhandles

include hsent hhandles in
theorem atomic_openImage (path : Str) :
    Atomic before (answeredErrno (openImage env path w)) ↔
      ImageKeeps env (w.host = before.host) w path := by
  have huntouched := untouched_iff hhandles
  unfold openImage ImageKeeps
  rw [get_bind]
  cases hwrapper : openWrapper env w.host path with
  | error e => exact iff_of_true (atomic_silent hsent (isOSError_openWrapper hwrapper)) trivial
  | ok wrapper =>
      rw [raise_ok_bind, ← huntouched]
      cases wrapper with
      | none =>
          refine (answeredErrno_sendOpenReply hsent _ _).trans ?_
          exact ⟨fun h => h (fits32_errno EIO) (by decide), fun h _ _ => h⟩
      | some wrapper =>
          refine atomic_osCall hsent fun st _ => ?_
          exact atomic_raise hsent (fun _ he => isOSError_imageFields he)
            fun info _ => atomic_opened hsent _ info

include hsent hhandles in
theorem atomic_openPlain (path : Str) (mode : Mode) :
    Atomic before (answeredErrno (openPlain env path mode w)) ↔
      PlainKeeps env before.host w path mode := by
  -- The file is open; the host is what the call left.
  have hopened : ∀ (inode : Inode) (h : H), Atomic before (answeredErrno ((do
      let w ← get
      let st ← osCall (env.host.fstat w.host inode)
      let info ← raise (statToBytes env st)
      let start := if mode.appends then env.host.fileEnd w.host inode else 0
      let handle ← allocHandle (.file ⟨inode, mode, start⟩)
      openedReply handle info : Handler H V B Unit) { w with host := h })) ↔
      CallKeeps (h = before.host) (env.host.fstat h inode) fun st =>
        (statToBytes env st).isOk → MAX_HANDLES ≤ w.handleCount → h = before.host := by
    intro inode h
    have hsent' : { w with host := h }.sent = before.sent := hsent
    have huntouched : Untouched before { w with host := h } ↔ h = before.host :=
      untouched_iff hhandles
    rw [get_bind, ← huntouched]
    refine atomic_osCall hsent' fun st _ => ?_
    exact atomic_raise hsent' (fun _ he => isOSError_statFields he)
      fun info _ => atomic_opened hsent' _ info
  unfold openPlain PlainKeeps
  rw [openPath_bind]
  dsimp only
  split
  · cases env.host.openRead w.host path with
    | ok inode => exact hopened inode w.host
    | error errno =>
        rw [← untouched_iff hhandles]
        exact atomic_osError hsent errno
  · cases env.host.openWrite w.host path mode with
    | ok p => exact hopened p.1 p.2
    | error errno =>
        rw [← untouched_iff hhandles]
        exact atomic_osError hsent errno

end Files

theorem atomic_openFile (path : Str) (compressed : Bool) (flags : Nat) :
    Atomic w (openFile env path compressed flags w) ↔ FileKeeps env w path compressed flags := by
  have hrest : ∀ (mode : Mode) (h : H),
      (Atomic w (answeredErrno ((if compressed then openImage env path
          else openPlain env path mode) { w with host := h })) ↔
        if compressed then ImageKeeps env (h = w.host) { w with host := h } path
        else PlainKeeps env w.host { w with host := h } path mode) := by
    intro mode h
    have hsent : { w with host := h }.sent = w.sent := rfl
    have hhandles : { w with host := h }.session.handles = w.session.handles := rfl
    cases compressed with
    | true => exact atomic_openImage hsent hhandles path
    | false => exact atomic_openPlain hsent hhandles path mode
  have hfailed : ∀ (errno : Errno) (h : H),
      (Atomic w (answeredErrno (.error (.osError (some errno)) { w with host := h })) ↔
        errno = 0 ∨ h = w.host) := by
    intro errno h
    have hsent : { w with host := h }.sent = w.sent := rfl
    have hhandles : { w with host := h }.session.handles = w.session.handles := rfl
    exact (atomic_osError hsent errno).trans (or_congr_right (untouched_iff hhandles))
  unfold openFile FileKeeps
  rw [get_bind]
  dsimp only
  by_cases hthere : exists_ env.host w.host path = false ∧ hasFlag flags O_CREAT = false
  · simp only [hthere, and_self, true_or, iff_true]
    exact atomic_openError ENOENT
  · rw [if_neg (by simpa using hthere), answerErrno_eq, or_iff_right hthere]
    rw [makeParents_bind]
    split
    · cases (env.host.makedirs w.host (dirname env.host path)).1 with
      | error errno => exact hfailed errno _
      | ok u => exact hrest _ _
    · exact hrest _ w.host

theorem atomic_handleOpen (payload : Bytes) :
    Atomic w (handleOpen env payload w) ↔ (8 ≤ payload.length → OpenKeeps env w payload) := by
  unfold handleOpen
  split
  · rename_i hshort
    simp only [Nat.not_le.mpr hshort, false_imp_iff, iff_true]
    exact atomic_openError EINVAL
  · rename_i hlength
    simp only [Nat.not_lt.mp hlength, true_imp_iff]
    rw [get_bind]
    unfold OpenKeeps
    dsimp only
    split
    · exact iff_of_true (atomic_openError EACCES) trivial
    split
    · exact atomic_openDirectory _
    split
    · exact iff_of_true (atomic_openError EACCES) trivial
    generalize (aliasOf env w.host (clientPath (payload.drop 8))).2 = view
    generalize (aliasOf env w.host (clientPath (payload.drop 8))).1 = source
    generalize resolvePath env.host env.cfg.rootDir w.host (clientPath (payload.drop 8)) = resolved
    match view, source, resolved with
    | some view, _, _ => exact atomic_openVirtual view _
    | none, some source, _ => exact atomic_openFile source true _
    | none, none, some resolved => exact atomic_openFile resolved false _
    | none, none, none => exact iff_of_true (atomic_openError EACCES) trivial

end Requests

/-- A refused OPEN or DOPEN leaves the handle table and the host as they were exactly where the
first of its changes is followed by no failure that it answers: in every state of the session,
for every path and all flags, and for every content of the host. -/
theorem open_atomic_iff (payload : Bytes) (w : World H V B) :
    (Refused w (final (handleOpen env payload w)) →
        (final (handleOpen env payload w)).session.handles = w.session.handles ∧
          (final (handleOpen env payload w)).host = w.host) ↔
      (8 ≤ payload.length → OpenKeeps env w payload) :=
  atomic_handleOpen payload

/-- The console has opened the game until its table was full. -/
def fullTable : World Disk Empty Empty :=
  (List.replicate MAX_HANDLES (openRequest O_RDONLY "g")).foldl
    (fun w payload => final (handleOpen (diskEnv false) payload w))
    ((Server.new oneGame none).world console)

/-- The file is emptied, and then the table has no room for it. -/
theorem refused_open_truncates :
    ¬ (Refused fullTable (final (handleOpen (diskEnv false)
          (openRequest (O_WRONLY ||| O_TRUNC) "g") fullTable)) →
        (final (handleOpen (diskEnv false) (openRequest (O_WRONLY ||| O_TRUNC) "g")
            fullTable)).session.handles = fullTable.session.handles ∧
          (final (handleOpen (diskEnv false) (openRequest (O_WRONLY ||| O_TRUNC) "g")
            fullTable)).host = fullTable.host) := by
  intro h
  refine absurd (h ⟨(final (handleOpen (diskEnv false) (openRequest (O_WRONLY ||| O_TRUNC) "g")
    fullTable)).sent.getLastD [], ?_, ?_⟩).2 ?_
  all_goals decide +kernel

end Ps2Servers.Udpfs
