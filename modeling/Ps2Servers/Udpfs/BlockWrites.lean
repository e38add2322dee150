import Ps2Servers.Lib.Chunks
import Ps2Servers.Udpfs.OpenAtomic

/-!
# Block writes

BWRITE declares a number of sectors and the chunks behind it carry their bytes. The write
is over with the chunk that says it is the last, however much has come by then: what is
there goes out, cut to the declared size, and WRITE_DONE reports success unless the host
raised. So the report can be trusted where the last chunk completes the declared size, and
where the host takes all of it at the place of the sectors.
-/

namespace Ps2Servers.Udpfs

open Text Effects Chunks

variable {H V B : Type} (env : Env H V B)

/-- The chunk of a WRITE_DATA message. -/
def chunkOf (payload : Bytes) : Option (Chunk UInt8) :=
  if payload.length < 8 then none
  else some ⟨payload.field 2 2, payload.sub 8 (payload.field 4 2), payload.field 6 2⟩

/-! ## The write in progress -/

section Progress

/-- The session after `_reset_write`. -/
def World.writeReset (w : World H V B) : World H V B :=
  { w with session := { w.session with
      writeHandle := -1
      writeIsBlock := false
      writeSectorNr := 0
      writeSectorCount := 0
      writeData := []
      writeTotalChunks := 0
      writeReceivedChunks := 0 } }

/-- The session after some chunks of its write. -/
def World.collected (w : World H V B) (received : Nat) (data : Bytes) (total : Nat) :
    World H V B :=
  { w with session := { w.session with
      writeData := data
      writeTotalChunks := total
      writeReceivedChunks := received } }

/-- The write in progress. -/
def World.assembly (w : World H V B) : Assembly UInt8 :=
  .collecting w.session.writeReceivedChunks w.session.writeData

/-- What a chunk does, by what the write comes to with it. -/
def afterChunk (w : World H V B) (total : Nat) :
    Assembly UInt8 → EStateM.Result Exn (World H V B) Unit
  | .collecting received data => .ok () (w.collected received data total)
  | .complete data =>
      (if w.session.writeIsBlock then completeBwrite env else completeWrite env)
        (w.collected (w.session.writeReceivedChunks + 1) data total)
  | .refused => writeError EINVAL w.writeReset
  | .closed => .ok () w

variable {env} {w : World H V B} {payload : Bytes}

theorem resetWrite_apply (w : World H V B) : resetWrite w = .ok () w.writeReset := rfl

theorem handleWriteData_idle (h : w.session.writeHandle < 0) :
    handleWriteData env payload w = .ok () w := by
  unfold handleWriteData
  rw [get_bind, if_pos (Or.inr (Or.inl h))]
  rfl

theorem handleWriteData_armed (h : 0 ≤ w.session.writeHandle) :
    ∃ total, handleWriteData env payload w =
      afterChunk env w total (w.assembly.add env.cfg.maxTransferBytes (chunkOf payload)) := by
  unfold handleWriteData chunkOf World.assembly
  rw [get_bind]
  by_cases hshort : payload.length < 8
  · refine ⟨w.session.writeTotalChunks, ?_⟩
    rw [if_pos (Or.inl hshort), if_pos hshort]
    rfl
  rw [if_neg hshort, add_chunk]
  by_cases hnr : payload.field 2 2 ≠ w.session.writeReceivedChunks
  · refine ⟨w.session.writeTotalChunks, ?_⟩
    rw [if_pos (Or.inr (Or.inr hnr)), if_pos hnr]
    rfl
  rw [if_neg hnr]
  refine ⟨payload.field 6 2, ?_⟩
  dsimp only
  rw [if_neg (by omega)]
  split
  · rfl
  · rw [bind_ok (set_apply _ _)]
    split <;> rfl

end Progress

/-! ## The write itself -/

/-- Where a file object that stands at an offset writes. -/
def PlainFile.place (host : Host H) (h : H) (f : PlainFile) (offset : Nat) : Nat :=
  if f.mode.appends then host.fileEnd h f.inode else offset

/-- The call that a block write makes on the host. -/
def blockCall (h : H) (handle : Int) (f : PlainFile) (offset : Nat) (data : Bytes) :
    Except Errno Unit × H :=
  if handle = 0 ∧ env.host.hasPwrite then
    ((env.host.pwrite h f.inode offset data).1.map fun _ => (),
      (env.host.pwrite h f.inode offset data).2)
  else if env.host.maxOffset h f.inode < offset then (.error EINVAL, h)
  else env.host.writeAt h f.inode (f.place env.host h offset) data

/-- The number that WRITE_DONE reports of it. -/
def blockResult : Except Errno Unit → Int
  | .ok _ => 0
  | .error errno => -errno.toNat

def writeDoneReply (n : Int) : Bytes :=
  [WRITE_DONE, 0, 0, 0] ++ Bytes.ofNat 4 (n % 0x100000000).toNat

section Write

variable {env} {w : World H V B}

theorem writeHandle_update (handle : Int) (obj : Obj V B) :
    (w.update handle obj).session.writeHandle = w.session.writeHandle := by
  unfold World.update
  split
  · split <;> rfl
  · rfl

theorem sendWriteDone_fits {n : Int} (h : fits32 n) :
    sendWriteDone n w = .ok () { w with sent := w.sent ++ [writeDoneReply n] } := by
  unfold sendWriteDone sendNumber
  rw [packInt_bind h]
  simp [sendData, writeDoneReply]

/-- What `write` and `flush` return, by what the host's call does. -/
def written (data : Bytes) : Except Errno Unit → Except Exn Nat
  | .ok _ => .ok data.length
  | .error errno => .error (.osError (some errno))

theorem write_call (host : Host H) (h : H) {f : PlainFile} (hwritable : f.mode.writable)
    (data : Bytes) :
    ∃ f', f.write host h data =
      (written data (host.writeAt h f.inode (f.place host h f.pos) data).1, f',
        (host.writeAt h f.inode (f.place host h f.pos) data).2) := by
  unfold PlainFile.write PlainFile.place
  rw [if_pos hwritable]
  dsimp only
  generalize host.writeAt h f.inode _ data = call
  obtain ⟨r, h'⟩ := call
  cases r with
  | ok u => exact ⟨_, rfl⟩
  | error errno => exact ⟨_, rfl⟩

/-- A write through a file object, as one call on the host. -/
theorem writeObject_call {handle : Int} {f : PlainFile} {data : Bytes}
    (hwritable : f.mode.writable) :
    ∃ v : World H V B,
      v.host = (env.host.writeAt w.host f.inode (f.place env.host w.host f.pos) data).2 ∧
      v.sent = w.sent ∧ v.session.writeHandle = w.session.writeHandle ∧
      writeObject env handle f data w =
        (raise (written data
          (env.host.writeAt w.host f.inode (f.place env.host w.host f.pos) data).1) :
            Handler H V B Nat) v := by
  obtain ⟨f', hwrite⟩ := write_call env.host w.host hwritable data
  refine ⟨{ w.update handle (.file f') with
    host := (env.host.writeAt w.host f.inode (f.place env.host w.host f.pos) data).2 }, rfl,
    sent_update handle _, writeHandle_update handle _, ?_⟩
  unfold writeObject
  rw [get_bind, hwrite]
  rfl

theorem seekWrite_call {handle : Int} {f : PlainFile} {offset : Nat} {data : Bytes}
    (hwritable : f.mode.writable) (hpwrite : ¬ (handle = 0 ∧ env.host.hasPwrite)) :
    ∃ v : World H V B, v.host = (blockCall env w.host handle f offset data).2 ∧ v.sent = w.sent ∧
      v.session.writeHandle = w.session.writeHandle ∧
      seekWrite env handle f offset data w =
        (osCall (blockCall env w.host handle f offset data).1 : Handler H V B Unit) v := by
  unfold blockCall
  rw [if_neg hpwrite]
  unfold seekWrite
  rw [get_bind]
  by_cases hpast : env.host.maxOffset w.host f.inode < offset
  · have htarget : f.target env.host w.host offset 0 = .error (.osError (some EINVAL)) :=
      if_pos (Or.inr (by exact_mod_cast hpast))
    have hseek : f.seek env.host w.host offset 0 = (.error (.osError (some EINVAL)), f) := by
      rw [PlainFile.seek, htarget]
    rw [hseek, if_pos hpast]
    exact ⟨w, rfl, rfl, rfl, rfl⟩
  · have htarget : f.target env.host w.host offset 0 = .ok offset := by
      refine (if_neg ?_).trans (by rw [Int.toNat_natCast])
      rintro (hneg | hover)
      · omega
      · exact hpast (by exact_mod_cast hover)
    have hseek : f.seek env.host w.host offset 0 = (.ok offset, { f with pos := offset }) := by
      rw [PlainFile.seek, htarget]
    rw [hseek, if_neg hpast]
    dsimp only
    rw [raise_ok_bind]
    obtain ⟨v, hhost, hsent, hhandle, hcall⟩ :=
      @writeObject_call H V B env w handle { f with pos := offset } data hwritable
    refine ⟨v, hhost, hsent, hhandle, ?_⟩
    rw [bind_apply, hcall]
    unfold PlainFile.place
    dsimp only
    cases (env.host.writeAt w.host f.inode _ data).1 with
    | ok u => rfl
    | error errno => rfl

/-- `bd_write`: on the device's descriptor where the host has `os.pwrite`. -/
theorem bdWrite_call {d : BlockDevice} {offset : Nat} {data : Bytes}
    (hwritable : (d.file env).mode.writable) :
    ∃ v : World H V B, v.host = (blockCall env w.host 0 (d.file env) offset data).2 ∧
      v.sent = w.sent ∧ v.session.writeHandle = w.session.writeHandle ∧
      bdWrite env d offset data w =
        (osCall (blockCall env w.host 0 (d.file env) offset data).1 : Handler H V B Unit) v := by
  unfold bdWrite
  split
  · rename_i hpwrite
    unfold blockCall
    rw [if_pos ⟨rfl, hpwrite⟩]
    refine ⟨{ w with host := (env.host.pwrite w.host d.inode offset data).2 }, rfl, rfl, rfl, ?_⟩
    have hcall : (hostCall fun h => env.host.pwrite h d.inode offset data) w =
        (osCall (env.host.pwrite w.host d.inode offset data).1 : Handler H V B Nat)
          { w with host := (env.host.pwrite w.host d.inode offset data).2 } := rfl
    have hinode : (d.file env).inode = d.inode := rfl
    rw [bind_apply, hcall, hinode]
    cases (env.host.pwrite w.host d.inode offset data).1 with
    | ok n => rfl
    | error errno => rfl
  · rename_i hpwrite
    exact seekWrite_call hwritable fun h => hpwrite h.2

/-- The bytes that a finished BWRITE puts on the host, and where. -/
theorem completeBwrite_call {f : PlainFile}
    (hfile : w.file env w.session.writeHandle = some (.file f)) (hwritable : f.mode.writable) :
    let size := sectorSize env w.session.writeHandle
    let call := blockCall env w.host w.session.writeHandle f (w.session.writeSectorNr * size)
      (w.session.writeData.take (w.session.writeSectorCount * size))
    ∃ v : World H V B, completeBwrite env w = .ok () v ∧ v.host = call.2 ∧
      v.sent = w.sent ++ [writeDoneReply (blockResult call.1)] ∧ v.session.writeHandle = -1 := by
  intro size call
  -- The body is one call on the host, and what it reports goes into the reply.
  have hreply : ∀ {body : Handler H V B Unit} {v : World H V B},
      v.host = call.2 → v.sent = w.sent → v.session.writeHandle = -1 →
      body w.writeReset = (osCall call.1 : Handler H V B Unit) v →
      ∃ v : World H V B, answerErrno sendWriteDone (do body; sendWriteDone 0) w.writeReset = .ok () v ∧
        v.host = call.2 ∧ v.sent = w.sent ++ [writeDoneReply (blockResult call.1)] ∧
        v.session.writeHandle = -1 := by
    intro body v hhost hsent hhandle hbody
    refine ⟨{ v with sent := v.sent ++ [writeDoneReply (blockResult call.1)] }, ?_, hhost,
      by rw [hsent], hhandle⟩
    unfold answerErrno
    cases hcall : call.1 with
    | ok u =>
        rw [hcall] at hbody
        refine rescue_ok ?_
        rw [bind_ok hbody]
        exact sendWriteDone_fits (by decide)
    | error errno =>
        rw [hcall] at hbody
        rw [rescue_caught (bind_error hbody) rfl]
        exact sendWriteDone_fits (fits32_errno errno)
  unfold completeBwrite
  rw [get_bind, bind_ok (resetWrite_apply w)]
  dsimp only
  rw [hfile]
  dsimp only
  by_cases hzero : w.session.writeHandle = 0
  · obtain ⟨d, hbd, hd⟩ : ∃ d, w.bd = some d ∧ d.file env = f := by
      rw [hzero, file_zero, Option.map_eq_some_iff] at hfile
      obtain ⟨d, hbd, hd⟩ := hfile
      exact ⟨d, hbd, by injection hd⟩
    subst hd
    obtain ⟨v, hhost, hsent, hhandle, hcall⟩ := @bdWrite_call H V B env w.writeReset d
      (w.session.writeSectorNr * size) (w.session.writeData.take (w.session.writeSectorCount * size))
      hwritable
    have hsame : blockCall env w.host 0 (d.file env) (w.session.writeSectorNr * size)
        (w.session.writeData.take (w.session.writeSectorCount * size)) = call := by
      rw [← hzero]
    change v.host = (blockCall env w.host _ _ _ _).2 at hhost
    change _ = (osCall (blockCall env w.host _ _ _ _).1 : Handler H V B Unit) v at hcall
    rw [hsame] at hhost hcall
    rw [if_pos hzero, hbd]
    exact hreply hhost hsent hhandle hcall
  · obtain ⟨v, hhost, hsent, hhandle, hcall⟩ := @seekWrite_call H V B env w.writeReset
      w.session.writeHandle f (w.session.writeSectorNr * size)
      (w.session.writeData.take (w.session.writeSectorCount * size)) hwritable fun h => hzero h.1
    rw [if_neg hzero]
    exact hreply hhost hsent hhandle hcall

end Write

/-! ## Requests and their chunks -/

section Runs

/-- The bytes that a BWRITE declares. -/
def declaredSize (request : Bytes) : Nat :=
  request.field 2 2 * sectorSize env (signed request 4 4)

/-- Where its first sector lies. -/
def sectorOffset (request : Bytes) : Nat :=
  request.field 8 8 * sectorSize env (signed request 4 4)

/-- The request is accepted, for a file object. -/
structure BwriteArms (w : World H V B) (request : Bytes) (f : PlainFile) : Prop where
  header : 16 ≤ request.length
  writableShare : env.cfg.readOnly = false
  file : w.file env (signed request 4 4) = some (.file f)
  writable : f.mode.writable
  size : declaredSize env request ≤ env.cfg.maxTransferBytes
  offset : sectorOffset env request + declaredSize env request ≤ MAX_OFFSET

/-- The session once it is. -/
def World.armed (w : World H V B) (request : Bytes) : World H V B :=
  { w.writeReset with session := { w.writeReset.session with
      writeHandle := signed request 4 4
      writeIsBlock := true
      writeSectorNr := request.field 8 8
      writeSectorCount := request.field 2 2 } }

/-- The chunks of a BWRITE: one may stand behind its header. -/
def bwriteMessages (request : Bytes) (chunks : List Bytes) : List (Option (Chunk UInt8)) :=
  ((if 16 < request.length then [request.drop 16] else []) ++ chunks).map chunkOf

/-- The states before and after the last message, of a BWRITE and the chunks behind it. -/
def bwriteRun (request : Bytes) (chunks : List Bytes) (w : World H V B) :
    World H V B × World H V B :=
  chunks.foldl (fun p chunk => (p.2, final (handleWriteData env chunk p.2)))
    (w, final (handleBwriteReq env request w))

/-- WRITE_DONE reports success. -/
def Succeeds (p : World H V B × World H V B) : Prop := p.2.sent = p.1.sent ++ [writeDoneReply 0]

/-- The host took all of the data at the offset. -/
def Stored (h h' : H) (handle : Int) (inode : Inode) (offset : Nat) (data : Bytes) : Prop :=
  if handle = 0 ∧ env.host.hasPwrite then
    env.host.pwrite h inode offset data = (.ok data.length, h')
  else env.host.writeAt h inode offset data = (.ok (), h')

/-- The call fails with an errno. -/
def FailsWith {α : Type} (r : Except Errno α) : Prop := ∃ errno, errno ≠ 0 ∧ r = .error errno

/-- The host refuses the write with an errno, or the data are as many bytes as were declared and
it takes them all at the offset: `os.pwrite` writes every byte, and a file object, which may be
appending, leaves what a write at the offset leaves. -/
def WritesAll (h : H) (handle : Int) (f : PlainFile) (offset declared : Nat) (data : Bytes) :
    Prop :=
  if handle = 0 ∧ env.host.hasPwrite then
    FailsWith (env.host.pwrite h f.inode offset (data.take declared)).1 ∨
      data.length = declared ∧ (env.host.pwrite h f.inode offset data).1 = .ok declared
  else
    env.host.maxOffset h f.inode < offset ∨
      FailsWith (env.host.writeAt h f.inode (f.place env.host h offset) (data.take declared)).1 ∨
        data.length = declared ∧ env.host.writeAt h f.inode offset data =
          (.ok (), (env.host.writeAt h f.inode (f.place env.host h offset) data).2)

variable {env}

theorem blockResult_eq_zero {r : Except Errno Unit} : blockResult r = 0 ↔ ¬ FailsWith r := by
  unfold FailsWith blockResult
  cases r with
  | ok u => simp
  | error errno =>
      simp only [Except.error.injEq, exists_eq_right', ne_eq, not_not]
      rw [← UInt16.toNat_inj, UInt16.toNat_zero]
      omega

theorem failsWith_map {α β : Type} {r : Except Errno α} {g : α → β} :
    FailsWith (r.map g) ↔ FailsWith r := by
  unfold FailsWith
  cases r <;> simp [Except.map]

theorem writesAll_iff {h : H} {handle : Int} {f : PlainFile} {offset declared : Nat}
    {data : Bytes} :
    WritesAll env h handle f offset declared data ↔
      (blockResult (blockCall env h handle f offset (data.take declared)).1 = 0 →
        data.length = declared ∧
          Stored env h (blockCall env h handle f offset (data.take declared)).2 handle f.inode
            offset data) := by
  rw [blockResult_eq_zero, ← or_iff_not_imp_left]
  unfold WritesAll blockCall Stored
  by_cases hpwrite : handle = 0 ∧ env.host.hasPwrite
  · simp only [if_pos hpwrite, failsWith_map]
    refine or_congr_right (and_congr_right fun hlength => ?_)
    rw [← hlength, List.take_length, Prod.ext_iff]
    simp
  · simp only [if_neg hpwrite]
    by_cases hpast : env.host.maxOffset h f.inode < offset
    · rw [if_pos hpast]
      exact iff_of_true (Or.inl hpast) (Or.inl ⟨EINVAL, by decide, rfl⟩)
    · rw [if_neg hpast, or_iff_right hpast]
      refine or_congr_right (and_congr_right fun hlength => ?_)
      rw [← hlength, List.take_length]

variable {w : World H V B} {request : Bytes}

/-- The reply tells what the call came to. -/
theorem writeDoneReply_eq {r : Except Errno Unit} :
    writeDoneReply (blockResult r) = writeDoneReply 0 ↔ blockResult r = 0 := by
  have hsigned : ∀ {n : Int}, fits32 n → signed (writeDoneReply n) 4 4 = n := by
    intro n hn
    have hpacked := signed_packInt hn (rfl : [WRITE_DONE, 0, 0, 0].length = 4) []
    rwa [List.append_nil] at hpacked
  have hfits : fits32 (blockResult r) := by
    cases r with
    | ok u => exact (by decide : fits32 0 = true)
    | error errno => exact fits32_errno errno
  constructor
  · intro h
    calc blockResult r = signed (writeDoneReply (blockResult r)) 4 4 := (hsigned hfits).symm
      _ = signed (writeDoneReply 0) 4 4 := by rw [h]
      _ = 0 := hsigned (by decide)
  · intro h
    rw [h]

theorem not_succeeds_of_sent {p : World H V B × World H V B} (h : p.2.sent = p.1.sent) :
    ¬ Succeeds p := by
  unfold Succeeds
  rw [h]
  simp

/-- A refusal is no success, and no write is in progress behind it. -/
theorem writeError_reset {errno : Errno} (h : errno ≠ 0) {before : World H V B}
    (hsent : before.sent = w.sent) :
    ¬ Succeeds (before, final (writeError errno w.writeReset)) ∧
      (final (writeError errno w.writeReset)).session.writeHandle = -1 := by
  unfold writeError
  rw [sendWriteDone_fits (fits32_errno errno)]
  refine ⟨fun hsucceeds => ?_, rfl⟩
  have hsame : w.sent ++ [writeDoneReply (blockResult (.error errno))] =
      before.sent ++ [writeDoneReply 0] := hsucceeds
  rw [hsent, List.append_cancel_left_eq, List.cons.injEq, and_iff_left rfl, writeDoneReply_eq,
    blockResult_eq_zero] at hsame
  exact hsame ⟨errno, h, rfl⟩

theorem fileHandle_nonneg {handle : Int} {obj : Obj V B} (h : w.file env handle = some obj) :
    0 ≤ handle := by
  by_contra hneg
  have hhandle := World.handle_of_file env h
  unfold World.handle at hhandle
  rw [if_neg (by omega), if_pos (by omega)] at hhandle
  cases hhandle

/-- A refused request leaves no write in progress. -/
theorem handleBwriteReq_refused (h : ¬ ∃ f, BwriteArms env w request f) :
    ¬ Succeeds (w, final (handleBwriteReq env request w)) ∧
      (final (handleBwriteReq env request w)).session.writeHandle = -1 := by
  unfold handleBwriteReq
  rw [bind_ok (resetWrite_apply w)]
  by_cases hshort : request.length < 16
  · rw [if_pos hshort]
    exact ⟨not_succeeds_of_sent rfl, rfl⟩
  rw [if_neg hshort, get_bind]
  dsimp only
  by_cases hro : env.cfg.readOnly
  · rw [if_pos hro]
    exact writeError_reset (by decide) rfl
  rw [if_neg hro]
  have hsame : w.writeReset.file env (signed request 4 4) = w.file env (signed request 4 4) := rfl
  cases hfile : w.file env (signed request 4 4) with
  | none =>
      rw [hsame, hfile]
      exact writeError_reset (by decide) rfl
  | some obj =>
      rw [hsame, hfile]
      dsimp only
      by_cases hwritable : obj.writable
      · obtain ⟨f, rfl⟩ : ∃ f, obj = .file f := by
          cases obj <;> first | exact ⟨_, rfl⟩ | cases hwritable
        rw [if_neg (by simp [hwritable])]
        by_cases hsize : env.cfg.maxTransferBytes <
            request.field 2 2 * sectorSize env (signed request 4 4)
        · rw [if_pos hsize]
          exact writeError_reset (by decide) rfl
        rw [if_neg hsize]
        by_cases hoffset : MAX_OFFSET < request.field 8 8 * sectorSize env (signed request 4 4) +
            request.field 2 2 * sectorSize env (signed request 4 4)
        · rw [if_pos hoffset]
          exact writeError_reset (by decide) rfl
        · exact absurd ⟨f, Nat.not_lt.mp hshort, Bool.eq_false_iff.mpr hro, hfile, hwritable,
            Nat.not_lt.mp hsize, Nat.not_lt.mp hoffset⟩ h
      · rw [if_pos (by simp [hwritable])]
        exact writeError_reset (by decide) rfl

/-- An accepted request goes on with the chunk behind its header. -/
theorem handleBwriteReq_armed {f : PlainFile} (h : BwriteArms env w request f) :
    handleBwriteReq env request w =
      if 16 < request.length then handleWriteData env (request.drop 16) (w.armed request)
      else .ok () (w.armed request) := by
  have hfile : w.writeReset.file env (signed request 4 4) = some (.file f) := h.file
  have hwritable : (Obj.file f : Obj V B).writable = true := h.writable
  have hsize := h.size
  have hoffset := h.offset
  unfold declaredSize at hsize hoffset
  unfold sectorOffset at hoffset
  unfold handleBwriteReq
  rw [bind_ok (resetWrite_apply w), if_neg (Nat.not_lt.mpr h.header), get_bind]
  dsimp only
  rw [if_neg (by simp [h.writableShare]), hfile]
  dsimp only
  rw [if_neg (by simp [hwritable]), if_neg (Nat.not_lt.mpr hsize),
    if_neg (Nat.not_lt.mpr hoffset), bind_ok (set_apply _ _)]
  split <;> rfl

/-- What the last message of an accepted BWRITE does, by what the chunks have come to. -/
def LastStep (env : Env H V B) (w : World H V B) (request : Bytes) :
    Assembly UInt8 → World H V B × World H V B → Prop
  | .collecting received data, p =>
      ¬ Succeeds p ∧ ∃ total, p.2 = (w.armed request).collected received data total
  | .complete data, p =>
      p.1.host = w.host ∧ p.1.sent = w.sent ∧ ∃ received total,
        p.2 = final (completeBwrite env ((w.armed request).collected received data total))
  | .refused, p => ¬ Succeeds p ∧ p.2.session.writeHandle = -1
  | .closed, p => ¬ Succeeds p ∧ p.2.session.writeHandle = -1

theorem LastStep.not_succeeds {a : Assembly UInt8} {p : World H V B × World H V B}
    (h : LastStep env w request a p) (ha : ∀ data, a ≠ .complete data) : ¬ Succeeds p := by
  cases a with
  | collecting received data => exact h.1
  | complete data => exact absurd rfl (ha data)
  | refused => exact h.1
  | closed => exact h.1

/-- A chunk of an accepted BWRITE. -/
theorem lastStep_chunk {f : PlainFile} (h : BwriteArms env w request f) {before : World H V B}
    (hhost : before.host = w.host) (hsent : before.sent = w.sent) (received : Nat) (data : Bytes)
    (total : Nat) (chunk : Bytes) :
    LastStep env w request
      ((Assembly.collecting received data).add env.cfg.maxTransferBytes (chunkOf chunk))
      (before, final (handleWriteData env chunk ((w.armed request).collected received data total))) := by
  obtain ⟨total', hchunk⟩ := @handleWriteData_armed H V B env
    ((w.armed request).collected received data total) chunk (fileHandle_nonneg h.file)
  rw [hchunk]
  have hassembly : ((w.armed request).collected received data total).assembly =
      .collecting received data := rfl
  rw [hassembly]
  cases hadd : (Assembly.collecting received data).add env.cfg.maxTransferBytes (chunkOf chunk) with
  | collecting received' data' => exact ⟨not_succeeds_of_sent hsent.symm, total', rfl⟩
  | complete data' => exact ⟨hhost, hsent, received + 1, total', rfl⟩
  | refused =>
      exact @writeError_reset H V B ((w.armed request).collected received data total) EINVAL
        (by decide) before hsent
  | closed =>
      cases hmessage : chunkOf chunk with
      | none => simp [hmessage, Assembly.add] at hadd
      | some c =>
          rw [hmessage, add_chunk] at hadd
          split at hadd
          · cases hadd
          · split at hadd
            · cases hadd
            · split at hadd <;> cases hadd

/-- A finished BWRITE leaves no write in progress. -/
theorem completeBwrite_armed {f : PlainFile} (h : BwriteArms env w request f) (received : Nat)
    (data : Bytes) (total : Nat) :
    let call := blockCall env w.host (signed request 4 4) f (sectorOffset env request)
      (data.take (declaredSize env request))
    let v := final (completeBwrite env ((w.armed request).collected received data total))
    v.host = call.2 ∧ v.sent = w.sent ++ [writeDoneReply (blockResult call.1)] ∧
      v.session.writeHandle = -1 := by
  intro call v
  obtain ⟨v', hv, hhost, hsent, hhandle⟩ := @completeBwrite_call H V B env
    ((w.armed request).collected received data total) f h.file h.writable
  have hfinal : v = v' := congrArg final hv
  rw [hfinal]
  exact ⟨hhost, hsent, hhandle⟩

theorem bwriteRun_concat (chunks : List Bytes) (chunk : Bytes) :
    bwriteRun env request (chunks ++ [chunk]) w =
      ((bwriteRun env request chunks w).2,
        final (handleWriteData env chunk (bwriteRun env request chunks w).2)) := by
  simp [bwriteRun]

theorem bwriteMessages_concat (chunks : List Bytes) (chunk : Bytes) :
    bwriteMessages request (chunks ++ [chunk]) =
      bwriteMessages request chunks ++ [chunkOf chunk] := by
  simp [bwriteMessages]

/-- The run of an accepted BWRITE, by induction on the chunks behind it. -/
theorem lastStep_run {f : PlainFile} (h : BwriteArms env w request f) (chunks : List Bytes) :
    LastStep env w request
      (assembled env.cfg.maxTransferBytes (bwriteMessages request chunks))
      (bwriteRun env request chunks w) := by
  have hclosed : ∀ {p : World H V B × World H V B} (chunk : Bytes), p.2.session.writeHandle = -1 →
      LastStep env w request .closed (p.2, final (handleWriteData env chunk p.2)) := by
    intro p chunk hhandle
    have hidle : handleWriteData env chunk p.2 = .ok () p.2 :=
      handleWriteData_idle (hhandle ▸ by decide)
    rw [hidle]
    exact ⟨not_succeeds_of_sent rfl, hhandle⟩
  induction chunks using List.reverseRecOn with
  | nil =>
      unfold bwriteRun bwriteMessages
      rw [List.foldl_nil, List.append_nil, handleBwriteReq_armed h]
      by_cases hinline : 16 < request.length
      · rw [if_pos hinline, if_pos hinline]
        exact lastStep_chunk h rfl rfl 0 [] 0 (request.drop 16)
      · rw [if_neg hinline, if_neg hinline]
        exact ⟨not_succeeds_of_sent rfl, 0, rfl⟩
  | append_singleton chunks chunk ih =>
      rw [bwriteRun_concat, bwriteMessages_concat, assembled_concat]
      cases hassembled : assembled env.cfg.maxTransferBytes (bwriteMessages request chunks) with
      | collecting received data =>
          rw [hassembled] at ih
          obtain ⟨-, total, hstate⟩ := ih
          have hhost : ((w.armed request).collected received data total).host = w.host := rfl
          have hsent : ((w.armed request).collected received data total).sent = w.sent := rfl
          rw [hstate]
          exact lastStep_chunk h hhost hsent received data total chunk
      | complete data =>
          rw [hassembled] at ih
          obtain ⟨-, -, received, total, hstate⟩ := ih
          refine hclosed chunk ?_
          rw [hstate]
          exact (completeBwrite_armed h received data total).2.2
      | refused =>
          rw [hassembled] at ih
          exact hclosed chunk ih.2
      | closed =>
          rw [hassembled] at ih
          exact hclosed chunk ih.2

/-- No message of a refused BWRITE is answered with a success. -/
theorem refused_run (h : ¬ ∃ f, BwriteArms env w request f) (chunks : List Bytes) :
    ¬ Succeeds (bwriteRun env request chunks w) ∧
      (bwriteRun env request chunks w).2.session.writeHandle = -1 := by
  induction chunks using List.reverseRecOn with
  | nil => exact handleBwriteReq_refused h
  | append_singleton chunks chunk ih =>
      have hidle : handleWriteData env chunk (bwriteRun env request chunks w).2 =
          .ok () (bwriteRun env request chunks w).2 := handleWriteData_idle (ih.2 ▸ by decide)
      rw [bwriteRun_concat, hidle]
      exact ⟨not_succeeds_of_sent rfl, ih.2⟩

end Runs

/-- The bytes delivered: those of the chunks 0, 1, 2 and so on, in the order they came. -/
def delivered (request : Bytes) (chunks : List Bytes) : Bytes :=
  (accepted (bwriteMessages request chunks)).flatMap Chunk.body

/-- The chunk that says it is the last completes the declared size, and the host writes all of it
at the place of the sectors or fails with an errno. -/
def CompletesExactly (w : World H V B) (request : Bytes) (chunks : List Bytes) : Prop :=
  ∀ f data, BwriteArms env w request f →
    assembled env.cfg.maxTransferBytes (bwriteMessages request chunks) = .complete data →
      WritesAll env w.host (signed request 4 4) f (sectorOffset env request)
        (declaredSize env request) data

/-- WRITE_DONE reports a success of a BWRITE only if exactly the declared bytes were delivered and
the host has stored them all at the sectors: for every request, every sequence of chunks behind
it and every state, exactly under `CompletesExactly`. -/
theorem bwrite_success_iff (request : Bytes) (chunks : List Bytes) (w : World H V B) :
    (Succeeds (bwriteRun env request chunks w) →
        ∃ f, w.file env (signed request 4 4) = some (.file f) ∧
          (delivered request chunks).length = declaredSize env request ∧
          Stored env w.host (bwriteRun env request chunks w).2.host (signed request 4 4) f.inode
            (sectorOffset env request) (delivered request chunks)) ↔
      CompletesExactly env w request chunks := by
  unfold CompletesExactly
  by_cases harms : ∃ f, BwriteArms env w request f
  · obtain ⟨f, h⟩ := harms
    have hlast := lastStep_run h chunks
    by_cases hdone : ∃ data,
        assembled env.cfg.maxTransferBytes (bwriteMessages request chunks) = .complete data
    · obtain ⟨data, hdata⟩ := hdone
      rw [hdata] at hlast
      obtain ⟨-, hsent, received, total, hstate⟩ := hlast
      obtain ⟨hhost, hreply, -⟩ := completeBwrite_armed h received data total
      have hdelivered : data = delivered request chunks := data_of_complete hdata
      have hone : ∀ {f'}, w.file env (signed request 4 4) = some (.file f') → f' = f := by
        intro f' h'
        have hsame := h'.symm.trans h.file
        simpa using hsame
      have hsucceeds : Succeeds (bwriteRun env request chunks w) ↔
          blockResult (blockCall env w.host (signed request 4 4) f (sectorOffset env request)
            (data.take (declaredSize env request))).1 = 0 := by
        unfold Succeeds
        rw [hstate, hsent, hreply, List.append_cancel_left_eq, List.cons.injEq, and_iff_left rfl]
        exact writeDoneReply_eq
      rw [hsucceeds, hstate, hhost, ← hdelivered]
      constructor
      · intro hstored f' data' h' hdata'
        obtain rfl := hone h'.file
        obtain rfl : data = data' := by
          have hsame := hdata.symm.trans hdata'
          simpa using hsame
        refine writesAll_iff.mpr fun hzero => ?_
        obtain ⟨f'', hfile, hlength, hcall⟩ := hstored hzero
        obtain rfl := hone hfile
        exact ⟨hlength, hcall⟩
      · intro hwrites hzero
        obtain ⟨hlength, hcall⟩ := writesAll_iff.mp (hwrites f data h hdata) hzero
        exact ⟨f, h.file, hlength, hcall⟩
    · have hfails := hlast.not_succeeds fun data hdata => hdone ⟨data, hdata⟩
      refine iff_of_true (fun hsucceeds => absurd hsucceeds hfails) ?_
      exact fun _ data _ hdata => absurd ⟨data, hdata⟩ hdone
  · have hfails := (refused_run harms chunks).1
    refine iff_of_true (fun hsucceeds => absurd hsucceeds hfails) ?_
    exact fun f _ h => absurd ⟨f, h⟩ harms

/-- A BWRITE of one sector of the block device. -/
def oneSector : Bytes := [0x2a, 0] ++ Bytes.ofNat 2 1 ++ Bytes.ofNat 4 0 ++ Bytes.ofNat 8 0

/-- One byte, in a chunk that says it is the last. -/
def oneByte : Bytes := [0x17, 0] ++ Bytes.ofNat 2 0 ++ Bytes.ofNat 2 1 ++ Bytes.ofNat 2 1 ++ [7]

/-- The console of a share with a block device. -/
def deviceWorld : World Disk Empty Empty := (Server.new oneGame (some 8)).world console

theorem early_finish_succeeds :
    ¬ (Succeeds (bwriteRun (diskEnv false) oneSector [oneByte] deviceWorld) →
        ∃ f, deviceWorld.file (diskEnv false) (signed oneSector 4 4) = some (.file f) ∧
          (delivered oneSector [oneByte]).length = declaredSize (diskEnv false) oneSector ∧
          Stored (diskEnv false) deviceWorld.host
            (bwriteRun (diskEnv false) oneSector [oneByte] deviceWorld).2.host
            (signed oneSector 4 4) f.inode (sectorOffset (diskEnv false) oneSector)
            (delivered oneSector [oneByte])) := by
  intro h
  have hsucceeds : Succeeds (bwriteRun (diskEnv false) oneSector [oneByte] deviceWorld) := by
    unfold Succeeds
    decide +kernel
  obtain ⟨f, -, hlength, -⟩ := h hsucceeds
  exact absurd hlength (by decide +kernel)

end Ps2Servers.Udpfs
