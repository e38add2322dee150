import Ps2Servers.Lib.FileWrites
import Ps2Servers.Udpfs.BlockWrites

/-!
# A file that is opened for writing

What an OPEN with the write access bit and the WRITE requests behind it leave in a regular
file of the share, by the modes that `_flags_to_mode` chooses.

## Implementation notes

`KeepsFile` is what `open`, `fstat`, `write` and `os.path.exists` do to one regular file
that nobody else writes. WRITE requests are complete: their chunks are numbered and say how
many there are.
-/

namespace Ps2Servers.Udpfs

open Text Effects Chunks FileWrites

variable {H V B : Type}

/-- What `open` makes of a file in a mode. -/
def Mode.bits : Mode → Bits
  | rb => ⟨false, false, false⟩
  | rPlus => ⟨false, false, false⟩
  | wb => ⟨true, true, false⟩
  | wPlus => ⟨true, true, false⟩
  | ab => ⟨true, false, true⟩
  | aPlus => ⟨true, false, true⟩

@[simp] theorem Mode.append_bits (mode : Mode) : mode.bits.append = mode.appends := by
  cases mode <;> rfl

/-- One regular file of the host, which lies in a folder that is there: its contents, if it is
there, and the inodes that are it. -/
structure KeepsFile (env : Env H V B) (path : Str) (good : H → Prop) (content : H → Option Bytes)
    (names : H → Inode → Prop) : Prop where
  folder : ∀ {h}, good h → exists_ env.host h (dirname env.host path) = true
  stat : ∀ {h}, good h → exists_ env.host h path = (content h).isSome
  opens : ∀ {h} {mode : Mode} {data}, good h → mode ≠ .rb →
    mode.bits.opened (content h) = some data → ∃ inode h',
      env.host.openWrite h path mode = .ok (inode, h') ∧ good h' ∧ names h' inode ∧
        content h' = some data
  fstat : ∀ {h inode}, good h → names h inode → ∃ st info,
    env.host.fstat h inode = .ok st ∧ statToBytes env st = .ok info
  fileEnd : ∀ {h inode data}, good h → names h inode → content h = some data →
    env.host.fileEnd h inode = data.length
  writes : ∀ {h inode old} offset data, good h → names h inode → content h = some old → ∃ h',
    env.host.writeAt h inode offset data = (.ok (), h') ∧ good h' ∧ names h' inode ∧
      content h' = some (old.splice offset data)

/-! ## One WRITE -/

section Writes

variable {env : Env H V B} {w : World H V B}

/-- The chunks of a WRITE: one may stand behind its header. -/
def writeMessages (request : Bytes) (chunks : List Bytes) : List Bytes :=
  (if 12 < request.length then [request.drop 12] else []) ++ chunks

/-- The session behind a WRITE and its chunks. -/
def writeRun (env : Env H V B) (request : Bytes) (chunks : List Bytes) (w : World H V B) :
    World H V B :=
  chunks.foldl (fun w chunk => final (handleWriteData env chunk w))
    (final (handleWriteReq env request w))

/-- A session that collects a WRITE for a handle. -/
def World.writing (w : World H V B) (handle : Int) : World H V B :=
  { w.writeReset with session := { w.writeReset.session with writeHandle := handle } }

theorem handleWriteReq_armed {request : Bytes} {f : PlainFile} (hheader : 12 ≤ request.length)
    (hro : env.cfg.readOnly = false) (hsize : request.field 8 4 ≤ env.cfg.maxTransferBytes)
    (hfile : w.file env (signed request 4 4) = some (.file f)) (hwritable : f.mode.writable) :
    handleWriteReq env request w =
      if 12 < request.length then
        handleWriteData env (request.drop 12) (w.writing (signed request 4 4))
      else .ok () (w.writing (signed request 4 4)) := by
  have hreset : w.writeReset.file env (signed request 4 4) = some (.file f) := hfile
  have hobj : (Obj.file f : Obj V B).writable = true := hwritable
  unfold handleWriteReq
  rw [bind_ok (resetWrite_apply w), if_neg (Nat.not_lt.mpr hheader), get_bind]
  dsimp only
  rw [if_neg (by simp [hro]), if_neg (Nat.not_lt.mpr hsize), hreset]
  dsimp only
  rw [if_neg (by simp [hobj]), bind_ok (set_apply _ _)]
  split <;> rfl

/-- The chunks of a whole transfer come to its last one, which completes the write. -/
theorem collect_whole {messages : List Bytes} {chunks : List (Chunk UInt8)}
    (hparse : messages.map chunkOf = chunks.map some) (hne : chunks ≠ []) {n k : Nat}
    (hwhole : WholeFrom n k chunks) {a : World H V B} (harmed : 0 ≤ a.session.writeHandle)
    (hplain : a.session.writeIsBlock = false) {data : Bytes}
    (hfits : data.length + (chunks.flatMap Chunk.body).length ≤ env.cfg.maxTransferBytes)
    (total : Nat) :
    ∃ received total', messages.foldl (fun w chunk => final (handleWriteData env chunk w))
        (a.collected k data total) =
      final (completeWrite env
        (a.collected received (data ++ chunks.flatMap Chunk.body) total')) := by
  induction chunks generalizing messages k data total with
  | nil => exact absurd rfl hne
  | cons c rest ih =>
      obtain ⟨message, messages, rfl, hchunk, hparse⟩ := List.map_eq_cons_iff.mp hparse
      obtain ⟨hnr, htotal, hrest⟩ := hwhole
      rw [List.flatMap_cons, List.length_append] at hfits
      have hlimit : ¬ env.cfg.maxTransferBytes < data.length + c.body.length := by omega
      obtain ⟨total', hstep⟩ := @handleWriteData_armed H V B env (a.collected k data total) message
        harmed
      have hassembly : (a.collected k data total).assembly = .collecting k data := rfl
      rw [hassembly, hchunk, add_chunk, if_neg (not_not.mpr hnr), if_neg hlimit] at hstep
      rw [List.foldl_cons, hstep]
      cases rest with
      | nil =>
          have hlast : k + 1 = n := hrest
          rw [if_pos (by omega)]
          obtain rfl : messages = [] := by simpa using hparse
          refine ⟨k + 1, total', ?_⟩
          have hbranch : (a.collected k data total).session.writeIsBlock = false := hplain
          unfold afterChunk
          rw [hbranch, List.flatMap_cons, List.flatMap_nil, List.append_nil]
          rfl
      | cons c' rest =>
          have hlt := hrest.2.2.le
          rw [if_neg (by omega)]
          have hroom : (data ++ c.body).length + ((c' :: rest).flatMap Chunk.body).length ≤
              env.cfg.maxTransferBytes := by
            rw [List.length_append]
            omega
          obtain ⟨received, total'', heq⟩ := ih hparse (List.cons_ne_nil _ _) hrest hroom total'
          refine ⟨received, total'', ?_⟩
          rw [List.flatMap_cons, ← List.append_assoc, ← heq]
          rfl

/-- The handle `n` of the session is a file object over the file, whose contents are `data`. -/
structure OpenFile (good : H → Prop) (content : H → Option Bytes) (names : H → Inode → Prop)
    (n : Nat) (w : World H V B) (f : PlainFile) (data : Bytes) : Prop where
  handle : w.session.handles.lookup n = some (.file f)
  writable : f.mode.writable
  good : good w.host
  names : names w.host f.inode
  content : content w.host = some data

theorem OpenFile.file {good : H → Prop} {content : H → Option Bytes} {names : H → Inode → Prop}
    {n : Nat} {f : PlainFile} {data : Bytes} (h : OpenFile good content names n w f data)
    (hn : 0 < n) : w.file env n = some (.file f) := by
  unfold World.file World.handle
  rw [if_neg (by omega), if_neg (by omega), Int.toNat_natCast, h.handle]
  rfl

theorem lookup_update (l : List (Nat × Obj V B)) (n : Nat) (obj : Obj V B) :
    (l.map fun e => if e.1 = n then (e.1, obj) else e).lookup n =
      (l.lookup n).map fun _ => obj := by
  induction l with
  | nil => rfl
  | cons e rest ih =>
      obtain ⟨key, value⟩ := e
      by_cases hkey : key = n
      · simp [hkey]
      · have hne : (n == key) = false := beq_eq_false_iff_ne.mpr fun heq => hkey heq.symm
        simp [List.lookup_cons, hkey, hne, ih]

/-- A finished WRITE: the data go where the file object stands, or to the end. -/
theorem OpenFile.completeWrite {path : Str} {good : H → Prop} {content : H → Option Bytes}
    {names : H → Inode → Prop} (hkeeps : KeepsFile env path good content names) {n : Nat}
    {f : PlainFile} {old : Bytes} (h : OpenFile good content names n w f old) (hn : 0 < n)
    (hhandle : w.session.writeHandle = n) :
    let place := if f.mode.appends then old.length else f.pos
    OpenFile good content names n (final (completeWrite env w))
      { f with pos := place + w.session.writeData.length }
      (old.splice place w.session.writeData) := by
  intro place
  have hfile : w.file env n = some (.file f) := h.file hn
  have hplace : (if f.mode.appends then env.host.fileEnd w.host f.inode else f.pos) = place := by
    rw [hkeeps.fileEnd h.good h.names h.content]
  obtain ⟨h', hcall, hgood, hnames, hcontent⟩ :=
    hkeeps.writes place w.session.writeData h.good h.names h.content
  have hwrite : f.write env.host w.host w.session.writeData =
      (.ok w.session.writeData.length,
        { f with pos := place + w.session.writeData.length }, h') := by
    unfold PlainFile.write
    rw [if_pos h.writable, hplace]
    dsimp only
    rw [hcall]
  have hobject : writeObject env n f w.session.writeData w.writeReset =
      .ok w.session.writeData.length { w.writeReset.update n (.file
        { f with pos := place + w.session.writeData.length }) with host := h' } := by
    unfold writeObject
    rw [get_bind]
    change (do
      set { w.writeReset.update n (.file (f.write env.host w.host w.session.writeData).2.1) with
        host := (f.write env.host w.host w.session.writeData).2.2 }
      raise (f.write env.host w.host w.session.writeData).1 : Handler H V B Nat) w.writeReset = _
    rw [hwrite]
    rfl
  have hlookup : (w.writeReset.update (n : Int) (.file
      { f with pos := place + w.session.writeData.length })).session.handles.lookup n =
        some (.file { f with pos := place + w.session.writeData.length }) := by
    unfold World.update
    rw [if_neg (by omega), Int.toNat_natCast]
    exact (lookup_update w.session.handles n _).trans (by rw [h.handle]; rfl)
  obtain ⟨v, hv, hvlookup, hvhost⟩ : ∃ v : World H V B,
      writeObject env n f w.session.writeData w.writeReset = .ok w.session.writeData.length v ∧
        v.session.handles.lookup n =
          some (.file { f with pos := place + w.session.writeData.length }) ∧ v.host = h' :=
    ⟨_, hobject, hlookup, rfl⟩
  subst hvhost
  unfold Udpfs.completeWrite
  rw [get_bind, bind_ok (resetWrite_apply w), hhandle, hfile]
  unfold answerErrno
  dsimp only
  by_cases hfits : fits32 w.session.writeData.length
  · have hbody : (do
        let written ← writeObject env n f w.session.writeData
        sendWriteDone written : Handler H V B Unit) w.writeReset =
        .ok () { v with sent := v.sent ++ [writeDoneReply w.session.writeData.length] } := by
      rw [bind_ok hv]
      exact sendWriteDone_fits hfits
    rw [rescue_ok hbody]
    exact ⟨hvlookup, h.writable, hgood, hnames, hcontent⟩
  · have hbody : (do
        let written ← writeObject env n f w.session.writeData
        sendWriteDone written : Handler H V B Unit) w.writeReset = .error .structError v := by
      rw [bind_ok hv]
      exact packInt_bind_error hfits
    rw [rescue_passed hbody (by decide)]
    exact ⟨hvlookup, h.writable, hgood, hnames, hcontent⟩

/-- A WRITE to a handle whose chunks are all there and carry the data. -/
structure CompleteWrite (limit : Nat) (handle : Int) (write : Bytes × List Bytes) (data : Bytes) :
    Prop where
  header : 12 ≤ write.1.length
  handle : signed write.1 4 4 = handle
  size : write.1.field 8 4 ≤ limit
  whole : ∃ chunks, (writeMessages write.1 write.2).map chunkOf = chunks.map some ∧
    chunks ≠ [] ∧ WholeFrom chunks.length 0 chunks ∧ chunks.flatMap Chunk.body = data
  fits : data.length ≤ limit

section Files

variable {path : Str} {good : H → Prop} {content : H → Option Bytes} {names : H → Inode → Prop}
  (hkeeps : KeepsFile env path good content names) (hro : env.cfg.readOnly = false) {n : Nat}
  (hn : 0 < n)

include hkeeps hro hn

/-- One WRITE to the file. -/
theorem OpenFile.write {f : PlainFile} {old data : Bytes}
    (h : OpenFile good content names n w f old) {write : Bytes × List Bytes}
    (hwrite : CompleteWrite env.cfg.maxTransferBytes n write data) :
    let place := if f.mode.appends then old.length else f.pos
    OpenFile good content names n (writeRun env write.1 write.2 w)
      { f with pos := place + data.length } (old.splice place data) := by
  obtain ⟨hheader, hhandle, hsize, ⟨chunks, hparse, hne, hwhole, rfl⟩, hfits⟩ := hwrite
  have hfile : w.file env (signed write.1 4 4) = some (.file f) := hhandle ▸ h.file hn
  have hrun : writeRun env write.1 write.2 w =
      (writeMessages write.1 write.2).foldl (fun w chunk => final (handleWriteData env chunk w))
        ((w.writing n).collected 0 [] 0) := by
    unfold writeRun writeMessages
    rw [handleWriteReq_armed hheader hro hsize hfile h.writable, hhandle]
    split <;> rfl
  have harmed : 0 ≤ (w.writing n).session.writeHandle := Int.natCast_nonneg n
  have hroom : ([] : Bytes).length + (chunks.flatMap Chunk.body).length ≤
      env.cfg.maxTransferBytes := by
    rw [List.length_nil, Nat.zero_add]
    exact hfits
  obtain ⟨received, total, hcollect⟩ := collect_whole hparse hne hwhole harmed rfl hroom 0
  rw [hrun, hcollect, List.nil_append]
  have hopen : OpenFile good content names n
      ((w.writing n).collected received (chunks.flatMap Chunk.body) total) f old :=
    ⟨h.handle, h.writable, h.good, h.names, h.content⟩
  exact hopen.completeWrite hkeeps hn rfl

/-- A sequence of WRITEs to the file, by induction on it. -/
theorem OpenFile.writes {f : PlainFile} {old : Bytes} (h : OpenFile good content names n w f old)
    {writes : List (Bytes × List Bytes)} {datas : List Bytes}
    (hwrites : List.Forall₂ (CompleteWrite env.cfg.maxTransferBytes n) writes datas) :
    ∃ f', OpenFile good content names n
      (writes.foldl (fun w write => writeRun env write.1 write.2 w) w) f'
      (laid f.mode.appends f.pos old datas) := by
  induction hwrites generalizing w f old with
  | nil => exact ⟨f, h⟩
  | @cons write data writes datas hwrite _ ih =>
      obtain ⟨f', hf'⟩ := ih (h.write hkeeps hro hn hwrite)
      refine ⟨f', ?_⟩
      rw [List.foldl_cons]
      have hlaid : laid f.mode.appends f.pos old (data :: datas) =
          laid f.mode.appends
            ((if f.mode.appends then old.length else f.pos) + data.length)
            (old.splice (if f.mode.appends then old.length else f.pos) data) datas := by
        cases hmode : f.mode.appends with
        | true => simp [laid, laid_append]
        | false => rfl
      rw [hlaid]
      exact hf'

end Files

end Writes

/-! ## The OPEN -/

section Opens

/-- The bits of an OPEN. -/
def openBits (flags : Nat) : Bits :=
  ⟨hasFlag flags O_CREAT, hasFlag flags O_TRUNC, hasFlag flags O_APPEND⟩

theorem access_cases {flags : Nat} (h : hasFlag flags O_WRONLY) :
    flags &&& 0x03 = 0x02 ∨ flags &&& 0x03 = 0x03 := by
  have hbit : flags &&& 2 ≠ 0 := of_decide_eq_true h
  have hand : flags &&& 2 = (flags &&& 3) &&& 2 := by rw [Nat.and_assoc]; rfl
  have hle : flags &&& 3 ≤ 3 := Nat.and_le_right
  rw [hand] at hbit
  revert hbit
  generalize flags &&& 3 = access at hle
  interval_cases access <;> decide

theorem flagsToMode_write {flags : Nat} (h : flags &&& 0x03 = 0x02) (there : Bool) :
    flagsToMode flags there =
      if hasFlag flags O_APPEND then .ab
      else if hasFlag flags O_TRUNC then .wb
      else if hasFlag flags O_CREAT then if there then .rPlus else .wb
      else .rPlus := by
  unfold flagsToMode
  rw [h]
  rfl

theorem flagsToMode_readWrite {flags : Nat} (h : flags &&& 0x03 = 0x03) (there : Bool) :
    flagsToMode flags there =
      if hasFlag flags O_CREAT then
        if hasFlag flags O_TRUNC then .wPlus
        else if hasFlag flags O_APPEND then .aPlus
        else if there then .rPlus
        else .wPlus
      else .rPlus := by
  unfold flagsToMode
  rw [h]
  rfl

/-- The mode of an OPEN with the write access bit is one for writing. -/
theorem writable_flagsToMode {flags : Nat} (h : hasFlag flags O_WRONLY) (there : Bool) :
    (flagsToMode flags there).writable = true := by
  rcases access_cases h with haccess | haccess
  · rw [flagsToMode_write haccess]
    repeat' split
    all_goals rfl
  · rw [flagsToMode_readWrite haccess]
    repeat' split
    all_goals rfl

/-- A file that is not there is created by every mode that O_CREAT leads to. -/
theorem creat_flagsToMode {flags : Nat} (h : hasFlag flags O_WRONLY)
    (hcreat : hasFlag flags O_CREAT) : (flagsToMode flags false).bits.creat = true := by
  rcases access_cases h with haccess | haccess
  · rw [flagsToMode_write haccess, if_pos hcreat]
    repeat' split
    all_goals first | rfl | contradiction
  · rw [flagsToMode_readWrite haccess, if_pos hcreat]
    repeat' split
    all_goals first | rfl | contradiction

variable {env : Env H V B} {w : World H V B} {path : Str} {good : H → Prop}
  {content : H → Option Bytes} {names : H → Inode → Prop}

/-- An OPEN with the write access bit, of a name that is no image and no virtual view, in a session
with room for a handle. -/
structure WriteOpen (env : Env H V B) (path : Str) (w : World H V B) (payload : Bytes) : Prop where
  header : 8 ≤ payload.length
  file : payload.field 1 1 = 0
  access : hasFlag (payload.field 2 2) O_WRONLY
  share : env.cfg.readOnly = false
  resolves : resolvePath env.host env.cfg.rootDir w.host (clientPath (payload.drop 8)) = some path
  plain : aliasOf env w.host (clientPath (payload.drop 8)) = (none, none)
  room : w.handleCount < MAX_HANDLES
  number : fits32 w.session.nextHandle
  positive : 0 < w.session.nextHandle
  fresh : w.session.handles.lookup w.session.nextHandle = none

theorem handleOpen_plain {payload : Bytes} (h : WriteOpen env path w payload) :
    handleOpen env payload w = openFile env path false (payload.field 2 2) w := by
  unfold handleOpen
  rw [if_neg (Nat.not_lt.mpr h.header), get_bind]
  dsimp only
  rw [h.plain, h.resolves]
  dsimp only
  rw [if_neg (by simp), if_neg (not_not.mpr h.file), if_neg (by simp [h.share])]

/-- A missing file is refused without O_CREAT, and nothing is changed. -/
theorem open_missing (hkeeps : KeepsFile env path good content names) (hgood : good w.host)
    {payload : Bytes} (h : WriteOpen env path w payload) (hmissing : content w.host = none)
    (hcreat : hasFlag (payload.field 2 2) O_CREAT = false) :
    Refused w (final (handleOpen env payload w)) ∧
      (final (handleOpen env payload w)).host = w.host := by
  have hstat : exists_ env.host w.host path = false := by rw [hkeeps.stat hgood, hmissing]; rfl
  have hopen : handleOpen env payload w = sendOpenReply (-ENOENT.toNat) .blank w := by
    rw [handleOpen_plain h]
    unfold openFile
    rw [get_bind, hstat, hcreat]
    rfl
  have huntouched := (untouched_sendOpenReply (-ENOENT.toNat) .blank).mpr (Untouched.refl w)
  rw [hopen]
  exact ⟨(refused_sendOpenReply rfl _ _).mpr ⟨fits32_errno ENOENT, by decide⟩, huntouched.2⟩

/-- Otherwise it is opened in its mode. -/
theorem open_accepted (hkeeps : KeepsFile env path good content names) (hgood : good w.host)
    {payload : Bytes} (h : WriteOpen env path w payload)
    (hthere : (content w.host).isSome ∨ hasFlag (payload.field 2 2) O_CREAT) {data : Bytes}
    (hopened : (flagsToMode (payload.field 2 2) (content w.host).isSome).bits.opened
      (content w.host) = some data) :
    ¬ Refused w (final (handleOpen env payload w)) ∧
      ∃ f, OpenFile good content names w.session.nextHandle (final (handleOpen env payload w)) f
          data ∧
        f.mode = flagsToMode (payload.field 2 2) (content w.host).isSome ∧
        f.pos = if f.mode.appends then data.length else 0 := by
  have hstat := hkeeps.stat hgood
  have hwritable := writable_flagsToMode h.access (content w.host).isSome
  obtain ⟨mode, hmode⟩ : ∃ mode, flagsToMode (payload.field 2 2) (content w.host).isSome = mode :=
    ⟨_, rfl⟩
  rw [hmode] at hwritable hopened ⊢
  have hrb : mode ≠ .rb := by
    rintro rfl
    cases hwritable
  obtain ⟨inode, h', hwrite, hgood', hnames, hcontent⟩ := hkeeps.opens hgood hrb hopened
  obtain ⟨st, info, hfstat, hinfo⟩ := hkeeps.fstat hgood' hnames
  let start := if mode.appends then env.host.fileEnd h' inode else 0
  let after : World H V B := { w with host := h' }
  have hstart : start = if mode.appends then data.length else 0 := by
    change (if mode.appends then env.host.fileEnd h' inode else 0) = _
    rw [hkeeps.fileEnd hgood' hnames hcontent]
  have hplain : openPlain env path mode w =
      sendOpenReply w.session.nextHandle info (after.withHandle (.file ⟨inode, mode, start⟩)) := by
    have hpath : openPath env path mode w = .ok inode after := by
      rw [openPath, get_bind, if_neg hrb, hwrite]
      rfl
    have hroom : ¬ MAX_HANDLES ≤ after.handleCount := Nat.not_le.mpr h.room
    have halloc := allocHandle_room (.file ⟨inode, mode, start⟩)
      (f := fun handle => openedReply handle info) hroom
    have hreply : openedReply after.session.nextHandle info
        (after.withHandle (.file ⟨inode, mode, start⟩)) =
        sendOpenReply w.session.nextHandle info
          (after.withHandle (.file ⟨inode, mode, start⟩)) := by
      unfold openedReply
      rw [if_neg (by omega)]
    unfold openPlain
    rw [bind_ok hpath, get_bind, hfstat, osCall_ok_bind, hinfo, raise_ok_bind]
    exact halloc.trans hreply
  have hparents : makeParents env path (payload.field 2 2) w = .ok () w := by
    rw [makeParents, get_bind, if_neg (by simp [hkeeps.folder hgood])]
    rfl
  have hopen : handleOpen env payload w =
      sendOpenReply w.session.nextHandle info (after.withHandle (.file ⟨inode, mode, start⟩)) := by
    have hgo : (!(content w.host).isSome && !hasFlag (payload.field 2 2) O_CREAT) = false := by
      rcases hthere with hthere | hcreat
      · rw [hthere]
        rfl
      · rw [hcreat, Bool.not_true, Bool.and_false]
    have hbody : (do
        makeParents env path (payload.field 2 2)
        if false = true then openImage env path
        else openPlain env path mode : Handler H V B Unit) w =
        openPlain env path mode w := by
      rw [bind_ok hparents, if_neg Bool.false_ne_true]
    have hsent : sendOpenReply w.session.nextHandle info
        (after.withHandle (.file ⟨inode, mode, start⟩)) = .ok () { after.withHandle
          (.file ⟨inode, mode, start⟩) with sent := _ } := packInt_bind h.number
    rw [handleOpen_plain h]
    unfold openFile
    rw [get_bind, hstat, hmode, hgo, if_neg Bool.false_ne_true]
    exact (rescue_ok ((hbody.trans hplain).trans hsent)).trans hsent.symm
  have hhandle : (w.session.handles ++ [(w.session.nextHandle,
      (.file ⟨inode, mode, start⟩ : Obj V B))]).lookup w.session.nextHandle =
        some (.file ⟨inode, mode, start⟩) := by
    rw [List.lookup_append, h.fresh]
    simp
  rw [hopen]
  constructor
  · have hsent : (after.withHandle (.file ⟨inode, mode, start⟩)).sent = w.sent := rfl
    exact fun hrefused => absurd ((refused_sendOpenReply hsent _ _).mp hrefused).2 (by omega)
  · refine ⟨⟨inode, mode, start⟩, ?_, rfl, hstart⟩
    unfold sendOpenReply
    rw [packInt_bind h.number]
    exact ⟨hhandle, hwritable, hgood', hnames, hcontent⟩

theorem opened_flagsToMode {flags : Nat} (h : hasFlag flags O_WRONLY) {before : Option Bytes}
    (hthere : before.isSome ∨ hasFlag flags O_CREAT) :
    ((flagsToMode flags before.isSome).bits.opened before).isSome := by
  cases before with
  | some old => rfl
  | none =>
      have hcreat := hthere.resolve_left Bool.false_ne_true
      unfold Bits.opened
      dsimp only
      rw [Option.isSome_none, creat_flagsToMode h hcreat]
      rfl

theorem host_handleClose (payload : Bytes) (w : World H V B) :
    (final (handleClose env payload w)).host = w.host := by
  have htracked : Tracked env (fun _ => False) fun v : World H V B => v.host = w.host :=
    ⟨fun _ _ h => h, fun _ _ h => h, fun _ _ h => h, fun _ _ _ _ h => h.elim⟩
  exact htracked.handleClose payload w rfl

/-- A file object that appends starts at the end, and every other at the start: its writes are
those of a descriptor. -/
theorem laid_opened {append : Bool} {pos : Nat} {old : Bytes}
    (h : pos = if append then old.length else 0) (datas : List Bytes) :
    laid append pos old datas = laid append 0 old datas := by
  cases append with
  | true => rw [laid_append, laid_append]
  | false => rw [h, if_neg Bool.false_ne_true]

/-- The whole of a write: the OPEN, the WRITEs and the CLOSE. -/
theorem written_of_accepted (hkeeps : KeepsFile env path good content names) (hgood : good w.host)
    {payload : Bytes} (h : WriteOpen env path w payload)
    (hthere : (content w.host).isSome ∨ hasFlag (payload.field 2 2) O_CREAT)
    {writes : List (Bytes × List Bytes)} {datas : List Bytes}
    (hwrites : List.Forall₂ (CompleteWrite env.cfg.maxTransferBytes w.session.nextHandle) writes
      datas) (close : Bytes) :
    content (final (handleClose env close
      (writes.foldl (fun w write => writeRun env write.1 write.2 w)
        (final (handleOpen env payload w))))).host =
      (flagsToMode (payload.field 2 2) (content w.host).isSome).bits.written (content w.host)
        datas := by
  obtain ⟨data, hdata⟩ := Option.isSome_iff_exists.mp (opened_flagsToMode h.access hthere)
  obtain ⟨-, f, hfile, hmode, hpos⟩ := open_accepted hkeeps hgood h hthere hdata
  obtain ⟨f', hwritten⟩ := hfile.writes hkeeps h.share h.positive hwrites
  rw [host_handleClose, hwritten.content, laid_opened hpos]
  unfold Bits.written
  rw [hdata, Option.map_some, Mode.append_bits, ← hmode]

end Opens

end Ps2Servers.Udpfs
