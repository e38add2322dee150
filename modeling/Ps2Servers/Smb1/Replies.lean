import Ps2Servers.Smb1.Server

/-!
# Which requests are answered

A handler that lets an exception out ends the connection, and so does a reply that
cannot be packed. For each command this module says exactly when neither happens.
-/

namespace Ps2Servers.Smb1

open Effects
open Struct (Item)

/-- The reply can be packed. -/
def Reply.Sendable (reply : Reply) : Prop :=
  reply.status = STATUS_SUCCESS →
    reply.params.length % 2 = 0 ∧ reply.params.length < 0x200 ∧ reply.data.length < 0x10000

theorem sendable_fail {status : Status} (h : status ≠ STATUS_SUCCESS) :
    (Reply.fail status).Sendable := fun hs => absurd hs h

@[simp] theorem sendable_done {params data : Bytes} :
    (Reply.done params data).Sendable ↔
      params.length % 2 = 0 ∧ params.length < 0x200 ∧ data.length < 0x10000 := by
  simp only [Reply.Sendable, Reply.done, true_implies]

/-- A packed reply. -/
theorem sendable_packed {items : List Item} {data : Bytes} {uid tid : Option Nat}
    (heven : Struct.calcsize items % 2 = 0) (hsize : Struct.calcsize items < 0x200)
    (hdata : data.length < 0x10000) :
    Reply.Sendable ⟨items.flatMap Item.bytes, data, STATUS_SUCCESS, uid, tid⟩ := by
  intro _
  dsimp only
  rw [Struct.length_flatMap]
  exact ⟨heven, hsize, hdata⟩

theorem buildBody_isSome {params data : Bytes} :
    (buildBody params data).isSome ↔
      params.length % 2 = 0 ∧ params.length < 0x200 ∧ data.length < 0x10000 := by
  unfold buildBody
  by_cases heven : params.length % 2 = 0
  · rw [if_pos heven, and_iff_right heven]
    by_cases hcount : params.length / 2 < 0x100
    · by_cases hbytes : data.length < 0x10000
      · have hparams : params.length < 0x200 := by omega
        simp [Struct.pack, Item.fits, hcount, hbytes, hparams]
      · simp [Struct.pack, Item.fits, hcount, hbytes]
    · have hparams : ¬ params.length < 0x200 := by omega
      simp [Struct.pack, Item.fits, hcount, hparams]
  · simp [heven]

theorem respond_isSome {r : Req} {reply : Reply} :
    (respond r reply).isSome ↔ reply.Sendable := by
  unfold respond Reply.Sendable
  split
  · rename_i h
    rw [← buildBody_isSome]
    cases buildBody reply.params reply.data with
    | none => exact iff_of_false Bool.false_ne_true fun hs => Bool.false_ne_true (hs h)
    | some body => exact iff_of_true rfl fun _ => rfl
  · rename_i h
    exact iff_of_true rfl fun hs => absurd hs h

/-- A field behind `offset` bytes. -/
theorem field_behind {front rest : Bytes} {offset : Nat} (h : front.length = offset)
    (size n : Nat) : (front ++ (Bytes.ofNat size n ++ rest)).field offset size = n % 256 ^ size := by
  have hfield := Bytes.field_append front (Bytes.ofNat size n ++ rest) 0 size
  rw [Nat.add_zero, h] at hfield
  rw [hfield, Bytes.field_ofNat]

theorem packHeader_fields (code status tid pid uid mid : Nat) (body : Bytes) :
    let bytes := packHeader code status tid pid uid mid ++ body
    bytes.take 4 = SMB_MAGIC ∧ bytes.field 4 1 = code % 0x100 ∧
      bytes.field 26 2 = pid % 0x10000 ∧ bytes.field 30 2 = mid % 0x10000 := by
  intro bytes
  have hassoc : bytes = SMB_MAGIC ++ (Bytes.ofNat 1 code ++ (Bytes.ofNat 1 (status &&& 0xFF) ++
      ([0] ++ (Bytes.ofNat 2 (status / 0x10000 &&& 0xFFFF) ++ ([0x80] ++ (Bytes.ofNat 2 0x4001 ++
        (List.replicate 12 0 ++ (Bytes.ofNat 2 (tid % 0x10000) ++ (Bytes.ofNat 2 (pid % 0x10000) ++
          (Bytes.ofNat 2 (uid % 0x10000) ++ (Bytes.ofNat 2 (mid % 0x10000) ++ body))))))))))) := by
    simp only [bytes, packHeader, List.append_assoc]
  refine ⟨?_, ?_, ?_, ?_⟩
  · rw [hassoc]
    exact List.take_left' rfl
  · rw [hassoc]
    exact field_behind rfl 1 code
  · rw [hassoc]
    simp only [← List.append_assoc]
    rw [List.append_assoc, List.append_assoc, List.append_assoc, List.append_assoc]
    exact (field_behind (by simp) 2 (pid % 0x10000)).trans (Nat.mod_mod_of_dvd _ (by decide))
  · rw [hassoc]
    simp only [← List.append_assoc]
    rw [List.append_assoc]
    exact (field_behind (by simp [SMB_MAGIC]) 2 (mid % 0x10000)).trans (Nat.mod_mod _ _)

/-- A reply repeats the request's command and numbers behind the SMB1 magic. -/
theorem respond_header {r : Req} {reply : Reply} {bytes : Bytes}
    (h : respond r reply = some bytes) :
    bytes.take 4 = SMB_MAGIC ∧ bytes.field 4 1 = r.code % 0x100 ∧
      bytes.field 26 2 = r.pid % 0x10000 ∧ bytes.field 30 2 = r.mid % 0x10000 := by
  unfold respond at h
  split at h
  · cases hbody : buildBody reply.params reply.data with
    | none =>
        rw [hbody] at h
        cases h
    | some body =>
        rw [hbody] at h
        cases h
        exact packHeader_fields _ _ _ _ _ _ _
  · cases h
    exact packHeader_fields _ _ _ _ _ _ _

variable {H F : Type} {ops : Ops H F} {cfg : Config} {s : State H F} {α : Type}
  {P : α → Prop}

@[simp] theorem yields_unpack_bind {bytes : Bytes} {offset size : Nat} {f : Nat → Handler H F α} :
    Yields (unpack bytes offset size >>= f) s P ↔
      offset + size ≤ bytes.length ∧ Yields (f (bytes.field offset size)) s P := by
  unfold unpack
  split
  · rename_i h
    rw [yields_bind_ok (pure_apply _ s), and_iff_right h]
  · rename_i h
    exact iff_of_false (yields_bind_error (throw_apply () s)) fun hs => h hs.1

@[simp] theorem yields_orRaise_bind {β : Type} {a : Option β} {f : β → Handler H F α} :
    Yields (orRaise a >>= f) s P ↔ ∃ b, a = some b ∧ Yields (f b) s P := by
  cases a with
  | none => exact iff_of_false (yields_bind_error (throw_apply () s)) (by simp)
  | some b =>
      rw [orRaise, yields_bind_ok (pure_apply b s)]
      simp

@[simp] theorem yields_pack_bind {items : List Item} {f : Bytes → Handler H F α} :
    Yields (pack items >>= f) s P ↔
      items.all Item.fits ∧ Yields (f (items.flatMap Item.bytes)) s P := by
  rw [pack, yields_orRaise_bind]
  simp only [Struct.pack_eq_some]
  constructor
  · rintro ⟨b, ⟨hfits, rfl⟩, h⟩
    exact ⟨hfits, h⟩
  · rintro ⟨hfits, h⟩
    exact ⟨_, ⟨hfits, rfl⟩, h⟩

/-- A handler that ends by packing its parameters. -/
theorem yields_pack_done {items : List Item} {data : Bytes}
    (heven : Struct.calcsize items % 2 = 0) (hsize : Struct.calcsize items < 0x200)
    (hdata : data.length < 0x10000) :
    Yields (pack items >>= fun params => (pure (.done params data) : Handler H F Reply)) s
      Reply.Sendable ↔ items.all Item.fits := by
  rw [yields_pack_bind, yields_pure]
  exact and_iff_left (sendable_packed heven hsize hdata)

theorem forall_mem_some {β : Type} {b : β} {p : β → Prop} : (∀ a ∈ some b, p a) ↔ p b := by
  simp only [Option.mem_def, Option.some.injEq, forall_eq']

theorem forall_mem_none {β : Type} {p : β → Prop} : ∀ a ∈ (none : Option β), p a := by
  intro a ha
  cases ha

theorem allocate_lt (current start : Nat) (h : start < 0x10000) :
    allocate current start < 0x10000 := by
  unfold allocate
  split
  · exact h
  · exact Nat.mod_lt _ (by decide)

theorem length_data (msg : Bytes) : (Req.ofMessage msg).data.length < 0x10000 := by
  have hcount : (if 33 + msg.field 32 1 * 2 + 2 ≤ msg.length then
      msg.field (33 + msg.field 32 1 * 2) 2 else 0) < 0x10000 := by
    split
    · exact Bytes.field_lt _ _ _
    · decide
  exact Nat.lt_of_le_of_lt (Bytes.sub_length_le _ _ _) hcount

/-! ## Session and tree commands -/

theorem yields_hEcho {r : Req} (hr : r.data.length < 0x10000) :
    Yields (hEcho r) s Reply.Sendable := by
  unfold hEcho
  simp only [yields_pack_bind, yields_pure, sendable_done, Struct.length_flatMap]
  exact ⟨by decide, by decide, by decide, hr⟩

theorem yields_hLogoff : Yields hLogoff s Reply.Sendable := by
  unfold hLogoff
  simp only [yields_pack_bind, yields_pure, sendable_done, Struct.length_flatMap]
  decide

theorem yields_hQueryDisk : Yields hQueryDisk s Reply.Sendable := by
  unfold hQueryDisk
  simp only [yields_pack_bind, yields_pure, sendable_done, Struct.length_flatMap]
  decide

theorem yields_hClose {r : Req} : Yields (hClose r) s Reply.Sendable := by
  unfold hClose
  simp only [yields_modify_bind, yields_pure, sendable_done]
  decide

theorem yields_hTreeDisconnect {r : Req} : Yields (hTreeDisconnect r) s Reply.Sendable := by
  unfold hTreeDisconnect
  simp only [yields_modify_bind, yields_pure, sendable_done]
  decide

theorem length_dialects (fuel : Nat) (d : Bytes) : (dialects fuel d).length ≤ fuel := by
  induction fuel generalizing d with
  | zero => exact Nat.le_of_eq (by simp [dialects])
  | succ fuel ih =>
      cases d with
      | nil => exact Nat.le_trans (Nat.le_of_eq (by simp [dialects])) (Nat.zero_le _)
      | cons b rest =>
          rw [dialects]
          split
          · rw [List.length_cons]
            exact Nat.succ_le_succ (ih _)
          · exact Nat.le_succ_of_le (ih rest)

variable (cfg) in
theorem selectDialect_le (offered : List Name) :
    (selectDialect cfg offered).1 ≤ offered.length ∧ (selectDialect cfg offered).2 < 0x100 := by
  unfold selectDialect
  dsimp only
  split
  · exact ⟨List.idxOf_le_length, (by decide : 2 < 0x100)⟩
  · refine ⟨?_, (by decide : 0 < 0x100)⟩
    dsimp only
    split
    · exact List.idxOf_le_length
    · exact Nat.zero_le _

/-- The texts of the replies fit the count of bytes. -/
theorem texts_short : "WORKGROUP\x00".toUTF8.toList.length < 65536 ∧
    "OPLSMB\x00OPLSMB\x00".toUTF8.toList.length < 65536 ∧
    ("IPC\x00".toUTF8.toList ++ "NTFS\x00".toUTF8.toList).length < 65536 ∧
    ("A:\x00".toUTF8.toList ++ "NTFS\x00".toUTF8.toList).length < 65536 := by
  decide +kernel

theorem yields_hNegotiate {r : Req} (hr : r.data.length < 0x10000) :
    Yields (hNegotiate cfg r) s Reply.Sendable := by
  obtain ⟨hindex, hmode⟩ :=
    selectDialect_le cfg (dialects r.data.length r.data)
  have hlength := length_dialects r.data.length r.data
  unfold hNegotiate
  generalize selectDialect cfg (dialects r.data.length r.data) = choice at hindex hmode ⊢
  simp only [yields_pack_bind, yields_pure, sendable_done, Struct.length_flatMap]
  refine ⟨?_, by simp [Struct.calcsize, Item.size], (by decide : 34 < 0x200), texts_short.1⟩
  have hfits : choice.1 < 0x10000 := by omega
  simp [Item.fits, hfits, hmode, SERVER_CAPS]

/-- The account and password of a SESSION_SETUP_ANDX. -/
def Req.logon (r : Req) : Name × List Char :=
  if r.wordcount < 13 then ([], [])
  else
    let ansiLen := r.params.field 14 2
    let uniLen := r.params.field 16 2
    let uni := (r.data.drop ansiLen).take uniLen
    let password := (ascii (rstrip 0 (r.data.take ansiLen))).map fun b => Char.ofNat b.toNat
    (ascii (cString (r.data.drop (ansiLen + uniLen))),
      if password = [] ∧ uni ≠ [] then
        ((decodeUtf16 uni).reverse.dropWhile (· = Char.ofNat 0)).reverse
      else password)

def isAscii (text : List Char) : Bool := text.all (·.toNat < 128)

variable (cfg) in
/-- The parameters hold both lengths, and for a configured account the password sent and the one
configured are ASCII. -/
def SessionSetupServable (r : Req) : Prop :=
  cfg.users ≠ [] →
    (13 ≤ r.wordcount → 18 ≤ r.params.length) ∧
      ∀ expected, cfg.users.lookup (toStr (r.logon.1.map lowerByte)) = some expected →
        isAscii r.logon.2 ∧ isAscii expected.toList

theorem yields_parseSessionSetup {r : Req} {f : Name × List Char → Handler H F α} :
    Yields (parseSessionSetup r >>= f) s P ↔
      (13 ≤ r.wordcount → 18 ≤ r.params.length) ∧ Yields (f r.logon) s P := by
  unfold parseSessionSetup Req.logon
  by_cases hwords : r.wordcount < 13
  · have hcount : ¬ 13 ≤ r.wordcount := by omega
    rw [if_pos hwords, if_pos hwords, yields_bind_ok (pure_apply _ s)]
    simp only [hcount, false_implies, true_and]
  · have hcount : 13 ≤ r.wordcount := by omega
    rw [if_neg hwords, if_neg hwords]
    simp only [bind_assoc, yields_unpack_bind, hcount, true_implies]
    have hlengths : 14 + 2 ≤ r.params.length ∧ 16 + 2 ≤ r.params.length ↔
        18 ≤ r.params.length := by omega
    rw [← and_assoc, hlengths]
    apply and_congr_right
    intro _
    split
    · exact yields_bind_ok (pure_apply _ s)
    · exact yields_bind_ok (pure_apply _ s)

theorem yields_credentials {r : Req} {f : Bool → Handler H F α} (hf : ∀ b, Yields (f b) s P) :
    Yields (credentials cfg r >>= f) s P ↔
      (13 ≤ r.wordcount → 18 ≤ r.params.length) ∧
        ∀ expected, cfg.users.lookup (toStr (r.logon.1.map lowerByte)) = some expected →
          isAscii r.logon.2 ∧ isAscii expected.toList := by
  unfold credentials
  rw [bind_assoc, yields_parseSessionSetup]
  apply and_congr_right
  intro _
  obtain ⟨account, password⟩ := r.logon
  dsimp only
  cases hlookup : cfg.users.lookup (toStr (account.map lowerByte)) with
  | none =>
      rw [yields_bind_ok (pure_apply _ s)]
      exact iff_of_true (hf false) fun expected h => by cases h
  | some expected =>
      simp only [yields_orRaise_bind, hf, and_true, Option.some.injEq, forall_eq']
      unfold compareDigest isAscii
      by_cases h : (password.all (·.toNat < 128) && expected.toList.all (·.toNat < 128)) = true
      · rw [if_pos h]
        exact iff_of_true ⟨_, rfl⟩ (Bool.and_eq_true_iff.mp h)
      · rw [if_neg h]
        exact iff_of_false (fun hs => by cases hs.choose_spec)
          fun hs => h (Bool.and_eq_true_iff.mpr hs)

theorem yields_hSessionSetup {r : Req} :
    Yields (hSessionSetup cfg r) s Reply.Sendable ↔ SessionSetupServable cfg r := by
  have hrest : ∀ ok : Bool, Yields (if ok then do
        modify fun s => { s with
          conn := { s.conn with uid := if s.conn.uid = 0 then 0x0800 else s.conn.uid } }
        let s ← get
        let params ← pack [.B 0xff, .B 0, .H 0, .H (if cfg.users = [] then 1 else 0)]
        return ⟨params, "OPLSMB\x00OPLSMB\x00".toUTF8.toList, STATUS_SUCCESS, some s.conn.uid, none⟩
      else (return .fail STATUS_LOGON_FAILURE) : Handler H F Reply) s Reply.Sendable := by
    intro ok
    cases ok with
    | false => exact yields_pure.mpr (sendable_fail (by decide))
    | true =>
        rw [if_pos rfl]
        simp only [yields_modify_bind, yields_get_bind, yields_pack_bind, yields_pure]
        refine ⟨?_, sendable_packed (by simp [Struct.calcsize, Item.size])
          (by simp [Struct.calcsize, Item.size]) texts_short.2.1⟩
        split <;> rfl
  unfold hSessionSetup logon SessionSetupServable
  by_cases husers : cfg.users = []
  · rw [if_pos husers, yields_bind_ok (pure_apply _ s)]
    exact iff_of_true (hrest true) fun h => absurd husers h
  · rw [if_neg husers, yields_credentials hrest]
    simp only [ne_eq, husers, not_false_eq_true, true_implies]

theorem yields_parseTreeconnectPath {r : Req} {f : Name → Handler H F α} :
    Yields (parseTreeconnectPath r >>= f) s P ↔
      (4 ≤ r.wordcount → 8 ≤ r.params.length) ∧
        Yields (f (((rstrip BACKSLASH (backslashes (ascii (cString (r.data.drop
          (if 4 ≤ r.wordcount then r.params.field 6 2 else 1)))))).reverse.takeWhile
            (· ≠ BACKSLASH)).reverse)) s P := by
  unfold parseTreeconnectPath passwordLength
  by_cases hwords : 4 ≤ r.wordcount
  · simp only [hwords, if_true, bind_assoc, yields_unpack_bind, true_implies, pure_bind]
  · simp only [hwords, if_false, pure_bind, false_implies, true_and]

theorem yields_hTreeConnect {r : Req} :
    Yields (hTreeConnect cfg r) s Reply.Sendable ↔
      (4 ≤ r.wordcount → 8 ≤ r.params.length) := by
  unfold hTreeConnect
  rw [yields_parseTreeconnectPath, and_iff_left]
  simp only [yields_get_bind, yields_modify_bind]
  split
  · exact yields_pure.mpr (sendable_fail (by decide))
  · simp only [yields_modify_bind, yields_pack_bind, yields_pure]
    refine ⟨by decide, sendable_packed (by decide) (by decide) ?_⟩
    split
    · exact texts_short.2.2.1
    · exact texts_short.2.2.2

/-! ## File commands -/

variable (ops) in
/-- The file can be opened for reading. -/
def OpenServable (s : State H F) (r : Req) : Prop :=
  ∀ share ∈ shareForTid s.conn r, ∀ path ∈ ops.resolve s.host share (ascii (cString r.data)),
    ∀ info ∈ ops.stat s.host path, info.isFile → (ops.openRead s.host path).isSome

theorem yields_addFile {file : OpenFile F} {f : Nat → Handler H F α} :
    Yields (addFile file >>= f) s P ↔
      Yields (f (allocate s.conn.nextFid 0x1000))
        { s with conn := { s.conn with
          nextFid := allocate s.conn.nextFid 0x1000
          files := store s.conn.files (allocate s.conn.nextFid 0x1000) file } } P := Iff.rfl

theorem yields_hOpenAndx {r : Req} :
    Yields (hOpenAndx ops r) s Reply.Sendable ↔ OpenServable ops s r := by
  have hmissing : Yields (pure (.fail STATUS_OBJECT_NAME_NOT_FOUND) : Handler H F Reply) s
      Reply.Sendable := yields_pure.mpr (sendable_fail (by decide))
  unfold hOpenAndx OpenServable
  rw [yields_get_bind]
  cases hshare : shareForTid s.conn r with
  | none => exact iff_of_true hmissing forall_mem_none
  | some share =>
      rw [forall_mem_some]
      cases hpath : ops.resolve s.host share (ascii (cString r.data)) with
      | none =>
          simp only [hpath]
          exact iff_of_true hmissing forall_mem_none
      | some path =>
          simp only [hpath, Option.bind_some, forall_mem_some]
          cases hinfo : ops.stat s.host path with
          | none => exact iff_of_true hmissing forall_mem_none
          | some info =>
              simp only [forall_mem_some]
              by_cases hfile : info.isFile = true
              · simp only [hfile, if_true, true_implies, newOpenFile, Bool.false_eq_true, if_false,
                  hinfo]
                cases hread : ops.openRead s.host path with
                | none => simp
                | some fh =>
                    have hfid := allocate_lt s.conn.nextFid 0x1000 (by decide)
                    have hsize : info.size % 0x100000000 < 0x100000000 := Nat.mod_lt _ (by decide)
                    rw [yields_orRaise_bind]
                    refine iff_of_true ⟨_, rfl, ?_⟩ rfl
                    rw [yields_addFile, yields_pack_done (by simp [Struct.calcsize, Item.size])
                      (by simp [Struct.calcsize, Item.size]) (by decide)]
                    simp [Item.fits, hfid, hsize]
              · simp only [hfile]
                exact iff_of_true hmissing (by simp)

/-- Size and time fit the reply. -/
def Info.Packable (info : Info) : Prop :=
  info.filetime < 0x8000000000000000 ∧ (info.isDir = false → info.size < 0x10000000000000000)

variable (ops cfg) in
/-- The size and time of what is opened or created fit the reply. -/
def CreateServable (s : State H F) (r : Req) : Prop :=
  ∀ share ∈ shareForTid s.conn r, 39 ≤ r.params.length →
    ∀ disposition ∈ dispositionOf (r.params.field 35 4),
    ∀ path ∈ ops.resolve s.host share (ascii (cString
      ((if r.data.head? = some 0 then r.data.tail else r.data).take (r.params.field 5 2)))),
    ∀ action host, ntCreate ops cfg s.host path disposition
      ((if 43 ≤ r.params.length then r.params.field 39 4 else 0) &&& 1 != 0) = .ok (action, host) →
    ∀ info ∈ ops.stat host path, (info.isDir = false → (ops.openRead host path).isSome) →
    info.Packable

theorem ntCreate_error {host : H} {path : String} {disposition : Disposition}
    {requestedDir : Bool} {status : Status}
    (h : ntCreate ops cfg host path disposition requestedDir = .error status) :
    status ≠ STATUS_SUCCESS := by
  unfold ntCreate at h
  split at h
  · split at h
    · cases h
      decide
    split at h
    · cases h
      decide
    split at h
    · split at h
      · cases h
        decide
      split at h
      · cases h
        decide
      · cases h
    · cases h
  · split at h
    · cases h
      decide
    split at h
    · cases h
      decide
    split at h
    · cases h
      decide
    split at h
    · cases h
      decide
    · cases h
      decide
    · cases h

theorem ntCreate_action {host host' : H} {path : String} {disposition : Disposition}
    {requestedDir : Bool} {action : Nat}
    (h : ntCreate ops cfg host path disposition requestedDir = .ok (action, host')) :
    action < 4 := by
  unfold ntCreate at h
  split at h
  · split at h
    · cases h
    split at h
    · cases h
    split at h
    · split at h
      · cases h
      split at h
      · cases h
      · cases h
        split <;> decide
    · cases h
      decide
  · split at h
    · cases h
    split at h
    · cases h
    split at h
    · cases h
    split at h
    · cases h
    · cases h
    · cases h
      decide

theorem fits_attributes (isDir : Bool) : attributes isDir < 0x100000000 := by
  cases isDir <;> decide

theorem yields_openCreated {host : H} {path : String} {action : Nat} (haction : action < 4) :
    Yields (openCreated ops host path action) s Reply.Sendable ↔
      ∀ info ∈ ops.stat host path, (info.isDir = false → (ops.openRead host path).isSome) →
        info.Packable := by
  have hdenied : Yields (pure (.fail STATUS_ACCESS_DENIED) : Handler H F Reply) s
      Reply.Sendable := yields_pure.mpr (sendable_fail (by decide))
  have hfid := allocate_lt s.conn.nextFid 0x1000 (by decide)
  have hact : action < 0x100000000 := by omega
  unfold openCreated
  cases hinfo : ops.stat host path with
  | none => exact iff_of_true hdenied forall_mem_none
  | some info =>
      rw [forall_mem_some]
      simp only [Option.map_some, Option.getD_some, newOpenFile, hinfo]
      cases hdir : info.isDir with
      | true =>
          simp only [if_true]
          rw [yields_addFile, yields_pack_done (by simp [Struct.calcsize, Item.size])
            (by simp [Struct.calcsize, Item.size]) (by decide)]
          simp [Item.fits, hfid, hact, fits_attributes, Info.Packable, hdir]
      | false =>
          cases hread : ops.openRead host path with
          | none =>
              simp only [Bool.false_eq_true, if_false]
              exact iff_of_true hdenied fun h => absurd (h trivial) Bool.false_ne_true
          | some fh =>
              simp only [Bool.false_eq_true, if_false]
              rw [yields_addFile, yields_pack_done (by simp [Struct.calcsize, Item.size])
                (by simp [Struct.calcsize, Item.size]) (by decide)]
              simp [Item.fits, hfid, hact, fits_attributes, Info.Packable, hdir]

theorem yields_hNtCreateAndx {r : Req} :
    Yields (hNtCreateAndx ops cfg r) s Reply.Sendable ↔ CreateServable ops cfg s r := by
  have hfail : ∀ status : Status, status ≠ STATUS_SUCCESS →
      Yields (pure (.fail status) : Handler H F Reply) s Reply.Sendable :=
    fun status h => yields_pure.mpr (sendable_fail h)
  unfold hNtCreateAndx CreateServable
  rw [yields_get_bind]
  cases hshare : shareForTid s.conn r with
  | none => exact iff_of_true (hfail _ (by decide)) forall_mem_none
  | some share =>
      rw [forall_mem_some]
      by_cases hlength : r.params.length < 39
      · simp only [hlength, if_true]
        exact iff_of_true (hfail _ (by decide)) fun h => absurd h (by omega)
      have hwords : 39 ≤ r.params.length := by omega
      simp only [hlength, if_false, hwords, true_implies]
      cases hdisposition : dispositionOf (r.params.field 35 4) with
      | none => exact iff_of_true (hfail _ (by decide)) forall_mem_none
      | some disposition =>
          simp only [forall_mem_some]
          cases hpath : ops.resolve s.host share (ascii (cString
              ((if r.data.head? = some 0 then r.data.tail else r.data).take
                (r.params.field 5 2)))) with
          | none => exact iff_of_true (hfail _ (by decide)) forall_mem_none
          | some path =>
              simp only [forall_mem_some]
              split
              · rename_i status hcreate
                refine iff_of_true (hfail _ (ntCreate_error hcreate)) ?_
                intro action host hcreate'
                cases hcreate.symm.trans hcreate'
              · rename_i action host hcreate
                rw [yields_set_bind, yields_openCreated (ntCreate_action hcreate)]
                constructor
                · intro h action' host' hcreate'
                  cases hcreate.symm.trans hcreate'
                  exact h
                · intro h
                  exact h action host hcreate

/-- The offset and count of a READ_ANDX. -/
def Req.readOffset (r : Req) : Nat :=
  r.params.field 6 4 + (if 24 ≤ r.params.length then r.params.field 20 4 else 0) * 0x100000000

def Req.readCount (r : Req) : Nat :=
  min (r.params.field 10 2 + r.params.field 14 2 * 0x10000) 0xFFFF

variable (ops) in
/-- The parameters are there, the offset is a file offset, and the file can be read there. -/
def ReadServable (s : State H F) (r : Req) : Prop :=
  16 ≤ r.params.length ∧
    ∀ file ∈ s.conn.files.lookup (r.params.field 4 2), ∀ fh ∈ file.fh,
      r.readOffset < OFFSET_LIMIT ∧ (ops.readAt s.host fh r.readOffset r.readCount).isSome

theorem yields_hReadAndx {r : Req} :
    Yields (hReadAndx ops r) s Reply.Sendable ↔ ReadServable ops s r := by
  have hmissing : Yields (pure (.fail STATUS_OBJECT_NAME_NOT_FOUND) : Handler H F Reply) s
      Reply.Sendable := yields_pure.mpr (sendable_fail (by decide))
  unfold hReadAndx ReadServable
  simp only [yields_unpack_bind, yields_get_bind]
  by_cases hlength : 16 ≤ r.params.length
  · have h4 : 4 + 2 ≤ r.params.length := by omega
    have h6 : 6 + 4 ≤ r.params.length := by omega
    have h10 : 10 + 2 ≤ r.params.length := by omega
    simp only [h4, h6, h10, hlength, Nat.reduceAdd, true_and]
    cases hfile : s.conn.files.lookup (r.params.field 4 2) with
    | none => exact iff_of_true hmissing forall_mem_none
    | some file =>
        rw [forall_mem_some]
        cases hfh : file.fh with
        | none =>
            simp only [hfh]
            exact iff_of_true hmissing forall_mem_none
        | some fh =>
            simp only [hfh, forall_mem_some, yields_orRaise_bind, yields_set_bind]
            change (∃ b, (if r.readOffset < OFFSET_LIMIT then
              ops.readAt s.host fh r.readOffset r.readCount else none) = some b ∧ _) ↔ _
            by_cases hoffset : r.readOffset < OFFSET_LIMIT
            · rw [if_pos hoffset, and_iff_right hoffset]
              cases hread : ops.readAt s.host fh r.readOffset r.readCount with
              | none => exact iff_of_false (fun h => by cases h.choose_spec.1) Bool.false_ne_true
              | some result =>
                  obtain ⟨chunk, after⟩ := result
                  refine iff_of_true ⟨(chunk, after), rfl, ?_⟩ rfl
                  have hchunk := ops.readAt_length hread
                  have hcount : r.readCount ≤ 0xFFFF := Nat.min_le_right _ _
                  have hlow : chunk.length % 0x10000 < 0x10000 := Nat.mod_lt _ (by decide)
                  have hhigh : chunk.length / 0x10000 < 0x100000000 := by omega
                  have hdata : chunk.length < 0x10000 := by omega
                  rw [yields_pack_done (by simp [Struct.calcsize, Item.size])
                    (by simp [Struct.calcsize, Item.size]) hdata]
                  simp [Item.fits, hlow, hhigh]
            · rw [if_neg hoffset]
              exact iff_of_false (fun h => by cases h.choose_spec.1) fun h => hoffset h.1
  · refine iff_of_false (fun h => ?_) fun h => hlength h.1
    obtain ⟨-, -, -, h14, -⟩ := h
    exact hlength h14

variable (ops) in
/-- The parameters are there, and the offset is a file offset unless the file cannot be opened for
writing. -/
def WriteServable (s : State H F) (r : Req) : Prop :=
  24 ≤ r.params.length ∧
    ∀ file ∈ s.conn.files.lookup (r.params.field 4 2), ops.openWrite s.host file.path →
      r.params.field 6 4 + (if 28 ≤ r.params.length then r.params.field 24 4 else 0) * 0x100000000 <
        OFFSET_LIMIT

theorem yields_writeAndx {r : Req} :
    Yields (writeAndx ops r) s Reply.Sendable ↔ WriteServable ops s r := by
  have hdenied : Yields (pure (.fail STATUS_ACCESS_DENIED) : Handler H F Reply) s
      Reply.Sendable := yields_pure.mpr (sendable_fail (by decide))
  unfold writeAndx WriteServable
  simp only [yields_unpack_bind, yields_get_bind]
  by_cases hlength : 24 ≤ r.params.length
  · have h4 : 4 + 2 ≤ r.params.length := by omega
    have h6 : 6 + 4 ≤ r.params.length := by omega
    have h18 : 18 + 2 ≤ r.params.length := by omega
    have h20 : 20 + 2 ≤ r.params.length := by omega
    simp only [h4, h6, h18, h20, hlength, Nat.reduceAdd, true_and]
    cases hfile : s.conn.files.lookup (r.params.field 4 2) with
    | none => exact iff_of_true hdenied forall_mem_none
    | some file =>
        simp only [forall_mem_some]
        generalize r.params.field 6 4 +
          (if 28 ≤ r.params.length then r.params.field 24 4 else 0) * 0x100000000 = offset
        cases hopen : ops.openWrite s.host file.path with
        | false => exact iff_of_true hdenied fun h => absurd h Bool.false_ne_true
        | true =>
            simp only [Bool.not_true, Bool.false_eq_true, if_false, true_implies]
            by_cases hoffset : OFFSET_LIMIT ≤ offset
            · rw [if_pos hoffset]
              exact iff_of_false yields_throw (by omega)
            · rw [if_neg hoffset]
              refine iff_of_true ?_ (by omega)
              split
              · exact hdenied
              · rw [yields_set_bind, yields_pack_done (by simp [Struct.calcsize, Item.size])
                  (by simp [Struct.calcsize, Item.size]) (by decide)]
                simp [Item.fits, Nat.mod_lt]
  · refine iff_of_false (fun h => ?_) fun h => hlength h.1
    obtain ⟨-, -, -, -, h22, -⟩ := h
    exact hlength h22

theorem yields_hWriteAndx {r : Req} :
    Yields (hWriteAndx ops cfg r) s Reply.Sendable ↔
      (cfg.readOnly = false → WriteServable ops s r) := by
  unfold hWriteAndx
  cases cfg.readOnly with
  | true =>
      rw [if_pos rfl]
      exact iff_of_true (yields_pure.mpr (sendable_fail (by decide))) fun h => by cases h
  | false =>
      rw [if_neg Bool.false_ne_true, yields_writeAndx]
      exact ⟨fun h _ => h, fun h => h rfl⟩

theorem yields_hCreateDirectory {r : Req} :
    Yields (hCreateDirectory ops cfg r) s Reply.Sendable := by
  have hfail : ∀ status : Status, status ≠ STATUS_SUCCESS →
      Yields (pure (.fail status) : Handler H F Reply) s Reply.Sendable :=
    fun status h => yields_pure.mpr (sendable_fail h)
  unfold hCreateDirectory
  split
  · exact hfail _ (by decide)
  unfold createDirectory
  rw [yields_get_bind]
  split
  · exact hfail _ (by decide)
  dsimp only
  split
  · exact hfail _ (by decide)
  split
  · exact hfail _ (by decide)
  split
  · exact hfail _ (by decide)
  split
  · exact hfail _ (by decide)
  · exact hfail _ (by decide)
  · rw [yields_set_bind, yields_pure, sendable_done]
    decide

theorem yields_hCheckDirectory {r : Req} :
    Yields (hCheckDirectory ops r) s Reply.Sendable := by
  unfold hCheckDirectory
  rw [yields_get_bind]
  split
  · exact yields_pure.mpr (sendable_fail (by decide))
  dsimp only
  split
  · exact yields_pure.mpr (sendable_done.mpr (by decide))
  · exact yields_pure.mpr (sendable_fail (by decide))

end Ps2Servers.Smb1
