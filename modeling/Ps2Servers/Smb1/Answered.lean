import Ps2Servers.Smb1.Gate
import Ps2Servers.Smb1.Replies

/-!
# Every request is answered, or the connection ends

The TRANS2 and TRANSACTION commands, and the condition under which a connection sends
exactly one reply to a request and goes on.
-/

namespace Ps2Servers.Smb1

open Effects
open Struct (Item)

variable {H F : Type} {ops : Ops H F} {cfg : Config} {s : State H F}

/-! ## Transactions -/

/-- The bytes of the data block behind `n` parameter bytes fit its count. -/
theorem yields_transReply {tParams tData : Bytes} (hparams : tParams.length ≤ 10) :
    Yields (transReply tParams tData : Handler H F Reply) s Reply.Sendable ↔
      align4 (56 + tParams.length) - 55 + tData.length < 0x10000 := by
  unfold transReply
  have hoff : align4 55 = 56 := rfl
  have hle : 56 + tParams.length ≤ align4 (56 + tParams.length) ∧
      align4 (56 + tParams.length) ≤ 68 := by
    unfold align4
    omega
  simp only [hoff, yields_pack_bind, yields_pure]
  constructor
  · rintro ⟨-, hsend⟩
    obtain ⟨-, -, hdata⟩ := sendable_done.mp hsend
    simp only [List.length_append, List.length_replicate] at hdata
    omega
  · intro hdata
    refine ⟨?_, sendable_packed (by simp [Struct.calcsize, Item.size])
      (by simp [Struct.calcsize, Item.size]) ?_⟩
    · have hp : tParams.length < 0x10000 := by omega
      have hd : tData.length < 0x10000 := by omega
      have ho : align4 (56 + tParams.length) < 0x10000 := by omega
      simp [Item.fits, hp, hd, ho]
    · simp only [List.length_append, List.length_replicate]
      omega

theorem entryInfo_packable (host : H) (name path : String) :
    (entryInfo ops host name path).2.2 < 0x8000000000000000 ∧
        (entryInfo ops host name path).2.1 < 0x10000000000000000 ↔
      ∀ info ∈ ops.stat host path, info.Packable := by
  unfold entryInfo
  cases ops.stat host path with
  | none => exact iff_of_true ⟨Nat.zero_lt_succ _, Nat.zero_lt_succ _⟩ forall_mem_none
  | some info =>
      rw [forall_mem_some]
      dsimp only [Info.Packable]
      apply and_congr_right
      intro _
      cases info.isDir with
      | true => exact iff_of_true (Nat.zero_lt_succ _) fun h => by cases h
      | false => exact ⟨fun h _ => h, fun h => h rfl⟩

/-- The reply that lists one entry. -/
theorem yields_entryReply {host : H} {name path : String} {tParams : Bytes}
    (hparams : tParams.length ≤ 10) :
    Yields (dirEntry104 ops host name path >>= transReply tParams) s Reply.Sendable ↔
      (∀ info ∈ ops.stat host path, info.Packable) ∧
        align4 (56 + tParams.length) + (encodeAscii name).length < 0x10000 - 39 := by
  unfold dirEntry104
  rw [← entryInfo_packable host name path]
  obtain ⟨isDir, size, time⟩ := entryInfo ops host name path
  have hle : 56 ≤ align4 (56 + tParams.length) := by
    unfold align4
    omega
  have hattributes := fits_attributes isDir
  simp only [bind_assoc, yields_pack_bind, pure_bind]
  rw [yields_transReply hparams, List.length_append, Struct.length_flatMap]
  have hsize : Struct.calcsize [.I 0, .I 0, .q time, .q time, .q time, .q time, .Q size, .Q size,
      .I (attributes isDir), .I (encodeAscii name).length, .I 0, .B 0, .B 0, .zeros 24] = 94 := by
    simp [Struct.calcsize, Item.size]
  rw [hsize]
  simp only [List.all_cons, List.all_nil, Item.fits, Bool.and_eq_true, decide_eq_true_eq,
    hattributes]
  constructor
  · rintro ⟨⟨-, -, htime, -, -, -, hsize, -⟩, htotal⟩
    exact ⟨⟨htime, hsize⟩, by omega⟩
  · rintro ⟨⟨htime, hsize⟩, htotal⟩
    exact ⟨⟨by decide, by decide, htime, htime, htime, htime, hsize, hsize, trivial, by omega,
      by decide, by decide, by decide, trivial, trivial⟩, by omega⟩

variable (ops) in
/-- The time of the directory listed fits its record. -/
def FindFirstServable (s : State H F) (r : Req) (tParams : Bytes) : Prop :=
  ∀ share ∈ shareForTid s.conn r,
    ∀ path ∈ ops.resolve s.host share (orRoot (searchDir (ascii (cString (tParams.drop 12))))),
    ∀ info ∈ ops.stat s.host path, (ops.listDir s.host path).isSome → info.isDir → info.Packable

theorem yields_hFindFirst2 {r : Req} {tParams : Bytes} :
    Yields (hFindFirst2 ops r tParams) s Reply.Sendable ↔ FindFirstServable ops s r tParams := by
  have hmissing : Yields (pure (.fail STATUS_OBJECT_NAME_NOT_FOUND) : Handler H F Reply) s
      Reply.Sendable := yields_pure.mpr (sendable_fail (by decide))
  have hsid := allocate_lt s.conn.nextSid 1 (by decide)
  unfold hFindFirst2 FindFirstServable
  rw [yields_get_bind]
  cases hshare : shareForTid s.conn r with
  | none => exact iff_of_true hmissing forall_mem_none
  | some share =>
      simp only [forall_mem_some]
      cases hpath : ops.resolve s.host share
          (orRoot (searchDir (ascii (cString (tParams.drop 12))))) with
      | none => exact iff_of_true hmissing forall_mem_none
      | some path =>
          simp only [Option.bind_some, forall_mem_some]
          cases hinfo : ops.stat s.host path with
          | none => exact iff_of_true hmissing forall_mem_none
          | some info =>
              rw [forall_mem_some]
              cases hnames : ops.listDir s.host path with
              | none => exact iff_of_true hmissing fun h => absurd h Bool.false_ne_true
              | some names =>
                  by_cases hdir : info.isDir = true
                  · simp only [hdir, if_true, Option.isSome_some, true_implies, yields_set_bind,
                      yields_pack_bind]
                    have hlength : ∀ sid : Nat, ([.H sid, .H 1, .H 0, .H 0, .H 0].flatMap
                        Item.bytes).length = 10 := fun sid => by
                      rw [Struct.length_flatMap]
                      rfl
                    have hshort : (encodeAscii ".").length = 1 := rfl
                    rw [yields_entryReply (Nat.le_of_eq (hlength _)), hinfo, forall_mem_some,
                      hlength, hshort]
                    simp [Item.fits, hsid, align4]
                  · simp only [hdir]
                    exact iff_of_true hmissing fun _ h => by cases h

variable (ops) in
/-- The search id is there, and the entry that is next fits its record. -/
def FindNextServable (s : State H F) (tParams : Bytes) : Prop :=
  2 ≤ tParams.length ∧
    ∀ search ∈ s.conn.searches.lookup (tParams.field 0 2), ∀ e ∈ search.entries[search.cursor]?,
      (∀ info ∈ ops.stat s.host e.2, info.Packable) ∧ (encodeAscii e.1).length < 65433

theorem yields_hFindNext2 {tParams : Bytes} :
    Yields (hFindNext2 ops tParams) s Reply.Sendable ↔ FindNextServable ops s tParams := by
  have hlength : ∀ count last : Nat, ([.H count, .H last, .H 0, .H 0].flatMap
      Item.bytes).length = 8 := fun count last => by
    rw [Struct.length_flatMap]
    rfl
  have hfinished : ∀ t : State H F, Yields (pack [.H 0, .H 1, .H 0, .H 0] >>= fun tParams =>
      transReply tParams []) t Reply.Sendable := by
    intro t
    rw [yields_pack_bind, yields_transReply (by rw [hlength]; decide), hlength]
    exact ⟨by decide, by decide⟩
  unfold hFindNext2 FindNextServable
  simp only [yields_unpack_bind, yields_get_bind, Nat.zero_add]
  apply and_congr_right
  intro _
  cases hsearch : s.conn.searches.lookup (tParams.field 0 2) with
  | none => exact iff_of_true (hfinished s) forall_mem_none
  | some search =>
      rw [forall_mem_some]
      cases hentry : search.entries[search.cursor]? with
      | none =>
          simp only [hentry, yields_set_bind]
          exact iff_of_true (hfinished _) forall_mem_none
      | some e =>
          obtain ⟨name, path⟩ := e
          simp only [hentry, forall_mem_some, yields_set_bind, yields_pack_bind]
          rw [yields_entryReply (by rw [hlength]; decide), hlength, and_iff_right]
          · apply and_congr_right
            intro _
            have halign : align4 (56 + 8) = 64 := rfl
            omega
          · split <;> rfl

variable (ops) in
/-- The level is there, and the size or time it asks for fits its record. -/
def QueryPathServable (s : State H F) (r : Req) (tParams : Bytes) : Prop :=
  2 ≤ tParams.length ∧
    ∀ share ∈ shareForTid s.conn r,
    ∀ path ∈ ops.resolve s.host share (orRoot (ascii (cString (tParams.drop 6)))),
    ∀ info ∈ ops.stat s.host path,
      if tParams.field 0 2 = 0x0102 then info.isDir = false → info.size < 0x10000000000000000
      else info.filetime < 0x8000000000000000

theorem yields_hQueryPath {r : Req} {tParams : Bytes} :
    Yields (hQueryPath ops r tParams) s Reply.Sendable ↔ QueryPathServable ops s r tParams := by
  have hmissing : Yields (pure (.fail STATUS_OBJECT_NAME_NOT_FOUND) : Handler H F Reply) s
      Reply.Sendable := yields_pure.mpr (sendable_fail (by decide))
  unfold hQueryPath QueryPathServable
  simp only [yields_unpack_bind, yields_get_bind, Nat.zero_add]
  apply and_congr_right
  intro _
  cases hshare : shareForTid s.conn r with
  | none => exact iff_of_true hmissing forall_mem_none
  | some share =>
      simp only [forall_mem_some]
      cases hpath : ops.resolve s.host share (orRoot (ascii (cString (tParams.drop 6)))) with
      | none => exact iff_of_true hmissing forall_mem_none
      | some path =>
          simp only [Option.bind_some, forall_mem_some]
          cases hinfo : ops.stat s.host path with
          | none => exact iff_of_true hmissing forall_mem_none
          | some info =>
              simp only [forall_mem_some, yields_pack_bind]
              rw [yields_transReply (show ([] : Bytes).length ≤ 10 from Nat.zero_le 10),
                Struct.length_flatMap]
              by_cases hlevel : tParams.field 0 2 = 0x0102
              · simp only [hlevel, if_true]
                cases hdir : info.isDir with
                | true => simp [Item.fits, Struct.calcsize, Item.size, align4]
                | false => simp [Item.fits, Struct.calcsize, Item.size, align4]
              · simp [hlevel, Item.fits, Struct.calcsize, Item.size, align4, fits_attributes]

/-- The subcommand of a TRANS2 whose parameters hold it. -/
def Req.trans2Setup (r : Req) : Nat := if 1 ≤ r.params.field 26 1 then r.params.field 28 2 else 0

/-- The parameter block of a TRANS2. -/
def Req.trans2Params (r : Req) : Bytes := r.msg.sub (r.params.field 20 2) (r.params.field 18 2)

variable (ops) in
/-- The fixed words and the subcommand are there, and the subcommand can be served. -/
def Trans2Servable (s : State H F) (r : Req) : Prop :=
  27 ≤ r.params.length ∧ (1 ≤ r.params.field 26 1 → 30 ≤ r.params.length) ∧
    (r.trans2Setup = 1 → FindFirstServable ops s r r.trans2Params) ∧
    (r.trans2Setup = 2 → FindNextServable ops s r.trans2Params) ∧
    (r.trans2Setup = 5 → QueryPathServable ops s r r.trans2Params)

theorem yields_trans2Setup {α : Type} {r : Req} {f : Nat → Handler H F α} {P : α → Prop} :
    Yields (trans2Setup r (r.params.field 26 1) >>= f) s P ↔
      (1 ≤ r.params.field 26 1 → 30 ≤ r.params.length) ∧ Yields (f r.trans2Setup) s P := by
  unfold trans2Setup Req.trans2Setup
  by_cases hcount : 1 ≤ r.params.field 26 1
  · simp only [hcount, if_true, yields_unpack_bind, Nat.reduceAdd, true_implies]
  · simp only [hcount, if_false, pure_bind, false_implies, true_and]

theorem yields_hTrans2 {r : Req} :
    Yields (hTrans2 ops r) s Reply.Sendable ↔ Trans2Servable ops s r := by
  unfold hTrans2 Trans2Servable
  simp only [yields_unpack_bind, yields_trans2Setup]
  by_cases hlength : 27 ≤ r.params.length
  · have h18 : 18 + 2 ≤ r.params.length := by omega
    have h20 : 20 + 2 ≤ r.params.length := by omega
    have h22 : 22 + 2 ≤ r.params.length := by omega
    have h24 : 24 + 2 ≤ r.params.length := by omega
    simp only [h18, h20, h22, h24, hlength, Nat.reduceAdd, true_and]
    apply and_congr_right
    intro _
    change Yields (trans2Command ops r r.trans2Setup r.trans2Params) s Reply.Sendable ↔ _
    unfold trans2Command
    split
    · rename_i h
      simp [h, yields_hFindFirst2]
    · rename_i h
      simp [h, yields_hFindNext2]
    · rename_i h
      simp [h, yields_hQueryPath]
    · rename_i h1 h2 h5
      refine iff_of_true (yields_pure.mpr (sendable_fail (by decide))) ⟨?_, ?_, ?_⟩
      · exact fun h => absurd h h1
      · exact fun h => absurd h h2
      · exact fun h => absurd h h5
  · refine iff_of_false (fun h => ?_) fun h => hlength h.1
    obtain ⟨-, -, -, -, h26, -⟩ := h
    exact hlength h26

theorem length_name13 (share : Share) : (name13 share).length = 13 := by
  rw [name13, List.length_append, List.length_take, List.length_replicate]
  omega

theorem length_shareRecords {total i : Nat} {shares : List Share} {records : Bytes}
    (h : shareRecords total i shares = some records) : records.length = 20 * shares.length := by
  induction shares generalizing i records with
  | nil =>
      cases h
      rfl
  | cons share rest ih =>
      rw [shareRecords] at h
      cases hfields : Struct.pack [.B 0, .H 0, .I (20 * total + i)] with
      | none =>
          rw [hfields] at h
          cases h
      | some fields =>
          cases hrest : shareRecords total (i + 1) rest with
          | none =>
              rw [hfields, hrest] at h
              cases h
          | some others =>
              rw [hfields, hrest] at h
              cases h
              have hlength := Struct.length_pack hfields
              have hothers := ih hrest
              have hsize : Struct.calcsize [.B 0, .H 0, .I (20 * total + i)] = 7 := rfl
              rw [List.length_append, List.length_append, length_name13, hlength, hsize, hothers,
                List.length_cons]
              omega

theorem shareRecords_isSome (total i : Nat) {shares : List Share}
    (h : 20 * total + i + shares.length < 0x100000000) :
    (shareRecords total i shares).isSome := by
  induction shares generalizing i with
  | nil => rfl
  | cons share rest ih =>
      rw [List.length_cons] at h
      have hplace : 20 * total + i < 0x100000000 := by omega
      have hfields : Struct.pack [.B 0, .H 0, .I (20 * total + i)] =
          some ([.B 0, .H 0, .I (20 * total + i)].flatMap Item.bytes) :=
        Struct.pack_eq_some.mpr ⟨by simp [Item.fits, hplace], rfl⟩
      obtain ⟨records, hrecords⟩ := Option.isSome_iff_exists.mp (ih (i + 1) (by omega))
      rw [shareRecords, hfields, hrecords]
      rfl

theorem yields_hTransaction :
    Yields (hTransaction cfg) s Reply.Sendable ↔ cfg.shares.length ≤ 3120 := by
  have hlength : ∀ n : Nat, ([.H 0, .H 0, .H n, .H n].flatMap Item.bytes).length = 8 := fun n => by
    rw [Struct.length_flatMap]
    rfl
  have halign : align4 (56 + 8) = 64 := rfl
  unfold hTransaction
  simp only [yields_orRaise_bind, yields_pack_bind]
  constructor
  · rintro ⟨records, hrecords, -, h⟩
    rw [yields_transReply (by rw [hlength]; decide), hlength, halign, List.length_append,
      length_shareRecords hrecords, List.length_replicate] at h
    omega
  · intro h
    obtain ⟨records, hrecords⟩ := Option.isSome_iff_exists.mp
      (shareRecords_isSome cfg.shares.length 0 (show 20 * cfg.shares.length + 0 +
        cfg.shares.length < 0x100000000 by omega))
    have hn : cfg.shares.length < 0x10000 := by omega
    refine ⟨records, hrecords, by simp [Item.fits, hn], ?_⟩
    rw [yields_transReply (by rw [hlength]; decide), hlength, halign, List.length_append,
      length_shareRecords hrecords, List.length_replicate]
    omega

/-! ## Requests -/

variable (ops cfg) in
/-- What a request needs to be answered, command by command. -/
def Servable (s : State H F) (r : Req) : Prop :=
  match r.cmd with
  | .sessionSetupAndx => SessionSetupServable cfg r
  | .treeConnectAndx => 4 ≤ r.wordcount → 8 ≤ r.params.length
  | .openAndx => OpenServable ops s r
  | .ntCreateAndx => CreateServable ops cfg s r
  | .readAndx => ReadServable ops s r
  | .writeAndx => cfg.readOnly = false → WriteServable ops s r
  | .trans2 => Trans2Servable ops s r
  | .transaction => cfg.shares.length ≤ 3120
  | _ => True

theorem yields_handle {r : Req} (hr : r.data.length < 0x10000) :
    Yields (handle ops cfg r) s Reply.Sendable ↔ Servable ops cfg s r := by
  unfold handle Servable
  cases r.cmd with
  | createDirectory => exact iff_of_true yields_hCreateDirectory trivial
  | close => exact iff_of_true yields_hClose trivial
  | checkDirectory => exact iff_of_true yields_hCheckDirectory trivial
  | transaction => exact yields_hTransaction
  | echo => exact iff_of_true (yields_hEcho hr) trivial
  | openAndx => exact yields_hOpenAndx
  | readAndx => exact yields_hReadAndx
  | writeAndx => exact yields_hWriteAndx
  | trans2 => exact yields_hTrans2
  | treeDisconnect => exact iff_of_true yields_hTreeDisconnect trivial
  | negotiate => exact iff_of_true (yields_hNegotiate hr) trivial
  | sessionSetupAndx => exact yields_hSessionSetup
  | logoffAndx => exact iff_of_true yields_hLogoff trivial
  | treeConnectAndx => exact yields_hTreeConnect
  | queryInformationDisk => exact iff_of_true yields_hQueryDisk trivial
  | ntCreateAndx => exact yields_hNtCreateAndx
  | other code => exact iff_of_true (yields_pure.mpr (sendable_fail (by decide))) trivial

/-- A request is answered by one message that repeats its command and numbers. -/
def IsReply (r : Req) (reply : Bytes) : Prop :=
  reply.take 4 = SMB_MAGIC ∧ reply.field 4 1 = r.code % 0x100 ∧
    reply.field 26 2 = r.pid % 0x10000 ∧ reply.field 30 2 = r.mid % 0x10000

theorem exchange_ok_iff {r : Req} (hr : r.data.length < 0x10000) :
    (∃ reply s', exchange ops cfg r s = .ok reply s') ↔ Servable ops cfg s r := by
  rw [← yields_handle hr]
  constructor
  · rintro ⟨reply, s', h⟩
    cases hhandle : handle ops cfg r s with
    | error e t =>
        rw [exchange, bind_error hhandle] at h
        cases h
    | ok a t =>
        refine ⟨a, t, hhandle, ?_⟩
        rw [exchange, bind_ok hhandle] at h
        cases hrespond : respond r a with
        | none =>
            rw [hrespond] at h
            cases h
        | some bytes => exact respond_isSome.mp (Option.isSome_iff_exists.mpr ⟨bytes, hrespond⟩)
  · rintro ⟨a, t, hhandle, hsend⟩
    obtain ⟨bytes, hbytes⟩ := Option.isSome_iff_exists.mp (respond_isSome.mpr hsend)
    refine ⟨bytes, t, ?_⟩
    rw [exchange, bind_ok hhandle, hbytes]
    rfl

theorem exchange_isReply {r : Req} {reply : Bytes} {s' : State H F}
    (h : exchange ops cfg r s = .ok reply s') : IsReply r reply := by
  cases hhandle : handle ops cfg r s with
  | error e t =>
      rw [exchange, bind_error hhandle] at h
      cases h
  | ok a t =>
      rw [exchange, bind_ok hhandle] at h
      cases hrespond : respond r a with
      | none =>
          rw [hrespond] at h
          cases h
      | some bytes =>
          rw [hrespond] at h
          cases h
          exact respond_header hrespond

theorem serve_ok {msg : Message} {r : Req} {reply : Bytes} {s' : State H F}
    (hparse : parseReq msg = some r) (h : exchange ops cfg r s = .ok reply s')
    (rest : List Message) :
    serve ops cfg s (msg :: rest) =
      ((serve ops cfg s' rest).1, reply :: (serve ops cfg s' rest).2) := by
  rw [serve, hparse]
  dsimp only
  rw [h]

theorem serve_error {msg : Message} {r : Req} {e : Unit} {s' : State H F}
    (hparse : parseReq msg = some r) (h : exchange ops cfg r s = .error e s')
    (rest : List Message) : serve ops cfg s (msg :: rest) = (s', []) := by
  rw [serve, hparse]
  dsimp only
  rw [h]

variable (ops cfg) in
/-- Exactly one reply is sent for the message, and the connection stays open: what follows is
served from the state it leaves. -/
def Answered (s : State H F) (msg : Message) : Prop :=
  ∃ s' reply, IsReply (Req.ofMessage msg) reply ∧ ∀ rest,
    serve ops cfg s (msg :: rest) =
      ((serve ops cfg s' rest).1, reply :: (serve ops cfg s' rest).2)

end Ps2Servers.Smb1
