import Mathlib.Data.List.Nodup
import Ps2Servers.Smb1.Answered
import Ps2Servers.Smb1.Files
import Ps2Servers.Smb1.Pages

/-!
# Entries of a listing

A FIND_FIRST2 and the FIND_NEXT2s of its search give out the entries of a folder, one in each reply,
under the ASCII characters of their names.

## Implementation notes

Replies are read by the offsets they declare. The folder does not change while it is listed.
-/

namespace Ps2Servers.Smb1

open Effects Paging
open Struct (Item)

variable {F : Type} {files : Files F} {base : Ops (Files F) F} {cfg : Config}
  {s t : State (Files F) F} {r q : Req}

/-! ## Conversations -/

/-- The replies to requests that come one after the other, unless one ends the connection. -/
def converse {H F : Type} (ops : Ops H F) (cfg : Config) :
    State H F → List Req → Option (List Reply × State H F)
  | s, [] => some ([], s)
  | s, r :: rest =>
      match handle ops cfg r s with
      | .error _ _ => none
      | .ok reply s => (converse ops cfg s rest).map fun p => (reply :: p.1, p.2)

/-- A TRANS2 with this subcommand. -/
structure Trans2 (setup : Nat) (r : Req) : Prop where
  cmd : r.cmd = .trans2
  words : 27 ≤ r.params.length
  setupWord : 1 ≤ r.params.field 26 1 → 30 ≤ r.params.length
  setup : r.trans2Setup = setup

theorem unpack_ok {H F : Type} {bytes : Bytes} {offset size : Nat} (h : offset + size ≤ bytes.length)
    (s : State H F) : unpack bytes offset size s = .ok (bytes.field offset size) s := by
  rw [unpack, if_pos h]
  rfl

theorem pack_ok {H F : Type} {items : List Item} (h : items.all Item.fits) (s : State H F) :
    pack items s = .ok (items.flatMap Item.bytes) s := by
  rw [pack, Struct.pack, if_pos h]
  rfl

theorem handle_trans2 {H F : Type} {ops : Ops H F} {cfg : Config} {r : Req} {setup : Nat}
    (h : Trans2 setup r) (s : State H F) :
    handle ops cfg r s = trans2Command ops r setup r.trans2Params s := by
  have hwords := h.words
  have hsetup : trans2Setup r (r.params.field 26 1) s = .ok setup s := by
    have hvalue := h.setup
    unfold trans2Setup
    unfold Req.trans2Setup at hvalue
    split
    · rename_i hcount
      rw [if_pos hcount] at hvalue
      rw [unpack_ok (h.setupWord hcount), hvalue]
    · rename_i hcount
      rw [if_neg hcount] at hvalue
      rw [← hvalue]
      rfl
  unfold handle
  rw [h.cmd]
  change hTrans2 ops r s = _
  unfold hTrans2
  rw [bind_ok (unpack_ok (by omega) s), bind_ok (unpack_ok (by omega) s), bind_ok (unpack_ok (by omega) s),
    bind_ok (unpack_ok (by omega) s), bind_ok (unpack_ok (by omega) s), bind_ok hsetup]
  rfl

/-! ## Entries -/

/-- The record of an entry. -/
def entryRecord (files : Files F) (base : Ops (Files F) F) (e : String × String) : Bytes :=
  let (isDir, size, t) := entryInfo (Files.ops base) files e.1 e.2
  [Item.I 0, .I 0, .q t, .q t, .q t, .q t, .Q size, .Q size, .I (attributes isDir),
    .I (encodeAscii e.1).length, .I 0, .B 0, .B 0, .zeros 24].flatMap Item.bytes ++ encodeAscii e.1

theorem transReply_ok {H F : Type} {tParams tData : Bytes} (hparams : tParams.length ≤ 10)
    (hdata : tData.length < 0x10000) (s : State H F) :
    transReply tParams tData s = .ok (envelope tParams tData) s := by
  have halign : align4 (align4 55 + tParams.length) < 0x10000 := by
    unfold align4
    omega
  have hsmall : tParams.length < 0x10000 := by omega
  unfold transReply
  refine (bind_ok (pack_ok ?_ s)).trans ?_
  · simp only [List.all_cons, List.all_nil, Item.fits, hsmall, hdata, halign]
    decide
  · simp only [List.flatMap_cons, List.flatMap_nil, Item.bytes, List.append_nil, envelope, List.append_assoc]
    rfl

theorem length_encodeAscii (name : String) : (encodeAscii name).length ≤ name.toList.length := by
  rw [encodeAscii, List.length_map]
  exact List.length_filter_le _ _

theorem entryInfo_some {name path : String} {info : Info} (h : files.stat (partsOf path) = some info) :
    entryInfo (Files.ops base) files name path =
      (info.isDir, if info.isDir then 0 else info.size, info.filetime) := by
  have hstat : (Files.ops base).stat files path = some info := h
  rw [entryInfo, hstat]

theorem entryInfo_none {name path : String} (h : files.stat (partsOf path) = none) :
    entryInfo (Files.ops base) files name path = (decide (name = "." ∨ name = ".."), 0, 0) := by
  have hstat : (Files.ops base).stat files path = none := h
  rw [entryInfo, hstat]

theorem length_entryRecord (files : Files F) (base : Ops (Files F) F) (e : String × String) :
    (entryRecord files base e).length = 94 + (encodeAscii e.1).length := by
  unfold entryRecord
  dsimp only
  rw [List.length_append, Struct.length_flatMap]
  rfl

/-- What `os.stat` shows of a place fits a record. -/
def Recordable (files : Files F) (p : Place) : Prop := ∀ info ∈ files.stat p, info.Packable

/-- The record of an entry is made exactly if what it shows fits. -/
theorem dirEntry104_ok_iff {e : String × String} (h : e.1.toList.length ≤ 255)
    {s t : State (Files F) F} {record : Bytes} :
    dirEntry104 (Files.ops base) files e.1 e.2 s = .ok record t ↔
      Recordable files (partsOf e.2) ∧ record = entryRecord files base e ∧ t = s := by
  have hpackable : _ ↔ Recordable files (partsOf e.2) :=
    @entryInfo_packable _ _ (Files.ops base) files e.1 e.2
  have hlength := length_encodeAscii e.1
  have hname : (encodeAscii e.1).length < 0x100000000 := by omega
  rw [← hpackable]
  unfold dirEntry104 entryRecord
  dsimp only
  generalize entryInfo (Files.ops base) files e.1 e.2 = info
  obtain ⟨isDir, size, time⟩ := info
  dsimp only
  have hfits : ([Item.I 0, .I 0, .q time, .q time, .q time, .q time, .Q size, .Q size,
      .I (attributes isDir), .I (encodeAscii e.1).length, .I 0, .B 0, .B 0, .zeros 24].all Item.fits) =
        true ↔ time < 0x8000000000000000 ∧ size < 0x10000000000000000 := by
    simp [Item.fits, hname, fits_attributes]
  rw [bind_ok_iff, ← hfits]
  constructor
  · rintro ⟨bytes, u, hpack, hpure⟩
    unfold pack Struct.pack at hpack
    split at hpack
    · rename_i hall
      cases hpack
      cases hpure
      exact ⟨hall, rfl, rfl⟩
    · cases hpack
  · rintro ⟨hall, rfl, rfl⟩
    exact ⟨_, _, pack_ok hall _, rfl⟩

/-- The reply that lists an entry. -/
theorem entryReply_ok_iff {e : String × String} (h : e.1.toList.length ≤ 255) {tParams : Bytes}
    (hparams : tParams.length ≤ 10) {s t : State (Files F) F} {reply : Reply} :
    (dirEntry104 (Files.ops base) files e.1 e.2 >>= transReply tParams) s = .ok reply t ↔
      Recordable files (partsOf e.2) ∧ reply = envelope tParams (entryRecord files base e) ∧ t = s := by
  have hlength := length_encodeAscii e.1
  have hdata := length_entryRecord files base e
  have hsmall : (entryRecord files base e).length < 0x10000 := by omega
  rw [bind_ok_iff]
  constructor
  · rintro ⟨record, u, hrecord, hreply⟩
    obtain ⟨hrecordable, rfl, rfl⟩ := (dirEntry104_ok_iff h).mp hrecord
    rw [transReply_ok hparams hsmall] at hreply
    cases hreply
    exact ⟨hrecordable, rfl, rfl⟩
  · rintro ⟨hrecordable, rfl, rfl⟩
    exact ⟨_, _, (dirEntry104_ok_iff h).mpr ⟨hrecordable, rfl, rfl⟩, transReply_ok hparams hsmall _⟩

theorem drop_entryRecord (files : Files F) (base : Ops (Files F) F) (e : String × String) :
    (entryRecord files base e).drop 94 = encodeAscii e.1 := by
  unfold entryRecord
  dsimp only
  apply List.drop_left'
  rw [Struct.length_flatMap]
  rfl

/-! ## Replies -/

/-- The record that a reply carries. -/
def recordOf (reply : Reply) : Bytes := reply.data.drop (reply.params.field 14 2 - 55)

/-- The entry is shown as a folder. -/
def showsDir (reply : Reply) : Bool := (recordOf reply).field 56 4 == ATTR_DIRECTORY

def shownSize (reply : Reply) : Nat := (recordOf reply).field 40 8

/-- The reply to a FIND_FIRST2. -/
def firstReply (files : Files F) (base : Ops (Files F) F) (sid : Nat) (e : String × String) : Reply :=
  envelope ([Item.H sid, .H 1, .H 0, .H 0, .H 0].flatMap Item.bytes) (entryRecord files base e)

/-- The reply to a FIND_NEXT2 of a search that has an entry left. -/
def nextReply (files : Files F) (base : Ops (Files F) F) (e : (String × String) × Bool) : Reply :=
  envelope ([Item.H 1, .H (if e.2 then 1 else 0), .H 0, .H 0].flatMap Item.bytes)
    (entryRecord files base e.1)

theorem pageOf_firstReply (files : Files F) (base : Ops (Files F) F) (sid : Nat) (e : String × String) :
    pageOf 2 (firstReply files base sid e) = ⟨1, false, encodeAscii e.1⟩ := by
  have hpage := pageOf_envelope (Bytes.ofNat 2 sid) (Bytes.ofNat 2 0 ++ Bytes.ofNat 2 0)
    (entryRecord files base e) 1 0 (by simp)
  rw [drop_entryRecord, Bytes.length_ofNat] at hpage
  exact hpage

theorem pageOf_nextReply (files : Files F) (base : Ops (Files F) F) (e : (String × String) × Bool) :
    pageOf 0 (nextReply files base e) = ⟨1, e.2, encodeAscii e.1.1⟩ := by
  have hpage := pageOf_envelope [] (Bytes.ofNat 2 0 ++ Bytes.ofNat 2 0) (entryRecord files base e.1) 1
    (if e.2 then 1 else 0) (by decide)
  rw [drop_entryRecord] at hpage
  obtain ⟨e, last⟩ := e
  cases last with
  | false => exact hpage
  | true => exact hpage

theorem recordOf_nextReply (files : Files F) (base : Ops (Files F) F) (e : (String × String) × Bool) :
    recordOf (nextReply files base e) = entryRecord files base e.1 := by
  have hlength : ([Item.H 1, .H (if e.2 then 1 else 0), .H 0, .H 0].flatMap Item.bytes).length = 8 := by
    rw [Struct.length_flatMap]
    rfl
  have hdrop := drop_data ([Item.H 1, .H (if e.2 then 1 else 0), .H 0, .H 0].flatMap Item.bytes)
    (entryRecord files base e.1)
  unfold recordOf nextReply
  rw [envelope_dataOff]
  rw [hlength] at hdrop ⊢
  exact hdrop

theorem showsDir_nextReply (files : Files F) (base : Ops (Files F) F) (e : (String × String) × Bool) :
    showsDir (nextReply files base e) = (entryInfo (Files.ops base) files e.1.1 e.1.2).1 := by
  unfold showsDir
  rw [recordOf_nextReply]
  unfold entryRecord
  obtain ⟨isDir, size, time⟩ := entryInfo (Files.ops base) files e.1.1 e.1.2
  dsimp only
  have hfield := Struct.field_flatMap [Item.I 0, .I 0, .q time, .q time, .q time, .q time, .Q size, .Q size]
    (show attributes isDir < 256 ^ 4 by cases isDir <;> decide)
    [Item.I (encodeAscii e.1.1).length, .I 0, .B 0, .B 0, .zeros 24] (encodeAscii e.1.1)
  have hat : Struct.calcsize [Item.I 0, .I 0, .q time, .q time, .q time, .q time, .Q size, .Q size] = 56 := rfl
  rw [hat] at hfield
  refine (congrArg (· == ATTR_DIRECTORY) hfield).trans ?_
  cases isDir with
  | false => rfl
  | true => rfl

theorem shownSize_nextReply {files : Files F} (base : Ops (Files F) F) {e : (String × String) × Bool}
    (h : Recordable files (partsOf e.1.2)) :
    shownSize (nextReply files base e) = (entryInfo (Files.ops base) files e.1.1 e.1.2).2.1 := by
  have hsmall := ((@entryInfo_packable _ _ (Files.ops base) files e.1.1 e.1.2).mpr h).2
  unfold shownSize
  rw [recordOf_nextReply]
  unfold entryRecord
  generalize entryInfo (Files.ops base) files e.1.1 e.1.2 = info at hsmall ⊢
  obtain ⟨isDir, size, time⟩ := info
  dsimp only at hsmall ⊢
  have hfront : ([Item.I 0, .I 0, .q time, .q time, .q time, .q time].flatMap Item.bytes).length = 40 := by
    rw [Struct.length_flatMap]
    rfl
  have hfield := @field_behind _ ([Item.Q size, .I (attributes isDir), .I (encodeAscii e.1.1).length, .I 0,
    .B 0, .B 0, .zeros 24].flatMap Item.bytes ++ encodeAscii e.1.1) _ hfront 8 size
  refine Eq.trans ?_ (hfield.trans (Nat.mod_eq_of_lt hsmall))
  simp only [List.flatMap_cons, List.flatMap_nil, Item.bytes, List.append_assoc, List.append_nil]

/-! ## Listings -/

/-- The folder that a FIND_FIRST2 names. -/
def dirOf (r : Req) : Name := searchDir (ascii (cString (r.trans2Params.drop 12)))

/-- A FIND_FIRST2 of a folder of a share, and the names in the folder. -/
structure Finds (s : State (Files F) F) (r : Req) (share : Share) (place : Place) (names : List String) :
    Prop where
  trans2 : Trans2 1 r
  tree : shareForTid s.conn r = some share
  leads : s.host.realpath (Files.placeOf share (dirOf r)) = place
  inside : (partsOf share.root).isPrefixOf place
  isDir : (s.host.stat place).any Info.isDir
  listed : s.host.listDir place = some names

/-- A FIND_NEXT2 of a search. -/
structure Asks (sid : Nat) (q : Req) : Prop where
  trans2 : Trans2 2 q
  words : 2 ≤ q.trans2Params.length
  sid : q.trans2Params.field 0 2 = sid

/-- The entries of a search of a folder. -/
def entriesAt (place : Place) (names : List String) : List (String × String) :=
  (".", pathOf place) :: ("..", pathOf place) ::
    (names.mergeSort fun a b => decide (a ≤ b)).map fun n => (n, joinPath (pathOf place) n)

variable {share : Share} {place : Place} {names : List String}

theorem Finds.part (h : Finds s r share place names) : ∀ n ∈ place, Part n := by
  rw [← h.leads]
  exact s.host.part_realpath _ fun n hn => Files.part_of_mem_placeOf hn

theorem Finds.partsOf_pathOf (h : Finds s r share place names) : partsOf (pathOf place) = place :=
  Smb1.partsOf_pathOf h.part

/-- The state behind a FIND_FIRST2. -/
def foundState (s : State (Files F) F) (place : Place) (names : List String) : State (Files F) F :=
  { s with conn := { s.conn with
    nextSid := allocate s.conn.nextSid 1
    searches := store s.conn.searches (allocate s.conn.nextSid 1) ⟨entriesAt place names, 1⟩ } }

/-- A FIND_FIRST2 is answered exactly if what it shows of the folder fits. -/
theorem handle_find_iff (h : Finds s r share place names) {reply : Reply} :
    handle (Files.ops base) cfg r s = .ok reply t ↔ Recordable s.host place ∧
      reply = firstReply s.host base (allocate s.conn.nextSid 1) (".", pathOf place) ∧
      t = foundState s place names := by
  have hresolve : (Files.ops base).resolve s.host share (orRoot (dirOf r)) = some (pathOf place) := by
    refine (s.host.resolve_eq share _).trans ?_
    rw [Files.placeOf_orRoot, h.leads, if_pos h.inside]
  obtain ⟨info, hinfo, hdir⟩ := Files.any_isDir.mp h.isDir
  have hstat : (Files.ops base).stat s.host (pathOf place) = some info := by
    rw [← hinfo]
    exact congrArg s.host.stat h.partsOf_pathOf
  have hnames : (Files.ops base).listDir s.host (pathOf place) = some names := by
    rw [← h.listed]
    exact congrArg s.host.listDir h.partsOf_pathOf
  have hsid := allocate_lt s.conn.nextSid 1 (by decide)
  have hlength : ([Item.H (allocate s.conn.nextSid 1), .H 1, .H 0, .H 0, .H 0].flatMap
      Item.bytes).length = 10 := by
    rw [Struct.length_flatMap]
    rfl
  have hshort : ".".toList.length ≤ 255 := by decide
  have hentry := @entryReply_ok_iff F s.host base (".", pathOf place) hshort _
    (Nat.le_of_eq hlength) (foundState s place names) t reply
  rw [h.partsOf_pathOf] at hentry
  rw [handle_trans2 h.trans2]
  change hFindFirst2 (Files.ops base) r r.trans2Params s = _ ↔ _
  unfold dirOf at hresolve
  unfold hFindFirst2
  rw [get_bind]
  simp only [h.tree, hresolve, Option.bind_some, hstat, hnames, hdir, if_true]
  rw [bind_ok (set_apply _ _), bind_ok (pack_ok (by simp [Item.fits, hsid]) _)]
  exact hentry

/-- A FIND_NEXT2 of a search that has an entry left is answered exactly if what it shows fits. -/
theorem handle_next_iff {sid cursor : Nat} {entries : List (String × String)} {e : String × String}
    (hq : Asks sid q) (hsearch : s.conn.searches.lookup sid = some ⟨entries, cursor⟩)
    (hentry : entries[cursor]? = some e) (hshort : e.1.toList.length ≤ 255) {reply : Reply} :
    handle (Files.ops base) cfg q s = .ok reply t ↔ Recordable s.host (partsOf e.2) ∧
      reply = nextReply s.host base (e, decide (cursor + 1 = entries.length)) ∧
      t = { s with conn := { s.conn with
        searches := store s.conn.searches sid ⟨entries, cursor + 1⟩ } } := by
  have hlength (n : Nat) : ([Item.H 1, .H n, .H 0, .H 0].flatMap Item.bytes).length ≤ 10 := by
    rw [Struct.length_flatMap]
    exact Nat.le_of_ble_eq_true rfl
  have hlast : (if cursor + 1 = entries.length then 1 else 0 : Nat) =
      if decide (cursor + 1 = entries.length) then 1 else 0 := by
    simp only [decide_eq_true_eq]
  have hwords := hq.words
  rw [handle_trans2 hq.trans2]
  change hFindNext2 (Files.ops base) q.trans2Params s = _ ↔ _
  unfold hFindNext2
  rw [bind_ok (unpack_ok (by omega) s), get_bind]
  simp only [hq.sid, hsearch, hentry]
  rw [bind_ok (set_apply _ _), hlast,
    bind_ok (pack_ok (by cases decide (cursor + 1 = entries.length) <;> decide) _)]
  exact entryReply_ok_iff hshort (hlength _)

/-- The FIND_NEXT2s of a search give out the entries that are left, the last one marked, exactly if what
they show fits. -/
theorem converse_next_iff {sid cursor : Nat} {entries : List (String × String)} {nexts : List Req}
    (hnexts : ∀ q ∈ nexts, Asks sid q)
    (hsearch : s.conn.searches.lookup sid = some ⟨entries, cursor⟩)
    (hleft : cursor + nexts.length = entries.length) (hshort : ∀ e ∈ entries, e.1.toList.length ≤ 255)
    {replies : List Reply} :
    (∃ t, converse (Files.ops base) cfg s nexts = some (replies, t)) ↔
      (∀ e ∈ entries.drop cursor, Recordable s.host (partsOf e.2)) ∧
        replies = (marked (entries.drop cursor)).map (nextReply s.host base) := by
  induction nexts generalizing s cursor replies with
  | nil =>
      rw [List.length_nil, Nat.add_zero] at hleft
      rw [List.drop_eq_nil_of_le (Nat.le_of_eq hleft.symm)]
      constructor
      · rintro ⟨t, ht⟩
        cases ht
        exact ⟨fun e he => absurd he List.not_mem_nil, rfl⟩
      · rintro ⟨-, rfl⟩
        exact ⟨s, rfl⟩
  | cons q rest ih =>
      rw [List.length_cons] at hleft
      have hcursor : cursor < entries.length := by omega
      have hentry : entries[cursor]? = some entries[cursor] := List.getElem?_eq_getElem hcursor
      have hhandle {t : State (Files F) F} {reply : Reply} :=
        @handle_next_iff F base cfg s t q sid cursor entries entries[cursor]
          (hnexts q List.mem_cons_self) hsearch hentry (hshort _ (List.getElem_mem hcursor)) reply
      have hrest (replies : List Reply) := @ih { s with conn := { s.conn with
          searches := store s.conn.searches sid ⟨entries, cursor + 1⟩ } } (cursor + 1)
        (fun q hq => hnexts q (List.mem_cons_of_mem _ hq)) List.lookup_cons_self (by omega) replies
      have hlast : (entries.drop (cursor + 1)).isEmpty = decide (cursor + 1 = entries.length) := by
        rw [Bool.eq_iff_iff, List.isEmpty_iff, List.drop_eq_nil_iff, decide_eq_true_eq]
        omega
      rw [List.drop_eq_getElem_cons hcursor, marked, List.map_cons, List.forall_mem_cons, hlast,
        converse]
      constructor
      · rintro ⟨t, ht⟩
        cases hrun : handle (Files.ops base) cfg q s with
        | error e u =>
            rw [hrun] at ht
            cases ht
        | ok reply u =>
            obtain ⟨hrecordable, rfl, rfl⟩ := hhandle.mp hrun
            rw [hrun] at ht
            obtain ⟨p, hp, heq⟩ := Option.map_eq_some_iff.mp ht
            obtain ⟨hall, hreplies⟩ := (hrest p.1).mp ⟨p.2, hp⟩
            cases heq
            exact ⟨⟨hrecordable, hall⟩, congrArg (List.cons _) hreplies⟩
      · rintro ⟨⟨hrecordable, hall⟩, rfl⟩
        obtain ⟨t, ht⟩ := (hrest _).mpr ⟨hall, rfl⟩
        refine ⟨t, ?_⟩
        rw [hhandle.mpr ⟨hrecordable, rfl, rfl⟩]
        dsimp only
        rw [ht]
        rfl

/-- What is shown of a folder and of its entries fits. -/
def Recorded (files : Files F) (place : Place) (names : List String) : Prop :=
  Recordable files place ∧ ∀ n ∈ names, Recordable files (place ++ [n])

theorem Finds.partsOf_join (h : Finds s r share place names) {n : String} (hn : Part n) :
    partsOf (joinPath (pathOf place) n) = place ++ [n] := by
  rw [partsOf_joinPath, h.partsOf_pathOf, partsOf_part hn]

/-- The conversation of a listing goes through exactly if what it shows fits. -/
theorem converse_listing_iff {nexts : List Req} (h : Finds s r share place names)
    (hnexts : ∀ q ∈ nexts, Asks (allocate s.conn.nextSid 1) q) (hlength : nexts.length = names.length + 1)
    {replies : List Reply} :
    (∃ t, converse (Files.ops base) cfg s (r :: nexts) = some (replies, t)) ↔
      Recorded s.host place names ∧
        replies = firstReply s.host base (allocate s.conn.nextSid 1) (".", pathOf place) ::
          (marked (entriesAt place names).tail).map (nextReply s.host base) := by
  have hproper (n) (hn : n ∈ names) := s.host.listDir_entry place names h.listed n hn
  have hcount : (entriesAt place names).length = names.length + 2 := by
    unfold entriesAt
    rw [List.length_cons, List.length_cons, List.length_map, List.length_mergeSort]
  have hshort : ∀ e ∈ entriesAt place names, e.1.toList.length ≤ 255 := by
    intro e he
    unfold entriesAt at he
    rcases List.mem_cons.mp he with rfl | he
    · show ".".toList.length ≤ 255
      decide
    · rcases List.mem_cons.mp he with rfl | he
      · show "..".toList.length ≤ 255
        decide
      · obtain ⟨n, hn, rfl⟩ := List.mem_map.mp he
        exact (hproper n (List.mem_mergeSort.mp hn)).short
  have hentries : (∀ e ∈ (entriesAt place names).tail, Recordable s.host (partsOf e.2)) ↔
      Recorded s.host place names := by
    unfold entriesAt
    rw [List.tail_cons, List.forall_mem_cons, List.forall_mem_map, h.partsOf_pathOf]
    apply and_congr_right
    intro _
    constructor
    · intro hall n hn
      have hn' := hall n (List.mem_mergeSort.mpr hn)
      rwa [h.partsOf_join (hproper n hn).part] at hn'
    · intro hall n hn
      have hmem := List.mem_mergeSort.mp hn
      rw [h.partsOf_join (hproper n hmem).part]
      exact hall n hmem
  have hrest {replies : List Reply} := @converse_next_iff F base cfg (foundState s place names)
    (allocate s.conn.nextSid 1) 1 (entriesAt place names) nexts hnexts List.lookup_cons_self (by omega)
    hshort replies
  rw [List.drop_one] at hrest
  rw [converse, ← hentries]
  constructor
  · rintro ⟨t, ht⟩
    cases hrun : handle (Files.ops base) cfg r s with
    | error e u =>
        rw [hrun] at ht
        cases ht
    | ok reply u =>
        obtain ⟨-, rfl, rfl⟩ := (handle_find_iff h).mp hrun
        rw [hrun] at ht
        obtain ⟨p, hp, heq⟩ := Option.map_eq_some_iff.mp ht
        obtain ⟨hall, hreplies⟩ := hrest.mp ⟨p.2, hp⟩
        cases heq
        exact ⟨hall, congrArg (List.cons _) hreplies⟩
  · rintro ⟨hall, rfl⟩
    obtain ⟨t, ht⟩ := hrest.mpr ⟨hall, rfl⟩
    refine ⟨t, ?_⟩
    rw [(handle_find_iff h).mpr ⟨(hentries.mp hall).1, rfl, rfl⟩]
    dsimp only
    rw [ht]
    rfl

/-- The reply that gives out an entry of the folder. -/
theorem reply_of_entry {i : Nat} {n : String} {reply : Reply}
    (hn : (names.mergeSort fun a b => decide (a ≤ b))[i]? = some n)
    (hreply : ((marked (entriesAt place names).tail).map (nextReply files base))[i + 1]? = some reply) :
    ∃ last, reply = nextReply files base ((n, joinPath (pathOf place) n), last) := by
  rw [List.getElem?_map] at hreply
  obtain ⟨e, he, rfl⟩ := Option.map_eq_some_iff.mp hreply
  have hfst := congrArg (Option.map Prod.fst) he
  rw [← List.getElem?_map, map_fst_marked] at hfst
  unfold entriesAt at hfst
  rw [List.tail_cons, List.getElem?_cons_succ, List.getElem?_map, hn] at hfst
  have heq : (n, joinPath (pathOf place) n) = e.1 := Option.some.inj hfst
  refine ⟨e.2, ?_⟩
  rw [heq]

/-- The size that is shown of a place. -/
def sizeShown (files : Files F) (p : Place) : Nat :=
  (files.stat p).elim 0 fun info => if info.isDir then 0 else info.size

/-- What a listing shows of an entry. -/
theorem Finds.shown (h : Finds s r share place names) {n : String} (hn : Entry n)
    (hrecordable : Recordable s.host (place ++ [n])) (last : Bool) :
    showsDir (nextReply s.host base ((n, joinPath (pathOf place) n), last)) =
        (s.host.stat (place ++ [n])).any Info.isDir ∧
      shownSize (nextReply s.host base ((n, joinPath (pathOf place) n), last)) =
        sizeShown s.host (place ++ [n]) := by
  have hparts := h.partsOf_join hn.part
  rw [showsDir_nextReply, shownSize_nextReply base (by rw [hparts]; exact hrecordable), sizeShown]
  cases hinfo : s.host.stat (place ++ [n]) with
  | none =>
      rw [entryInfo_none (by rw [hparts, hinfo])]
      refine ⟨?_, rfl⟩
      simp [hn.dot, hn.dotdot]
  | some info =>
      rw [entryInfo_some (by rw [hparts, hinfo])]
      exact ⟨rfl, rfl⟩

/-! ## What is read -/

/-- The names that a listing shows. -/
def shownNames (names : List String) : List Bytes := ("." :: ".." :: names).map encodeAscii

/-- The replies of a listing, as they are read. -/
theorem pages_listing (files : Files F) (base : Ops (Files F) F) (sid : Nat) (place : Place)
    (names : List String) :
    pageOf 2 (firstReply files base sid (".", pathOf place)) ::
        ((marked (entriesAt place names).tail).map (nextReply files base)).map (pageOf 0) =
      ⟨1, false, encodeAscii "."⟩ ::
        (marked (entriesAt place names).tail).map fun e => ⟨1, e.2, encodeAscii e.1.1⟩ := by
  rw [pageOf_firstReply, List.map_map]
  apply congrArg (List.cons _)
  apply List.map_congr_left
  intro e _
  exact pageOf_nextReply files base e

theorem map_name_listing (place : Place) (names : List String) :
    ((⟨1, false, encodeAscii "."⟩ : Page) :: (marked (entriesAt place names).tail).map fun e =>
        ⟨1, e.2, encodeAscii e.1.1⟩).map Page.name =
      shownNames (names.mergeSort fun a b => decide (a ≤ b)) := by
  have hfst : (entriesAt place names).tail.map Prod.fst =
      ".." :: names.mergeSort fun a b => decide (a ≤ b) := by
    unfold entriesAt
    rw [List.tail_cons, List.map_cons, List.map_map]
    congr 1
    exact List.map_id _
  have hnames : (marked (entriesAt place names).tail).map (fun e => encodeAscii e.1.1) =
      ((entriesAt place names).tail.map Prod.fst).map encodeAscii := by
    conv => rhs; rw [← map_fst_marked (entriesAt place names).tail]
    rw [List.map_map, List.map_map]
    rfl
  rw [List.map_cons, List.map_map]
  refine congrArg (encodeAscii "." :: ·) (Eq.trans hnames ?_)
  rw [hfst]

theorem length_tail_entriesAt (place : Place) (names : List String) :
    (entriesAt place names).tail.length = names.length + 1 := by
  unfold entriesAt
  rw [List.tail_cons, List.length_cons, List.length_map, List.length_mergeSort]

theorem map_ended_listing (place : Place) (names : List String) :
    ((⟨1, false, encodeAscii "."⟩ : Page) :: (marked (entriesAt place names).tail).map fun e =>
        ⟨1, e.2, encodeAscii e.1.1⟩).map Page.ended = List.replicate (names.length + 1) false ++ [true] := by
  have hmarked := map_snd_marked (List.ne_nil_of_length_eq_add_one (length_tail_entriesAt place names))
  rw [length_tail_entriesAt, Nat.add_sub_cancel] at hmarked
  rw [List.map_cons, List.map_map, List.replicate_succ, List.cons_append, ← hmarked]
  rfl

theorem map_count_listing (place : Place) (names : List String) :
    ((⟨1, false, encodeAscii "."⟩ : Page) :: (marked (entriesAt place names).tail).map fun e =>
        ⟨1, e.2, encodeAscii e.1.1⟩).map Page.count = List.replicate (names.length + 2) 1 := by
  rw [List.map_cons, List.map_map, List.replicate_succ]
  refine congrArg (1 :: ·) (List.eq_replicate_iff.mpr ⟨?_, ?_⟩)
  · rw [List.length_map, length_marked, length_tail_entriesAt]
  · intro count hcount
    obtain ⟨e, -, rfl⟩ := List.mem_map.mp hcount
    rfl

theorem nodup_shownNames (names : List String) :
    (shownNames (names.mergeSort fun a b => decide (a ≤ b))).Nodup ↔ (shownNames names).Nodup := by
  apply List.Perm.nodup_iff
  exact (((List.mergeSort_perm names _).cons "..").cons ".").map encodeAscii

end Ps2Servers.Smb1
