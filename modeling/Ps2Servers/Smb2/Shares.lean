import Ps2Servers.Lib.Decoding
import Ps2Servers.Smb2.Srvsvc
import Mathlib.Data.List.Induction

/-!
# The list of shares

A client asks for the shares over the pipe, by FSCTL_PIPE_TRANSCEIVE, and takes what its output limit
cut off from the pipe by READ. What it makes of the bytes it is sent is in `Client`: fragments, each no
larger than was agreed in the bind, whose stubs are NDR encodings of the list.

## Implementation notes

An encoding is a multiple of four bytes long wherever a number follows, so that the decoder takes the
padding of a string with the string.
-/

namespace Ps2Servers.Smb2

open Struct (Item)
open Text Effects Decoding Srvsvc

def FSCTL_PIPE_TRANSCEIVE : Nat := 0x0011C017

/-! ## The pipe over SMB2 -/

/-- The reply of `h_ioctl` in front of an output of this many bytes. -/
def transceiveItems (fileId : Bytes) (size : Nat) : List Item :=
  let off := HEADER_SIZE + 48
  [.H 49, .H 0, .I FSCTL_PIPE_TRANSCEIVE, .s 16 fileId, .I off, .I 0, .I off, .I size, .I 0, .I 0]

/-- The reply of `h_read` in front of this many bytes. -/
def readItems (size : Nat) : List Item := [.H 17, .B (HEADER_SIZE + 16), .B 0, .I size, .I 0, .I 0]

/-- FSCTL_PIPE_TRANSCEIVE of `h_ioctl`: the reply in front of its output, and the output. -/
def Pipe.transceive (rows : List Row) (fileId data : Bytes) (maxOut : Nat) : Rpc (Bytes × Bytes) := do
  let answer ← Pipe.transact rows data
  let cut := maxOut != 0 && decide (maxOut < answer.length)
  -- What is cut off comes first in the pipe, in front of what waits there.
  if cut then
    modify fun pipe => { pipe with outbox := answer.drop maxOut ++ pipe.outbox }
  let out := if cut then answer.take maxOut else answer
  let body ← pack (transceiveItems fileId out.length)
  return (body, out)

/-- `h_read` of a pipe: the reply in front of its data, and the data. -/
def Pipe.readReply (length : Nat) : Rpc (Bytes × Bytes) := do
  let pipe ← get
  let (data, _, rest) := pipe.read (min length MAX_READ)
  set rest
  if data = [] then throw (.status STATUS_PIPE_EMPTY)
  else
    let body ← pack (readItems data.length)
    return (body, data)

/-- What a client does with a pipe. -/
inductive Act
  | transceive (data : Bytes) (maxOut : Nat)
  | read (length : Nat)

/-- A pipe, and what its client has been sent. -/
structure Session where
  pipe : Pipe
  delivered : Bytes

/-- Only a reply without an error brings data. -/
def Session.after (s : Session) : EStateM.Result Exn Pipe (Bytes × Bytes) → Session
  | .ok (_, out) pipe => ⟨pipe, s.delivered ++ out⟩
  | .error _ pipe => { s with pipe := pipe }

def Session.step (rows : List Row) (fileId : Bytes) (s : Session) : Act → Session
  | .transceive data maxOut => s.after (Pipe.transceive rows fileId data maxOut s.pipe)
  | .read length => s.after (Pipe.readReply length s.pipe)

def Session.run (rows : List Row) (fileId : Bytes) (s : Session) (acts : List Act) : Session :=
  acts.foldl (Session.step rows fileId) s

/-! ## The client -/

/-- `Row` as an answer of this level shows it. -/
def Srvsvc.Row.shown (level : Nat) (row : Row) : Row :=
  ⟨row.name, if level = 0 then 0 else row.kind, if level = 0 then [] else row.remark,
    if level = 2 then row.path else []⟩

namespace Client

def number : Decoder UInt8 Nat := value 4

/-- A pointer that points at something. -/
def address : Decoder UInt8 Unit := do
  let p ← number
  check (p ≠ 0)

/-- A conformant varying string, and the padding behind it. -/
def string : Decoder UInt8 Str := do
  let max ← number
  expect 4 0
  let actual ← number
  check (actual ≤ max)
  let raw ← take (2 * actual)
  let _ ← take ((4 - 2 * actual % 4) % 4)
  return (decodeUtf16 raw).takeWhile (· ≠ NUL)

/-- The fixed part of a SHARE_INFO: the type, where it has one. -/
def fixedPart (level : Nat) : Decoder UInt8 Nat := do
  address
  if level = 0 then return 0
  else
    let kind ← number
    address
    if level = 1 then return kind
    else
      let _permissions ← number
      let _maxUses ← number
      let _currentUses ← number
      address
      expect 4 0
      return kind

/-- The strings of a SHARE_INFO. -/
def deferredPart (level kind : Nat) : Decoder UInt8 Row := do
  let name ← string
  if level = 0 then return ⟨name, kind, [], []⟩
  else
    let remark ← string
    if level = 1 then return ⟨name, kind, remark, []⟩
    else
      let path ← string
      return ⟨name, kind, remark, path⟩

/-- The rows that a container of this many has. -/
def container (level count : Nat) : Decoder UInt8 (List Row) :=
  if count = 0 then do
    expect 4 0
    return []
  else do
    address
    expect 4 count
    let kinds ← many count (fixedPart level)
    kinds.mapM (deferredPart level)

/-- The answer to NetrShareEnum. -/
def enumeration (level : Nat) : Decoder UInt8 (List Row) := do
  expect 4 level
  expect 4 level
  address
  let count ← number
  let rows ← container level count
  expect 4 count
  address
  expect 4 0
  expect 4 0
  return rows

/-- A fragment of a response: whether it is the last, and its part of the stub. -/
def fragment (limit contextId callId : Nat) (first : Bool) : Decoder UInt8 (Bool × Bytes) := do
  expect 1 5
  expect 1 0
  expect 1 PTYPE_RESPONSE
  let flags ← value 1
  check (flags &&& PFC_FIRST_FRAG ≠ 0 ↔ first = true)
  let drep ← take 4
  check (drep = DREP_LE)
  let size ← value 2
  check (24 ≤ size ∧ size ≤ limit)
  expect 2 0
  expect 4 callId
  let _hint ← number
  expect 2 contextId
  let _cancelled ← take 2
  let chunk ← take (size - 24)
  return (decide (flags &&& PFC_LAST_FRAG ≠ 0), chunk)

/-- The stub of a response, from its fragments. -/
def reassemble (limit contextId callId : Nat) : Nat → Bool → Decoder UInt8 Bytes
  | 0, _ => failure
  | fuel + 1, first => do
      let (last, chunk) ← fragment limit contextId callId first
      if last then return chunk
      else
        let rest ← reassemble limit contextId callId fuel false
        return chunk ++ rest

/-- A request of the client: its call, and the level it asked for. -/
structure Call where
  callId : Nat
  level : Nat
  deriving DecidableEq, Repr

/-- The answer to a call. -/
def answer (limit contextId : Nat) (call : Call) : Decoder UInt8 (List Row) := do
  let input ← get
  let stub ← reassemble limit contextId call.callId input.length true
  match decode (enumeration call.level) stub with
  | some rows => return rows
  | none => failure

end Client

/-! ## What is encoded -/

/-- The number of UTF-16 units of a text. -/
def units (text : Str) : Nat := ((encodeUtf16 text).getD []).length / 2

/-- The size of a string with its header and padding. -/
def stringSize (text : Str) : Nat := 12 + (2 * (units text + 1) + 3) / 4 * 4

/-- A text that is valid as UTF-16 and has no NUL. -/
def Plain (text : Str) : Prop := (encodeUtf16 text).isSome ∧ NUL ∉ text

/-- The call gives bytes of this number that are read as this. -/
def Gives {α : Type} (x : Rpc Bytes) (pipe : Pipe) (size : Nat) (d : Decoder UInt8 α) (a : α) : Prop :=
  ∃ bytes, x pipe = .ok bytes pipe ∧ bytes.length = size ∧ Reads d bytes a

theorem pack_apply {items : List Item} (h : items.all Item.fits = true) (pipe : Pipe) :
    pack items pipe = .ok (items.flatMap Item.bytes) pipe := by
  rw [pack, Struct.pack_eq_some.mpr ⟨h, rfl⟩]
  rfl

theorem pack_bind {α : Type} {items : List Item} (h : items.all Item.fits = true) (pipe : Pipe)
    (f : Bytes → Rpc α) : (pack items >>= f) pipe = f (items.flatMap Item.bytes) pipe := by
  rw [bind_apply, pack_apply h]

/-- The terminating NUL is one more unit. -/
theorem encodeUtf16_concat_nul {text : Str} {raw : Bytes} (h : encodeUtf16 text = some raw) :
    encodeUtf16 (text ++ [NUL]) = some (raw ++ [0, 0]) := by
  induction text generalizing raw with
  | nil =>
      cases h
      rfl
  | cons c rest ih =>
      obtain ⟨d, tail, rfl, htail, rfl⟩ := encodeUtf16_cons h
      rw [List.cons_append, encodeUtf16, ih htail, Option.map_some, List.append_assoc]

theorem takeWhile_concat_nul {text : Str} (h : NUL ∉ text) :
    (text ++ [NUL]).takeWhile (· ≠ NUL) = text := by
  rw [List.takeWhile_append_of_pos]
  · simp
  · intro c hc
    exact decide_eq_true fun heq => h (heq ▸ hc)

theorem ndrString_gives {text : Str} (htext : Plain text) (hsize : stringSize text < 2 ^ 32)
    (pipe : Pipe) : Gives (ndrString text) pipe (stringSize text) Client.string text := by
  obtain ⟨raw, hraw⟩ := Option.isSome_iff_exists.mp htext.1
  have hall := encodeUtf16_concat_nul hraw
  have heven := length_encodeUtf16 hraw
  have hstring : stringSize text = 12 + (2 * (raw.length / 2 + 1) + 3) / 4 * 4 := by
    rw [stringSize, units, hraw]
    rfl
  rw [hstring] at hsize ⊢
  have hlength : (raw ++ [0, 0]).length = 2 * (raw.length / 2 + 1) := by
    rw [List.length_append]
    show raw.length + 2 = _
    omega
  have hcount : (raw ++ [0, 0]).length / 2 = raw.length / 2 + 1 := by omega
  have hfits : raw.length / 2 + 1 < 256 ^ 4 := by omega
  generalize hbytes : raw ++ [0, 0] = bytes at hall hlength hcount
  generalize raw.length / 2 + 1 = count at *
  have hitems : [Item.I count, .I 0, .I count].all Item.fits = true := by
    simp only [List.all_cons, List.all_nil, Item.fits, Bool.and_true, Bool.and_eq_true, decide_eq_true_eq]
    omega
  refine ⟨Bytes.ofNat 4 count ++ (Bytes.ofNat 4 0 ++ (Bytes.ofNat 4 count ++
    (bytes ++ (List.replicate ((4 - 2 * count % 4) % 4) 0 ++ [])))), ?_, ?_, ?_⟩
  · have hNUL : [CodePoint.char (Char.ofNat 0)] = [NUL] := rfl
    rw [ndrString, hNUL, hall]
    dsimp only
    rw [hcount, pack_bind hitems, pure_apply]
    refine congrArg (EStateM.Result.ok · pipe) ?_
    have hpad : ([Item.I count, .I 0, .I count].flatMap Item.bytes ++ bytes).length % 4 =
        2 * count % 4 := by
      rw [List.length_append, Struct.length_flatMap, hlength]
      show (12 + 2 * count) % 4 = _
      omega
    rw [pad4, hpad]
    simp only [List.flatMap_cons, List.flatMap_nil, Item.bytes, List.append_assoc, List.append_nil]
  · simp only [List.length_append, Bytes.length_ofNat, List.length_replicate, List.length_nil, hlength]
    omega
  · refine (reads_value hfits).bind ?_
    refine (reads_expect (by decide)).bind ?_
    refine (reads_value hfits).bind ?_
    refine Reads.check_bind (Nat.le_refl count) ?_
    refine (reads_take hlength).bind ?_
    refine (reads_take List.length_replicate).bind ?_
    rw [decodeUtf16_encodeUtf16 hall, takeWhile_concat_nul htext.2]
    exact Reads.pure text

/-! ## Rows -/

/-- A row that can be sent: its type is a number of 32 bits. -/
structure Srvsvc.Row.Sendable (row : Row) : Prop where
  name : Plain row.name
  remark : Plain row.remark
  path : Plain row.path
  kind : row.kind < 2 ^ 32

/-- The sizes of the two parts of a row. -/
def fixedSize (level : Nat) : Nat := if level = 0 then 4 else if level = 1 then 12 else 32

def deferredSize (level : Nat) (row : Row) : Nat :=
  stringSize row.name + ((if level = 0 then 0 else stringSize row.remark) +
    if level = 2 then stringSize row.path else 0)

theorem reads_address {k : Nat} (hk : pointer k < 2 ^ 32) :
    Reads Client.address (Bytes.ofNat 4 (pointer k)) () :=
  (reads_value hk).bind_nil (reads_check (Nat.ne_of_gt (Nat.add_pos_left (by decide) _)))

/-- The fixed part of a row: its items. -/
def fixedItems (level k : Nat) (row : Row) : List Item :=
  if level = 0 then [.I (pointer k)]
  else if level = 1 then [.I (pointer k), .I row.kind, .I (pointer (k + 1))]
  else [.I (pointer k), .I row.kind, .I (pointer (k + 1)), .I 0, .I 0xFFFFFFFF, .I 0,
    .I (pointer (k + 2)), .I 0]

theorem pointer_le {i k : Nat} (h : i ≤ k) : pointer i ≤ pointer k :=
  Nat.add_le_add_left (Nat.mul_le_mul_left 4 (Nat.succ_le_succ h)) _

theorem fixedItems_fits {row : Row} (hkind : row.kind < 2 ^ 32) {level k : Nat}
    (hk : pointer (k + level) < 2 ^ 32) : (fixedItems level k row).all Item.fits = true := by
  have h0 := Nat.lt_of_le_of_lt (pointer_le (Nat.le_add_right k level)) hk
  unfold fixedItems
  split
  · simpa [Item.fits] using h0
  · rename_i hzero
    have h1 := Nat.lt_of_le_of_lt (pointer_le (by omega : k + 1 ≤ k + level)) hk
    split
    · simpa [Item.fits] using ⟨h0, hkind, h1⟩
    · have h2 := Nat.lt_of_le_of_lt (pointer_le (by omega : k + 2 ≤ k + level)) hk
      simpa [Item.fits] using ⟨h0, hkind, h1, h2⟩

theorem reads_fixedPart {row : Row} (hkind : row.kind < 2 ^ 32) {level k : Nat}
    (hk : pointer (k + level) < 2 ^ 32) :
    Reads (Client.fixedPart level) ((fixedItems level k row).flatMap Item.bytes)
      (row.shown level).kind := by
  have h0 := Nat.lt_of_le_of_lt (pointer_le (Nat.le_add_right k level)) hk
  unfold fixedItems Client.fixedPart Srvsvc.Row.shown
  dsimp only
  split
  · simp only [List.flatMap_cons, List.flatMap_nil, Item.bytes]
    exact (reads_address h0).bind (Reads.pure 0)
  · rename_i hzero
    have h1 := Nat.lt_of_le_of_lt (pointer_le (by omega : k + 1 ≤ k + level)) hk
    split
    · simp only [List.flatMap_cons, List.flatMap_nil, Item.bytes]
      refine (reads_address h0).bind ((reads_value hkind).bind ?_)
      exact (reads_address h1).bind (Reads.pure row.kind)
    · have h2 := Nat.lt_of_le_of_lt (pointer_le (by omega : k + 2 ≤ k + level)) hk
      simp only [List.flatMap_cons, List.flatMap_nil, Item.bytes]
      refine (reads_address h0).bind ((reads_value hkind).bind ((reads_address h1).bind ?_))
      refine (reads_value (by decide)).bind ((reads_value (by decide)).bind ?_)
      refine (reads_value (by decide)).bind ((reads_address h2).bind ?_)
      exact (reads_expect (by decide)).bind (Reads.pure row.kind)

theorem rowParts_gives {row : Row} (hrow : row.Sendable) {level k : Nat} (hlevel : level ≤ 2)
    (hk : pointer (k + level) < 2 ^ 32) (hsize : deferredSize level row < 2 ^ 32) (pipe : Pipe) :
    ∃ deferred, rowParts level k row pipe =
        .ok ((fixedItems level k row).flatMap Item.bytes, deferred) pipe ∧
      deferred.length = deferredSize level row ∧
      Reads (Client.deferredPart level (row.shown level).kind) deferred (row.shown level) := by
  have hfits := fixedItems_fits hrow.kind hk
  unfold deferredSize at hsize ⊢
  obtain ⟨name, hname, hnameLength, hnameRead⟩ :=
    ndrString_gives hrow.name (by omega : stringSize row.name < 2 ^ 32) pipe
  unfold rowParts fixedItems at *
  rw [bind_ok hname]
  by_cases hzero : level = 0
  · subst hzero
    refine ⟨name, ?_, hnameLength, hnameRead.bind_pure⟩
    exact pack_bind hfits pipe _
  rw [if_neg hzero] at hsize hfits
  obtain ⟨remark, hremark, hremarkLength, hremarkRead⟩ :=
    ndrString_gives hrow.remark (by omega : stringSize row.remark < 2 ^ 32) pipe
  unfold Client.deferredPart Srvsvc.Row.shown
  simp only [if_neg hzero]
  rw [bind_ok hremark]
  by_cases hone : level = 1
  · subst hone
    refine ⟨name ++ remark, pack_bind hfits pipe _, ?_, ?_⟩
    · rw [List.length_append, hnameLength, hremarkLength]
      rfl
    · exact hnameRead.bind hremarkRead.bind_pure
  · have htwo : level = 2 := by omega
    subst htwo
    rw [if_pos rfl] at hsize
    obtain ⟨path, hpath, hpathLength, hpathRead⟩ :=
      ndrString_gives hrow.path (by omega : stringSize row.path < 2 ^ 32) pipe
    refine ⟨name ++ remark ++ path, ?_, ?_, ?_⟩
    · rw [if_neg hone, if_neg hone, bind_ok hpath]
      rw [if_neg hone] at hfits
      exact pack_bind hfits pipe _
    · simp [hnameLength, hremarkLength, hpathLength]
    · rw [List.append_assoc]
      exact hnameRead.bind (hremarkRead.bind hpathRead.bind_pure)

/-- The types that an answer of this level tells of. -/
def kinds (level : Nat) (rows : List Row) : List Nat := rows.map fun row => (row.shown level).kind

theorem rowsParts_gives {level : Nat} (hlevel : level ≤ 2) (pipe : Pipe) {rows : List Row}
    (hrows : ∀ row ∈ rows, row.Sendable) {k : Nat}
    (hk : pointer (k + rows.length * (level + 1)) < 2 ^ 32)
    (hsize : (rows.map (deferredSize level)).sum < 2 ^ 32) :
    ∃ fixed deferred, rowsParts level k rows pipe = .ok (fixed, deferred) pipe ∧
      fixed.length = rows.length * fixedSize level ∧
      deferred.length = (rows.map (deferredSize level)).sum ∧
      Reads (many rows.length (Client.fixedPart level)) fixed (kinds level rows) ∧
      Reads ((kinds level rows).mapM (Client.deferredPart level)) deferred
        (rows.map (Row.shown level)) := by
  induction rows generalizing k with
  | nil =>
      exact ⟨[], [], rfl, (Nat.zero_mul _).symm, rfl, reads_many_nil _, reads_mapM_nil⟩
  | cons row rest ih =>
      have hrow := hrows row List.mem_cons_self
      have hnext : k + (level + 1) + rest.length * (level + 1) =
          k + (row :: rest).length * (level + 1) := by
        rw [List.length_cons, Nat.succ_mul]
        omega
      have hfirst : pointer (k + level) < 2 ^ 32 :=
        Nat.lt_of_le_of_lt (pointer_le (by omega)) hk
      rw [List.map_cons, List.sum_cons] at hsize
      obtain ⟨deferred, hparts, hlength, hread⟩ :=
        rowParts_gives hrow hlevel hfirst (by omega) pipe
      obtain ⟨fixeds, deferreds, hrest, hfixeds, hdeferreds, hreadFixed, hreadDeferred⟩ :=
        ih (fun r hr => hrows r (List.mem_cons_of_mem row hr)) (hnext ▸ hk) (by omega)
      refine ⟨(fixedItems level k row).flatMap Item.bytes ++ fixeds, deferred ++ deferreds,
        ?_, ?_, ?_, ?_, ?_⟩
      · rw [rowsParts, bind_ok hparts]
        exact (bind_ok hrest).trans rfl
      · have hcalc : Struct.calcsize (fixedItems level k row) = fixedSize level := by
          unfold fixedItems fixedSize
          split
          · rfl
          · split
            · rfl
            · rfl
        rw [List.length_append, Struct.length_flatMap, hcalc, hfixeds, List.length_cons, Nat.succ_mul,
          Nat.add_comm]
      · rw [List.length_append, hlength, hdeferreds, List.map_cons, List.sum_cons]
      · exact reads_many_cons (reads_fixedPart hrow.kind hfirst) hreadFixed
      · exact reads_mapM_cons hread hreadDeferred

/-! ## The answer -/

/-- The size of the stub of an answer. -/
def stubSize (level : Nat) (rows : List Row) : Nat :=
  if rows = [] then 36
  else 40 + rows.length * fixedSize level + (rows.map (deferredSize level)).sum

/-- Pointers are much smaller than the strings they point at. -/
theorem pointer_lt {level : Nat} (hlevel : level ≤ 2) {rows : List Row}
    (hsize : stubSize level rows < 2 ^ 32) : pointer (rows.length * (level + 1) + 2) < 2 ^ 32 := by
  have hsum : ∀ rows : List Row, rows.length * (16 * (level + 1)) ≤ (rows.map (deferredSize level)).sum := by
    intro rows
    induction rows with
    | nil => exact Nat.le_of_eq (Nat.zero_mul _)
    | cons row rest ih =>
        have hrow : 16 * (level + 1) ≤ deferredSize level row := by
          unfold deferredSize stringSize
          rcases (by omega : level = 0 ∨ level = 1 ∨ level = 2) with rfl | rfl | rfl
          · rw [if_pos rfl, if_neg (by decide)]
            omega
          · rw [if_neg (by decide), if_neg (by decide)]
            omega
          · rw [if_neg (by decide), if_pos rfl]
            omega
        rw [List.length_cons, List.map_cons, List.sum_cons, Nat.succ_mul, Nat.add_comm]
        exact Nat.add_le_add hrow ih
  have hmul : rows.length * (16 * (level + 1)) = 16 * (rows.length * (level + 1)) :=
    Nat.mul_left_comm _ _ _
  have hrows := hsum rows
  unfold stubSize at hsize
  show 0x00020000 + 4 * (rows.length * (level + 1) + 2 + 1) < 2 ^ 32
  split at hsize
  · rename_i hnil
    rw [hnil, List.length_nil, Nat.zero_mul]
    decide
  · omega

theorem shareEnum_gives {level : Nat} (hlevel : level ≤ 2) (pipe : Pipe) {rows : List Row}
    (hrows : ∀ row ∈ rows, row.Sendable) (hsize : stubSize level rows < 2 ^ 32) {stub : Bytes}
    (hstub : levelOf stub = some level) :
    Gives (shareEnum rows stub) pipe (stubSize level rows) (Client.enumeration level)
      (rows.map (Row.shown level)) := by
  have hlevel' : level < 2 ^ 32 := by omega
  have hle : ∀ i ≤ 2, pointer (rows.length * (level + 1) + i) < 2 ^ 32 := fun i hi =>
    Nat.lt_of_le_of_lt (pointer_le (Nat.add_le_add_left hi _)) (pointer_lt hlevel hsize)
  have hp0 := hle 0 (by decide)
  have hp1 := hle 1 (by decide)
  have hp2 := hle 2 (by decide)
  unfold shareEnum
  rw [hstub]
  dsimp only
  rw [if_neg (Nat.not_lt.mpr hlevel)]
  by_cases hnil : rows = []
  · subst hnil
    rw [List.length_nil, Nat.zero_mul] at hp0 hp1
    have hhead : [Item.I level, .I level, .I (pointer 0), .I 0].all Item.fits = true := by
      simpa [Item.fits] using ⟨hlevel', hp0⟩
    have htail : [Item.I 0, .I 0, .I (pointer 1), .I 0, .I 0].all Item.fits = true := by
      simpa [Item.fits] using hp1
    refine ⟨[Item.I level, .I level, .I (pointer 0), .I 0].flatMap Item.bytes ++
      [Item.I 0, .I 0, .I (pointer 1), .I 0, .I 0].flatMap Item.bytes, ?_, ?_, ?_⟩
    · rw [rowsParts, bind_ok (pure_apply _ _)]
      dsimp only
      rw [List.length_nil, Nat.zero_mul, pack_bind hhead, if_pos rfl, pack_bind htail]
      rfl
    · rw [List.length_append, Struct.length_flatMap, Struct.length_flatMap]
      rfl
    · simp only [List.flatMap_cons, List.flatMap_nil, Item.bytes, List.append_assoc, List.nil_append]
      refine (reads_expect hlevel').bind ((reads_expect hlevel').bind ((reads_address hp0).bind ?_))
      refine (reads_value (by decide)).bind ?_
      have hcontainer : Reads (Client.container level 0) (Bytes.ofNat 4 0) ([] : List Row) :=
        (reads_expect (by decide)).bind_nil (Reads.pure [])
      refine hcontainer.bind ((reads_expect (by decide)).bind ((reads_address hp1).bind ?_))
      exact (reads_expect (by decide)).bind ((reads_expect (by decide)).bind (Reads.pure []))
  · have hpos : rows.length ≠ 0 := fun h => hnil (List.eq_nil_of_length_eq_zero h)
    rw [stubSize, if_neg hnil] at hsize
    have hcount : rows.length < 2 ^ 32 := by
      have hmul : rows.length * 1 ≤ rows.length * fixedSize level :=
        Nat.mul_le_mul_left _ (by unfold fixedSize; split <;> [omega; split <;> omega])
      omega
    obtain ⟨fixed, deferred, hparts, hfixed, hdeferred, hreadFixed, hreadDeferred⟩ :=
      rowsParts_gives hlevel pipe hrows (k := 0) (by rw [Nat.zero_add]; exact hp0) (by omega)
    generalize rows.length * (level + 1) = m at hp0 hp1 hp2 ⊢
    have hhead : [Item.I level, .I level, .I (pointer m), .I rows.length].all Item.fits = true := by
      simpa [Item.fits] using ⟨hlevel', hp0, hcount⟩
    have hbuffer : [Item.I (pointer (m + 1)), .I rows.length].all Item.fits = true := by
      simpa [Item.fits] using ⟨hp1, hcount⟩
    have htail : [Item.I rows.length, .I (pointer (m + 2)), .I 0, .I 0].all Item.fits = true := by
      simpa [Item.fits] using ⟨hcount, hp2⟩
    refine ⟨[Item.I level, .I level, .I (pointer m), .I rows.length].flatMap Item.bytes ++
      [Item.I (pointer (m + 1)), .I rows.length].flatMap Item.bytes ++ fixed ++ deferred ++
        [Item.I rows.length, .I (pointer (m + 2)), .I 0, .I 0].flatMap Item.bytes, ?_, ?_, ?_⟩
    · rw [bind_ok hparts]
      dsimp only
      rw [pack_bind hhead, if_neg hnil, pack_bind hbuffer, pack_bind htail]
      rfl
    · rw [stubSize, if_neg hnil]
      simp only [List.length_append, Struct.length_flatMap, hfixed, hdeferred]
      show 16 + 8 + _ + _ + 16 = _
      omega
    · simp only [List.flatMap_cons, List.flatMap_nil, Item.bytes, List.append_assoc, List.nil_append]
      refine (reads_expect hlevel').bind ((reads_expect hlevel').bind ((reads_address hp0).bind ?_))
      refine (reads_value hcount).bind ?_
      have hcontainer : Reads (Client.container level rows.length)
          (Bytes.ofNat 4 (pointer (m + 1)) ++ (Bytes.ofNat 4 rows.length ++ (fixed ++ deferred)))
          (rows.map (Row.shown level)) := by
        unfold Client.container
        rw [if_neg hpos]
        refine (reads_address hp1).bind ((reads_expect hcount).bind ?_)
        exact hreadFixed.bind hreadDeferred
      have hread := hcontainer.bind (f := fun rows' => do
        expect 4 rows.length
        Client.address
        expect 4 0
        expect 4 0
        return rows') ((reads_expect hcount).bind ((reads_address hp2).bind
          ((reads_expect (by decide)).bind ((reads_expect (by decide)).bind (Reads.pure _)))))
      simp only [List.append_assoc] at hread
      exact hread

/-! ## Fragments -/

/-- What a bind leaves behind. -/
structure Pipe.Negotiated (pipe : Pipe) : Prop where
  contextId : pipe.contextId < 2 ^ 16
  least : 1024 ≤ pipe.maxFrag
  most : pipe.maxFrag ≤ MAX_FRAG

/-- The size of an answer: a header for each fragment. -/
def answerSize (room size : Nat) : Nat := size + 24 * ((size - 1) / room + 1)

def flagsOf (first last : Bool) : Nat :=
  (if first then PFC_FIRST_FRAG else 0) ||| (if last then PFC_LAST_FRAG else 0)

def fragmentBytes (pipe : Pipe) (callId hint : Nat) (first last : Bool) (chunk : Bytes) : Bytes :=
  [.B 5, .B 0, .B PTYPE_RESPONSE, .B (flagsOf first last), .s 4 DREP_LE, .H (24 + chunk.length), .H 0,
    .I callId, .I hint, .H pipe.contextId, .B 0, .B 0].flatMap Item.bytes ++ chunk

theorem length_fragmentBytes (pipe : Pipe) (callId hint : Nat) (first last : Bool) (chunk : Bytes) :
    (fragmentBytes pipe callId hint first last chunk).length = chunk.length + 24 := by
  rw [fragmentBytes, List.length_append, Struct.length_flatMap, Nat.add_comm]
  rfl

/-- One fragment, as `fragments` makes it. -/
theorem fragment_bind {α : Type} {pipe : Pipe} (hpipe : pipe.Negotiated) {callId hint : Nat}
    (hcall : callId < 2 ^ 32) (hhint : hint < 2 ^ 32) (first last : Bool) {chunk : Bytes}
    (hchunk : chunk.length + 24 ≤ pipe.maxFrag) (f : Bytes → Rpc α) :
    (do
      let header ← pack [.I hint, .H pipe.contextId, .B 0, .B 0]
      let fragment ← pdu PTYPE_RESPONSE (flagsOf first last) callId (header ++ chunk)
      f fragment : Rpc α) pipe =
      f (fragmentBytes pipe callId hint first last chunk) pipe := by
  have hcontext := hpipe.contextId
  have hmost : pipe.maxFrag ≤ 4280 := hpipe.most
  have hflags : flagsOf first last < 0x100 := by
    cases first <;> cases last <;> decide
  have hheader : [Item.I hint, .H pipe.contextId, .B 0, .B 0].all Item.fits = true := by
    simpa [Item.fits] using ⟨hhint, hcontext⟩
  have hpdu : [Item.B 5, .B 0, .B PTYPE_RESPONSE, .B (flagsOf first last), .s 4 DREP_LE,
      .H (24 + chunk.length), .H 0, .I callId].all Item.fits = true := by
    simpa [Item.fits, PTYPE_RESPONSE] using ⟨hflags, by omega, hcall⟩
  have hlength : 16 + ([Item.I hint, .H pipe.contextId, .B 0, .B 0].flatMap Item.bytes ++ chunk).length =
      24 + chunk.length := by
    rw [List.length_append, Struct.length_flatMap, ← Nat.add_assoc]
    rfl
  rw [pack_bind hheader]
  unfold pdu
  rw [bind_assoc, hlength, pack_bind hpdu]
  refine congrArg (f · pipe) ?_
  rw [← List.append_assoc, ← List.flatMap_append]
  rfl

theorem reads_fragment {pipe : Pipe} (hpipe : pipe.Negotiated) {callId hint : Nat}
    (hcall : callId < 2 ^ 32) (hhint : hint < 2 ^ 32) (first last : Bool) {chunk : Bytes}
    (hchunk : chunk.length + 24 ≤ pipe.maxFrag) :
    Reads (Client.fragment pipe.maxFrag pipe.contextId callId first)
      (fragmentBytes pipe callId hint first last chunk) (last, chunk) := by
  have hmost : pipe.maxFrag ≤ 4280 := hpipe.most
  have hflags : flagsOf first last < 256 ^ 1 := by
    cases first <;> cases last <;> decide
  have hfirst : flagsOf first last &&& PFC_FIRST_FRAG ≠ 0 ↔ first = true := by
    cases first <;> cases last <;> decide
  have hlast : (last, chunk) = (decide (flagsOf first last &&& PFC_LAST_FRAG ≠ 0), chunk) := by
    cases first <;> cases last <;> rfl
  rw [hlast]
  unfold fragmentBytes
  simp only [List.flatMap_cons, List.flatMap_nil, Item.bytes, List.append_assoc, List.nil_append]
  refine (reads_expect (by decide)).bind ((reads_expect (by decide)).bind ?_)
  refine (reads_expect (by decide)).bind ((reads_value hflags).bind (Reads.check_bind hfirst ?_))
  refine (reads_take (List.takeD_length 4 DREP_LE 0)).bind (Reads.check_bind rfl ?_)
  refine (reads_value (by omega)).bind (Reads.check_bind ⟨by omega, by omega⟩ ?_)
  refine (reads_expect (by decide)).bind ((reads_expect hcall).bind ((reads_value hhint).bind ?_))
  refine (reads_expect hpipe.contextId).bind ?_
  have hcancelled : Reads (take 2) (Bytes.ofNat 1 0 ++ Bytes.ofNat 1 0) (Bytes.ofNat 1 0 ++ Bytes.ofNat 1 0) :=
    reads_take rfl
  have hchunk' : Reads (take (24 + chunk.length - 24)) chunk chunk :=
    reads_take (by omega)
  have hread := hcancelled.bind (f := fun _ => do
    let chunk' ← take (24 + chunk.length - 24)
    return (decide (flagsOf first last &&& PFC_LAST_FRAG ≠ 0), chunk')) hchunk'.bind_pure
  rwa [List.append_assoc] at hread

theorem answerSize_of_le {room size : Nat} (hroom : 0 < room) (h : size ≤ room) :
    answerSize room size = size + 24 := by
  rw [answerSize, Nat.div_eq_of_lt (by omega)]

theorem answerSize_of_lt {room size : Nat} (hroom : 0 < room) (h : room < size) :
    answerSize room size = room + 24 + answerSize room (size - room) := by
  have hdiv : (size - 1) / room = (size - room - 1) / room + 1 := by
    rw [Nat.div_eq_sub_div hroom (by omega), Nat.sub_right_comm]
  rw [answerSize, answerSize, hdiv]
  omega

/-- The fragments of a stub, by the number of fragments: what the server makes of it, the client puts
together again. -/
theorem fragments_give {pipe : Pipe} (hpipe : pipe.Negotiated) {callId : Nat} (hcall : callId < 2 ^ 32)
    {fuel : Nat} {first : Bool} {stub : Bytes} (hfuel : stub.length < fuel) (hstub : stub.length < 2 ^ 32) :
    ∃ bytes, fragments (pipe.maxFrag - 16 - 8) callId fuel first stub pipe = .ok bytes pipe ∧
      bytes.length = answerSize (pipe.maxFrag - 24) stub.length ∧
      ∀ clientFuel, bytes.length ≤ clientFuel →
        Reads (Client.reassemble pipe.maxFrag pipe.contextId callId clientFuel first) bytes stub := by
  have hleast := hpipe.least
  have hroom : pipe.maxFrag - 16 - 8 = pipe.maxFrag - 24 := Nat.sub_sub _ _ _
  rw [hroom]
  induction fuel generalizing first stub with
  | zero => cases hfuel
  | succ fuel ih =>
      by_cases hlast : stub.length ≤ pipe.maxFrag - 24
      · have hchunk : stub.take (pipe.maxFrag - 24) = stub := List.take_of_length_le hlast
        refine ⟨fragmentBytes pipe callId stub.length first true stub, ?_, ?_, ?_⟩
        · rw [fragments, get_bind, hchunk, decide_eq_true hlast]
          exact fragment_bind hpipe hcall hstub first true (by omega) _
        · rw [length_fragmentBytes, answerSize_of_le (by omega) hlast]
        · intro clientFuel hclient
          cases clientFuel with
          | zero =>
              rw [length_fragmentBytes] at hclient
              omega
          | succ clientFuel =>
              rw [Client.reassemble]
              exact (reads_fragment hpipe hcall hstub first true (by omega)).bind_nil (Reads.pure stub)
      · obtain ⟨rest, hrest, hlength, hread⟩ :=
          @ih false (stub.drop (pipe.maxFrag - 24)) (by rw [List.length_drop]; omega)
            (by rw [List.length_drop]; omega)
        have hchunk : (stub.take (pipe.maxFrag - 24)).length = pipe.maxFrag - 24 :=
          List.length_take_of_le (by omega)
        refine ⟨fragmentBytes pipe callId stub.length first false (stub.take (pipe.maxFrag - 24)) ++ rest,
          ?_, ?_, ?_⟩
        · rw [fragments, get_bind, decide_eq_false hlast]
          exact (fragment_bind hpipe hcall hstub first false (by omega) _).trans (bind_ok hrest)
        · rw [List.length_append, length_fragmentBytes, hchunk, hlength, List.length_drop,
            ← answerSize_of_lt (by omega) (by omega)]
        · intro clientFuel hclient
          rw [List.length_append, length_fragmentBytes] at hclient
          cases clientFuel with
          | zero => omega
          | succ clientFuel =>
              rw [Client.reassemble]
              refine (reads_fragment hpipe hcall hstub first false (by omega)).bind ?_
              have hrest' := (hread clientFuel (by omega)).bind_pure
                (g := fun rest => stub.take (pipe.maxFrag - 24) ++ rest)
              rwa [List.take_append_drop] at hrest'

/-! ## Requests -/

/-- The stub of a request, without the trailer of an authentication. -/
def requestStub (data : Bytes) : Bytes := data.sub 24 (data.field 8 2 - data.field 10 2 - 24)

/-- The call that a request makes. -/
def callOf (data : Bytes) : Option Client.Call :=
  (levelOf (requestStub data)).map fun level => ⟨data.field 12 4, level⟩

/-- A NetrShareEnum in one fragment. -/
structure Asks (contextId : Nat) (data : Bytes) (call : Client.Call) : Prop where
  version : data.field 0 1 = 5 ∧ data.field 1 1 ≤ 1
  ptype : data.field 2 1 = PTYPE_REQUEST
  whole : data.field 3 1 &&& PFC_FIRST_FRAG ≠ 0 ∧ data.field 3 1 &&& PFC_LAST_FRAG ≠ 0
  length : data.field 10 2 + 24 ≤ data.field 8 2 ∧ data.field 8 2 ≤ data.length
  context : data.field 20 2 = contextId
  opnum : data.field 22 2 = OPNUM_NETR_SHARE_ENUM
  made : callOf data = some call
  level : call.level ≤ 2

theorem transact_gives {pipe : Pipe} (hpipe : pipe.Negotiated) (hbound : pipe.bound = true)
    {data : Bytes} {call : Client.Call} (hasks : Asks pipe.contextId data call) {rows : List Row}
    (hrows : ∀ row ∈ rows, row.Sendable) (hsize : stubSize call.level rows < 2 ^ 32) :
    Gives (Pipe.transact rows data) pipe
      (answerSize (pipe.maxFrag - 24) (stubSize call.level rows))
      (Client.answer pipe.maxFrag pipe.contextId call) (rows.map (Row.shown call.level)) := by
  obtain ⟨hsized, hwhole⟩ := hasks.length
  obtain ⟨level, hlevel, rfl⟩ := Option.map_eq_some_iff.mp hasks.made
  have hcall : data.field 12 4 < 2 ^ 32 := data.field_lt 12 4
  have hbody : (data.sub 16 (data.field 8 2 - data.field 10 2 - 16)).drop 8 = requestStub data := by
    rw [requestStub, Bytes.sub, Bytes.sub, List.drop_take, List.drop_drop, Nat.sub_sub _ 16 8]
  have hlength : ¬ (data.sub 16 (data.field 8 2 - data.field 10 2 - 16)).length < 8 := by
    rw [Bytes.sub, List.length_take, List.length_drop]
    omega
  obtain ⟨stub, hstub, hstubLength, hstubRead⟩ :=
    shareEnum_gives hasks.level pipe hrows hsize hlevel
  obtain ⟨bytes, hbytes, hbytesLength, hbytesRead⟩ :=
    @fragments_give pipe hpipe (data.field 12 4) hcall (stub.length + 1) true stub
      (Nat.lt_succ_self _) (hstubLength ▸ hsize)
  refine ⟨bytes, ?_, ?_, ?_⟩
  · have hheader : ¬ (data.field 0 1 ≠ 5 ∨ 1 < data.field 1 1 ∨ data.length < data.field 8 2 ∨
        data.field 8 2 < 16) := by
      have hversion := hasks.version
      omega
    have hptype : ¬ (data.field 2 1 = PTYPE_BIND ∨ data.field 2 1 = PTYPE_ALTER_CONTEXT) := by
      rw [hasks.ptype]
      decide
    have hflags : ¬ (data.field 3 1 &&& PFC_FIRST_FRAG = 0 ∨ data.field 3 1 &&& PFC_LAST_FRAG = 0) :=
      fun h => h.elim hasks.whole.1 hasks.whole.2
    unfold Pipe.transact
    rw [if_neg (by omega)]
    dsimp only
    rw [if_neg hheader, if_neg hptype, if_pos hasks.ptype, if_neg hflags, if_pos (by omega)]
    unfold request
    have hcontext : (!pipe.bound ||
        (data.sub 16 (data.field 8 2 - data.field 10 2 - 16)).field 4 2 != pipe.contextId) = false := by
      rw [hbound, Bytes.field_sub data (by omega), hasks.context]
      simp
    have hopnum : ¬ (data.sub 16 (data.field 8 2 - data.field 10 2 - 16)).field 6 2 ≠
        OPNUM_NETR_SHARE_ENUM := by
      rw [Bytes.field_sub data (by omega)]
      exact not_not_intro hasks.opnum
    rw [if_neg hlength, get_bind, hcontext, if_neg Bool.false_ne_true, if_neg hopnum, hbody,
      bind_ok (rescue_ok (map_ok hstub))]
    exact hbytes
  · rw [hbytesLength, hstubLength]
  · intro rest
    have hfuel : bytes.length ≤ (bytes ++ rest).length := by
      rw [List.length_append]
      exact Nat.le_add_right _ _
    unfold Client.answer
    have hrun : Client.reassemble pipe.maxFrag pipe.contextId (data.field 12 4) (bytes ++ rest).length
        true (bytes ++ rest) = some (stub, rest) := hbytesRead _ hfuel rest
    show (Client.reassemble pipe.maxFrag pipe.contextId (data.field 12 4) (bytes ++ rest).length true
      (bytes ++ rest)).bind _ = _
    rw [hrun, Option.bind_some]
    dsimp only
    rw [hstubRead.decode]
    rfl

/-! ## Sessions -/

theorem keeps_pack {inv : Pipe → Prop} (items : List Item) : Keeps inv (pack items) := by
  unfold pack
  split
  · exact Keeps.pure _
  · exact Keeps.throw _

theorem keeps_pdu {inv : Pipe → Prop} (ptype flags callId : Nat) (body : Bytes) :
    Keeps inv (pdu ptype flags callId body) :=
  (keeps_pack _).bind fun _ => Keeps.pure _

/-- A pipe that was never written to by WRITE. -/
def Pipe.Fresh (pipe : Pipe) : Prop := pipe.Negotiated ∧ pipe.outbox = []

theorem keeps_contexts (body : Bytes) (count position : Nat) (accepted : Bool) :
    Keeps Pipe.Fresh (contexts body count position accepted) := by
  induction count generalizing position accepted with
  | zero => exact Keeps.pure _
  | succ count ih =>
      have hrejected (items : List Item) : Keeps Pipe.Fresh (do
          let result ← pack items
          return result ++ (← contexts body count
            (position + 24 + 20 * body.field (position + 2) 1) accepted)) :=
        (keeps_pack items).bind fun _ => (ih _ _).bind fun _ => Keeps.pure _
      change Keeps Pipe.Fresh (ite _ _ _)
      refine Keeps.ite (Keeps.throw _) ?_
      dsimp only
      refine Keeps.ite (hrejected _) (Keeps.ite ?_ (hrejected _))
      refine (Keeps.modify fun pipe hpipe => ?_).bind fun _ =>
        (keeps_pack _).bind fun _ => (ih _ _).bind fun _ => Keeps.pure _
      exact ⟨⟨body.field_lt position 2, hpipe.1.least, hpipe.1.most⟩, hpipe.2⟩

theorem keeps_bind (ptype callId : Nat) (body : Bytes) :
    Keeps Pipe.Fresh (Srvsvc.bind ptype callId body) := by
  unfold Srvsvc.bind
  split
  · exact Keeps.throw _
  · refine (keeps_contexts body _ _ _).bind fun _ => ?_
    refine (Keeps.modify fun pipe hpipe => ?_).bind fun _ => ?_
    · exact ⟨⟨hpipe.1.contextId, Nat.le_max_left _ _, Nat.max_le.mpr ⟨by decide, Nat.min_le_left _ _⟩⟩,
        hpipe.2⟩
    · exact (keeps_pack _).bind fun _ => (keeps_pack _).bind fun _ => (keeps_pack _).bind fun _ =>
        keeps_pdu _ _ _ _

theorem keeps_fault {inv : Pipe → Prop} (callId status : Nat) : Keeps inv (fault callId status) :=
  Keeps.get fun _ _ => (keeps_pack _).bind fun _ => keeps_pdu _ _ _ _

theorem fresh_new : Pipe.new.Fresh := ⟨⟨by decide, by decide, Nat.le_refl _⟩, rfl⟩

/-- Before a bind there are only faults. -/
theorem bind_of_transact {rows : List Row} {data ack : Bytes} {pipe : Pipe}
    (h : Pipe.transact rows data Pipe.new = .ok ack pipe) (hbound : pipe.bound = true) :
    ∃ ptype callId body, Srvsvc.bind ptype callId body Pipe.new = .ok ack pipe := by
  have hfault (callId status : Nat) : fault callId status Pipe.new ≠ .ok ack pipe := by
    intro hf
    have hkeeps := @keeps_fault (· = Pipe.new) callId status Pipe.new rfl
    rw [hf] at hkeeps
    cases hkeeps
    cases hbound
  unfold Pipe.transact at h
  split at h
  · cases h
  · dsimp only at h
    split at h
    · cases h
    · generalize (if data.field 10 2 ≤ data.field 8 2 then data.field 8 2 - data.field 10 2
        else data.length - (data.field 10 2 - data.field 8 2)) = stop at h
      split at h
      · exact ⟨_, _, _, h⟩
      · split at h
        · split at h
          · exact absurd h (hfault _ _)
          · unfold request at h
            split at h
            · cases h
            · exact absurd h (hfault (data.field 12 4) NCA_PROTO_ERROR)
        · cases h

variable {rows : List Row} {fileId : Bytes}

def Act.call? : Act → Option Client.Call
  | .transceive data _ => callOf data
  | .read _ => none

/-- The calls that were made. -/
def calls (acts : List Act) : List Client.Call := acts.filterMap Act.call?

/-- A NetrShareEnum of level 0, 1 or 2, or a READ. -/
def Act.Asks (contextId : Nat) : Act → Prop
  | .transceive data maxOut => maxOut < 2 ^ 32 ∧ ∃ call, Smb2.Asks contextId data call
  | .read _ => True

/-- No answer waits when another is asked for, and the sizes of the new one are numbers of 32 bits. -/
def Act.Ready (rows : List Row) (s : Session) : Act → Prop
  | .transceive data maxOut => s.pipe.outbox = [] ∧ ∀ call ∈ callOf data,
      stubSize call.level rows < 2 ^ 32 ∧
        (maxOut = 0 → answerSize (s.pipe.maxFrag - 24) (stubSize call.level rows) < 2 ^ 32)
  | .read _ => True

/-- The condition at each step of a run. -/
def Ready (rows : List Row) (fileId : Bytes) : Session → List Act → Prop
  | _, [] => True
  | s, act :: acts => act.Ready rows s ∧ Ready rows fileId (s.step rows fileId act) acts

/-- What was sent and what waits are the answers to the calls, in fragments of at most `limit` bytes,
and each of them is the list. -/
def Delivers (rows : List Row) (limit contextId : Nat) (acts : List Act) (s : Session) : Prop :=
  decode ((calls acts).mapM (Client.answer limit contextId)) (s.delivered ++ s.pipe.outbox) =
    some ((calls acts).map fun call => rows.map (Row.shown call.level))

/-- What holds of a session: its pipe is the one that was bound, but for what waits in it. -/
structure Session.Good (rows : List Row) (bound : Pipe) (acts : List Act) (s : Session) : Prop where
  pipe : s.pipe = { bound with outbox := s.pipe.outbox }
  reads : Reads ((calls acts).mapM (Client.answer bound.maxFrag bound.contextId))
    (s.delivered ++ s.pipe.outbox) ((calls acts).map fun call => rows.map (Row.shown call.level))

theorem calls_concat (acts : List Act) (act : Act) :
    calls (acts ++ [act]) = calls acts ++ act.call?.toList := by
  rw [calls, List.filterMap_append, ← calls]
  cases h : act.call? with
  | none => simp [h]
  | some call => simp [h]

/-- What a transceive does not send comes first in the pipe. -/
theorem transceive_ok {pipe : Pipe} {data answer : Bytes} {maxOut : Nat}
    (hanswer : Pipe.transact rows data pipe = .ok answer pipe) (hmax : maxOut < 2 ^ 32)
    (hwhole : maxOut = 0 → answer.length < 2 ^ 32) :
    ∃ body out rest, Pipe.transceive rows fileId data maxOut pipe =
        .ok (body, out) { pipe with outbox := rest ++ pipe.outbox } ∧ out ++ rest = answer := by
  have hfits {n : Nat} (hn : n < 2 ^ 32) : (transceiveItems fileId n).all Item.fits = true := by
    simpa [transceiveItems, Item.fits, FSCTL_PIPE_TRANSCEIVE, HEADER_SIZE] using hn
  unfold Pipe.transceive
  by_cases hcut : (maxOut != 0 && decide (maxOut < answer.length)) = true
  · have hlength : (answer.take maxOut).length < 2 ^ 32 :=
      Nat.lt_of_le_of_lt (List.length_take_le _ _) hmax
    refine ⟨(transceiveItems fileId (answer.take maxOut).length).flatMap Item.bytes, answer.take maxOut,
      answer.drop maxOut, ?_, List.take_append_drop _ _⟩
    rw [bind_ok hanswer]
    dsimp only
    rw [if_pos hcut, if_pos hcut, bind_ok (modify_apply _ _), pack_bind (hfits hlength)]
    rfl
  · have hlength : answer.length < 2 ^ 32 := by
      rw [Bool.and_eq_true, bne_iff_ne, decide_eq_true_eq] at hcut
      omega
    refine ⟨(transceiveItems fileId answer.length).flatMap Item.bytes, answer, [], ?_,
      List.append_nil _⟩
    rw [bind_ok hanswer]
    dsimp only
    rw [if_neg hcut, if_neg hcut, pack_bind (hfits hlength)]
    rfl

/-- A READ takes from the front of the pipe what it sends. -/
theorem readReply_ok (pipe : Pipe) (length : Nat) :
    (∃ body out rest, Pipe.readReply length pipe = .ok (body, out) { pipe with outbox := rest } ∧
      out ++ rest = pipe.outbox) ∨
    ∃ e, Pipe.readReply length pipe = .error e pipe := by
  unfold Pipe.readReply Pipe.read
  rw [get_bind]
  dsimp only
  rw [bind_ok (set_apply _ _)]
  by_cases hnil : pipe.outbox.take (min length MAX_READ) = []
  · right
    refine ⟨.status STATUS_PIPE_EMPTY, ?_⟩
    have hrest : pipe.outbox.drop (min length MAX_READ) = pipe.outbox := by
      have hall := List.take_append_drop (min length MAX_READ) pipe.outbox
      rwa [hnil, List.nil_append] at hall
    rw [if_pos hnil, hrest]
    rfl
  · left
    have hlength : (pipe.outbox.take (min length MAX_READ)).length ≤ 1048576 :=
      Nat.le_trans (List.length_take_le _ _) (Nat.min_le_right _ _)
    generalize hdata : pipe.outbox.take (min length MAX_READ) = data at hnil hlength ⊢
    have hfits : (readItems data.length).all Item.fits = true := by
      simp only [readItems, List.all_cons, List.all_nil, Item.fits, Bool.and_true, Bool.and_eq_true,
        decide_eq_true_eq, HEADER_SIZE]
      omega
    refine ⟨(readItems data.length).flatMap Item.bytes, data, pipe.outbox.drop (min length MAX_READ), ?_,
      hdata ▸ List.take_append_drop (min length MAX_READ) pipe.outbox⟩
    rw [if_neg hnil, pack_bind hfits]
    rfl

theorem good_step {bound : Pipe} (hneg : bound.Negotiated) (hbound : bound.bound = true)
    (hrows : ∀ row ∈ rows, row.Sendable) {acts : List Act} {s : Session} (hs : s.Good rows bound acts)
    {act : Act} (hasks : act.Asks bound.contextId) (hready : act.Ready rows s) :
    (s.step rows fileId act).Good rows bound (acts ++ [act]) := by
  have hpipe := hs.pipe
  cases act with
  | transceive data maxOut =>
      obtain ⟨hmax, call, hcall⟩ := hasks
      obtain ⟨hempty, hready⟩ := hready
      obtain ⟨hsize, hwhole⟩ := hready call hcall.made
      rw [hempty] at hpipe
      have hneg' : s.pipe.Negotiated := by
        rw [hpipe]
        exact ⟨hneg.contextId, hneg.least, hneg.most⟩
      have hbound' : s.pipe.bound = true := by
        rw [hpipe]
        exact hbound
      have hcall' : Smb2.Asks s.pipe.contextId data call := by
        rw [hpipe]
        exact hcall
      obtain ⟨answer, hanswer, hlength, hread⟩ := transact_gives hneg' hbound' hcall' hrows hsize
      obtain ⟨body, out, rest, hok, hparts⟩ :=
        @transceive_ok rows fileId _ _ _ _ hanswer hmax fun h => hlength ▸ hwhole h
      rw [Session.step, hok]
      constructor
      · show { s.pipe with outbox := rest ++ s.pipe.outbox } = { bound with outbox := rest ++ s.pipe.outbox }
        rw [hpipe]
      · show Reads _ ((s.delivered ++ out) ++ (rest ++ s.pipe.outbox)) _
        have hcalls : calls (acts ++ [.transceive data maxOut]) = calls acts ++ [call] := by
          rw [calls_concat, Act.call?, hcall.made]
          rfl
        have hall := hs.reads
        rw [hempty, List.append_nil] at hall ⊢
        rw [hcalls, List.append_assoc, hparts, List.map_append]
        rw [hpipe] at hread
        exact reads_mapM_concat hall hread
  | read length =>
      have hcalls : calls (acts ++ [.read length]) = calls acts := by
        rw [calls_concat]
        exact List.append_nil _
      rw [Session.step]
      rcases readReply_ok s.pipe length with ⟨body, out, rest, hok, hparts⟩ | ⟨e, herror⟩
      · rw [hok]
        constructor
        · show { s.pipe with outbox := rest } = { bound with outbox := rest }
          rw [hpipe]
        · show Reads _ ((s.delivered ++ out) ++ rest) _
          rw [hcalls, List.append_assoc, hparts]
          exact hs.reads
      · rw [herror]
        exact ⟨hs.pipe, hcalls ▸ hs.reads⟩

theorem good_run {bound : Pipe} (hneg : bound.Negotiated) (hbound : bound.bound = true)
    (hrows : ∀ row ∈ rows, row.Sendable) {made acts : List Act} {s : Session}
    (hs : s.Good rows bound made) (hasks : ∀ act ∈ acts, act.Asks bound.contextId)
    (hready : Ready rows fileId s acts) : (s.run rows fileId acts).Good rows bound (made ++ acts) := by
  induction acts generalizing s made with
  | nil => rwa [List.append_nil]
  | cons act rest ih =>
      have hnext : Session.Good rows bound (made ++ [act]) (s.step rows fileId act) :=
        good_step hneg hbound hrows hs (hasks act List.mem_cons_self) hready.1
      have hrest := ih hnext (fun a ha => hasks a (List.mem_cons_of_mem act ha)) hready.2
      rwa [List.append_assoc] at hrest

theorem pack_inv {items : List Item} {bytes : Bytes} {pipe pipe' : Pipe}
    (h : pack items pipe = .ok bytes pipe') : bytes = items.flatMap Item.bytes ∧ pipe' = pipe := by
  by_cases hfits : items.all Item.fits = true
  · rw [pack_apply hfits] at h
    cases h
    exact ⟨rfl, rfl⟩
  · have hnone : Struct.pack items = none := if_neg hfits
    rw [pack, hnone] at h
    cases h

/-- The fragment size that a bind is answered with is the one of the pipe. -/
theorem maxFrag_of_bind {ptype callId : Nat} {body ack : Bytes} {pipe bound : Pipe}
    (h : Srvsvc.bind ptype callId body pipe = .ok ack bound) (hlimit : bound.maxFrag < 2 ^ 16) :
    ack.field 16 2 = bound.maxFrag := by
  unfold Srvsvc.bind at h
  split at h
  · cases h
  · dsimp only at h
    generalize max 1024 (min MAX_FRAG (if body.field 2 2 = 0 then MAX_FRAG else body.field 2 2)) = size at h
    obtain ⟨results, p1, -, h⟩ := bind_ok_iff.mp h
    obtain ⟨_, p2, hmodify, h⟩ := bind_ok_iff.mp h
    cases hmodify
    obtain ⟨head, p3, hhead, h⟩ := bind_ok_iff.mp h
    obtain ⟨address, p4, haddress, h⟩ := bind_ok_iff.mp h
    obtain ⟨number, p5, hnumber, h⟩ := bind_ok_iff.mp h
    obtain ⟨header, p6, hheader, h⟩ := bind_ok_iff.mp h
    obtain ⟨rfl, rfl⟩ := pack_inv hhead
    obtain ⟨rfl, rfl⟩ := pack_inv haddress
    obtain ⟨rfl, rfl⟩ := pack_inv hnumber
    obtain ⟨rfl, rfl⟩ := pack_inv hheader
    cases h
    have hsize : size < 256 ^ 2 := hlimit
    have hbehind (items : List Item) (hitems : Struct.calcsize items = 16) (rest : Bytes) :
        Bytes.field (items.flatMap Item.bytes ++ rest) 16 2 = rest.field 0 2 := by
      rw [← hitems, ← Struct.length_flatMap]
      exact Bytes.field_append _ rest 0 2
    refine (hbehind _ rfl _).trans ?_
    unfold pad4
    simp only [List.flatMap_cons, Item.bytes, List.append_assoc]
    exact (Bytes.field_ofNat 2 size _).trans (Nat.mod_eq_of_lt hsize)

/-- The list of shares comes whole and in order, where no call is made while an answer waits. -/
theorem shares_delivered (hrows : ∀ row ∈ rows, row.Sendable) {request ack : Bytes} {bound : Pipe}
    (hbind : Pipe.transact rows request Pipe.new = .ok ack bound) (hbound : bound.bound = true)
    (acts : List Act) (hasks : ∀ act ∈ acts, act.Asks bound.contextId)
    (hready : Ready rows fileId ⟨bound, []⟩ acts) :
    Delivers rows (ack.field 16 2) bound.contextId acts (Session.run rows fileId ⟨bound, []⟩ acts) := by
  obtain ⟨ptype, callId, body, hack⟩ := bind_of_transact hbind hbound
  have hfresh := keeps_bind ptype callId body Pipe.new fresh_new
  rw [hack] at hfresh
  obtain ⟨hneg, hempty⟩ : bound.Fresh := hfresh
  have hlimit := maxFrag_of_bind hack (Nat.lt_of_le_of_lt hneg.most (by decide))
  have hgood : Session.Good rows bound [] ⟨bound, []⟩ := by
    constructor
    · rfl
    · show Reads _ ([] ++ bound.outbox) _
      rw [hempty]
      exact reads_mapM_nil
  have hrun := (good_run hneg hbound hrows hgood hasks hready).reads
  rw [List.nil_append, ← hlimit] at hrun
  exact hrun.decode

/-! ## One share -/

def oneShare : List Row := [⟨lit "GAMES", STYPE_DISKTREE, [], []⟩]

def bindPdu : Bytes :=
  [5, 0, 11, 3, 0x10, 0, 0, 0, 72, 0, 0, 0, 1, 0, 0, 0, 0xb8, 0x10, 0xb8, 0x10, 0, 0, 0, 0, 1, 0, 0, 0,
    0, 0, 1, 0] ++ SRVSVC_SYNTAX ++ NDR32_SYNTAX

def bindAck : Bytes :=
  [5, 0, 12, 3, 0x10, 0, 0, 0, 68, 0, 0, 0, 1, 0, 0, 0, 0xb8, 0x10, 0xb8, 0x10, 0xf0, 0x53, 0, 0, 13, 0] ++
    secondaryAddress ++ [0, 1, 0, 0, 0, 0, 0, 0, 0] ++ NDR32_SYNTAX

/-- A NetrShareEnum of level 1. -/
def enumPdu : Bytes :=
  [5, 0, 0, 3, 0x10, 0, 0, 0, 36, 0, 0, 0, 2, 0, 0, 0, 12, 0, 0, 0, 0, 0, 15, 0, 0, 0, 0, 0, 1, 0, 0, 0,
    1, 0, 0, 0]

def boundPipe : Pipe := ⟨true, 0, MAX_FRAG, []⟩

/-- What a call gives, if it ends. -/
def given {α : Type} : EStateM.Result Exn Pipe α → Option (α × Pipe)
  | .ok a pipe => some (a, pipe)
  | .error _ _ => none

theorem given_eq_some {α : Type} {result : EStateM.Result Exn Pipe α} {a : α} {pipe : Pipe}
    (h : given result = some (a, pipe)) : result = .ok a pipe := by
  cases result with
  | ok b p =>
      cases h
      rfl
  | error e p => cases h

theorem transact_bindPdu : Pipe.transact oneShare bindPdu Pipe.new = .ok bindAck boundPipe :=
  given_eq_some (by decide +kernel)

theorem asks_enumPdu : Asks 0 enumPdu ⟨2, 1⟩ := by
  constructor <;> decide

/-- A remark of 400 characters. -/
def longRemark : Str := (List.replicate 20 (lit "All discs and cards ")).flatten

def threeShares : List Row :=
  [⟨lit "GAMES", STYPE_DISKTREE, longRemark, []⟩,
    ⟨lit "SAVES", STYPE_DISKTREE, lit "memory cards", []⟩, ⟨lit "POPS", STYPE_DISKTREE, [], []⟩]

/-- The bind of a client that takes fragments of 1024 bytes. -/
def narrowBindPdu : Bytes :=
  [5, 0, 11, 3, 0x10, 0, 0, 0, 72, 0, 0, 0, 1, 0, 0, 0, 0, 4, 0, 4, 0, 0, 0, 0, 1, 0, 0, 0,
    0, 0, 1, 0] ++ SRVSVC_SYNTAX ++ NDR32_SYNTAX

def narrowBindAck : Bytes :=
  [5, 0, 12, 3, 0x10, 0, 0, 0, 68, 0, 0, 0, 1, 0, 0, 0, 0, 4, 0, 4, 0xf0, 0x53, 0, 0, 13, 0] ++
    secondaryAddress ++ [0, 1, 0, 0, 0, 0, 0, 0, 0] ++ NDR32_SYNTAX

def narrowPipe : Pipe := ⟨true, 0, 1024, []⟩

/-- A NetrShareEnum of level 0. -/
def namesPdu : Bytes :=
  [5, 0, 0, 3, 0x10, 0, 0, 0, 36, 0, 0, 0, 3, 0, 0, 0, 12, 0, 0, 0, 0, 0, 15, 0, 0, 0, 0, 0, 0, 0, 0, 0,
    0, 0, 0, 0]

theorem transact_narrowBindPdu :
    Pipe.transact threeShares narrowBindPdu Pipe.new = .ok narrowBindAck narrowPipe :=
  given_eq_some (by decide +kernel)

theorem sendable_threeShares : ∀ row ∈ threeShares, row.Sendable := by
  have hempty : Plain [] := ⟨rfl, by decide⟩
  intro row hrow
  simp only [threeShares, List.mem_cons, List.not_mem_nil, or_false] at hrow
  rcases hrow with rfl | rfl | rfl
  · exact ⟨⟨by decide, by decide⟩, ⟨by decide +kernel, by decide +kernel⟩, hempty, by decide⟩
  · exact ⟨⟨by decide, by decide⟩, ⟨by decide, by decide⟩, hempty, by decide⟩
  · exact ⟨⟨by decide, by decide⟩, hempty, hempty, by decide⟩

theorem asks_namesPdu : Asks 0 namesPdu ⟨3, 0⟩ := by
  constructor <;> decide

/-- Two calls, the first answered in two fragments, and their answers read in pieces. -/
def listing : List Act :=
  [.transceive enumPdu 100, .read 700, .read 4096, .transceive namesPdu 0]

theorem shares_delivered_fragments :
    answerSize (narrowPipe.maxFrag - 24) (stubSize 1 threeShares) = 1068 ∧
      Delivers threeShares 1024 0 listing
        (Session.run threeShares [] ⟨narrowPipe, []⟩ listing) := by
  refine ⟨by decide +kernel,
    shares_delivered sendable_threeShares transact_narrowBindPdu rfl listing ?_ ?_⟩
  · intro act hact
    simp only [listing, List.mem_cons, List.not_mem_nil, or_false] at hact
    rcases hact with rfl | rfl | rfl | rfl
    · exact ⟨by decide, _, asks_enumPdu⟩
    · trivial
    · trivial
    · exact ⟨by decide, _, asks_namesPdu⟩
  · refine ⟨⟨rfl, fun call hcall => ?_⟩, trivial, trivial,
      ⟨by decide +kernel, fun call hcall => ?_⟩, trivial⟩
    · cases (Option.some.inj (asks_enumPdu.made.symm.trans hcall))
      decide +kernel
    · cases (Option.some.inj (asks_namesPdu.made.symm.trans hcall))
      decide +kernel

/-- A second call before the rest of the first answer was read: all was delivered, but the two answers
are mixed up. -/
theorem not_delivered_twice :
    Pipe.transact oneShare bindPdu Pipe.new = .ok bindAck boundPipe ∧ Asks 0 enumPdu ⟨2, 1⟩ ∧
      (Session.run oneShare [] ⟨boundPipe, []⟩
        [.transceive enumPdu 1, .transceive enumPdu 1, .read 4096]).pipe.outbox = [] ∧
      ¬ Delivers oneShare 4280 0 [.transceive enumPdu 1, .transceive enumPdu 1, .read 4096]
        (Session.run oneShare [] ⟨boundPipe, []⟩
          [.transceive enumPdu 1, .transceive enumPdu 1, .read 4096]) := by
  unfold Delivers
  exact ⟨transact_bindPdu, asks_enumPdu, by decide +kernel, by decide +kernel⟩

end Ps2Servers.Smb2
