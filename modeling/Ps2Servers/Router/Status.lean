import Ps2Servers.Lib.Struct
import Ps2Servers.Lib.Utf8

/-!
# The router status protocol

A reply to a status query is written and read by the Python servers and by the Edge server. They
write the same bytes, and of every datagram they read the same: state, flags, sessions and
uptime, and a name that is UTF-8 in one and bytes in the other.

## Implementation notes

A name is cut behind 255 bytes. Numbers are any integers on the Python side, and fields
of their sizes on the other.
-/

namespace Ps2Servers.Router

open Struct (Item)
open Text (decodeReplace encodeReplace)

/-! ## The Python servers -/

namespace Status

def SVC_STATUS : Nat := 0xF5F7

/-- `PS2S` -/
def MAGIC : Bytes := [0x50, 0x53, 0x32, 0x53]

def VERSION : Nat := 1

def QUERY_LEN : Nat := 10

def FIXED_LEN : Nat := 19

def PKT_DISCOVERY : Nat := 0

def PKT_INFORM : Nat := 1

def STATE_DEGRADED : Nat := 3

def STATE_STOPPING : Nat := 4

def STATE_NAMES : List (Nat × String) :=
  [(0, "starting"), (1, "ready"), (2, "busy"), (3, "degraded"), (4, "stopping")]

/-- `_pack_header`. -/
def packHeader (packetType sequence : Nat) : Bytes :=
  .ofNat 2 (packetType % 0x10 + sequence % 0x1000 * 0x10)

/-- The packet type of `_unpack_header`. -/
def packetType (data : Bytes) : Nat := data.field 0 2 % 0x10

def isStatusQuery (data : Bytes) : Bool :=
  QUERY_LEN ≤ data.length && packetType data = PKT_DISCOVERY && data.field 2 2 = SVC_STATUS &&
    data.sub 6 4 = MAGIC

def buildStatusQuery : Bytes :=
  packHeader PKT_DISCOVERY 0 ++ .ofNat 2 SVC_STATUS ++ .ofNat 2 0 ++ MAGIC

/-- Packing refuses a negative number of sessions. -/
def buildStatusReply (state flags sessions uptimeSeconds : Int) (name : Str) : Option Bytes := do
  let encoded := (encodeReplace name).take 255
  let sessions := min sessions 0xFFFF
  if sessions < 0 then none
  else
    let fields ← Struct.pack [.B VERSION, .B (state % 0x100).toNat, .H (flags % 0x10000).toNat,
      .H sessions.toNat, .I (min (max uptimeSeconds 0) 0xFFFFFFFF).toNat, .B encoded.length]
    return packHeader PKT_INFORM 0 ++ .ofNat 2 SVC_STATUS ++ MAGIC ++ fields ++ encoded

/-- What `parse_status_reply` returns. -/
structure Reply where
  version : Nat
  state : Nat
  stateName : String
  flags : Nat
  sessions : Nat
  uptime : Nat
  name : Str
  deriving DecidableEq, Repr

def parseStatusReply (data : Bytes) : Option Reply :=
  if data.length < FIXED_LEN then none
  else
    let version := data.field 8 1
    let state := data.field 9 1
    let flags := data.field 10 2
    let sessions := data.field 12 2
    let uptime := data.field 14 4
    let nameLen := data.field 18 1
    if packetType data ≠ PKT_INFORM ∨ data.field 2 2 ≠ SVC_STATUS then none
    else if data.sub 4 4 ≠ MAGIC then none
    else if version ≠ VERSION then none
    else if nameLen ≠ 0 ∧ data.length < FIXED_LEN + nameLen then none
    else
      let name := if nameLen = 0 then [] else decodeReplace (data.sub FIXED_LEN nameLen)
      let state := if STATE_STOPPING < state then STATE_DEGRADED else state
      some ⟨version, state, (STATE_NAMES.lookup state).getD "degraded", flags, sessions, uptime,
        name⟩

end Status

/-! ## The Edge server -/

namespace Edge

def SequenceMask : UInt16 := 0xFFF

def Discovery : UInt8 := 0

def Inform : UInt8 := 1

def ServiceStatus : UInt16 := 0xF5F7

/-- `PS2S` -/
def StatusMagic : Bytes := [0x50, 0x53, 0x32, 0x53]

def StatusVersion : UInt8 := 1

def StatusQueryLen : Nat := 10

def StatusFixedLen : Nat := 19

def StateDegraded : UInt8 := 3

def StateStopping : UInt8 := 4

/-- `ServerState.String`. -/
def stateString (s : UInt8) : String :=
  if s = 0 then "starting"
  else if s = 1 then "ready"
  else if s = 2 then "busy"
  else if s = 3 then "degraded"
  else if s = 4 then "stopping"
  else "degraded"

def putUint16 (v : UInt16) : Bytes := .ofNat 2 v.toNat

def putUint32 (v : UInt32) : Bytes := .ofNat 4 v.toNat

def uint8 (b : Bytes) (offset : Nat) : UInt8 := .ofNat (b.field offset 1)

def uint16 (b : Bytes) (offset : Nat) : UInt16 := .ofNat (b.field offset 2)

def uint32 (b : Bytes) (offset : Nat) : UInt32 := .ofNat (b.field offset 4)

structure Header where
  type : UInt8
  sequence : UInt16
  deriving DecidableEq, Repr

def Header.marshal (h : Header) : Bytes :=
  putUint16 (h.type.toUInt16 &&& (0xF : UInt16) ||| (h.sequence &&& SequenceMask) <<< 4)

def parseHeader (b : Bytes) : Option Header :=
  if b.length < 2 then none
  else
    let v := uint16 b 0
    some ⟨(v &&& (0xF : UInt16)).toUInt8, (v >>> 4) &&& SequenceMask⟩

structure DiscoveryHeader where
  serviceID : UInt16
  port : UInt16
  deriving DecidableEq, Repr

def DiscoveryHeader.marshal (h : DiscoveryHeader) : Bytes := putUint16 h.serviceID ++ putUint16 h.port

def parseDiscoveryHeader (b : Bytes) : Option DiscoveryHeader :=
  if b.length < 4 then none else some ⟨uint16 b 0, uint16 b 2⟩

structure StatusReply where
  version : UInt8
  state : UInt8
  flags : UInt16
  sessions : UInt16
  uptime : UInt32
  name : Bytes
  deriving DecidableEq, Repr

def isStatusQuery (packet : Bytes) : Bool :=
  if packet.length < StatusQueryLen then false
  else
    match parseHeader packet, parseDiscoveryHeader (packet.drop 2) with
    | some h, some dh =>
        h.type = Discovery && dh.serviceID = ServiceStatus && packet.sub 6 4 = StatusMagic
    | _, _ => false

def marshalStatusQuery : Bytes :=
  Header.marshal ⟨Discovery, 0⟩ ++ DiscoveryHeader.marshal ⟨ServiceStatus, 0⟩ ++ StatusMagic

def StatusReply.marshal (r : StatusReply) : Bytes :=
  let name := if 255 < r.name.length then r.name.take 255 else r.name
  Header.marshal ⟨Inform, 0⟩ ++ putUint16 ServiceStatus ++ StatusMagic ++
    [StatusVersion, r.state] ++ putUint16 r.flags ++ putUint16 r.sessions ++ putUint32 r.uptime ++
    [UInt8.ofNat name.length] ++ name

inductive StatusError
  | notStatusReply
  | statusVersion
  | statusTruncated
  deriving DecidableEq, Repr

def parseStatusReply (b : Bytes) : Except StatusError StatusReply :=
  if b.length < StatusFixedLen then .error .statusTruncated
  else if (parseHeader b).map Header.type ≠ some Inform then .error .notStatusReply
  else if uint16 b 2 ≠ ServiceStatus then .error .notStatusReply
  else if b.sub 4 4 ≠ StatusMagic then .error .notStatusReply
  else if uint8 b 8 ≠ StatusVersion then .error .statusVersion
  else
    let state := if StateStopping < uint8 b 9 then StateDegraded else uint8 b 9
    let nameLen := (uint8 b 18).toNat
    if 0 < nameLen ∧ b.length < StatusFixedLen + nameLen then .error .statusTruncated
    else
      let name := if 0 < nameLen then b.sub StatusFixedLen nameLen else []
      .ok ⟨uint8 b 8, state, uint16 b 10, uint16 b 12, uint32 b 14, name⟩

/-- The reply as the Python servers have it. -/
def StatusReply.view (r : StatusReply) : Status.Reply :=
  ⟨r.version.toNat, r.state.toNat, stateString r.state, r.flags.toNat, r.sessions.toNat,
    r.uptime.toNat, decodeReplace r.name⟩

end Edge

/-! ## Reading -/

namespace Edge

theorem toNat_uint8 (b : Bytes) (offset : Nat) : (uint8 b offset).toNat = b.field offset 1 := by
  have hlt := b.field_lt offset 1
  rw [uint8, UInt8.toNat_ofNat']
  omega

theorem toNat_uint16 (b : Bytes) (offset : Nat) : (uint16 b offset).toNat = b.field offset 2 := by
  have hlt := b.field_lt offset 2
  rw [uint16, UInt16.toNat_ofNat']
  omega

theorem toNat_uint32 (b : Bytes) (offset : Nat) : (uint32 b offset).toNat = b.field offset 4 := by
  have hlt := b.field_lt offset 4
  rw [uint32, UInt32.toNat_ofNat']
  omega

/-- The type of a header that is there. -/
theorem type_parseHeader {b : Bytes} (h : 2 ≤ b.length) :
    ∃ header, parseHeader b = some header ∧ header.type.toNat = Status.packetType b := by
  unfold parseHeader
  rw [if_neg (by omega)]
  refine ⟨_, rfl, ?_⟩
  have hmask := Nat.and_two_pow_sub_one_eq_mod (b.field 0 2) 4
  change ((uint16 b 0 &&& (0xF : UInt16)).toUInt8).toNat = _
  rw [UInt16.toNat_toUInt8, UInt16.toNat_and, toNat_uint16]
  change (b.field 0 2 &&& 2 ^ 4 - 1) % 2 ^ 8 = b.field 0 2 % 16
  rw [hmask]
  omega

theorem stateString_eq (s : UInt8) :
    (Status.STATE_NAMES.lookup s.toNat).getD "degraded" = stateString s := by
  unfold stateString
  split
  · rename_i h
    rw [h]
    rfl
  split
  · rename_i h
    rw [h]
    rfl
  split
  · rename_i h
    rw [h]
    rfl
  split
  · rename_i h
    rw [h]
    rfl
  split
  · rename_i h
    rw [h]
    rfl
  · rename_i h0 h1 h2 h3 h4
    simp only [← UInt8.toNat_inj] at h0 h1 h2 h3 h4
    change s.toNat ≠ 0 at h0
    change s.toNat ≠ 1 at h1
    change s.toNat ≠ 2 at h2
    change s.toNat ≠ 3 at h3
    change s.toNat ≠ 4 at h4
    simp only [Status.STATE_NAMES, List.lookup_cons, List.lookup_nil, beq_false_of_ne h0,
      beq_false_of_ne h1, beq_false_of_ne h2, beq_false_of_ne h3, beq_false_of_ne h4]
    rfl

end Edge

/-- Both sides read the same of every datagram. -/
theorem parseStatusReply_eq (data : Bytes) :
    Status.parseStatusReply data = (Edge.parseStatusReply data).toOption.map Edge.StatusReply.view := by
  unfold Status.parseStatusReply Edge.parseStatusReply
  by_cases hlength : data.length < Status.FIXED_LEN
  · have hedge : data.length < Edge.StatusFixedLen := hlength
    rw [if_pos hlength, if_pos hedge]
    rfl
  have hedge : ¬ data.length < Edge.StatusFixedLen := hlength
  rw [if_neg hlength, if_neg hedge]
  have hheader : 2 ≤ data.length := Nat.le_trans (by decide) (Nat.le_of_not_lt hlength)
  obtain ⟨header, hheader, htype⟩ := Edge.type_parseHeader hheader
  have hinform : (Edge.parseHeader data).map Edge.Header.type ≠ some Edge.Inform ↔
      Status.packetType data ≠ Status.PKT_INFORM := by
    rw [hheader, Option.map_some, ← htype]
    exact not_congr ((Option.some_inj).trans UInt8.toNat_inj.symm)
  have hservice : Edge.uint16 data 2 ≠ Edge.ServiceStatus ↔
      data.field 2 2 ≠ Status.SVC_STATUS := by
    rw [← Edge.toNat_uint16]
    exact not_congr UInt16.toNat_inj.symm
  have hversion : Edge.uint8 data 8 ≠ Edge.StatusVersion ↔ data.field 8 1 ≠ Status.VERSION := by
    rw [← Edge.toNat_uint8]
    exact not_congr UInt8.toNat_inj.symm
  dsimp only
  by_cases hone : Status.packetType data ≠ Status.PKT_INFORM
  · rw [if_pos (Or.inl hone), if_pos (hinform.mpr hone)]
    rfl
  rw [if_neg (mt hinform.mp hone)]
  by_cases htwo : data.field 2 2 ≠ Status.SVC_STATUS
  · rw [if_pos (Or.inr htwo), if_pos (hservice.mpr htwo)]
    rfl
  rw [if_neg (not_or.mpr ⟨hone, htwo⟩), if_neg (mt hservice.mp htwo)]
  by_cases hmagic : data.sub 4 4 ≠ Status.MAGIC
  · have hedge : data.sub 4 4 ≠ Edge.StatusMagic := hmagic
    rw [if_pos hmagic, if_pos hedge]
    rfl
  have hedge : ¬ data.sub 4 4 ≠ Edge.StatusMagic := hmagic
  rw [if_neg hmagic, if_neg hedge]
  by_cases hthree : data.field 8 1 ≠ Status.VERSION
  · rw [if_pos hthree, if_pos (hversion.mpr hthree)]
    rfl
  rw [if_neg hthree, if_neg (mt hversion.mp hthree), Edge.toNat_uint8]
  have hname : (0 < data.field 18 1 ∧ data.length < Edge.StatusFixedLen + data.field 18 1) ↔
      data.field 18 1 ≠ 0 ∧ data.length < Status.FIXED_LEN + data.field 18 1 :=
    and_congr_left fun _ => Nat.pos_iff_ne_zero
  by_cases hfour : data.field 18 1 ≠ 0 ∧ data.length < Status.FIXED_LEN + data.field 18 1
  · rw [if_pos hfour, if_pos (hname.mpr hfour)]
    rfl
  rw [if_neg hfour, if_neg (mt hname.mp hfour)]
  have hstate : (if Edge.StateStopping < Edge.uint8 data 9 then Edge.StateDegraded
      else Edge.uint8 data 9).toNat = if Status.STATE_STOPPING < data.field 9 1 then
        Status.STATE_DEGRADED else data.field 9 1 := by
    have hlt : Edge.StateStopping < Edge.uint8 data 9 ↔ Status.STATE_STOPPING < data.field 9 1 := by
      rw [← Edge.toNat_uint8]
      exact UInt8.lt_iff_toNat_lt
    by_cases hunknown : Status.STATE_STOPPING < data.field 9 1
    · rw [if_pos hunknown, if_pos (hlt.mpr hunknown)]
      rfl
    · rw [if_neg hunknown, if_neg (mt hlt.mp hunknown), Edge.toNat_uint8]
  have hdecode : decodeReplace (if 0 < data.field 18 1 then
      data.sub Edge.StatusFixedLen (data.field 18 1) else []) =
        if data.field 18 1 = 0 then [] else
          decodeReplace (data.sub Status.FIXED_LEN (data.field 18 1)) := by
    by_cases hzero : data.field 18 1 = 0
    · rw [if_neg (by omega), if_pos hzero]
      rfl
    · rw [if_pos (Nat.pos_of_ne_zero hzero), if_neg hzero]
      rfl
  change _ = some (Edge.StatusReply.view _)
  unfold Edge.StatusReply.view
  dsimp only
  rw [hdecode, ← Edge.stateString_eq, hstate, Edge.toNat_uint8, Edge.toNat_uint16,
    Edge.toNat_uint16, Edge.toNat_uint32]

theorem field_drop (b : Bytes) (k offset size : Nat) :
    Bytes.field (b.drop k) offset size = b.field (k + offset) size := by
  unfold Bytes.field Bytes.sub
  rw [List.drop_drop]

/-- Both sides take the same datagrams for queries. -/
theorem isStatusQuery_eq (data : Bytes) : Status.isStatusQuery data = Edge.isStatusQuery data := by
  unfold Status.isStatusQuery Edge.isStatusQuery
  by_cases hlength : data.length < Edge.StatusQueryLen
  · have hshort : ¬ Status.QUERY_LEN ≤ data.length := Nat.not_le.mpr hlength
    rw [if_pos hlength, decide_eq_false hshort]
    rfl
  have hlong : Status.QUERY_LEN ≤ data.length := Nat.le_of_not_lt hlength
  have hten : 10 ≤ data.length := hlong
  obtain ⟨header, hheader, htype⟩ := Edge.type_parseHeader (b := data) (by omega)
  have hdiscovery : Edge.parseDiscoveryHeader (data.drop 2) =
      some ⟨Edge.uint16 (data.drop 2) 0, Edge.uint16 (data.drop 2) 2⟩ := by
    unfold Edge.parseDiscoveryHeader
    rw [if_neg (by rw [List.length_drop]; omega)]
  have hkind : (header.type = Edge.Discovery) ↔ Status.packetType data = Status.PKT_DISCOVERY := by
    rw [← htype]
    exact UInt8.toNat_inj.symm
  have hservice : Edge.uint16 (data.drop 2) 0 = Edge.ServiceStatus ↔
      data.field 2 2 = Status.SVC_STATUS := by
    rw [← field_drop data 2 0 2, ← Edge.toNat_uint16]
    exact UInt16.toNat_inj.symm
  rw [if_neg hlength, hheader, hdiscovery, decide_eq_true hlong, Bool.true_and]
  dsimp only
  rw [decide_eq_decide.mpr hkind, decide_eq_decide.mpr hservice]
  rfl

/-! ## Writing -/

/-- The reply of the Edge server with the values of a call of `build_status_reply`. -/
def Edge.StatusReply.of (state flags sessions uptime : Int) (name : Str) : Edge.StatusReply where
  version := Edge.StatusVersion
  state := .ofInt state
  flags := .ofInt flags
  sessions := .ofInt (min sessions 0xFFFF)
  uptime := .ofInt (min (max uptime 0) 0xFFFFFFFF)
  name := encodeReplace name

/-- The numbers of a reply, where they fit their fields. -/
theorem Edge.toNat_of (flags uptime : Int) {sessions : Int} (hsessions : 0 ≤ sessions) :
    (UInt16.ofInt flags).toNat = (flags % 0x10000).toNat ∧
      (UInt16.ofInt (min sessions 0xFFFF)).toNat = (min sessions 0xFFFF).toNat ∧
      (UInt32.ofInt (min (max uptime 0) 0xFFFFFFFF)).toNat =
        (min (max uptime 0) 0xFFFFFFFF).toNat := by
  refine ⟨?_, ?_, ?_⟩
  · rw [UInt16.ofInt, UInt16.toNat_ofNat']
    omega
  · rw [UInt16.ofInt, UInt16.toNat_ofNat']
    omega
  · rw [UInt32.ofInt, UInt32.toNat_ofNat']
    omega

/-- Both sides write the same bytes. -/
theorem buildStatusReply_eq (state flags uptime : Int) {sessions : Int} (hsessions : 0 ≤ sessions)
    (name : Str) : Status.buildStatusReply state flags sessions uptime name =
      some (Edge.StatusReply.of state flags sessions uptime name).marshal := by
  have hlen := List.length_take_le 255 (encodeReplace name)
  have hpack : Struct.pack [.B Status.VERSION, .B (state % 0x100).toNat, .H (flags % 0x10000).toNat,
      .H (min sessions 0xFFFF).toNat, .I (min (max uptime 0) 0xFFFFFFFF).toNat,
      .B ((encodeReplace name).take 255).length] =
        some ([Item.B Status.VERSION, .B (state % 0x100).toNat, .H (flags % 0x10000).toNat,
          .H (min sessions 0xFFFF).toNat, .I (min (max uptime 0) 0xFFFFFFFF).toNat,
          .B ((encodeReplace name).take 255).length].flatMap Item.bytes) := by
    apply if_pos
    simp only [List.all_cons, List.all_nil, Item.fits, Bool.and_true, Bool.and_eq_true,
      decide_eq_true_eq]
    refine ⟨by decide, ?_, ?_, ?_, ?_, ?_⟩ <;> omega
  have hcut : (if 255 < (encodeReplace name).length then (encodeReplace name).take 255
      else encodeReplace name) = (encodeReplace name).take 255 := by
    split
    · rfl
    · exact (List.take_of_length_le (by omega)).symm
  have hstate : Bytes.ofNat 1 (state % 0x100).toNat = [UInt8.ofInt state] := by
    have hsmall : (state % 0x100).toNat % 256 = (state % 0x100).toNat := by omega
    change [UInt8.ofNat ((state % 0x100).toNat % 256)] = _
    rw [hsmall]
    rfl
  obtain ⟨hflags, hcount, huptime⟩ := Edge.toNat_of flags uptime hsessions
  have hlength : Bytes.ofNat 1 ((encodeReplace name).take 255).length =
      [UInt8.ofNat ((encodeReplace name).take 255).length] := by
    change [UInt8.ofNat (((encodeReplace name).take 255).length % 256)] = _
    rw [Nat.mod_eq_of_lt (by omega)]
  unfold Status.buildStatusReply Edge.StatusReply.marshal Edge.StatusReply.of
  dsimp only
  rw [if_neg (by omega), hpack, hcut]
  simp only [List.flatMap_cons, List.flatMap_nil, Item.bytes, Edge.putUint16, Edge.putUint32, hstate,
    hflags, hcount, huptime, hlength, List.append_assoc, List.append_nil]
  rfl

namespace Edge

theorem field_marshal (r : StatusReply) :
    r.marshal.field 10 2 = r.flags.toNat ∧ r.marshal.field 12 2 = r.sessions.toNat ∧
      r.marshal.field 14 4 = r.uptime.toNat := by
  have hflags : r.marshal.field 10 2 = Bytes.le (.ofNat 2 r.flags.toNat) := rfl
  have hsessions : r.marshal.field 12 2 = Bytes.le (.ofNat 2 r.sessions.toNat) := rfl
  have huptime : r.marshal.field 14 4 = Bytes.le (.ofNat 4 r.uptime.toNat) := rfl
  rw [hflags, hsessions, huptime, Bytes.le_ofNat, Bytes.le_ofNat, Bytes.le_ofNat]
  refine ⟨Nat.mod_eq_of_lt ?_, Nat.mod_eq_of_lt ?_, Nat.mod_eq_of_lt ?_⟩
  · exact r.flags.toNat_lt
  · exact r.sessions.toNat_lt
  · exact r.uptime.toNat_lt

/-- A reply with a state that is not known and a name that is cut. -/
def StatusReply.clamped (r : StatusReply) : StatusReply :=
  { r with
    version := StatusVersion
    state := if StateStopping < r.state then StateDegraded else r.state
    name := r.name.take 255 }

/-- What was written is read back. -/
theorem parseStatusReply_marshal (r : StatusReply) : parseStatusReply r.marshal = .ok r.clamped := by
  obtain ⟨hflags, hsessions, huptime⟩ := field_marshal r
  have hcut : (if 255 < r.name.length then r.name.take 255 else r.name) = r.name.take 255 := by
    split
    · rfl
    · exact (List.take_of_length_le (by omega)).symm
  have hlen := List.length_take_le 255 r.name
  have hsplit : r.marshal = r.marshal.take 19 ++ r.name.take 255 := by
    rw [← hcut]
    rfl
  have hfixed : (r.marshal.take 19).length = 19 := rfl
  have hname : r.marshal.drop 19 = r.name.take 255 := by
    rw [hsplit, List.drop_left' hfixed]
  have hlength : r.marshal.length = 19 + (r.name.take 255).length := by
    rw [hsplit, List.length_append, hfixed]
  have hcount : (uint8 r.marshal 18).toNat = (r.name.take 255).length := by
    rw [toNat_uint8, ← hcut]
    change (UInt8.ofNat _).toNat + 256 * 0 = _
    rw [hcut, UInt8.toNat_ofNat']
    omega
  have hstate : uint8 r.marshal 9 = r.state := by
    apply UInt8.toNat_inj.mp
    rw [toNat_uint8]
    rfl
  obtain ⟨header, hheader, htype⟩ := type_parseHeader (b := r.marshal) (by omega)
  have hinform : (parseHeader r.marshal).map Header.type = some Inform := by
    rw [hheader, Option.map_some, Option.some_inj]
    exact UInt8.toNat_inj.mp htype
  have hservice : uint16 r.marshal 2 = ServiceStatus := by
    apply UInt16.toNat_inj.mp
    have hfield : r.marshal.field 2 2 = Bytes.le (.ofNat 2 ServiceStatus.toNat) := rfl
    rw [toNat_uint16, hfield, Bytes.le_ofNat]
    decide
  unfold parseStatusReply
  rw [if_neg (by rw [hlength]; exact Nat.not_lt.mpr (Nat.le_add_right _ _))]
  rw [if_neg (fun h => h hinform), if_neg (fun h => h hservice), if_neg (fun h => h rfl),
    if_neg (fun h => h rfl), hstate, hcount]
  dsimp only
  rw [if_neg fun h => absurd h.2 (by rw [hlength]; exact Nat.lt_irrefl _)]
  have hname' : (if 0 < (r.name.take 255).length then
      r.marshal.sub StatusFixedLen (r.name.take 255).length else []) = r.name.take 255 := by
    split
    · change (r.marshal.drop 19).take _ = _
      rw [hname, List.take_length]
    · rename_i h
      exact (List.length_eq_zero_iff.mp (by omega)).symm
  rw [hname', uint16, hflags, uint16, hsessions, uint32, huptime]
  simp only [UInt16.ofNat_toNat, UInt32.ofNat_toNat]
  rfl

end Edge

/-- Both sides ask alike, and are understood. -/
theorem query_understood : Status.buildStatusQuery = Edge.marshalStatusQuery ∧
    Status.isStatusQuery Status.buildStatusQuery = true := by
  decide

/-! ## The codec -/

/-- The state that is read of the one that was written. -/
def Status.shown (state : Int) : Nat :=
  if STATE_STOPPING < (state % 0x100).toNat then STATE_DEGRADED else (state % 0x100).toNat

/-- What the Python servers read of a reply that either side wrote: of the name the characters
that fit whole, and one replacement character if another was cut. -/
theorem parse_of (state flags uptime : Int) {sessions : Int} (hsessions : 0 ≤ sessions)
    (name : Str) : ∃ k ≤ name.length, (encodeReplace (name.take k)).length ≤ 255 ∧
      (k < name.length → 255 < (encodeReplace (name.take (k + 1))).length) ∧
      Status.parseStatusReply (Edge.StatusReply.of state flags sessions uptime name).marshal = some {
        version := Status.VERSION
        state := Status.shown state
        stateName := (Status.STATE_NAMES.lookup (Status.shown state)).getD "degraded"
        flags := (flags % 0x10000).toNat
        sessions := (min sessions 0xFFFF).toNat
        uptime := (min (max uptime 0) 0xFFFFFFFF).toNat
        name := (name.take k).map Text.replaced ++
          if k < name.length ∧ (encodeReplace (name.take k)).length < 255 then [Text.replacement]
          else [] } := by
  obtain ⟨k, hk, hshort, hnext, hdecode⟩ := Text.decodeReplace_take name 255
  refine ⟨k, hk, hshort, hnext, ?_⟩
  have hstate : (if Edge.StateStopping < UInt8.ofInt state then Edge.StateDegraded
      else UInt8.ofInt state).toNat = Status.shown state := by
    have hnat : (UInt8.ofInt state).toNat = (state % 0x100).toNat := by
      rw [UInt8.ofInt, UInt8.toNat_ofNat']
      omega
    have hlt : Edge.StateStopping < UInt8.ofInt state ↔
        Status.STATE_STOPPING < (state % 0x100).toNat := by
      rw [← hnat]
      exact UInt8.lt_iff_toNat_lt
    unfold Status.shown
    by_cases hunknown : Status.STATE_STOPPING < (state % 0x100).toNat
    · rw [if_pos hunknown, if_pos (hlt.mpr hunknown)]
      rfl
    · rw [if_neg hunknown, if_neg (mt hlt.mp hunknown), hnat]
  rw [parseStatusReply_eq, Edge.parseStatusReply_marshal]
  change some (Edge.StatusReply.view _) = _
  unfold Edge.StatusReply.view Edge.StatusReply.clamped Edge.StatusReply.of
  dsimp only
  obtain ⟨hflags, hcount, huptime⟩ := Edge.toNat_of flags uptime hsessions
  rw [← Edge.stateString_eq, hstate, hflags, hcount, huptime, hdecode]
  rfl

/-- Both sides write the same bytes and read them back, with a state that is not known shown as
degraded and a name cut behind 255 bytes, and both read the same of every datagram. -/
theorem status_codec (state flags uptime : Int) {sessions : Int} (hsessions : 0 ≤ sessions)
    (name : Str) (data : Bytes) :
    let reply := Edge.StatusReply.of state flags sessions uptime name
    Status.buildStatusReply state flags sessions uptime name = some reply.marshal ∧
    Edge.parseStatusReply reply.marshal = .ok reply.clamped ∧
    (∃ k ≤ name.length, (encodeReplace (name.take k)).length ≤ 255 ∧
      (k < name.length → 255 < (encodeReplace (name.take (k + 1))).length) ∧
      Status.parseStatusReply reply.marshal = some {
        version := Status.VERSION
        state := Status.shown state
        stateName := (Status.STATE_NAMES.lookup (Status.shown state)).getD "degraded"
        flags := (flags % 0x10000).toNat
        sessions := (min sessions 0xFFFF).toNat
        uptime := (min (max uptime 0) 0xFFFFFFFF).toNat
        name := (name.take k).map Text.replaced ++
          if k < name.length ∧ (encodeReplace (name.take k)).length < 255 then [Text.replacement]
          else [] }) ∧
    Status.parseStatusReply data =
      (Edge.parseStatusReply data).toOption.map Edge.StatusReply.view := by
  intro reply
  refine ⟨?_, ?_, ?_, ?_⟩
  · exact buildStatusReply_eq state flags uptime hsessions name
  · exact Edge.parseStatusReply_marshal reply
  · exact parse_of state flags uptime hsessions name
  · exact parseStatusReply_eq data

/-- A busy server that serves UDPFS and nothing else. -/
theorem status_codec_busy :
    let reply := Edge.StatusReply.of 2 1 3 1234 (Text.lit "PS2")
    Status.buildStatusReply 2 1 3 1234 (Text.lit "PS2") = some reply.marshal ∧
    Edge.parseStatusReply reply.marshal = .ok reply.clamped ∧
    (∃ k ≤ (Text.lit "PS2").length, (encodeReplace ((Text.lit "PS2").take k)).length ≤ 255 ∧
      (k < (Text.lit "PS2").length →
        255 < (encodeReplace ((Text.lit "PS2").take (k + 1))).length) ∧
      Status.parseStatusReply reply.marshal = some {
        version := Status.VERSION
        state := Status.shown 2
        stateName := (Status.STATE_NAMES.lookup (Status.shown 2)).getD "degraded"
        flags := ((1 : Int) % 0x10000).toNat
        sessions := (min (3 : Int) 0xFFFF).toNat
        uptime := (min (max (1234 : Int) 0) 0xFFFFFFFF).toNat
        name := ((Text.lit "PS2").take k).map Text.replaced ++
          if k < (Text.lit "PS2").length ∧
              (encodeReplace ((Text.lit "PS2").take k)).length < 255 then [Text.replacement]
          else [] }) ∧
    Status.parseStatusReply reply.marshal =
      (Edge.parseStatusReply reply.marshal).toOption.map Edge.StatusReply.view :=
  status_codec 2 1 1234 (by decide) (Text.lit "PS2") _

/-- A name of 256 bytes that ends in a character of two. -/
def longName : Str := List.replicate 254 (.char 'a') ++ [.char (Char.ofNat 0xe9)]

/-- The character is cut: one side reads a replacement character for it and the other its first
byte. -/
theorem name_cut_inside_character :
    let reply := Edge.StatusReply.of 1 0 0 0 longName
    (Status.parseStatusReply reply.marshal).map Status.Reply.name =
        some (longName.take 254 ++ [Text.replacement]) ∧
      (Edge.parseStatusReply reply.marshal).toOption.map Edge.StatusReply.name =
        some (encodeReplace (longName.take 254) ++ [0xc3]) := by
  decide +kernel

end Ps2Servers.Router
