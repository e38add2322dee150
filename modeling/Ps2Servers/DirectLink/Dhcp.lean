import Ps2Servers.Lib.Runs
import Ps2Servers.Lib.Struct
import Mathlib.Logic.Function.Basic

/-!
# The DHCP responder of the direct link

The responder leases one address to one console. It reads raw datagrams from anyone, keeps the
client it has seen, and answers with an offer or an acknowledgement of its one address, or with
silence. A second client stops it.

## Implementation notes

Addresses are their 32-bit numbers. The token bucket runs on the clock: whether a token is there
comes with the datagram. A refusal and an error of the language stop the responder.
-/

namespace Ps2Servers.DirectLink

open Struct (Item)

/-! ## Addresses -/

/-- The mask of `_network_of`. -/
def maskOf (prefixlen : Nat) : Nat :=
  if prefixlen ≠ 0 then (0xFFFFFFFF <<< (32 - prefixlen)) &&& 0xFFFFFFFF else 0

/-- `_network_of`. -/
def networkOf (ip prefixlen : Nat) : Nat := ip &&& maskOf prefixlen

/-- The subnet-directed broadcast address. -/
def broadcastOf (ip prefixlen : Nat) : Nat :=
  (networkOf ip prefixlen ||| 0xFFFFFFFF >>> prefixlen) &&& 0xFFFFFFFF

/-! ## DHCP packets -/

def DHCP_CLIENT_PORT : Nat := 68

def LEASE_SECONDS : Nat := 86400

def MAGIC_COOKIE : Bytes := [0x63, 0x82, 0x53, 0x63]

def MSG_DISCOVER : UInt8 := 1

def MSG_OFFER : UInt8 := 2

def MSG_REQUEST : UInt8 := 3

def MSG_DECLINE : UInt8 := 4

def MSG_ACK : UInt8 := 5

def MSG_NAK : UInt8 := 6

def MSG_RELEASE : UInt8 := 7

def MSG_INFORM : UInt8 := 8

/-- The option dictionary. -/
abbrev Options := UInt8 → Option Bytes

/-- The loop over the options. A length that reaches past the end takes what is there, and a
later option replaces an earlier one. -/
def readOptions : (fuel : Nat) → Bytes → Options → Options
  | 0, _, options => options
  | _ + 1, [], options => options
  | fuel + 1, tag :: rest, options =>
      if tag = 0 then readOptions fuel rest options
      else if tag = 255 then options
      else
        match rest with
        | [] => options
        | length :: rest =>
            readOptions fuel (rest.drop length.toNat)
              (Function.update options tag (some (rest.take length.toNat)))

/-- The options of a packet, behind the cookie. -/
def optionsOf (data : Bytes) : Options := readOptions data.length (data.drop 240) fun _ => none

/-- The part of `chaddr` that is the client's address. -/
def macOf (hlen : Nat) (chaddr : Bytes) : Bytes :=
  chaddr.take (if 1 ≤ hlen ∧ hlen ≤ 16 then hlen else 6)

/-- What `parse_packet` returns. -/
structure Packet where
  htype : UInt8
  hlen : UInt8
  xid : Nat
  flags : Nat
  ciaddr : Nat
  giaddr : Nat
  mac : Bytes
  chaddr : Bytes
  options : Options

def parsePacket (data : Bytes) : Option Packet :=
  if data.length < 240 ∨ data.sub 236 4 ≠ MAGIC_COOKIE then none
  else if data.fieldBE 0 1 ≠ 1 then none
  else
    let chaddr := data.sub 28 16
    some
      { htype := data.getD 1 0
        hlen := data.getD 2 0
        xid := data.fieldBE 4 4
        flags := data.fieldBE 10 2
        ciaddr := data.fieldBE 12 4
        giaddr := data.fieldBE 24 4
        mac := macOf (data.getD 2 0).toNat chaddr
        chaddr
        options := optionsOf data }

/-- The fixed header of a reply. -/
def replyHeader (pkt : Packet) (ciaddr yiaddr server : Nat) : List Item :=
  [.B 2, .B pkt.htype.toNat, .B pkt.hlen.toNat, .B 0, .I pkt.xid, .H 0, .H pkt.flags, .I ciaddr,
    .I yiaddr, .I server, .I pkt.giaddr, .s 16 pkt.chaddr, .s 64 [], .s 128 [],
    .s 4 MAGIC_COOKIE]

/-- The options of a reply. -/
def replyOptions (msgType : UInt8) (server lease mask : Nat) : List Item :=
  [.B 53, .B 1, .B msgType.toNat, .B 54, .B 4, .I server] ++
    (if msgType ≠ MSG_NAK then
      [.B 51, .B 4, .I lease, .B 1, .B 4, .I mask, .B 3, .B 4, .I server]
    else []) ++ [.B 255]

/-- `none` is an error of packing, or of shifting by a negative number. -/
def buildReply (pkt : Packet) (msgType : UInt8) (server client prefixlen : Nat) :
    Option Bytes := do
  let yiaddr := if msgType = MSG_OFFER ∨ msgType = MSG_ACK then client else 0
  let ciaddr := if msgType = MSG_ACK then pkt.ciaddr else 0
  if 32 < prefixlen then none
  else
    let mask := (0xFFFFFFFF <<< (32 - prefixlen)) &&& 0xFFFFFFFF
    let reply ← Struct.packBE
      (replyHeader pkt ciaddr yiaddr server ++ replyOptions msgType server LEASE_SECONDS mask)
    return reply ++ List.replicate (300 - reply.length) 0

/-! ## The responder -/

/-- What a responder is made with. -/
structure Config where
  serverIp : Nat
  clientIp : Nat
  prefixlen : Nat
  probeMac : Bytes
  serverIp_lt : serverIp < 0x100000000
  clientIp_lt : clientIp < 0x100000000
  prefixlen_le : prefixlen ≤ 32

inductive Mode
  | specific
  | wildcard
  deriving DecidableEq

/-- The address of a sender: the empty string or an IPv4 address. -/
inductive Host
  | empty
  | ip (address : Nat)
  deriving DecidableEq

/-- A datagram with its sender, and whether a token is in the bucket when it arrives. -/
structure Datagram where
  data : Bytes
  src : Option Host
  token : Bool

structure State where
  macsSeen : List Bytes
  leaseMac : Option Bytes

def State.init : State := ⟨[], none⟩

structure Dest where
  ip : Nat
  port : Nat
  deriving DecidableEq

/-- `handle_packet` returns nothing or a reply with its destination, or raises. -/
inductive Result
  | nothing
  | reply (bytes : Bytes) (dest : Dest)
  | refused (devices : Nat)
  | error
  deriving DecidableEq

def MAX_DISTINCT_MACS : Nat := 1

/-- `_track_mac`. The number of devices is what a refusal names. -/
def trackMac (s : State) (mac : Bytes) : State × Option Nat :=
  if mac ∈ s.macsSeen then (s, none)
  else
    let s := { s with macsSeen := s.macsSeen ++ [mac] }
    (s, if MAX_DISTINCT_MACS < s.macsSeen.length then some s.macsSeen.length else none)

/-- `_reply_dest`. -/
def replyDest (c : Config) (mode : Mode) (pkt : Packet) (src : Option Host) : Dest :=
  let broadcast : Dest :=
    if mode = .wildcard then ⟨broadcastOf c.serverIp c.prefixlen, DHCP_CLIENT_PORT⟩
    else ⟨0xFFFFFFFF, DHCP_CLIENT_PORT⟩
  if pkt.ciaddr = 0 then broadcast
  else
    match src with
    | none => broadcast
    | some .empty => broadcast
    | some (.ip address) => if address = 0 then broadcast else ⟨address, DHCP_CLIENT_PORT⟩

/-- The first byte of the option, if it has one. -/
def Packet.messageType (pkt : Packet) : Option UInt8 := (pkt.options 53).bind List.head?

/-- The packet names another server. -/
def Packet.namesOther (c : Config) (pkt : Packet) : Bool :=
  match pkt.options 54 with
  | none => false
  | some serverId => serverId ≠ [] && serverId ≠ Bytes.ofNatBE 4 c.serverIp

/-- The address the packet asks for. -/
def Packet.requested (pkt : Packet) : Option Bytes :=
  match pkt.options 50 with
  | some requested => some requested
  | none => if pkt.ciaddr ≠ 0 then some (Bytes.ofNatBE 4 pkt.ciaddr) else none

def answer (c : Config) (mode : Mode) (pkt : Packet) (msgType : UInt8) (src : Option Host) :
    Result :=
  match buildReply pkt msgType c.serverIp c.clientIp c.prefixlen with
  | none => .error
  | some bytes => .reply bytes (replyDest c mode pkt src)

def handlePacket (c : Config) (mode : Mode) (s : State) (d : Datagram) : State × Result :=
  match parsePacket d.data with
  | none => (s, .nothing)
  | some pkt =>
    match pkt.messageType with
    | none => (s, .nothing)
    | some mtype =>
      if mtype ∉ [MSG_DISCOVER, MSG_REQUEST, MSG_DECLINE, MSG_RELEASE, MSG_INFORM] then
        (s, .nothing)
      else if pkt.mac = c.probeMac then (s, .nothing)
      else
        match trackMac s pkt.mac with
        | (s, some devices) => (s, .refused devices)
        | (s, none) =>
          if mtype = MSG_DECLINE then ({ s with leaseMac := none }, .nothing)
          else if mtype = MSG_RELEASE then
            (if some pkt.mac = s.leaseMac then { s with leaseMac := none } else s, .nothing)
          else if mtype = MSG_INFORM then (s, .nothing)
          else if !d.token then (s, .nothing)
          else if mtype = MSG_DISCOVER then
            ({ s with leaseMac := some pkt.mac }, answer c mode pkt MSG_OFFER d.src)
          else if pkt.namesOther c then (s, .nothing)
          else if pkt.requested = some (Bytes.ofNatBE 4 c.clientIp) then
            ({ s with leaseMac := some pkt.mac }, answer c mode pkt MSG_ACK d.src)
          else (s, .nothing)

/-! ## Runs -/

/-- A datagram and what was done with it. -/
structure Exchange where
  datagram : Datagram
  result : Result

/-- A responder with what it did so far. -/
structure Trace where
  state : State
  exchanges : List Exchange
  stopped : Bool

def Trace.init : Trace := ⟨.init, [], false⟩

def Result.stops : Result → Bool
  | nothing => false
  | reply _ _ => false
  | refused _ => true
  | error => true

/-- A responder that stopped hears nothing. -/
def Trace.next (c : Config) (mode : Mode) (t : Trace) (d : Datagram) : Trace :=
  if t.stopped then t
  else
    let (state, result) := handlePacket c mode t.state d
    ⟨state, t.exchanges ++ [⟨d, result⟩], result.stops⟩

end Ps2Servers.DirectLink
