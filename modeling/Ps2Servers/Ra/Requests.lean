import Ps2Servers.Lib.Strconv
import Ps2Servers.Ra.Protocol
import Mathlib.Algebra.Ring.Int.Defs

/-!
# Console requests

A console announces itself, asks for the set of a game and fetches a watch list by short texts.
Their fields are separated by white space, and the endpoint a reply goes to is among them or is
where the datagram came from.

## Implementation notes

An IPv4 address is its number: two texts of one address are one address. Where the source takes
any object as an address, this is one of the kinds that `ipaddress` tells apart.
-/

namespace Ps2Servers.Ra

open Text (lit)

/-! ## Patterns on text -/

/-- `[0-9]` -/
def isDecimal (c : CodePoint) : Bool := 0x30 ≤ c.toNat && c.toNat ≤ 0x39

def isLetter (c : CodePoint) : Bool :=
  (0x41 ≤ c.toNat && c.toNat ≤ 0x5a) || (0x61 ≤ c.toNat && c.toNat ≤ 0x7a)

/-- `[a-fA-F0-9]` -/
def isHex (c : CodePoint) : Bool :=
  isDecimal c || (0x41 ≤ c.toNat && c.toNat ≤ 0x46) || (0x61 ≤ c.toNat && c.toNat ≤ 0x66)

/-- `[A-Za-z0-9_.-]` -/
def isSerialChar (c : CodePoint) : Bool :=
  isDecimal c || isLetter c || c = .char '_' || c = .char '.' || c = .char '-'

/-- `[a-fA-F0-9]{32}` -/
def isImageHash (text : Str) : Bool := text.length = 32 && text.all isHex

/-- `[A-Za-z0-9_.-]{1,15}` -/
def isSerial (text : Str) : Bool :=
  1 ≤ text.length && text.length ≤ 15 && text.all isSerialChar

/-- The white space among the ASCII characters. -/
def isSpace (c : CodePoint) : Bool :=
  (0x09 ≤ c.toNat && c.toNat ≤ 0x0d) || (0x1c ≤ c.toNat && c.toNat ≤ 0x20)

/-- `text.split()`, for ASCII. -/
def split (text : Str) : List Str := (text.splitOnP isSpace).filter (· ≠ [])

/-- The number of decimal digits. -/
def number (digits : Str) : Nat := digits.foldl (fun n c => n * 10 + (c.toNat - 0x30)) 0

/-- Digits with single underscores between them. -/
def unsignedInt (text : Str) : Option Nat :=
  let groups := text.splitOn (.char '_')
  if groups.all fun group => group ≠ [] && group.all isDecimal then some (number groups.flatten)
  else none

/-- `int(text)`, for ASCII without white space. -/
def pythonInt (text : Str) : Option Int :=
  match text with
  | .char '-' :: digits => (unsignedInt digits).map fun n => -n
  | .char '+' :: digits => (unsignedInt digits).map fun n => n
  | digits => (unsignedInt digits).map fun n => n

/-! ## Endpoints -/

/-- One of the four numbers of an address. -/
def parseOctet (octet : Str) : Option Nat :=
  if octet = [] ∨ ¬octet.all isDecimal ∨ 3 < octet.length then none
  else if octet ≠ lit "0" ∧ octet.head? = some (.char '0') then none
  else if 255 < number octet then none
  else some (number octet)

/-- `IPv4Address(text)`. -/
def parseAddress (text : Str) : Option UInt32 :=
  match (text.splitOn (.char '.')).map parseOctet with
  | [some a, some b, some c, some d] => some (.ofNat (((a * 256 + b) * 256 + c) * 256 + d))
  | _ => none

/-- What stands in the address of a socket. -/
inductive PeerItem
  | text (s : Str)
  | int (n : Int)
  | bool (b : Bool)
  | bytes (b : Bytes)
  deriving DecidableEq, Repr

/-- `IPv4Address(item)`. -/
def ipv4Address : PeerItem → Option UInt32
  | .text s => parseAddress s
  | .int n => if 0 ≤ n ∧ n < 2 ^ 32 then some (.ofNat n.toNat) else none
  | .bool b => some (if b then 1 else 0)
  | .bytes b => if b.length = 4 then some (.ofNat (b.fieldBE 0 4)) else none

/-- The source of a datagram, where there is one. -/
abbrev Peer := Option (List PeerItem)

/-- A number of the type `int` that is a port. -/
def sourcePort : PeerItem → Option Nat
  | .int n => if 1 ≤ n ∧ n ≤ 65535 then some n.toNat else none
  | _ => none

structure Endpoint where
  address : UInt32
  port : Nat
  deriving DecidableEq, Repr

def sourceEndpoint : Peer → Option Endpoint
  | some (host :: port :: _) => do
      let address ← ipv4Address host
      let port ← sourcePort port
      return ⟨address, port⟩
  | _ => none

/-- The endpoint of a request that names none. -/
def replyEndpoint (peer : Peer) : Except String Endpoint :=
  if peer = none then .error "Request requires a source reply endpoint"
  else
    match sourceEndpoint peer with
    | some endpoint => .ok endpoint
    | none => .error "Invalid source reply endpoint"

/-- The endpoint that two fields of a request name. -/
def advertised : List Str → Option Endpoint
  | [host, port] =>
      if port = [] ∨ ¬port.all isDecimal then none
      else
        match parseAddress host with
        | none => none
        | some address =>
            if address = 0 ∨ address = 0xffffffff ∨ ¬(1 ≤ number port ∧ number port ≤ 65535) then none
            else some ⟨address, number port⟩
  | _ => none

/-! ## Requests -/

inductive RequestKind
  | RAP1
  | RAQ1
  | RAG1
  | RAH1
  | RAK1
  | RAK2
  deriving DecidableEq, Repr

def RequestKind.ofField (field : Str) : Option RequestKind :=
  if field = lit "RAP1" then some RAP1
  else if field = lit "RAQ1" then some RAQ1
  else if field = lit "RAG1" then some RAG1
  else if field = lit "RAH1" then some RAH1
  else if field = lit "RAK1" then some RAK1
  else if field = lit "RAK2" then some RAK2
  else none

structure ConsoleRequest where
  kind : RequestKind
  endpoint : Endpoint
  imageHash : Str
  serial : Str
  index : Nat
  extra : List Str
  deriving DecidableEq, Repr

/-- A discovery, with its own endpoint or else the source. -/
def parseDiscovery (fields : List Str) (peer : Peer) : Except String ConsoleRequest :=
  if fields.length ≠ 3 then .error "Invalid request field count"
  else
    match (advertised ((fields.drop 1).take 2)).elim (replyEndpoint peer) .ok with
    | .error message => .error message
    | .ok endpoint => .ok ⟨.RAP1, endpoint, [], [], 0, []⟩

/-- A query for the set of a game, or for a part of its watch list. -/
def parseQuery (kind : RequestKind) (minimum : Nat) (fields : List Str) (peer : Peer) :
    Except String ConsoleRequest :=
  if ¬(minimum ≤ fields.length ∧ fields.length ≤ 5) then .error "Invalid request field count"
  else
    match (advertised ((fields.drop 3).take 2)).elim (replyEndpoint peer) .ok with
    | .error message => .error message
    | .ok endpoint =>
        let imageHash := fields.getD 1 []
        if ¬isImageHash imageHash then .error "Invalid image hash"
        else
          let hash := imageHash.map CodePoint.asciiLower
          let third := fields.getD 2 []
          if kind = .RAQ1 then
            if third ≠ [] ∧ ¬isSerial third then .error "Invalid game serial"
            else .ok ⟨.RAQ1, endpoint, hash, third, 0, []⟩
          else if ¬(1 ≤ third.length ∧ third.length ≤ 5 ∧ third.all isDecimal) then
            .error "Invalid chunk index"
          else .ok ⟨.RAG1, endpoint, hash, [], number third, []⟩

def parseRequest (packet : Bytes) (peer : Peer) : Except String ConsoleRequest :=
  if ¬(1 ≤ packet.length ∧ packet.length ≤ 256) then .error "Invalid request size or type"
  else if ¬packet.all (· < 0x80) then .error "Non-ASCII request"
  else
    match split (Text.latin1 packet) with
    | [] => .error "Unknown request"
    | name :: extra =>
        match RequestKind.ofField name with
        | none => .error "Unknown request"
        | some .RAP1 => parseDiscovery (name :: extra) peer
        | some .RAQ1 => parseQuery .RAQ1 2 (name :: extra) peer
        | some .RAG1 => parseQuery .RAG1 3 (name :: extra) peer
        | some kind =>
            match replyEndpoint peer with
            | .error message => .error message
            | .ok endpoint => .ok ⟨kind, endpoint, [], [], 0, extra⟩

/-! ## Replies -/

/-- The length of a reply on the wire. -/
def paddedLength (n : Nat) : Nat := max 128 ((n + 63) / 64 * 64)

/-- Spaces behind a reply for the console's DMA. -/
def padReply (body : Bytes) : Except String Bytes :=
  if ¬(1 ≤ body.length ∧ body.length < 960) then .error "Reply exceeds console receive buffer"
  else .ok (body ++ List.replicate (paddedLength body.length - body.length) 0x20)

theorem padReply_ok {body : Bytes} (h : 1 ≤ body.length ∧ body.length < 960) :
    ∃ reply, padReply body = .ok reply := by
  unfold padReply
  rw [if_neg (not_not.mpr h)]
  exact ⟨_, rfl⟩

theorem padReply_ne_nil {body reply : Bytes} (h : padReply body = .ok reply) : reply ≠ [] := by
  unfold padReply at h
  split at h
  · cases h
  · rename_i hbody
    obtain rfl := Except.ok.inj h
    apply List.append_ne_nil_of_left_ne_nil
    apply List.ne_nil_of_length_pos
    exact (not_not.mp hbody).1

/-- `text.encode("ascii")`. -/
def encodeAscii (text : Str) : Option Bytes :=
  if text.all CodePoint.isAscii then some (text.map CodePoint.toByte) else none

theorem isAscii_latin1_digits (n : Nat) :
    (Text.latin1 (Strconv.digits n)).all CodePoint.isAscii := by
  rw [List.all_eq_true]
  intro c hc
  obtain ⟨b, hb, rfl⟩ := List.mem_map.mp hc
  have hdigit := Strconv.isDigit_of_mem_digits hb
  simp only [Strconv.isDigit, Bool.and_eq_true, decide_eq_true_eq, UInt8.le_iff_toNat_le] at hdigit
  have h39 : (0x39 : UInt8).toNat = 57 := rfl
  apply decide_eq_true
  rw [CodePoint.toNat_ofByte]
  omega

/-- How many parts a watch list is sent in. -/
def chunkCount (watchFile : Bytes) : Nat := (watchFile.length + 895) / 896

def watchChunk (watchFile : Bytes) (index : Nat) : Except String Bytes :=
  if ¬(1 ≤ watchFile.length ∧ watchFile.length ≤ 17432 ∧ index < chunkCount watchFile) then
    .error "Invalid watch file or chunk index"
  else
    let data := watchFile.sub (index * 896) 896
    padReply ((lit "RAC1 ").map CodePoint.toByte ++ Strconv.digits index ++ [0x20] ++
      Strconv.digits data.length ++ [0x20] ++ data)

theorem watchChunk_ok {watchFile : Bytes} {index : Nat} {reply : Bytes}
    (h : watchChunk watchFile index = .ok reply) : index < chunkCount watchFile ∧ reply ≠ [] := by
  unfold watchChunk at h
  split at h
  · cases h
  · rename_i hindex
    exact ⟨(not_not.mp hindex).2.2, padReply_ne_nil h⟩

end Ps2Servers.Ra
