import Ps2Servers.Lib.Struct
import Ps2Servers.Smb2.Credits
import Mathlib.Data.List.Forall2

/-!
# Replies

What a connection sends. The replies of a message wait until its last request is handled; then they
are padded, chained, signed one by one and sent behind their length, in one frame.

## Implementation notes

The bodies of replies that handlers make are a parameter. A number too large for its field, a message
too long for the three bytes of its length and a signature without a dialect are exceptions; they end
the connection before anything is sent, and so does a socket that cannot send.
-/

namespace Ps2Servers.Smb2

open Runs Struct

variable {τ η : Type}

/-! ## Frames -/

/-- `wire.send_msg`. -/
def sendMsg (msg : Bytes) : Option Bytes :=
  if msg.length < 256 ^ 3 then some (0 :: (Bytes.ofNatBE 3 msg.length ++ msg)) else none

/-- `wire.recv_msg`: the next message, empty for a keep-alive, and what is behind it. -/
def recvMsg (stream : Bytes) : Option (Bytes × Bytes) :=
  if stream.length < 4 then none
  else if stream.head? ≠ some 0 ∨ stream.fieldBE 1 3 = 0 then
    some ([], stream.drop (4 + stream.fieldBE 1 3))
  else if stream.length < 4 + stream.fieldBE 1 3 then none
  else some (stream.sub 4 (stream.fieldBE 1 3), stream.drop (4 + stream.fieldBE 1 3))

/-- The messages of a stream. Each takes off at least four bytes. -/
def messages : Nat → Bytes → List Bytes
  | 0, _ => []
  | fuel + 1, stream =>
      match recvMsg stream with
      | none => []
      | some ([], rest) => messages fuel rest
      | some (msg, rest) => msg :: messages fuel rest

theorem recvMsg_sendMsg {msg frame : Bytes} (h : sendMsg msg = some frame) (hne : msg ≠ [])
    (rest : Bytes) : recvMsg (frame ++ rest) = some (msg, rest) := by
  unfold sendMsg at h
  split at h
  · rename_i hsize
    cases h
    have hlength : Bytes.fieldBE (0 :: (Bytes.ofNatBE 3 msg.length ++ msg) ++ rest) 1 3 = msg.length := by
      show Bytes.le (((Bytes.ofNatBE 3 msg.length ++ msg) ++ rest).take 3).reverse = msg.length
      rw [List.append_assoc, List.take_left' (Bytes.length_ofNatBE 3 msg.length), Bytes.ofNatBE,
        List.reverse_reverse, Bytes.le_ofNat, Nat.mod_eq_of_lt hsize]
    have hpos : 0 < msg.length := List.length_pos_of_ne_nil hne
    have hbody : (0 :: (Bytes.ofNatBE 3 msg.length ++ msg) ++ rest).drop 4 = msg ++ rest := by
      show ((Bytes.ofNatBE 3 msg.length ++ msg) ++ rest).drop 3 = msg ++ rest
      rw [List.append_assoc, List.drop_left' (Bytes.length_ofNatBE 3 msg.length)]
    have htotal : (0 :: (Bytes.ofNatBE 3 msg.length ++ msg) ++ rest).length =
        4 + (msg.length + rest.length) := by
      simp only [List.length_cons, List.length_append, Bytes.length_ofNatBE]
      omega
    unfold recvMsg
    rw [hlength, if_neg (by omega), if_neg, if_neg (by omega), Bytes.sub, hbody, ← List.drop_drop,
      hbody, List.take_left, List.drop_left]
    rintro (hkind | hzero)
    · exact hkind rfl
    · omega
  · cases h

/-- What was sent is what is received. -/
theorem messages_flatten {msgs frames : List Bytes}
    (h : List.Forall₂ (fun msg frame => msg ≠ [] ∧ sendMsg msg = some frame) msgs frames) {fuel : Nat}
    (hfuel : msgs.length ≤ fuel) : messages fuel frames.flatten = msgs := by
  induction h generalizing fuel with
  | nil =>
      cases fuel with
      | zero => rfl
      | succ fuel => rfl
  | @cons msg frame msgs frames hframe hframes ih =>
      obtain ⟨hne, hsend⟩ := hframe
      cases fuel with
      | zero => exact absurd hfuel (Nat.not_succ_le_zero _)
      | succ fuel =>
          rw [List.flatten_cons, messages, recvMsg_sendMsg hsend hne]
          cases msg with
          | nil => exact absurd rfl hne
          | cons b msg => exact congrArg _ (ih (Nat.le_of_succ_le_succ hfuel))

/-! ## Reply headers -/

def FLAG_SERVER_TO_REDIR : Nat := 0x00000001

def Command.toNat : Command → Nat
  | negotiate => 0x0000
  | sessionSetup => 0x0001
  | logoff => 0x0002
  | treeConnect => 0x0003
  | treeDisconnect => 0x0004
  | create => 0x0005
  | close => 0x0006
  | flush => 0x0007
  | read => 0x0008
  | write => 0x0009
  | ioctl => 0x000b
  | cancel => 0x000c
  | echo => 0x000d
  | queryDirectory => 0x000e
  | queryInfo => 0x0010
  | setInfo => 0x0011
  | other code => code

theorem Command.toNat_ofNat (n : Nat) : (Command.ofNat n).toNat = n := by
  unfold Command.ofNat
  split
  all_goals rfl

/-- The numbers of a header in front of the signature. -/
def headerItems (status : Status) (hdr : Header) : List Item :=
  [.s 4 SMB2_MAGIC, .H HEADER_SIZE, .H 0, .I status, .H hdr.command.toNat, .H hdr.credits,
    .I (hdr.flags ||| FLAG_SERVER_TO_REDIR), .I hdr.nextCommand, .Q hdr.messageId, .I 0,
    .I hdr.treeId, .Q hdr.sessionId]

/-- `wire.pack_header`. -/
def packHeader (status : Status) (hdr : Header) : Option Bytes :=
  pack (headerItems status hdr ++ [.zeros 16])

/-- The 48 bytes of a header in front of the signature. -/
def headerFront (status : Status) (hdr : Header) : Bytes := (headerItems status hdr).flatMap Item.bytes

/-- A header as it is read. -/
def Header.received (hdr : Header) : Header :=
  { hdr with creditCharge := 0, flags := hdr.flags ||| FLAG_SERVER_TO_REDIR }

theorem length_headerFront (status : Status) (hdr : Header) : (headerFront status hdr).length = 48 :=
  length_flatMap _

theorem packHeader_eq_some {status : Status} {hdr : Header} {head : Bytes} :
    packHeader status hdr = some head ↔
      (headerItems status hdr).all Item.fits = true ∧
        head = headerFront status hdr ++ List.replicate 16 0 := by
  unfold packHeader
  rw [pack_eq_some, List.all_append, List.flatMap_append, Bool.and_eq_true]
  constructor
  · rintro ⟨⟨hfits, -⟩, rfl⟩
    exact ⟨hfits, rfl⟩
  · rintro ⟨hfits, rfl⟩
    exact ⟨⟨hfits, rfl⟩, rfl⟩

section Received

variable {status : Status} {hdr : Header} (hfits : (headerItems status hdr).all Item.fits = true)
include hfits

theorem field_headerFront (rest : Bytes) : (headerFront status hdr ++ rest).field 8 4 = status :=
  field_item hfits (show 3 < 12 by decide) rest

/-- A header is read as it was packed, whatever its signature. -/
theorem parseHeader_headerFront (hcommand : Command.ofNat hdr.command.toNat = hdr.command) {rest : Bytes}
    (hrest : 16 ≤ rest.length) : parseHeader (headerFront status hdr ++ rest) = some hdr.received := by
  have hmagic : (headerFront status hdr ++ rest).take 4 = SMB2_MAGIC := rfl
  have hsize : ¬ (headerFront status hdr ++ rest).length < HEADER_SIZE := by
    rw [List.length_append, length_headerFront]
    show ¬ _ < 64
    omega
  have hcode : (headerFront status hdr ++ rest).field 12 2 = hdr.command.toNat :=
    field_item hfits (show 4 < 12 by decide) rest
  have hcredits : (headerFront status hdr ++ rest).field 14 2 = hdr.credits :=
    field_item hfits (show 5 < 12 by decide) rest
  have hflags : (headerFront status hdr ++ rest).field 16 4 = hdr.flags ||| FLAG_SERVER_TO_REDIR :=
    field_item hfits (show 6 < 12 by decide) rest
  have hnext : (headerFront status hdr ++ rest).field 20 4 = hdr.nextCommand :=
    field_item hfits (show 7 < 12 by decide) rest
  have hmessage : (headerFront status hdr ++ rest).field 24 8 = hdr.messageId :=
    field_item hfits (show 8 < 12 by decide) rest
  have htree : (headerFront status hdr ++ rest).field 36 4 = hdr.treeId :=
    field_item hfits (show 10 < 12 by decide) rest
  have hsession : (headerFront status hdr ++ rest).field 40 8 = hdr.sessionId :=
    field_item hfits (show 11 < 12 by decide) rest
  have hcharge : (headerFront status hdr ++ rest).field 6 2 = 0 :=
    field_item hfits (show 2 < 12 by decide) rest
  unfold parseHeader
  rw [if_neg (by rintro (h | h); exacts [hsize h, h hmagic]), hcode, hcredits, hflags, hnext, hmessage,
    htree, hsession, hcharge, hcommand]
  rfl

end Received

/-! ## The replies of a message -/

/-- A reply that waits, with its body. -/
structure Response extends Waiting where
  body : Bytes
  deriving DecidableEq, Repr

/-- The bodies of the replies of handlers, and the one of `negotiate_response`. -/
structure Bodies (τ η : Type) where
  reply : State τ η → Piece → Bytes → Bytes
  negotiate : Nat → Bytes

/-- `wire.error_body`. -/
def errorBody : Bytes := [9, 0, 0, 0, 0, 0, 0, 0, 0]

/-- Where the reply behind one of `total` bytes starts. -/
def aligned (total : Nat) : Nat := (total + 7) / 8 * 8

/-- The zero bytes behind a reply. -/
def padding (last : Bool) (total : Nat) : Nat := if last then 0 else aligned total - total

/-- The header of a reply. -/
def Response.header (conn : Conn τ η) (first last : Bool) (r : Response) : Header :=
  { creditCharge := 0
    command := r.hdr.command
    credits := r.grant
    flags := (if !first && r.hdr.related then FLAG_RELATED else 0) |||
      if shouldSign conn r.toWaiting then FLAG_SIGNED else 0
    nextCommand := if last then 0 else aligned (HEADER_SIZE + r.body.length)
    messageId := r.hdr.messageId
    treeId := r.hdr.treeId
    sessionId := if conn.sessionId = 0 then r.hdr.sessionId else conn.sessionId }

variable (env : Env τ η) (bodies : Bodies τ η)

/-- `smb2_crypto.signed`. -/
def signed (key : Bytes) (dialect : Nat) (message : Bytes) : Bytes :=
  message.take 48 ++ sign env key dialect message ++ message.drop 64

/-- One reply as it is sent. -/
def packReply (conn : Conn τ η) (first last : Bool) (r : Response) : Option Bytes :=
  match packHeader r.status (r.header conn first last) with
  | none => none
  | some head =>
      let piece := head ++ (r.body ++ List.replicate (padding last (HEADER_SIZE + r.body.length)) 0)
      if shouldSign conn r.toWaiting then
        match conn.signingKey, conn.dialect with
        | some key, some dialect => some (signed env key dialect piece)
        | _, _ => none
      else some piece

/-- The replies of a message, chained. -/
def packReplies (conn : Conn τ η) : Bool → List Response → Option Bytes
  | _, [] => some []
  | first, r :: rest =>
      match packReply env conn first rest.isEmpty r, packReplies conn false rest with
      | some piece, some out => some (piece ++ out)
      | _, _ => none

/-- What a request is answered. -/
def State.response (s : State τ η) (p : Piece) (random : Bytes) : Option Response :=
  match (s.request env p random).prev with
  | some (hdr, some status) =>
      some ⟨⟨hdr, status, grantOf s.conn.credits p.hdr⟩,
        if s.admits env p then bodies.reply s p random else errorBody⟩
  | _ => none

/-- The loop of `_dispatch_all`: the requests up to one that ends the connection, each with its
reply. -/
def carryOut (random : Nat → Bytes) : Nat → State τ η → List Piece →
    State τ η × List (Piece × Option Response)
  | _, s, [] => (s, [])
  | i, s, p :: ps =>
      let s' := s.request env p (random i)
      if s'.closed then (s', [])
      else
        let rest := carryOut random (i + 1) s' ps
        (rest.1, (p, s.response env bodies p (random i)) :: rest.2)

/-- The dialect of the answer of `_not_smb2`. -/
def foreignReply (msg : Bytes) : Option Nat :=
  match smb1NegotiateDialects msg with
  | none => none
  | some dialects => if dialects.contains SMB_2_WILDCARD then some 0x02FF else foreignDialect env msg

/-- The header of the answer of `_not_smb2`. -/
def foreignHeader : Header :=
  { creditCharge := 0, command := .negotiate, credits := 1, flags := 0, nextCommand := 0,
    messageId := 0, treeId := 0, sessionId := 0 }

/-- The answer of `_not_smb2`. -/
def packForeign (dialect : Nat) : Option Bytes :=
  (packHeader STATUS_SUCCESS foreignHeader).map (· ++ bodies.negotiate dialect)

/-! ## The stream of a connection -/

/-- A message that was answered, and the connection as it stood then. -/
inductive Exchange (τ η : Type)
  | replies (msg : Bytes) (conn : Conn τ η) (asked : List (Piece × Option Response))
  | negotiated (msg : Bytes) (dialect : Nat)
  deriving DecidableEq, Repr

/-- A connection, the frames it has sent and what they answer. -/
structure Talk (τ η : Type) where
  state : State τ η
  frames : List Bytes
  log : List (Exchange τ η)
  deriving DecidableEq, Repr

def Talk.new : Talk τ η := ⟨State.new, [], []⟩

/-- A message, the random bytes its requests draw, and whether its answer can be sent. -/
structure Arrival where
  msg : Bytes
  random : Nat → Bytes
  sends : Bool

/-- What was packed is sent in one frame, or the connection ends. -/
def Talk.send (x : Talk τ η) (s : State τ η) (e : Exchange τ η) (out : Option Bytes) (sends : Bool) :
    Talk τ η :=
  match out.bind sendMsg, sends with
  | some frame, true => ⟨next env s .answered, x.frames ++ [frame], x.log ++ [e]⟩
  | _, _ => { x with state := { s with closed := true } }

/-- The requests of a message, carried out. -/
def Talk.run (x : Talk τ η) (a : Arrival) : State τ η × List (Piece × Option Response) :=
  carryOut env bodies a.random 0 (next env x.state .message) (pieces a.msg.length a.msg)

/-- The replies to a message. -/
def Talk.due (x : Talk τ η) (a : Arrival) : List Response := (x.run env bodies a).2.filterMap Prod.snd

/-- `_not_smb2`. -/
def Talk.greet (x : Talk τ η) (a : Arrival) : Talk τ η :=
  let s := (next env x.state .message).foreign env a.msg
  match foreignReply env a.msg with
  | none => { x with state := next env s .answered }
  | some dialect => x.send env s (.negotiated a.msg dialect) (packForeign bodies dialect) a.sends

/-- The requests of a message and its replies. A message whose rest has no header gets none. -/
def Talk.reply (x : Talk τ η) (a : Arrival) : Talk τ η :=
  let run := x.run env bodies a
  if run.1.closed then { x with state := run.1 }
  else if !complete a.msg.length a.msg then
    { x with state := { run.1 with closed := run.1.conn.terminate } }
  else if x.due env bodies a = [] then { x with state := next env run.1 .answered }
  else
    x.send env run.1 (.replies a.msg run.1.conn run.2)
      (packReplies env run.1.conn true (x.due env bodies a)) a.sends

/-- `_dispatch_all`, and the end of one pass of the loop of `_serve_client`. -/
def Talk.receive (x : Talk τ η) (a : Arrival) : Talk τ η :=
  if x.state.closed then x
  else if pieces a.msg.length a.msg = [] then x.greet env bodies a
  else x.reply env bodies a

/-- All runs of a connection with what it sends. -/
def talks : System (Talk τ η) Arrival := .ofNext Talk.new (Talk.receive env bodies)

/-- `_serve_client` on all the bytes of a client. -/
def serveClient (stream : Bytes) (random : Nat → Nat → Bytes) (sends : Nat → Bool) : Talk τ η :=
  ((messages stream.length stream).mapIdx fun i msg => Arrival.mk msg (random i) (sends i)).foldl
    (Talk.receive env bodies) Talk.new

/-- Whatever a client sends, its connection is a run. -/
theorem reached_serveClient (stream : Bytes) (random : Nat → Nat → Bytes) (sends : Nat → Bool) :
    (talks env bodies).Reached (serveClient env bodies stream random sends) :=
  System.ReachedWhen.along (.init rfl) (.of_forall (fun _ _ => trivial) _ _)

/-! ## A reply as it is read -/

/-- The authentication codes have at least the length of a signature. -/
structure Macs (env : Env τ η) : Prop where
  aesCmac : ∀ key message, (env.aesCmac key message).length = 16
  hmacSha256 : ∀ key message, 16 ≤ (env.hmacSha256 key message).length

/-- What a client reads of a reply. -/
structure Carried (conn : Conn τ η) (r : Response) (q : Piece) : Prop where
  command : q.hdr.command = r.hdr.command
  messageId : q.hdr.messageId = r.hdr.messageId
  treeId : q.hdr.treeId = r.hdr.treeId
  sessionId : q.hdr.sessionId = if conn.sessionId = 0 then r.hdr.sessionId else conn.sessionId
  credits : q.hdr.credits = r.grant
  status : q.raw.field 8 4 = r.status
  fromServer : q.hdr.flags &&& FLAG_SERVER_TO_REDIR ≠ 0
  body : ∃ n < 8, q.body = r.body ++ List.replicate n 0
  signed : q.hdr.signed = shouldSign conn r.toWaiting
  verifies : q.hdr.signed = true → ∃ key dialect, conn.signingKey = some key ∧
    conn.dialect = some dialect ∧ verify env key dialect q.raw = true

/-- A message that chains these replies, each aligned, and nothing else. -/
structure Chain (conn : Conn τ η) (rs : List Response) (fuel : Nat) (out : Bytes) : Prop where
  reads : List.Forall₂ (Carried env conn) rs (pieces fuel out)
  complete : complete fuel out = true
  whole : (pieces fuel out).flatMap Piece.raw = out
  aligned : ∀ q ∈ (pieces fuel out).dropLast, q.hdr.nextCommand = q.raw.length ∧ q.raw.length % 8 = 0

theorem le_aligned (total : Nat) : total ≤ aligned total := by
  unfold aligned
  omega

theorem padding_lt (last : Bool) (total : Nat) : padding last total < 8 := by
  unfold padding aligned
  split
  · omega
  · omega

theorem Response.signed_header (conn : Conn τ η) (first last : Bool) (r : Response) :
    (r.header conn first last).received.signed = shouldSign conn r.toWaiting := by
  unfold Header.received Response.header Header.signed
  dsimp only
  cases shouldSign conn r.toWaiting with
  | false =>
      split
      · rfl
      · rfl
  | true =>
      split
      · rfl
      · rfl

theorem Header.fromServer_received (hdr : Header) :
    hdr.received.flags &&& FLAG_SERVER_TO_REDIR ≠ 0 := by
  show (hdr.flags ||| 1) &&& 1 ≠ 0
  have hbit : (hdr.flags ||| 1) % 2 = 1 := Nat.or_mod_two_eq_one.mpr (Or.inr rfl)
  rw [Nat.and_one_is_mod, hbit]
  exact Nat.one_ne_zero

variable {env}

theorem length_sign (hmacs : Macs env) (key : Bytes) (dialect : Nat) (message : Bytes) :
    (sign env key dialect message).length = 16 := by
  unfold sign
  dsimp only
  split
  · exact hmacs.aesCmac _ _
  · exact List.length_take_of_le (hmacs.hmacSha256 _ _)

section Signature

variable {front mac tail : Bytes} (hfront : front.length = 48) (hmac : mac.length = 16)
include hfront hmac

theorem drop_signature : (front ++ (mac ++ tail)).drop 64 = tail := by
  rw [← List.append_assoc, List.drop_left' (by rw [List.length_append, hfront, hmac])]

/-- A signature does not depend on the one that stands in the message. -/
theorem sign_congr {mac' : Bytes} (hmac' : mac'.length = 16) (key : Bytes) (dialect : Nat) :
    sign env key dialect (front ++ (mac ++ tail)) = sign env key dialect (front ++ (mac' ++ tail)) := by
  unfold sign
  rw [List.take_left' hfront, List.take_left' hfront, drop_signature hfront hmac,
    drop_signature hfront hmac']

theorem signed_eq (key : Bytes) (dialect : Nat) :
    signed env key dialect (front ++ (mac ++ tail)) =
      front ++ (sign env key dialect (front ++ (mac ++ tail)) ++ tail) := by
  unfold signed
  rw [List.take_left' hfront, drop_signature hfront hmac, List.append_assoc]

theorem verify_signed (hmacs : Macs env) (key : Bytes) (dialect : Nat) :
    verify env key dialect (signed env key dialect (front ++ (mac ++ tail))) = true := by
  have hsign := length_sign hmacs key dialect (front ++ (mac ++ tail))
  rw [signed_eq hfront hmac]
  unfold verify
  rw [sign_congr hfront hsign hmac, Bytes.sub, List.drop_left' hfront, List.take_left' hsign]
  simp only [List.length_append, hfront, hsign, beq_self_eq_true, Bool.and_true, decide_eq_true_eq]
  omega

end Signature

/-- A reply that was packed: its header, a signature, its body and zeros. -/
theorem packReply_eq (hmacs : Macs env) {conn : Conn τ η} {first last : Bool} {r : Response}
    {piece : Bytes} (h : packReply env conn first last r = some piece) :
    (headerItems r.status (r.header conn first last)).all Item.fits = true ∧
      ∃ mac : Bytes, mac.length = 16 ∧
        piece = headerFront r.status (r.header conn first last) ++
          (mac ++ (r.body ++ List.replicate (padding last (HEADER_SIZE + r.body.length)) 0)) ∧
        (shouldSign conn r.toWaiting = true → ∃ key dialect, conn.signingKey = some key ∧
          conn.dialect = some dialect ∧ verify env key dialect piece = true) := by
  unfold packReply at h
  cases hhead : packHeader r.status (r.header conn first last) with
  | none =>
      rw [hhead] at h
      cases h
  | some head =>
      obtain ⟨hfits, rfl⟩ := packHeader_eq_some.mp hhead
      have hfront := length_headerFront r.status (r.header conn first last)
      have hzeros : (List.replicate 16 (0 : UInt8)).length = 16 := List.length_replicate
      rw [hhead] at h
      dsimp only at h
      rw [List.append_assoc] at h
      refine ⟨hfits, ?_⟩
      split at h
      · rename_i hsign
        split at h
        · rename_i key dialect hkey hdialect
          cases h
          refine ⟨_, length_sign hmacs key dialect _, signed_eq hfront hzeros key dialect, fun _ => ?_⟩
          exact ⟨key, dialect, hkey, hdialect, verify_signed hfront hzeros hmacs key dialect⟩
        · cases h
      · rename_i hsign
        cases h
        exact ⟨_, hzeros, rfl, fun h => absurd h hsign⟩

theorem length_packReply (hmacs : Macs env) {conn : Conn τ η} {first last : Bool} {r : Response}
    {piece : Bytes} (h : packReply env conn first last r = some piece) :
    piece.length = HEADER_SIZE + r.body.length + padding last (HEADER_SIZE + r.body.length) := by
  obtain ⟨-, mac, hmac, hpiece, -⟩ := packReply_eq hmacs h
  have hfront := length_headerFront r.status (r.header conn first last)
  rw [hpiece]
  simp only [List.length_append, hfront, hmac, List.length_replicate, HEADER_SIZE]
  omega

/-- A reply is read as it was packed, whatever is behind it. -/
theorem packReply_reads (hmacs : Macs env) {conn : Conn τ η} {first last : Bool} {r : Response}
    (hcommand : Command.ofNat r.hdr.command.toNat = r.hdr.command) {piece : Bytes}
    (h : packReply env conn first last r = some piece) (rest : Bytes) :
    parseHeader (piece ++ rest) = some (r.header conn first last).received ∧
      Carried env conn r ⟨(r.header conn first last).received, piece, piece.drop HEADER_SIZE⟩ := by
  obtain ⟨hfits, mac, hmac, hpiece, hverify⟩ := packReply_eq hmacs h
  have hfront := length_headerFront r.status (r.header conn first last)
  constructor
  · rw [hpiece, List.append_assoc]
    apply parseHeader_headerFront hfits hcommand
    simp only [List.length_append, hmac]
    omega
  · exact
      { command := rfl
        messageId := rfl
        treeId := rfl
        sessionId := rfl
        credits := rfl
        status := by
          rw [hpiece]
          exact field_headerFront hfits _
        fromServer := Header.fromServer_received _
        body := by
          refine ⟨_, padding_lt last (HEADER_SIZE + r.body.length), ?_⟩
          rw [hpiece]
          exact drop_signature hfront hmac
        signed := Response.signed_header conn first last r
        verifies := fun hsigned => hverify ((Response.signed_header conn first last r).symm.trans hsigned) }

/-- The first piece of a message. -/
theorem pieces_append {piece rest : Bytes} {hdr : Header} (hparse : parseHeader (piece ++ rest) = some hdr)
    (hnext : hdr.nextCommand = piece.length) (hne : piece ≠ []) (fuel : Nat) :
    pieces (fuel + 1) (piece ++ rest) = ⟨hdr, piece, piece.drop HEADER_SIZE⟩ :: pieces fuel rest ∧
      complete (fuel + 1) (piece ++ rest) = complete fuel rest := by
  have hzero : hdr.nextCommand ≠ 0 := by
    rw [hnext]
    exact (List.length_pos_of_ne_nil hne).ne'
  cases piece with
  | nil => exact absurd rfl hne
  | cons b piece =>
      rw [List.cons_append] at hparse ⊢
      constructor
      · rw [pieces.eq_1 _ _ _ _ hparse, if_neg hzero, hnext, ← List.cons_append, List.take_left,
          List.drop_left]
      · rw [complete.eq_1 _ _ _ _ hparse, beq_eq_false_iff_ne.mpr hzero, Bool.false_or, hnext,
          ← List.cons_append, List.drop_left]

/-- The last piece of a message. -/
theorem pieces_last {piece : Bytes} {hdr : Header} (hparse : parseHeader piece = some hdr)
    (hnext : hdr.nextCommand = 0) (hne : piece ≠ []) (fuel : Nat) :
    pieces (fuel + 1) piece = [⟨hdr, piece, piece.drop HEADER_SIZE⟩] ∧
      complete (fuel + 1) piece = true := by
  cases piece with
  | nil => exact absurd rfl hne
  | cons b piece =>
      constructor
      · rw [pieces.eq_1 _ _ _ _ hparse, if_pos hnext]
      · rw [complete.eq_1 _ _ _ _ hparse, hnext]
        rfl

/-- The replies of a message are read as they were packed. -/
theorem packReplies_chain (hmacs : Macs env) {conn : Conn τ η} {rs : List Response} (hne : rs ≠ [])
    (hcommands : ∀ r ∈ rs, Command.ofNat r.hdr.command.toNat = r.hdr.command) {first : Bool}
    {out : Bytes} (h : packReplies env conn first rs = some out) {fuel : Nat} (hfuel : rs.length ≤ fuel) :
    Chain env conn rs fuel out := by
  induction rs generalizing first out fuel with
  | nil => exact absurd rfl hne
  | cons r rest ih =>
      cases fuel with
      | zero => exact absurd hfuel (Nat.not_succ_le_zero _)
      | succ fuel =>
          unfold packReplies at h
          split at h
          · rename_i piece out' hpiece hout
            cases h
            obtain ⟨hparse, hreads⟩ :=
              packReply_reads hmacs (hcommands r List.mem_cons_self) hpiece out'
            have hlength := length_packReply hmacs hpiece
            have hpos : piece ≠ [] := by
              apply List.ne_nil_of_length_pos
              rw [hlength, HEADER_SIZE]
              omega
            cases rest with
            | nil =>
                cases hout
                rw [List.append_nil] at hparse ⊢
                obtain ⟨hpieces, hcomplete⟩ := pieces_last hparse rfl hpos fuel
                refine ⟨?_, hcomplete, ?_, ?_⟩
                · rw [hpieces]
                  exact .cons hreads .nil
                · rw [hpieces]
                  exact List.append_nil _
                · rw [hpieces]
                  intro q hq
                  cases hq
            | cons r' rest =>
                have hnext : (r.header conn first false).received.nextCommand = piece.length := by
                  have hle := le_aligned (HEADER_SIZE + r.body.length)
                  rw [hlength]
                  show aligned _ = _ + (aligned _ - _)
                  omega
                obtain ⟨hpieces, hcomplete⟩ := pieces_append hparse hnext hpos fuel
                have hchain := ih (List.cons_ne_nil _ _)
                  (fun r hr => hcommands r (List.mem_cons_of_mem _ hr)) hout
                  (Nat.le_of_succ_le_succ hfuel)
                have hrest : pieces fuel out' ≠ [] := by
                  intro hnil
                  have hreads := hchain.reads
                  rw [hnil] at hreads
                  cases hreads
                refine ⟨?_, ?_, ?_, ?_⟩
                · rw [hpieces]
                  exact .cons hreads hchain.reads
                · rw [hcomplete]
                  exact hchain.complete
                · rw [hpieces, List.flatMap_cons, hchain.whole]
                · rw [hpieces, List.dropLast_cons_of_ne_nil hrest]
                  intro q hq
                  rcases List.mem_cons.mp hq with rfl | hq
                  · refine ⟨hnext, ?_⟩
                    show piece.length % 8 = 0
                    rw [← hnext]
                    show aligned _ % 8 = 0
                    unfold aligned
                    omega
                  · exact hchain.aligned q hq
          · cases h

theorem length_le_packReplies (hmacs : Macs env) {conn : Conn τ η} {rs : List Response} {first : Bool}
    {out : Bytes} (h : packReplies env conn first rs = some out) : rs.length ≤ out.length := by
  induction rs generalizing first out with
  | nil => exact Nat.zero_le _
  | cons r rest ih =>
      unfold packReplies at h
      split at h
      · rename_i piece out' hpiece hout
        cases h
        have hlength := length_packReply hmacs hpiece
        have hrest := ih hout
        rw [List.length_cons, List.length_append, hlength, HEADER_SIZE]
        omega
      · cases h

/-! ## What a message is answered -/

/-- A request and its reply: one that answers it, or none to a CANCEL. -/
def Answered (e : Piece × Option Response) : Prop :=
  (∀ r, e.2 = some r → r.hdr.messageId = e.1.hdr.messageId ∧ r.hdr.command = e.1.hdr.command ∧
    r.hdr.flags = e.1.hdr.flags ∧ 1 ≤ r.grant) ∧
  (e.2 = none → e.1.hdr.command = .cancel)

theorem State.finish_prev (s : State τ η) (hdr : Header) (conn : Conn τ η) (reply : Reply)
    (session : Option Bytes) :
    ∃ treeId, (s.finish hdr conn reply session).prev =
      some ({ hdr with treeId := treeId }, reply.status) := by
  unfold State.finish
  dsimp only
  cases reply.treeId with
  | none => exact ⟨hdr.treeId, rfl⟩
  | some treeId => exact ⟨treeId, rfl⟩

/-- The ids that `inherit` does not write. -/
theorem inherit_eq (prev : Option (Header × Option Status)) (hdr : Header) :
    ∃ treeId sessionId, inherit prev hdr = { hdr with treeId := treeId, sessionId := sessionId } := by
  unfold inherit
  split
  · split
    · exact ⟨_, _, rfl⟩
    · exact ⟨hdr.treeId, hdr.sessionId, rfl⟩
  · exact ⟨hdr.treeId, hdr.sessionId, rfl⟩

/-- The request before, as the next one finds it. -/
theorem State.request_prev {s : State τ η} {p : Piece} {random : Bytes}
    (hopen : (s.request env p random).closed = false) :
    ∃ treeId sessionId status, (s.request env p random).prev =
      some ({ p.hdr with treeId := treeId, sessionId := sessionId }, status) := by
  have hfinish (conn : Conn τ η) (reply : Reply) (session : Option Bytes) :
      ∃ treeId sessionId status, (s.finish (inherit s.prev p.hdr) conn reply session).prev =
        some ({ p.hdr with treeId := treeId, sessionId := sessionId }, status) := by
    obtain ⟨treeId, hprev⟩ := State.finish_prev s (inherit s.prev p.hdr) conn reply session
    obtain ⟨_, sessionId, hinherit⟩ := inherit_eq s.prev p.hdr
    rw [hinherit] at hprev
    exact ⟨treeId, sessionId, reply.status, hinherit ▸ hprev⟩
  unfold State.request at hopen ⊢
  dsimp only at hopen ⊢
  cases hclosed : s.closed with
  | true =>
      rw [hclosed, if_pos rfl, hclosed] at hopen
      cases hopen
  | false =>
      rw [hclosed, if_neg Bool.false_ne_true] at hopen
      rw [if_neg Bool.false_ne_true]
      cases hcheck : signatureCheck env s.conn (inherit s.prev p.hdr) p.raw with
      | crash =>
          rw [hcheck] at hopen
          cases hopen
      | refuse status =>
          cases inheritedFailure s.prev p.hdr with
          | none => exact hfinish _ _ _
          | some status' => exact hfinish _ _ _
      | pass =>
          cases inheritedFailure s.prev p.hdr with
          | none => exact hfinish _ _ _
          | some status' => exact hfinish _ _ _

variable {bodies : Bodies τ η}

theorem State.response_answered (hserve : Answers env) {s : State τ η} {p : Piece} {random : Bytes}
    (hopen : (s.request env p random).closed = false) :
    Answered (p, s.response env bodies p random) := by
  obtain ⟨treeId, sessionId, status, hprev⟩ := State.request_prev hopen
  obtain ⟨-, hdr, status', hprev', hsilent⟩ := State.request_credits hserve hopen
  rw [hprev] at hprev'
  cases hprev'
  unfold State.response
  rw [hprev]
  cases status with
  | none => exact ⟨fun r hr => absurd hr (Option.some_ne_none r).symm, fun _ => (hsilent rfl).1⟩
  | some status =>
      refine ⟨fun r hr => ?_, fun hnone => by cases hnone⟩
      cases hr
      exact ⟨rfl, rfl, rfl, one_le_grantOf _ _⟩

/-- Every request of a message is answered, in order, as long as none ends the connection. -/
theorem carryOut_answered (hserve : Answers env) {random : Nat → Bytes} {ps : List Piece} :
    ∀ {i : Nat} {s : State τ η}, (carryOut env bodies random i s ps).1.closed = false →
      (carryOut env bodies random i s ps).2.map Prod.fst = ps ∧
        ∀ e ∈ (carryOut env bodies random i s ps).2, Answered e := by
  induction ps with
  | nil =>
      intro i s hopen
      exact ⟨rfl, fun e he => absurd he List.not_mem_nil⟩
  | cons p ps ih =>
      intro i s hopen
      unfold carryOut at hopen ⊢
      dsimp only at hopen ⊢
      cases hclosed : (s.request env p (random i)).closed with
      | true =>
          rw [hclosed, if_pos rfl, hclosed] at hopen
          cases hopen
      | false =>
          rw [hclosed, if_neg Bool.false_ne_true] at hopen
          rw [if_neg Bool.false_ne_true]
          obtain ⟨hasked, hanswered⟩ := ih hopen
          refine ⟨congrArg _ hasked, fun e he => ?_⟩
          rcases List.mem_cons.mp he with rfl | he
          · exact State.response_answered hserve hclosed
          · exact hanswered e he

theorem toNat_of_parse {raw : Bytes} {hdr : Header} (h : parseHeader raw = some hdr) :
    hdr.command.toNat = raw.field 12 2 ∧ Command.ofNat hdr.command.toNat = hdr.command := by
  unfold parseHeader at h
  split at h
  · cases h
  · cases h
    exact ⟨Command.toNat_ofNat _, congrArg _ (Command.toNat_ofNat _)⟩

/-- The requests of a message have headers that were read. -/
theorem exists_parse {fuel : Nat} {msg : Bytes} {p : Piece} (hp : p ∈ pieces fuel msg) :
    ∃ raw, parseHeader raw = some p.hdr := by
  induction fuel generalizing msg with
  | zero => cases hp
  | succ fuel ih =>
      cases msg with
      | nil => cases hp
      | cons b msg =>
          cases hparse : parseHeader (b :: msg) with
          | none =>
              rw [pieces.eq_def, hparse] at hp
              cases hp
          | some hdr =>
              rw [pieces.eq_1 _ _ _ _ hparse] at hp
              split at hp
              · rw [List.mem_singleton.mp hp]
                exact ⟨_, hparse⟩
              · rcases List.mem_cons.mp hp with rfl | hp
                · exact ⟨_, hparse⟩
                · exact ih hp

/-! ## Everything that is sent -/

/-- What an exchange says of its message: the requests it carried, each with its reply. -/
def Exchange.Asked (env : Env τ η) : Exchange τ η → Prop
  | .replies msg _ asked =>
      asked.map Prod.fst = pieces msg.length msg ∧ complete msg.length msg = true ∧
        ∀ e ∈ asked, Answered e
  | .negotiated msg dialect => pieces msg.length msg = [] ∧ foreignReply env msg = some dialect

/-- A NEGOTIATE response that answers an SMB1 NEGOTIATE. -/
structure Greets (bodies : Bodies τ η) (dialect : Nat) (q : Piece) : Prop where
  command : q.hdr.command = .negotiate
  messageId : q.hdr.messageId = 0
  credits : q.hdr.credits = 1
  status : q.raw.field 8 4 = STATUS_SUCCESS
  signed : q.hdr.signed = false
  body : q.body = bodies.negotiate dialect

/-- What a client reads of the message that answers an exchange. -/
def Exchange.Read (env : Env τ η) (bodies : Bodies τ η) (out : Bytes) : Exchange τ η → Prop
  | .replies _ conn asked => Chain env conn (asked.filterMap Prod.snd) out.length out
  | .negotiated _ dialect => ∃ q, pieces out.length out = [q] ∧ Greets bodies dialect q

theorem packForeign_greets {dialect : Nat} {out : Bytes} (h : packForeign bodies dialect = some out) :
    out ≠ [] ∧ ∃ q, pieces out.length out = [q] ∧ Greets bodies dialect q := by
  unfold packForeign at h
  obtain ⟨head, hhead, rfl⟩ := Option.map_eq_some_iff.mp h
  obtain ⟨hfits, rfl⟩ := packHeader_eq_some.mp hhead
  have hfront := length_headerFront STATUS_SUCCESS foreignHeader
  have hzeros : (List.replicate 16 (0 : UInt8)).length = 16 := List.length_replicate
  rw [List.append_assoc]
  have hparse := parseHeader_headerFront hfits rfl (show 16 ≤ (List.replicate 16 0 ++
    bodies.negotiate dialect).length by simp only [List.length_append, hzeros]; omega)
  generalize hout : headerFront STATUS_SUCCESS foreignHeader ++ (List.replicate 16 0 ++
    bodies.negotiate dialect) = out at hparse ⊢
  have hlength : 48 ≤ out.length := by
    rw [← hout, List.length_append, hfront]
    omega
  have hne : out ≠ [] := List.ne_nil_of_length_pos (by omega)
  refine ⟨hne, ⟨foreignHeader.received, out, out.drop HEADER_SIZE⟩, ?_, ?_⟩
  · rw [← Nat.sub_add_cancel (show 1 ≤ out.length by omega)]
    exact (pieces_last hparse rfl hne _).1
  · exact
      { command := rfl
        messageId := rfl
        credits := rfl
        status := by
          rw [← hout]
          exact field_headerFront hfits _
        signed := by
          show foreignHeader.received.signed = false
          decide
        body := by
          rw [← hout]
          exact drop_signature hfront hzeros }

/-- What was sent: each frame carries a message that answers its exchange. -/
def Sent (env : Env τ η) (bodies : Bodies τ η) (e : Exchange τ η) (frame : Bytes) : Prop :=
  ∃ out, out ≠ [] ∧ sendMsg out = some frame ∧ e.Read env bodies out ∧ e.Asked env

theorem Talk.send_frames {x : Talk τ η} {s : State τ η} {e : Exchange τ η} {out : Option Bytes}
    {sends : Bool} (hx : List.Forall₂ (Sent env bodies) x.log x.frames)
    (hout : ∀ out', out = some out' → out' ≠ [] ∧ e.Read env bodies out') (he : e.Asked env) :
    List.Forall₂ (Sent env bodies) (x.send env s e out sends).log (x.send env s e out sends).frames := by
  unfold Talk.send
  split
  · rename_i frame hframe
    obtain ⟨out', rfl, hsend⟩ := Option.bind_eq_some_iff.mp hframe
    obtain ⟨hne, hread⟩ := hout out' rfl
    exact List.rel_append hx (.cons ⟨out', hne, hsend, hread, he⟩ .nil)
  · exact hx

/-- The replies to the requests of a message have the commands of headers that were read. -/
theorem toNat_of_answered {asked : List (Piece × Option Response)} {msg : Bytes} {fuel : Nat}
    (hasked : asked.map Prod.fst = pieces fuel msg) (hanswered : ∀ e ∈ asked, Answered e) {r : Response}
    (hr : r ∈ asked.filterMap Prod.snd) : Command.ofNat r.hdr.command.toNat = r.hdr.command := by
  obtain ⟨e, he, hr⟩ := List.mem_filterMap.mp hr
  have hp : e.1 ∈ pieces fuel msg := by
    rw [← hasked]
    exact List.mem_map_of_mem he
  obtain ⟨raw, hraw⟩ := exists_parse hp
  rw [((hanswered e he).1 r hr).2.1]
  exact (toNat_of_parse hraw).2

theorem Talk.greet_frames {x : Talk τ η} (hx : List.Forall₂ (Sent env bodies) x.log x.frames)
    {a : Arrival} (hpieces : pieces a.msg.length a.msg = []) :
    List.Forall₂ (Sent env bodies) (x.greet env bodies a).log (x.greet env bodies a).frames := by
  unfold Talk.greet
  dsimp only
  split
  · exact hx
  · rename_i dialect hforeign
    exact Talk.send_frames hx (fun out hout => packForeign_greets hout) ⟨hpieces, hforeign⟩

theorem Talk.reply_frames (hmacs : Macs env) (hserve : Answers env) {x : Talk τ η}
    (hx : List.Forall₂ (Sent env bodies) x.log x.frames) (a : Arrival) :
    List.Forall₂ (Sent env bodies) (x.reply env bodies a).log (x.reply env bodies a).frames := by
  unfold Talk.reply
  dsimp only
  split
  · exact hx
  rename_i hopen
  split
  · exact hx
  rename_i hcomplete
  split
  · exact hx
  rename_i hdue
  obtain ⟨hasked, hanswered⟩ : (x.run env bodies a).2.map Prod.fst = pieces a.msg.length a.msg ∧
      ∀ e ∈ (x.run env bodies a).2, Answered e :=
    carryOut_answered hserve (Bool.eq_false_of_not_eq_true hopen)
  apply Talk.send_frames hx
  · intro out hout
    have hlength := length_le_packReplies hmacs hout
    refine ⟨?_, packReplies_chain hmacs hdue (fun r hr => toNat_of_answered hasked hanswered hr) hout
      hlength⟩
    rintro rfl
    exact hdue (List.length_eq_zero_iff.mp (Nat.le_zero.mp hlength))
  · exact ⟨hasked, by simpa using hcomplete, hanswered⟩

theorem Talk.receive_frames (hmacs : Macs env) (hserve : Answers env) {x : Talk τ η}
    (hx : List.Forall₂ (Sent env bodies) x.log x.frames) (a : Arrival) :
    List.Forall₂ (Sent env bodies) (x.receive env bodies a).log (x.receive env bodies a).frames := by
  unfold Talk.receive
  split
  · exact hx
  split
  · rename_i hpieces
    exact Talk.greet_frames hx hpieces
  · exact Talk.reply_frames hmacs hserve hx a

/-- The messages of what was sent. -/
theorem exists_messages {log : List (Exchange τ η)} {frames : List Bytes}
    (h : List.Forall₂ (Sent env bodies) log frames) :
    ∃ msgs, List.Forall₂ (fun msg frame => msg ≠ [] ∧ sendMsg msg = some frame) msgs frames ∧
      List.Forall₂ (fun e out => e.Read env bodies out) log msgs ∧ ∀ e ∈ log, e.Asked env := by
  induction h with
  | nil => exact ⟨[], .nil, .nil, fun e he => absurd he List.not_mem_nil⟩
  | cons hsent _ ih =>
      obtain ⟨out, hne, hsend, hread, hasked⟩ := hsent
      obtain ⟨msgs, hframes, hreads, hall⟩ := ih
      refine ⟨out :: msgs, .cons ⟨hne, hsend⟩ hframes, .cons hread hreads, fun e he => ?_⟩
      rcases List.mem_cons.mp he with rfl | he
      · exact hasked
      · exact hall e he

theorem length_le_flatten {msgs frames : List Bytes}
    (h : List.Forall₂ (fun msg frame => msg ≠ [] ∧ sendMsg msg = some frame) msgs frames) :
    msgs.length ≤ frames.flatten.length := by
  induction h with
  | nil => exact Nat.zero_le _
  | @cons msg frame msgs frames hframe _ ih =>
      have hlength : 1 ≤ frame.length := by
        obtain ⟨-, hsend⟩ := hframe
        unfold sendMsg at hsend
        split at hsend
        · cases hsend
          exact Nat.succ_le_succ (Nat.zero_le _)
        · cases hsend
      rw [List.flatten_cons, List.length_append, List.length_cons]
      omega

/-- Whatever a client sends, what it is sent reads as one message for each exchange; the message of
an exchange chains exactly its replies, each aligned, with the id of its request and, if it is signed, a
signature that verifies; and an exchange has one reply for each request of its message that is not a
CANCEL, in order. -/
theorem replies_read (hmacs : Macs env) (hserve : Answers env) {x : Talk τ η}
    (hx : (talks env bodies).Reached x) :
    List.Forall₂ (fun e out => e.Read env bodies out) x.log
        (messages x.frames.flatten.length x.frames.flatten) ∧
      ∀ e ∈ x.log, e.Asked env := by
  have hsent : List.Forall₂ (Sent env bodies) x.log x.frames := by
    refine @System.ReachedWhen.invariant _ _ _ _
      (fun x : Talk τ η => List.Forall₂ (Sent env bodies) x.log x.frames) ?_ ?_ x hx
    · rintro x rfl
      exact .nil
    · rintro x a _ h - rfl
      exact Talk.receive_frames hmacs hserve h a
  obtain ⟨msgs, hframes, hreads, hasked⟩ := exists_messages hsent
  rw [messages_flatten hframes (length_le_flatten hframes)]
  exact ⟨hreads, hasked⟩

/-! ## A compound with a CANCEL in it -/

/-- The account of one user, with authentication codes of the lengths of SHA-256 and AES. -/
def oneSigner : Env Unit Unit :=
  { oneAccount with
    hmacSha256 := fun key message => Bytes.ofNat 32 (key ++ message).le
    aesCmac := fun key message => Bytes.ofNat 16 (message ++ key).le }

theorem macs_oneSigner : Macs oneSigner :=
  ⟨fun _ _ => Bytes.length_ofNat 16 _, fun _ _ => by
    show 16 ≤ (Bytes.ofNat 32 _).length
    rw [Bytes.length_ofNat]
    decide⟩

/-- Handlers that answer with four bytes. -/
def fourBytes : Bodies Unit Unit := ⟨fun _ _ _ => Bytes.ofNat 4 4, Bytes.ofNat 4⟩

/-- A request in a compound, 72 bytes long. -/
def linkedRequest (command messageId next : Nat) : Bytes :=
  SMB2_MAGIC ++ Bytes.ofNat 8 0x40 ++ Bytes.ofNat 2 command ++ Bytes.ofNat 6 1 ++ Bytes.ofNat 4 next ++
    Bytes.ofNat 8 messageId ++ Bytes.ofNat 40 4

/-- An ECHO, a CANCEL and an ECHO. -/
def echoes : Bytes := linkedRequest 0x0d 1 72 ++ linkedRequest 0x0c 2 72 ++ linkedRequest 0x0d 3 0

/-- A client that logs on with signing and sends the compound. -/
def echoing : Talk Unit Unit :=
  serveClient oneSigner fourBytes
    ([negotiateMessage, setupMessage 2 1, setupMessage 2 3, echoes].flatMap fun msg =>
      (sendMsg msg).getD [])
    (fun _ _ => Bytes.ofNat 16 5) fun _ => true

/-- The ids of the replies on the stream, and the replies that are signed. -/
theorem replies_read_echoes :
    (messages echoing.frames.flatten.length echoing.frames.flatten).map (fun out =>
        (pieces out.length out).map fun q => (q.hdr.messageId, q.hdr.signed)) =
      [[(0, false)], [(0, false)], [(0, true)], [(1, true), (3, true)]] ∧
    List.Forall₂ (fun e out => e.Read oneSigner fourBytes out) echoing.log
        (messages echoing.frames.flatten.length echoing.frames.flatten) ∧
      ∀ e ∈ echoing.log, e.Asked oneSigner :=
  ⟨by decide +kernel,
    replies_read macs_oneSigner (fun _ _ _ _ _ => rfl) (reached_serveClient oneSigner fourBytes _ _ _)⟩

end Ps2Servers.Smb2
