import Ps2Servers.Lib.Runs
import Ps2Servers.Smb2.Wire

/-!
# SMB2 connections: negotiation, sessions and signing

The state of one TCP connection and what each request does to it. A message is
handled request by request; before a request reaches its handler its signature
is checked.

## Implementation notes

The hash functions, the NTLM proof, the share list and the commands on files are
parameters, collected in `Env`: the signing rules hold whatever they do. A file
command can change the tables of trees and handles only, which is all the
handlers of these commands write of a connection. Reply bodies are left out,
except the file id of a CREATE, which a compound carries on. Random bytes drawn
during a request are part of the input. `session` is no field of the server: it
records the key of the session established with signing required, from its
SESSION_SETUP to the next successful one or a LOGOFF.
-/

namespace Ps2Servers.Smb2

/-- `Connection.trees` and `Connection.handles` with their counters. -/
structure Tables (τ η : Type) where
  trees : List (Nat × τ)
  handles : List (Nat × η)
  nextTree : Nat
  nextHandle : Nat
  deriving DecidableEq, Repr

/-- `Connection.negotiate_claims`: capabilities, guid, mode and dialects. -/
structure Claims where
  caps : Nat
  guid : Bytes
  mode : Nat
  dialects : Option (List Nat)
  deriving DecidableEq, Repr

structure Conn (τ η : Type) where
  dialect : Option Nat
  sessionId : Nat
  authenticated : Bool
  challenge : Option Bytes
  ntlmNegotiate : Option Bytes
  ntlmChallenge : Option Bytes
  signingKey : Option Bytes
  signingRequired : Bool
  negotiateClaims : Option Claims
  terminate : Bool
  tables : Tables τ η
  credits : Nat
  compoundFileId : Option Bytes
  deriving DecidableEq, Repr

def Conn.new {τ η : Type} : Conn τ η :=
  { dialect := none, sessionId := 0, authenticated := false, challenge := none,
    ntlmNegotiate := none, ntlmChallenge := none, signingKey := none, signingRequired := false,
    negotiateClaims := none, terminate := false, tables := ⟨[], [], 1, 1⟩, credits := 0,
    compoundFileId := none }

/-- What an NTLM AUTHENTICATE proves. -/
inductive Proof
  /-- An exception: bad credentials, no MIC, a malformed token. -/
  | refused (status : Status)
  /-- Open mode: a guest or a null session, without a key. -/
  | unproved
  | key (sessionKey : Bytes)
  deriving DecidableEq, Repr

/-- What a handler returns. `status = none` sends no reply. -/
structure Reply where
  status : Option Status
  treeId : Option Nat
  fileId : Option Bytes
  deriving DecidableEq, Repr

def Reply.of (status : Status) : Reply := ⟨some status, none, none⟩

structure Env (τ η : Type) where
  ceiling : Nat
  hmacSha256 : Bytes → Bytes → Bytes
  aesCmac : Bytes → Bytes → Bytes
  /-- `smb2_crypto.kdf` with the signing label. -/
  kdf : Bytes → Bytes
  buildChallenge : Bytes → Bool → Nat → Bytes
  trim : Bytes → Bytes
  /-- `parse_authenticate`, `auth.verify`, `exported_session_key` and `verify_mic`. -/
  prove : Bytes → Bytes → Option Bytes → Option Bytes → Proof
  /-- The tree a TREE_CONNECT path names, `IPC$` included. -/
  shareNamed : Bytes → Option τ
  /-- The handlers of commands on files and pipes, past the tree check where they have one. -/
  serve : Command → Tables τ η → Header → Bytes → Option Bytes → Reply × Tables τ η

variable {τ η : Type} (env : Env τ η)

/-! ## Signatures -/

/-- `smb2_crypto.sign`. -/
def sign (key : Bytes) (dialect : Nat) (message : Bytes) : Bytes :=
  let zeroed := message.take 48 ++ List.replicate 16 0 ++ message.drop 64
  if dialect ≥ 0x0300 then env.aesCmac key zeroed else (env.hmacSha256 key zeroed).take 16

/-- `smb2_crypto.verify`. -/
def verify (key : Bytes) (dialect : Nat) (message : Bytes) : Bool :=
  message.length ≥ 64 && sign env key dialect message == message.sub 48 16

/-- `smb2_crypto.signing_key`. -/
def signingKeyOf (sessionKey : Bytes) (dialect : Nat) : Bytes :=
  if dialect ≥ 0x0300 then env.kdf (sessionKey.take 16) else sessionKey.take 16

def unsignedOk (command : Command) : Bool :=
  command == .negotiate || command == .sessionSetup || command == .cancel

inductive Check
  | pass
  | refuse (status : Status)
  /-- A `TypeError`, which ends the connection: no dialect was negotiated. -/
  | crash
  deriving DecidableEq, Repr

/-- `_signature_check`. -/
def signatureCheck (conn : Conn τ η) (hdr : Header) (message : Bytes) : Check :=
  match conn.signingKey with
  | none => .pass
  | some key =>
      if hdr.signed then
        if message.length < 64 then .refuse STATUS_ACCESS_DENIED
        else
          match conn.dialect with
          | none => .crash
          | some dialect =>
              if verify env key dialect message then .pass else .refuse STATUS_ACCESS_DENIED
      else if conn.signingRequired && !unsignedOk hdr.command then .refuse STATUS_ACCESS_DENIED
      else .pass

/-! ## Negotiation and sessions -/

/-- The dialects of a NEGOTIATE body, as far as it has them. -/
def offered (body : Bytes) : List Nat :=
  ((List.range (body.field 2 2)).takeWhile fun i => 36 + i * 2 + 2 ≤ body.length).map
    fun i => body.field (36 + i * 2) 2

def hNegotiate (conn : Conn τ η) (body : Bytes) : Conn τ η × Reply :=
  if body.length < 36 then (conn, .of STATUS_INVALID_PARAMETER)
  else
    let claims : Claims := ⟨body.field 8 4, body.sub 12 16, body.field 4 2, some (offered body)⟩
    let conn := { conn with negotiateClaims := some claims }
    match pickDialect (offered body) env.ceiling with
    | none => (conn, .of STATUS_NOT_SUPPORTED)
    | some dialect => ({ conn with dialect := some dialect }, .of STATUS_SUCCESS)

def NTLMSSP_SIGNATURE : Bytes := [0x4e, 0x54, 0x4c, 0x4d, 0x53, 0x53, 0x50, 0x00]

/-- `spnego.extract_ntlm`: from the first signature on. -/
def extractNtlm : Bytes → Option Bytes
  | [] => none
  | b :: rest =>
      if NTLMSSP_SIGNATURE.isPrefixOf (b :: rest) then some (b :: rest) else extractNtlm rest

/-- `spnego.message_type`. -/
def messageType (token : Bytes) : Option Nat :=
  if token.length < 12 then none else some (token.field 8 4)

/-- The NTLM token of a SESSION_SETUP body. -/
inductive Setup
  | refused (status : Status)
  | negotiate (token : Bytes) (raw : Bool)
  | authenticate (token : Bytes)
  deriving DecidableEq, Repr

def Setup.isNegotiate : Setup → Bool
  | .negotiate _ _ => true
  | _ => false

/-- The part of `h_session_setup` that reads the request. -/
def setupOf (body : Bytes) : Setup :=
  if body.length < 24 then .refused STATUS_INVALID_PARAMETER
  else
    match requestBuffer body (body.field 12 2) (body.field 14 2) (HEADER_SIZE + 24) with
    | none => .refused STATUS_INVALID_PARAMETER
    | some blob =>
        match extractNtlm blob with
        | none => .refused STATUS_LOGON_FAILURE
        | some token =>
            match messageType token with
            | some 1 => .negotiate token (NTLMSSP_SIGNATURE.isPrefixOf blob)
            | some 3 => .authenticate token
            | _ => .refused STATUS_LOGON_FAILURE

/-- `conn.session_id` once the handler has made sure it has one. -/
def Conn.sessionIdOr (conn : Conn τ η) (random : Bytes) : Nat :=
  if conn.sessionId = 0 then max 1 ((random.sub 8 8).le) else conn.sessionId

def SECURITY_MODE_SIGNING_REQUIRED : Nat := 0x0002

/-- What a SESSION_SETUP comes to. -/
inductive SetupResult
  | refused (status : Status)
  | challenge (token : Bytes) (raw : Bool)
  /-- The session is established; open mode proves nothing and gives no key. -/
  | accepted (sessionKey : Option Bytes)
  deriving DecidableEq, Repr

def setupResult (conn : Conn τ η) (body : Bytes) : SetupResult :=
  match setupOf body with
  | .refused status => .refused status
  | .negotiate token raw => .challenge token raw
  | .authenticate token =>
      match conn.challenge with
      | none => .refused STATUS_LOGON_FAILURE
      | some challenge =>
          match env.prove token challenge conn.ntlmNegotiate conn.ntlmChallenge with
          | .refused status => .refused status
          | .unproved => .accepted none
          | .key sessionKey => .accepted (some sessionKey)

/-- The mode byte of a SESSION_SETUP asks for signing. -/
def signingRequested (body : Bytes) : Bool :=
  body.field 3 1 &&& SECURITY_MODE_SIGNING_REQUIRED != 0

/-- `h_session_setup`. -/
def hSessionSetup (conn : Conn τ η) (body random : Bytes) : Conn τ η × Reply :=
  match setupResult env conn body with
  | .refused status => (conn, .of status)
  | .challenge token raw =>
      let challenge := random.take 8
      let flags := if token.length < 16 then 0 else token.field 12 4
      ({ conn with
          challenge := some challenge
          ntlmNegotiate := some (env.trim token)
          ntlmChallenge := some (env.buildChallenge challenge raw flags)
          signingKey := none
          signingRequired := false
          sessionId := conn.sessionIdOr random },
        .of STATUS_MORE_PROCESSING_REQUIRED)
  | .accepted sessionKey =>
      let conn := { conn with
        authenticated := true
        challenge := none
        ntlmNegotiate := none
        ntlmChallenge := none
        sessionId := conn.sessionIdOr random }
      match sessionKey with
      | none => (conn, .of STATUS_SUCCESS)
      | some key =>
          ({ conn with
              signingKey := some (signingKeyOf env key (conn.dialect.getD 0))
              signingRequired := signingRequested body },
            .of STATUS_SUCCESS)

/-- `h_logoff`. The key stays for the reply. -/
def hLogoff (conn : Conn τ η) : Conn τ η × Reply :=
  ({ conn with
      authenticated := false
      tables := { conn.tables with trees := [], handles := [] } },
    .of STATUS_SUCCESS)

/-! ## Trees, files and the rest -/

def hTreeConnect (conn : Conn τ η) (body : Bytes) : Conn τ η × Reply :=
  if conn.authenticated = false then (conn, .of STATUS_USER_SESSION_DELETED)
  else if body.length < 8 then (conn, .of STATUS_INVALID_PARAMETER)
  else
    match requestBuffer body (body.field 4 2) (body.field 6 2) (HEADER_SIZE + 8) with
    | none => (conn, .of STATUS_INVALID_PARAMETER)
    | some path =>
        match env.shareNamed path with
        | none => (conn, .of STATUS_BAD_NETWORK_NAME)
        | some share =>
            let t := conn.tables
            ({ conn with
                tables := { t with
                  trees := (t.nextTree, share) :: t.trees
                  nextTree := t.nextTree + 1 } },
              ⟨some STATUS_SUCCESS, some t.nextTree, none⟩)

def hTreeDisconnect (conn : Conn τ η) (hdr : Header) : Conn τ η × Reply :=
  ({ conn with
      tables := { conn.tables with trees := conn.tables.trees.filter fun t => t.1 != hdr.treeId } },
    .of STATUS_SUCCESS)

def FSCTL_VALIDATE_NEGOTIATE_INFO : Nat := 0x00140204

/-- `validate_negotiate_info`: a mismatch drops the connection. -/
def validateNegotiateInfo (conn : Conn τ η) (data : Bytes) : Conn τ η × Reply :=
  if data.length < 24 then (conn, .of STATUS_INVALID_PARAMETER)
  else
    let count := data.field 22 2
    let dialects := if 24 + count * 2 ≤ data.length then
      some ((List.range count).map fun i => data.field (24 + 2 * i) 2) else none
    let claimed : Claims := ⟨data.field 0 4, data.sub 4 16, data.field 20 2, dialects⟩
    if conn.negotiateClaims = some claimed then
      -- Without a dialect the answer cannot be packed.
      (conn, .of (if conn.dialect.isSome then STATUS_SUCCESS else STATUS_INVALID_PARAMETER))
    else ({ conn with terminate := true }, .of STATUS_ACCESS_DENIED)

/-- A command on files, pipes or trees, all of which write the tables only. -/
def hFiles (conn : Conn τ η) (hdr : Header) (body : Bytes) : Conn τ η × Reply :=
  let (reply, tables) := env.serve hdr.command conn.tables hdr body conn.compoundFileId
  ({ conn with tables := tables }, reply)

/-- `h_ioctl`. -/
def hIoctl (conn : Conn τ η) (hdr : Header) (body : Bytes) : Conn τ η × Reply :=
  if conn.authenticated = false then (conn, .of STATUS_USER_SESSION_DELETED)
  else if (conn.tables.trees.lookup hdr.treeId).isNone then
    (conn, .of STATUS_NETWORK_NAME_DELETED)
  else if body.length < 56 then (conn, .of STATUS_INVALID_PARAMETER)
  else
    match requestBuffer body (body.field 24 4) (body.field 28 4) (HEADER_SIZE + 56) with
    | none => (conn, .of STATUS_INVALID_PARAMETER)
    | some data =>
        if body.field 4 4 = FSCTL_VALIDATE_NEGOTIATE_INFO then validateNegotiateInfo conn data
        else hFiles env conn hdr body

/-- `_HANDLERS`. -/
def handle (conn : Conn τ η) (hdr : Header) (body random : Bytes) : Conn τ η × Reply :=
  match hdr.command with
  | .negotiate => hNegotiate env conn body
  | .sessionSetup => hSessionSetup env conn body random
  | .logoff => hLogoff conn
  | .treeConnect => hTreeConnect env conn body
  | .treeDisconnect => hTreeDisconnect conn hdr
  | .ioctl => hIoctl env conn hdr body
  | .echo => (conn, .of STATUS_SUCCESS)
  | .cancel => (conn, ⟨none, none, none⟩)
  | .other _ => (conn, .of STATUS_NOT_SUPPORTED)
  | .create | .close | .flush | .read | .write | .queryDirectory | .queryInfo | .setInfo =>
      hFiles env conn hdr body

/-! ## Messages -/

/-- The connection between two requests. `prev` is the request before in the same message,
with its status. -/
structure State (τ η : Type) where
  conn : Conn τ η
  prev : Option (Header × Option Status)
  closed : Bool
  session : Option Bytes
  deriving DecidableEq, Repr

def State.new : State τ η := ⟨Conn.new, none, false, none⟩

inductive Input
  /-- A message starts. -/
  | message
  /-- One request of it. -/
  | request (p : Piece) (random : Bytes)
  /-- A message that is not SMB2. -/
  | foreign (msg : Bytes)
  /-- The message is done. -/
  | answered
  deriving DecidableEq, Repr

/-- A related request inherits the ids its own header leaves open. -/
def inherit (prev : Option (Header × Option Status)) (hdr : Header) : Header :=
  match prev with
  | some (before, _) =>
      if hdr.related then
        { hdr with
          sessionId := if hdr.sessionId = 0xFFFFFFFFFFFFFFFF then before.sessionId
            else hdr.sessionId
          treeId := if hdr.treeId = 0xFFFFFFFF then before.treeId else hdr.treeId }
      else hdr
  | none => hdr

/-- The status a related request fails with because the one before it failed. -/
def inheritedFailure (prev : Option (Header × Option Status)) (hdr : Header) : Option Status :=
  match prev with
  | some (_, some status) => if hdr.related && status != STATUS_SUCCESS then some status else none
  | _ => none

def CREDIT_LIMIT : Nat := 512

/-- `_grant_credits`. -/
def grantCredits (conn : Conn τ η) (hdr : Header) : Conn τ η :=
  let held := if hdr.command = .negotiate then conn.credits
    else conn.credits - max 1 hdr.creditCharge
  { conn with credits := held + max 1 (min (max 1 hdr.credits) (CREDIT_LIMIT - held)) }

/-- The request gets past `_signature_check` and the failure of the one before it. -/
def State.admits (s : State τ η) (p : Piece) : Bool :=
  !s.closed && (inheritedFailure s.prev p.hdr).isNone &&
    signatureCheck env s.conn (inherit s.prev p.hdr) p.raw == .pass

/-- What an admitted request does to the established session: a SESSION_SETUP that succeeds
replaces it, a LOGOFF ends it. -/
def sessionAfter (s : State τ η) (p : Piece) : Option Bytes :=
  match p.hdr.command with
  | .logoff => none
  | .sessionSetup =>
      match setupResult env s.conn p.body with
      | .accepted (some key) =>
          if signingRequested p.body then some (signingKeyOf env key (s.conn.dialect.getD 0))
          else none
      | .accepted none => none
      | _ => s.session
  | _ => s.session

/-- The end of one pass of the loop of `_dispatch_all`. -/
def State.finish (s : State τ η) (hdr : Header) (conn : Conn τ η) (reply : Reply)
    (session : Option Bytes) : State τ η :=
  let hdr := match reply.treeId with
    | some treeId => { hdr with treeId := treeId }
    | none => hdr
  let conn := if hdr.command = .create ∧ reply.status = some STATUS_SUCCESS ∧
      reply.fileId.isSome then { conn with compoundFileId := reply.fileId } else conn
  { s with
    conn := grantCredits conn hdr
    prev := some (hdr, reply.status)
    session := session }

/-- One pass of the loop of `_dispatch_all`. -/
def State.request (s : State τ η) (p : Piece) (random : Bytes) : State τ η :=
  let hdr := inherit s.prev p.hdr
  if s.closed then s
  else
    match signatureCheck env s.conn hdr p.raw, inheritedFailure s.prev p.hdr with
    | .crash, _ => { s with closed := true }
    | _, some status => s.finish hdr s.conn (.of status) s.session
    | .refuse status, none => s.finish hdr s.conn (.of status) s.session
    | .pass, none =>
        let (conn, reply) := handle env s.conn hdr p.body random
        s.finish hdr conn reply (sessionAfter env s p)

/-- `bytes.split(b"\x00")`. -/
def splitZero (blob : Bytes) : List Bytes := blob.splitOn 0

/-- `smb1_negotiate_dialects`: the dialects of an SMB1 NEGOTIATE. -/
def smb1NegotiateDialects (msg : Bytes) : Option (List Bytes) :=
  if msg.length < 35 ∨ msg.take 4 ≠ [0xff, 0x53, 0x4d, 0x42] ∨ msg.field 4 1 ≠ 0x72 then none
  else
    let start := 33 + msg.field 32 1 * 2
    if msg.length < start + 2 then none
    else some (((splitZero (msg.sub (start + 2) (msg.field start 2))).filter fun item =>
      item.head? == some 0x02).map List.tail)

/-- "SMB 2.???" and "SMB 2.002". -/
def SMB_2_WILDCARD : Bytes := [0x53, 0x4d, 0x42, 0x20, 0x32, 0x2e, 0x3f, 0x3f, 0x3f]

def SMB_2_002 : Bytes := [0x53, 0x4d, 0x42, 0x20, 0x32, 0x2e, 0x30, 0x30, 0x32]

/-- The dialect `_not_smb2` writes to the connection. -/
def foreignDialect (msg : Bytes) : Option Nat :=
  match smb1NegotiateDialects msg with
  | none => none
  | some dialects =>
      if !dialects.contains SMB_2_WILDCARD && dialects.contains SMB_2_002 &&
          DIALECT_202 ≤ env.ceiling then some DIALECT_202
      else none

/-- `_not_smb2`. -/
def State.foreign (s : State τ η) (msg : Bytes) : State τ η :=
  let answered := match smb1NegotiateDialects msg with
    | none => false
    | some dialects => dialects.contains SMB_2_WILDCARD || (foreignDialect env msg).isSome
  let conn := if answered then { s.conn with credits := s.conn.credits + 1 } else s.conn
  match foreignDialect env msg with
  | none => { s with conn := conn }
  | some dialect => { s with conn := { conn with dialect := some dialect } }

/-- What one input does to the connection. -/
def next (s : State τ η) : Input → State τ η
  | .message => { s with prev := none, conn := { s.conn with compoundFileId := none } }
  | .request p random => s.request env p random
  | .foreign msg => if s.closed then s else s.foreign env msg
  | .answered =>
      { s with conn := { s.conn with compoundFileId := none }, closed := s.closed || s.conn.terminate }

/-- The inputs one message is, with the random bytes each request draws. -/
def inputs (msg : Bytes) (random : Nat → Bytes) : List Input :=
  let requests := match pieces msg.length msg with
    | [] => [.foreign msg]
    | ps => ps.mapIdx fun i p => .request p (random i)
  .message :: requests ++ [.answered]

/-- `_serve_client` on one message. -/
def receive (s : State τ η) (msg : Bytes) (random : Nat → Bytes) : State τ η :=
  (inputs msg random).foldl (next env) s

/-- All runs of a connection. -/
def connection : Runs.System (State τ η) Input := .ofNext State.new (next env)

/-- Every sequence of messages is a run. -/
theorem reached_receive {s : State τ η} (h : (connection env).Reached s) (msg : Bytes)
    (random : Nat → Bytes) : (connection env).Reached (receive env s msg random) :=
  Runs.System.ReachedWhen.along h (.of_forall (fun _ _ => trivial) s _)

end Ps2Servers.Smb2
