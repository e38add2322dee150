import Ps2Servers.Lib.Struct
import Ps2Servers.Lib.Utf16
import Ps2Servers.Smb2.Connection
import Ps2Servers.Smb2.Host

/-!
# NTLM authentication

The NTLMSSP messages inside a SESSION_SETUP, the check of an NTLMv2 response
against the configured passwords, and the keys and codes that follow from it.

## Implementation notes

The hash functions are parameters. The server's own names can be encoded, which
its challenge relies on.
-/

namespace Ps2Servers.Smb2

open Text

/-- The hash functions and ciphers. -/
structure Crypto where
  md4 : Bytes → Bytes
  hmacMd5 : Bytes → Bytes → Bytes
  hmacSha256 : Bytes → Bytes → Bytes
  aesCmac : Bytes → Bytes → Bytes
  length_hmacSha256 : ∀ key message, (hmacSha256 key message).length = 32
  length_aesCmac : ∀ key message, (aesCmac key message).length = 16

def bigEndian32 (n : Nat) : Bytes := (Bytes.ofNat 4 n).reverse

/-- `smb2_crypto.kdf` for 16 bytes: one block of HMAC-SHA256 is enough. -/
def kdf (crypto : Crypto) (key label context : Bytes) : Bytes :=
  (crypto.hmacSha256 key
    (bigEndian32 1 ++ label ++ [0] ++ [0] ++ context ++ [0] ++ bigEndian32 128)).take 16

/-- The state of RC4: the permutation, and the two indices. -/
structure Rc4 where
  s : List UInt8
  i : Nat
  j : Nat

def swap (s : List UInt8) (i j : Nat) : List UInt8 := (s.set i (s.getD j 0)).set j (s.getD i 0)

/-- The key schedule. -/
def rc4Schedule (key : Bytes) : List UInt8 :=
  ((List.range 256).foldl
    (fun (s, j) i =>
      let j := (j + (s.getD i 0).toNat + (key.getD (i % key.length) 0).toNat) % 256
      (swap s i j, j))
    ((List.range 256).map UInt8.ofNat, 0)).1

def rc4Stream (st : Rc4) : Bytes → Bytes
  | [] => []
  | byte :: rest =>
      let i := (st.i + 1) % 256
      let j := (st.j + (st.s.getD i 0).toNat) % 256
      let s := swap st.s i j
      (byte ^^^ s.getD (((s.getD i 0).toNat + (s.getD j 0).toNat) % 256) 0) ::
        rc4Stream ⟨s, i, j⟩ rest

/-- `smb2_crypto.rc4`. -/
def rc4 (key data : Bytes) : Bytes := rc4Stream ⟨rc4Schedule key, 0, 0⟩ data

/-! ## Messages -/

def NTLM_CHALLENGE : Nat := 2

def NEGOTIATE_VERSION : Nat := 0x02000000

def NEGOTIATE_KEY_EXCH : Nat := 0x40000000

/-- `CHALLENGE_FLAGS`. -/
def CHALLENGE_FLAGS : Nat :=
  0x00000001 ||| 0x00000004 ||| 0x00000200 ||| 0x00008000 ||| 0x00080000 ||| 0x00800000 |||
    0x20000000 ||| 0x80000000

/-- `ECHOED_FLAGS`. -/
def ECHOED_FLAGS : Nat := 0x00000010 ||| NEGOTIATE_KEY_EXCH ||| NEGOTIATE_VERSION

def MSV_AV_EOL : Nat := 0x0000

def MSV_AV_NB_COMPUTER_NAME : Nat := 0x0001

def MSV_AV_NB_DOMAIN_NAME : Nat := 0x0002

def MSV_AV_DNS_COMPUTER_NAME : Nat := 0x0003

def MSV_AV_DNS_DOMAIN_NAME : Nat := 0x0004

def MSV_AV_FLAGS : Nat := 0x0006

def AV_FLAG_MIC_PRESENT : Nat := 0x00000002

def MIC_OFFSET : Nat := 72

def MIC_SIZE : Nat := 16

/-- `_FIELD_OFFSETS`: the field offsets, the size of the fixed part and where the flags are. -/
def fieldOffsets : Option Nat → Option (List Nat × Nat × Nat)
  | some 1 => some ([16, 24], 32, 12)
  | some 3 => some ([12, 20, 28, 36, 44, 52], 64, 60)
  | _ => none

/-- `trim`: the message without what follows it in the security buffer. -/
def trim (token : Bytes) : Bytes :=
  match fieldOffsets (messageType token) with
  | none => token
  | some (offsets, fixed, flagsAt) =>
      if token.length < fixed then token
      else
        let versioned := if token.field flagsAt 4 &&& NEGOTIATE_VERSION != 0 then fixed + 8 else fixed
        token.take (offsets.foldl
          (fun stop offset =>
            if token.field offset 2 = 0 then stop
            else max stop (token.field (offset + 4) 4 + token.field offset 2)) versioned)

/-- `struct.unpack_from` of one number. -/
def unpackFrom (token : Bytes) (offset size : Nat) : Except Exn Nat :=
  if token.length < offset + size then .error .other else .ok (token.field offset size)

/-- `_field`. -/
def ntlmField (token : Bytes) (offset : Nat) : Except Exn Bytes := do
  let length ← unpackFrom token offset 2
  let position ← unpackFrom token (offset + 4) 4
  if length = 0 then .ok []
  else if token.length < position + length then .error (.status STATUS_INVALID_PARAMETER)
  else .ok (token.sub position length)

def avPair (kind : Nat) (value : Bytes) : Bytes := .ofNat 2 kind ++ .ofNat 2 value.length ++ value

/-- `build_challenge`. -/
def buildChallenge (targetName computer : Str) (challenge : Bytes) (compact : Bool)
    (clientFlags : Nat) : Bytes :=
  let flags := CHALLENGE_FLAGS ||| (clientFlags &&& ECHOED_FLAGS)
  let target := (encodeUtf16 targetName).getD []
  let host := (encodeUtf16 computer).getD []
  let dns := if compact then []
    else avPair MSV_AV_DNS_DOMAIN_NAME target ++ avPair MSV_AV_DNS_COMPUTER_NAME host
  let info := avPair MSV_AV_NB_DOMAIN_NAME target ++ avPair MSV_AV_NB_COMPUTER_NAME host ++ dns ++
    avPair MSV_AV_EOL []
  NTLMSSP_SIGNATURE ++ .ofNat 4 NTLM_CHALLENGE ++
    (.ofNat 2 target.length ++ .ofNat 2 target.length ++ .ofNat 4 56) ++ .ofNat 4 flags ++
    challenge ++ List.replicate 8 0 ++
    (.ofNat 2 info.length ++ .ofNat 2 info.length ++ .ofNat 4 (56 + target.length)) ++
    [6, 1, 0xb1, 0x1d, 0, 0, 0, 15] ++ target ++ info

/-- `Credentials`. -/
structure Credentials where
  user : Str
  domain : Str
  workstation : Str
  ntResponse : Bytes
  lmResponse : Bytes
  flags : Nat
  encryptedSessionKey : Bytes
  mic : Option Bytes
  raw : Bytes
  deriving DecidableEq, Repr

def Credentials.isAnonymous (creds : Credentials) : Bool :=
  creds.user == [] && creds.ntResponse.length == 0

/-- The value that `av_pairs` keeps for a kind: the last one. -/
def avValue (kind : Nat) (nt : Bytes) : Nat → Nat → Option Bytes → Option Bytes
  | 0, _, found => found
  | fuel + 1, position, found =>
      if nt.length < position + 4 ∨ nt.field position 2 = MSV_AV_EOL then found
      else
        let value := nt.sub (position + 4) (nt.field (position + 2) 2)
        avValue kind nt fuel (position + 4 + nt.field (position + 2) 2)
          (if nt.field position 2 = kind then some value else found)

/-- The client says in its response that it computed a MIC. -/
def claimsMic (nt : Bytes) : Bool :=
  let flags := (avValue MSV_AV_FLAGS nt nt.length (16 + 28) none).getD []
  flags.length ≥ 4 && flags.field 0 4 &&& AV_FLAG_MIC_PRESENT != 0

/-- Where the payload of an AUTHENTICATE starts. -/
def payloadStart (token : Bytes) : Nat :=
  (((([12, 20, 28, 36, 44, 52].filter fun offset => token.field offset 2 != 0).map
    fun offset => token.field (offset + 4) 4).min?).getD token.length)

/-- The MIC of an AUTHENTICATE, when it claims one. -/
def micOf (token nt : Bytes) : Except Exn (Option Bytes) :=
  if claimsMic nt then
    if token.length < MIC_OFFSET + MIC_SIZE ∨ payloadStart token < MIC_OFFSET + MIC_SIZE then
      .error (.status STATUS_INVALID_PARAMETER)
    else .ok (some (token.sub MIC_OFFSET MIC_SIZE))
  else .ok none

/-- `parse_authenticate`. -/
def parseAuthenticate (token : Bytes) : Except Exn Credentials :=
  if token.length < 64 then .error (.status STATUS_INVALID_PARAMETER)
  else do
    let token := trim token
    let lm ← ntlmField token 12
    let nt ← ntlmField token 20
    let domain ← ntlmField token 28
    let user ← ntlmField token 36
    let workstation ← ntlmField token 44
    let encryptedKey ← ntlmField token 52
    let flags ← unpackFrom token 60 4
    let mic ← micOf token nt
    return { user := decodeUtf16 user, domain := decodeUtf16 domain, workstation := decodeUtf16 workstation,
             ntResponse := nt, lmResponse := lm, flags := flags, encryptedSessionKey := encryptedKey,
             mic := mic, raw := token }

/-! ## Proofs -/

section

variable (crypto : Crypto) (letters : Letters)

/-- `nt_hash`. -/
def ntHash (password : Str) : Option Bytes := (encodeUtf16 password).map crypto.md4

/-- `ntowfv2`. -/
def ntowfv2 (password user domain : Str) : Option Bytes :=
  match ntHash crypto password, encodeUtf16 (letters.upper user ++ domain) with
  | some key, some identity => some (crypto.hmacMd5 key identity)
  | _, _ => none

/-- `ntlmv2_proof`. -/
def ntlmv2Proof (ntowf challenge blob : Bytes) : Bytes := crypto.hmacMd5 ntowf (challenge ++ blob)

/-- `session_base_key`. -/
def sessionBaseKey (ntowf proof : Bytes) : Bytes := crypto.hmacMd5 ntowf proof

/-- `_NTLMV2_HEADER`. -/
def NTLMV2_HEADER : Bytes := [1, 1, 0, 0, 0, 0, 0, 0]

/-- `parse_ntlmv2_response`. -/
def parseNtlmv2Response (data : Bytes) : Except Exn (Bytes × Bytes) :=
  if data.length < 16 + 8 ∨ (data.drop 16).take 8 ≠ NTLMV2_HEADER then
    .error (.status STATUS_LOGON_FAILURE)
  else .ok (data.take 16, data.drop 16)

/-- `Authenticator`. The users are stored by their casefolded names. -/
structure Authenticator where
  users : List (Str × Str)
  isOpen : Bool
  deriving DecidableEq, Repr

/-- `Authenticator.verify`: the session base key, or none in open mode. -/
def Authenticator.verify (auth : Authenticator) (user : Str) (response challenge : Bytes)
    (domain : Str) : Except Exn (Option Bytes) :=
  if auth.isOpen then .ok none
  else do
    let (proof, blob) ← parseNtlmv2Response response
    match auth.users.lookup (letters.casefold user) with
    | none => .error (.status STATUS_LOGON_FAILURE)
    | some password =>
        match ntowfv2 crypto letters password user domain with
        | none => .error .other
        | some ntowf =>
            if ntlmv2Proof crypto ntowf challenge blob = proof then
              .ok (some (sessionBaseKey crypto ntowf proof))
            else .error (.status STATUS_LOGON_FAILURE)

/-- `exported_session_key`. -/
def exportedSessionKey (baseKey : Bytes) (creds : Credentials) : Bytes :=
  if creds.flags &&& NEGOTIATE_KEY_EXCH != 0 && creds.encryptedSessionKey.length == 16 then
    rc4 baseKey creds.encryptedSessionKey
  else baseKey

/-- The code over the three messages, the MIC field of the last being zero. -/
def micOver (exportedKey negotiate challenge raw : Bytes) : Bytes :=
  crypto.hmacMd5 exportedKey
    (negotiate ++ challenge ++
      (raw.take MIC_OFFSET ++ List.replicate MIC_SIZE 0 ++ raw.drop (MIC_OFFSET + MIC_SIZE)))

/-- `verify_mic`. -/
def verifyMic (exportedKey : Bytes) (negotiate challenge : Option Bytes) (creds : Credentials) :
    Bool :=
  match creds.mic with
  | none => true
  | some mic =>
      match negotiate with
      | none => false
      | some negotiate =>
          negotiate != [] &&
            micOver crypto exportedKey negotiate (challenge.getD []) creds.raw == mic

/-- The part of `h_session_setup` that decides what an AUTHENTICATE proves. -/
def proveNtlm (auth : Authenticator) (token challenge : Bytes)
    (negotiate ntlmChallenge : Option Bytes) : Proof :=
  match parseAuthenticate token with
  | .error e => .refused e.toStatus
  | .ok creds =>
      if creds.isAnonymous then
        if auth.isOpen then .unproved else .refused STATUS_LOGON_FAILURE
      else
        match auth.verify crypto letters creds.user creds.ntResponse challenge creds.domain with
        | .error e => .refused e.toStatus
        | .ok none => .unproved
        | .ok (some baseKey) =>
            let key := exportedSessionKey baseKey creds
            if verifyMic crypto key negotiate ntlmChallenge creds then .key key
            else .refused STATUS_LOGON_FAILURE

end

end Ps2Servers.Smb2
