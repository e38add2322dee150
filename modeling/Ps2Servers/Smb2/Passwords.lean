import Ps2Servers.Smb2.Logon
import Ps2Servers.Smb2.Replies
import Ps2Servers.Smb2.Sessions

/-!
# A server with passwords

The parameters of a connection filled in: the server's challenge, its check of the proof, its key
derivation and its codes. On such a connection a session has been proved with the password of a
configured user, every key that signs has 16 bytes, and a client that knows a password logs on with two
messages.

## Implementation notes

The shares and the handlers of files stay those of the connection's service.
-/

namespace Ps2Servers.Smb2

open Text Runs

/-- What the server is configured with, and the hash functions it runs on. -/
structure Configured where
  ceiling : Nat
  domain : Str
  serverName : Str
  auth : Authenticator
  letters : Letters
  hashes : Hashes

/-- "SMB2AESCMAC" and "SmbSign". -/
def SIGNING_LABEL : Bytes := [0x53, 0x4d, 0x42, 0x32, 0x41, 0x45, 0x53, 0x43, 0x4d, 0x41, 0x43]

def SIGNING_CONTEXT : Bytes := [0x53, 0x6d, 0x62, 0x53, 0x69, 0x67, 0x6e]

variable (cfg : Configured)

/-- The surroundings of its connections, where no share is named and no file command is known. -/
def Configured.env : Env ShareTree Unit where
  ceiling := cfg.ceiling
  hmacSha256 := cfg.hashes.hmacSha256
  aesCmac := cfg.hashes.crypto.aesCmac
  kdf key := kdf cfg.hashes.crypto key SIGNING_LABEL SIGNING_CONTEXT
  buildChallenge := buildChallenge cfg.domain cfg.serverName
  trim := trim
  prove := proveNtlm cfg.hashes.crypto cfg.letters cfg.auth
  shareNamed _ := none
  serve _ tables _ _ _ := (.of STATUS_NOT_SUPPORTED, tables)

theorem Configured.env_prove :
    cfg.env.prove = proveNtlm cfg.hashes.crypto cfg.letters cfg.auth := rfl

variable {H F : Type} (svc : Service H F)

/-- The codes have the lengths that the replies rely on. -/
theorem macs_env (w : Serving H F) : Macs (w.env svc cfg.env) where
  aesCmac := cfg.hashes.crypto.length_aesCmac
  hmacSha256 key message := by
    show 16 ≤ (cfg.hashes.hmacSha256 key message).length
    rw [cfg.hashes.length_hmacSha256]
    decide

/-- The handlers of files and pipes always answer. -/
theorem answers_env (base : Env ShareTree Unit) (w : Serving H F) : Answers (w.env svc base) := by
  intro command tables hdr body fileId
  show (replyOf command (execute svc _ command w.files)).status.isSome = true
  cases execute svc _ command w.files with
  | ok answer files => rfl
  | error e files => rfl

/-! ## The keys that sign -/

section

variable {τ η : Type} {env : Env τ η}

/-- Session keys and derived keys have 16 bytes. -/
structure Keyed (env : Env τ η) : Prop where
  kdf : ∀ key, (env.kdf key).length = 16
  prove : ∀ token challenge negotiate ntlmChallenge key,
    env.prove token challenge negotiate ntlmChallenge = .key key → key.length = 16

/-- The key of a connection, if it has one, has 16 bytes. -/
def Conn.KeySized (conn : Conn τ η) : Prop := ∀ key, conn.signingKey = some key → key.length = 16

theorem Keyed.signingKeyOf (henv : Keyed env) {key : Bytes} (hkey : key.length = 16) (dialect : Nat) :
    (signingKeyOf env key dialect).length = 16 := by
  unfold Smb2.signingKeyOf
  split
  · exact henv.kdf _
  · rw [List.length_take, hkey, Nat.min_self]

theorem Keyed.hSessionSetup (henv : Keyed env) {conn : Conn τ η} (hconn : conn.KeySized) (body random : Bytes) :
    (hSessionSetup env conn body random).1.KeySized := by
  unfold Smb2.hSessionSetup
  cases hresult : setupResult env conn body with
  | refused status => exact hconn
  | challenge token raw =>
      intro key hkey
      cases hkey
  | accepted sessionKey =>
      cases sessionKey with
      | none => exact hconn
      | some key =>
          have hsized : key.length = 16 := by
            unfold setupResult at hresult
            split at hresult
            · cases hresult
            · cases hresult
            · split at hresult
              · cases hresult
              · split at hresult
                · cases hresult
                · cases hresult
                · rename_i hproof
                  cases hresult
                  exact henv.prove _ _ _ _ _ hproof
          intro signing hsigning
          cases hsigning
          exact henv.signingKeyOf hsized _

/-- A step keeps the size of the key. -/
theorem Keyed.next (henv : Keyed env) {s : State τ η} (hs : s.conn.KeySized) (i : Input) :
    (Smb2.next env s i).conn.KeySized := by
  have hsame {conn : Conn τ η} (h : conn.signing = s.conn.signing) : conn.KeySized := by
    intro key hkey
    exact hs key ((congrArg Prod.fst h).symm.trans hkey)
  cases i with
  | message => exact hs
  | answered => exact hs
  | foreign msg =>
      simp only [Smb2.next]
      split
      · exact hs
      · exact hsame (s.foreign_signing env msg).1
  | request p random =>
      rcases s.request_cases env p random with ⟨-, hguarded, -⟩ | ⟨conn, reply, -, hhandle, hguarded, -⟩
      · intro key hkey
        exact hs key ((congrArg Prod.fst hguarded).symm.trans hkey)
      · have hconn : conn.KeySized := by
          have heq : conn = (handle env s.conn (inherit s.prev p.hdr) p.body random).1 := by rw [hhandle]
          by_cases hcommand : p.hdr.command = .sessionSetup
          · rw [heq]
            unfold handle
            rw [inherit_command, hcommand]
            exact henv.hSessionSetup hs p.body random
          · rw [heq]
            exact hsame (handle_signing env _ _ _ _ (by rw [inherit_command]; exact hcommand))
        intro key hkey
        exact hconn key ((congrArg Prod.fst hguarded).symm.trans hkey)

end

theorem length_exportedSessionKey {baseKey : Bytes} (hbase : baseKey.length = 16) (creds : Credentials) :
    (exportedSessionKey baseKey creds).length = 16 := by
  unfold exportedSessionKey
  split
  · rename_i hwrapped
    rw [length_rc4]
    exact beq_iff_eq.mp (Bool.and_eq_true_iff.mp hwrapped).2
  · exact hbase

theorem keyed_env (w : Serving H F) : Keyed (w.env svc cfg.env) where
  kdf key := length_kdf cfg.hashes.crypto key SIGNING_LABEL SIGNING_CONTEXT
  prove token challenge negotiate ntlmChallenge key h := by
    obtain ⟨-, creds, baseKey, -, ⟨_, ntowf, _, -, -, -, -, rfl⟩, rfl, -⟩ :=
      (proveNtlm_key_iff cfg.hashes.length_hmacMd5).mp h
    exact length_exportedSessionKey (cfg.hashes.length_hmacMd5 ntowf _) creds

/-- In every run, the key of the connection has 16 bytes, so that its signatures are what the dialect
says: AES-CMAC from 3.0 on, and the first half of HMAC-SHA256 before. -/
theorem signatures_defined {h : H} {w : Serving H F} (hw : (serving svc cfg.env h).Reached w) {key : Bytes}
    (hkey : w.state.conn.signingKey = some key) (message : Bytes) (dialect : Nat) :
    key.length = 16 ∧ sign (w.env svc cfg.env) key dialect message =
      if dialect ≥ 0x0300 then
        Cmac.mac (Aes.cipher key) (message.take 48 ++ List.replicate 16 0 ++ message.drop 64)
      else
        (cfg.hashes.hmacSha256 key
          (message.take 48 ++ List.replicate 16 0 ++ message.drop 64)).take 16 := by
  have hsized : w.state.conn.KeySized := by
    refine @System.ReachedWhen.invariant _ _ _ _ (fun w : Serving H F => w.state.conn.KeySized) ?_ ?_ w hw
    · rintro w rfl key hnone
      cases hnone
    · rintro w e _ hs - rfl
      cases e with
      | gone =>
          unfold Serving.next
          rw [Serving.settle_state]
          exact hs
      | input i =>
          unfold Serving.next
          rw [Serving.settle_state]
          exact (keyed_env cfg svc w).next hs i
  have hlength := hsized key hkey
  refine ⟨hlength, ?_⟩
  unfold sign
  dsimp only
  split
  · show (aesCmacPure key _).getD _ = _
    rw [aesCmacPure_mac hlength, Option.getD_some]
  · rfl

/-! ## Who is served -/

/-- After these events the event brings an AUTHENTICATE that proves the password of a configured user,
against what was issued for it last. -/
def ProvesPassword (h : H) (events : List Event) (e : Event) : Prop :=
  ∃ p random token challenge negotiate ntlmChallenge key,
    (after svc cfg.env h events).heard svc cfg.env e = some (p, random) ∧
    p.hdr.command = .sessionSetup ∧ setupOf p.body = .authenticate token ∧
    Proven cfg.hashes.crypto cfg.letters cfg.auth token challenge negotiate ntlmChallenge key ∧
    Since (Serving.next svc cfg.env) (Serving.Issues svc cfg.env (some challenge, negotiate, ntlmChallenge))
      (Serving.Rests svc cfg.env) (Serving.new h) events

/-- Where passwords are configured, a client that is served has proved one of them, and has not logged
off since. -/
theorem served_password (hclosed : cfg.auth.isOpen = false) (h : H) (events : List Event)
    (hauth : (after svc cfg.env h events).state.conn.authenticated = true) :
    ∃ before e rest, events = before ++ e :: rest ∧ ProvesPassword cfg svc h before e ∧
      Along (Serving.next svc cfg.env) (fun w e => ¬ w.LogsOff svc cfg.env e)
        ((after svc cfg.env h before).next svc cfg.env e) rest := by
  have hlogged : LoggedOn svc cfg.env h events := by
    induction events using List.reverseRecOn with
    | nil => cases hauth
    | append_singleton events e ih => exact LoggedOn.next svc cfg.env ih hauth
  obtain ⟨before, e, rest, hsplit, hproves, hstays⟩ := hlogged
  obtain ⟨p, random, token, challenge, negotiate, ntlmChallenge, hheard, hcommand, hsetup, haccepted, hissued⟩ :=
    hproves
  refine ⟨before, e, rest, hsplit, ?_, hstays⟩
  cases hproof : proveNtlm cfg.hashes.crypto cfg.letters cfg.auth token challenge negotiate ntlmChallenge with
  | refused status =>
      change (proveNtlm _ _ _ _ _ _ _).accepted = true at haccepted
      rw [hproof] at haccepted
      cases haccepted
  | unproved => cases hclosed.symm.trans (proveNtlm_unproved_iff.mp hproof).1
  | key key =>
      have hproven := (proveNtlm_key_iff cfg.hashes.length_hmacMd5).mp hproof
      exact ⟨p, random, token, challenge, negotiate, ntlmChallenge, key, hheard, hcommand, hsetup,
        hproven.2, hissued⟩

/-! ## Logging on with two messages -/

theorem setupResult_key {τ η : Type} {env : Env τ η} {conn : Conn τ η} {body token challenge key : Bytes}
    (hsetup : setupOf body = .authenticate token) (hchallenge : conn.challenge = some challenge)
    (hproof : env.prove token challenge conn.ntlmNegotiate conn.ntlmChallenge = .key key) :
    setupResult env conn body = .accepted (some key) := by
  rw [setupResult, hsetup]
  dsimp only
  rw [hchallenge]
  dsimp only
  rw [hproof]

/-- What a client logs on with: its password, and what it puts into its messages. -/
structure Login where
  user : Str
  domain : Str
  password : Str
  negotiate : Bytes
  answer : Authenticate
  /-- Its own part of the response: the header, and whatever it adds. -/
  blob : Bytes
  sessionKey : Bytes

/-- What the client sends is of the sizes and forms that NTLM asks for. -/
structure Login.Fits (c : Login) : Prop where
  user : encodeUtf16 c.user = some c.answer.user
  domain : encodeUtf16 c.domain = some c.answer.domain
  negotiate : WellFormed .negotiate c.negotiate
  blob : NTLMV2_HEADER <+: c.blob ∧ 16 + c.blob.length < 2 ^ 16
  others : ∀ value ∈ [c.answer.lm, c.answer.domain, c.answer.user, c.answer.workstation],
    value.length < 2 ^ 16
  sessionKey : c.sessionKey.length = 16
  flags : c.answer.flags < 2 ^ 32 ∧ c.answer.flags &&& NEGOTIATE_KEY_EXCH ≠ 0

/-- The second message, from the CHALLENGE that the client was sent. -/
def Login.authenticate (c : Login) (crypto : Crypto) (ntowf ntlmChallenge : Bytes) : Bytes :=
  (c.answer.answering crypto ntowf (ntlmChallenge.sub 24 8) c.blob c.sessionKey).withMic crypto c.sessionKey
    c.negotiate ntlmChallenge

/-- Whatever state a connection is in, a client that knows the password of a configured user logs on with a
NEGOTIATE and the answer to the CHALLENGE that it gets, in whatever buffers they stand, and both sides then
have the session key that the client chose. -/
theorem logs_on (hclosed : cfg.auth.isOpen = false) {target host : Bytes}
    (htarget : encodeUtf16 cfg.domain = some target) (hhost : encodeUtf16 cfg.serverName = some host)
    (hnames : target.length < 2 ^ 16 ∧ ∀ compact, (avList (namePairs target host compact)).length < 2 ^ 16)
    {c : Login} (hc : c.Fits)
    (hpassword : cfg.auth.users.lookup (cfg.letters.casefold c.user) = some c.password) {ntowf : Bytes}
    (hntowf : ntowfv2 cfg.hashes.crypto cfg.letters c.password c.user c.domain = some ntowf)
    (conn : Conn ShareTree Unit) {random : Bytes} (hrandom : 8 ≤ random.length) {front tail body : Bytes}
    (hfront : ¬ NTLMSSP_SIGNATURE <:+: front) (hbody : Carries body (front ++ c.negotiate ++ tail)) :
    ∃ ntlmChallenge, (hSessionSetup cfg.env conn body random).1.ntlmChallenge = some ntlmChallenge ∧
      ∀ front' tail' body', ¬ NTLMSSP_SIGNATURE <:+: front' →
        Carries body' (front' ++ c.authenticate cfg.hashes.crypto ntowf ntlmChallenge ++ tail') →
        setupResult cfg.env (hSessionSetup cfg.env conn body random).1 body' =
          .accepted (some c.sessionKey) := by
  have hsetup := setupOf_eq hc.negotiate hfront hbody
  generalize NTLMSSP_SIGNATURE.isPrefixOf (front ++ c.negotiate ++ tail) = raw at hsetup
  generalize hflags : (if (c.negotiate ++ tail).length < 16 then 0
    else (c.negotiate ++ tail).field 12 4) = flags
  have hresult : setupResult cfg.env conn body = .challenge (c.negotiate ++ tail) raw := by
    rw [setupResult, hsetup]
    rfl
  have hdrawn : (random.take 8).length = 8 := List.length_take_of_le hrandom
  have hread := (challenged_buildChallenge htarget hhost hdrawn raw flags
    ⟨hnames.1, hnames.2 raw⟩).challenge
  generalize hmessage : buildChallenge cfg.domain cfg.serverName (random.take 8) raw flags = message at hread
  have hexchange : (hSessionSetup cfg.env conn body random).1.exchange =
      (some (random.take 8), some c.negotiate, some message) := by
    rw [hSessionSetup, hresult, ← hmessage, ← hflags]
    exact congrArg (fun m => (some (random.take 8), some m, some _)) (hc.negotiate.trim_append tail)
  generalize (hSessionSetup cfg.env conn body random).1 = conn' at hexchange ⊢
  have hchallenge : conn'.challenge = some (random.take 8) := congrArg (fun x => x.1) hexchange
  have hnegotiate : conn'.ntlmNegotiate = some c.negotiate := congrArg (fun x => x.2.1) hexchange
  have hsent : conn'.ntlmChallenge = some message := congrArg (fun x => x.2.2) hexchange
  refine ⟨message, hsent, fun front' tail' body' hfront' hbody' => ?_⟩
  have hproof (key text : Bytes) := cfg.hashes.length_hmacMd5 key text
  have hfields : ∀ value ∈ (c.answer.answering cfg.hashes.crypto ntowf (message.sub 24 8) c.blob
      c.sessionKey).fields, value.length < 2 ^ 16 := by
    have hnt : (ntlmv2Proof cfg.hashes.crypto ntowf (message.sub 24 8) c.blob ++ c.blob).length < 2 ^ 16 := by
      rw [List.length_append]
      exact Nat.lt_of_le_of_lt (Nat.le_of_eq (congrArg (· + _) (hproof _ _))) hc.blob.2
    have hkey : (rc4 (sessionBaseKey cfg.hashes.crypto ntowf
        (ntlmv2Proof cfg.hashes.crypto ntowf (message.sub 24 8) c.blob)) c.sessionKey).length < 2 ^ 16 := by
      rw [length_rc4, hc.sessionKey]
      decide
    obtain ⟨hlm, hdomain, huser, hworkstation, -⟩ := List.forall_mem_cons.mp hc.others |>.imp_right
      fun h => List.forall_mem_cons.mp h |>.imp_right
        fun h => List.forall_mem_cons.mp h |>.imp_right List.forall_mem_cons.mp
    intro value hvalue
    simp only [Authenticate.fields, Authenticate.answering, List.mem_cons, List.not_mem_nil, or_false] at hvalue
    rcases hvalue with rfl | rfl | rfl | rfl | rfl | rfl
    · exact hlm
    · exact hnt
    · exact hdomain
    · exact huser
    · exact hworkstation
    · exact hkey
  have hwrapped := (length_rc4 (sessionBaseKey cfg.hashes.crypto ntowf
    (ntlmv2Proof cfg.hashes.crypto ntowf (message.sub 24 8) c.blob)) c.sessionKey).trans hc.sessionKey
  have hanswer : setupOf body' =
      .authenticate (c.authenticate cfg.hashes.crypto ntowf message ++ tail') :=
    setupOf_eq (Authenticate.wellFormed ⟨hfields, hwrapped, hc.flags.1⟩ (hproof _ _)) hfront' hbody'
  have hne : c.negotiate ≠ [] := by
    intro hempty
    have hsignature := hc.negotiate.signature
    rw [hempty] at hsignature
    exact absurd (List.prefix_nil.mp hsignature) (by decide)
  have hkey : proveNtlm cfg.hashes.crypto cfg.letters cfg.auth
      (c.authenticate cfg.hashes.crypto ntowf message ++ tail') (message.sub 24 8) (some c.negotiate)
      (some message) = .key c.sessionKey :=
    proveNtlm_answer hproof hclosed hc.user hc.domain hpassword hntowf hc.blob.1 hc.sessionKey
    hfields hc.flags.1 hc.flags.2 hne message tail'
  refine setupResult_key hanswer hchallenge ?_
  rw [hnegotiate, hsent, ← hread, cfg.env_prove]
  exact hkey

end Ps2Servers.Smb2
