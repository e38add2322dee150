import Ps2Servers.Smb2.Connection

/-!
# Signing cannot be stripped from a session

While a session with signing required is established, only requests signed with
its key reach the handlers of the commands that need a session, and a message
without such a signature leaves the signing state, the negotiated state and the
tables alone. This holds in every run in which no SESSION_SETUP that starts a
new NTLM exchange, no unsigned NEGOTIATE and no SMB1 frame that picks a dialect
is let through in the meantime: these write the fields the check reads.
-/

namespace Ps2Servers.Smb2

open Runs

variable {τ η : Type} (env : Env τ η)

/-- The request carries a signature that is valid under `key`. -/
def Authentic (key : Bytes) (conn : Conn τ η) (p : Piece) : Prop :=
  p.hdr.signed = true ∧ ∃ dialect, conn.dialect = some dialect ∧ verify env key dialect p.raw = true

def Input.Authentic (key : Bytes) (conn : Conn τ η) : Input → Prop
  | .request p _ => Smb2.Authentic env key conn p
  | _ => False

/-- The fields of a connection that only a signed request may change. -/
def Conn.guarded (conn : Conn τ η) :
    Option Bytes × Bool × Option Nat × Option Claims × Tables τ η :=
  (conn.signingKey, conn.signingRequired, conn.dialect, conn.negotiateClaims, conn.tables)

/-- Input `i` strips nothing from the session established in `s`. -/
structure Unstripped (s : State τ η) (i : Input) : Prop where
  handled : ∀ key p random, s.session = some key → i = .request p random →
    s.admits env p = true → unsignedOk p.hdr.command = false → Authentic env key s.conn p
  unchanged : ∀ key, s.session = some key → ¬ i.Authentic env key s.conn →
    (next env s i).conn.guarded = s.conn.guarded

/-- Input `i` is none of those that rewrite the signing state of an established session:
a SESSION_SETUP with an NTLM NEGOTIATE, an unsigned NEGOTIATE, or an SMB1 frame that
picks a dialect. -/
def Spares (s : State τ η) : Input → Prop
  | .request p _ => s.session ≠ none → s.admits env p = true →
      (p.hdr.command = .sessionSetup → (setupOf p.body).isNegotiate = false) ∧
        (p.hdr.command = .negotiate → p.hdr.signed = true ∨ p.body.length < 36)
  | .foreign msg => s.session ≠ none → s.closed = false → foreignDialect env msg = none
  | _ => True

instance (s : State τ η) (i : Input) : Decidable (Spares env s i) :=
  match i with
  | .request _ _ => inferInstanceAs (Decidable (_ → _ → _ ∧ _))
  | .foreign _ => inferInstanceAs (Decidable (_ → _ → _))
  | .message => inferInstanceAs (Decidable True)
  | .answered => inferInstanceAs (Decidable True)

/-! ## What the parts of a step keep -/

@[simp] theorem inherit_command (prev : Option (Header × Option Status)) (hdr : Header) :
    (inherit prev hdr).command = hdr.command := by
  unfold inherit
  split
  · split <;> rfl
  · rfl

@[simp] theorem inherit_signed (prev : Option (Header × Option Status)) (hdr : Header) :
    (inherit prev hdr).signed = hdr.signed := by
  unfold inherit
  split
  · split <;> rfl
  · rfl

theorem State.finish_conn (s : State τ η) (hdr : Header) (conn : Conn τ η) (reply : Reply)
    (session : Option Bytes) :
    (s.finish hdr conn reply session).conn.guarded = conn.guarded ∧
      (s.finish hdr conn reply session).conn.challenge = conn.challenge ∧
      (s.finish hdr conn reply session).session = session := by
  unfold State.finish grantCredits
  dsimp only
  split <;> split <;> exact ⟨rfl, rfl, rfl⟩

/-- A request that is not admitted only costs credits; an admitted one does what its handler
does. -/
theorem State.request_cases (s : State τ η) (p : Piece) (random : Bytes) :
    (s.admits env p = false ∧ (s.request env p random).conn.guarded = s.conn.guarded ∧
        (s.request env p random).conn.challenge = s.conn.challenge ∧
        (s.request env p random).session = s.session) ∨
      ∃ conn reply, s.admits env p = true ∧
        handle env s.conn (inherit s.prev p.hdr) p.body random = (conn, reply) ∧
        (s.request env p random).conn.guarded = conn.guarded ∧
        (s.request env p random).conn.challenge = conn.challenge ∧
        (s.request env p random).session = sessionAfter env s p := by
  unfold State.request State.admits
  by_cases hc : s.closed = true
  · simp [hc]
  · have hcf : s.closed = false := by simpa using hc
    simp only [hcf, Bool.false_eq_true, if_false, Bool.not_false, Bool.true_and]
    cases hcheck : signatureCheck env s.conn (inherit s.prev p.hdr) p.raw with
    | crash => exact Or.inl ⟨by simp, rfl, rfl, rfl⟩
    | refuse status =>
        left
        refine ⟨by simp, ?_⟩
        cases inheritedFailure s.prev p.hdr with
        | none => exact State.finish_conn ..
        | some status' => exact State.finish_conn ..
    | pass =>
        cases inheritedFailure s.prev p.hdr with
        | some status => exact Or.inl ⟨by simp, State.finish_conn ..⟩
        | none =>
            right
            refine ⟨_, _, by simp, rfl, ?_⟩
            exact State.finish_conn ..

/-- The signing state of a connection. -/
def Conn.signing (conn : Conn τ η) : Option Bytes × Bool × Option Bytes :=
  (conn.signingKey, conn.signingRequired, conn.challenge)

theorem validateNegotiateInfo_signing (conn : Conn τ η) (data : Bytes) :
    (validateNegotiateInfo conn data).1.signing = conn.signing := by
  unfold validateNegotiateInfo
  split
  · rfl
  · dsimp only
    split <;> split <;> rfl

/-- Only SESSION_SETUP writes the signing state. -/
theorem handle_signing (conn : Conn τ η) (hdr : Header) (body random : Bytes)
    (h : hdr.command ≠ .sessionSetup) :
    (handle env conn hdr body random).1.signing = conn.signing := by
  unfold handle
  cases hc : hdr.command with
  | sessionSetup => exact absurd hc h
  | negotiate =>
      dsimp only
      unfold hNegotiate
      split
      · rfl
      · dsimp only
        split <;> rfl
  | treeConnect =>
      dsimp only
      unfold hTreeConnect
      repeat' split
      all_goals rfl
  | ioctl =>
      dsimp only
      unfold hIoctl
      repeat' split
      all_goals first | exact validateNegotiateInfo_signing conn _ | rfl
  | _ => rfl

/-- The invariant: the key and the flag of the established session are in force, and no
NTLM exchange is open. -/
def Armed (s : State τ η) : Prop :=
  ∀ key, s.session = some key → s.conn.signing = (some key, true, none)

/-- Without a new NTLM exchange a SESSION_SETUP on an armed connection changes nothing. -/
theorem hSessionSetup_of_armed {conn : Conn τ η} {body random : Bytes}
    (hchallenge : conn.challenge = none)
    (hsetup : (setupOf body).isNegotiate = false) :
    (∃ status, setupResult env conn body = .refused status) ∧
      (hSessionSetup env conn body random).1 = conn := by
  have hr : ∃ status, setupResult env conn body = .refused status := by
    unfold setupResult
    cases hs : setupOf body with
    | refused status => exact ⟨status, rfl⟩
    | negotiate token raw => simp [hs, Setup.isNegotiate] at hsetup
    | authenticate token => exact ⟨STATUS_LOGON_FAILURE, by simp [hchallenge]⟩
  obtain ⟨status, hr⟩ := hr
  refine ⟨⟨status, hr⟩, ?_⟩
  simp only [hSessionSetup, hr]

/-- A SESSION_SETUP on an armed connection leaves it armed, for the old session or a new one. -/
theorem Armed.sessionSetup {s : State τ η} (harmed : Armed s) {p : Piece} {key : Bytes}
    (random : Bytes) (hcmd : p.hdr.command = .sessionSetup)
    (hsetup : s.session ≠ none → (setupOf p.body).isNegotiate = false)
    (hkey : sessionAfter env s p = some key) :
    (hSessionSetup env s.conn p.body random).1.signing = (some key, true, none) := by
  have hkept : s.session = some key →
      (hSessionSetup env s.conn p.body random).1.signing = (some key, true, none) := by
    intro hs
    have hsig := harmed key hs
    have hchallenge : s.conn.challenge = none := congrArg (fun x => x.2.2) hsig
    rw [(hSessionSetup_of_armed env hchallenge (hsetup (by simp [hs]))).2]
    exact hsig
  simp only [sessionAfter, hcmd] at hkey
  cases hres : setupResult env s.conn p.body with
  | refused status =>
      rw [hres] at hkey
      exact hkept hkey
  | challenge token raw =>
      rw [hres] at hkey
      exact hkept hkey
  | accepted sessionKey =>
      rw [hres] at hkey
      cases sessionKey with
      | none => simp at hkey
      | some k =>
          by_cases hreq : signingRequested p.body = true
          · simp only [hreq, if_true, Option.some.injEq] at hkey
            simp only [hSessionSetup, hres, Conn.signing, hreq, hkey]
          · simp [hreq] at hkey

/-! ## Steps and runs -/

theorem Armed.request {s : State τ η} (harmed : Armed s) {p : Piece} {random : Bytes}
    (hok : Spares env s (.request p random)) : Armed (s.request env p random) := by
  rcases s.request_cases env p random with
    ⟨-, hg, hc, hs⟩ | ⟨conn, reply, hadm, hh, hg, hc, hs⟩
  · intro key hkey
    rw [hs] at hkey
    have hsig := harmed key hkey
    simp only [Conn.guarded, Conn.signing, Prod.mk.injEq] at hg hsig ⊢
    exact ⟨hg.1.trans hsig.1, hg.2.1.trans hsig.2.1, hc.trans hsig.2.2⟩
  · intro key hkey
    have hout : (s.request env p random).conn.signing = conn.signing := by
      simp only [Conn.guarded, Conn.signing, Prod.mk.injEq] at hg ⊢
      exact ⟨hg.1, hg.2.1, hc⟩
    have hconn : conn = (handle env s.conn (inherit s.prev p.hdr) p.body random).1 := by rw [hh]
    rw [hout, hconn]
    rw [hs] at hkey
    by_cases hcmd : p.hdr.command = .sessionSetup
    · have hsetup := harmed.sessionSetup env random hcmd
        (fun hne => (hok hne hadm).1 hcmd) hkey
      simpa only [handle, inherit_command, hcmd] using hsetup
    · have hsession : s.session = some key := by
        unfold sessionAfter at hkey
        split at hkey
        · simp at hkey
        · exact absurd ‹_› hcmd
        · exact hkey
      rw [handle_signing env _ _ _ _ (by simpa using hcmd)]
      exact harmed key hsession

/-- A message of another protocol takes a credit and may set the dialect, and that is all. -/
theorem State.foreign_eq (s : State τ η) (msg : Bytes) : ∃ credits, s.foreign env msg =
    { s with conn := { s.conn with
      credits := credits, dialect := (foreignDialect env msg).or s.conn.dialect } } := by
  unfold State.foreign
  cases foreignDialect env msg with
  | none =>
      dsimp only
      repeat' split
      all_goals exact ⟨_, rfl⟩
  | some dialect =>
      dsimp only
      repeat' split
      all_goals exact ⟨_, rfl⟩

theorem State.foreign_of_none {s : State τ η} {msg : Bytes}
    (h : foreignDialect env msg = none) :
    (s.foreign env msg).conn.guarded = s.conn.guarded := by
  obtain ⟨credits, heq⟩ := s.foreign_eq env msg
  rw [heq, h]
  rfl

theorem State.foreign_signing (s : State τ η) (msg : Bytes) :
    (s.foreign env msg).conn.signing = s.conn.signing ∧
      (s.foreign env msg).session = s.session := by
  obtain ⟨credits, heq⟩ := s.foreign_eq env msg
  rw [heq]
  exact ⟨rfl, rfl⟩

/-- One input keeps the session armed. -/
theorem Armed.next {s : State τ η} (harmed : Armed s) {i : Input} (hok : Spares env s i) :
    Armed (next env s i) := by
  cases i with
  | message => exact harmed
  | answered => exact harmed
  | request p random => exact harmed.request env hok
  | foreign msg =>
      simp only [Smb2.next]
      split
      · exact harmed
      · obtain ⟨hsig, hs⟩ := s.foreign_signing env msg
        intro key hkey
        rw [hsig]
        exact harmed key (hs ▸ hkey)

/-- The check lets an unsigned request through only for the exempt commands. -/
theorem authentic_of_admits {s : State τ η} {p : Piece} {key : Bytes}
    (hsig : s.conn.signing = (some key, true, Option.none)) (hadm : s.admits env p = true) :
    Authentic env key s.conn p ∨ (p.hdr.signed = false ∧ unsignedOk p.hdr.command = true) := by
  simp only [Conn.signing, Prod.mk.injEq] at hsig
  simp only [State.admits, Bool.and_eq_true, beq_iff_eq] at hadm
  have hpass := hadm.2
  unfold signatureCheck at hpass
  simp only [hsig.1, hsig.2.1, inherit_signed, inherit_command] at hpass
  by_cases hs : p.hdr.signed = true
  · left
    simp only [hs, if_true] at hpass
    split at hpass
    · simp at hpass
    · split at hpass
      · simp at hpass
      · rename_i dialect hd
        split at hpass
        · exact ⟨hs, dialect, hd, ‹_›⟩
        · simp at hpass
  · right
    simp only [hs, Bool.true_and] at hpass
    refine ⟨by simpa using hs, ?_⟩
    by_contra hok
    simp [hok] at hpass

/-- One input strips nothing from an armed session. -/
theorem Armed.unstripped {s : State τ η} (harmed : Armed s) {i : Input}
    (hok : Spares env s i) : Unstripped env s i := by
  refine ⟨?_, ?_⟩
  · rintro key p random hs rfl hadm hcmd
    rcases authentic_of_admits env (harmed key hs) hadm with h | ⟨-, h⟩
    · exact h
    · simp [hcmd] at h
  · intro key hs hna
    have hne : s.session ≠ none := by simp [hs]
    cases i with
    | message => rfl
    | answered => rfl
    | foreign msg =>
        simp only [Smb2.next]
        by_cases hc : s.closed = true
        · simp [hc]
        · simp only [hc]
          exact State.foreign_of_none env (hok hne (by simpa using hc))
    | request p random =>
        rcases s.request_cases env p random with
          ⟨-, hg, -⟩ | ⟨conn, reply, hadm, hh, hg, -, -⟩
        · exact hg
        · refine hg.trans ?_
          obtain ⟨hsetup, hneg⟩ := hok hne hadm
          rcases authentic_of_admits env (harmed key hs) hadm with h | ⟨hun, hcmd⟩
          · exact absurd h hna
          · have hconn : conn = (handle env s.conn (inherit s.prev p.hdr) p.body random).1 := by
              rw [hh]
            have hsame : conn = s.conn := by
              rw [hconn]
              simp only [unsignedOk, Bool.or_eq_true, beq_iff_eq] at hcmd
              rcases hcmd with (hc | hc) | hc
              · have hlen := (hneg hc).resolve_left (by simp [hun])
                simp [handle, hc, hNegotiate, hlen]
              · have hchallenge : s.conn.challenge = none :=
                  congrArg (fun x => x.2.2) (harmed key hs)
                simpa only [handle, inherit_command, hc]
                  using (hSessionSetup_of_armed env hchallenge (hsetup hc)).2
              · simp [handle, hc]
            rw [hsame]

theorem armed_of_reached {s : State τ η} (h : (connection env).ReachedWhen (Spares env) s) :
    Armed s := by
  refine h.invariant ?_ ?_
  · rintro s rfl key hkey
    simp [State.new] at hkey
  · rintro s i t harmed hok rfl
    exact harmed.next env hok

/-! ## A session that loses its key -/

/-- A server with one account and no shares. -/
def oneAccount : Env Unit Unit where
  ceiling := DIALECT_302
  hmacSha256 key message := [UInt8.ofNat (key ++ message).le]
  aesCmac key message := [UInt8.ofNat (message ++ key).le]
  kdf key := key
  buildChallenge challenge _ _ := NTLMSSP_SIGNATURE ++ challenge
  trim token := token
  prove _ _ _ _ := .key (List.replicate 16 7)
  shareNamed _ := none
  serve _ tables _ _ _ := (.of STATUS_NOT_SUPPORTED, tables)

/-- An unsigned message with one request. -/
def unsignedMessage (command : Nat) (body : Bytes) : Bytes :=
  SMB2_MAGIC ++ Bytes.ofNat 8 0x40 ++ Bytes.ofNat 2 command ++ Bytes.ofNat 50 0 ++ body

def negotiateMessage : Bytes :=
  unsignedMessage 0 (Bytes.ofNat 2 36 ++ Bytes.ofNat 2 1 ++ Bytes.ofNat 32 0 ++
    Bytes.ofNat 2 DIALECT_302)

/-- A SESSION_SETUP with the security mode `mode` and a bare NTLM message of type `kind`. -/
def setupMessage (mode kind : Nat) : Bytes :=
  unsignedMessage 1 (Bytes.ofNat 3 25 ++ Bytes.ofNat 1 mode ++ Bytes.ofNat 8 0 ++
    Bytes.ofNat 2 88 ++ Bytes.ofNat 2 12 ++ Bytes.ofNat 8 0 ++ NTLMSSP_SIGNATURE ++
    Bytes.ofNat 4 kind)

/-- A client that requires signing logs on. -/
def logOn : List Input :=
  [negotiateMessage, setupMessage 2 1, setupMessage 2 3].flatMap fun msg =>
    inputs msg fun _ => Bytes.ofNat 16 5

def loggedOn : State Unit Unit := logOn.foldl (next oneAccount) State.new

theorem reachedWhen_loggedOn :
    (connection oneAccount).ReachedWhen (Spares oneAccount) loggedOn :=
  System.ReachedWhen.along (.init rfl) (by decide +kernel)

/-- Between the SESSION_SETUP of a session with signing required and the next successful one
or a LOGOFF, in every run whose inputs rewrite no signing state, nothing is stripped. -/
theorem unstripped_of_spares {s : State τ η} (h : (connection env).ReachedWhen (Spares env) s)
    {i : Input} (hok : Spares env s i) : Unstripped env s i :=
  (armed_of_reached env h).unstripped env hok

/-- The READ of a stranger on the connection of a client that requires signing. -/
theorem unstripped_read :
    loggedOn.session ≠ none ∧
      Unstripped oneAccount loggedOn (.request ⟨⟨0, .read, 1, 0, 0, 9, 1, 1⟩, [], []⟩ []) :=
  ⟨by decide +kernel,
    unstripped_of_spares oneAccount reachedWhen_loggedOn (by decide +kernel)⟩

/-- The one request of `setupMessage 2 1`. -/
def setupPiece : Piece :=
  ⟨⟨0, .sessionSetup, 0, 0, 0, 0, 0, 0⟩, setupMessage 2 1, (setupMessage 2 1).drop 64⟩

example : pieces (setupMessage 2 1).length (setupMessage 2 1) = [setupPiece] := by
  decide +kernel

/-- An unsigned SESSION_SETUP with an NTLM NEGOTIATE takes the key of the session away. -/
theorem not_unstripped_setup :
    ¬ ∀ (s : State Unit Unit) (i : Input), (connection oneAccount).Reached s →
      Unstripped oneAccount s i := by
  intro hall
  have hr : (connection oneAccount).Reached loggedOn :=
    reachedWhen_loggedOn.mono fun _ _ _ => trivial
  have hunsigned : setupPiece.hdr.signed = false := by decide
  have hsame := (hall loggedOn (.request setupPiece []) hr).unchanged (List.replicate 16 7)
    (by decide +kernel) (fun hauth => by simp [hauth.1] at hunsigned)
  revert hsame
  decide +kernel

end Ps2Servers.Smb2
