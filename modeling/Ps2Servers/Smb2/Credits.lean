import Ps2Servers.Smb2.Signing

/-!
# Credits

Every request but a NEGOTIATE costs its client credits and every reply grants some. The server keeps
the balance; the client can only go by the replies it gets. The account of a connection records what
the replies that were sent have granted and what the requests have cost.

## Implementation notes

The replies of a message wait until all its requests are handled. They are lost when the rest of the
message has no header. Sending them may fail, and so may signing one when no dialect was negotiated;
either ends the connection.
-/

namespace Ps2Servers.Smb2

open Runs

variable {τ η : Type} (env : Env τ η)

/-! ## What a request costs and its reply grants -/

/-- What a request costs. -/
def chargeOf (hdr : Header) : Nat := if hdr.command = .negotiate then 0 else max 1 hdr.creditCharge

/-- What is left of a balance when a request has been charged. -/
def heldAfter (credits : Nat) (hdr : Header) : Nat := credits - chargeOf hdr

/-- What the reply to a request grants. -/
def grantOf (credits : Nat) (hdr : Header) : Nat :=
  max 1 (min (max 1 hdr.credits) (CREDIT_LIMIT - heldAfter credits hdr))

theorem one_le_grantOf (credits : Nat) (hdr : Header) : 1 ≤ grantOf credits hdr := Nat.le_max_left ..

theorem grantCredits_credits (conn : Conn τ η) (hdr : Header) :
    (grantCredits conn hdr).credits = heldAfter conn.credits hdr + grantOf conn.credits hdr := by
  unfold grantCredits grantOf heldAfter chargeOf
  by_cases h : hdr.command = .negotiate
  · simp [h]
  · simp [h]

/-- A client that can pay is left with what it paid less, and no more than the limit. -/
theorem balance_step {credits : Nat} {hdr : Header} (hpays : chargeOf hdr ≤ credits)
    (hroom : heldAfter credits hdr < CREDIT_LIMIT) :
    heldAfter credits hdr + grantOf credits hdr + chargeOf hdr = credits + grantOf credits hdr ∧
      heldAfter credits hdr + grantOf credits hdr ≤ CREDIT_LIMIT := by
  unfold grantOf heldAfter at *
  omega

/-! ## The account of a connection -/

/-- A reply that waits for the end of its message. -/
structure Waiting where
  hdr : Header
  status : Status
  grant : Nat
  deriving DecidableEq, Repr

/-- A connection and the account of its client. -/
structure Account (τ η : Type) where
  state : State τ η
  waiting : List Waiting
  /-- What each reply that was sent has granted. -/
  sent : List Nat
  charged : Nat
  deriving DecidableEq, Repr

def Account.new : Account τ η := ⟨State.new, [], [], 0⟩

inductive Turn
  /-- A message starts. -/
  | message
  /-- One request of it. -/
  | request (p : Piece) (random : Bytes)
  /-- A message that is not SMB2; whether its answer, if any, can be sent. -/
  | foreign (msg : Bytes) (sends : Bool)
  /-- The rest of a message has no header. -/
  | cut
  /-- The message is done; whether its replies can be sent. -/
  | answered (sends : Bool)
  deriving DecidableEq, Repr

/-- The message gets the answer of `_not_smb2`. -/
def foreignAnswered (msg : Bytes) : Bool :=
  match smb1NegotiateDialects msg with
  | none => false
  | some dialects => dialects.contains SMB_2_WILDCARD || (foreignDialect env msg).isSome

/-- `_should_sign`. -/
def shouldSign (conn : Conn τ η) (reply : Waiting) : Bool :=
  conn.signingKey.isSome && reply.status != STATUS_MORE_PROCESSING_REQUIRED &&
    (conn.signingRequired || reply.hdr.signed)

/-- A reply is to be signed and no dialect says how. -/
def unsignable (a : Account τ η) : Bool :=
  a.state.conn.dialect.isNone && a.waiting.any (shouldSign a.state.conn)

/-- The reply to the request that left this state, if there is one. -/
def replyTo (before after : State τ η) (hdr : Header) : List Waiting :=
  match after.prev with
  | some (hdr', some status) => [⟨hdr', status, grantOf before.conn.credits hdr⟩]
  | _ => []

/-- One pass of the loop of `_dispatch_all`. -/
def Account.request (a : Account τ η) (p : Piece) (random : Bytes) : Account τ η :=
  let state := a.state.request env p random
  if state.closed then { a with state := state }
  else
    { a with
      state := state
      waiting := a.waiting ++ replyTo a.state state p.hdr
      charged := a.charged + chargeOf p.hdr }

/-- `_not_smb2`. -/
def Account.foreign (a : Account τ η) (msg : Bytes) (sends : Bool) : Account τ η :=
  if a.state.closed then a
  else
    let state := a.state.foreign env msg
    if !foreignAnswered env msg then { a with state := state }
    else if sends then { a with state := state, sent := a.sent ++ [1] }
    else { a with state := { state with closed := true } }

/-- The end of `_dispatch_all`. -/
def Account.answered (a : Account τ η) (sends : Bool) : Account τ η :=
  if a.state.closed || !sends || unsignable a then
    { a with state := { a.state with closed := true }, waiting := [] }
  else
    { a with
      state := Smb2.next env a.state .answered
      waiting := []
      sent := a.sent ++ a.waiting.map Waiting.grant }

def Account.next (a : Account τ η) : Turn → Account τ η
  | .message => { a with state := Smb2.next env a.state .message }
  | .request p random => a.request env p random
  | .foreign msg sends => a.foreign env msg sends
  | .cut =>
      { a with
        state := { a.state with closed := a.state.closed || a.state.conn.terminate }
        waiting := [] }
  | .answered sends => a.answered env sends

/-- All runs of a connection with its account. -/
def accounts : System (Account τ η) Turn := .ofNext Account.new (Account.next env)

/-- The requests of a message reach its end. -/
def complete (fuel : Nat) (msg : Bytes) : Bool :=
  match fuel, msg, parseHeader msg with
  | fuel + 1, _ :: _, some hdr =>
      hdr.nextCommand == 0 || complete fuel (msg.drop hdr.nextCommand)
  | _, [], _ => true
  | _, _, _ => false

/-- What one message is to the account. -/
def turns (msg : Bytes) (random : Nat → Bytes) (sends : Bool) : List Turn :=
  match pieces msg.length msg with
  | [] => [.message, .foreign msg sends, .answered true]
  | ps =>
      .message :: ps.mapIdx (fun i p => .request p (random i)) ++
        [if complete msg.length msg then .answered sends else .cut]

/-- Every sequence of messages is a run. -/
theorem reached_turns {a : Account τ η} (h : (accounts env).Reached a) (msg : Bytes)
    (random : Nat → Bytes) (sends : Bool) :
    (accounts env).Reached ((turns msg random sends).foldl (Account.next env) a) :=
  System.ReachedWhen.along h (.of_forall (fun _ _ => trivial) a _)

/-! ## What a request leaves of the balance -/

theorem validateNegotiateInfo_settles (conn : Conn τ η) (data : Bytes) :
    (validateNegotiateInfo conn data).1.credits = conn.credits ∧
      (validateNegotiateInfo conn data).2.status.isSome = true := by
  unfold validateNegotiateInfo
  split
  · exact ⟨rfl, rfl⟩
  · dsimp only
    split
    · split
      · exact ⟨rfl, rfl⟩
      · exact ⟨rfl, rfl⟩
    · split
      · exact ⟨rfl, rfl⟩
      · exact ⟨rfl, rfl⟩

/-- The handlers of the commands on files and pipes always answer. -/
def Answers : Prop :=
  ∀ command tables hdr body fileId,
    (env.serve command tables hdr body fileId).1.status.isSome = true

/-- No handler writes the balance, and only CANCEL is not answered. -/
theorem handle_settles (conn : Conn τ η) (hdr : Header) (body random : Bytes) :
    (handle env conn hdr body random).1.credits = conn.credits ∧
      (Answers env → hdr.command ≠ .cancel →
        (handle env conn hdr body random).2.status.isSome = true) := by
  have hfiles : (hFiles env conn hdr body).1.credits = conn.credits ∧
      (Answers env → hdr.command ≠ .cancel → (hFiles env conn hdr body).2.status.isSome = true) :=
    ⟨rfl, fun hserve _ => hserve _ _ _ _ _⟩
  unfold handle
  split
  · unfold hNegotiate
    split
    · exact ⟨rfl, fun _ _ => rfl⟩
    · dsimp only
      split
      · exact ⟨rfl, fun _ _ => rfl⟩
      · exact ⟨rfl, fun _ _ => rfl⟩
  · unfold hSessionSetup
    split
    · exact ⟨rfl, fun _ _ => rfl⟩
    · exact ⟨rfl, fun _ _ => rfl⟩
    · dsimp only
      split
      · exact ⟨rfl, fun _ _ => rfl⟩
      · exact ⟨rfl, fun _ _ => rfl⟩
  · exact ⟨rfl, fun _ _ => rfl⟩
  · unfold hTreeConnect
    split
    · exact ⟨rfl, fun _ _ => rfl⟩
    split
    · exact ⟨rfl, fun _ _ => rfl⟩
    split
    · exact ⟨rfl, fun _ _ => rfl⟩
    split
    · exact ⟨rfl, fun _ _ => rfl⟩
    · exact ⟨rfl, fun _ _ => rfl⟩
  · exact ⟨rfl, fun _ _ => rfl⟩
  · unfold hIoctl
    split
    · exact ⟨rfl, fun _ _ => rfl⟩
    split
    · exact ⟨rfl, fun _ _ => rfl⟩
    split
    · exact ⟨rfl, fun _ _ => rfl⟩
    split
    · exact ⟨rfl, fun _ _ => rfl⟩
    split
    · have hsettles := validateNegotiateInfo_settles conn
      exact ⟨(hsettles _).1, fun _ _ => (hsettles _).2⟩
    · exact hfiles
  · exact ⟨rfl, fun _ _ => rfl⟩
  · rename_i hcancel
    exact ⟨rfl, fun _ h => absurd hcancel h⟩
  · exact ⟨rfl, fun _ _ => rfl⟩
  all_goals exact hfiles

variable {env}

theorem State.finish_credits (s : State τ η) (hdr : Header) (conn : Conn τ η) (reply : Reply)
    (session : Option Bytes) :
    (s.finish hdr conn reply session).conn.credits =
        heldAfter conn.credits hdr + grantOf conn.credits hdr ∧
      ∃ hdr', (s.finish hdr conn reply session).prev = some (hdr', reply.status) := by
  unfold State.finish
  dsimp only
  refine ⟨?_, _, rfl⟩
  rw [grantCredits_credits]
  cases reply.treeId with
  | none =>
      dsimp only
      split
      · rfl
      · rfl
  | some treeId =>
      dsimp only
      split
      · rfl
      · rfl

@[simp] theorem heldAfter_inherit (prev : Option (Header × Option Status)) (credits : Nat)
    (hdr : Header) : heldAfter credits (inherit prev hdr) = heldAfter credits hdr := by
  unfold inherit
  split
  · split
    · rfl
    · rfl
  · rfl

@[simp] theorem grantOf_inherit (prev : Option (Header × Option Status)) (credits : Nat)
    (hdr : Header) : grantOf credits (inherit prev hdr) = grantOf credits hdr := by
  unfold inherit
  split
  · split
    · rfl
    · rfl
  · rfl

/-- A request that does not end the connection is charged, and granted credits; it is answered unless
it is a CANCEL that gets to its handler. -/
theorem State.request_credits (hserve : Answers env) {s : State τ η} {p : Piece} {random : Bytes}
    (hopen : (s.request env p random).closed = false) :
    (s.request env p random).conn.credits =
        heldAfter s.conn.credits p.hdr + grantOf s.conn.credits p.hdr ∧
      ∃ hdr status, (s.request env p random).prev = some (hdr, status) ∧
        (status = none → p.hdr.command = .cancel ∧ s.admits env p = true) := by
  unfold State.request at hopen ⊢
  unfold State.admits
  cases hclosed : s.closed with
  | true =>
      rw [hclosed, if_pos rfl, hclosed] at hopen
      cases hopen
  | false =>
      rw [hclosed] at hopen
      simp only [Bool.false_eq_true, if_false, Bool.not_false, Bool.true_and] at hopen ⊢
      have hanswered (status : Status) : (s.finish (inherit s.prev p.hdr) s.conn (.of status)
          s.session).conn.credits = heldAfter s.conn.credits p.hdr + grantOf s.conn.credits p.hdr ∧
          ∃ hdr status', (s.finish (inherit s.prev p.hdr) s.conn (.of status) s.session).prev =
            some (hdr, status') ∧ (status' = none → p.hdr.command = .cancel ∧
              ((inheritedFailure s.prev p.hdr).isNone &&
                signatureCheck env s.conn (inherit s.prev p.hdr) p.raw == .pass) = true) := by
        obtain ⟨hcredits, hdr', hprev⟩ :=
          State.finish_credits s (inherit s.prev p.hdr) s.conn (.of status) s.session
        rw [heldAfter_inherit, grantOf_inherit] at hcredits
        exact ⟨hcredits, hdr', some status, hprev, fun h => by cases h⟩
      cases hcheck : signatureCheck env s.conn (inherit s.prev p.hdr) p.raw with
      | crash =>
          rw [hcheck] at hopen
          cases hopen
      | refuse status =>
          rw [hcheck] at hanswered
          cases hfailure : inheritedFailure s.prev p.hdr with
          | none =>
              rw [hfailure] at hanswered
              exact hanswered status
          | some status' =>
              rw [hfailure] at hanswered
              exact hanswered status'
      | pass =>
          rw [hcheck] at hanswered
          cases hfailure : inheritedFailure s.prev p.hdr with
          | some status' =>
              rw [hfailure] at hanswered
              exact hanswered status'
          | none =>
              obtain ⟨hcredits, hdr', hprev⟩ := State.finish_credits s (inherit s.prev p.hdr)
                (handle env s.conn (inherit s.prev p.hdr) p.body random).1
                (handle env s.conn (inherit s.prev p.hdr) p.body random).2 (sessionAfter env s p)
              have hsettles := handle_settles env s.conn (inherit s.prev p.hdr) p.body random
              rw [heldAfter_inherit, grantOf_inherit, hsettles.1] at hcredits
              refine ⟨hcredits, hdr', _, hprev, fun hnone => ⟨?_, rfl⟩⟩
              by_contra hcancel
              have hsome := hsettles.2 hserve (by rwa [inherit_command])
              rw [hnone] at hsome
              cases hsome

theorem State.foreign_closed (s : State τ η) (msg : Bytes) : (s.foreign env msg).closed = s.closed := by
  obtain ⟨credits, heq⟩ := s.foreign_eq env msg
  rw [heq]

theorem State.foreign_credits (s : State τ η) (msg : Bytes) : (s.foreign env msg).conn.credits =
    if foreignAnswered env msg then s.conn.credits + 1 else s.conn.credits := by
  unfold State.foreign foreignAnswered
  generalize foreignDialect env msg = dialect
  cases smb1NegotiateDialects msg with
  | none => cases dialect <;> rfl
  | some dialects =>
      cases dialect <;> dsimp only <;> split <;> rfl

/-! ## The balance over a run -/

/-- Every reply grants a credit. -/
structure Account.Granting (a : Account τ η) : Prop where
  sent : ∀ grant ∈ a.sent, 1 ≤ grant
  waiting : ∀ reply ∈ a.waiting, 1 ≤ reply.grant

theorem one_le_replyTo (before after : State τ η) (hdr : Header) :
    ∀ reply ∈ replyTo before after hdr, 1 ≤ reply.grant := by
  unfold replyTo
  intro reply hreply
  split at hreply
  · rw [List.mem_singleton.mp hreply]
    exact one_le_grantOf _ _
  · cases hreply

theorem Account.Granting.request {a : Account τ η} (h : a.Granting) (p : Piece) (random : Bytes) :
    (a.request env p random).Granting := by
  unfold Account.request
  dsimp only
  split
  · exact ⟨h.sent, h.waiting⟩
  · refine ⟨h.sent, fun reply hreply => ?_⟩
    rcases List.mem_append.mp hreply with hold | hnew
    · exact h.waiting reply hold
    · exact one_le_replyTo _ _ _ reply hnew

theorem Account.Granting.foreign {a : Account τ η} (h : a.Granting) (msg : Bytes) (sends : Bool) :
    (a.foreign env msg sends).Granting := by
  unfold Account.foreign
  split
  · exact h
  dsimp only
  split
  · exact ⟨h.sent, h.waiting⟩
  split
  · refine ⟨fun grant hgrant => ?_, h.waiting⟩
    rcases List.mem_append.mp hgrant with hold | hnew
    · exact h.sent grant hold
    · rw [List.mem_singleton.mp hnew]
  · exact ⟨h.sent, h.waiting⟩

theorem Account.Granting.answered {a : Account τ η} (h : a.Granting) (sends : Bool) :
    (a.answered env sends).Granting := by
  unfold Account.answered
  split
  · exact ⟨h.sent, fun reply hreply => absurd hreply List.not_mem_nil⟩
  · refine ⟨fun grant hgrant => ?_, fun reply hreply => absurd hreply List.not_mem_nil⟩
    rcases List.mem_append.mp hgrant with hold | hnew
    · exact h.sent grant hold
    · obtain ⟨reply, hreply, rfl⟩ := List.mem_map.mp hnew
      exact h.waiting reply hreply

theorem Account.Granting.next {a : Account τ η} (h : a.Granting) (turn : Turn) :
    (Account.next env a turn).Granting := by
  cases turn with
  | message => exact ⟨h.sent, h.waiting⟩
  | request p random => exact h.request p random
  | foreign msg sends => exact h.foreign msg sends
  | cut => exact ⟨h.sent, fun reply hreply => absurd hreply List.not_mem_nil⟩
  | answered sends => exact h.answered sends

/-- What is recorded is what the replies, those that wait included, have granted and the requests
have not cost; and it is within the limit. -/
structure Account.Balanced (a : Account τ η) : Prop where
  balance : a.state.conn.credits + a.charged = a.sent.sum + (a.waiting.map Waiting.grant).sum
  limit : a.state.conn.credits ≤ CREDIT_LIMIT

/-- A turn that keeps the balance. A request is covered by the balance, leaves room for one more
credit, and is no CANCEL that gets to its handler; there is room for the credit of an answer to an SMB1
NEGOTIATE; and no message is cut off behind a request that has been answered. -/
def Pays (env : Env τ η) (a : Account τ η) : Turn → Prop
  | .request p _ =>
      (p.hdr.command = .cancel → a.state.admits env p = false) ∧
        chargeOf p.hdr ≤ a.state.conn.credits ∧
        heldAfter a.state.conn.credits p.hdr < CREDIT_LIMIT
  | .foreign msg _ => foreignAnswered env msg = true → a.state.conn.credits < CREDIT_LIMIT
  | .cut => a.waiting = []
  | .message | .answered _ => True

theorem Account.Balanced.request (hserve : Answers env) {a : Account τ η} (h : a.Balanced)
    {p : Piece} {random : Bytes} (hpays : Pays env a (.request p random)) :
    (a.request env p random).state.closed = true ∨ (a.request env p random).Balanced := by
  obtain ⟨hcancel, hcharge, hroom⟩ := hpays
  unfold Account.request
  dsimp only
  cases hclosed : (a.state.request env p random).closed with
  | true => exact Or.inl hclosed
  | false =>
      right
      rw [if_neg Bool.false_ne_true]
      obtain ⟨hcredits, hdr, status, hprev, hsilent⟩ := State.request_credits hserve hclosed
      obtain ⟨hstep, hlimit⟩ := balance_step hcharge hroom
      have hreply : (replyTo a.state (a.state.request env p random) p.hdr).map Waiting.grant =
          [grantOf a.state.conn.credits p.hdr] := by
        unfold replyTo
        rw [hprev]
        cases status with
        | none =>
            obtain ⟨hcommand, hadmits⟩ := hsilent rfl
            rw [hcancel hcommand] at hadmits
            cases hadmits
        | some status => rfl
      constructor
      · have hbalance := h.balance
        dsimp only
        rw [hcredits, List.map_append, List.sum_append, hreply, List.sum_singleton]
        omega
      · dsimp only
        rw [hcredits]
        exact hlimit

theorem Account.Balanced.foreign {a : Account τ η} (h : a.Balanced) {msg : Bytes} {sends : Bool}
    (hpays : Pays env a (.foreign msg sends)) :
    (a.foreign env msg sends).state.closed = true ∨ (a.foreign env msg sends).Balanced := by
  have hbalance := h.balance
  have hcredits := @State.foreign_credits τ η env a.state msg
  unfold Account.foreign
  dsimp only
  split
  · exact Or.inr h
  cases hanswered : foreignAnswered env msg with
  | false =>
      rw [hanswered, if_neg Bool.false_ne_true] at hcredits
      refine Or.inr ⟨?_, ?_⟩
      · exact (congrArg (· + a.charged) hcredits).trans hbalance
      · exact Nat.le_trans (Nat.le_of_eq hcredits) h.limit
  | true =>
      rw [hanswered, if_pos rfl] at hcredits
      cases sends with
      | false => exact Or.inl rfl
      | true =>
          have hroom := hpays hanswered
          refine Or.inr ⟨?_, ?_⟩
          · show (a.state.foreign env msg).conn.credits + a.charged = _
            show _ = (a.sent ++ [1]).sum + (a.waiting.map Waiting.grant).sum
            rw [hcredits, List.sum_append, List.sum_singleton]
            omega
          · show (a.state.foreign env msg).conn.credits ≤ CREDIT_LIMIT
            rw [hcredits]
            exact hroom

theorem Account.Balanced.answered {a : Account τ η} (h : a.Balanced) (sends : Bool) :
    (a.answered env sends).state.closed = true ∨
      (a.answered env sends).Balanced ∧ (a.answered env sends).waiting = [] := by
  unfold Account.answered
  split
  · exact Or.inl rfl
  · refine Or.inr ⟨⟨?_, h.limit⟩, rfl⟩
    have hbalance := h.balance
    show a.state.conn.credits + a.charged = (a.sent ++ a.waiting.map Waiting.grant).sum + 0
    rw [List.sum_append]
    omega

theorem Account.Balanced.next (hserve : Answers env) {a : Account τ η} (h : a.Balanced) {turn : Turn}
    (hpays : Pays env a turn) :
    (Account.next env a turn).state.closed = true ∨ (Account.next env a turn).Balanced := by
  cases turn with
  | message => exact Or.inr ⟨h.balance, h.limit⟩
  | request p random => exact h.request hserve hpays
  | foreign msg sends => exact h.foreign hpays
  | cut =>
      have hwaiting : a.waiting = [] := hpays
      have hbalance := h.balance
      rw [hwaiting] at hbalance
      exact Or.inr ⟨hbalance, h.limit⟩
  | answered sends => exact (h.answered sends).imp_right And.left

/-- A connection that has ended stays so. -/
theorem Account.closed_next {a : Account τ η} (h : a.state.closed = true) (turn : Turn) :
    (Account.next env a turn).state.closed = true := by
  cases turn with
  | message => exact h
  | request p random =>
      have hsame : a.state.request env p random = a.state := by
        unfold State.request
        rw [h]
        rfl
      show (a.request env p random).state.closed = true
      unfold Account.request
      rw [hsame]
      dsimp only
      rw [if_pos h]
      exact h
  | foreign msg sends =>
      show (a.foreign env msg sends).state.closed = true
      unfold Account.foreign
      rw [if_pos h]
      exact h
  | cut =>
      show (a.state.closed || a.state.conn.terminate) = true
      rw [h]
      rfl
  | answered sends =>
      show (a.answered env sends).state.closed = true
      unfold Account.answered
      rw [h]
      rfl

/-- Every reply grants a credit. As long as each turn pays, the balance of a connection that is open
is what the replies have granted and the requests have not cost, and is within the limit; so between
two messages it is what the client has by the replies it got. -/
theorem credits_balanced (hserve : Answers env) :
    (∀ a : Account τ η, (accounts env).Reached a → a.Granting) ∧
    ∀ a : Account τ η, (accounts env).ReachedWhen (Pays env) a → a.state.closed = false →
      a.Balanced ∧ (a.waiting = [] → a.state.conn.credits + a.charged = a.sent.sum) := by
  constructor
  · intro a ha
    refine ha.invariant ?_ ?_
    · rintro a rfl
      exact ⟨fun _ h => absurd h List.not_mem_nil, fun _ h => absurd h List.not_mem_nil⟩
    · rintro a turn _ h - rfl
      exact h.next turn
  · intro a ha hopen
    have hinv : a.state.closed = true ∨ a.Balanced := by
      refine @System.ReachedWhen.invariant _ _ _ _
        (fun a => a.state.closed = true ∨ a.Balanced) ?_ ?_ a ha
      · rintro a rfl
        exact Or.inr ⟨rfl, Nat.zero_le _⟩
      · rintro a turn _ h hpays rfl
        rcases h with hclosed | hbalanced
        · exact Or.inl (Account.closed_next hclosed turn)
        · exact hbalanced.next hserve hpays
    have hbalanced := hinv.resolve_left (by rw [hopen]; exact Bool.false_ne_true)
    refine ⟨hbalanced, fun hwaiting => ?_⟩
    have hbalance := hbalanced.balance
    rw [hwaiting] at hbalance
    exact hbalance

/-! ## Two requests for the whole limit -/

instance Pays.decidable (a : Account τ η) : (turn : Turn) → Decidable (Pays env a turn)
  | .request p _ =>
      inferInstanceAs (Decidable ((p.hdr.command = .cancel → a.state.admits env p = false) ∧
        chargeOf p.hdr ≤ a.state.conn.credits ∧ heldAfter a.state.conn.credits p.hdr < CREDIT_LIMIT))
  | .foreign msg _ =>
      inferInstanceAs (Decidable (foreignAnswered env msg = true →
        a.state.conn.credits < CREDIT_LIMIT))
  | .cut => inferInstanceAs (Decidable (a.waiting = []))
  | .message => inferInstanceAs (Decidable True)
  | .answered _ => inferInstanceAs (Decidable True)

/-- A message with one request, which costs `charge` and asks for `credits`. -/
def chargedMessage (command charge credits : Nat) (body : Bytes) : Bytes :=
  SMB2_MAGIC ++ Bytes.ofNat 2 0x40 ++ Bytes.ofNat 2 charge ++ Bytes.ofNat 4 0 ++
    Bytes.ofNat 2 command ++ Bytes.ofNat 2 credits ++ Bytes.ofNat 48 0 ++ body

/-- A NEGOTIATE that asks for `credits`. -/
def negotiateFor (credits : Nat) : Bytes :=
  chargedMessage 0 0 credits (Bytes.ofNat 2 36 ++ Bytes.ofNat 2 1 ++ Bytes.ofNat 32 0 ++
    Bytes.ofNat 2 DIALECT_302)

/-- The account of a client after these messages. -/
def accountAfter (messages : List Bytes) : Account Unit Unit :=
  (messages.flatMap fun msg => turns msg (fun _ => Bytes.ofNat 16 5) true).foldl
    (Account.next oneAccount) Account.new

/-- A client that logs on, asks for much and spends it on ECHOs, the last for the whole limit. -/
def spending : List Bytes :=
  [negotiateFor 8, chargedMessage 1 1 64 ((setupMessage 0 1).drop 64),
    chargedMessage 1 1 64 ((setupMessage 0 3).drop 64), chargedMessage 13 16 1 [4, 0, 0, 0],
    chargedMessage 13 4 0 [4, 0, 0, 0], chargedMessage 13 1 1000 [4, 0, 0, 0]]

/-- Each request is paid for, and the client has what it was granted and has not spent. -/
theorem credits_balanced_spending :
    (accountAfter spending).sent = [8, 64, 64, 1, 1, 397] ∧
      (accountAfter spending).charged = 23 ∧
      (accountAfter spending).state.conn.credits = CREDIT_LIMIT ∧
      (accountAfter spending).Balanced :=
  ⟨by decide +kernel, by decide +kernel, by decide +kernel,
    ((@credits_balanced Unit Unit oneAccount fun _ _ _ _ _ => rfl).2 (accountAfter spending)
      (System.ReachedWhen.along (.init rfl) (by decide +kernel)) (by decide +kernel)).1⟩

/-- The second NEGOTIATE is granted a credit above the limit. -/
theorem not_balanced_twice :
    ¬ ∀ a : Account Unit Unit, (accounts oneAccount).Reached a → a.state.closed = false →
      a.state.conn.credits ≤ CREDIT_LIMIT := by
  intro hall
  have hreached :
      (accounts oneAccount).Reached (accountAfter [negotiateFor 512, negotiateFor 512]) :=
    System.ReachedWhen.along (.init rfl) (.of_forall (fun _ _ => trivial) _ _)
  have hlimit := hall _ hreached (by decide +kernel)
  revert hlimit
  decide +kernel

end Ps2Servers.Smb2
