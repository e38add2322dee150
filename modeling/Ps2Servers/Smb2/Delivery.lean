import Ps2Servers.Smb2.Replies

/-!
# Which messages are answered

A message with requests gets its replies exactly when they can be framed, and a connection does not
stay open over replies that could not be sent. Behind the stream of a connection there is an account
of credits.
-/

namespace Ps2Servers.Smb2

open Runs Struct

variable {τ η : Type} {env : Env τ η} {bodies : Bodies τ η}

/-! ## The account behind the stream -/

/-- A reply that is to be signed and cannot be, because no dialect was negotiated. -/
def Unsignable (conn : Conn τ η) (rs : List Response) : Prop :=
  conn.dialect = none ∧ ∃ r ∈ rs, shouldSign conn r.toWaiting = true

instance Unsignable.decidable (conn : Conn τ η) (rs : List Response) : Decidable (Unsignable conn rs) :=
  inferInstanceAs (Decidable (conn.dialect = none ∧ ∃ r ∈ rs, shouldSign conn r.toWaiting = true))

/-- What the replies of an exchange grant. -/
def Exchange.grants : Exchange τ η → List Nat
  | .replies _ _ asked => (asked.filterMap Prod.snd).map fun r => r.grant
  | .negotiated _ _ => [1]

theorem State.request_closed {s : State τ η} (h : s.closed = true) (p : Piece) (random : Bytes) :
    s.request env p random = s := by
  unfold State.request
  dsimp only
  rw [if_pos h]

theorem response_replyTo (s : State τ η) (p : Piece) (random : Bytes) :
    (s.response env bodies p random).toList.map (fun r => r.toWaiting) =
      replyTo s (s.request env p random) p.hdr := by
  unfold State.response replyTo
  cases (s.request env p random).prev with
  | none => rfl
  | some prev =>
      obtain ⟨hdr, status⟩ := prev
      cases status with
      | none => rfl
      | some status => rfl

/-- The requests of a message, as the account takes them. -/
def requestTurns (random : Nat → Bytes) (i : Nat) (ps : List Piece) : List Turn :=
  ps.mapIdx fun j p => .request p (random (i + j))

theorem requestTurns_cons (random : Nat → Bytes) (i : Nat) (p : Piece) (ps : List Piece) :
    requestTurns random i (p :: ps) = .request p (random i) :: requestTurns random (i + 1) ps := by
  unfold requestTurns
  rw [List.mapIdx_cons]
  simp only [Nat.add_zero, Nat.add_right_comm i, Nat.add_assoc i]

theorem account_closed {random : Nat → Bytes} {ps : List Piece} :
    ∀ {i : Nat} {a : Account τ η}, a.state.closed = true →
      (requestTurns random i ps).foldl (Account.next env) a = a := by
  induction ps with
  | nil => exact fun _ => rfl
  | cons p ps ih =>
      intro i a hclosed
      have hsame : Account.next env a (.request p (random i)) = a := by
        show a.request env p (random i) = a
        unfold Account.request
        rw [State.request_closed hclosed]
        dsimp only
        rw [if_pos hclosed]
      rw [requestTurns_cons, List.foldl_cons, hsame]
      exact ih hclosed

theorem account_requests (bodies : Bodies τ η) {random : Nat → Bytes} {ps : List Piece} :
    ∀ {i : Nat} {a : Account τ η},
      ((requestTurns random i ps).foldl (Account.next env) a).state =
          (carryOut env bodies random i a.state ps).1 ∧
        ((requestTurns random i ps).foldl (Account.next env) a).sent = a.sent ∧
        ((carryOut env bodies random i a.state ps).1.closed = false →
          ((requestTurns random i ps).foldl (Account.next env) a).waiting = a.waiting ++
            ((carryOut env bodies random i a.state ps).2.filterMap Prod.snd).map fun r => r.toWaiting) := by
  induction ps with
  | nil =>
      intro i a
      exact ⟨rfl, rfl, fun _ => (List.append_nil _).symm⟩
  | cons p ps ih =>
      intro i a
      rw [requestTurns_cons, List.foldl_cons]
      unfold carryOut
      dsimp only
      have hstep : Account.next env a (.request p (random i)) = a.request env p (random i) := rfl
      rw [hstep]
      unfold Account.request
      dsimp only
      cases hclosed : (a.state.request env p (random i)).closed with
      | true =>
          rw [if_pos rfl, if_pos rfl, account_closed hclosed]
          refine ⟨rfl, rfl, fun hopen => ?_⟩
          rw [hclosed] at hopen
          cases hopen
      | false =>
          rw [if_neg Bool.false_ne_true, if_neg Bool.false_ne_true]
          obtain ⟨hstate, hsent, hwaiting⟩ := @ih (i + 1)
            { a with
              state := a.state.request env p (random i)
              waiting := a.waiting ++ replyTo a.state (a.state.request env p (random i)) p.hdr
              charged := a.charged + chargeOf p.hdr }
          refine ⟨hstate, hsent, fun hopen => ?_⟩
          rw [hwaiting hopen, ← response_replyTo, List.append_assoc, ← List.map_append]
          congr 2
          rw [List.filterMap_cons]
          cases a.state.response env bodies p (random i) with
          | none => rfl
          | some r => rfl

/-- What an account is, for a connection and what it has sent. -/
structure Account.Of (a : Account τ η) (x : Talk τ η) : Prop where
  state : a.state = x.state
  waiting : a.waiting = []
  sent : a.sent = x.log.flatMap Exchange.grants

theorem foreignReply_isSome (env : Env τ η) (msg : Bytes) :
    (foreignReply env msg).isSome = foreignAnswered env msg := by
  unfold foreignReply foreignAnswered
  cases smb1NegotiateDialects msg with
  | none => rfl
  | some dialects =>
      dsimp only
      cases dialects.contains SMB_2_WILDCARD with
      | true => rfl
      | false => rfl

/-- The frame of an exchange can be made and sent. -/
def framed (out : Option Bytes) (sends : Bool) : Bool := (out.bind sendMsg).isSome && sends

theorem Talk.send_of_framed {x : Talk τ η} {s : State τ η} {e : Exchange τ η} {out : Option Bytes}
    {sends : Bool} (h : framed out sends = true) :
    (x.send env s e out sends).state = next env s .answered ∧
      (x.send env s e out sends).log = x.log ++ [e] := by
  unfold framed at h
  obtain ⟨hframe, hsends⟩ := Bool.and_eq_true_iff.mp h
  obtain ⟨frame, hframe⟩ := Option.isSome_iff_exists.mp hframe
  unfold Talk.send
  rw [hframe, hsends]
  exact ⟨rfl, rfl⟩

theorem Talk.send_of_not_framed {x : Talk τ η} {s : State τ η} {e : Exchange τ η} {out : Option Bytes}
    {sends : Bool} (h : framed out sends = false) :
    (x.send env s e out sends).state = { s with closed := true } ∧
      (x.send env s e out sends).log = x.log := by
  unfold framed at h
  unfold Talk.send
  split
  · rename_i hframe
    rw [hframe] at h
    cases h
  · exact ⟨rfl, rfl⟩

theorem not_unsignable {conn : Conn τ η} {rs : List Response} {first : Bool} {out : Bytes}
    (h : packReplies env conn first rs = some out) : ¬ Unsignable conn rs := by
  induction rs generalizing first out with
  | nil => exact fun ⟨_, r, hr, _⟩ => absurd hr List.not_mem_nil
  | cons r rest ih =>
      rintro ⟨hnone, r', hr', hsign⟩
      unfold packReplies at h
      split at h
      · rename_i piece out' hpiece hout
        rcases List.mem_cons.mp hr' with rfl | hr'
        · unfold packReply at hpiece
          split at hpiece
          · cases hpiece
          · dsimp only at hpiece
            rw [if_pos hsign] at hpiece
            split at hpiece
            · rename_i hdialect
              rw [hnone] at hdialect
              cases hdialect
            · cases hpiece
        · exact ih hout ⟨hnone, r', hr', hsign⟩
      · cases h

theorem State.with_closed {s : State τ η} {closed : Bool} (h : s.closed = closed) :
    { s with closed := closed } = s := by
  cases s
  cases h
  rfl

theorem answered_of_open (a : Account τ η) (hopen : a.state.closed = false)
    (hsigns : unsignable a = false) :
    a.answered env true =
      { a with
        state := next env a.state .answered
        waiting := []
        sent := a.sent ++ a.waiting.map Waiting.grant } := by
  unfold Account.answered
  rw [hopen, hsigns, if_neg (by decide)]

theorem answered_of_ended (a : Account τ η) {sends : Bool} (h : a.state.closed = true ∨ sends = false) :
    a.answered env sends = { a with state := { a.state with closed := true }, waiting := [] } := by
  unfold Account.answered
  rw [if_pos]
  rcases h with h | h
  · rw [h]
    rfl
  · rw [h]
    simp only [Bool.not_false, Bool.or_true, Bool.true_or]

theorem unsignable_nil {a : Account τ η} (h : a.waiting = []) : unsignable a = false := by
  unfold unsignable
  rw [h]
  exact Bool.and_false _

theorem account_greet {a : Account τ η} {x : Talk τ η} (h : a.Of x) (hopen : x.state.closed = false)
    {arrival : Arrival} (hpieces : pieces arrival.msg.length arrival.msg = []) :
    ∃ sends, ((turns arrival.msg arrival.random sends).foldl (Account.next env) a).Of
      (x.greet env bodies arrival) := by
  obtain ⟨hstate, hwaiting, hsent⟩ := h
  have hstart : (next env x.state .message).closed = false := hopen
  have hclosed : ((next env x.state .message).foreign env arrival.msg).closed = false :=
    (State.foreign_closed (next env x.state .message) arrival.msg).trans hopen
  unfold Talk.greet turns
  rw [hpieces]
  dsimp only [List.foldl_cons, List.foldl_nil, Account.next]
  rw [hstate]
  unfold Account.foreign
  simp only [hstart, Bool.false_eq_true, if_false, ← foreignReply_isSome]
  generalize (next env x.state .message).foreign env arrival.msg = s at hclosed ⊢
  have hanswered (sent : List Nat) := @answered_of_open _ _ env
    ⟨s, a.waiting, sent, a.charged⟩ hclosed (unsignable_nil hwaiting)
  cases foreignReply env arrival.msg with
  | none =>
      refine ⟨true, ?_⟩
      have hnone : (!(none : Option Nat).isSome) = true := rfl
      rw [if_pos hnone, hanswered]
      refine ⟨rfl, rfl, ?_⟩
      rw [hwaiting, hsent]
      exact List.append_nil _
  | some dialect =>
      refine ⟨framed (packForeign bodies dialect) arrival.sends, ?_⟩
      have hsome : ¬ (!(some dialect).isSome) = true := Bool.false_ne_true
      rw [if_neg hsome]
      dsimp only
      cases hframed : framed (packForeign bodies dialect) arrival.sends with
      | true =>
          obtain ⟨hlast, hlog⟩ :=
            @Talk.send_of_framed _ _ env x s (.negotiated arrival.msg dialect) _ _ hframed
          rw [if_pos rfl, hanswered]
          refine ⟨hlast.symm, rfl, ?_⟩
          rw [hlog, List.flatMap_append, hwaiting, hsent]
          exact List.append_nil _
      | false =>
          obtain ⟨hlast, hlog⟩ :=
            @Talk.send_of_not_framed _ _ env x s (.negotiated arrival.msg dialect) _ _ hframed
          rw [if_neg Bool.false_ne_true, answered_of_ended _ (Or.inl rfl)]
          refine ⟨hlast.symm, rfl, ?_⟩
          rw [hlog]
          exact hsent

theorem turns_of_ne {msg : Bytes} (h : pieces msg.length msg ≠ []) (random : Nat → Bytes)
    (sends : Bool) : turns msg random sends = .message :: requestTurns random 0 (pieces msg.length msg) ++
      [if complete msg.length msg then .answered sends else .cut] := by
  unfold turns requestTurns
  simp only [Nat.zero_add]

theorem account_reply {a : Account τ η} {x : Talk τ η} (h : a.Of x)
    {arrival : Arrival} (hpieces : pieces arrival.msg.length arrival.msg ≠ []) :
    ∃ sends, ((turns arrival.msg arrival.random sends).foldl (Account.next env) a).Of
      (x.reply env bodies arrival) := by
  obtain ⟨hstate, hwaiting, hsent⟩ := h
  obtain ⟨hlast, hgranted, hreplies⟩ := @account_requests _ _ env bodies arrival.random
    (pieces arrival.msg.length arrival.msg) 0 (Account.next env a .message)
  have hsent : (Account.next env a .message).sent = x.log.flatMap Exchange.grants := hsent
  have hwaiting : (Account.next env a .message).waiting = [] := hwaiting
  have hmessage : (Account.next env a .message).state = next env x.state .message := by
    show next env a.state .message = _
    rw [hstate]
  rw [hsent] at hgranted
  rw [hmessage] at hlast hreplies
  rw [hwaiting, List.nil_append] at hreplies
  simp only [turns_of_ne hpieces, List.foldl_cons, List.foldl_append, List.foldl_nil]
  generalize (requestTurns arrival.random 0 (pieces arrival.msg.length arrival.msg)).foldl
    (Account.next env) (Account.next env a .message) = last at hlast hgranted hreplies ⊢
  have hlast : last.state = (x.run env bodies arrival).1 := hlast
  have hreplies : (x.run env bodies arrival).1.closed = false →
      last.waiting = (x.due env bodies arrival).map fun r => r.toWaiting := hreplies
  rw [← hlast] at hreplies
  unfold Talk.reply
  simp only [← hlast]
  cases hclosed : last.state.closed with
  | true =>
      refine ⟨true, ?_⟩
      rw [if_pos rfl]
      cases complete arrival.msg.length arrival.msg with
      | true =>
          rw [if_pos rfl]
          show (last.answered env true).Of _
          rw [answered_of_ended last (Or.inl hclosed)]
          exact ⟨State.with_closed hclosed, rfl, hgranted⟩
      | false =>
          rw [if_neg Bool.false_ne_true]
          refine ⟨?_, rfl, hgranted⟩
          show { last.state with closed := last.state.closed || last.state.conn.terminate } = last.state
          rw [hclosed, Bool.true_or]
          exact State.with_closed hclosed
  | false =>
      rw [if_neg Bool.false_ne_true]
      cases complete arrival.msg.length arrival.msg with
      | false =>
          refine ⟨true, ?_⟩
          rw [if_neg Bool.false_ne_true, if_pos Bool.not_false]
          refine ⟨?_, rfl, hgranted⟩
          show { last.state with closed := last.state.closed || last.state.conn.terminate } = _
          rw [hclosed, Bool.false_or]
      | true =>
          simp only [if_true, Bool.not_true, Bool.false_eq_true, if_false]
          split
          · rename_i hdue
            have hnone : last.waiting = [] := by
              rw [hreplies hclosed, hdue]
              rfl
            refine ⟨true, ?_⟩
            show (last.answered env true).Of _
            rw [answered_of_open last hclosed (unsignable_nil hnone)]
            refine ⟨rfl, rfl, ?_⟩
            rw [hnone, hgranted]
            exact List.append_nil _
          · rename_i hdue
            refine ⟨framed (packReplies env last.state.conn true (x.due env bodies arrival))
              arrival.sends, ?_⟩
            show (last.answered env _).Of _
            cases hframed : framed (packReplies env last.state.conn true (x.due env bodies arrival))
                arrival.sends with
            | true =>
                obtain ⟨hanswered, hlog⟩ := @Talk.send_of_framed _ _ env x last.state
                  (.replies arrival.msg last.state.conn (x.run env bodies arrival).2) _ _ hframed
                have hsigns : unsignable last = false := by
                  obtain ⟨frame, hframe⟩ :=
                    Option.isSome_iff_exists.mp (Bool.and_eq_true_iff.mp hframed).1
                  obtain ⟨out, hout, -⟩ := Option.bind_eq_some_iff.mp hframe
                  have hnot := not_unsignable hout
                  unfold unsignable
                  rw [hreplies hclosed, List.any_map]
                  cases hdialect : last.state.conn.dialect with
                  | some dialect => rfl
                  | none =>
                      rw [Option.isNone_none, Bool.true_and, List.any_eq_false]
                      exact fun r hr hsign => hnot ⟨hdialect, r, hr, hsign⟩
                rw [answered_of_open last hclosed hsigns]
                refine ⟨hanswered.symm, rfl, ?_⟩
                rw [hlog, List.flatMap_append, hgranted, hreplies hclosed, List.map_map]
                exact congrArg _ (List.append_nil _).symm
            | false =>
                obtain ⟨hended, hlog⟩ := @Talk.send_of_not_framed _ _ env x last.state
                  (.replies arrival.msg last.state.conn (x.run env bodies arrival).2) _ _ hframed
                rw [answered_of_ended last (Or.inr rfl)]
                refine ⟨hended.symm, rfl, ?_⟩
                rw [hlog]
                exact hgranted

/-- Behind everything that was sent there is an account, which has been granted what the replies on
the stream grant. -/
theorem account_of_talk {x : Talk τ η} (hx : (talks env bodies).Reached x) :
    ∃ a, (accounts env).Reached a ∧ a.Of x := by
  refine @System.ReachedWhen.invariant _ _ _ _
    (fun x : Talk τ η => ∃ a, (accounts env).Reached a ∧ a.Of x) ?_ ?_ x hx
  · rintro x rfl
    exact ⟨Account.new, .init rfl, rfl, rfl, rfl⟩
  · rintro x arrival _ ⟨a, hreached, hof⟩ - rfl
    cases hclosed : x.state.closed with
    | true =>
        refine ⟨a, hreached, ?_⟩
        show a.Of (x.receive env bodies arrival)
        unfold Talk.receive
        rw [if_pos hclosed]
        exact hof
    | false =>
        have hturns : ∃ sends, ((turns arrival.msg arrival.random sends).foldl (Account.next env) a).Of
            (x.receive env bodies arrival) := by
          unfold Talk.receive
          rw [hclosed, if_neg Bool.false_ne_true]
          by_cases hpieces : pieces arrival.msg.length arrival.msg = []
          · rw [if_pos hpieces]
            exact account_greet hof hclosed hpieces
          · rw [if_neg hpieces]
            exact account_reply hof hpieces
        obtain ⟨sends, hof⟩ := hturns
        exact ⟨_, reached_turns env hreached arrival.msg arrival.random sends, hof⟩

/-! ## Messages that are answered -/

/-- The length of the replies of a message. -/
def repliesLength : List Response → Nat
  | [] => 0
  | [r] => HEADER_SIZE + r.body.length
  | r :: r' :: rest => aligned (HEADER_SIZE + r.body.length) + repliesLength (r' :: rest)

/-- The status and the tree id of a reply fit their fields. -/
def Response.Fits (r : Response) : Prop := r.status < 256 ^ 4 ∧ r.hdr.treeId < 256 ^ 4

instance Response.Fits.decidable (r : Response) : Decidable r.Fits :=
  inferInstanceAs (Decidable (r.status < 256 ^ 4 ∧ r.hdr.treeId < 256 ^ 4))

/-- The numbers of a reply that come from its request. -/
structure Response.Tidy (r : Response) : Prop where
  command : r.hdr.command.toNat < 256 ^ 2
  grant : r.grant < 256 ^ 2
  messageId : r.hdr.messageId < 256 ^ 8
  sessionId : r.hdr.sessionId < 256 ^ 8

/-- The session ids of a connection. -/
structure State.Tidy (s : State τ η) : Prop where
  conn : s.conn.sessionId < 256 ^ 8
  prev : ∀ hdr status, s.prev = some (hdr, status) → hdr.sessionId < 256 ^ 8

theorem Response.flags_lt (conn : Conn τ η) (first last : Bool) (r : Response) :
    (r.header conn first last).flags ||| FLAG_SERVER_TO_REDIR < 0x100000000 := by
  unfold Response.header
  dsimp only
  split
  · split
    · decide
    · decide
  · split
    · decide
    · decide

/-- When the header of a reply can be packed. -/
theorem fits_header {conn : Conn τ η} (hconn : conn.sessionId < 256 ^ 8) {r : Response} (hr : r.Tidy)
    (first last : Bool) :
    (headerItems r.status (r.header conn first last)).all Item.fits = true ↔
      r.Fits ∧ (last = false → aligned (HEADER_SIZE + r.body.length) < 256 ^ 4) := by
  have hflags := r.flags_lt conn first last
  have hsession : (if conn.sessionId = 0 then r.hdr.sessionId else conn.sessionId) < 256 ^ 8 := by
    split
    · exact hr.sessionId
    · exact hconn
  have hnext : (r.header conn first last).nextCommand < 0x100000000 ↔
      (last = false → aligned (HEADER_SIZE + r.body.length) < 256 ^ 4) := by
    unfold Response.header
    cases last with
    | false => exact ⟨fun h _ => h, fun h => h rfl⟩
    | true => exact ⟨fun _ h => absurd h (Bool.false_ne_true ∘ Eq.symm), fun _ => Nat.zero_lt_succ _⟩
  have hcommand := hr.command
  have hgrant := hr.grant
  have hmessage := hr.messageId
  rw [← hnext]
  unfold headerItems Response.Fits
  simp only [List.all_cons, List.all_nil, Item.fits, Bool.and_true, Bool.true_and, Bool.and_eq_true,
    decide_eq_true_eq]
  constructor
  · rintro ⟨-, -, hstatus, -, -, -, hnext, -, -, htree, -⟩
    exact ⟨⟨hstatus, htree⟩, hnext⟩
  · rintro ⟨⟨hstatus, htree⟩, hnext⟩
    exact ⟨by decide, by decide, hstatus, hcommand, hgrant, hflags, hnext, hmessage, by decide, htree,
      hsession⟩

theorem packReply_isSome (env : Env τ η) {conn : Conn τ η} (hconn : conn.sessionId < 256 ^ 8)
    {r : Response} (hr : r.Tidy) (first last : Bool) :
    (packReply env conn first last r).isSome = true ↔
      r.Fits ∧ (last = false → aligned (HEADER_SIZE + r.body.length) < 256 ^ 4) ∧
        (shouldSign conn r.toWaiting = true → conn.dialect ≠ none) := by
  rw [← and_assoc, ← fits_header hconn hr first last]
  unfold packReply
  cases hhead : packHeader r.status (r.header conn first last) with
  | none =>
      refine iff_of_false Bool.false_ne_true ?_
      rintro ⟨hfits, -⟩
      rw [packHeader_eq_some.mpr ⟨hfits, rfl⟩] at hhead
      cases hhead
  | some head =>
      have hfits := (packHeader_eq_some.mp hhead).1
      dsimp only
      split
      · rename_i hsign
        have hkey : conn.signingKey.isSome = true := by
          unfold shouldSign at hsign
          simp only [Bool.and_eq_true] at hsign
          exact hsign.1.1
        cases hdialect : conn.dialect with
        | none =>
            cases conn.signingKey with
            | none => exact iff_of_false Bool.false_ne_true fun h => h.2 hsign rfl
            | some key => exact iff_of_false Bool.false_ne_true fun h => h.2 hsign rfl
        | some dialect =>
            obtain ⟨key, hkey⟩ := Option.isSome_iff_exists.mp hkey
            rw [hkey]
            exact iff_of_true rfl ⟨hfits, fun _ => Option.some_ne_none _⟩
      · rename_i hsign
        exact iff_of_true rfl ⟨hfits, fun h => absurd h hsign⟩

theorem length_packReplies (hmacs : Macs env) {conn : Conn τ η} {rs : List Response} {first : Bool}
    {out : Bytes} (h : packReplies env conn first rs = some out) : out.length = repliesLength rs := by
  induction rs generalizing first out with
  | nil =>
      cases h
      rfl
  | cons r rest ih =>
      unfold packReplies at h
      split at h
      · rename_i piece out' hpiece hout
        cases h
        have hlength := length_packReply hmacs hpiece
        have hrest := ih hout
        cases rest with
        | nil =>
            cases hout
            rw [List.append_nil, hlength]
            exact Nat.add_zero _
        | cons r' rest =>
            have hle := le_aligned (HEADER_SIZE + r.body.length)
            rw [List.length_append, hlength, hrest]
            show _ + (aligned _ - _) + _ = aligned _ + _
            omega
      · cases h

theorem packReplies_isSome (env : Env τ η) {conn : Conn τ η} (hconn : conn.sessionId < 256 ^ 8)
    {rs : List Response} (hrs : ∀ r ∈ rs, r.Tidy) (hlength : repliesLength rs < 256 ^ 3) (first : Bool) :
    (packReplies env conn first rs).isSome = true ↔
      (∀ r ∈ rs, r.Fits) ∧ ¬ Unsignable conn rs := by
  induction rs generalizing first with
  | nil =>
      apply iff_of_true rfl
      exact ⟨fun r hr => absurd hr List.not_mem_nil, fun ⟨_, r, hr, _⟩ => absurd hr List.not_mem_nil⟩
  | cons r rest ih =>
      have hle : repliesLength rest ≤ repliesLength (r :: rest) ∧
          (rest.isEmpty = false →
            aligned (HEADER_SIZE + r.body.length) ≤ repliesLength (r :: rest)) := by
        cases rest with
        | nil => exact ⟨Nat.zero_le _, fun h => absurd h (Bool.false_ne_true ∘ Eq.symm)⟩
        | cons r' rest => exact ⟨Nat.le_add_left _ _, fun _ => Nat.le_add_right _ _⟩
      have hpiece := packReply_isSome env hconn (hrs r List.mem_cons_self) first rest.isEmpty
      have hrest := ih (fun r hr => hrs r (List.mem_cons_of_mem _ hr))
        (Nat.lt_of_le_of_lt hle.1 hlength) false
      have hsome : (packReplies env conn first (r :: rest)).isSome = true ↔
          (packReply env conn first rest.isEmpty r).isSome = true ∧
            (packReplies env conn false rest).isSome = true := by
        rw [packReplies]
        cases packReply env conn first rest.isEmpty r with
        | none => exact iff_of_false Bool.false_ne_true fun h => absurd h.1 Bool.false_ne_true
        | some piece =>
            cases packReplies env conn false rest with
            | none => exact iff_of_false Bool.false_ne_true fun h => absurd h.2 Bool.false_ne_true
            | some out => exact iff_of_true rfl ⟨rfl, rfl⟩
      rw [hsome, hpiece, hrest]
      have hnext : rest.isEmpty = false → aligned (HEADER_SIZE + r.body.length) < 256 ^ 4 := by
        intro h
        have hlt := hle.2 h
        omega
      constructor
      · rintro ⟨⟨hfits, -, hsign⟩, hall, hsigns⟩
        refine ⟨List.forall_mem_cons.mpr ⟨hfits, hall⟩, ?_⟩
        rintro ⟨hnone, r', hr', hr''⟩
        rcases List.mem_cons.mp hr' with rfl | hr'
        · exact hsign hr'' hnone
        · exact hsigns ⟨hnone, r', hr', hr''⟩
      · rintro ⟨hall, hsigns⟩
        obtain ⟨hfits, hall⟩ := List.forall_mem_cons.mp hall
        refine ⟨⟨hfits, hnext, fun hsign hnone => ?_⟩, hall, ?_⟩
        · exact hsigns ⟨hnone, r, List.mem_cons_self, hsign⟩
        · rintro ⟨hnone, r', hr', hr''⟩
          exact hsigns ⟨hnone, r', List.mem_cons_of_mem _ hr', hr''⟩

/-- A message can be answered. -/
theorem frame_isSome (hmacs : Macs env) {conn : Conn τ η} (hconn : conn.sessionId < 256 ^ 8)
    {rs : List Response} (hrs : ∀ r ∈ rs, r.Tidy) :
    ((packReplies env conn true rs).bind sendMsg).isSome = true ↔
      repliesLength rs < 256 ^ 3 ∧ (∀ r ∈ rs, r.Fits) ∧ ¬ Unsignable conn rs := by
  constructor
  · intro h
    obtain ⟨frame, hframe⟩ := Option.isSome_iff_exists.mp h
    obtain ⟨out, hout, hsend⟩ := Option.bind_eq_some_iff.mp hframe
    have hlength : repliesLength rs < 256 ^ 3 := by
      rw [← length_packReplies hmacs hout]
      unfold sendMsg at hsend
      split at hsend
      · rename_i hlt
        exact hlt
      · cases hsend
    refine ⟨hlength, (packReplies_isSome env hconn hrs hlength true).mp ?_⟩
    rw [hout]
    rfl
  · rintro ⟨hlength, hfits⟩
    obtain ⟨out, hout⟩ := Option.isSome_iff_exists.mp
      ((packReplies_isSome env hconn hrs hlength true).mpr hfits)
    rw [hout, Option.bind_some, sendMsg, if_pos (by rwa [length_packReplies hmacs hout])]
    rfl

theorem validateNegotiateInfo_sessionId (conn : Conn τ η) (data : Bytes) :
    (validateNegotiateInfo conn data).1.sessionId = conn.sessionId := by
  unfold validateNegotiateInfo
  split
  · rfl
  · dsimp only
    split
    · split
      · rfl
      · rfl
    · split
      · rfl
      · rfl

theorem handle_sessionId (conn : Conn τ η) (hdr : Header) (body random : Bytes) :
    (handle env conn hdr body random).1.sessionId = conn.sessionId ∨
      (handle env conn hdr body random).1.sessionId = conn.sessionIdOr random := by
  unfold handle
  cases hdr.command with
  | negotiate =>
      dsimp only
      unfold hNegotiate
      split
      · exact Or.inl rfl
      · dsimp only
        split
        · exact Or.inl rfl
        · exact Or.inl rfl
  | sessionSetup =>
      dsimp only
      unfold hSessionSetup
      split
      · exact Or.inl rfl
      · exact Or.inr rfl
      · dsimp only
        split
        · exact Or.inr rfl
        · exact Or.inr rfl
  | treeConnect =>
      dsimp only
      unfold hTreeConnect
      split
      · exact Or.inl rfl
      split
      · exact Or.inl rfl
      split
      · exact Or.inl rfl
      split
      · exact Or.inl rfl
      · exact Or.inl rfl
  | ioctl =>
      dsimp only
      unfold hIoctl
      split
      · exact Or.inl rfl
      split
      · exact Or.inl rfl
      split
      · exact Or.inl rfl
      split
      · exact Or.inl rfl
      split
      · exact Or.inl (validateNegotiateInfo_sessionId conn _)
      · exact Or.inl rfl
  | _ => exact Or.inl rfl

theorem sessionIdOr_lt {conn : Conn τ η} (hconn : conn.sessionId < 256 ^ 8) (random : Bytes) :
    conn.sessionIdOr random < 256 ^ 8 := by
  have hrandom : (random.sub 8 8).le < 256 ^ 8 := Bytes.field_lt random 8 8
  unfold Conn.sessionIdOr
  split
  · omega
  · exact hconn

theorem State.finish_tidy {s : State τ η} {hdr : Header} (hhdr : hdr.sessionId < 256 ^ 8)
    {conn : Conn τ η} (hconn : conn.sessionId < 256 ^ 8) (reply : Reply) (session : Option Bytes) :
    (s.finish hdr conn reply session).Tidy := by
  unfold State.finish
  dsimp only
  constructor
  · show (grantCredits _ _).sessionId < _
    unfold grantCredits
    dsimp only
    split
    · split
      · exact hconn
      · exact hconn
    · split
      · exact hconn
      · exact hconn
  · intro hdr' status hprev
    cases hprev
    split
    · exact hhdr
    · exact hhdr

theorem State.Tidy.request (env : Env τ η) {s : State τ η} (hs : s.Tidy) {p : Piece}
    (hp : p.hdr.sessionId < 256 ^ 8) (random : Bytes) : (s.request env p random).Tidy := by
  have hinherit : (inherit s.prev p.hdr).sessionId < 256 ^ 8 := by
    unfold inherit
    split
    · rename_i before status hprev
      split
      · dsimp only
        split
        · exact hs.prev before status hprev
        · exact hp
      · exact hp
    · exact hp
  unfold State.request
  dsimp only
  split
  · exact hs
  · split
    · exact ⟨hs.conn, hs.prev⟩
    · exact State.finish_tidy hinherit hs.conn _ _
    · exact State.finish_tidy hinherit hs.conn _ _
    · apply State.finish_tidy hinherit
      obtain hsame | hnew := handle_sessionId s.conn (inherit s.prev p.hdr) p.body random
      · exact hsame.trans_lt hs.conn
      · exact hnew.trans_lt (sessionIdOr_lt hs.conn random)

theorem grantOf_lt {credits : Nat} {hdr : Header} (h : hdr.credits < 256 ^ 2) :
    grantOf credits hdr < 256 ^ 2 := by
  unfold grantOf
  omega

theorem State.Tidy.response {s : State τ η} (hs : s.Tidy) {p : Piece} {raw : Bytes}
    (hp : parseHeader raw = some p.hdr) {random : Bytes}
    (hopen : (s.request env p random).closed = false) {r : Response}
    (hr : s.response env bodies p random = some r) : r.Tidy := by
  have hcommand := (toNat_of_parse hp).1
  have hread : p.hdr.credits = raw.field 14 2 ∧ p.hdr.messageId = raw.field 24 8 ∧
      p.hdr.sessionId = raw.field 40 8 := by
    unfold parseHeader at hp
    split at hp
    · cases hp
    · rw [← Option.some.inj hp]
      exact ⟨rfl, rfl, rfl⟩
  obtain ⟨hcredits, hmessage, hsession⟩ := hread
  have hnext := hs.request env (hsession.trans_lt (Bytes.field_lt raw 40 8)) random
  obtain ⟨treeId, sessionId, status, hprev⟩ := State.request_prev hopen
  have hlt := hnext.prev _ _ hprev
  unfold State.response at hr
  rw [hprev] at hr
  cases status with
  | none => cases hr
  | some status =>
      cases hr
      exact
        { command := hcommand.trans_lt (Bytes.field_lt raw 12 2)
          grant := grantOf_lt (hcredits.trans_lt (Bytes.field_lt raw 14 2))
          messageId := hmessage.trans_lt (Bytes.field_lt raw 24 8)
          sessionId := hlt }

theorem carryOut_tidy {random : Nat → Bytes} {ps : List Piece}
    (hps : ∀ p ∈ ps, ∃ raw, parseHeader raw = some p.hdr) :
    ∀ {i : Nat} {s : State τ η}, s.Tidy →
      (carryOut env bodies random i s ps).1.Tidy ∧
        ∀ r ∈ (carryOut env bodies random i s ps).2.filterMap Prod.snd, r.Tidy := by
  induction ps with
  | nil =>
      intro i s hs
      exact ⟨hs, fun r hr => absurd hr List.not_mem_nil⟩
  | cons p ps ih =>
      intro i s hs
      obtain ⟨raw, hraw⟩ := hps p List.mem_cons_self
      have hsession : p.hdr.sessionId < 256 ^ 8 := by
        unfold parseHeader at hraw
        split at hraw
        · cases hraw
        · rw [← Option.some.inj hraw]
          exact Bytes.field_lt raw 40 8
      have hnext := hs.request env hsession (random i)
      unfold carryOut
      dsimp only
      cases hclosed : (s.request env p (random i)).closed with
      | true => exact ⟨hnext, fun r hr => absurd hr List.not_mem_nil⟩
      | false =>
          rw [if_neg Bool.false_ne_true]
          obtain ⟨hlast, hrest⟩ := ih (fun p hp => hps p (List.mem_cons_of_mem _ hp)) hnext
          refine ⟨hlast, fun r hr => ?_⟩
          rw [List.filterMap_cons] at hr
          split at hr
          · exact hrest r hr
          · rename_i r' hr'
            rcases List.mem_cons.mp hr with rfl | hr
            · exact hs.response hraw hclosed hr'
            · exact hrest r hr

theorem State.Tidy.foreign (env : Env τ η) {s : State τ η} (hs : s.Tidy) (msg : Bytes) :
    (s.foreign env msg).Tidy := by
  obtain ⟨credits, heq⟩ := s.foreign_eq env msg
  rw [heq]
  exact ⟨hs.conn, hs.prev⟩

theorem Talk.send_tidy {x : Talk τ η} {s : State τ η} (hs : s.Tidy) (e : Exchange τ η)
    (out : Option Bytes) (sends : Bool) : (x.send env s e out sends).state.Tidy := by
  unfold Talk.send
  split
  · exact ⟨hs.conn, hs.prev⟩
  · exact ⟨hs.conn, hs.prev⟩

theorem State.Tidy.message (env : Env τ η) {s : State τ η} (hs : s.Tidy) : (next env s .message).Tidy :=
  ⟨hs.conn, fun _ _ h => nomatch h⟩

theorem Talk.receive_tidy {x : Talk τ η} (hx : x.state.Tidy) (a : Arrival) :
    (x.receive env bodies a).state.Tidy := by
  have hstart := hx.message env
  unfold Talk.receive
  split
  · exact hx
  split
  · have hforeign := hstart.foreign env a.msg
    unfold Talk.greet
    dsimp only
    split
    · exact ⟨hforeign.conn, hforeign.prev⟩
    · exact Talk.send_tidy hforeign _ _ _
  · unfold Talk.reply
    dsimp only
    have hrun : (x.run env bodies a).1.Tidy := (carryOut_tidy (fun p hp => exists_parse hp) hstart).1
    split
    · exact hrun
    split
    · exact ⟨hrun.conn, hrun.prev⟩
    split
    · exact ⟨hrun.conn, hrun.prev⟩
    · exact Talk.send_tidy hrun _ _ _

variable (env bodies) in
/-- A message gets its replies: the connection is open and stays so, the message is whole, it is to be
answered, its replies fit and can be signed, and the socket sends them. -/
structure Talk.Delivers (x : Talk τ η) (a : Arrival) : Prop where
  starts : x.state.closed = false
  stays : (x.run env bodies a).1.closed = false
  complete : complete a.msg.length a.msg = true
  due : x.due env bodies a ≠ []
  length : repliesLength (x.due env bodies a) < 256 ^ 3
  fits : ∀ r ∈ x.due env bodies a, r.Fits
  signs : ¬ Unsignable (x.run env bodies a).1.conn (x.due env bodies a)
  sends : a.sends = true

/-- A message gets its replies exactly under these conditions. If it does not, nothing is sent; and
the connection ends, unless the message has no end or nothing is due. -/
theorem answered_iff (hmacs : Macs env) {x : Talk τ η} (hx : (talks env bodies).Reached x) (a : Arrival)
    (hpieces : pieces a.msg.length a.msg ≠ []) :
    (x.Delivers env bodies a →
      (x.receive env bodies a).log =
        x.log ++ [.replies a.msg (x.run env bodies a).1.conn (x.run env bodies a).2]) ∧
    (¬ x.Delivers env bodies a →
      (x.receive env bodies a).log = x.log ∧ (x.receive env bodies a).frames = x.frames ∧
        (complete a.msg.length a.msg = true → x.due env bodies a ≠ [] →
          (x.receive env bodies a).state.closed = true)) := by
  have htidy : x.state.Tidy := by
    refine @System.ReachedWhen.invariant _ _ _ _ (fun x : Talk τ η => x.state.Tidy) ?_ ?_ x hx
    · rintro x rfl
      exact ⟨Nat.zero_lt_succ _, fun _ _ h => nomatch h⟩
    · rintro x a _ h - rfl
      exact Talk.receive_tidy h a
  obtain ⟨hrun, hdue⟩ : (x.run env bodies a).1.Tidy ∧ ∀ r ∈ x.due env bodies a, r.Tidy :=
    carryOut_tidy (fun p hp => exists_parse hp) (htidy.message env)
  have hframe := frame_isSome hmacs hrun.conn hdue
  by_cases hdelivers : x.Delivers env bodies a
  · refine ⟨fun _ => ?_, fun h => absurd hdelivers h⟩
    obtain ⟨frame, hsend⟩ := Option.isSome_iff_exists.mp
      (hframe.mpr ⟨hdelivers.length, hdelivers.fits, hdelivers.signs⟩)
    unfold Talk.receive
    rw [hdelivers.starts, if_neg Bool.false_ne_true, if_neg hpieces]
    unfold Talk.reply
    dsimp only
    rw [hdelivers.stays, if_neg Bool.false_ne_true, hdelivers.complete, if_neg (by decide),
      if_neg hdelivers.due]
    unfold Talk.send
    rw [hsend, hdelivers.sends]
  · refine ⟨fun h => absurd h hdelivers, fun _ => ?_⟩
    unfold Talk.receive
    split
    · rename_i hclosed
      exact ⟨rfl, rfl, fun _ _ => hclosed⟩
    rename_i hopen
    unfold Talk.reply
    dsimp only
    split
    · rename_i hclosed
      exact ⟨rfl, rfl, fun _ _ => hclosed⟩
    rename_i hstays
    split
    · rename_i hcut
      refine ⟨rfl, rfl, fun hcomplete => ?_⟩
      rw [hcomplete] at hcut
      cases hcut
    rename_i hcomplete
    split
    · rename_i hnone
      exact ⟨rfl, rfl, fun _ hsome => absurd hnone hsome⟩
    rename_i hsome
    unfold Talk.send
    split
    · rename_i frame hsend hsends
      have hall := hframe.mp (by
        rw [hsend]
        rfl)
      refine absurd ?_ hdelivers
      exact
        { starts := Bool.eq_false_of_not_eq_true hopen
          stays := Bool.eq_false_of_not_eq_true hstays
          complete := by simpa using hcomplete
          due := hsome
          length := hall.1
          fits := hall.2.1
          signs := hall.2.2
          sends := hsends }
    · exact ⟨rfl, rfl, fun _ _ => rfl⟩

/-- The compound gets its replies on a new connection. -/
theorem answered_iff_echoes :
    ((Talk.new : Talk Unit Unit).receive oneSigner fourBytes ⟨echoes, fun _ => [], true⟩).log =
      Talk.new.log ++ [.replies echoes
        ((Talk.new : Talk Unit Unit).run oneSigner fourBytes ⟨echoes, fun _ => [], true⟩).1.conn
        ((Talk.new : Talk Unit Unit).run oneSigner fourBytes ⟨echoes, fun _ => [], true⟩).2] :=
  (answered_iff macs_oneSigner (.init rfl) ⟨echoes, fun _ => [], true⟩ (by decide +kernel)).1
    { starts := rfl
      stays := by decide +kernel
      complete := by decide +kernel
      due := by decide +kernel
      length := by decide +kernel
      fits := by decide +kernel
      signs := by decide +kernel
      sends := rfl }

end Ps2Servers.Smb2
