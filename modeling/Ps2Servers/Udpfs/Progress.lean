import Mathlib.Data.Prod.Lex
import Ps2Servers.Udpfs.Waits

/-!
# Sessions come to rest

A transfer ends also when the console never answers: a wait is over after its time, and
there are not too many of them. So a session handles all that arrives for it, as long as
its thread runs and the clock goes on.
-/

namespace Ps2Servers.Udpfs

open Effects Runs

variable {H V B : Type}

/-! ## Transfers -/

section Transfers

variable {t : Transfer} {s : Sender}

def Sender.Ended (s : Sender) : Prop := ∃ result, s.phase = .ended result

/-- How much a transfer can still do when nothing is received: for every byte to send there may be
a full window that is waited for so many times. -/
def effort (t : Transfer) (s : Sender) : Nat :=
  match s.phase with
  | .sending => (t.data.length - s.offset) * 1000 + (2 * (MAX_WINDOW_RETRIES - s.retries) + 202)
  | .window oldAcked => (t.data.length - s.offset) * 1000 +
      if s.tx.acked = oldAcked then 2 * (MAX_WINDOW_RETRIES - s.retries) + 201 else 603
  | .final attempt => MAX_WINDOW_RETRIES - attempt + 1
  | .ended _ => 0

/-- A round of the sending loop sends a packet, starts to wait for a full window, or is the last. -/
theorem effort_work (hphase : s.phase = .sending) : effort t (s.next t .work).1 < effort t s := by
  have hchunk : 0 < t.chunk := by
    rcases t.chunk_cases with h | h | h <;> rw [h] <;> decide
  have hretries : MAX_WINDOW_RETRIES - s.retries ≤ 200 := Nat.sub_le _ _
  unfold Sender.next
  rw [hphase]
  dsimp only
  unfold sendRound
  by_cases hoffset : s.offset < t.data.length
  · rw [if_pos hoffset]
    by_cases hfull : SEND_WINDOW ≤ s.tx.inFlight
    · rw [if_pos hfull]
      simp [effort, hphase]
    · rw [if_neg hfull]
      have hzero : MAX_WINDOW_RETRIES - 0 = 200 := rfl
      simp only [effort, hphase, hzero]
      omega
  · rw [if_neg hoffset]
    simp only [effort, hphase]
    have hmax : MAX_WINDOW_RETRIES = 200 := rfl
    omega

theorem effort_afterWindow {oldAcked : Nat} (hphase : s.phase = .window oldAcked) :
    (afterWindow s oldAcked).Ended ∨ effort t (afterWindow s oldAcked) < effort t s := by
  have hmax : MAX_WINDOW_RETRIES = 200 := rfl
  unfold afterWindow
  by_cases hacked : s.tx.acked = oldAcked
  · rw [if_pos hacked]
    split
    · exact Or.inl ⟨_, rfl⟩
    · right
      simp only [effort, hphase]
      rw [if_pos hacked]
      omega
  · rw [if_neg hacked]
    right
    simp only [effort, hphase]
    rw [if_neg hacked]
    omega

theorem effort_tryAgain {attempt : Nat} (hphase : s.phase = .final attempt) (recent : Bool) :
    (tryAgain s attempt recent).1.Ended ∨ effort t (tryAgain s attempt recent).1 < effort t s := by
  unfold tryAgain
  split
  · exact Or.inl ⟨_, rfl⟩
  dsimp only
  split
  · right
    simp only [effort, hphase]
    omega
  · exact Or.inl ⟨_, rfl⟩

/-- A wait that is over ends the transfer, or less of it is left. -/
theorem effort_empty (hphase : s.phase ≠ .sending) (recent : Bool) :
    (s.next t (.empty recent)).1.Ended ∨ effort t (s.next t (.empty recent)).1 < effort t s := by
  unfold Sender.next
  cases h : s.phase with
  | sending => exact absurd h hphase
  | window oldAcked =>
      dsimp only
      split
      · exact effort_afterWindow h
      · exact effort_afterWindow (s := (retransmitFrom s _ recent).1) h
  | final attempt => exact effort_tryAgain h recent
  | ended result => exact Or.inl ⟨result, h⟩

/-- A packet that is put back ends the transfer. -/
theorem ended_of_putsBack {datagram : Bytes} (hphase : s.phase ≠ .sending)
    (hback : putsBack t datagram) (recent : Bool) : (s.next t (.packet datagram recent)).1.Ended := by
  obtain ⟨hlength, hkind⟩ := Bool.and_eq_true_iff.mp hback
  have hlength' : ¬ datagram.length < 6 := Nat.not_lt.mpr (of_decide_eq_true hlength)
  have hrequest : packetType datagram ≠ DISCOVERY →
      packetType datagram = DATA ∧ isResent t datagram = false ∧ 0 < payloadSize datagram := by
    intro hdiscovery
    simpa [hdiscovery, and_assoc] using hkind
  unfold Sender.next
  cases h : s.phase with
  | sending => exact absurd h hphase
  | ended result => exact ⟨result, h⟩
  | window oldAcked =>
      dsimp only
      unfold windowPacket
      rw [if_neg hlength']
      by_cases hdiscovery : packetType datagram = DISCOVERY
      · rw [if_pos hdiscovery]
        exact ⟨_, rfl⟩
      obtain ⟨hdata, hresent, hsize⟩ := hrequest hdiscovery
      rw [if_neg hdiscovery, if_neg (not_not.mpr hdata), hresent, if_neg Bool.false_ne_true]
      dsimp only
      split
      · exact ⟨_, rfl⟩
      · rw [if_neg hsize.ne']
        exact ⟨_, rfl⟩
  | final attempt =>
      dsimp only
      unfold finalPacket
      rw [if_neg hlength']
      by_cases hdiscovery : packetType datagram = DISCOVERY
      · rw [if_pos hdiscovery]
        exact ⟨_, rfl⟩
      obtain ⟨hdata, hresent, hsize⟩ := hrequest hdiscovery
      rw [if_neg hdiscovery, if_neg (not_not.mpr hdata), hresent, if_neg Bool.false_ne_true]
      dsimp only
      split
      · split
        · exact ⟨_, rfl⟩
        · exact ⟨_, rfl⟩
      · rw [if_neg hsize.ne']
        exact ⟨_, rfl⟩

end Transfers

/-! ## Sessions -/

/-- Enough for a reply that has not been started. -/
def replyEffort (reply : Bytes) : Nat := reply.length * 1000 + 603

/-- What the thread of a session can still do before it is idle. -/
def Worker.effort (k : Worker V B) : Nat :=
  match k.stage with
  | .idle => 0
  | .sending t offset retries phase pending =>
      1 + Udpfs.effort t ⟨k.tx, offset, retries, k.lastRetx, phase⟩ + (pending.map replyEffort).sum

theorem effort_transfers_lt (k : Worker V B) (pending : List Bytes) :
    (k.transfers pending).1.effort < 1 + (pending.map replyEffort).sum := by
  cases pending with
  | nil => exact Nat.one_pos
  | cons reply rest =>
      have hlength : (reply.drop 8).length ≤ reply.length := by simp
      have hzero : MAX_WINDOW_RETRIES - 0 = 200 := rfl
      simp only [Worker.transfers, Worker.sendTransfer, Worker.resume, startTransfer, Worker.effort,
        Udpfs.effort, hzero, List.map_cons, List.sum_cons, replyEffort]
      omega

/-- A step that ends a transfer, or leaves less of it, is one for the session. -/
theorem effort_step {k : Worker V B} {t : Transfer} {s : Sender} {pending : List Bytes} {i : Input}
    (h : (s.next t i).1.Ended ∨ effort t (s.next t i).1 < effort t s) :
    (k.step t s pending i).1.effort < 1 + effort t s + (pending.map replyEffort).sum := by
  unfold Worker.step
  generalize s.next t i = next at h
  obtain ⟨s', out⟩ := next
  dsimp only at h ⊢
  have hresume : (k.resume t s' pending).effort = 1 + effort t s' + (pending.map replyEffort).sum := rfl
  split
  · dsimp only
    have hlt := effort_transfers_lt (k.resume t s' pending) pending
    omega
  · rename_i hgoes
    have hless : effort t s' < effort t s := h.resolve_left fun ⟨result, he⟩ => hgoes result he
    dsimp only
    rw [hresume]
    omega

/-- What a session's thread can do before it is idle and has nothing to take. -/
def Worker.rank (k : Worker V B) : ℕ ×ₗ ℕ := toLex (k.inbox.length, k.effort)

def Worker.AtRest (k : Worker V B) : Prop := k.stage = .idle ∧ k.inbox = []

theorem rank_lt_of_taken {k k' k'' : Worker V B} {item : Bytes} (h : k.queueGet = some (item, k'))
    (hk : k''.inbox = k'.inbox) : k''.rank < k.rank := by
  obtain ⟨hinbox, -⟩ := queueGet_inbox h
  apply Prod.Lex.toLex_lt_toLex.mpr
  left
  dsimp only
  rw [hk, ← hinbox, List.length_cons]
  exact Nat.lt_succ_self _

theorem rank_lt_of_effort {k k' : Worker V B} (hinbox : k'.inbox.length = k.inbox.length)
    (heffort : k'.effort < k.effort) : k'.rank < k.rank :=
  Prod.Lex.toLex_lt_toLex.mpr (Or.inr ⟨hinbox, heffort⟩)

theorem effort_of_sending {k : Worker V B} {t : Transfer} {offset retries : Nat} {phase : Phase}
    {pending : List Bytes} (h : k.stage = .sending t offset retries phase pending) (rx : Nat) :
    k.effort = 1 + effort { t with rxExpected := rx } ⟨k.tx, offset, retries, k.lastRetx, phase⟩ +
      (pending.map replyEffort).sum := by
  unfold Worker.effort
  rw [h]
  rfl

theorem length_queuePushback (k : Worker V B) (item : Bytes) :
    (k.queuePushback item).inbox.length = k.inbox.length + 1 := by
  simp only [Worker.queuePushback, Worker.inbox, List.length_append, List.length_singleton]
  omega

/-- What a session that is not at rest waits for: its next round, or the end of a wait. -/
def Worker.waits (k : Worker V B) : Bool :=
  match k.stage with
  | .idle => false
  | .sending _ _ _ phase _ => phase ≠ .sending

variable {env : Env H V B} {s : Threads H V B} {addr : Addr}

theorem workers_next_work (s : Threads H V B) (addr : Addr) (recent : Bool) :
    (s.next env (.work addr recent)).workers addr = s.workers addr ∧
        ((s.workers addr).AtRest ∨ (s.workers addr).waits) ∨
      ((s.next env (.work addr recent)).workers addr).rank < (s.workers addr).rank := by
  unfold Threads.next Threads.round Threads.work
  dsimp only
  cases hstage : (s.workers addr).stage with
  | idle =>
      dsimp only
      cases hget : (s.workers addr).queueGet with
      | none => exact Or.inl ⟨rfl, Or.inl ⟨hstage, inbox_of_queueGet_none hget⟩⟩
      | some item =>
          obtain ⟨datagram, k⟩ := item
          obtain ⟨k', hqueue, hpushback, hworkers⟩ :=
            workers_handleData env s addr k datagram recent
          right
          dsimp only
          rw [hworkers, if_pos rfl]
          apply rank_lt_of_taken hget
          rw [Worker.inbox, hqueue, hpushback]
          rfl
  | sending t offset retries phase pending =>
      dsimp only
      by_cases hphase : phase = .sending
      · rw [if_pos hphase]
        right
        rw [workers_put, if_pos rfl]
        apply rank_lt_of_effort (congrArg List.length (Worker.kept_step _ _ _ _ _).inbox)
        rw [effort_of_sending hstage]
        exact effort_step (Or.inr (effort_work hphase))
      · rw [if_neg hphase]
        cases hget : (s.workers addr).queueGet with
        | none => exact Or.inl ⟨rfl, Or.inr (by simp [Worker.waits, hstage, hphase])⟩
        | some item =>
            obtain ⟨datagram, k⟩ := item
            obtain ⟨hinbox, -, hsession, htx, hretx, -⟩ := queueGet_inbox hget
            right
            dsimp only
            rw [workers_put, if_pos rfl]
            split
            · rename_i hback
              apply rank_lt_of_effort
              · have hkept := (Worker.kept_step k { t with
                  rxExpected := (s.workers addr).session.rxSeqNrExpected }
                  ⟨(s.workers addr).tx, offset, retries, (s.workers addr).lastRetx, phase⟩ pending
                  (.packet datagram recent)).inbox
                rw [← hinbox, length_queuePushback, hkept, List.length_cons]
              · rw [effort_of_sending hstage]
                exact effort_step (Or.inl (ended_of_putsBack hphase hback recent))
            · exact rank_lt_of_taken hget (Worker.kept_step _ _ _ _ _).inbox

theorem workers_next_timeout (s : Threads H V B) (addr : Addr) (recent : Bool) :
    (s.next env (.timeout addr recent)).workers addr = s.workers addr ∧ (s.workers addr).waits = false ∨
      ((s.next env (.timeout addr recent)).workers addr).rank < (s.workers addr).rank := by
  unfold Threads.next Threads.round Threads.timeout
  dsimp only
  cases hstage : (s.workers addr).stage with
  | idle => exact Or.inl ⟨rfl, by simp [Worker.waits, hstage]⟩
  | sending t offset retries phase pending =>
      dsimp only
      by_cases hphase : phase = .sending
      · rw [if_pos hphase]
        exact Or.inl ⟨rfl, by simp [Worker.waits, hstage, hphase]⟩
      · rw [if_neg hphase]
        right
        rw [workers_put, if_pos rfl]
        apply rank_lt_of_effort (congrArg List.length (Worker.kept_step _ _ _ _ _).inbox)
        rw [effort_of_sending hstage]
        exact effort_step (effort_empty hphase recent)

/-! ## Runs -/

/-- The first rounds of an endless run. -/
def firsts (rounds : ℕ → Round) (n : ℕ) : List Round := (List.range n).map rounds

theorem after_firsts_succ (s : Threads H V B) (rounds : ℕ → Round) (n : ℕ) :
    s.after env (firsts rounds (n + 1)) = (s.after env (firsts rounds n)).next env (rounds n) := by
  simp [Threads.after, firsts, List.range_succ]

/-- Nothing comes for the peer any more. -/
def Quiet (addr : Addr) : Round → Prop
  | .receive a _ => a ≠ addr
  | .discovery a _ _ => a ≠ addr
  | .gone a => a ≠ addr
  | _ => True

/-- The thread of the session runs, or the clock ends its waits. -/
def Runs (addr : Addr) (waits : Bool) : Round → Prop
  | .work a _ => a = addr ∧ waits = false
  | .timeout a _ => a = addr ∧ waits = true
  | _ => False

theorem workers_next_other (s : Threads H V B) {r : Round} (hquiet : Quiet addr r)
    (hothers : ∀ waits, ¬ Runs addr waits r) : (s.next env r).workers addr = s.workers addr := by
  cases r with
  | receive a datagram =>
      unfold Threads.next Threads.round Threads.routeData
      dsimp only
      split
      · rfl
      · exact if_neg (Ne.symm hquiet)
  | discovery a datagram repeated =>
      unfold Threads.next Threads.round Threads.discovery
      dsimp only
      split
      · rfl
      split
      · exact if_neg (Ne.symm hquiet)
      · rfl
  | work a recent => exact ((works env s a recent).others fun ha => hothers false ⟨ha.symm, rfl⟩).1
  | timeout a recent =>
      rcases timeout_kept env s a recent with hsame | ⟨k, -, hput⟩
      · rw [hsame]
      · rw [hput]
        exact if_neg fun ha => hothers true ⟨ha.symm, rfl⟩
  | gone a => exact if_neg (Ne.symm hquiet)

theorem rank_next (env : Env H V B) (s : Threads H V B) {r : Round} (hquiet : Quiet addr r) :
    (s.next env r).workers addr = s.workers addr ∨
      ((s.next env r).workers addr).rank < (s.workers addr).rank := by
  by_cases hruns : ∃ waits, Runs addr waits r
  · obtain ⟨waits, hruns⟩ := hruns
    cases r with
    | work a recent =>
        obtain ⟨rfl, -⟩ := hruns
        exact (workers_next_work s a recent).imp And.left id
    | timeout a recent =>
        obtain ⟨rfl, -⟩ := hruns
        exact (workers_next_timeout s a recent).imp And.left id
    | receive _ _ => exact hruns.elim
    | discovery _ _ _ => exact hruns.elim
    | gone _ => exact hruns.elim
  · exact Or.inl (workers_next_other s hquiet fun waits h => hruns ⟨waits, h⟩)

theorem rank_next_of_runs (s : Threads H V B) {r : Round} (hrest : ¬ (s.workers addr).AtRest)
    (hruns : Runs addr (s.workers addr).waits r) :
    ((s.next env r).workers addr).rank < (s.workers addr).rank := by
  cases r with
  | work a recent =>
      obtain ⟨rfl, hwaits⟩ := hruns
      rcases workers_next_work s a recent with ⟨-, h | h⟩ | h
      · exact absurd h hrest
      · rw [hwaits] at h
        cases h
      · exact h
  | timeout a recent =>
      obtain ⟨rfl, hwaits⟩ := hruns
      rcases workers_next_timeout s a recent with ⟨-, h⟩ | h
      · rw [hwaits] at h
        cases h
      · exact h
  | receive _ _ => exact hruns.elim
  | discovery _ _ _ => exact hruns.elim
  | gone _ => exact hruns.elim

theorem Worker.AtRest.rank_le {k : Worker V B} (h : k.AtRest) (k' : Worker V B) :
    ¬ k'.rank < k.rank := by
  intro hlt
  have hzero : k.rank = toLex (0, 0) := by
    unfold Worker.rank Worker.effort
    rw [h.1, h.2]
    rfl
  rw [hzero] at hlt
  have hcases := Prod.Lex.toLex_lt_toLex.mp hlt
  dsimp only at hcases
  omega

/-- The console opens the game, asks for a part of it and is not heard of again. -/
def silent : ℕ → Round
  | 0 => .receive console (dataPacket 0 (openRequest O_RDONLY "g"))
  | 1 => .receive console (dataPacket 1 (readRequest 1 4))
  | n + 2 => if n % 2 = 0 then .work console false else .timeout console false

end Ps2Servers.Udpfs
