import Ps2Servers.Udpfs.Threads

/-!
# Waits are not seen

In every run of the threads the files, the block device and the sessions are what they are
when each datagram is handled at once as a whole, in the order in which they are taken
from the queues. A wait loses no request and none overtakes another, although a wait
takes packets from the queue that it does not want.
-/

namespace Ps2Servers.Udpfs

open Effects Runs

variable {H V B : Type}

/-! ## Taking an item -/

section Queue

variable {k : Worker V B}

theorem queueGet_inbox {item : Bytes} {k' : Worker V B} (h : k.queueGet = some (item, k')) :
    item :: k'.inbox = k.inbox ∧ k'.pushback = k.pushback.tail ∧ k'.session = k.session ∧
      k'.tx = k.tx ∧ k'.lastRetx = k.lastRetx ∧ k'.stage = k.stage := by
  unfold Worker.queueGet at h
  unfold Worker.inbox
  cases hpushback : k.pushback with
  | cons first rest =>
      rw [hpushback] at h
      cases h
      exact ⟨rfl, rfl, rfl, rfl, rfl, rfl⟩
  | nil =>
      rw [hpushback] at h
      cases hqueue : k.queue with
      | nil =>
          rw [hqueue] at h
          cases h
      | cons first rest =>
          rw [hqueue] at h
          cases h
          simp

theorem inbox_of_queueGet_none (h : k.queueGet = none) : k.inbox = [] := by
  unfold Worker.queueGet at h
  unfold Worker.inbox
  cases hpushback : k.pushback with
  | cons first rest =>
      rw [hpushback] at h
      cases h
  | nil =>
      rw [hpushback] at h
      cases hqueue : k.queue with
      | nil => rfl
      | cons first rest =>
          rw [hqueue] at h
          cases h

/-- What is put back is taken next, if nothing else has been put back. -/
theorem inbox_queuePushback (h : k.pushback = []) (item : Bytes) :
    (k.queuePushback item).inbox = item :: k.inbox := by
  simp [Worker.queuePushback, Worker.inbox, h]

end Queue

/-! ## What the transport leaves alone -/

/-- The session and what waits for it are the same. -/
structure Worker.Kept (k k' : Worker V B) : Prop where
  session : k'.session = k.session
  queue : k'.queue = k.queue
  pushback : k'.pushback = k.pushback

namespace Worker

variable {k k' k'' : Worker V B}

theorem Kept.refl (k : Worker V B) : k.Kept k := ⟨rfl, rfl, rfl⟩

theorem Kept.trans (h : k.Kept k') (h' : k'.Kept k'') : k.Kept k'' :=
  ⟨h'.session.trans h.session, h'.queue.trans h.queue, h'.pushback.trans h.pushback⟩

theorem Kept.inbox (h : k.Kept k') : k'.inbox = k.inbox := by
  rw [Worker.inbox, h.pushback, h.queue]
  rfl

theorem kept_transfers (k : Worker V B) (pending : List Bytes) : k.Kept (k.transfers pending).1 := by
  cases pending <;> exact ⟨rfl, rfl, rfl⟩

theorem kept_replies (k : Worker V B) (replies : List Bytes) : k.Kept (k.replies replies).1 := by
  have hrun : ∀ r : Worker V B × List Bytes, k.Kept r.1 →
      k.Kept (replies.foldl (fun r reply =>
        ((r.1.sendData reply).1, r.2 ++ (r.1.sendData reply).2)) r).1 := by
    induction replies with
    | nil => exact fun _ h => h
    | cons reply rest ih => exact fun r h => ih _ (h.trans ⟨rfl, rfl, rfl⟩)
  exact hrun _ (Kept.refl k)

theorem kept_answer (k : Worker V B) (payload : Bytes) (replies : List Bytes) :
    k.Kept (k.answer payload replies).1 := by
  unfold Worker.answer
  split
  · exact kept_transfers k replies
  · exact kept_replies k replies

theorem kept_step (k : Worker V B) (t : Transfer) (s : Sender) (pending : List Bytes) (i : Input) :
    k.Kept (k.step t s pending i).1 := by
  unfold Worker.step
  dsimp only
  split
  · have hresumed : k.Kept (k.resume t (s.next t i).1 pending) := ⟨rfl, rfl, rfl⟩
    exact hresumed.trans (kept_transfers _ _)
  · exact ⟨rfl, rfl, rfl⟩

end Worker

/-! ## Packets that are no requests -/

/-- A packet that a wait does not put back is no request to the session. -/
theorem acceptedPayload_of_not_putsBack {session : Session V B} {t : Transfer} {datagram : Bytes}
    (h : putsBack { t with rxExpected := session.rxSeqNrExpected } datagram = false) :
    acceptedPayload session datagram = none := by
  unfold acceptedPayload
  dsimp only
  split
  · rfl
  rename_i hdata
  obtain ⟨hlength, htype, hsize⟩ : 6 ≤ datagram.length ∧ packetType datagram = DATA ∧
      0 < payloadSize datagram := by
    refine ⟨?_, ?_, ?_⟩
    · by_contra hlt
      exact hdata (Or.inl (Nat.lt_of_not_le hlt))
    · by_contra hne
      exact hdata (Or.inr (Or.inl hne))
    · exact Nat.pos_of_ne_zero fun hzero => hdata (Or.inr (Or.inr hzero))
  -- it is a copy of the last request, which has the number before the expected one
  have hresent : seqNr datagram = ringSub session.rxSeqNrExpected 1 := by
    have hback := h
    simp only [putsBack, isResent, Bool.and_eq_false_iff, Bool.or_eq_false_iff,
      decide_eq_false_iff_not] at hback
    rcases hback with hback | ⟨-, (hback | hback) | hback⟩
    · exact absurd hlength hback
    · exact absurd htype hback
    · have hcopy : (decide (0 < payloadSize datagram) &&
          decide (seqNr datagram = ringSub session.rxSeqNrExpected 1)) = true := by
        simpa using hback
      exact of_decide_eq_true (Bool.and_eq_true_iff.mp hcopy).2
    · exact absurd hsize hback
  have hlast : ringSub session.rxSeqNrExpected 1 = (session.rxSeqNrExpected + 0xfff) % 0x1000 := by
    unfold ringSub
    omega
  have hlt : seqNr datagram < 0x1000 := by
    rw [hresent, hlast]
    exact Nat.mod_lt _ (by decide)
  rw [if_neg (by omega), if_pos (hresent.trans hlast)]

/-- The session of a request that is accepted. -/
def Session.expecting (session : Session V B) (n : Nat) : Session V B :=
  { session with rxSeqNrExpected := n }

/-- `_handle_data` accepts a request and expects the next number, or it leaves the session alone. -/
theorem accept_cases (k : Worker V B) (datagram : Bytes) (recent : Bool) :
    (∃ payload, acceptedPayload k.session datagram = some payload ∧
      (k.accept datagram recent).2.2 = some payload ∧
      Worker.Kept { k with session := k.session.expecting ((seqNr datagram + 1) % 0x1000) }
        (k.accept datagram recent).1) ∨
    acceptedPayload k.session datagram = none ∧ (k.accept datagram recent).2.2 = none ∧
      k.Kept (k.accept datagram recent).1 := by
  unfold acceptedPayload Worker.accept
  dsimp only
  by_cases hdata : datagram.length < 6 ∨ packetType datagram ≠ DATA
  · have hnone : datagram.length < 6 ∨ packetType datagram ≠ DATA ∨ payloadSize datagram = 0 :=
      hdata.imp id Or.inl
    rw [if_pos hdata, if_pos hnone]
    exact Or.inr ⟨rfl, rfl, Worker.Kept.refl k⟩
  rw [if_neg hdata]
  generalize hacked : (if dataFlags datagram % 2 = ACK then
    { k with tx := k.tx.acknowledge (ackNr datagram) } else k) = acked
  have hkept : k.Kept acked := by
    rw [← hacked]
    split <;> exact ⟨rfl, rfl, rfl⟩
  by_cases hsize : payloadSize datagram = 0
  · rw [if_pos hsize, if_pos (Or.inr (Or.inr hsize))]
    refine Or.inr ⟨rfl, ?_⟩
    split
    · exact ⟨rfl, hkept⟩
    · exact ⟨rfl, hkept.trans ⟨rfl, rfl, rfl⟩⟩
  rw [if_neg hsize, if_neg (by tauto), hkept.session]
  by_cases hnext : seqNr datagram = k.session.rxSeqNrExpected
  · rw [if_pos hnext, if_pos hnext, hnext]
    exact Or.inl ⟨_, rfl, rfl, rfl, hkept.queue, hkept.pushback⟩
  have hlast : ringSub k.session.rxSeqNrExpected 1 = (k.session.rxSeqNrExpected + 0xfff) % 0x1000 := by
    unfold ringSub
    omega
  rw [if_neg hnext, if_neg hnext, hlast]
  by_cases hcopy : seqNr datagram = (k.session.rxSeqNrExpected + 0xfff) % 0x1000
  · rw [if_pos hcopy, if_pos hcopy]
    refine Or.inr ⟨rfl, ?_⟩
    split
    · exact ⟨rfl, hkept⟩
    · exact ⟨rfl, hkept.trans ⟨rfl, rfl, rfl⟩⟩
  rw [if_neg hcopy, if_neg hcopy]
  by_cases hreset : seqNr datagram = 0
  · rw [if_pos hreset, if_pos hreset, hreset]
    exact Or.inl ⟨_, rfl, rfl, rfl, hkept.queue, hkept.pushback⟩
  · rw [if_neg hreset, if_neg hreset]
    exact Or.inr ⟨rfl, rfl, hkept⟩

theorem final_handleData_of_none {env : Env H V B} {w : World H V B} {datagram : Bytes}
    (h : acceptedPayload w.session datagram = none) : final (handleData env datagram w) = w := by
  unfold handleData
  rw [get_bind, h]
  rfl

theorem final_handleData_of_some (env : Env H V B) {w : World H V B} {datagram payload : Bytes}
    (h : acceptedPayload w.session datagram = some payload) :
    final (handleData env datagram w) =
      if payload = [] then w.expecting ((seqNr datagram + 1) % 0x1000)
      else final (handleMessage env payload (w.expecting ((seqNr datagram + 1) % 0x1000))) := by
  unfold handleData
  rw [get_bind, h]
  dsimp only
  rw [bind_ok (set_apply _ _)]
  split <;> rfl

/-! ## What a round stands for -/

/-- The threads have the files, the block device and the sessions of the server. -/
structure Agrees (s : Threads H V B) (t : Server H V B) : Prop where
  host : s.host = t.host
  bd : s.bd = t.bd
  session : ∀ addr, (s.workers addr).session = t.session addr

variable {env : Env H V B} {s : Threads H V B} {t : Server H V B} {addr : Addr} {k : Worker V B}
  {datagram : Bytes}

theorem Agrees.world (h : Agrees s t) (addr : Addr) :
    t.world addr = ⟨s.host, s.bd, (s.workers addr).session, []⟩ := by
  rw [h.host, h.bd, h.session]
  rfl

@[simp] theorem workers_put (s : Threads H V B) (addr a : Addr) (k : Worker V B) :
    (s.put addr k).workers a = if a = addr then k else s.workers a := rfl

theorem Agrees.put (h : Agrees s t) (hk : k.session = (s.workers addr).session) :
    Agrees (s.put addr k) t := by
  refine ⟨h.host, h.bd, fun a => ?_⟩
  rw [workers_put, ← h.session a]
  split
  · rename_i ha
    rw [hk, ha]
  · rfl

/-- A handler that has run in the thread of a session has run in the server. -/
theorem Agrees.run (h : Agrees s t) {s' : Threads H V B} {handler : Handler H V B Unit}
    {w : World H V B} (hw : final (handler (t.world addr)) = w) (hhost : s'.host = w.host)
    (hbd : s'.bd = w.bd) (hself : (s'.workers addr).session = w.session)
    (hothers : ∀ a, a ≠ addr → (s'.workers a).session = (s.workers a).session) :
    Agrees s' (t.run addr handler).1 := by
  subst hw
  refine ⟨hhost, hbd, fun a => ?_⟩
  by_cases ha : a = addr
  · rw [ha, hself, session_run_self]
  · rw [session_run_of_ne t ha, hothers a ha, h.session a]

/-- A datagram without a request leaves the server as it is. -/
theorem Agrees.data_of_none (h : Agrees s t)
    (hnone : acceptedPayload (s.workers addr).session datagram = none) :
    Agrees s (t.next env (.data addr datagram)) := by
  have hworld := h.world addr
  have hidle : final (handleData env datagram (t.world addr)) = t.world addr := by
    apply final_handleData_of_none
    rw [hworld]
    exact hnone
  rw [Server.next.eq_1]
  split
  · exact h
  · exact h.run hidle (by rw [hworld]) (by rw [hworld]) (by rw [hworld]) fun _ _ => rfl

/-- The thread of an idle session handles a datagram as the server does. -/
theorem Agrees.handleData (h : Agrees s t) (hsession : k.session = (s.workers addr).session)
    (recent : Bool) :
    Agrees (s.handleData env addr k datagram recent).1 (t.next env (.data addr datagram)) := by
  have hworld := h.world addr
  unfold Threads.handleData
  rcases accept_cases k datagram recent with ⟨payload, hpayload, haccept, hkept⟩ | ⟨hnone, haccept, hkept⟩
  · generalize k.accept datagram recent = accepted at haccept hkept
    obtain ⟨k', out, message⟩ := accepted
    dsimp only at haccept hkept
    subst haccept
    have hdatagram : ¬ (datagram.length < 2 ∨ packetType datagram ≠ DATA) := by
      intro hskip
      unfold acceptedPayload at hpayload
      rw [if_pos (hskip.imp (fun h => by omega) Or.inl)] at hpayload
      cases hpayload
    rw [Server.next.eq_1, if_neg hdatagram]
    have hmessage : acceptedPayload (t.world addr).session datagram = some payload := by
      rw [hworld, ← hsession]
      exact hpayload
    have hsame : ∀ a k', a ≠ addr → ((s.put addr k').workers a).session = (s.workers a).session := by
      intro a k' ha
      rw [workers_put, if_neg ha]
    have hexpecting : k'.session =
        ((t.world addr).expecting ((seqNr datagram + 1) % 0x1000)).session := by
      rw [hkept.session, hworld, hsession]
      rfl
    have hfinal := final_handleData_of_some env hmessage
    cases payload with
    | nil =>
        refine h.run (hfinal.trans (if_pos rfl)) ?_ ?_ ?_ fun a => hsame a _
        · rw [hworld]
          rfl
        · rw [hworld]
          rfl
        · dsimp only
          rw [workers_put, if_pos rfl, hexpecting]
    | cons type rest =>
        have hstart : (⟨s.host, s.bd, k'.session, []⟩ : World H V B) =
            (t.world addr).expecting ((seqNr datagram + 1) % 0x1000) := by
          rw [hexpecting, hworld]
          rfl
        dsimp only
        rw [hstart]
        refine h.run (hfinal.trans (if_neg (List.cons_ne_nil _ _))) rfl rfl ?_ fun a => hsame a _
        rw [workers_put, if_pos rfl, (Worker.kept_answer _ _ _).session]
  · generalize k.accept datagram recent = accepted at haccept hkept
    obtain ⟨k', out, message⟩ := accepted
    dsimp only at haccept hkept
    subst haccept
    have hput : Agrees (s.put addr k') t := h.put (hkept.session.trans hsession)
    refine hput.data_of_none ?_
    rw [workers_put, if_pos rfl, hkept.session]
    exact hnone

/-- What waits for the session stays, and so do the other sessions. -/
theorem workers_handleData (env : Env H V B) (s : Threads H V B) (addr : Addr) (k : Worker V B)
    (datagram : Bytes) (recent : Bool) : ∃ k', k'.queue = k.queue ∧ k'.pushback = k.pushback ∧
      ∀ a, (s.handleData env addr k datagram recent).1.workers a =
        if a = addr then k' else s.workers a := by
  have hkept : (k.accept datagram recent).1.queue = k.queue ∧
      (k.accept datagram recent).1.pushback = k.pushback := by
    rcases accept_cases k datagram recent with ⟨_, -, -, h⟩ | ⟨-, -, h⟩
    · exact ⟨h.queue, h.pushback⟩
    · exact ⟨h.queue, h.pushback⟩
  unfold Threads.handleData
  generalize k.accept datagram recent = accepted at hkept
  obtain ⟨k', out, message⟩ := accepted
  cases message with
  | none => exact ⟨k', hkept.1, hkept.2, fun a => rfl⟩
  | some payload =>
      cases payload with
      | nil => exact ⟨k', hkept.1, hkept.2, fun a => rfl⟩
      | cons type rest =>
          refine ⟨_, ?_, ?_, fun a => rfl⟩
          · exact (Worker.kept_answer _ _ _).queue.trans hkept.1
          · exact (Worker.kept_answer _ _ _).pushback.trans hkept.2

/-- What a round of a session's thread does: nothing, or a step of its transfer that takes no
datagram, or one is taken and handled, or dropped, or put back. -/
inductive Works (env : Env H V B) (s : Threads H V B) (addr : Addr) : Threads H V B → List Event → Prop
  | rest : Works env s addr s []
  | step (k : Worker V B) (hk : (s.workers addr).Kept k) : Works env s addr (s.put addr k) []
  | handle (datagram : Bytes) (k : Worker V B) (recent : Bool)
      (hget : (s.workers addr).queueGet = some (datagram, k)) :
      Works env s addr (s.handleData env addr k datagram recent).1 [.data addr datagram]
  | drop (datagram : Bytes) (k k' : Worker V B) (hget : (s.workers addr).queueGet = some (datagram, k))
      (hk : k.Kept k') (hnone : acceptedPayload k.session datagram = none) :
      Works env s addr (s.put addr k') [.data addr datagram]
  | putBack (datagram : Bytes) (k k' : Worker V B)
      (hget : (s.workers addr).queueGet = some (datagram, k)) (hk : k.Kept k') :
      Works env s addr (s.put addr (k'.queuePushback datagram)) []

theorem works (env : Env H V B) (s : Threads H V B) (addr : Addr) (recent : Bool) :
    Works env s addr (s.next env (.work addr recent)) (s.stands (.work addr recent)) := by
  unfold Threads.next Threads.round Threads.stands Threads.work
  dsimp only
  cases hstage : (s.workers addr).stage with
  | idle =>
      cases hget : (s.workers addr).queueGet with
      | none => exact .rest
      | some item => exact .handle item.1 item.2 recent hget
  | sending t offset retries phase pending =>
      dsimp only
      by_cases hphase : phase = .sending
      · rw [if_pos hphase]
        have hstep : (s.workers addr).Kept _ := Worker.kept_step (s.workers addr)
          { t with rxExpected := (s.workers addr).session.rxSeqNrExpected }
          ⟨(s.workers addr).tx, offset, retries, (s.workers addr).lastRetx, phase⟩ pending .work
        cases hget : (s.workers addr).queueGet with
        | none => exact .step _ hstep
        | some item =>
            dsimp only
            rw [if_pos (Or.inl hphase)]
            exact .step _ hstep
      · rw [if_neg hphase]
        cases hget : (s.workers addr).queueGet with
        | none => exact .rest
        | some item =>
            obtain ⟨datagram, k⟩ := item
            obtain ⟨-, -, hsession, -⟩ := queueGet_inbox hget
            dsimp only
            rw [← hsession]
            cases hback : putsBack { t with rxExpected := k.session.rxSeqNrExpected } datagram with
            | true =>
                rw [if_pos rfl, if_pos (Or.inr rfl)]
                exact .putBack datagram k _ hget (Worker.kept_step _ _ _ _ _)
            | false =>
                rw [if_neg Bool.false_ne_true, if_neg (by simp [hphase])]
                exact .drop datagram k _ hget (Worker.kept_step _ _ _ _ _)
                  (acceptedPayload_of_not_putsBack hback)

theorem Agrees.work (h : Agrees s t) {s' : Threads H V B} {events : List Event}
    (hw : Works env s addr s' events) : Agrees s' (events.foldl (Server.next env) t) := by
  cases hw with
  | rest => exact h
  | step k hk => exact h.put hk.session
  | handle datagram k recent hget =>
      obtain ⟨-, -, hsession, -⟩ := queueGet_inbox hget
      exact h.handleData hsession recent
  | drop datagram k k' hget hk hnone =>
      obtain ⟨-, -, hsession, -⟩ := queueGet_inbox hget
      have hput : Agrees (s.put addr k') t := h.put (hk.session.trans hsession)
      refine hput.data_of_none ?_
      rw [workers_put, if_pos rfl, hk.session]
      exact hnone
  | putBack datagram k k' hget hk =>
      obtain ⟨-, -, hsession, -⟩ := queueGet_inbox hget
      exact h.put (hk.session.trans hsession)

theorem Agrees.discovery (h : Agrees s t) (addr : Addr) (datagram : Bytes) (repeated : Bool) :
    Agrees (s.discovery env addr datagram repeated) (t.next env (.discovery addr datagram repeated)) := by
  have hworld := h.world addr
  rw [Server.next.eq_2]
  unfold Threads.discovery
  dsimp only
  split
  · exact h
  have hfinal : final (handleDiscovery env datagram repeated (t.world addr)) =
      if env.cfg.moduloCompat && !repeated then
        (t.world addr).expecting ((seqNr datagram + 1) % 0x1000) else t.world addr := rfl
  split
  · rename_i hmodulo
    rw [if_pos hmodulo] at hfinal
    refine h.run hfinal ?_ ?_ ?_ fun a ha => ?_
    · rw [hworld]
      rfl
    · rw [hworld]
      rfl
    · rw [workers_put, if_pos rfl, hworld]
      rfl
    · rw [workers_put, if_neg ha]
  · rename_i hmodulo
    rw [if_neg hmodulo] at hfinal
    exact h.run hfinal (by rw [hworld]) (by rw [hworld]) (by rw [hworld]) fun _ _ => rfl

theorem Agrees.gone (h : Agrees s t) (env : Env H V B) (addr : Addr) :
    Agrees (s.put addr Worker.new) (t.next env (.gone addr)) := by
  refine ⟨h.host, h.bd, fun a => ?_⟩
  rw [workers_put, Server.next.eq_3]
  unfold Server.session
  dsimp only
  split
  · rfl
  · exact h.session a

theorem timeout_kept (env : Env H V B) (s : Threads H V B) (addr : Addr) (recent : Bool) :
    s.next env (.timeout addr recent) = s ∨
      ∃ k, (s.workers addr).Kept k ∧ s.next env (.timeout addr recent) = s.put addr k := by
  unfold Threads.next Threads.round Threads.timeout
  dsimp only
  cases (s.workers addr).stage with
  | idle => exact Or.inl rfl
  | sending t offset retries phase pending =>
      dsimp only
      split
      · exact Or.inl rfl
      · exact Or.inr ⟨_, Worker.kept_step _ _ _ _ _, rfl⟩

/-- A round does what its events do. -/
theorem Agrees.next (h : Agrees s t) (r : Round) :
    Agrees (s.next env r) ((s.stands r).foldl (Server.next env) t) := by
  cases r with
  | receive addr datagram =>
      unfold Threads.next Threads.round Threads.routeData
      dsimp only
      split
      · exact h
      · exact h.put rfl
  | discovery addr datagram repeated => exact h.discovery addr datagram repeated
  | work addr recent => exact h.work (works env s addr recent)
  | timeout addr recent =>
      rcases timeout_kept env s addr recent with hsame | ⟨k, hk, hput⟩
      · rw [hsame]
        exact h
      · rw [hput]
        exact h.put hk.session
  | gone addr => exact h.gone env addr

/-! ## What has arrived, and what has been handled -/

/-- The datagrams that have been put into the queue of a peer's session since it is there. -/
def Round.received (addr : Addr) (before : List Bytes) : Round → List Bytes
  | .receive a datagram =>
      if a = addr ∧ ¬ (datagram.length < 2 ∨ packetType datagram ≠ DATA) then before ++ [datagram]
      else before
  | .gone a => if a = addr then [] else before
  | _ => before

/-- The datagrams that a peer's session has handled since it is there. -/
def Event.handled (addr : Addr) (before : List Bytes) : Event → List Bytes
  | .data a datagram => if a = addr then before ++ [datagram] else before
  | .gone a => if a = addr then [] else before
  | .discovery _ _ _ => before

/-- At most one packet of each session has been put back. -/
def Threads.Single (s : Threads H V B) : Prop := ∀ addr, (s.workers addr).pushback.length ≤ 1

/-- What a session has handled and what it has not taken yet is what has arrived. -/
def Accounted (s : Threads H V B) (addr : Addr) (handled received : List Bytes) : Prop :=
  handled ++ (s.workers addr).inbox = received

/-- The round of a session's thread: nothing is lost, and one packet at most has been put back. -/
theorem Works.accounted {s' : Threads H V B} {events : List Event} (hw : Works env s addr s' events)
    (hsingle : (s.workers addr).pushback.length ≤ 1) {handled received : List Bytes}
    (h : Accounted s addr handled received) :
    Accounted s' addr (events.foldl (Event.handled addr) handled) received ∧
      (s'.workers addr).pushback.length ≤ 1 := by
  unfold Accounted at *
  cases hw with
  | rest => exact ⟨h, hsingle⟩
  | step k hk =>
      rw [workers_put, if_pos rfl, hk.inbox, hk.pushback]
      exact ⟨h, hsingle⟩
  | handle datagram k recent hget =>
      obtain ⟨hinbox, hpushback, -⟩ := queueGet_inbox hget
      obtain ⟨k', hqueue', hpushback', hworkers⟩ := workers_handleData env s addr k datagram recent
      have hinbox' : k'.inbox = k.inbox := by
        rw [Worker.inbox, hqueue', hpushback']
        rfl
      rw [hworkers, if_pos rfl, hinbox', hpushback', hpushback, List.length_tail]
      refine ⟨?_, by omega⟩
      rw [← h, ← hinbox, List.foldl_cons, List.foldl_nil, Event.handled, if_pos rfl, List.append_assoc]
      rfl
  | drop datagram k k' hget hk hnone =>
      obtain ⟨hinbox, hpushback, -⟩ := queueGet_inbox hget
      rw [workers_put, if_pos rfl, hk.inbox, hk.pushback, hpushback, List.length_tail]
      refine ⟨?_, by omega⟩
      rw [← h, ← hinbox, List.foldl_cons, List.foldl_nil, Event.handled, if_pos rfl, List.append_assoc]
      rfl
  | putBack datagram k k' hget hk =>
      obtain ⟨hinbox, hpushback, -⟩ := queueGet_inbox hget
      have hempty : k'.pushback = [] := by
        rw [hk.pushback, hpushback]
        apply List.eq_nil_of_length_eq_zero
        rw [List.length_tail]
        omega
      rw [workers_put, if_pos rfl, inbox_queuePushback hempty, hk.inbox, hinbox]
      refine ⟨h, ?_⟩
      rw [Worker.queuePushback, hempty]
      exact Nat.le_refl 1

theorem Works.others {s' : Threads H V B} {events : List Event} (hw : Works env s addr s' events)
    {a : Addr} (hne : a ≠ addr) :
    s'.workers a = s.workers a ∧ ∀ before, events.foldl (Event.handled a) before = before := by
  cases hw with
  | rest => exact ⟨rfl, fun _ => rfl⟩
  | step k hk => exact ⟨if_neg hne, fun _ => rfl⟩
  | handle datagram k recent hget =>
      obtain ⟨k', -, -, hworkers⟩ := workers_handleData env s addr k datagram recent
      exact ⟨(hworkers a).trans (if_neg hne), fun before => if_neg (Ne.symm hne)⟩
  | drop datagram k k' hget hk hnone => exact ⟨if_neg hne, fun before => if_neg (Ne.symm hne)⟩
  | putBack datagram k k' hget hk => exact ⟨if_neg hne, fun _ => rfl⟩

theorem waiting_discovery (env : Env H V B) (s : Threads H V B) (addr : Addr) (datagram : Bytes)
    (repeated : Bool) (a : Addr) :
    ((s.discovery env addr datagram repeated).workers a).inbox = (s.workers a).inbox ∧
      ((s.discovery env addr datagram repeated).workers a).pushback = (s.workers a).pushback := by
  unfold Threads.discovery
  dsimp only
  split
  · exact ⟨rfl, rfl⟩
  split
  · rw [workers_put]
    split
    · rename_i ha
      subst ha
      exact ⟨rfl, rfl⟩
    · exact ⟨rfl, rfl⟩
  · exact ⟨rfl, rfl⟩

/-- Every round keeps the accounts of every session. -/
theorem accounted_next (hsingle : s.Single) (r : Round) {a : Addr} {handled received : List Bytes}
    (h : Accounted s a handled received) :
    Accounted (s.next env r) a ((s.stands r).foldl (Event.handled a) handled) (r.received a received) ∧
      ((s.next env r).workers a).pushback.length ≤ 1 := by
  cases r with
  | receive addr datagram =>
      unfold Threads.next Threads.round Threads.routeData Round.received
      dsimp only
      split
      · rename_i hskip
        rw [if_neg fun hroute => hroute.2 hskip]
        exact ⟨h, hsingle a⟩
      · rename_i hroute
        by_cases ha : addr = a
        · subst ha
          rw [if_pos ⟨rfl, hroute⟩]
          refine ⟨?_, ?_⟩
          · unfold Accounted Worker.inbox at *
            rw [workers_put, if_pos rfl, ← h]
            simp [Threads.stands]
          · rw [workers_put, if_pos rfl]
            exact hsingle addr
        · rw [if_neg fun hroute => ha hroute.1]
          unfold Accounted at *
          rw [workers_put, if_neg (Ne.symm ha)]
          exact ⟨h, hsingle a⟩
  | discovery addr datagram repeated =>
      obtain ⟨hinbox, hpushback⟩ := waiting_discovery env s addr datagram repeated a
      unfold Accounted at *
      rw [Threads.next, Threads.round, hinbox, hpushback]
      exact ⟨h, hsingle a⟩
  | work addr recent =>
      by_cases ha : a = addr
      · subst ha
        exact (works env s a recent).accounted (hsingle a) h
      · obtain ⟨hsame, hevents⟩ := (works env s addr recent).others ha
        unfold Accounted at *
        rw [hsame, hevents]
        exact ⟨h, hsingle a⟩
  | timeout addr recent =>
      rcases timeout_kept env s addr recent with hsame | ⟨k, hk, hput⟩
      · rw [hsame]
        exact ⟨h, hsingle a⟩
      · rw [hput]
        unfold Accounted at *
        rw [workers_put]
        split
        · rename_i ha
          rw [hk.inbox, hk.pushback, ← ha]
          exact ⟨h, hsingle a⟩
        · exact ⟨h, hsingle a⟩
  | gone addr =>
      unfold Accounted at *
      rw [Threads.next, Threads.round, workers_put]
      unfold Round.received
      dsimp only
      by_cases ha : a = addr
      · subst ha
        rw [if_pos rfl]
        refine ⟨?_, Nat.zero_le _⟩
        simp [Threads.stands, Event.handled, Worker.new, Worker.inbox]
      · rw [if_neg ha, if_neg (Ne.symm ha)]
        refine ⟨?_, hsingle a⟩
        rw [← h]
        simp [Threads.stands, Event.handled, Ne.symm ha]

theorem Threads.Single.next (h : s.Single) (r : Round) : (s.next env r).Single := fun a =>
  (accounted_next h r (show Accounted s a [] (s.workers a).inbox from rfl)).2

theorem accounted_run (hsingle : s.Single) {a : Addr} {handled received : List Bytes}
    (h : Accounted s a handled received) (rounds : List Round) :
    (s.after env rounds).Single ∧ Accounted (s.after env rounds) a
      ((emitted (Threads.next env) Threads.stands s rounds).foldl (Event.handled a) handled)
      (rounds.foldl (Round.received a) received) := by
  induction rounds generalizing s handled received with
  | nil => exact ⟨hsingle, h⟩
  | cons r rest ih =>
      rw [emitted, List.foldl_append]
      exact ih (hsingle.next r) (accounted_next hsingle r h).1

/-- The events that a run of the threads stands for. -/
def standsFor (env : Env H V B) (s : Threads H V B) (rounds : List Round) : List Event :=
  emitted (Threads.next env) Threads.stands s rounds

/-- The accounts of a server that nobody has talked to before. -/
theorem accounted_after (env : Env H V B) (host : H) (bd : Option Inode) (rounds : List Round)
    (addr : Addr) :
    ((Threads.new host bd : Threads H V B).after env rounds).Single ∧
      Accounted ((Threads.new host bd).after env rounds) addr
        ((standsFor env (Threads.new host bd) rounds).foldl (Event.handled addr) [])
        (rounds.foldl (Round.received addr) []) := by
  apply accounted_run
  · exact fun _ => Nat.zero_le _
  · rfl

/-- The threads do what the server does that handles each datagram as a whole when it is taken; and
each session takes what has arrived for it, once and in order. -/
theorem waits_unseen (env : Env H V B) (host : H) (bd : Option Inode) (rounds : List Round) :
    let s := (Threads.new host bd).after env rounds
    let events := standsFor env (Threads.new host bd) rounds
    Agrees s ((Server.new host bd).after env events) ∧ ∀ addr,
      events.foldl (Event.handled addr) [] ++ (s.workers addr).inbox =
          rounds.foldl (Round.received addr) [] ∧
        (s.workers addr).pushback.length ≤ 1 := by
  intro s events
  have hnew : Agrees (Threads.new host bd : Threads H V B) (Server.new host bd) :=
    ⟨rfl, rfl, fun _ => rfl⟩
  have hstep : ∀ (s : Threads H V B) (t : Server H V B) (r : Round), Agrees s t →
      Agrees (s.next env r) ((s.stands r).foldl (Server.next env) t) := fun _ _ r h => h.next r
  refine ⟨simulates hstep hnew rounds, fun addr => ?_⟩
  obtain ⟨hsingle, haccounts⟩ := accounted_after env host bd rounds addr
  exact ⟨haccounts, hsingle addr⟩

end Ps2Servers.Udpfs
