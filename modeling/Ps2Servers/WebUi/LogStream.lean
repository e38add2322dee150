import Ps2Servers.WebUi.LogBuffer

/-!
# What a browser sees of the log

Seen from one browser, a step either does nothing, or is one of a few changes of its row: what
the browser is, whether its channel is subscribed, which lines a write is still to bring, and the
log. What holds of every row in every run is kept by each of these changes: the lines that came
through a channel, those waiting in it and the one on its way are the log from the subscription
on. A line written after a browser has subscribed and before it has been shown the ring is shown
twice, a CR within a line from the channel ends a line of the stream, and what a write leaves
without a newline counts as a line. Without these, the log is the complete lines of what was
written, and the events of a stream are its messages and show one stretch of the log, each line
once.
-/

namespace Ps2Servers.WebUi

open EventStream Runs

/-! ## Messages as events -/

theorem not_mem_sanitizeSSE (line : Bytes) : CR ∉ sanitizeSSE line ∧ LF ∉ sanitizeSSE line := by
  constructor
  all_goals
    intro hmem
    obtain ⟨b, -, hb⟩ := List.mem_map.mp hmem
    split at hb
    · exact absurd hb (by decide)
    · rename_i hne
      exact hne (by simp [hb])

theorem not_mem_digits (n : Nat) : CR ∉ Strconv.digits n ∧ LF ∉ Strconv.digits n :=
  ⟨fun h => absurd (Strconv.isDigit_of_mem_digits h) (by decide),
    fun h => absurd (Strconv.isDigit_of_mem_digits h) (by decide)⟩

/-- What is shown of the servers' own log and of the ring is one line. -/
theorem Message.oneLine {m : Message} (h : ∀ line, m = .live line → OneLine line) :
    OneLine m.text := by
  have hbanner : ∀ {head tail middle : Bytes}, (CR ∉ middle ∧ LF ∉ middle) →
      (CR ∉ head ∧ LF ∉ head) → (CR ∉ tail ∧ LF ∉ tail) → OneLine (head ++ middle ++ tail) := by
    intro head tail middle hmiddle hhead htail
    apply oneLine_of_not_mem
    · simp only [List.mem_append, not_or]
      exact ⟨⟨hhead.1, hmiddle.1⟩, htail.1⟩
    · simp only [List.mem_append, not_or]
      exact ⟨⟨hhead.2, hmiddle.2⟩, htail.2⟩
  cases m with
  | unavailable err =>
      exact hbanner (not_mem_sanitizeSSE err) (by decide +kernel) (by decide +kernel)
  | lineCount n => exact hbanner (not_mem_digits n) (by decide +kernel) (by decide +kernel)
  | service line =>
      exact oneLine_of_not_mem (not_mem_sanitizeSSE line).1 (not_mem_sanitizeSSE line).2
  | replayed line =>
      exact oneLine_of_not_mem (not_mem_sanitizeSSE line).1 (not_mem_sanitizeSSE line).2
  | live line => exact h line rfl
  | noLines => decide +kernel
  | follows => decide +kernel
  | fellBehind => decide +kernel

/-! ## Complete lines -/

/-- The lines of a text that end in a newline. -/
def completeLines (text : Bytes) : List Bytes := (text.splitOn LF).dropLast

def Terminated (p : Bytes) : Prop := p = [] ∨ p.getLast? = some LF

instance (p : Bytes) : Decidable (Terminated p) := inferInstanceAs (Decidable (_ ∨ _))

theorem completeLines_append {p : Bytes} (h : Terminated p) (text : Bytes) :
    completeLines (p ++ text) = written p ++ completeLines text := by
  rcases h with rfl | hlast
  · rfl
  · obtain ⟨q, rfl⟩ : ∃ q, p = q ++ [LF] :=
      ⟨p.dropLast, (List.dropLast_append_getLast? _ hlast).symm⟩
    have hsplit : (q ++ [LF]).splitOn LF = q.splitOn LF ++ [[]] :=
      List.splitOn_append_cons_self q []
    have hwritten : written (q ++ [LF]) = q.splitOn LF := by
      unfold written
      rw [hsplit, if_pos (by rw [List.getLast?_append]; rfl), List.dropLast_concat]
    rw [hwritten, completeLines, List.append_assoc, List.singleton_append,
      List.splitOn_append_cons_self, List.dropLast_append_of_ne_nil (List.splitOn_ne_nil LF text)]
    rfl

/-- Where every write ends in a newline, the log is the complete lines of all that was written. -/
theorem flatMap_written {writes : List Bytes} (h : ∀ p ∈ writes, Terminated p) :
    writes.flatMap written = completeLines writes.flatten := by
  induction writes with
  | nil => rfl
  | cons p writes ih =>
      rw [List.flatMap_cons, List.flatten_cons, completeLines_append (h p List.mem_cons_self),
        ih fun q hq => h q (List.mem_cons_of_mem _ hq)]

/-! ## Clients -/

namespace Client

theorem sayAll_eq (c : Client) (ms : List Message) :
    c.sayAll ms = { c with
      out := c.out ++ ms.flatMap Message.frame
      sent := c.sent ++ ms } := by
  induction ms generalizing c with
  | nil => simp [sayAll]
  | cons m ms ih =>
      change (c.say m).sayAll ms = _
      rw [ih]
      simp [say, List.append_assoc]

end Client

/-- What is said of the servers' own log shows no line of this one. -/
theorem logLine?_of_mem_announcement {logs : Except Bytes (List Bytes)} {m : Message}
    (h : m ∈ announcement logs ++ [.follows]) : m.logLine? = none := by
  rcases List.mem_append.mp h with h | h
  · rcases logs with err | _ | ⟨line, lines⟩
    · rw [List.mem_singleton.mp h]
      rfl
    · rw [List.mem_singleton.mp h]
      rfl
    · rcases List.mem_cons.mp h with rfl | h
      · rfl
      · obtain ⟨l, -, rfl⟩ := List.mem_map.mp h
        rfl
  · rw [List.mem_singleton.mp h]
    rfl

theorem liveLine?_of_logLine? {m : Message} (h : m.logLine? = none) : m.liveLine? = none := by
  cases m with
  | live line => cases h
  | _ => rfl

theorem logLines_announcement (logs : Except Bytes (List Bytes)) :
    (announcement logs ++ [Message.follows]).filterMap Message.logLine? = [] :=
  List.filterMap_eq_nil_iff.mpr fun _ hm => logLine?_of_mem_announcement hm

theorem liveLines_announcement (logs : Except Bytes (List Bytes)) :
    (announcement logs ++ [Message.follows]).filterMap Message.liveLine? = [] :=
  List.filterMap_eq_nil_iff.mpr fun _ hm =>
    liveLine?_of_logLine? (logLine?_of_mem_announcement hm)

theorem logLines_replayed (lines : List Bytes) :
    (lines.map Message.replayed).filterMap Message.logLine? = lines := by
  induction lines with
  | nil => rfl
  | cons line lines ih => exact congrArg (line :: ·) ih

theorem liveLines_replayed (lines : List Bytes) :
    (lines.map Message.replayed).filterMap Message.liveLine? = [] := by
  rw [List.filterMap_eq_nil_iff]
  intro m hm
  obtain ⟨line, -, rfl⟩ := List.mem_map.mp hm
  rfl

/-! ## Rows -/

/-- The call has subscribed a channel. -/
def Phase.started : Phase → Bool
  | .idle | .refused | .admitted => false
  | _ => true

/-- The call has subscribed a channel, and has not shown the ring. -/
def Phase.waits : Phase → Bool
  | .subscribed | .announced => true
  | _ => false

/-- The call has shown the ring. -/
def Phase.shows : Phase → Bool
  | .live | .leaving | .gone => true
  | _ => false

/-- What concerns one browser. -/
structure Row where
  client : Client
  subscribed : Bool
  /-- The lines that the write which holds the lock has yet to put into the ring. -/
  coming : List Bytes
  /-- The line that is yet to be sent to this browser. -/
  due : List Bytes
  log : List Bytes

namespace World

def coming (w : World) : List Bytes :=
  match w.writer with
  | some writer => writer.pending
  | none => []

def due (w : World) (id : Nat) : List Bytes :=
  match w.writer with
  | some writer => if id ∈ writer.targets then [writer.line] else []
  | none => []

def row (w : World) (id : Nat) : Row :=
  ⟨w.clients id, decide (id ∈ w.subscribers), w.coming, w.due id, w.log⟩

end World

/-- The changes of a row. `P` is what a write has to meet. -/
inductive Row.Step (cap : Nat) (P : Row → List Bytes → Prop) : Row → Row → Prop
  | stay {r : Row} : Step cap P r r
  | write {c : Client} {b : Bool} {log lines : List Bytes} (h : P ⟨c, b, [], [], log⟩ lines) :
      Step cap P ⟨c, b, [], [], log⟩ ⟨c, b, lines, [], log⟩
  | record {c : Client} {b : Bool} {s : Bytes} {rest log : List Bytes} :
      Step cap P ⟨c, b, s :: rest, [], log⟩ ⟨c, b, rest, if b then [s] else [], log ++ [s]⟩
  | queue {c : Client} {b : Bool} {line : Bytes} {coming log : List Bytes} :
      Step cap P ⟨c, b, coming, [line], log⟩
        ⟨{ c with queue := c.queue ++ [line] }, b, coming, [], log⟩
  | drop {c : Client} {b : Bool} {line : Bytes} {coming log : List Bytes} :
      Step cap P ⟨c, b, coming, [line], log⟩
        ⟨{ c with closes := 1, left := log.length - 1 }, false, coming, [], log⟩
  | request {c : Client} {b : Bool} {coming due log : List Bytes} {phase : Phase}
      (h : c.phase = .idle) (hphase : phase = .admitted ∨ phase = .refused) :
      Step cap P ⟨c, b, coming, due, log⟩ ⟨{ c with phase := phase }, b, coming, due, log⟩
  | subscribe {c : Client} {b : Bool} {log : List Bytes} (h : c.phase = .admitted) :
      Step cap P ⟨c, b, [], [], log⟩
        ⟨{ c with phase := .subscribed, since := log.length }, true, [], [], log⟩
  | announce {c : Client} {b : Bool} {coming due log : List Bytes}
      {logs : Except Bytes (List Bytes)} (h : c.phase = .subscribed) :
      Step cap P ⟨c, b, coming, due, log⟩
        ⟨{ c.sayAll (announcement logs ++ [.follows]) with phase := .announced },
          b, coming, due, log⟩
  | replay {c : Client} {b : Bool} {log : List Bytes} (h : c.phase = .announced) :
      Step cap P ⟨c, b, [], [], log⟩
        ⟨{ c.sayAll ((log.rtake cap).map .replayed) with phase := .live }, b, [], [], log⟩
  | receive {c : Client} {b : Bool} {line : Bytes} {coming due log rest : List Bytes}
      (h : c.phase = .live) (hqueue : c.queue = line :: rest) :
      Step cap P ⟨c, b, coming, due, log⟩
        ⟨{ c with queue := rest }.say (.live line), b, coming, due, log⟩
  | fellBehind {c : Client} {b : Bool} {coming due log : List Bytes} (h : c.phase = .live) :
      Step cap P ⟨c, b, coming, due, log⟩
        ⟨{ c.say .fellBehind with phase := .leaving }, b, coming, due, log⟩
  | done {c : Client} {b : Bool} {coming due log : List Bytes} (h : c.phase = .live) :
      Step cap P ⟨c, b, coming, due, log⟩ ⟨{ c with phase := .leaving }, b, coming, due, log⟩
  | unsub {c : Client} {log : List Bytes} (h : c.phase = .leaving) :
      Step cap P ⟨c, true, [], [], log⟩
        ⟨{ c with phase := .gone, closes := 1, left := log.length }, false, [], [], log⟩
  | unsubDropped {c : Client} {log : List Bytes} (h : c.phase = .leaving) :
      Step cap P ⟨c, false, [], [], log⟩ ⟨{ c with phase := .gone }, false, [], [], log⟩

/-- What holds of a row in every run. -/
structure Row.Ok (r : Row) : Prop where
  out : r.client.out = r.client.sent.flatMap Message.frame
  fresh : r.client.phase.started = false →
    r.subscribed = false ∧ r.client.sent = [] ∧ r.client.queue = [] ∧ r.client.closes = 0
  subscribed : r.subscribed = true →
    r.client.phase ≠ .gone ∧ r.client.closes = 0 ∧ r.client.since ≤ r.log.length ∧
      r.client.liveLines ++ r.client.queue ++ r.due = r.log.drop r.client.since
  unsubscribed : r.subscribed = false → r.due = [] ∧
    (r.client.phase.started = true → r.client.closes = 1 ∧ r.client.since ≤ r.client.left ∧
      r.client.left ≤ r.log.length ∧
      r.client.liveLines ++ r.client.queue = (r.log.take r.client.left).drop r.client.since)

theorem Row.Ok.subscribed_of_due {r : Row} (h : r.Ok) (hdue : r.due ≠ []) : r.subscribed = true := by
  by_contra hsub
  exact hdue (h.unsubscribed (by simpa using hsub)).1

theorem take_pred_drop {α : Type*} {log front : List α} {a : α} {n : Nat}
    (h : front ++ [a] = log.drop n) :
    front = (log.take (log.length - 1)).drop n ∧ n ≤ log.length - 1 ∧ 0 < log.length := by
  have hlen := congrArg List.length h
  rw [List.length_append, List.length_singleton, List.length_drop] at hlen
  refine ⟨?_, by omega, by omega⟩
  calc front = (log.drop n).dropLast := by rw [← h, List.dropLast_concat]
    _ = (log.take (log.length - 1)).drop n := by
        rw [List.dropLast_eq_take, List.length_drop, List.drop_take]
        congr 1
        omega

variable {cap : Nat} {P : Row → List Bytes → Prop} {r r' : Row}

/-- A browser that has subscribed stays as it is but for what it has been sent. -/
theorem Row.Ok.said (h : r.Ok) {c : Client} (hbefore : r.client.phase.started = true)
    (hafter : c.phase.started = true) (hgone : r.subscribed = true → c.phase ≠ .gone)
    (hout : c.out = c.sent.flatMap Message.frame) (hcloses : c.closes = r.client.closes)
    (hsince : c.since = r.client.since) (hleft : c.left = r.client.left)
    (hlines : c.liveLines ++ c.queue = r.client.liveLines ++ r.client.queue) :
    Row.Ok { r with client := c } := by
  constructor
  · exact hout
  · exact fun hfresh => absurd (hafter.symm.trans hfresh) (by decide)
  · intro hsub
    obtain ⟨-, hopen, hle, hlog⟩ := h.subscribed hsub
    refine ⟨hgone hsub, hcloses.trans hopen, hsince.trans_le hle, ?_⟩
    change c.liveLines ++ c.queue ++ r.due = r.log.drop c.since
    rw [hlines, hlog, hsince]
  · intro hsub
    obtain ⟨hdue, hended⟩ := h.unsubscribed hsub
    refine ⟨hdue, fun _ => ?_⟩
    change c.closes = 1 ∧ c.since ≤ c.left ∧ c.left ≤ r.log.length ∧
      c.liveLines ++ c.queue = (r.log.take c.left).drop c.since
    rw [hcloses, hsince, hleft, hlines]
    exact hended hbefore

theorem flatMap_sayAll {c : Client} (h : c.out = c.sent.flatMap Message.frame)
    (ms : List Message) : (c.sayAll ms).out = (c.sayAll ms).sent.flatMap Message.frame := by
  rw [Client.sayAll_eq]
  change c.out ++ _ = (c.sent ++ ms).flatMap _
  rw [h, List.flatMap_append]

theorem liveLines_sayAll {c : Client} {ms : List Message}
    (h : ms.filterMap Message.liveLine? = []) : (c.sayAll ms).liveLines = c.liveLines := by
  rw [Client.sayAll_eq]
  change (c.sent ++ ms).filterMap _ = _
  rw [List.filterMap_append, h, List.append_nil]
  rfl

/-- What holds of a row is kept by every change. -/
theorem Row.Ok.step (h : r.Ok) (hs : Row.Step cap P r r') : r'.Ok := by
  cases hs with
  | stay => exact h
  | write hlines => exact ⟨h.out, h.fresh, h.subscribed, h.unsubscribed⟩
  | @record c b s rest log =>
      refine ⟨h.out, h.fresh, fun hsub => ?_, fun hsub => ?_⟩
      · obtain ⟨hgone, hcloses, hle, hlog⟩ := h.subscribed hsub
        have hb : b = true := hsub
        refine ⟨hgone, hcloses, ?_, ?_⟩
        · rw [List.length_append]
          exact Nat.le_add_right_of_le hle
        · rw [hb, if_pos rfl, List.drop_append_of_le_length hle, ← hlog, List.append_nil]
      · have hb : b = false := hsub
        refine ⟨by rw [hb]; rfl, fun hstarted => ?_⟩
        obtain ⟨hcloses, hsince, hle, hlog⟩ := (h.unsubscribed hsub).2 hstarted
        refine ⟨hcloses, hsince, ?_, ?_⟩
        · rw [List.length_append]
          exact Nat.le_add_right_of_le hle
        · rw [List.take_append_of_le_length hle]
          exact hlog
  | queue =>
      have hsub := h.subscribed_of_due (List.cons_ne_nil _ _)
      obtain ⟨hgone, hcloses, hle, hlog⟩ := h.subscribed hsub
      refine ⟨h.out, fun hfresh => ?_, fun _ => ⟨hgone, hcloses, hle, ?_⟩, fun hno => ?_⟩
      · exact absurd ((h.fresh hfresh).1.symm.trans hsub) Bool.false_ne_true
      · rw [List.append_nil, ← List.append_assoc]
        exact hlog
      · exact absurd (hno.symm.trans hsub) Bool.false_ne_true
  | drop =>
      have hsub := h.subscribed_of_due (List.cons_ne_nil _ _)
      obtain ⟨hgone, hcloses, hle, hlog⟩ := h.subscribed hsub
      obtain ⟨hfront, hn, hpos⟩ := take_pred_drop hlog
      refine ⟨h.out, fun hfresh => ?_, fun hno => absurd hno Bool.false_ne_true,
        fun _ => ⟨rfl, fun _ => ⟨rfl, hn, Nat.sub_le _ _, hfront⟩⟩⟩
      exact absurd ((h.fresh hfresh).1.symm.trans hsub) Bool.false_ne_true
  | @request c b coming due log phase hidle hphase =>
      have hfresh := h.fresh (by rw [hidle]; rfl)
      have hnone : phase.started = false := by
        rcases hphase with rfl | rfl
        · rfl
        · rfl
      refine ⟨h.out, fun _ => hfresh, fun hsub => ?_, fun hsub =>
        ⟨(h.unsubscribed hsub).1, fun hstarted => ?_⟩⟩
      · exact absurd (hfresh.1.symm.trans hsub) Bool.false_ne_true
      · exact absurd (hnone.symm.trans hstarted) Bool.false_ne_true
  | subscribe hadmitted =>
      obtain ⟨-, hsent, hqueue, hcloses⟩ := h.fresh (by rw [hadmitted]; rfl)
      refine ⟨h.out, fun hfresh => absurd hfresh.symm Bool.false_ne_true, fun _ =>
        ⟨nofun, hcloses, Nat.le_refl _, ?_⟩, fun hno => absurd hno.symm Bool.false_ne_true⟩
      change List.filterMap _ _ ++ _ ++ _ = _
      rw [hsent, hqueue, List.drop_length]
      rfl
  | announce hphase =>
      refine h.said (by rw [hphase]; rfl) rfl (fun _ => nofun) (flatMap_sayAll h.out _) ?_ ?_ ?_ ?_
      · rw [Client.sayAll_eq]
      · rw [Client.sayAll_eq]
      · rw [Client.sayAll_eq]
      · exact congrArg₂ (· ++ ·) (liveLines_sayAll (liveLines_announcement _))
          (by rw [Client.sayAll_eq])
  | replay hphase =>
      refine h.said (by rw [hphase]; rfl) rfl (fun _ => nofun) (flatMap_sayAll h.out _) ?_ ?_ ?_ ?_
      · rw [Client.sayAll_eq]
      · rw [Client.sayAll_eq]
      · rw [Client.sayAll_eq]
      · exact congrArg₂ (· ++ ·) (liveLines_sayAll (liveLines_replayed _))
          (by rw [Client.sayAll_eq])
  | @receive c b line coming due log rest hphase hqueue =>
      have hstarted : c.phase.started = true := by rw [hphase]; rfl
      refine h.said hstarted hstarted (fun _ => ?_) ?_ rfl rfl rfl ?_
      · change c.phase ≠ .gone
        rw [hphase]
        decide
      · exact @flatMap_sayAll { c with queue := rest } h.out [Message.live line]
      · change (c.sent ++ [Message.live line]).filterMap Message.liveLine? ++ rest = _ ++ c.queue
        rw [List.filterMap_append, hqueue, List.append_assoc]
        rfl
  | fellBehind hphase =>
      refine h.said (by rw [hphase]; rfl) rfl (fun _ => nofun)
        (flatMap_sayAll h.out [.fellBehind]) rfl rfl rfl ?_
      exact congrArg₂ (· ++ ·) (@liveLines_sayAll _ [.fellBehind] rfl) rfl
  | done hphase =>
      exact h.said (by rw [hphase]; rfl) rfl (fun _ => nofun) h.out rfl rfl rfl rfl
  | unsub hphase =>
      obtain ⟨-, hcloses, hle, hlog⟩ := h.subscribed rfl
      refine ⟨h.out, fun hfresh => absurd hfresh.symm Bool.false_ne_true,
        fun hno => absurd hno Bool.false_ne_true,
        fun _ => ⟨rfl, fun _ => ⟨rfl, hle, Nat.le_refl _, ?_⟩⟩⟩
      rw [List.take_length, ← hlog, List.append_nil]
      rfl
  | unsubDropped hphase =>
      exact h.said (by rw [hphase]; rfl) rfl (fun hno => absurd hno Bool.false_ne_true) h.out rfl rfl rfl rfl

/-! ## Steps -/

namespace World

theorem row_of_none {w : World} (h : w.writer = none) (id : Nat) :
    w.row id = ⟨w.clients id, decide (id ∈ w.subscribers), [], [], w.log⟩ := by
  simp only [row, coming, due, h]

theorem row_of_some {w : World} {writer : Writer} (h : w.writer = some writer) (id : Nat) :
    w.row id = ⟨w.clients id, decide (id ∈ w.subscribers), writer.pending,
      if id ∈ writer.targets then [writer.line] else [], w.log⟩ := by
  simp only [row, coming, due, h]

theorem row_put_self (w : World) (id : Nat) (c : Client) :
    (w.put id c).row id = { w.row id with client := c } := by
  simp only [row, put, Function.update_self]
  rfl

theorem row_put_of_ne (w : World) {id i : Nat} (h : id ≠ i) (c : Client) :
    (w.put i c).row id = w.row id := by
  simp only [row, put, Function.update_of_ne h]
  rfl

theorem row_close_self {w : World} {id : Nat} (h : (w.clients id).closes = 0) (left : Nat) :
    (w.close id left).row id =
      { w.row id with
        client := { w.clients id with closes := 1, left := left }
        subscribed := false } := by
  have hnot : decide (id ∈ (w.unsubscribe id).subscribers) = false := by
    simp [unsubscribe]
  rw [close, if_neg (not_not.mpr h), row_put_self]
  simp only [row, hnot]
  rfl

theorem row_close_of_ne (w : World) {id i : Nat} (h : id ≠ i) (left : Nat) :
    (w.close i left).row id = w.row id := by
  unfold close
  split
  · rfl
  · have hsub : decide (id ∈ (w.unsubscribe i).subscribers) = decide (id ∈ w.subscribers) := by
      simp [unsubscribe, h]
    rw [row_put_of_ne _ h]
    simp only [row, hsub]
    rfl

/-- What a step does to the ring, the log and the writes. -/
inductive Logged (w t : World) : Prop
  | same (hlines : t.lines = w.lines) (hlog : t.log = w.log) (hcoming : t.coming = w.coming)
      (hwrites : t.writes = w.writes)
  | write {p : Bytes} (hlines : t.lines = w.lines) (hlog : t.log = w.log) (hnone : w.coming = [])
      (hcoming : t.coming = written p) (hwrites : t.writes = w.writes ++ [p])
  | record {s : Bytes} (hlines : t.lines = w.lines.push s) (hlog : t.log = w.log ++ [s])
      (hcoming : w.coming = s :: t.coming) (hwrites : t.writes = w.writes)

structure Change (cap : Nat) (P : Row → List Bytes → Prop) (w t : World) : Prop where
  panicked : t.panicked = w.panicked
  logged : Logged w t
  rows : ∀ id, Row.Step cap P (w.row id) (t.row id)

/-- What holds of the whole in every run. -/
structure Inv (cap : Nat) (w : World) : Prop where
  running : w.panicked = false
  holds : w.lines.Holds w.log
  capacity : w.lines.capacity = cap
  log : w.log ++ w.coming = w.writes.flatMap written
  rows : ∀ id, (w.row id).Ok

variable {w t : World}

/-- A step of one browser alone. -/
theorem Change.put {id : Nat} {c : Client} {n : Nat}
    (h : Row.Step cap P (w.row id) { w.row id with client := c }) :
    Change cap P w ({ w with logClients := n }.put id c) := by
  refine ⟨rfl, .same rfl rfl rfl rfl, fun i => ?_⟩
  by_cases hi : i = id
  · subst hi
    rw [row_put_self]
    exact h
  · rw [row_put_of_ne _ hi]
    exact .stay

/-- The close of a channel that is open. -/
theorem Change.close {id left : Nat} {v : World} (hlines : v.lines = w.lines)
    (hlog : v.log = w.log) (hcoming : v.coming = w.coming) (hwrites : v.writes = w.writes)
    (hpanicked : v.panicked = w.panicked) (hopen : (v.clients id).closes = 0)
    (hother : ∀ i ≠ id, v.row i = w.row i)
    (h : Row.Step cap P (w.row id)
      { v.row id with
        client := { v.clients id with closes := 1, left := left }
        subscribed := false }) : Change cap P w (v.close id left) := by
  have hclose : v.close id left =
      (v.unsubscribe id).put id { v.clients id with closes := 1, left := left } :=
    if_neg (not_not.mpr hopen)
  refine ⟨?_, ?_, fun i => ?_⟩
  · rw [hclose]
    exact hpanicked
  · rw [hclose]
    exact .same hlines hlog hcoming hwrites
  · by_cases hi : i = id
    · subst hi
      rw [row_close_self hopen]
      exact h
    · rw [row_close_of_ne v hi, hother i hi]
      exact .stay

/-- A visit of a subscriber. -/
theorem Inv.change_send (hw : w.Inv cap) {pending : List Bytes} {line : Bytes}
    {targets : List Nat} {id : Nat} (hwriter : w.writer = some ⟨pending, line, targets⟩)
    (hid : id ∈ targets) (hn : next maxLogClients w (.send id) = some t) : Change cap P w t := by
  have hrow := row_of_some hwriter id
  have hok := hw.rows id
  rw [hrow, if_pos hid] at hok
  obtain ⟨-, hopen, -⟩ := hok.subscribed (hok.subscribed_of_due (List.cons_ne_nil _ _))
  have hopen : (w.clients id).closes = 0 := hopen
  let v : World := { w with writer := some ⟨pending, line, targets.filter (· ≠ id)⟩ }
  have hself : v.row id = ⟨w.clients id, decide (id ∈ w.subscribers), pending, [], w.log⟩ := by
    rw [row_of_some rfl, if_neg (by simp)]
  have hother : ∀ i ≠ id, v.row i = w.row i := by
    intro i hi
    rw [row_of_some hwriter, @row_of_some v _ rfl]
    simp [v, hi]
  have hcoming : v.coming = w.coming := by simp only [coming, hwriter, v]
  simp only [next, hwriter, if_pos hid] at hn
  rw [if_neg (not_not.mpr hopen)] at hn
  rw [if_pos hid] at hrow
  split at hn
  · cases hn
    refine ⟨rfl, .same rfl rfl hcoming rfl, fun i => ?_⟩
    by_cases hi : i = id
    · subst hi
      have hqueue : Row.Step cap P (w.row i)
          { v.row i with client := { w.clients i with queue := (w.clients i).queue ++ [line] } } := by
        rw [hrow, hself]
        exact .queue
      exact row_put_self v i _ ▸ hqueue
    · change Row.Step cap P _ ((v.put id _).row i)
      rw [row_put_of_ne v hi, hother i hi]
      exact .stay
  · cases hn
    refine @Change.close cap P w id (w.log.length - 1) v rfl rfl hcoming rfl rfl hopen hother ?_
    rw [hrow, hself]
    exact .drop

/-- Every step is a change of each row. -/
theorem Inv.change {maxLogClients : Nat} (hw : w.Inv cap) {a : Action}
    (hP : ∀ p, a = .write p → ∀ id, P (w.row id) (written p))
    (hn : next maxLogClients w a = some t) : Change cap P w t := by
  cases a with
  | write p =>
      simp only [next, Option.ite_none_right_eq_some, Option.isNone_iff_eq_none] at hn
      obtain ⟨hnone, hn⟩ := hn
      cases hn
      refine ⟨rfl, @Logged.write _ _ p rfl rfl (by simp only [coming, hnone]) rfl rfl, fun id => ?_⟩
      have hlines := hP p rfl id
      rw [row_of_none hnone] at hlines ⊢
      exact .write hlines
  | record =>
      simp only [next] at hn
      split at hn
      · rename_i s rest line hwriter
        cases hn
        refine ⟨rfl, @Logged.record _ _ s rfl rfl (by simp only [coming, hwriter]) rfl, fun id => ?_⟩
        rw [row_of_some hwriter, row_of_some rfl, if_neg List.not_mem_nil]
        have hdue : (if id ∈ w.subscribers then [s] else []) =
            if decide (id ∈ w.subscribers) = true then [s] else [] := by simp
        change Row.Step cap P _ ⟨_, _, rest, if id ∈ w.subscribers then [s] else [], _⟩
        rw [hdue]
        exact .record
      · cases hn
  | send id =>
      have hn' := hn
      simp only [next] at hn'
      split at hn'
      · rename_i pending line targets hwriter
        simp only [Option.ite_none_right_eq_some] at hn'
        exact hw.change_send hwriter hn'.1 hn
      · cases hn'
  | wrote =>
      simp only [next] at hn
      split at hn
      · rename_i line hwriter
        cases hn
        refine ⟨rfl, .same rfl rfl (by simp only [coming, hwriter]) rfl, fun id => ?_⟩
        rw [row_of_some hwriter, row_of_none rfl]
        exact .stay
      · cases hn
  | request id =>
      simp only [next, Option.ite_none_right_eq_some] at hn
      obtain ⟨hidle, hn⟩ := hn
      split at hn
      · cases hn
        exact .put (.request hidle (.inl rfl))
      · cases hn
        exact .put (.request hidle (.inr rfl))
  | subscribe id =>
      simp only [next, Option.ite_none_right_eq_some, Option.isNone_iff_eq_none] at hn
      obtain ⟨⟨hphase, hnone⟩, hn⟩ := hn
      cases hn
      refine ⟨rfl, .same rfl rfl rfl rfl, fun i => ?_⟩
      by_cases hi : i = id
      · subst hi
        have hnew : decide (i ∈ i :: w.subscribers) = true := decide_eq_true List.mem_cons_self
        have hsub : Row.Step cap P (w.row i)
            ⟨{ w.clients i with phase := .subscribed, since := w.log.length },
              decide (i ∈ i :: w.subscribers), [], [], w.log⟩ := by
          rw [row_of_none hnone, hnew]
          exact .subscribe hphase
        rw [row_put_self, @row_of_none { w with subscribers := i :: w.subscribers } hnone]
        exact hsub
      · have hold : decide (i ∈ id :: w.subscribers) = decide (i ∈ w.subscribers) := by
          simp only [List.mem_cons, hi, false_or]
        rw [row_put_of_ne _ hi, row_of_none hnone,
          @row_of_none { w with subscribers := id :: w.subscribers } hnone, hold]
        exact .stay
  | announce id logs =>
      simp only [next, Option.ite_none_right_eq_some] at hn
      obtain ⟨hphase, hn⟩ := hn
      cases hn
      exact .put (.announce hphase)
  | replay id =>
      simp only [next, Option.ite_none_right_eq_some, Option.isNone_iff_eq_none] at hn
      obtain ⟨⟨hphase, hnone⟩, hn⟩ := hn
      cases hn
      have hlines : w.Lines = w.log.rtake cap := hw.capacity ▸ hw.holds
      apply Change.put
      rw [hlines, row_of_none hnone]
      exact .replay hphase
  | receive id =>
      simp only [next, Option.ite_none_right_eq_some] at hn
      obtain ⟨hphase, hn⟩ := hn
      split at hn
      · rename_i line rest hqueue
        cases hn
        exact .put (.receive hphase hqueue)
      · simp only [Option.ite_none_right_eq_some] at hn
        obtain ⟨-, hn⟩ := hn
        cases hn
        exact .put (.fellBehind hphase)
  | done id =>
      simp only [next, Option.ite_none_right_eq_some] at hn
      obtain ⟨hphase, hn⟩ := hn
      cases hn
      exact .put (.done hphase)
  | unsub id =>
      simp only [next, Option.ite_none_right_eq_some, Option.isNone_iff_eq_none] at hn
      obtain ⟨⟨hphase, hnone⟩, hn⟩ := hn
      have hok := hw.rows id
      rw [row_of_none hnone] at hok
      let c : Client := { w.clients id with phase := .gone }
      let v : World := { w with logClients := w.logClients - 1 }.put id c
      have hself : v.row id = ⟨c, decide (id ∈ w.subscribers), [], [], w.log⟩ := by
        rw [row_put_self, @row_of_none { w with logClients := w.logClients - 1 } hnone]
      split at hn
      · rename_i hmem
        have hsub : decide (id ∈ w.subscribers) = true := decide_eq_true hmem
        cases hn
        have hclient : v.clients id = c := by simp only [v, put, Function.update_self]
        have hopen : (v.clients id).closes = 0 := by
          rw [hclient]
          exact (hok.subscribed hsub).2.1
        refine @Change.close cap P w id w.log.length v rfl rfl rfl rfl rfl hopen
          (fun i hi => row_put_of_ne _ hi c) ?_
        rw [hself, hclient, row_of_none hnone, hsub]
        exact .unsub hphase
      · rename_i hmem
        have hsub : decide (id ∈ w.subscribers) = false := decide_eq_false hmem
        cases hn
        apply Change.put
        rw [row_of_none hnone, hsub]
        exact .unsubDropped hphase

theorem Inv.step {maxLogClients : Nat} (hw : w.Inv cap) {a : Action}
    (hn : next maxLogClients w a = some t) : t.Inv cap := by
  have hc := @Inv.change cap (fun _ _ => True) w t maxLogClients hw a (fun _ _ _ => trivial) hn
  have hrunning := hc.panicked.trans hw.running
  have hrows : ∀ id, (t.row id).Ok := fun id => (hw.rows id).step (hc.rows id)
  cases hc.logged with
  | same hlines hlog hcoming hwrites =>
      refine ⟨hrunning, ?_, ?_, ?_, hrows⟩
      · rw [hlines, hlog]
        exact hw.holds
      · rw [hlines]
        exact hw.capacity
      · rw [hlog, hcoming, hwrites]
        exact hw.log
  | write hlines hlog hnone hcoming hwrites =>
      refine ⟨hrunning, ?_, ?_, ?_, hrows⟩
      · rw [hlines, hlog]
        exact hw.holds
      · rw [hlines]
        exact hw.capacity
      · rw [hlog, hcoming, hwrites, List.flatMap_append, ← hw.log, hnone, List.append_nil,
          List.flatMap_singleton]
  | record hlines hlog hcoming hwrites =>
      refine ⟨hrunning, ?_, ?_, ?_, hrows⟩
      · rw [hlines, hlog]
        exact hw.holds.push _
      · rw [hlines, Ring.capacity_push]
        exact hw.capacity
      · rw [hlog, hwrites, ← hw.log, hcoming, List.append_assoc, List.singleton_append]

theorem inv_init (capacity : Int) : (init capacity).Inv (ringSize capacity) := by
  refine ⟨rfl, Ring.holds_empty _ (ringSize_pos capacity) _, List.length_replicate, rfl,
    fun id => ?_⟩
  exact ⟨rfl, fun _ => ⟨rfl, rfl, rfl, rfl⟩, fun h => absurd h Bool.false_ne_true,
    fun _ => ⟨rfl, fun h => absurd h Bool.false_ne_true⟩⟩

/-- The ring, the log and every browser are as they should be in every run. -/
theorem inv {capacity : Int} {maxLogClients : Nat} {w : World}
    {ok : World → Action → Prop} (h : (system capacity maxLogClients).ReachedWhen ok w) :
    w.Inv (ringSize capacity) := by
  apply h.invariant
  · rintro s rfl
    exact inv_init capacity
  · intro s a t hs _ hn
    exact hs.step hn

end World

/-! ## Undisturbed runs -/

/-- A browser can be sent the lines: they are lines of the stream too, and the browser has been
shown the ring, or it will show nothing more. -/
def Row.Quiet (r : Row) (lines : List Bytes) : Prop :=
  r.subscribed = true → ∀ line ∈ lines,
    r.client.phase = .live ∧ OneLine line ∨ r.client.phase = .leaving

/-- What is written ends in a newline. While a browser has subscribed and has not been shown the
ring, no line is written. While one follows the log, no line with a CR before its end is. -/
def Undisturbed (w : World) : Action → Prop
  | .write p => Terminated p ∧ ∀ id ∈ w.subscribers, ∀ line ∈ written p,
      (w.clients id).phase = .live ∧ OneLine line ∨ (w.clients id).phase = .leaving
  | _ => True

instance (w : World) (a : Action) : Decidable (Undisturbed w a) := by
  cases a <;> unfold Undisturbed <;> infer_instance

/-- What holds of a row in undisturbed runs. -/
structure Row.Calm (cap : Nat) (r : Row) : Prop where
  early : r.client.phase.shows = false → r.client.logLines = []
  waits : r.client.phase.waits = true → r.subscribed = true ∧ r.client.since = r.log.length
  shows : r.client.phase.shows = true → r.client.logLines =
    (r.log.take r.client.since).rtake cap ++ r.client.liveLines
  oneLine : ∀ line ∈ r.client.liveLines, OneLine line
  quiet : r.Quiet (r.coming ++ r.due)
  queued : r.client.phase = .live → ∀ line ∈ r.client.queue, OneLine line

theorem Phase.not_waits_of_shows {p : Phase} (h : p.shows = true) : p.waits = false := by
  cases p with
  | live | leaving | gone => rfl
  | _ => cases h

/-- A browser that is quiet about a line has been shown the ring. -/
theorem shows_of_quiet {p : Phase} {q : Prop} (h : p = .live ∧ q ∨ p = .leaving) :
    p.shows = true := by
  rcases h with ⟨rfl, -⟩ | rfl
  · rfl
  · rfl

theorem Phase.started_of_shows {p : Phase} (h : p.shows = true) : p.started = true := by
  cases p with
  | live | leaving | gone => rfl
  | _ => cases h

theorem Row.Ok.since_le (h : r.Ok) (hstarted : r.client.phase.started = true) :
    r.client.since ≤ r.log.length := by
  by_cases hsub : r.subscribed = true
  · exact (h.subscribed hsub).2.2.1
  · obtain ⟨-, hsince, hle, -⟩ := (h.unsubscribed (by simpa using hsub)).2 hstarted
    exact hsince.trans hle

theorem logLines_sayAll (c : Client) (ms : List Message) :
    (c.sayAll ms).logLines = c.logLines ++ ms.filterMap Message.logLine? := by
  rw [Client.sayAll_eq]
  exact List.filterMap_append

/-- A browser that has been shown the ring and shows nothing more from now on. -/
theorem Row.Calm.finish (h : r.Calm cap) (hshows : r.client.phase.shows = true) {c : Client}
    {b : Bool} {coming due : List Bytes}
    (hphase : c.phase = .leaving ∨ c.phase = .gone ∧ b = false)
    (hlog : c.logLines = r.client.logLines) (hlive : c.liveLines = r.client.liveLines)
    (hsince : c.since = r.client.since) : Row.Calm cap ⟨c, b, coming, due, r.log⟩ := by
  have hshows' : c.phase.shows = true := by
    rcases hphase with hphase | ⟨hphase, -⟩
    · rw [hphase]
      rfl
    · rw [hphase]
      rfl
  constructor
  · exact fun hno => absurd (hno.symm.trans hshows') Bool.false_ne_true
  · exact fun hwaits => absurd ((Phase.not_waits_of_shows hshows').symm.trans hwaits)
      Bool.false_ne_true
  · intro _
    change c.logLines = (r.log.take c.since).rtake cap ++ c.liveLines
    rw [hlog, hlive, hsince]
    exact h.shows hshows
  · intro line hline
    exact h.oneLine line (hlive ▸ hline)
  · intro hsub line _
    rcases hphase with hphase | ⟨-, hb⟩
    · exact .inr hphase
    · exact absurd (hb.symm.trans hsub) Bool.false_ne_true
  · intro hphase'
    rcases hphase with hphase | ⟨hphase, -⟩
    · exact absurd (hphase.symm.trans hphase') nofun
    · exact absurd (hphase.symm.trans hphase') nofun

/-- Undisturbed, what holds of a row is kept by every change. -/
theorem Row.Calm.step (hok : r.Ok) (h : r.Calm cap) (hs : Row.Step cap Row.Quiet r r') :
    r'.Calm cap := by
  cases hs with
  | stay => exact h
  | write hlines =>
      exact ⟨h.early, h.waits, h.shows, h.oneLine, by rwa [List.append_nil], h.queued⟩
  | @record c b s rest log =>
      refine ⟨h.early, fun hwaits => ?_, fun hshows => ?_, h.oneLine, fun hsub => ?_, h.queued⟩
      · -- a browser that waits has no line coming
        have hquiet := h.quiet (h.waits hwaits).1 s List.mem_cons_self
        exact absurd (Phase.not_waits_of_shows (shows_of_quiet hquiet)) (by simp [hwaits])
      · have hle := hok.since_le (Phase.started_of_shows hshows)
        rw [List.take_append_of_le_length hle]
        exact h.shows hshows
      · intro line hline
        apply h.quiet hsub
        have hb : b = true := hsub
        rw [hb, if_pos rfl] at hline
        simp only [List.mem_append, List.append_nil, List.mem_cons] at hline ⊢
        simpa [or_comm] using hline
  | @queue c b line coming log =>
      refine ⟨h.early, h.waits, h.shows, h.oneLine, fun hsub l hl => ?_, fun hlive l hl => ?_⟩
      · exact h.quiet hsub l (List.mem_append_left _ (by simpa using hl))
      · rcases List.mem_append.mp hl with hl | hl
        · exact h.queued hlive l hl
        · have hsub := hok.subscribed_of_due (List.cons_ne_nil _ _)
          rcases h.quiet hsub l (List.mem_append_right _ hl) with hquiet | hleaving
          · exact hquiet.2
          · exact Phase.noConfusion (hlive.symm.trans hleaving)
  | @drop c b line coming log =>
      have hsub := hok.subscribed_of_due (List.cons_ne_nil _ _)
      have hquiet := h.quiet hsub line (List.mem_append_right _ List.mem_cons_self)
      have hshows := shows_of_quiet hquiet
      refine ⟨h.early, fun hwaits => ?_, h.shows, h.oneLine,
        fun hno => absurd hno Bool.false_ne_true, h.queued⟩
      exact absurd ((Phase.not_waits_of_shows hshows).symm.trans hwaits) Bool.false_ne_true
  | @request c b coming due log phase hidle hphase =>
      have hsub := (hok.fresh (by rw [hidle]; rfl)).1
      have hnone : phase.shows = false ∧ phase.waits = false ∧ phase ≠ .live := by
        rcases hphase with rfl | rfl
        · exact ⟨rfl, rfl, fun hlive => Phase.noConfusion hlive⟩
        · exact ⟨rfl, rfl, fun hlive => Phase.noConfusion hlive⟩
      refine ⟨fun _ => h.early (by rw [hidle]; rfl), fun hwaits => ?_, fun hshows => ?_, h.oneLine,
        fun hno => ?_, fun hlive => absurd hlive hnone.2.2⟩
      · exact absurd (hnone.2.1.symm.trans hwaits) Bool.false_ne_true
      · exact absurd (hnone.1.symm.trans hshows) Bool.false_ne_true
      · exact absurd (hsub.symm.trans hno) Bool.false_ne_true
  | subscribe hadmitted =>
      exact ⟨fun _ => h.early (by rw [hadmitted]; rfl), fun _ => ⟨rfl, rfl⟩,
        fun hno => absurd hno Bool.false_ne_true, h.oneLine,
        fun _ _ hline => absurd hline List.not_mem_nil, fun hlive => Phase.noConfusion hlive⟩
  | @announce c b coming due log logs hphase =>
      have hwaits := h.waits (by rw [hphase]; rfl)
      refine ⟨fun _ => ?_, fun _ => ?_, fun hno => absurd hno Bool.false_ne_true, fun line hline => ?_,
        fun hsub line hline => ?_, fun hlive => Phase.noConfusion hlive⟩
      · exact (logLines_sayAll c _).trans
          (by rw [logLines_announcement, h.early (by rw [hphase]; rfl), List.append_nil])
      · rw [Client.sayAll_eq]
        exact hwaits
      · exact h.oneLine line ((liveLines_sayAll (liveLines_announcement logs)) ▸ hline)
      · -- a browser that waits has no line coming
        have hshows := shows_of_quiet (h.quiet hsub line hline)
        rw [hphase] at hshows
        exact absurd hshows Bool.false_ne_true
  | @replay c b log hphase =>
      obtain ⟨hsub, hsince⟩ := h.waits (by rw [hphase]; rfl)
      have hsince : c.since = log.length := hsince
      obtain ⟨-, -, -, hlog⟩ := hok.subscribed hsub
      rw [hsince, List.drop_length, List.append_nil, List.append_eq_nil_iff] at hlog
      obtain ⟨hlive, hqueue⟩ := hlog
      refine ⟨fun hno => absurd hno.symm Bool.false_ne_true,
        fun hno => absurd hno Bool.false_ne_true, fun _ => ?_, fun line hline => ?_,
        fun _ _ hline => absurd hline List.not_mem_nil, fun _ line hline => ?_⟩
      · have hlines := logLines_sayAll c ((log.rtake cap).map .replayed)
        rw [h.early (by rw [hphase]; rfl), List.nil_append, logLines_replayed] at hlines
        have hlive' := (liveLines_sayAll (liveLines_replayed (log.rtake cap))).trans hlive
        have hsame : (c.sayAll ((log.rtake cap).map .replayed)).since = c.since := by
          rw [Client.sayAll_eq]
        change (c.sayAll _).logLines = (log.take (c.sayAll _).since).rtake cap ++
          (c.sayAll _).liveLines
        rw [hlines, hlive', hsame, hsince, List.take_length, List.append_nil]
      · exact h.oneLine line ((liveLines_sayAll (liveLines_replayed (log.rtake cap))) ▸ hline)
      · rw [Client.sayAll_eq] at hline
        exact absurd (hqueue ▸ hline) List.not_mem_nil
  | @receive c b line coming due log rest hphase hqueue =>
      have hshows : c.phase.shows = true := by rw [hphase]; rfl
      refine ⟨fun hno => absurd (hno.symm.trans hshows) Bool.false_ne_true,
        fun hwaits => ?_, fun _ => ?_, fun l hl => ?_, h.quiet, fun hlive l hl => ?_⟩
      · exact absurd ((Phase.not_waits_of_shows hshows).symm.trans hwaits) Bool.false_ne_true
      · change (c.sent ++ [Message.live line]).filterMap Message.logLine? =
          (log.take c.since).rtake cap ++
            (c.sent ++ [Message.live line]).filterMap Message.liveLine?
        rw [List.filterMap_append, List.filterMap_append, ← List.append_assoc]
        exact congrArg (· ++ [line]) (h.shows hshows)
      · have hl : l ∈ (c.sent ++ [Message.live line]).filterMap Message.liveLine? := hl
        rw [List.filterMap_append] at hl
        rcases List.mem_append.mp hl with hl | hl
        · exact h.oneLine l hl
        · rw [List.mem_singleton.mp hl]
          exact h.queued hphase line (hqueue ▸ List.mem_cons_self)
      · exact h.queued hphase l (hqueue ▸ List.mem_cons_of_mem line hl)
  | fellBehind hphase =>
      exact h.finish (by rw [hphase]; rfl) (.inl rfl)
        ((logLines_sayAll _ [.fellBehind]).trans (List.append_nil _))
        (@liveLines_sayAll _ [.fellBehind] rfl) rfl
  | done hphase => exact h.finish (by rw [hphase]; rfl) (.inl rfl) rfl rfl rfl
  | unsub hphase => exact h.finish (by rw [hphase]; rfl) (.inr ⟨rfl, rfl⟩) rfl rfl rfl
  | unsubDropped hphase => exact h.finish (by rw [hphase]; rfl) (.inr ⟨rfl, rfl⟩) rfl rfl rfl

theorem calm {capacity : Int} {maxLogClients : Nat} {w : World}
    (h : (system capacity maxLogClients).ReachedWhen Undisturbed w) (id : Nat) :
    (w.row id).Calm (ringSize capacity) := by
  have hboth : w.Inv (ringSize capacity) ∧ ∀ i, (w.row i).Calm (ringSize capacity) := by
    apply h.invariant
    · rintro s rfl
      refine ⟨World.inv_init capacity, fun i => ?_⟩
      exact ⟨fun _ => rfl, nofun, nofun, nofun, fun _ => nofun, nofun⟩
    · rintro s a t ⟨hs, hcalm⟩ hok hn
      refine ⟨hs.step hn, fun i => (hcalm i).step (hs.rows i) ?_⟩
      apply (hs.change _ hn).rows
      rintro p rfl j hsub
      exact hok.2 j (of_decide_eq_true hsub)
  exact hboth.2 id

theorem writes_next {maxLogClients : Nat} {w t : World} {a : Action}
    (hn : next maxLogClients w a = some t) :
    t.writes = w.writes ∨ ∃ p, a = .write p ∧ t.writes = w.writes ++ [p] := by
  cases a with
  | write p =>
      simp only [next, Option.ite_none_right_eq_some] at hn
      obtain ⟨-, hn⟩ := hn
      cases hn
      exact Or.inr ⟨p, rfl, rfl⟩
  | _ =>
      left
      grind [next, World.close, World.put, World.unsubscribe]

/-- Undisturbed, all that has been written ends in a newline. -/
theorem terminated_writes {capacity : Int} {maxLogClients : Nat} {w : World}
    (h : (system capacity maxLogClients).ReachedWhen Undisturbed w) :
    ∀ p ∈ w.writes, Terminated p := by
  apply h.invariant
  · rintro s rfl p hp
    cases hp
  · intro s a t hs hok hn p hp
    rcases writes_next hn with hsame | ⟨q, rfl, hmore⟩
    · exact hs p (hsame ▸ hp)
    · rw [hmore] at hp
      rcases List.mem_append.mp hp with hp | hp
      · exact hs p hp
      · rw [List.mem_singleton.mp hp]
        exact hok.1

/-! ## The integrity of the stream -/

/-- The ring is the end of the log, and the log is the complete lines of what has been written. A
channel that is subscribed is open, and brings the log from there on; another has been closed once,
and brings the log up to there. The events of a stream are its messages, and show one stretch of
the log. -/
structure Intact (cap : Nat) (w : World) : Prop where
  running : w.panicked = false
  lines : w.Lines = w.log.rtake (min cap w.log.length)
  complete : w.writer = none → w.log = completeLines w.writes.flatten
  following : ∀ id ∈ w.subscribers, (w.clients id).phase ≠ .gone ∧ (w.clients id).closes = 0 ∧
    (w.clients id).liveLines ++ (w.clients id).queue ++ w.due id = w.log.drop (w.clients id).since
  ended : ∀ id ∉ w.subscribers, (w.clients id).phase.started = true →
    (w.clients id).closes = 1 ∧ (w.clients id).since ≤ (w.clients id).left ∧
      (w.clients id).left ≤ w.log.length ∧
      (w.clients id).liveLines ++ (w.clients id).queue =
        (w.log.take (w.clients id).left).drop (w.clients id).since
  events : ∀ id, events (w.clients id).out = (w.clients id).sent.map fun m => message m.text
  stretch : ∀ id, (w.clients id).phase.shows = true → (w.clients id).logLines =
    (w.log.take ((w.clients id).since + (w.clients id).liveLines.length)).drop
      ((w.clients id).since - min cap (w.clients id).since)

theorem Row.Ok.liveLines_eq (h : r.Ok) (hstarted : r.client.phase.started = true) :
    r.client.liveLines = (r.log.drop r.client.since).take r.client.liveLines.length := by
  by_cases hsub : r.subscribed = true
  · obtain ⟨-, -, -, hlog⟩ := h.subscribed hsub
    rw [← hlog, List.append_assoc, List.take_left]
  · obtain ⟨-, hsince, hle, hlog⟩ := (h.unsubscribed (by simpa using hsub)).2 hstarted
    have hprefix : r.client.liveLines <+: r.log.drop r.client.since :=
      (List.prefix_append _ r.client.queue).trans
        (hlog ▸ (List.take_prefix r.client.left r.log).drop r.client.since)
    exact List.prefix_iff_eq_take.mp hprefix

/-- What a browser is shown is one stretch of the log: the ring's end of it at the time of the
subscription, and what came after that. -/
theorem Row.Calm.stretch (h : r.Calm cap) (hok : r.Ok) (hshows : r.client.phase.shows = true) :
    r.client.logLines = (r.log.take (r.client.since + r.client.liveLines.length)).drop
      (r.client.since - min cap r.client.since) := by
  have hstarted := Phase.started_of_shows hshows
  have hle := hok.since_le hstarted
  have hfrom : r.client.since - min cap r.client.since ≤ (r.log.take r.client.since).length := by
    rw [List.length_take]
    omega
  have hcap : (r.log.take r.client.since).length - cap =
      r.client.since - min cap r.client.since := by
    rw [List.length_take]
    omega
  rw [h.shows hshows, List.rtake, hcap, List.take_add, List.drop_append_of_le_length hfrom,
    ← hok.liveLines_eq hstarted]

/-- Undisturbed, the log, the channels and the streams are intact in every run. -/
theorem logs_intact {capacity : Int} {maxLogClients : Nat} {w : World}
    (h : (system capacity maxLogClients).ReachedWhen Undisturbed w) :
    Intact (ringSize capacity) w := by
  have hinv := World.inv h
  have hlog : w.writer = none → w.log = w.writes.flatMap written := by
    intro hnone
    rw [← hinv.log, World.coming, hnone, List.append_nil]
  constructor
  · exact hinv.running
  · have hlines : w.Lines = w.log.rtake (ringSize capacity) := hinv.capacity ▸ hinv.holds
    rw [hlines, List.rtake, List.rtake]
    congr 1
    omega
  · intro hnone
    exact (hlog hnone).trans (flatMap_written (terminated_writes h))
  · intro id hmem
    obtain ⟨hgone, hopen, -, hlines⟩ := (hinv.rows id).subscribed (decide_eq_true hmem)
    exact ⟨hgone, hopen, hlines⟩
  · intro id hmem
    exact ((hinv.rows id).unsubscribed (decide_eq_false hmem)).2
  · intro id
    have hout : (w.clients id).out = (w.clients id).sent.flatMap Message.frame :=
      (hinv.rows id).out
    have htexts : (w.clients id).sent.flatMap Message.frame =
        ((w.clients id).sent.map Message.text).flatMap EventStream.frame := by
      rw [List.flatMap_map]
      rfl
    rw [hout, htexts, events_frames, List.map_map]
    · rfl
    · intro text htext
      obtain ⟨m, hm, rfl⟩ := List.mem_map.mp htext
      apply Message.oneLine
      rintro line rfl
      exact (calm h id).oneLine line (List.mem_filterMap.mpr ⟨_, hm, rfl⟩)
  · intro id hshows
    exact (calm h id).stretch (hinv.rows id) hshows

/-- Lines are written before a browser comes, and while it follows the log. -/
def quietRun : List Action :=
  [.write (ascii "a\nb\n"), .record, .record, .wrote, .request 0, .subscribe 0,
    .announce 0 (.ok [ascii "s\r\r"]), .replay 0, .write (ascii "c\n"), .record, .send 0, .wrote,
    .receive 0]

theorem quietRun_intact : ∃ w, fire (next 1) Undisturbed (World.init 1) quietRun = some w ∧
    w.Lines = [ascii "c"] ∧ (w.clients 0).logLines = [ascii "b", ascii "c"] ∧
    Intact (ringSize 1) w := by
  refine ⟨(fire (next 1) Undisturbed (World.init 1) quietRun).get (by decide +kernel),
    (Option.some_get _).symm, by decide +kernel, by decide +kernel, ?_⟩
  exact @logs_intact 1 1 _ ((System.ReachedWhen.init rfl).fire (Option.some_get _).symm)

/-- A browser follows the log when a line with CRs in it is written. -/
def injectingRun : List Action :=
  [.request 0, .subscribe 0, .announce 0 (.ok []), .replay 0,
    .write (ascii "x\r\rdata: y\n"), .record, .send 0, .wrote, .receive 0]

/-- A line is written after a browser has subscribed, before it is shown the ring. -/
def repeatingRun : List Action :=
  [.request 0, .subscribe 0, .write (ascii "x\n"), .record, .send 0, .wrote,
    .announce 0 (.ok []), .replay 0, .receive 0]

/-- A line comes in two writes. -/
def splitRun : List Action :=
  [.write (ascii "ab"), .record, .wrote, .write (ascii "c\n"), .record, .wrote]

/-- The one line makes two events, by the CRs in it and by being shown twice, and two lines of the
ring. -/
theorem logs_injected :
    (∃ w, (system 3 1).Reached w ∧
      fire (next 1) (fun _ _ => True) (World.init 3) injectingRun = some w ∧
      ¬ Intact (ringSize 3) w) ∧
    (∃ w, (system 3 1).Reached w ∧
      fire (next 1) (fun _ _ => True) (World.init 3) repeatingRun = some w ∧
      ¬ Intact (ringSize 3) w) ∧
    ∃ w, (system 3 1).Reached w ∧
      fire (next 1) (fun _ _ => True) (World.init 3) splitRun = some w ∧
      ¬ Intact (ringSize 3) w := by
  have hinit : (system 3 1).Reached (World.init 3) := .init rfl
  refine ⟨?_, ?_, ?_⟩
  · refine ⟨(fire (next 1) (fun _ _ => True) (World.init 3) injectingRun).get (by decide +kernel),
      hinit.fire (Option.some_get _).symm, (Option.some_get _).symm, fun h => ?_⟩
    exact absurd (h.events 0) (by decide +kernel)
  · refine ⟨(fire (next 1) (fun _ _ => True) (World.init 3) repeatingRun).get (by decide +kernel),
      hinit.fire (Option.some_get _).symm, (Option.some_get _).symm, fun h => ?_⟩
    exact absurd (h.stretch 0 (by decide +kernel)) (by decide +kernel)
  · refine ⟨(fire (next 1) (fun _ _ => True) (World.init 3) splitRun).get (by decide +kernel),
      hinit.fire (Option.some_get _).symm, (Option.some_get _).symm, fun h => ?_⟩
    have hnone : ((fire (next 1) (fun _ _ => True) (World.init 3) splitRun).get
      (by decide +kernel)).writer.isNone = true := by decide +kernel
    exact absurd (h.complete (Option.isNone_iff_eq_none.mp hnone)) (by decide +kernel)

end Ps2Servers.WebUi
