import Ps2Servers.Ra.Generations

/-!
# The evaluated receiver

A receiver with the native evaluator of the list it has installed. The evaluator is made with the
generation its list will have, and it goes when the generation does.

## Implementation notes

Whether the native library takes the conditions of a set is said by the result that brings them.
What it makes of a frame comes after the receiver has spoken and changes neither of the two.
-/

namespace Ps2Servers.Ra

open Runs
open Text (lit)

variable {T : Type}

structure EvaluatedReceiver (T : Type) where
  receiver : Receiver T
  /-- The generation of the evaluator. -/
  evaluator : Option Nat
  closed : Bool

inductive EvaluatedError
  | closed
  | evaluator
  | receiver (error : ReceiverError)
  deriving DecidableEq, Repr

namespace EvaluatedReceiver

def start (now : T) : EvaluatedReceiver T := ⟨.start now, none, false⟩

/-- `_reconcile` -/
def reconcile (s : EvaluatedReceiver T) : EvaluatedReceiver T :=
  match s.evaluator with
  | none => s
  | some generation =>
      if s.receiver.session.installed.isNone ∨ generation ≠ s.receiver.session.generation then
        { s with evaluator := none }
      else s

/-- The receiver's state is another one, and the evaluator goes with its generation. -/
def withReceiver (s : EvaluatedReceiver T) (receiver : Receiver T) : EvaluatedReceiver T :=
  { s with receiver := receiver }.reconcile

section

variable [Sub T] [LE T] [DecidableLE T] (limits : Limits T) (u : Folding)

/-- The end of `tick`, after the check that the receiver is open. -/
def expire (s : EvaluatedReceiver T) (now : T) : EvaluatedReceiver T :=
  s.withReceiver (s.receiver.tick limits now)

def tick (s : EvaluatedReceiver T) (now : T) : Except EvaluatedError Unit × EvaluatedReceiver T :=
  if s.closed then (.error .closed, s) else (.ok (), s.expire limits now)

/-- The clock is read by `tick` and again by the receiver. -/
def takeJobs (s : EvaluatedReceiver T) (now again : T) :
    Except EvaluatedError (Option IdentificationJob) × EvaluatedReceiver T :=
  if s.closed then (.error .closed, s)
  else
    let s := s.expire limits now
    let result := s.receiver.takeJobs limits again
    (.ok result.1, { s with receiver := result.2 })

/-- A set of the current job, whose conditions the native library takes or not. -/
def completeSet (s : EvaluatedReceiver T) (again : T) (job : IdentificationJob) (watchFile : Bytes)
    (activates : Bool) (m : Metadata) : Except EvaluatedError Bool × EvaluatedReceiver T :=
  if ¬activates then (.error .evaluator, s.withReceiver s.receiver.clear)
  else
    let candidate := s.receiver.session.generation + 1
    let result := s.receiver.complete limits u again (some job) (some watchFile) m
    match result.1 with
    | .error error => (.error (.receiver error), s.withReceiver result.2.clear)
    | .ok false => (.ok false, { s with receiver := result.2 })
    | .ok true => (.ok true, { s.withReceiver result.2 with evaluator := some candidate })

def complete (s : EvaluatedReceiver T) (now again : T) (job : Option IdentificationJob)
    (watchFile : Option Bytes) (activates : Bool) (m : Metadata) :
    Except EvaluatedError Bool × EvaluatedReceiver T :=
  if s.closed then (.error .closed, s)
  else
    let s := s.expire limits now
    match job with
    | none => (.ok false, s)
    | some job =>
        if s.receiver.pendingJob ≠ some job ∨ job.token ≠ s.receiver.token then (.ok false, s)
        else
          match watchFile with
          | none =>
              let result := s.receiver.complete limits u again (some job) none m
              match result.1 with
              | .error error => (.error (.receiver error), { s with receiver := result.2 })
              | .ok accepted => (.ok accepted, s.withReceiver result.2)
          | some watchFile => s.completeSet limits u again job watchFile activates m

def receive (s : EvaluatedReceiver T) (now feedNow : T) (packet : Option Bytes) (peer : Peer) :
    Except EvaluatedError ReceiverOutput × EvaluatedReceiver T :=
  if s.closed then (.error .closed, s)
  else
    let result := s.receiver.receive limits now feedNow packet peer
    match result.1 with
    | .error error => (.error (.receiver error), { s with receiver := result.2 })
    | .ok output => (.ok output, s.withReceiver result.2)

end

def reset (s : EvaluatedReceiver T) : Except EvaluatedError Unit × EvaluatedReceiver T :=
  if s.closed then (.error .closed, s) else (.ok (), s.withReceiver s.receiver.clear)

def close (s : EvaluatedReceiver T) : EvaluatedReceiver T :=
  if s.closed then s else { s.reset.2 with closed := true }

end EvaluatedReceiver

/-! ## Runs -/

inductive EvaluatedEvent (T : Type)
  | receive (now feedNow : T) (packet : Option Bytes) (peer : Peer)
  | takeJobs (now again : T)
  | complete (now again : T) (job : Option IdentificationJob) (watchFile : Option Bytes)
      (activates : Bool) (m : Metadata)
  | tick (now : T)
  | reset
  | close

namespace EvaluatedReceiver

section

variable [Sub T] [LE T] [DecidableLE T] (limits : Limits T) (u : Folding)

def next (s : EvaluatedReceiver T) : EvaluatedEvent T → EvaluatedReceiver T
  | .receive now feedNow packet peer => (s.receive limits now feedNow packet peer).2
  | .takeJobs now again => (s.takeJobs limits now again).2
  | .complete now again job watchFile activates m =>
      (s.complete limits u now again job watchFile activates m).2
  | .tick now => (s.tick limits now).2
  | .reset => s.reset.2
  | .close => s.close

/-- All runs of an evaluated receiver. -/
def runs (now : T) : System (EvaluatedReceiver T) (EvaluatedEvent T) :=
  .ofNext (.start now) (next limits u)

/-- The lease of an evaluated list is not over between the two readings of `take_jobs`. -/
def Undivided (s : EvaluatedReceiver T) : EvaluatedEvent T → Prop
  | .takeJobs now again => s.closed = false → (s.expire limits now).evaluator ≠ none →
      (s.expire limits now).receiver.leaseOver limits again = false
  | _ => True

end

/-! ## The evaluator's generation -/

/-- The evaluator is of the generation that is installed. -/
def Bound (s : EvaluatedReceiver T) : Prop :=
  ∀ generation, s.evaluator = some generation →
    s.receiver.session.installed ≠ none ∧ s.receiver.session.generation = generation

theorem bound_reconcile (s : EvaluatedReceiver T) : s.reconcile.Bound := by
  unfold reconcile
  split
  · rename_i hnone
    intro generation hgeneration
    rw [hnone] at hgeneration
    cases hgeneration
  · rename_i generation hevaluator
    split
    · rintro generation ⟨⟩
    · rename_i hfresh
      obtain ⟨hinstalled, hsame⟩ := not_or.mp hfresh
      intro generation' hgeneration'
      obtain rfl := Option.some.inj (hevaluator.symm.trans hgeneration')
      refine ⟨fun hnone => hinstalled ?_, (not_not.mp hsame).symm⟩
      rw [hnone]
      rfl

theorem receiver_reconcile (s : EvaluatedReceiver T) : s.reconcile.receiver = s.receiver := by
  unfold reconcile
  split
  · rfl
  split <;> rfl

theorem receiver_withReceiver (s : EvaluatedReceiver T) (receiver : Receiver T) :
    (s.withReceiver receiver).receiver = receiver :=
  receiver_reconcile _

/-- What holds of an evaluated receiver after every call. -/
structure Ok (s : EvaluatedReceiver T) : Prop where
  receiver : ∃ received replies, s.receiver.Ok received replies
  bound : s.Bound

theorem ok_withReceiver (s : EvaluatedReceiver T) {receiver : Receiver T}
    (h : ∃ received replies, receiver.Ok received replies) : (s.withReceiver receiver).Ok := by
  refine ⟨?_, bound_reconcile _⟩
  rw [receiver_withReceiver]
  exact h

/-- A pending job has no list, and so no evaluator. -/
theorem Ok.evaluator_of_current {s : EvaluatedReceiver T} (h : s.Ok) {job : IdentificationJob}
    (hcurrent : s.receiver.Current job) : s.evaluator = none := by
  obtain ⟨received, replies, hreceiver⟩ := h.receiver
  obtain ⟨p, hp, -⟩ := Option.map_eq_some_iff.mp hcurrent.1
  by_contra hevaluator
  obtain ⟨generation, hgeneration⟩ := Option.ne_none_iff_exists'.mp hevaluator
  exact (h.bound generation hgeneration).1 (hreceiver.pending p hp).2.1

section

variable [Sub T] [LE T] [DecidableLE T] {limits : Limits T} {u : Folding} {s : EvaluatedReceiver T}

theorem session_expire {r : Receiver T} {now : T} (h : r.leaseOver limits now = false) :
    (r.expire limits now).session = r.session := by
  unfold Receiver.expire
  rw [h, if_neg Bool.false_ne_true]
  split <;> rfl

/-- A job that is still current when the clock is read again had its lease all the time. -/
theorem session_of_current {r : Receiver T} {now : T} {job : IdentificationJob}
    (h : (r.expire limits now).Current job) : (r.expire limits now).session = r.session := by
  apply session_expire
  cases hlease : r.leaseOver limits now with
  | false => rfl
  | true =>
      have hpending := h.1
      unfold Receiver.expire at hpending
      rw [hlease, if_pos rfl] at hpending
      cases hpending

theorem Ok.expire (h : s.Ok) (now : T) : (s.expire limits now).Ok := by
  obtain ⟨received, replies, hreceiver⟩ := h.receiver
  exact ok_withReceiver s ⟨received, replies, hreceiver.expire now⟩

theorem Ok.takeJobs (h : s.Ok) (now again : T)
    (hlease : (s.expire limits now).evaluator ≠ none →
      (s.expire limits now).receiver.leaseOver limits again = false) :
    (s.takeJobs limits now again).2.Ok := by
  unfold EvaluatedReceiver.takeJobs
  split
  · exact h
  · have hexpired : (s.expire limits now).Ok := h.expire now
    obtain ⟨received, replies, hreceiver⟩ := hexpired.receiver
    refine ⟨⟨received, replies, hreceiver.takeJobs again⟩, ?_⟩
    intro generation hgeneration
    have hsession : ((s.expire limits now).receiver.expire limits again).session =
        (s.expire limits now).receiver.session := by
      apply session_expire
      apply hlease
      rw [hgeneration]
      exact Option.some_ne_none _
    change ((s.expire limits now).receiver.expire limits again).session.installed ≠ none ∧
      ((s.expire limits now).receiver.expire limits again).session.generation = generation
    rw [hsession]
    exact hexpired.bound generation hgeneration

theorem Ok.completeSet (h : s.Ok) {job : IdentificationJob} (hcurrent : s.receiver.Current job)
    (again : T) (watchFile : Bytes) (activates : Bool) (m : Metadata) :
    (s.completeSet limits u again job watchFile activates m).2.Ok := by
  have hnone := h.evaluator_of_current hcurrent
  obtain ⟨received, replies, hreceiver⟩ := h.receiver
  have hexpired : (s.receiver.expire limits again).Ok received replies := hreceiver.expire again
  have hcleared : ∀ r : Receiver T, ∃ received replies, r.clear.Ok received replies :=
    fun r => ⟨[], [], r.ok_clear⟩
  have hstep : (s.receiver.expire limits again).Completed (some job) (some watchFile) m _ _ :=
    Receiver.completed_complete (u := u) s.receiver again (some job) (some watchFile) m
  unfold EvaluatedReceiver.completeSet
  split
  · exact ok_withReceiver s (hcleared _)
  dsimp only
  generalize (s.receiver.complete limits u again (some job) (some watchFile) m).1 = r at hstep ⊢
  generalize (s.receiver.complete limits u again (some job) (some watchFile) m).2 = t at hstep ⊢
  have hok : r ≠ .error .title → t.Ok received replies := hexpired.completed hstep
  cases hstep with
  | ignored =>
      refine ⟨⟨received, replies, hexpired⟩, ?_⟩
      intro generation hgeneration
      rw [show s.evaluator = some generation from hgeneration] at hnone
      cases hnone
  | failed => exact ok_withReceiver s (hcleared _)
  | untitled => exact ok_withReceiver s (hcleared _)
  | unlisted hjob hstill hfile => cases hfile
  | listed hjob hstill hfile hreset =>
      refine ⟨?_, ?_⟩
      · dsimp only
        rw [receiver_withReceiver]
        exact ⟨received, replies, hok nofun⟩
      · intro generation hgeneration
        obtain rfl := Option.some.inj hgeneration
        dsimp only
        rw [receiver_withReceiver]
        refine ⟨Option.some_ne_none _, ?_⟩
        change (s.receiver.expire limits again).session.generation + 1 = _
        rw [session_of_current hstill]

theorem Ok.complete (h : s.Ok) (now again : T) (job : Option IdentificationJob)
    (watchFile : Option Bytes) (activates : Bool) (m : Metadata) :
    (s.complete limits u now again job watchFile activates m).2.Ok := by
  have hexpired : (s.expire limits now).Ok := h.expire now
  unfold EvaluatedReceiver.complete
  split
  · exact h
  dsimp only
  split
  · exact hexpired
  rename_i job
  split
  · exact hexpired
  · rename_i hcurrent
    obtain ⟨hpending, htoken⟩ := not_or.mp hcurrent
    have hcurrent : (s.expire limits now).receiver.Current job :=
      ⟨not_not.mp hpending, not_not.mp htoken⟩
    split
    · obtain ⟨received, replies, hreceiver⟩ := hexpired.receiver
      have hagain : ((s.expire limits now).receiver.expire limits again).Ok received replies :=
        hreceiver.expire again
      have hstep : ((s.expire limits now).receiver.expire limits again).Completed (some job) none m
          _ _ := Receiver.completed_complete (u := u) _ again (some job) none m
      have hok := hagain.completed hstep (hstep.ne_title fun _ _ _ hfile => absurd rfl hfile)
      have hnone := hexpired.evaluator_of_current hcurrent
      split
      · refine ⟨⟨received, replies, hok⟩, ?_⟩
        intro generation hgeneration
        rw [show (s.expire limits now).evaluator = some generation from hgeneration] at hnone
        cases hnone
      · exact ok_withReceiver _ ⟨received, replies, hok⟩
    · exact hexpired.completeSet hcurrent again _ activates m

theorem Ok.receive (h : s.Ok) (now feedNow : T) (packet : Option Bytes) (peer : Peer) :
    (s.receive limits now feedNow packet peer).2.Ok := by
  obtain ⟨received, replies, hreceiver⟩ := h.receiver
  obtain ⟨output, houtput, hok, -⟩ := hreceiver.receive now feedNow packet peer
  unfold EvaluatedReceiver.receive
  split
  · exact h
  · dsimp only
    rw [houtput]
    exact ok_withReceiver s ⟨_, _, hok⟩

omit [Sub T] [LE T] [DecidableLE T] in
theorem Ok.reset (h : s.Ok) : s.reset.2.Ok := by
  unfold EvaluatedReceiver.reset
  split
  · exact h
  · exact ok_withReceiver s ⟨[], [], s.receiver.ok_clear⟩

theorem Ok.next (h : s.Ok) {e : EvaluatedEvent T} (hundivided : Undivided limits s e) :
    (s.next limits u e).Ok := by
  cases e with
  | receive now feedNow packet peer => exact h.receive now feedNow packet peer
  | takeJobs now again =>
      cases hclosed : s.closed with
      | true =>
          unfold EvaluatedReceiver.next EvaluatedReceiver.takeJobs
          dsimp only
          rw [if_pos hclosed]
          exact h
      | false => exact h.takeJobs now again (hundivided hclosed)
  | complete now again job watchFile activates m => exact h.complete now again job watchFile activates m
  | tick now =>
      unfold EvaluatedReceiver.next EvaluatedReceiver.tick
      dsimp only
      split
      · exact h
      · exact h.expire now
  | reset => exact h.reset
  | close =>
      unfold EvaluatedReceiver.next EvaluatedReceiver.close
      dsimp only
      split
      · exact h
      · exact ⟨h.reset.receiver, h.reset.bound⟩

theorem ok_of_reached {now : T}
    (hreached : (runs limits u now).ReachedWhen (Undivided limits) s) : s.Ok := by
  refine hreached.invariant ?_ ?_
  · rintro s rfl
    exact ⟨⟨[], [], Receiver.ok_clear _⟩, nofun⟩
  · rintro s e t hok hundivided rfl
    exact hok.next hundivided

end

end EvaluatedReceiver

/-! ## The receiver and its evaluator -/

section

variable [Sub T] [LE T] [DecidableLE T] (limits : Limits T) (u : Folding) (now₀ : T)

/-- Over every run in which a set of the current job has a title that can be read, a datagram raises
nothing; one of another source changes only counts; a result counts for the current job, and one
that was revoked never counts again; a frame is one of the list of its generation, sent whole. In
the evaluated receiver, when no lease ends between the readings of `take_jobs`, an evaluator is of
the generation installed. -/
theorem receiver_generations :
    (∀ h, (receiverRuns limits u now₀).ReachedWhen (Titled limits) h →
      (∀ now feedNow packet peer, ∃ output,
        (h.receiver.receive limits now feedNow packet peer).1 = .ok output ∧
        (output.values ≠ [] →
          (h.next limits u (.receive now feedNow packet peer)).receiver.Emits
            (h.next limits u (.receive now feedNow packet peer)).received h.replies output)) ∧
      (∀ now feedNow packet peer o, (h.receiver.expire limits now).owner = some o →
        (∀ source, sourceEndpoint peer = some source → source.address ≠ o) →
        (h.receiver.receive limits now feedNow packet peer).1 = .ok .empty ∧
        ∃ window requests datagrams, (h.receiver.receive limits now feedNow packet peer).2 =
          { h.receiver.expire limits now with
            window := window, requests := requests, datagrams := datagrams }) ∧
      (∀ now job watchFile m,
        (∀ j, job = some j → ¬(h.receiver.expire limits now).Current j) →
        h.receiver.complete limits u now job watchFile m = (.ok false, h.receiver.expire limits now)) ∧
      (∀ job ∈ h.issued, h.receiver.pendingJob ≠ some job →
        ∀ events, Along (History.next limits u) (Titled limits) h events →
        ∀ now watchFile m,
          (events.foldl (History.next limits u) h).receiver.complete limits u now (some job)
              watchFile m =
            (.ok false, (events.foldl (History.next limits u) h).receiver.expire limits now)) ∧
      (∀ now, h.receiver.leaseOver limits now ∨ h.receiver.identifyOver limits now →
        (h.receiver.expire limits now).pendingJob = none) ∧
      h.receiver.clear.pendingJob = none ∧
      (∀ now feedNow packet peer request output, parseRequest packet peer = .ok request →
        request.kind = .RAQ1 →
        (h.receiver.receive limits now feedNow (some packet) peer).1 = .ok output →
        output.reply ≠ [] →
        ∀ job, (h.receiver.receive limits now feedNow (some packet) peer).2.pendingJob = some job →
          job.identity = (request.imageHash, request.serial))) ∧
    (∀ s, (EvaluatedReceiver.runs limits u now₀).ReachedWhen (EvaluatedReceiver.Undivided limits) s →
      ∀ generation, s.evaluator = some generation →
        s.receiver.session.installed ≠ none ∧ s.receiver.session.generation = generation) := by
  refine ⟨fun h hreached => ?_, fun s hreached => ?_⟩
  · have hok := History.ok_of_reached hreached
    refine ⟨?_, ?_, ?_, ?_, ?_, rfl, ?_⟩
    · intro now feedNow packet peer
      obtain ⟨output, houtput, -, hemits⟩ := hok.receiver.receive now feedNow packet peer
      exact ⟨output, houtput, hemits⟩
    · intro now feedNow packet peer o howner hother
      rw [Receiver.receive_of_other howner hother]
      exact ⟨rfl, Receiver.countWindow_eq limits _ now⟩
    · intro now job watchFile m hstale
      exact Receiver.complete_of_stale hstale
    · intro job hjob hpending events halong now watchFile m
      have hrevoked : h.receiver.Revoked job := ⟨hok.issued job hjob, hpending⟩
      have hexpire : (events.foldl (History.next limits u) h).receiver.Advances
          ((events.foldl (History.next limits u) h).receiver.expire limits now) :=
        Receiver.advances_expire _ now
      have hnow := (hok.revoked_along hrevoked halong).advances hexpire
      apply Receiver.complete_of_stale
      rintro j hj hcurrent
      obtain rfl := Option.some.inj hj
      exact hnow.2 hcurrent.1
    · intro now hover
      exact Receiver.pendingJob_expire hover
    · intro now feedNow packet peer request output hrequest hkind houtput hreply job hjob
      obtain ⟨output', -, hreceived, -⟩ := hok.receiver.receive now feedNow (some packet) peer
      rcases Receiver.answeredFor_receive hrequest hkind h.receiver now feedNow output houtput hreply
        with hidentified | hpending
      · obtain ⟨p, hp, -⟩ := Option.map_eq_some_iff.mp hjob
        rw [(hreceived.pending p hp).2.2] at hidentified
        cases hidentified
      · rw [hjob] at hpending
        exact Option.some.inj hpending
  · exact (EvaluatedReceiver.ok_of_reached hreached).bound

end

/-- The limits of a receiver that is made without options. -/
def defaultLimits : Limits Int := ⟨15, 30, 1, 40, true⟩

/-- ASCII titles need no folding. -/
def plainFolding : Folding := ⟨id, fun _ => false⟩

/-- The console of 192.0.2.10. -/
def console : Peer := some [.text (lit "192.0.2.10"), .int 18195]

def request (text : String) : Bytes := (lit text).map CodePoint.toByte

/-- `RAQ1` for an image and its serial. -/
def query : Bytes := request "RAQ1 aaaaaaaaaaaaaaaaaaaaaaaaaaaaaaaa SLUS_210.65 192.0.2.10 18195"

/-- `RAG1` for the first part of its list. -/
def chunkRequest : Bytes := request "RAG1 aaaaaaaaaaaaaaaaaaaaaaaaaaaaaaaa 0 192.0.2.10 18195"

/-- Two values of two bytes each. -/
def twoWords : Bytes :=
  [0x52, 0x41, 0x57, 0x4c, 1, 0, 0, 0, 2, 0, 0, 0, 4, 0, 0, 0, 0, 0, 8, 0x20, 4, 0, 8, 0x20]

/-- The job of the first query. -/
def firstJob : IdentificationJob :=
  ⟨2, lit "aaaaaaaaaaaaaaaaaaaaaaaaaaaaaaaa", lit "SLUS_210.65"⟩

/-- The lease ends between the readings at 14 and at 15. -/
def divided : EvaluatedReceiver Int :=
  [.receive 0 0 (some query) console, .takeJobs 0 0,
    .complete 0 0 (some firstJob) (some twoWords) true ⟨false, none, some [], some 1⟩,
    .takeJobs 14 15].foldl (EvaluatedReceiver.next defaultLimits plainFolding) (.start 0)

/-- A list is installed, its title raises, its only part is sent, and it is installed again. -/
def retitled : History Int :=
  [.receive 0 0 (some query) console,
    .complete 0 (some firstJob) (some twoWords) ⟨false, none, none, some 1⟩,
    .receive 0 0 (some chunkRequest) console,
    .complete 0 (some firstJob) (some twoWords) ⟨false, none, some [], some 1⟩].foldl
      (History.next defaultLimits plainFolding) (.start 0)

/-- The first frame of a list. -/
def firstFrame : Bytes := frame [0x30, 0x30, 0x30, 0x30, 0x30, 0x30]

/-- A console in the same network. -/
def neighbour : Peer := some [.text (lit "192.0.2.11"), .int 18195]

/-- A list is installed, and its only part is sent. -/
def installed : History Int :=
  [.receive 0 0 (some query) console, .takeJobs 0,
    .complete 0 (some firstJob) (some twoWords) ⟨false, none, some [], some 1⟩,
    .receive 0 0 (some chunkRequest) console].foldl (History.next defaultLimits plainFolding)
      (.start 0)

theorem reachedWhen_installed :
    (receiverRuns defaultLimits plainFolding 0).ReachedWhen (Titled defaultLimits) installed :=
  System.ReachedWhen.along (.init rfl) ⟨trivial, trivial, fun _ htitle => (by cases htitle), trivial, trivial⟩

/-- The lease holds at both readings. -/
def undivided : EvaluatedReceiver Int :=
  [.receive 0 0 (some query) console, .takeJobs 0 0,
    .complete 0 0 (some firstJob) (some twoWords) true ⟨false, none, some [], some 1⟩,
    .takeJobs 13 14].foldl (EvaluatedReceiver.next defaultLimits plainFolding) (.start 0)

theorem reachedWhen_undivided :
    (EvaluatedReceiver.runs defaultLimits plainFolding 0).ReachedWhen
      (EvaluatedReceiver.Undivided defaultLimits) undivided :=
  System.ReachedWhen.along (.init rfl)
    ⟨trivial, fun _ _ => (by decide +kernel), trivial, fun _ _ => (by decide +kernel), trivial⟩

/-- The frame is emitted, a neighbour is not heard, and the evaluator is of the generation installed. -/
theorem receiver_generations_installed :
    ((installed.receiver.receive defaultLimits 0 0 (some firstFrame) console).1.toOption.map
        ReceiverOutput.values = some [1, 2, 3, 4] ∧
      ∃ output, (installed.receiver.receive defaultLimits 0 0 (some firstFrame) console).1 =
          .ok output ∧ (output.values ≠ [] →
        (installed.next defaultLimits plainFolding
            (.receive 0 0 (some firstFrame) console)).receiver.Emits
          (installed.next defaultLimits plainFolding
            (.receive 0 0 (some firstFrame) console)).received installed.replies output)) ∧
    (installed.receiver.receive defaultLimits 0 0 (some query) neighbour).1 = .ok .empty ∧
    undivided.evaluator = some 4 ∧ undivided.receiver.session.generation = 4 := by
  have hruns := receiver_generations defaultLimits plainFolding 0
  obtain ⟨hemits, hothers, -⟩ := hruns.1 installed reachedWhen_installed
  have hevaluator : undivided.evaluator = some 4 := by decide +kernel
  refine ⟨⟨by decide +kernel, hemits 0 0 (some firstFrame) console⟩, ?_, hevaluator,
    (hruns.2 undivided reachedWhen_undivided 4 hevaluator).2⟩
  have hneighbour : sourceEndpoint neighbour = some ⟨0xC000020B, 18195⟩ := by decide +kernel
  refine (hothers 0 0 (some query) neighbour 0xC000020A (by decide +kernel) ?_).1
  intro source hsource
  rw [hneighbour] at hsource
  cases hsource
  decide

/-- The evaluator stays when its generation is gone; and the frame is emitted in a generation in
which nothing was sent. -/
theorem generations_mixed :
    ((EvaluatedReceiver.runs defaultLimits plainFolding 0).Reached divided ∧
      divided.evaluator = some 4 ∧ divided.receiver.session.installed.isNone ∧
      divided.receiver.session.generation = 5) ∧
    ((receiverRuns defaultLimits plainFolding 0).Reached retitled ∧
      (retitled.receiver.receive defaultLimits 0 0 (some firstFrame) console).1.toOption.map
        (fun output => (output.values, output.generation)) = some ([1, 2, 3, 4], 5) ∧
      retitled.replies.all fun reply => reply.1 ≠ 5) := by
  refine ⟨⟨?_, ?_, ?_, ?_⟩, ?_, ?_, ?_⟩
  · exact System.ReachedWhen.along (.init rfl) (Along.of_forall (fun _ _ => trivial) _ _)
  · decide +kernel
  · decide +kernel
  · decide +kernel
  · exact System.ReachedWhen.along (.init rfl) (Along.of_forall (fun _ _ => trivial) _ _)
  · decide +kernel
  · decide +kernel

end Ps2Servers.Ra
