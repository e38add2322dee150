import Ps2Servers.Ra.Ownership

/-!
# Jobs, lists and generations

Over every run a job is current only until something makes its result wrong, and never again after
that. A frame of memory is emitted for the list of its generation, when all of the list was sent in
that generation.

## Implementation notes

A history keeps what the receiver forgets: the datagrams and the replies, each with the generation
it came in, and the jobs that were handed out.
-/

namespace Ps2Servers.Ra

open Runs

variable {T : Type}

/-- The datagrams of a generation. -/
def packetsOf (received : List (Nat × Bytes)) (generation : Nat) : List Bytes :=
  (received.filter fun r => r.1 = generation).map Prod.snd

theorem packetsOf_mono {received received' : List (Nat × Bytes)} (h : received ⊆ received')
    (generation : Nat) : packetsOf received generation ⊆ packetsOf received' generation := by
  intro packet hpacket
  obtain ⟨r, hr, rfl⟩ := List.mem_map.mp hpacket
  rw [List.mem_filter] at hr
  exact List.mem_map_of_mem (List.mem_filter.mpr ⟨h hr.1, hr.2⟩)

theorem mem_packetsOf {received : List (Nat × Bytes)} {generation : Nat} {packet : Bytes}
    (h : (generation, packet) ∈ received) : packet ∈ packetsOf received generation :=
  List.mem_map.mpr ⟨_, List.mem_filter.mpr ⟨h, decide_eq_true rfl⟩, rfl⟩

/-- The part of the list was sent in the generation. -/
def Sent (replies : List (Nat × Bytes)) (generation : Nat) (watchFile : Bytes) (index : Nat) : Prop :=
  ∃ reply, watchChunk watchFile index = .ok reply ∧ (generation, reply) ∈ replies

/-- What holds of a receiver after what it received and replied. -/
structure Receiver.Ok (received replies : List (Nat × Bytes)) (s : Receiver T) : Prop where
  pending : ∀ p, s.pending = some p →
    p.job.token = s.token ∧ s.session.installed = none ∧ s.identified = none
  queued : ∀ job, s.queued = some job → s.pendingJob = some job
  identified : s.identified ≠ none → s.unsupported = false → s.session.installed ≠ none
  unsent : s.session.installed = none → s.sentChunks = []
  nodup : s.sentChunks.Nodup
  sent : ∀ i, s.session.installed = some i → ∀ index ∈ s.sentChunks,
    Sent replies s.session.generation i.watch.data index
  assembling : ∀ i, s.session.installed = some i →
    Assembling i.session (packetsOf received s.session.generation) i.assembler

/-- The frame is one of the list installed, all of which was sent in this generation. -/
def Receiver.Emits (received replies : List (Nat × Bytes)) (s : Receiver T) (output : ReceiverOutput) :
    Prop :=
  ∃ i, s.session.installed = some i ∧ output.generation = s.session.generation ∧
    Frame i.session (packetsOf received s.session.generation) output.values ∧
    ∀ index < chunkCount i.watch.data, Sent replies s.session.generation i.watch.data index

namespace Receiver

variable {received replies received' replies' : List (Nat × Bytes)} {s t : Receiver T}

theorem Ok.mono (h : s.Ok received replies) (hreceived : received ⊆ received')
    (hreplies : replies ⊆ replies') : s.Ok received' replies' := by
  refine { h with sent := ?_, assembling := ?_ }
  · intro i hi index hindex
    obtain ⟨reply, hreply, hmem⟩ := h.sent i hi index hindex
    exact ⟨reply, hreply, hreplies hmem⟩
  · intro i hi
    exact (h.assembling i hi).mono (packetsOf_mono hreceived _)

/-- The lease has no part in it. -/
theorem Ok.of_same (h : s.Ok received replies) (hsame : s.Same t) : t.Ok received replies := by
  obtain ⟨htoken, hpending, hqueued, hidentified, hunsupported, hchunks, hsession⟩ := hsame
  constructor
  · rw [hpending, htoken, hsession, hidentified]
    exact h.pending
  · unfold pendingJob
    rw [hqueued, hpending]
    exact h.queued
  · rw [hidentified, hunsupported, hsession]
    exact h.identified
  · rw [hsession, hchunks]
    exact h.unsent
  · rw [hchunks]
    exact h.nodup
  · rw [hsession, hchunks]
    exact h.sent
  · rw [hsession]
    exact h.assembling

/-- Nothing is left to be wrong. -/
theorem ok_clear (s : Receiver T) : s.clear.Ok received replies := by
  constructor
  · rintro p ⟨⟩
  · rintro job ⟨⟩
  · intro h
    exact absurd rfl h
  · intro
    rfl
  · exact List.nodup_nil
  · rintro i ⟨⟩
  · rintro i ⟨⟩

theorem ok_identify (s : Receiver T) (now : T) (imageHash serial : Str) :
    (s.identify now imageHash serial).Ok received replies := by
  constructor
  · intro p hp
    obtain rfl := Option.some.inj hp
    exact ⟨rfl, rfl, rfl⟩
  · rintro job hjob
    exact hjob
  · intro h
    exact absurd rfl h
  · intro
    rfl
  · exact List.nodup_nil
  · rintro i ⟨⟩
  · rintro i ⟨⟩

/-- What is not pending any more frees its token. -/
theorem Ok.release (h : s.Ok received replies) (token : Nat) :
    Ok received replies { s with token := token, pending := none, queued := none } := by
  refine { h with pending := ?_, queued := ?_ }
  · rintro p ⟨⟩
  · rintro job ⟨⟩

section

variable [Sub T] [LE T] [DecidableLE T] {limits : Limits T} {u : Folding}

theorem Ok.expire (h : s.Ok received replies) (now : T) :
    (s.expire limits now).Ok received replies := by
  unfold Receiver.expire
  split
  · exact s.ok_clear
  split
  · exact h.release _
  · exact h

theorem Ok.takeJobs (h : s.Ok received replies) (now : T) :
    (s.takeJobs limits now).2.Ok received replies := by
  have hexpired : (s.expire limits now).Ok received replies := h.expire now
  refine { hexpired with queued := ?_ }
  rintro job ⟨⟩

end

/-! ## Results of workers -/

/-- The job that is pending under the present token. -/
def Current (s : Receiver T) (job : IdentificationJob) : Prop :=
  s.pendingJob = some job ∧ job.token = s.token

/-- What a result does once what is over has expired. -/
inductive Completed (s : Receiver T) (job : Option IdentificationJob) (watchFile : Option Bytes)
    (m : Metadata) : Except ReceiverError Bool → Receiver T → Prop
  | ignored (hstale : ∀ j, job = some j → ¬s.Current j) : Completed s job watchFile m (.ok false) s
  | failed {j : IdentificationJob} {error : ReceiverError} (hjob : job = some j)
      (hcurrent : s.Current j) (herror : error ≠ .title) :
      Completed s job watchFile m (.error error) s
  | untitled {j : IdentificationJob} {session : WatchSession T} (hjob : job = some j)
      (hcurrent : s.Current j) (hfile : watchFile ≠ none) (htitle : m.title = none) :
      Completed s job watchFile m (.error .title) { s with session := session }
  | unlisted {j : IdentificationJob} (hjob : job = some j) (hcurrent : s.Current j)
      (hfile : watchFile = none) :
      Completed s job watchFile m (.ok true) (s.publish j m.unsupported m.unsupported)
  | listed {j : IdentificationJob} {i : Installed T} {title : Title} {achievements : Achievements}
      (hjob : job = some j) (hcurrent : s.Current j) (hfile : watchFile ≠ none)
      (hreset : i.assembler = .reset) :
      Completed s job watchFile m (.ok true) ({ s with
        session := ⟨s.session.generation + 1, some i⟩
        title := title
        achievements := achievements }.publish j true false)

theorem install_ok {w w' : WatchSession T} {timeout : T} {imageHash serial : Str} {data : Bytes}
    (h : w.install timeout imageHash serial data = .ok w') :
    ∃ i, w' = ⟨w.generation + 1, some i⟩ ∧ i.assembler = .reset := by
  unfold WatchSession.install at h
  split at h
  · cases h
  split at h
  · split at h
    · cases h
    · obtain rfl := Except.ok.inj h
      exact ⟨_, rfl, rfl⟩
  · cases h

section

variable {limits : Limits T} {u : Folding}

theorem completed_completeSet {s : Receiver T} {j : IdentificationJob} (hcurrent : s.Current j)
    (watchFile : Bytes) (m : Metadata) :
    s.Completed (some j) (some watchFile) m (s.completeSet limits u j watchFile m).1
      (s.completeSet limits u j watchFile m).2 := by
  have hfile : some watchFile ≠ none := Option.some_ne_none _
  unfold completeSet
  split
  · exact .failed rfl hcurrent nofun
  split
  · exact .failed rfl hcurrent nofun
  split
  · exact .failed rfl hcurrent nofun
  split
  · dsimp only
    split
    · exact .failed rfl hcurrent nofun
    · rename_i w' hinstall
      split
      · rename_i htitle
        exact .untitled rfl hcurrent hfile htitle
      · obtain ⟨i, rfl, hreset⟩ := install_ok hinstall
        exact .listed rfl hcurrent hfile hreset
  · exact .failed rfl hcurrent nofun

variable [Sub T] [LE T] [DecidableLE T]

theorem completed_complete (s : Receiver T) (now : T) (job : Option IdentificationJob)
    (watchFile : Option Bytes) (m : Metadata) :
    (s.expire limits now).Completed job watchFile m (s.complete limits u now job watchFile m).1
      (s.complete limits u now job watchFile m).2 := by
  unfold complete
  dsimp only
  split
  · exact .ignored nofun
  · rename_i j
    split
    · rename_i hstale
      refine .ignored fun j' hj' hcurrent => ?_
      obtain rfl := Option.some.inj hj'
      rcases hstale with h | h
      · exact h hcurrent.1
      · exact h hcurrent.2
    · rename_i hcurrent
      obtain ⟨hpending, htoken⟩ := not_or.mp hcurrent
      have hcurrent : (s.expire limits now).Current j := ⟨not_not.mp hpending, not_not.mp htoken⟩
      split
      · exact .unlisted rfl hcurrent rfl
      · exact completed_completeSet hcurrent _ m

end

variable {job : Option IdentificationJob} {watchFile : Option Bytes} {m : Metadata}
  {r : Except ReceiverError Bool}

/-- A list that has a title is taken or refused. -/
theorem Completed.ne_title (hstep : s.Completed job watchFile m r t)
    (htitle : ∀ j, job = some j → s.Current j → watchFile ≠ none → m.title ≠ none) :
    r ≠ .error .title := by
  cases hstep with
  | ignored => nofun
  | failed hjob hcurrent herror =>
      intro hr
      exact herror (Except.error.inj hr)
  | untitled hjob hcurrent hfile hnone => exact absurd hnone (htitle _ hjob hcurrent hfile)
  | unlisted => nofun
  | listed => nofun

/-- A result whose title raises nothing leaves nothing wrong. -/
theorem Ok.completed (h : s.Ok received replies) (hstep : s.Completed job watchFile m r t)
    (hr : r ≠ .error .title) : t.Ok received replies := by
  cases hstep with
  | ignored => exact h
  | failed => exact h
  | untitled => exact absurd rfl hr
  | unlisted hjob hcurrent hfile =>
      refine { h with pending := nofun, queued := nofun, identified := ?_ }
      unfold publish
      cases m.unsupported with
      | true =>
          rintro - ⟨⟩
      | false =>
          intro hidentified
          exact absurd rfl hidentified
  | listed hjob hcurrent hfile hreset =>
      obtain ⟨p, hp, -⟩ := Option.map_eq_some_iff.mp hcurrent.1
      have hunsent := h.unsent (h.pending p hp).2.1
      refine { h with
        pending := nofun, queued := nofun, identified := ?_, unsent := ?_, sent := ?_, assembling := ?_ }
      · rintro - - ⟨⟩
      · rintro ⟨⟩
      · intro i hi index hindex
        change index ∈ s.sentChunks at hindex
        rw [hunsent] at hindex
        cases hindex
      · intro i hi
        obtain rfl := Option.some.inj hi
        rw [hreset]
        exact assembling_reset

/-! ## Datagrams -/

/-- As many different parts as there are are all of them. -/
theorem sent_of_whole {i : Installed T} (h : s.Ok received replies)
    (hinstalled : s.session.installed = some i)
    (hwhole : s.sentChunks.length = chunkCount i.watch.data) :
    ∀ index < chunkCount i.watch.data, Sent replies s.session.generation i.watch.data index := by
  intro index hindex
  have hsub : s.sentChunks ⊆ List.range (chunkCount i.watch.data) := by
    intro k hk
    obtain ⟨reply, hreply, -⟩ := h.sent i hinstalled k hk
    exact List.mem_range.mpr (watchChunk_ok hreply).1
  have hperm : s.sentChunks.Perm (List.range (chunkCount i.watch.data)) := by
    apply (List.subperm_of_subset h.nodup hsub).perm_of_length_le
    rw [List.length_range, hwhole]
  exact h.sent i hinstalled index (hperm.mem_iff.mpr (List.mem_range.mpr hindex))

section

variable [Sub T] [LE T] [DecidableLE T]

/-- An assembler fed with a packet of its generation. -/
theorem Ok.fed (h : s.Ok received replies) {i : Installed T} {e : Event T}
    {outcome : Except FeedError (Option Bytes)} {a : Assembler T}
    (hinstalled : s.session.installed = some i)
    (hpacket : e.packet ∈ packetsOf received s.session.generation)
    (hfed : Fed i.session i.assembler e outcome a) :
    Ok received replies { s with session := s.session.withAssembler i a } := by
  obtain ⟨hassembling, -, -⟩ := (h.assembling i hinstalled).step hpacket hfed
  refine { h with pending := ?_, identified := ?_, unsent := ?_, sent := ?_, assembling := ?_ }
  · intro p hp
    have hnone := (h.pending p hp).2.1
    rw [hinstalled] at hnone
    cases hnone
  · rintro - - ⟨⟩
  · rintro ⟨⟩
  · intro i' hi'
    obtain rfl := Option.some.inj hi'
    exact h.sent i hinstalled
  · intro i' hi'
    obtain rfl := Option.some.inj hi'
    exact hassembling

/-- A datagram raises nothing and leaves nothing wrong, and a frame it completes is one of the list
that was sent. -/
theorem Ok.handled (h : s.Ok received replies) {now : T} {e : Event T}
    {r : Except ReceiverError ReceiverOutput} (hstep : s.Handled now e r t) :
    ∃ output, r = .ok output ∧
      t.Ok (received ++ [(t.session.generation, e.packet)])
        (replies ++ [(t.session.generation, output.reply)]) ∧
      (output.values ≠ [] →
        t.Emits (received ++ [(t.session.generation, e.packet)]) replies output) := by
  have hreceived : ∀ generation, received ⊆ received ++ [(generation, e.packet)] :=
    fun _ => List.subset_append_left _ _
  have hreplies : ∀ (generation : Nat) (reply : Bytes), replies ⊆ replies ++ [(generation, reply)] :=
    fun _ _ => List.subset_append_left _ _
  have hpacket : ∀ generation : Nat, e.packet ∈
      packetsOf (received ++ [(generation, e.packet)]) generation :=
    fun _ => mem_packetsOf (List.mem_append_right _ List.mem_cons_self)
  cases hstep with
  | answered hvalues hsame =>
      exact ⟨_, rfl, (h.mono (hreceived _) (hreplies _ _)).of_same hsame,
        fun hne => absurd hvalues hne⟩
  | chunked hvalues hinstalled hchunk hsame =>
      rename_i output i index
      refine ⟨_, rfl, Ok.of_same ?_ hsame, fun hne => absurd hvalues hne⟩
      have hok := h.mono (hreceived t.session.generation)
        (hreplies t.session.generation output.reply)
      refine { hok with unsent := ?_, nodup := ?_, sent := ?_ }
      · intro hnone
        rw [hinstalled] at hnone
        cases hnone
      · exact h.nodup.insert
      · intro i' hi' k hk
        obtain rfl := Option.some.inj (hinstalled.symm.trans hi')
        rcases List.mem_insert_iff.mp hk with rfl | hk
        · refine ⟨output.reply, hchunk, List.mem_append_right _ ?_⟩
          rw [hsame.session]
          exact List.mem_cons_self
        · exact hok.sent i hinstalled k hk
  | identified hvalues hsame =>
      exact ⟨_, rfl, (s.ok_identify now _ _).of_same hsame, fun hne => absurd hvalues hne⟩
  | fed hinstalled hfed hvalues hsame =>
      refine ⟨_, rfl, Ok.of_same ?_ hsame, fun hne => absurd hvalues hne⟩
      refine (h.mono (hreceived _) (hreplies _ _)).fed hinstalled ?_ hfed
      rw [hsame.session]
      exact hpacket _
  | emitted hinstalled hwhole hfed hgeneration hsame =>
      rename_i output i a
      have hok := h.mono (hreceived t.session.generation)
        (hreplies t.session.generation output.reply)
      have hfedPacket : e.packet ∈ packetsOf (received ++ [(t.session.generation, e.packet)])
          s.session.generation := by
        rw [hsame.session]
        exact hpacket _
      refine ⟨output, rfl, (hok.fed hinstalled hfedPacket hfed).of_same hsame, fun _ => ?_⟩
      obtain ⟨-, -, hframe⟩ := (hok.assembling i hinstalled).step hfedPacket hfed
      refine ⟨{ i with assembler := a }, ?_, ?_, ?_, ?_⟩
      · rw [hsame.session]
        rfl
      · rw [hsame.session]
        exact hgeneration
      · have hvalues := hframe output.values rfl
        rw [hsame.session] at hvalues ⊢
        exact hvalues
      · have hsent := sent_of_whole h hinstalled hwhole
        rw [hsame.session]
        exact hsent
  | missing hinstalled hfed =>
      obtain ⟨-, hkey, -⟩ := (((h.mono (hreceived s.session.generation)
        (List.Subset.refl replies)).assembling _ hinstalled).step (hpacket _) hfed)
      exact absurd rfl hkey
  | unlisted hidentified hsupported hnone => exact absurd hnone (h.identified hidentified hsupported)

end

/-! ## Tokens -/

/-- Tokens go up, and a job that becomes pending has a new one. -/
structure Advances (s t : Receiver T) : Prop where
  token : s.token ≤ t.token
  pending : ∀ job, t.pendingJob = some job → s.pendingJob = some job ∨ s.token < job.token

theorem Advances.refl (s : Receiver T) : s.Advances s := ⟨Nat.le_refl _, fun _ h => .inl h⟩

theorem Advances.trans {s t v : Receiver T} (h : s.Advances t) (h' : t.Advances v) :
    s.Advances v := by
  refine ⟨Nat.le_trans h.token h'.token, fun job hjob => ?_⟩
  rcases h'.pending job hjob with hold | hnew
  · exact h.pending job hold
  · exact .inr (Nat.lt_of_le_of_lt h.token hnew)

theorem advances_of_eq (htoken : t.token = s.token) (hpending : t.pending = s.pending) :
    s.Advances t := by
  refine ⟨Nat.le_of_eq htoken.symm, fun job hjob => .inl ?_⟩
  unfold pendingJob at hjob ⊢
  rw [← hpending]
  exact hjob

theorem advances_clear (s : Receiver T) : s.Advances s.clear := ⟨Nat.le_succ _, nofun⟩

theorem advances_identify (s : Receiver T) (now : T) (imageHash serial : Str) :
    s.Advances (s.identify now imageHash serial) := by
  refine ⟨Nat.le_succ _, fun job hjob => .inr ?_⟩
  obtain rfl := Option.some.inj hjob
  exact Nat.lt_succ_self _

theorem Completed.advances (h : s.Completed job watchFile m r t) :
    s.Advances t := by
  cases h with
  | ignored => exact .refl s
  | failed => exact .refl s
  | untitled => exact ⟨Nat.le_refl _, fun _ h => .inl h⟩
  | unlisted => exact ⟨Nat.le_refl _, nofun⟩
  | listed => exact ⟨Nat.le_refl _, nofun⟩

/-- The job was given out and is not pending any more. -/
def Revoked (s : Receiver T) (job : IdentificationJob) : Prop :=
  job.token ≤ s.token ∧ s.pendingJob ≠ some job

theorem Revoked.advances {job : IdentificationJob} (h : s.Revoked job) (hstep : s.Advances t) :
    t.Revoked job := by
  refine ⟨Nat.le_trans h.1 hstep.token, fun hjob => ?_⟩
  rcases hstep.pending job hjob with hold | hnew
  · exact h.2 hold
  · exact absurd h.1 (Nat.not_le_of_lt hnew)

section

variable [Sub T] [LE T] [DecidableLE T] {limits : Limits T} {u : Folding}

theorem advances_expire (s : Receiver T) (now : T) : s.Advances (s.expire limits now) := by
  unfold expire
  split
  · exact s.advances_clear
  split
  · exact ⟨Nat.le_succ _, nofun⟩
  · exact .refl s

theorem Handled.advances {now : T} {e : Event T} {r : Except ReceiverError ReceiverOutput}
    (hok : s.Ok received replies) (h : s.Handled now e r t) : s.Advances t := by
  cases h with
  | answered _ hsame => exact advances_of_eq hsame.token hsame.pending
  | chunked _ _ _ hsame => exact advances_of_eq hsame.token hsame.pending
  | identified _ hsame =>
      exact (advances_identify s now _ _).trans (advances_of_eq hsame.token hsame.pending)
  | fed _ _ _ hsame => exact advances_of_eq hsame.token hsame.pending
  | emitted _ _ _ _ hsame => exact advances_of_eq hsame.token hsame.pending
  | missing hinstalled hfed =>
      have hraised : s.Handled now e (.error .key) s := .missing hinstalled hfed
      obtain ⟨output, houtput, -⟩ := hok.handled hraised
      cases houtput
  | unlisted hidentified hsupported hnone => exact absurd hnone (hok.identified hidentified hsupported)

/-- A result that is not of the current job is ignored. -/
theorem complete_of_stale {now : T} {job : Option IdentificationJob} {watchFile : Option Bytes}
    {m : Metadata} (h : ∀ j, job = some j → ¬(s.expire limits now).Current j) :
    s.complete limits u now job watchFile m = (.ok false, s.expire limits now) := by
  unfold complete
  cases job with
  | none => rfl
  | some j =>
      have hstale : (s.expire limits now).pendingJob ≠ some j ∨
          j.token ≠ (s.expire limits now).token := by
        by_contra hcurrent
        obtain ⟨hpending, htoken⟩ := not_or.mp hcurrent
        exact h j rfl ⟨not_not.mp hpending, not_not.mp htoken⟩
      exact if_pos hstale

/-- What is over leaves no job. -/
theorem pendingJob_expire {now : T} (h : s.leaseOver limits now ∨ s.identifyOver limits now) :
    (s.expire limits now).pendingJob = none := by
  unfold expire
  split
  · rfl
  · rename_i hlease
    rw [if_pos (h.resolve_left hlease)]
    rfl

omit [DecidableLE T] in
theorem countWindow_eq [DecidableLE T] (limits : Limits T) (s : Receiver T) (now : T) :
    ∃ window requests datagrams, s.countWindow limits now =
      { s with window := window, requests := requests, datagrams := datagrams } := by
  unfold countWindow
  split
  · exact ⟨_, _, _, rfl⟩
  · exact ⟨s.window, s.requests, s.datagrams, rfl⟩

/-- What another source sends counts for nothing. -/
theorem receive_of_other {now feedNow : T} {packet : Option Bytes} {peer : Peer} {o : UInt32}
    (howner : (s.expire limits now).owner = some o)
    (hother : ∀ source, sourceEndpoint peer = some source → source.address ≠ o) :
    s.receive limits now feedNow packet peer =
      (.ok .empty, (s.expire limits now).countWindow limits now) := by
  have howner : ((s.expire limits now).countWindow limits now).owner = some o := by
    unfold countWindow
    split
    · exact howner
    · exact howner
  unfold receive
  dsimp only
  split
  · rename_i packet source hsource
    rw [howner]
    exact if_pos (decide_eq_true (hother source hsource))
  · rfl

end

/-- A reply is for the image that is identified or pending. -/
def AnsweredFor (identity : Str × Str) (r : Except ReceiverError ReceiverOutput × Receiver T) :
    Prop :=
  ∀ output, r.1 = .ok output → output.reply ≠ [] → r.2.identified = some identity ∨
    r.2.pendingJob.map IdentificationJob.identity = some identity

theorem answeredFor_of_reply {identity : Str × Str} {output : ReceiverOutput}
    (h : output.reply = []) : AnsweredFor identity (.ok output, s) := by
  intro output' houtput hreply
  obtain rfl := Except.ok.inj houtput
  exact absurd h hreply

theorem answeredFor_respond {identity : Str × Str} (h : s.identified = some identity ∨
    s.pendingJob.map IdentificationJob.identity = some identity) (body : Bytes)
    (destination : Endpoint) : AnsweredFor identity (s.respond body destination) := by
  intro output houtput hreply
  unfold respond
  split
  · exact h
  · exact h

theorem answeredFor_receiveQuery (s : Receiver T) (now : T) (request : ConsoleRequest)
    (destination : Endpoint) :
    AnsweredFor (request.imageHash, request.serial) (s.receiveQuery now request destination) := by
  unfold receiveQuery
  dsimp only
  split
  · rename_i hidentified
    split
    · exact answeredFor_respond (.inl hidentified) _ _
    split
    · rintro output ⟨⟩
    split
    · rintro output ⟨⟩
    · exact answeredFor_respond (.inl hidentified) _ _
  · apply answeredFor_respond
    right
    split
    · rfl
    · rename_i hsame
      exact not_not.mp hsame

section

variable [Sub T] [LE T] [DecidableLE T] {limits : Limits T} {peer : Peer} {packet : Bytes}
  {request : ConsoleRequest}

theorem answeredFor_receiveTelemetry (identity : Str × Str) (s : Receiver T) (now feedNow : T)
    (packet : Bytes) (source : Endpoint) :
    AnsweredFor identity (s.receiveTelemetry now feedNow packet source) := by
  unfold receiveTelemetry
  split
  · split
    · exact answeredFor_of_reply rfl
    dsimp only
    split
    · exact answeredFor_of_reply rfl
    · rintro output ⟨⟩
    · exact answeredFor_of_reply rfl
    · exact answeredFor_of_reply rfl
  · exact answeredFor_of_reply rfl

/-- A query that is answered is answered for its own image. -/
theorem answeredFor_receive (hrequest : parseRequest packet peer = .ok request)
    (hkind : request.kind = .RAQ1) (s : Receiver T) (now feedNow : T) :
    AnsweredFor (request.imageHash, request.serial)
      (s.receive limits now feedNow (some packet) peer) := by
  unfold receive
  dsimp only
  split
  · rename_i packet' source hpacket hsource
    obtain rfl := Option.some.inj hpacket
    split
    · exact answeredFor_of_reply rfl
    split
    · exact answeredFor_of_reply rfl
    split
    · exact answeredFor_receiveTelemetry _ _ now feedNow packet source
    · unfold receiveRequest
      dsimp only
      split
      · exact answeredFor_of_reply rfl
      rw [hrequest]
      dsimp only
      split
      · exact answeredFor_of_reply rfl
      · unfold answer
        rw [hkind]
        exact answeredFor_receiveQuery _ now request _
  · exact answeredFor_of_reply rfl

end

end Receiver

/-! ## Histories -/

inductive ReceiverEvent (T : Type)
  | receive (now feedNow : T) (packet : Option Bytes) (peer : Peer)
  | takeJobs (now : T)
  | complete (now : T) (job : Option IdentificationJob) (watchFile : Option Bytes) (m : Metadata)
  | tick (now : T)
  | clear

structure History (T : Type) where
  receiver : Receiver T
  received : List (Nat × Bytes)
  replies : List (Nat × Bytes)
  issued : List IdentificationJob

def History.start (now : T) : History T := ⟨.start now, [], [], []⟩

section

variable [Sub T] [LE T] [DecidableLE T] (limits : Limits T) (u : Folding)

def History.next (h : History T) : ReceiverEvent T → History T
  | .receive now feedNow packet peer =>
      let result := h.receiver.receive limits now feedNow packet peer
      let generation := result.2.session.generation
      { h with
        receiver := result.2
        received := h.received ++ packet.toList.map fun packet => (generation, packet)
        replies := h.replies ++ result.1.toOption.toList.map fun output => (generation, output.reply) }
  | .takeJobs now =>
      let result := h.receiver.takeJobs limits now
      { h with receiver := result.2, issued := h.issued ++ result.1.toList }
  | .complete now job watchFile m =>
      { h with receiver := (h.receiver.complete limits u now job watchFile m).2 }
  | .tick now => { h with receiver := h.receiver.tick limits now }
  | .clear => { h with receiver := h.receiver.clear }

/-- All runs of a receiver. -/
def receiverRuns (now : T) : System (History T) (ReceiverEvent T) :=
  .ofNext (.start now) (History.next limits u)

/-- The result of the current job has a title if it has a list. -/
def Titled (h : History T) : ReceiverEvent T → Prop
  | .complete now (some job) (some _) m =>
      (h.receiver.expire limits now).Current job → m.title ≠ none
  | _ => True

end

structure History.Ok (h : History T) : Prop where
  receiver : h.receiver.Ok h.received h.replies
  issued : ∀ job ∈ h.issued, job.token ≤ h.receiver.token

section

variable [Sub T] [LE T] [DecidableLE T] {limits : Limits T} {u : Folding}

theorem Receiver.advances_takeJobs (s : Receiver T) (now : T) :
    s.Advances (s.takeJobs limits now).2 :=
  (s.advances_expire now).trans (advances_of_eq rfl rfl)

/-- A datagram that is no datagram does nothing. -/
theorem Receiver.receive_none (s : Receiver T) (now feedNow : T) (peer : Peer) :
    s.receive limits now feedNow none peer =
      (.ok .empty, (s.expire limits now).countWindow limits now) := by
  unfold receive
  rfl

theorem History.Ok.advances {h : History T} (hok : h.Ok) (e : ReceiverEvent T) :
    h.receiver.Advances (h.next limits u e).receiver := by
  cases e with
  | receive now feedNow packet peer =>
      have hexpire : h.receiver.Advances (h.receiver.expire limits now) :=
        h.receiver.advances_expire now
      refine hexpire.trans ?_
      cases packet with
      | none =>
          have hsame := Receiver.same_countWindow limits (h.receiver.expire limits now) now
          unfold next
          dsimp only
          rw [Receiver.receive_none]
          exact Receiver.advances_of_eq hsame.token hsame.pending
      | some packet =>
          exact (Receiver.handled_receive limits h.receiver now feedNow packet peer).advances
            (hok.receiver.expire now)
  | takeJobs now => exact h.receiver.advances_takeJobs now
  | complete now job watchFile m =>
      exact (h.receiver.advances_expire now).trans
        (Receiver.completed_complete h.receiver now job watchFile m).advances
  | tick now => exact h.receiver.advances_expire now
  | clear => exact h.receiver.advances_clear

/-- A datagram raises nothing and leaves nothing wrong, and a frame it completes is one of the list
that was sent before. -/
theorem Receiver.Ok.receive {s : Receiver T} {received replies : List (Nat × Bytes)}
    (h : s.Ok received replies) (now feedNow : T) (packet : Option Bytes) (peer : Peer) :
    ∃ output, (s.receive limits now feedNow packet peer).1 = .ok output ∧
      (s.receive limits now feedNow packet peer).2.Ok
        (received ++ packet.toList.map fun bytes =>
          ((s.receive limits now feedNow packet peer).2.session.generation, bytes))
        (replies ++
          [((s.receive limits now feedNow packet peer).2.session.generation, output.reply)]) ∧
      (output.values ≠ [] → (s.receive limits now feedNow packet peer).2.Emits
        (received ++ packet.toList.map fun bytes =>
          ((s.receive limits now feedNow packet peer).2.session.generation, bytes))
        replies output) := by
  have hexpired : (s.expire limits now).Ok received replies := h.expire now
  cases packet with
  | none =>
      refine ⟨.empty, ?_, ?_, fun hne => absurd rfl hne⟩
      · rw [receive_none]
      · rw [receive_none]
        have hwindow := hexpired.of_same (same_countWindow limits _ now)
        exact hwindow.mono (List.subset_append_left _ _) (List.subset_append_left _ _)
  | some packet => exact hexpired.handled (handled_receive limits s now feedNow packet peer)

theorem History.Ok.next {h : History T} (hok : h.Ok) {e : ReceiverEvent T}
    (htitled : Titled limits h e) : (h.next limits u e).Ok := by
  have hadvances : h.receiver.Advances (h.next limits u e).receiver := hok.advances e
  have hissued : ∀ job ∈ h.issued, job.token ≤ (h.next limits u e).receiver.token :=
    fun job hjob => Nat.le_trans (hok.issued job hjob) hadvances.token
  cases e with
  | receive now feedNow packet peer =>
      obtain ⟨output, houtput, hreceiver, -⟩ := hok.receiver.receive now feedNow packet peer
      refine ⟨?_, hissued⟩
      unfold History.next
      dsimp only
      rw [houtput]
      exact hreceiver
  | takeJobs now =>
      refine ⟨hok.receiver.takeJobs now, fun job hjob => ?_⟩
      rcases List.mem_append.mp hjob with hold | hnew
      · exact hissued job hold
      · have hexpired : (h.receiver.expire limits now).Ok h.received h.replies :=
          hok.receiver.expire now
        have hqueued : (h.receiver.expire limits now).queued = some job := Option.mem_toList.mp hnew
        obtain ⟨p, hp, rfl⟩ := Option.map_eq_some_iff.mp (hexpired.queued job hqueued)
        exact Nat.le_of_eq (hexpired.pending p hp).1
  | complete now job watchFile m =>
      refine ⟨?_, hissued⟩
      have hexpired : (h.receiver.expire limits now).Ok h.received h.replies := hok.receiver.expire now
      have hstep : (h.receiver.expire limits now).Completed job watchFile m _ _ :=
        Receiver.completed_complete (u := u) h.receiver now job watchFile m
      apply hexpired.completed hstep
      apply hstep.ne_title
      rintro j rfl hcurrent hfile
      obtain ⟨data, rfl⟩ := Option.ne_none_iff_exists'.mp hfile
      exact htitled hcurrent
  | tick now => exact ⟨hok.receiver.expire now, hissued⟩
  | clear => exact ⟨h.receiver.ok_clear, hissued⟩

/-- A job that was revoked stays so. -/
theorem History.Ok.revoked_along {h : History T} (hok : h.Ok) {job : IdentificationJob}
    (hrevoked : h.receiver.Revoked job) {events : List (ReceiverEvent T)}
    (halong : Along (History.next limits u) (Titled limits) h events) :
    (events.foldl (History.next limits u) h).receiver.Revoked job := by
  induction events generalizing h with
  | nil => exact hrevoked
  | cons e events ih =>
      exact ih (hok.next halong.1) (hrevoked.advances (hok.advances e)) halong.2

theorem History.ok_of_reached {now : T} {h : History T}
    (hreached : (receiverRuns limits u now).ReachedWhen (Titled limits) h) : h.Ok := by
  refine hreached.invariant ?_ ?_
  · rintro h rfl
    exact ⟨Receiver.ok_clear _, nofun⟩
  · rintro h e h' hok htitled rfl
    exact hok.next htitled

end

end Ps2Servers.Ra
