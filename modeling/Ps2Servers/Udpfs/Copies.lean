import Ps2Servers.Udpfs.Halves

/-!
# Copies of the last request

A console that misses an acknowledgement sends its request again. The base class knows the copy by
its number, the one before the number it expects. The compatibility layer comes first, and looks
only for the expected number before it lets a remembered DISCOVERY decide: a copy whose number is
the one a replacement would begin with is taken for a replacement's first request.
-/

namespace Ps2Servers.Udpfs

open Runs

variable {W O : Type} {cfg : CoreConfig W O} {s : Core W O}

/-! ## What a streaming session executes -/

variable (cfg) in
/-- A session that streams executes a request with this number: it is announced by a remembered
DISCOVERY, or the session has no profile and begins with it, or it is the number expected. -/
def Core.Readmits (s : Core W O) (seq : Nat) : Prop :=
  s.Announced seq ∧ (cfg.mode ≠ .standard ∨ seq = 0) ∨
    ¬ s.Announced seq ∧ s.profile = .pending ∧
      (classifyProfile s.discoverySequence seq = .modulo ∨ seq = 0) ∨
    ¬ s.Announced seq ∧ s.profile ≠ .pending ∧ takes s.rxExpected seq

instance (seq : Nat) : Decidable (s.Readmits cfg seq) :=
  inferInstanceAs (Decidable (_ ∨ _))

theorem takes_self (seq : Nat) : takes seq seq := Or.inl rfl

theorem takes_zero {seq : Nat} : takes 0 seq ↔ seq = 0 := by
  constructor
  · rintro (h | ⟨-, h⟩) <;> exact h
  · exact Or.inl

theorem takes_choose {discovery seq : Nat} :
    takes (if classifyProfile discovery seq = .modulo then seq else 0) seq ↔
      classifyProfile discovery seq = .modulo ∨ seq = 0 := by
  split
  · rename_i h
    exact iff_of_true (takes_self seq) (Or.inl h)
  · rename_i h
    rw [takes_zero, or_iff_right h]

/-- The number after a DISCOVERY's chooses the Modulo profile. -/
theorem classifyProfile_next (discovery : Nat) :
    classifyProfile discovery ((discovery + 1) % 0x1000) = .modulo := by
  have hfirst : (discovery + 1) % 0x1000 % 0x1000 = (discovery % 0x1000 + 1) % 0x1000 := by omega
  have hnonzero : (discovery + 1) % 0x1000 % 0x1000 ≠ 0 ∨ discovery % 0x1000 ≠ 0 := by omega
  rw [classifyProfile, if_pos ⟨hfirst, hnonzero⟩]

variable (cfg) in
/-- The state a request finds in the base class. -/
theorem classify_payload {datagram : Bytes} (hpayload : 0 < payloadSize datagram)
    (ingress : Socket) :
    let r := (s.resolveSequence cfg (seqNr datagram)).resolveZero cfg (seqNr datagram)
    (s.classify cfg datagram ingress).1.executed = r.executed ∧
      (s.classify cfg datagram ingress).1.rxStreaming = r.rxStreaming ∧
      (s.classify cfg datagram ingress).1.rxExpected =
        if r.profile = .pending then
          if classifyProfile r.discoverySequence (seqNr datagram) = .modulo then seqNr datagram
          else 0
        else if r.rxStreaming = false ∧ r.profile = .modulo then seqNr datagram
        else r.rxExpected := by
  intro r
  simp only [Core.classify, if_pos hpayload]
  by_cases hpending : r.profile = .pending
  · rw [if_pos hpending, if_pos ⟨hpending, hpayload⟩]
    exact ⟨choose_executed r _ ingress, choose_rxStreaming r _ ingress,
      choose_rxExpected r _ ingress⟩
  · rw [if_neg hpending, if_neg fun h : _ ∧ _ => hpending h.1]
    by_cases hstream : r.rxStreaming = true
    · rw [if_pos hstream, if_neg fun h : _ ∧ _ => Bool.noConfusion (hstream.symm.trans h.1)]
      exact ⟨rfl, rfl, rfl⟩
    · rw [if_neg hstream]
      by_cases hmodulo : r.profile = .modulo
      · rw [if_pos hmodulo, if_pos ⟨Bool.eq_false_iff.mpr hstream, hmodulo⟩]
        exact ⟨rfl, rfl, rfl⟩
      · rw [if_neg hmodulo, if_neg fun h : _ ∧ _ => hmodulo h.2]
        exact ⟨rfl, rfl, rfl⟩

theorem replace_executed (s : Core W O) (discovery : Nat) :
    (s.replace cfg discovery).executed = s.executed := rfl

theorem readmits_announced {seq : Nat} (h : s.Announced seq) :
    s.Readmits cfg seq ↔ cfg.mode ≠ .standard ∨ seq = 0 := by
  simp only [Core.Readmits, h, not_true_eq_false, true_and, false_and, or_false]

theorem readmits_not_announced {seq : Nat} (h : ¬ s.Announced seq) :
    s.Readmits cfg seq ↔
      s.profile = .pending ∧ (classifyProfile s.discoverySequence seq = .modulo ∨ seq = 0) ∨
        s.profile ≠ .pending ∧ takes s.rxExpected seq := by
  simp only [Core.Readmits, h, not_false_eq_true, true_and, false_and, false_or]

variable (cfg) in
/-- Classification of a request that reaches a session that streams. -/
theorem classify_takes (hstream : s.rxStreaming = true) {datagram : Bytes}
    (hpayload : 0 < payloadSize datagram) (ingress : Socket) :
    (s.classify cfg datagram ingress).1.executed = s.executed ∧
      (takes (s.classify cfg datagram ingress).1.rxExpected (seqNr datagram) ↔
        s.Readmits cfg (seqNr datagram)) ∧
      ((s.classify cfg datagram ingress).1.rxStreaming = false → s.Announced (seqNr datagram)) := by
  obtain ⟨hexecuted, hstreaming, hexpected⟩ :=
    classify_payload cfg (s := s) hpayload ingress
  rw [hexecuted, hstreaming, hexpected]
  by_cases hannounced : s.Announced (seqNr datagram)
  · obtain ⟨discovery, hresolve, hnext⟩ := resolve_announced cfg hannounced
    rw [hresolve, readmits_announced hannounced]
    refine ⟨replace_executed s discovery, ?_, fun _ => hannounced⟩
    cases hmode : cfg.mode with
    | auto =>
        have hprofile : (s.replace cfg discovery).profile = .pending :=
          (congrArg ProtocolMode.initial hmode :)
        rw [if_pos hprofile, takes_choose]
        refine iff_of_true ?_ (Or.inl ProtocolMode.noConfusion)
        obtain h | ⟨-, h⟩ := hnext
        · exact Or.inl (h ▸ classifyProfile_next discovery)
        · exact Or.inr h
    | standard =>
        have hprofile : (s.replace cfg discovery).profile = .standard :=
          (congrArg ProtocolMode.initial hmode :)
        rw [if_neg fun h => Profile.noConfusion (hprofile.symm.trans h),
          if_neg fun h : _ ∧ _ => Profile.noConfusion (hprofile.symm.trans h.2)]
        exact takes_zero.trans (or_iff_right fun h => h rfl).symm
    | modulo =>
        have hprofile : (s.replace cfg discovery).profile = .modulo :=
          (congrArg ProtocolMode.initial hmode :)
        rw [if_neg fun h => Profile.noConfusion (hprofile.symm.trans h), if_pos ⟨rfl, hprofile⟩]
        exact iff_of_true (takes_self _) (Or.inl ProtocolMode.noConfusion)
  · obtain ⟨zero, sequence, hresolve⟩ := resolve_not_announced cfg hannounced
    rw [hresolve, readmits_not_announced hannounced]
    refine ⟨rfl, ?_, fun h => absurd (hstream.symm.trans h) Bool.noConfusion⟩
    by_cases hpending : s.profile = .pending
    · have hprofile : (s.remember zero sequence).profile = .pending := hpending
      rw [if_pos hprofile, takes_choose]
      constructor
      · exact fun h => Or.inl ⟨hpending, h⟩
      · rintro (⟨-, h⟩ | ⟨h, -⟩)
        · exact h
        · exact absurd hpending h
    · have hprofile : (s.remember zero sequence).profile ≠ .pending := hpending
      have hstreams : ¬ ((s.remember zero sequence).rxStreaming = false ∧
          (s.remember zero sequence).profile = .modulo) :=
        fun h => Bool.noConfusion (hstream.symm.trans h.1)
      rw [if_neg hprofile, if_neg hstreams]
      constructor
      · exact fun h => Or.inr ⟨hpending, h⟩
      · rintro (⟨h, -⟩ | ⟨-, h⟩)
        · exact absurd h hpending
        · exact h

/-! ## What the base class executes -/

theorem request_executed (s : Core W O) (datagram : Bytes) (recent : Bool) :
    (s.request cfg datagram recent).1.executed =
      if takes s.rxExpected (seqNr datagram) then
        s.executed ++ [(seqNr datagram, datagram.sub 6 (payloadSize datagram))]
      else s.executed := by
  simp only [Core.request]
  by_cases hexpected : seqNr datagram = s.rxExpected
  · have htakes : takes s.rxExpected (seqNr datagram) := Or.inl hexpected
    rw [if_pos hexpected, if_pos htakes]
    rfl
  · rw [if_neg hexpected]
    by_cases hcopy : seqNr datagram = ringSub s.rxExpected 1
    · have hno : ¬ takes s.rxExpected (seqNr datagram) := by
        rintro (h | ⟨h, -⟩)
        · exact hexpected h
        · exact h hcopy
      rw [if_pos hcopy, if_neg hno]
      split <;> rfl
    · rw [if_neg hcopy]
      by_cases hzero : seqNr datagram = 0
      · have htakes : takes s.rxExpected (seqNr datagram) := Or.inr ⟨hcopy, hzero⟩
        rw [if_pos hzero, if_pos htakes]
        rfl
      · have hno : ¬ takes s.rxExpected (seqNr datagram) := by
          rintro (h | ⟨-, h⟩)
          · exact hexpected h
          · exact hzero h
        rw [if_neg hzero, if_neg hno]

theorem accept_executed (s : Core W O) {datagram : Bytes} (hpayload : 0 < payloadSize datagram)
    (recent : Bool) :
    (s.accept cfg datagram recent).1.executed =
      if takes s.rxExpected (seqNr datagram) then
        s.executed ++ [(seqNr datagram, datagram.sub 6 (payloadSize datagram))]
      else s.executed := by
  simp only [Core.accept, if_neg (Nat.pos_iff_ne_zero.mp hpayload)]
  rw [request_executed]
  split <;> rfl

/-- A request that reaches a session that streams is executed exactly when the session readmits
its number. -/
theorem data_executed_iff (hstream : s.rxStreaming = true) {datagram : Bytes}
    (hrouted : routed datagram) (hpayload : 0 < payloadSize datagram) (ingress : Socket)
    (recent : Bool) :
    (s.data cfg datagram ingress recent).1.executed =
        s.executed ++ [(seqNr datagram, datagram.sub 6 (payloadSize datagram))] ↔
      s.Readmits cfg (seqNr datagram) := by
  obtain ⟨hexecuted, htakes, -⟩ := classify_takes cfg hstream hpayload ingress
  rw [Core.data, if_pos hrouted, ← htakes]
  change (((s.classify cfg datagram ingress).1.accept cfg datagram recent).1.executed = _) ↔ _
  rw [accept_executed _ hpayload, hexecuted]
  by_cases h : takes (s.classify cfg datagram ingress).1.rxExpected (seqNr datagram)
  · rw [if_pos h]
    exact iff_of_true rfl h
  · rw [if_neg h]
    exact iff_of_false (fun heq => List.cons_ne_nil _ _ (List.self_eq_append_right.mp heq)) h

/-! ## Copies in runs -/

/-- The packet is a copy of the request that its session, which streams, executed last. -/
def Work.IsCopy (w : Work W O) : Prop :=
  w.before.rxStreaming = true ∧ 0 < payloadSize w.datagram ∧
    w.before.executed.getLast? =
      some (seqNr w.datagram, w.datagram.sub 6 (payloadSize w.datagram))

variable (cfg) in
/-- A copy of the last request is not executed when it is accepted. -/
def Halves.CopiesDropped (s : Halves W O) : Prop :=
  ∀ w ∈ s.work, w.IsCopy → ∀ recent,
    (s.core.accept cfg w.datagram recent).1.executed = w.before.executed

variable (cfg) in
/-- A copy comes to no session that readmits its number, and no DISCOVERY makes a strict Modulo
server expect it between its halves. -/
def Halves.Distinct (s : Halves W O) : HalfEvent → Prop
  | .classify datagram ingress =>
      (Work.mk datagram ingress s.core).IsCopy → ¬ s.core.Readmits cfg (seqNr datagram)
  | .discovery datagram recent =>
      ∀ w ∈ s.work, w.IsCopy → cfg.mode = .modulo → ¬ s.core.Spares cfg datagram recent →
        ¬ takes ((seqNr datagram + 1) % 0x1000) (seqNr w.datagram)
  | _ => True

variable (cfg) in
/-- What holds between the halves of a copy. -/
structure Halves.Held (s : Halves W O) (w : Work W O) : Prop where
  executed : s.core.executed = w.before.executed
  refused : ¬ takes s.core.rxExpected (seqNr w.datagram)
  replaced : s.core.rxStreaming = false → cfg.mode ≠ .modulo → seqNr w.datagram ≠ 0

theorem fallback_held {s : Halves W O} {w : Work W O} (h : s.Held cfg w) (generation : Nat) :
    (Halves.next cfg s (.timer generation)).Held cfg w := by
  simp only [Halves.next, Core.fallback]
  split <;> exact ⟨h.executed, h.refused, h.replaced⟩

theorem discovery_held {s : Halves W O} {w : Work W O} (h : s.Held cfg w) {datagram : Bytes}
    {recent : Bool}
    (hok : cfg.mode = .modulo → ¬ s.core.Spares cfg datagram recent →
      ¬ takes ((seqNr datagram + 1) % 0x1000) (seqNr w.datagram)) :
    (Halves.next cfg s (.discovery datagram recent)).Held cfg w := by
  simp only [Halves.next, Core.discovery]
  by_cases hother : datagram.length < 6 ∨ datagram.field 2 2 ≠ UDPRDMA_SVC_UDPFS
  · rw [if_pos hother]
    exact ⟨h.executed, h.refused, h.replaced⟩
  rw [if_neg hother]
  by_cases hmode : cfg.mode = .modulo
  · rw [if_pos hmode, Core.moduloDiscovery]
    by_cases hrepeat : s.core.lastDisc = some (seqNr datagram) ∧ recent = true
    · rw [if_pos hrepeat]
      exact ⟨h.executed, h.refused, h.replaced⟩
    · rw [if_neg hrepeat]
      have hspares : ¬ s.core.Spares cfg datagram recent := by
        rintro (hs | hs | ⟨-, hs⟩ | ⟨hs, -⟩)
        · exact hother (Or.inl hs)
        · exact hother (Or.inr hs)
        · exact hrepeat hs
        · exact ProtocolMode.noConfusion (hmode.symm.trans hs)
      exact ⟨h.executed, hok hmode hspares, fun _ hne => absurd hmode hne⟩
  · rw [if_neg hmode, Core.liveDiscovery]
    by_cases hstream : s.core.rxStreaming = true
    · rw [if_pos hstream]
      split <;> exact ⟨h.executed, h.refused, h.replaced⟩
    · have hzero := h.replaced (Bool.eq_false_iff.mpr hstream) hmode
      rw [if_neg hstream]
      exact ⟨h.executed, fun htakes => hzero (takes_zero.mp htakes), fun _ _ => hzero⟩

theorem classify_held {datagram : Bytes} {ingress : Socket}
    (hcopy : (Work.mk datagram ingress s).IsCopy) (hok : ¬ s.Readmits cfg (seqNr datagram)) :
    Halves.Held cfg
      ⟨(s.classify cfg datagram ingress).1, some ⟨datagram, ingress, s⟩⟩ ⟨datagram, ingress, s⟩ := by
  obtain ⟨hstream, hpayload, -⟩ := hcopy
  obtain ⟨hexecuted, htakes, hreplaced⟩ := classify_takes cfg hstream hpayload ingress
  refine ⟨hexecuted, fun h => hok (htakes.mp h), fun hfalse _ hzero => ?_⟩
  exact hok ((readmits_announced (hreplaced hfalse)).mpr (Or.inr hzero))

theorem Halves.Held.dropped {s : Halves W O} {w : Work W O} (h : s.Held cfg w)
    (hpayload : 0 < payloadSize w.datagram) (recent : Bool) :
    (s.core.accept cfg w.datagram recent).1.executed = w.before.executed := by
  rw [accept_executed _ hpayload, if_neg h.refused, h.executed]

/-- In every run in which no copy of the last request has the number that its session would take
next, no copy is executed. -/
theorem copies_dropped {world : W} {s : Halves W O}
    (h : (halves cfg world).ReachedWhen (Halves.Distinct cfg) s) : s.CopiesDropped cfg := by
  suffices hheld : ∀ w ∈ s.work, w.IsCopy → s.Held cfg w from
    fun w hw hcopy recent => (hheld w hw hcopy).dropped hcopy.2.1 recent
  apply h.invariant
  · intro s hs w hw
    rw [show s = ⟨.new cfg.mode world, none⟩ from hs] at hw
    cases hw
  · intro s a t hheld hok hstep
    rw [show t = Halves.next cfg s a from hstep]
    cases a with
    | classify datagram ingress =>
        intro w hw hcopy
        simp only [Halves.next] at hw ⊢
        cases hwork : s.work with
        | some w' =>
            simp only [hwork] at hw ⊢
            exact hheld w (hwork.trans hw) hcopy
        | none =>
            by_cases hrouted : routed datagram
            · simp only [hwork, if_pos hrouted] at hw ⊢
              cases hw
              exact classify_held hcopy (hok hcopy)
            · simp only [hwork, if_neg hrouted] at hw
              cases hw
    | accept recent =>
        intro w hw hcopy
        simp only [Halves.next] at hw
        cases hwork : s.work with
        | none =>
            simp only [hwork] at hw
            cases hw
        | some w' =>
            simp only [hwork] at hw
            cases hw
    | discovery datagram recent =>
        intro w hw hcopy
        exact discovery_held (hheld w hw hcopy) (hok w hw hcopy)
    | timer generation =>
        intro w hw hcopy
        exact fallback_held (hheld w hw hcopy) generation

theorem copies_dropped_secondRequest :
    (Halves.next (idle .auto) (Halves.next (idle .auto) (Halves.next (idle .auto)
      ⟨.new .auto (), none⟩ (.classify (requestPacket 0) .data)) (.accept false))
        (.classify (requestPacket 0) .data)).CopiesDropped (idle .auto) := by
  refine copies_dropped (show (halves (idle .auto) ()).ReachedWhen
    (Halves.Distinct (idle .auto)) _ from ?_)
  refine .step (a := .classify (requestPacket 0) .data) (.step (a := .accept false)
    (.step (a := .classify (requestPacket 0) .data) (.init rfl) ?_ rfl) trivial rfl) ?_ rfl
  · rintro ⟨hstream, -⟩
    cases hstream
  · rintro -
    decide

/-- After a DISCOVERY with number 0, a copy of request 0 begins a replacement. -/
theorem not_copies_dropped_zero :
    ¬ ∀ s, (halves (idle .auto) ()).Reached s → s.CopiesDropped (idle .auto) := by
  intro h
  have hreached : (halves (idle .auto) ()).Reached _ :=
    (System.ReachedWhen.init rfl).along (Along.of_forall (fun _ _ => trivial) _
      [.classify (requestPacket 0) .data, .accept false, .discovery (discoveryPacket 0) false,
        .classify (requestPacket 0) .data])
  have hdropped := h _ hreached _ rfl ⟨by decide, by decide, by decide⟩ false
  exact absurd hdropped (by decide)

end Ps2Servers.Udpfs
