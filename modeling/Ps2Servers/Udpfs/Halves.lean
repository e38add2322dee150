import Ps2Servers.Udpfs.LiveDiscovery

/-!
# DATA in two halves

The session's thread handles a DATA packet in two halves. The compatibility layer
classifies it under its lock, and releases the lock; then the base class accepts it.
DISCOVERY packets and timers may come in between. A state here has, beside the
session, the packet between its halves, with the session as it was before.

## Implementation notes

Only one packet is between its halves: the thread takes them from its queue one by one.
The base class's half is one step, and what is sent is left out.
-/

namespace Ps2Servers.Udpfs

open Runs

/-- A DATA packet between its halves, and the session before it came. -/
structure Work (W O : Type) where
  datagram : Bytes
  ingress : Socket
  before : Core W O
  deriving DecidableEq, Repr

structure Halves (W O : Type) where
  core : Core W O
  work : Option (Work W O)
  deriving DecidableEq, Repr

inductive HalfEvent
  | classify (datagram : Bytes) (ingress : Socket)
  | accept (recent : Bool)
  | discovery (datagram : Bytes) (recent : Bool)
  | timer (generation : Nat)
  deriving DecidableEq, Repr

variable {W O : Type} (cfg : CoreConfig W O)

/-- One step of either thread or of a timer. -/
def Halves.next (s : Halves W O) : HalfEvent → Halves W O
  | .classify datagram ingress =>
      match s.work with
      | some _ => s
      | none =>
          if routed datagram then
            ⟨(s.core.classify cfg datagram ingress).1, some ⟨datagram, ingress, s.core⟩⟩
          else s
  | .accept recent =>
      match s.work with
      | none => s
      | some w => ⟨(s.core.accept cfg w.datagram recent).1, none⟩
  | .discovery datagram recent => { s with core := (s.core.discovery cfg datagram recent).1 }
  | .timer generation => { s with core := (s.core.fallback cfg generation).1 }

/-- The runs of a session that starts anew. -/
def halves (world : W) : System (Halves W O) HalfEvent :=
  .ofNext ⟨.new cfg.mode world, none⟩ (Halves.next cfg)

/-! ## The two halves of one packet -/

variable {cfg} {s : Core W O} {seq : Nat}

/-- A request with this number is executed when this one is expected. -/
def takes (expected seq : Nat) : Prop := seq = expected ∨ seq ≠ ringSub expected 1 ∧ seq = 0

instance (expected seq : Nat) : Decidable (takes expected seq) :=
  inferInstanceAs (Decidable (_ ∨ _))

/-- A remembered DISCOVERY announces the number. -/
def Core.Announced (s : Core W O) (seq : Nat) : Prop :=
  seq ≠ s.rxExpected ∧
    ((∃ pending ∈ s.pendingSequence, seq = (pending + 1) % 0x1000) ∨
      s.pendingZero = true ∧ (seq = 0 ∨ seq = 1))

instance (s : Core W O) (seq : Nat) : Decidable (s.Announced seq) :=
  inferInstanceAs (Decidable (_ ∧ _))

variable (cfg) in
theorem resolve_announced (h : s.Announced seq) :
    ∃ discovery, (s.resolveSequence cfg seq).resolveZero cfg seq = s.replace cfg discovery ∧
      (seq = (discovery + 1) % 0x1000 ∨ discovery = 0 ∧ seq = 0) := by
  obtain ⟨hexpected, hannounced⟩ := h
  by_cases hsequence : ∃ pending ∈ s.pendingSequence, seq = (pending + 1) % 0x1000
  · obtain ⟨pending, hpending, hseq⟩ := hsequence
    have hresolve : s.resolveSequence cfg seq = s.replace cfg pending := by
      rw [Core.resolveSequence, Option.mem_def.mp hpending]
      exact (if_neg hexpected).trans (if_pos hseq)
    refine ⟨pending, ?_, Or.inl hseq⟩
    rw [hresolve]
    rfl
  · obtain ⟨hzero, hfirst⟩ := hannounced.resolve_left hsequence
    have hresolve : s.resolveSequence cfg seq = s := by
      unfold Core.resolveSequence
      cases hpending : s.pendingSequence with
      | none => rfl
      | some pending =>
          have hseq : seq ≠ (pending + 1) % 0x1000 := fun hseq => hsequence ⟨pending, hpending, hseq⟩
          exact (if_neg hexpected).trans (if_neg hseq)
    refine ⟨0, ?_, ?_⟩
    · rw [hresolve, Core.resolveZero, if_pos hzero, if_neg hexpected, if_pos hfirst]
    · exact hfirst.elim (fun h => Or.inr ⟨rfl, h⟩) Or.inl

variable (cfg) in
theorem resolve_not_announced (h : ¬ s.Announced seq) :
    ∃ zero sequence, (s.resolveSequence cfg seq).resolveZero cfg seq =
      s.remember zero sequence := by
  by_cases hexpected : seq = s.rxExpected
  · exact ⟨false, none, resolve_expected cfg s.pendingZero s.pendingSequence hexpected⟩
  · have hresolve : s.resolveSequence cfg seq = s := by
      unfold Core.resolveSequence
      cases hpending : s.pendingSequence with
      | none => rfl
      | some pending =>
          have hseq : seq ≠ (pending + 1) % 0x1000 := fun hseq =>
            h ⟨hexpected, Or.inl ⟨pending, hpending, hseq⟩⟩
          exact (if_neg hexpected).trans (if_neg hseq)
    refine ⟨s.pendingZero, s.pendingSequence, ?_⟩
    rw [hresolve, Core.resolveZero]
    by_cases hzero : s.pendingZero = true
    · have hfirst : ¬ (seq = 0 ∨ seq = 1) := fun hfirst => h ⟨hexpected, Or.inr ⟨hzero, hfirst⟩⟩
      rw [if_pos hzero, if_neg hexpected, if_neg hfirst]
      rfl
    · exact if_neg hzero

theorem choose_profile (s : Core W O) (seq : Nat) (ingress : Socket) :
    (s.choose cfg seq ingress).1.profile = classifyProfile s.discoverySequence seq := by
  simp only [Core.choose]
  split <;> split <;> rfl

theorem choose_rxExpected (s : Core W O) (seq : Nat) (ingress : Socket) :
    (s.choose cfg seq ingress).1.rxExpected =
      if classifyProfile s.discoverySequence seq = .modulo then seq else 0 := by
  simp only [Core.choose]
  split <;> split <;> rfl

theorem choose_rxStreaming (s : Core W O) (seq : Nat) (ingress : Socket) :
    (s.choose cfg seq ingress).1.rxStreaming = s.rxStreaming := by
  simp only [Core.choose]
  split <;> split <;> rfl

theorem choose_executed (s : Core W O) (seq : Nat) (ingress : Socket) :
    (s.choose cfg seq ingress).1.executed = s.executed := by
  simp only [Core.choose]
  split <;> split <;> rfl

theorem classifyProfile_ne_pending (discovery first : Nat) :
    classifyProfile discovery first ≠ .pending := by
  simp only [classifyProfile]
  split
  · exact Profile.noConfusion
  split
  · exact Profile.noConfusion
  split <;> exact Profile.noConfusion

/-- A request is classified. -/
theorem classify_ne_pending {datagram : Bytes} (hpayload : 0 < payloadSize datagram)
    (ingress : Socket) : (s.classify cfg datagram ingress).1.profile ≠ .pending := by
  simp only [Core.classify, if_pos hpayload]
  split
  · rw [choose_profile]
    exact classifyProfile_ne_pending _ _
  · rename_i hprofile
    have hne := fun h => hprofile ⟨h, hpayload⟩
    split
    · exact hne
    split <;> exact hne

variable (cfg) in
/-- What a packet without a payload leaves. -/
theorem classify_control {datagram : Bytes} (hpayload : payloadSize datagram = 0)
    (ingress : Socket) :
    (s.classify cfg datagram ingress).1.profile = s.profile ∧
      (s.classify cfg datagram ingress).1.rxStreaming = s.rxStreaming ∧
      (s.classify cfg datagram ingress).1.executed = s.executed := by
  have hno : ¬ 0 < payloadSize datagram := by omega
  simp only [Core.classify, if_neg hno, if_neg (fun h : _ ∧ _ => hno h.2)]
  split
  · exact ⟨rfl, rfl, rfl⟩
  split <;> exact ⟨rfl, rfl, rfl⟩

/-! ## The base class's half -/

theorem request_profile (s : Core W O) (datagram : Bytes) (recent : Bool) :
    (s.request cfg datagram recent).1.profile = s.profile := by
  simp only [Core.request]
  split
  · rfl
  split
  · split <;> rfl
  split <;> rfl

theorem accept_profile (s : Core W O) (datagram : Bytes) (recent : Bool) :
    (s.accept cfg datagram recent).1.profile = s.profile := by
  simp only [Core.accept]
  split
  · split <;> rfl
  · rw [request_profile]
    split <;> rfl

/-- A packet without a payload is not executed. -/
theorem accept_control {datagram : Bytes} (hpayload : payloadSize datagram = 0) (recent : Bool) :
    (s.accept cfg datagram recent).1.rxStreaming = s.rxStreaming := by
  simp only [Core.accept, if_pos hpayload]
  split <;> rfl

/-! ## DISCOVERY between the halves -/

/-- The parts of a session that a replacement resets. -/
structure Core.SameSession (s t : Core W O) : Prop where
  profile : s.profile = t.profile
  app : s.app = t.app
  tx : s.tx = t.tx
  rxExpected : s.rxExpected = t.rxExpected

/-- A session that has nothing to lose by a reset. -/
structure Core.IsFresh (s : Core W O) : Prop where
  handles : s.app.handles = []
  nextHandle : s.app.nextHandle = 1
  write : s.app.write = .none
  tx : s.tx = Tx.new
  rxExpected : s.rxExpected = 0

variable (cfg) in
/-- A DISCOVERY that is not for this service, repeats the last one to a strict Modulo server, or
finds nothing to reset on a strict Standard one. -/
def Core.Spares (s : Core W O) (datagram : Bytes) (recent : Bool) : Prop :=
  datagram.length < 6 ∨ datagram.field 2 2 ≠ UDPRDMA_SVC_UDPFS ∨
    (cfg.mode = .modulo ∧ s.lastDisc = some (seqNr datagram) ∧ recent = true) ∨
    (cfg.mode = .standard ∧ s.IsFresh)

theorem resetSession_same (hprofile : s.profile = cfg.mode.initial) (hfresh : s.IsFresh)
    (discovery generation : Nat) :
    Core.SameSession
      { s.resetSession cfg.mode.initial with
        discoverySequence := discovery
        generation := generation } s := by
  obtain ⟨hhandles, hnext, hwrite, htx, hexpected⟩ := hfresh
  have happ : ({ s.app with handles := [], nextHandle := 1, write := .none } : App W O) = s.app := by
    rw [← hhandles, ← hnext, ← hwrite]
  exact ⟨hprofile.symm, happ, htx.symm, hexpected.symm⟩

/-- A DISCOVERY leaves a classified session that has not begun to stream exactly when it spares
it. -/
theorem discovery_same_iff (hstandard : cfg.mode = .standard → s.profile = .standard)
    (hclassified : s.profile ≠ .pending) (hstream : s.rxStreaming = false) (datagram : Bytes)
    (recent : Bool) :
    (s.discovery cfg datagram recent).1.SameSession s ↔ s.Spares cfg datagram recent := by
  unfold Core.Spares
  by_cases hother : datagram.length < 6 ∨ datagram.field 2 2 ≠ UDPRDMA_SVC_UDPFS
  · have hleave : (s.discovery cfg datagram recent).1 = s := by
      rw [Core.discovery, if_pos hother]
    rw [hleave]
    exact iff_of_true ⟨rfl, rfl, rfl, rfl⟩ (hother.elim Or.inl fun h => Or.inr (Or.inl h))
  · obtain ⟨hlength, hservice⟩ := not_or.mp hother
    rw [or_iff_right hlength, or_iff_right hservice]
    cases hmode : cfg.mode with
    | modulo =>
        by_cases hrepeat : s.lastDisc = some (seqNr datagram) ∧ recent = true
        · have hleave : (s.discovery cfg datagram recent).1 = s := by
            rw [Core.discovery, if_neg hother, if_pos hmode, Core.moduloDiscovery, if_pos hrepeat]
          rw [hleave]
          exact iff_of_true ⟨rfl, rfl, rfl, rfl⟩ (Or.inl ⟨rfl, hrepeat⟩)
        · refine iff_of_false (fun h => ?_) ?_
          · have htx := congrArg Tx.seqNr h.tx
            rw [Core.discovery, if_neg hother, if_pos hmode, Core.moduloDiscovery,
              if_neg hrepeat] at htx
            have hnext : (s.tx.seqNr + 1) % 0x1000 = s.tx.seqNr := htx
            omega
          · rintro (⟨-, h⟩ | ⟨h, -⟩)
            · exact hrepeat h
            · exact ProtocolMode.noConfusion h
    | auto =>
        have hne : cfg.mode ≠ .modulo := fun h => ProtocolMode.noConfusion (hmode.symm.trans h)
        refine iff_of_false (fun h => ?_) ?_
        · have hprofile := h.profile
          rw [Core.discovery, if_neg hother, if_neg hne, Core.liveDiscovery,
            if_neg (Bool.eq_false_iff.mp hstream), hmode] at hprofile
          exact hclassified hprofile.symm
        · rintro (⟨h, -⟩ | ⟨h, -⟩) <;> exact ProtocolMode.noConfusion h
    | standard =>
        have hne : cfg.mode ≠ .modulo := fun h => ProtocolMode.noConfusion (hmode.symm.trans h)
        have hinitial : cfg.mode.initial = .standard := by rw [hmode]; rfl
        have hreset : (s.discovery cfg datagram recent).1 =
            { s.resetSession cfg.mode.initial with
              discoverySequence := seqNr datagram
              generation := s.generation + 1 } := by
          rw [Core.discovery, if_neg hother, if_neg hne, Core.liveDiscovery,
            if_neg (Bool.eq_false_iff.mp hstream)]
        rw [hreset]
        constructor
        · intro h
          have happ := h.app
          exact Or.inr ⟨rfl, (congrArg App.handles happ).symm, (congrArg App.nextHandle happ).symm,
            (congrArg App.write happ).symm, h.tx.symm, h.rxExpected.symm⟩
        · rintro (⟨h, -⟩ | ⟨-, hfresh⟩)
          · exact ProtocolMode.noConfusion h
          · exact resetSession_same ((hstandard hmode).trans hinitial.symm) hfresh _ _

/-- A timer does nothing to a classified session. -/
theorem fallback_classified (hclassified : s.profile ≠ .pending) (generation : Nat) :
    s.fallback cfg generation = (s, []) := by
  rw [Core.fallback, if_pos (Or.inr (Or.inl hclassified))]

variable (cfg) in
theorem fallback_parts (s : Core W O) (generation : Nat) :
    (s.fallback cfg generation).1.profile = s.profile ∧
      (s.fallback cfg generation).1.rxStreaming = s.rxStreaming := by
  unfold Core.fallback
  split <;> exact ⟨rfl, rfl⟩

variable (cfg) in
/-- A DISCOVERY during a stream changes neither the profile nor that it streams. -/
theorem discovery_streaming (hstream : s.rxStreaming = true) (datagram : Bytes) (recent : Bool) :
    (s.discovery cfg datagram recent).1.profile = s.profile ∧
      (s.discovery cfg datagram recent).1.rxStreaming = true := by
  by_cases hmode : cfg.mode = .modulo
  · simp only [Core.discovery, if_pos hmode, Core.moduloDiscovery]
    split
    · exact ⟨rfl, hstream⟩
    split <;> exact ⟨rfl, hstream⟩
  · obtain ⟨zero, sequence, h⟩ :=
      next_background hmode hstream (e := .discovery datagram recent) rfl
    rw [show (s.discovery cfg datagram recent).1 = s.remember zero sequence from h]
    exact ⟨rfl, hstream⟩

variable (cfg) in
/-- A DISCOVERY starts no stream. -/
theorem discovery_idle (hstream : s.rxStreaming = false) (datagram : Bytes) (recent : Bool) :
    (s.discovery cfg datagram recent).1.rxStreaming = false := by
  simp only [Core.discovery, Core.moduloDiscovery, Core.liveDiscovery,
    if_neg (Bool.eq_false_iff.mp hstream)]
  split
  · exact hstream
  split
  · split <;> exact hstream
  · rfl

theorem discovery_standard (hmode : cfg.mode = .standard) (hprofile : s.profile = .standard)
    (datagram : Bytes) (recent : Bool) :
    (s.discovery cfg datagram recent).1.profile = .standard := by
  have hne : cfg.mode ≠ .modulo := fun h => ProtocolMode.noConfusion (hmode.symm.trans h)
  have hinitial : cfg.mode.initial = .standard := by rw [hmode]; rfl
  simp only [Core.discovery, if_neg hne, Core.liveDiscovery]
  split
  · exact hprofile
  split
  · split <;> exact hprofile
  · exact hinitial

theorem classify_standard (hmode : cfg.mode = .standard) (hprofile : s.profile = .standard)
    (datagram : Bytes) (ingress : Socket) :
    (s.classify cfg datagram ingress).1.profile = .standard := by
  have hinitial : cfg.mode.initial = .standard := by rw [hmode]; rfl
  by_cases hpayload : 0 < payloadSize datagram
  · have hresolve :
        ((s.resolveSequence cfg (seqNr datagram)).resolveZero cfg (seqNr datagram)).profile =
          .standard := by
      by_cases hannounced : s.Announced (seqNr datagram)
      · obtain ⟨discovery, h, -⟩ := resolve_announced cfg hannounced
        rw [h]
        exact hinitial
      · obtain ⟨zero, sequence, h⟩ := resolve_not_announced cfg hannounced
        rw [h]
        exact hprofile
    simp only [Core.classify, if_pos hpayload]
    rw [if_neg fun h => Profile.noConfusion (hresolve.symm.trans h.1)]
    split
    · exact hresolve
    split <;> exact hresolve
  · obtain ⟨h, -⟩ := classify_control cfg (s := s) (Nat.eq_zero_of_not_pos hpayload) ingress
    exact h.trans hprofile

/-! ## Classification is stable -/

variable (cfg)

/-- The session as classification left it. -/
def Work.after (w : Work W O) : Core W O := (w.before.classify cfg w.datagram w.ingress).1

/-- The packet may be the first request that its session accepts. -/
def Work.IsFirst (w : Work W O) : Prop :=
  0 < payloadSize w.datagram ∧ (w.after cfg).rxStreaming = false

/-- The first request of a session is accepted by the session that was classified, with the
profile that was chosen, and a session that streams has been classified. -/
structure Halves.Stable (s : Halves W O) : Prop where
  kept : ∀ w ∈ s.work, w.IsFirst cfg → s.core.SameSession (w.after cfg)
  accepted : ∀ w ∈ s.work, w.IsFirst cfg → ∀ recent,
    (s.core.accept cfg w.datagram recent).1.profile = (w.after cfg).profile
  classified : s.core.rxStreaming = true → s.core.profile ≠ .pending

/-- No DISCOVERY resets a session between the halves of its first request. -/
def Halves.Undisturbed (s : Halves W O) : HalfEvent → Prop
  | .discovery datagram recent =>
      ∀ w ∈ s.work, w.IsFirst cfg → s.core.Spares cfg datagram recent
  | _ => True

/-- What every step keeps. -/
structure Halves.Kept (s : Halves W O) : Prop where
  standard : cfg.mode = .standard → s.core.profile = .standard
  classified : s.core.rxStreaming = true → s.core.profile ≠ .pending
  profile : ∀ w ∈ s.work, 0 < payloadSize w.datagram → s.core.profile = (w.after cfg).profile
  streaming : ∀ w ∈ s.work, 0 < payloadSize w.datagram →
    s.core.rxStreaming = (w.after cfg).rxStreaming
  same : ∀ w ∈ s.work, w.IsFirst cfg → s.core.SameSession (w.after cfg)

variable {cfg} {s : Halves W O}

theorem Halves.Kept.stable (h : s.Kept cfg) : s.Stable cfg where
  kept := h.same
  accepted w hw hfirst recent := (accept_profile s.core w.datagram recent).trans (h.profile w hw hfirst.1)
  classified := h.classified

theorem Halves.Kept.classify (h : s.Kept cfg) (datagram : Bytes) (ingress : Socket) :
    (Halves.next cfg s (.classify datagram ingress)).Kept cfg := by
  simp only [Halves.next]
  split
  · exact h
  split
  · refine ⟨fun hmode => classify_standard hmode (h.standard hmode) _ _, ?_, ?_, ?_, ?_⟩
    · intro hstream
      by_cases hpayload : 0 < payloadSize datagram
      · exact classify_ne_pending hpayload ingress
      · obtain ⟨hprofile, hstreaming, -⟩ :=
          classify_control cfg (s := s.core) (Nat.eq_zero_of_not_pos hpayload) ingress
        rw [hprofile]
        exact h.classified (hstreaming.symm.trans hstream)
    · intro w hw _
      cases hw
      rfl
    · intro w hw _
      cases hw
      rfl
    · intro w hw _
      cases hw
      exact ⟨rfl, rfl, rfl, rfl⟩
  · exact h

theorem Halves.Kept.accept (h : s.Kept cfg) (recent : Bool) :
    (Halves.next cfg s (.accept recent)).Kept cfg := by
  simp only [Halves.next]
  split
  · exact h
  · rename_i w hwork
    refine ⟨?_, ?_, ?_, ?_, ?_⟩
    · intro hmode
      exact (accept_profile s.core w.datagram recent).trans (h.standard hmode)
    · intro hstream
      rw [accept_profile]
      by_cases hpayload : 0 < payloadSize w.datagram
      · rw [h.profile w hwork hpayload]
        exact classify_ne_pending hpayload w.ingress
      · rw [accept_control (Nat.eq_zero_of_not_pos hpayload)] at hstream
        exact h.classified hstream
    all_goals intro w' hw'; cases hw'

theorem Halves.Kept.timer (h : s.Kept cfg) (generation : Nat) :
    (Halves.next cfg s (.timer generation)).Kept cfg := by
  obtain ⟨hprofile, hstreaming⟩ := fallback_parts cfg s.core generation
  refine ⟨fun hmode => hprofile.trans (h.standard hmode), ?_, ?_, ?_, ?_⟩
  · intro hstream
    exact fun hp => h.classified (hstreaming.symm.trans hstream) (hprofile.symm.trans hp)
  · intro w hw hpayload
    exact hprofile.trans (h.profile w hw hpayload)
  · intro w hw hpayload
    exact hstreaming.trans (h.streaming w hw hpayload)
  · intro w hw hfirst
    have hclassified : s.core.profile ≠ .pending := by
      rw [h.profile w hw hfirst.1]
      exact classify_ne_pending hfirst.1 w.ingress
    simp only [Halves.next, fallback_classified hclassified]
    exact h.same w hw hfirst

theorem Core.SameSession.trans {s t u : Core W O} (h : s.SameSession t) (h' : t.SameSession u) :
    s.SameSession u :=
  ⟨h.profile.trans h'.profile, h.app.trans h'.app, h.tx.trans h'.tx,
    h.rxExpected.trans h'.rxExpected⟩

theorem Halves.Kept.discovery (h : s.Kept cfg) {datagram : Bytes} {recent : Bool}
    (hok : s.Undisturbed cfg (.discovery datagram recent)) :
    (Halves.next cfg s (.discovery datagram recent)).Kept cfg := by
  cases hstream : s.core.rxStreaming with
  | true =>
      obtain ⟨hprofile, hstreaming⟩ := discovery_streaming cfg hstream datagram recent
      refine ⟨fun hmode => hprofile.trans (h.standard hmode), ?_, ?_, ?_, ?_⟩
      · intro _ hp
        exact h.classified hstream (hprofile.symm.trans hp)
      · intro w hw hpayload
        exact hprofile.trans (h.profile w hw hpayload)
      · intro w hw hpayload
        exact (hstreaming.trans hstream.symm).trans (h.streaming w hw hpayload)
      · intro w hw hfirst
        have hfalse := (h.streaming w hw hfirst.1).trans hfirst.2
        exact absurd (hstream.symm.trans hfalse) Bool.noConfusion
  | false =>
      have hidle := discovery_idle cfg hstream datagram recent
      have hsame : ∀ w ∈ s.work, 0 < payloadSize w.datagram →
          (s.core.discovery cfg datagram recent).1.SameSession s.core := by
        intro w hw hpayload
        have hfirst : w.IsFirst cfg := ⟨hpayload, (h.streaming w hw hpayload).symm.trans hstream⟩
        have hclassified : s.core.profile ≠ .pending := by
          rw [h.profile w hw hpayload]
          exact classify_ne_pending hpayload w.ingress
        exact (discovery_same_iff h.standard hclassified hstream _ _).mpr (hok w hw hfirst)
      refine ⟨fun hmode => discovery_standard hmode (h.standard hmode) _ _, ?_, ?_, ?_, ?_⟩
      · intro hnow
        exact absurd (hidle.symm.trans hnow) Bool.noConfusion
      · intro w hw hpayload
        exact (hsame w hw hpayload).profile.trans (h.profile w hw hpayload)
      · intro w hw hpayload
        exact (hidle.trans hstream.symm).trans (h.streaming w hw hpayload)
      · intro w hw hfirst
        exact (hsame w hw hfirst.1).trans (h.same w hw hfirst)

theorem Halves.kept_new (world : W) : (⟨.new cfg.mode world, none⟩ : Halves W O).Kept cfg where
  standard hmode := by rw [hmode]; rfl
  classified h := absurd h Bool.false_ne_true
  profile w hw := by cases hw
  streaming w hw := by cases hw
  same w hw := by cases hw

/-- Classification is stable in every run in which no DISCOVERY resets the session between the
halves of its first request. -/
theorem classification_stable {world : W}
    (h : (halves cfg world).ReachedWhen (Halves.Undisturbed cfg) s) : s.Stable cfg := by
  suffices hkept : s.Kept cfg from hkept.stable
  apply h.invariant
  · intro s hs
    rw [show s = ⟨.new cfg.mode world, none⟩ from hs]
    exact Halves.kept_new world
  · intro s a t hkept hok hstep
    rw [show t = Halves.next cfg s a from hstep]
    cases a with
    | classify datagram ingress => exact hkept.classify datagram ingress
    | accept recent => exact hkept.accept recent
    | discovery datagram recent => exact hkept.discovery hok
    | timer generation => exact hkept.timer generation

/-- A session that is classified and accepts its first request. -/
theorem classification_stable_firstRequest :
    (Halves.next (idle .auto) (Halves.next (idle .auto) (Halves.next (idle .auto)
      ⟨.new .auto (), none⟩ (.discovery (discoveryPacket 0) false))
        (.classify (requestPacket 0) .data)) (.accept false)).Stable (idle .auto) := by
  refine classification_stable (show (halves (idle .auto) ()).ReachedWhen
    (Halves.Undisturbed (idle .auto)) _ from ?_)
  refine .step (a := .accept false) (.step (a := .classify (requestPacket 0) .data)
    (.step (a := .discovery (discoveryPacket 0) false) (.init rfl) ?_ rfl) trivial rfl) trivial rfl
  intro w hw
  cases hw

/-- With a DISCOVERY between the halves, a session streams that has no profile. -/
theorem not_stable_discovery :
    ¬ ∀ s, (halves (idle .auto) ()).Reached s → s.Stable (idle .auto) := by
  intro h
  have hreached : (halves (idle .auto) ()).Reached _ :=
    (System.ReachedWhen.init rfl).along (Along.of_forall (fun _ _ => trivial) _
      [.discovery (discoveryPacket 0) false, .classify (requestPacket 0) .data,
        .discovery (discoveryPacket 0) false, .accept false])
  exact (h _ hreached).classified (by decide) (by decide)

end Ps2Servers.Udpfs
