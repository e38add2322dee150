import Ps2Servers.Edge.SingleWriter
import Ps2Servers.Lib.Accounting

/-!
# One writer per file over all peers

The local accounting summed over the sessions. A handle counts as long as it is in its
table. In every run in which no OPEN stores its handle over a writable one of its
session, and no OPEN or REMOVE takes up a path that a writable handle is just leaving, each
counter equals the number of writable handles plus the number of operations holding a
reservation, except while such a handle leaves, and a path has one writer at most.
Both conditions can fail. `NextHandle` counts every OPEN past the handle limit in an
`int32`, so a session that lives for `2 ^ 32` of them stores over a live handle, whose
reservation is then never released. And `releaseWrite` comes before `Closer.Close` and
the deletion, so another peer may open a path while the handle on it is still there.
-/

namespace Ps2Servers.Edge

open Accounting Runs

/-- The writable handles on `p` in the tables of all sessions. -/
def Server.openWriters (s : Server) (p : String) : Nat :=
  total (fun st p => st.handles.holding p) s.sessions p

/-- Those of them that are between their release and their deletion. -/
def Server.leaving (s : Server) (p : String) : Nat :=
  total (fun st p => st.handles.leaving p) s.sessions p

/-- The operations over all sessions that have reserved `p` and not finished. -/
def Server.reservations (s : Server) (p : String) : Nat :=
  total (fun st p => st.worker.holding p) s.sessions p

/-- An OPEN stores its handle over no writable handle of its session, and no OPEN reserves and no
REMOVE unlinks a path while a writable handle on it leaves. -/
def SparesWriters (s : Server) : Action → Prop
  | .session i l =>
      (∀ st, s.sessions[i]? = some st → l.Spares st.handles) ∧
        ∀ p, l = .reserve p ∨ l = .unlink p → s.leaving p = 0
  | _ => True

/-- Every reservation has exactly one holder, and a path at most one writer. -/
structure SingleWriter (s : Server) : Prop where
  counted : ∀ p, s.leaving p = 0 → s.writers.count p = s.openWriters p + s.reservations p
  leaves : ∀ p, s.leaving p ≠ 0 →
    s.writers p = none ∧ s.openWriters p = 1 ∧ s.reservations p = 0
  single : ∀ p, s.openWriters p + s.reservations p ≤ 1
  exclusive : ∀ {p : String} {i j : Nat} {st st' : Session} {e f : HandleId × Handle},
    s.sessions[i]? = some st → s.sessions[j]? = some st' → e ∈ st.handles → f ∈ st'.handles →
      e.2.holds p = true → f.2.holds p = true → i = j ∧ e = f
  unlinked : ∀ {p : String} {i : Nat} {s' : Server},
    Step s (.session i (.unlink p)) s' → SparesWriters s (.session i (.unlink p)) →
      s.openWriters p = 0
  released : ∀ p, s.openWriters p = 0 → s.reservations p = 0 → s.writers p = none

/-! ## The invariant -/

structure Server.Inv (s : Server) : Prop where
  flag : s.writers.Flag
  sessions : ∀ st ∈ s.sessions, st.Ok
  exact : ∀ p, s.writers.count p = total Session.reserving s.sessions p
  single : ∀ p, s.writers.count p + s.leaving p ≤ 1

theorem Server.openWriters_eq (s : Server) (p : String) : s.openWriters p =
    total (fun st p => st.handles.reserving p) s.sessions p + s.leaving p := by
  unfold Server.openWriters Server.leaving
  rw [← total_add]
  simp only [Handles.holding_eq]

theorem Server.total_reserving (s : Server) (p : String) :
    total Session.reserving s.sessions p + s.leaving p = s.openWriters p + s.reservations p := by
  have hopen := s.openWriters_eq p
  have hheld := total_add (fun st p => st.handles.reserving p) (fun st p => st.worker.holding p)
    s.sessions p
  unfold Server.reservations
  change total (fun st p => st.handles.reserving p + st.worker.holding p) s.sessions p + _ = _
  omega

theorem Session.ok_new : Session.new.Ok :=
  ⟨⟨by simp [Session.new, Handles.keys], by simp [Session.new], by simp [Session.new]⟩,
    Or.inl rfl, Or.inl rfl⟩

theorem Session.reserving_new (p : String) : Session.new.reserving p = 0 := rfl

theorem Session.leaving_new (p : String) : Session.new.handles.leaving p = 0 := rfl

theorem Server.inv_new : Server.new.Inv :=
  ⟨fun _ => Or.inl rfl, by simp [Server.new], fun _ => rfl, fun _ => Nat.zero_le 1⟩

theorem Server.Inv.step {s s' : Server} {a : Action} (hinv : s.Inv) (hok : SparesWriters s a)
    (h : Step s a s') : s'.Inv := by
  cases h with
  | connect =>
      refine ⟨hinv.flag, ?_, ?_, ?_⟩
      · intro st hst
        rcases List.mem_append.mp hst with hst | hst
        · exact hinv.sessions st hst
        · exact List.mem_singleton.mp hst ▸ Session.ok_new
      · intro p
        rw [total_append, total_cons, total_nil, Session.reserving_new]
        exact hinv.exact p
      · intro p
        unfold Server.leaving
        rw [total_append, total_cons, total_nil, Session.leaving_new]
        exact hinv.single p
  | shutdown =>
      refine ⟨hinv.flag, ?_, ?_, ?_⟩
      · intro st hst
        obtain ⟨st₀, hst₀, rfl⟩ := List.mem_map.mp hst
        exact (hinv.sessions st₀ hst₀).stopping
      · intro p
        have hmap := total_map Session.reserving (f := fun st => { st with stopping := true })
          (fun _ _ => rfl) s.sessions p
        exact (hinv.exact p).trans hmap.symm
      · intro p
        have hmap := total_map (fun (st : Session) p => st.handles.leaving p)
          (f := fun st => { st with stopping := true }) (fun _ _ => rfl) s.sessions p
        exact Nat.le_trans (Nat.le_of_eq (congrArg (s.writers.count p + ·) hmap)) (hinv.single p)
  | @session i st st' l w' hi _ hs =>
      have hst := hinv.sessions st (List.mem_of_getElem? hi)
      have hle : ∀ p, st.reserving p ≤ s.writers.count p := fun p =>
        hinv.exact p ▸ share_le_total Session.reserving hi p
      refine ⟨hs.flag hinv.flag, ?_, ?_, ?_⟩
      · intro st₀ hst₀
        rcases List.mem_or_eq_of_mem_set hst₀ with hst₀ | rfl
        · exact hinv.sessions st₀ hst₀
        · exact hs.ok hst
      · exact exact_set Session.reserving hi hinv.exact (hs.balanced hst (hok.1 st hi) hle)
      · intro p
        have hset := total_set (fun st p => st.handles.leaving p) st' hi p
        have hp := hinv.single p
        unfold Server.leaving at hp ⊢
        dsimp only at hset ⊢
        rcases hs.leaving_le hst hle p with hless | ⟨hl, hz, hone, hsame⟩
        · omega
        · have hnone := hok.2 p (Or.inl hl)
          unfold Server.leaving at hnone
          rw [hsame] at hset
          omega

theorem Server.Inv.of_reached {s : Server} (h : server.ReachedWhen SparesWriters s) : s.Inv :=
  h.invariant (fun _ hs => hs ▸ Server.inv_new) fun _ _ _ hinv hok hs => hinv.step hok hs

/-- Only `removeUnlessWriting` unlinks, and only a path it finds without a reservation. -/
theorem Step.count_of_unlink {s s' : Server} {i : Nat} {p : String}
    (h : Step s (.session i (.unlink p)) s') : s.writers.count p = 0 := by
  cases h with
  | session _ _ hs =>
      cases hs with
      | unlink _ hn => exact hn

theorem Server.Inv.singleWriter {s : Server} (hinv : s.Inv) : SingleWriter s := by
  have hcount : ∀ p, s.writers.count p + s.leaving p = s.openWriters p + s.reservations p :=
    fun p => (congrArg (· + s.leaving p) (hinv.exact p)).trans (s.total_reserving p)
  have hle : ∀ p, s.leaving p ≤ s.openWriters p := fun p =>
    s.openWriters_eq p ▸ Nat.le_add_left _ _
  have hone : ∀ p, s.openWriters p + s.reservations p ≤ 1 := fun p => hcount p ▸ hinv.single p
  refine ⟨?_, ?_, hone, ?_, ?_, ?_⟩
  · intro p hleaving
    have h₁ := hcount p
    omega
  · intro p hleaving
    have h₁ := hcount p
    have h₂ := hone p
    have h₃ := hle p
    exact ⟨hinv.flag.absent (by omega), by omega, by omega⟩
  · intro p i j st st' e f hi hj he hf hep hfp
    have hle : s.openWriters p ≤ 1 := Nat.le_trans (Nat.le_add_right _ _) (hone p)
    exact unique_of_total_le_one Session.handles (fun e p => e.2.holds p) hle hi hj he hf hep hfp
  · intro p i s' hs hspares
    have h₁ := hcount p
    have h₂ := hs.count_of_unlink
    have h₃ := hspares.2 p (Or.inr rfl)
    omega
  · intro p ho hr
    have h₁ := hcount p
    exact hinv.flag.absent (by omega)

/-! ## A session that lives for `2 ^ 32` OPENs -/

/-- A peer's session with one writable handle, under the first number. -/
def oneWriter (real : RealPath) (next : HandleId) : Session :=
  { Session.new with
    handles := [(1, ⟨true, real, false, false⟩)]
    nextHandle := next
    streaming := true }

def oneWriterServer (real : RealPath) (next : HandleId) : Server :=
  { writers := Function.update (fun _ => none) real.1 (some 1)
    sessions := [oneWriter real next]
    down := false }

theorem Session.ready_new : Session.new.Ready := ⟨rfl, rfl, rfl⟩

theorem ready_oneWriter (real : RealPath) (next : HandleId) : (oneWriter real next).Ready :=
  ⟨rfl, rfl, rfl⟩

/-- Where no handle leaves, only the stored handles matter. -/
theorem sparesWriters_of_none {s : Server} {i : Nat} {l : Label}
    (hstore : ∀ st, s.sessions[i]? = some st → l.Spares st.handles) (hnone : ∀ p, s.leaving p = 0) :
    SparesWriters s (.session i l) :=
  ⟨hstore, fun p _ => hnone p⟩

theorem reserveWriter_free {w : Writers} {p : String} (h : w.count p = 0) :
    reserveWriter w p = some (Function.update w p (some 1)) := by
  rw [reserveWriter, if_neg (by omega)]

/-- Connecting and one successful OPEN for writing. -/
theorem reachedWhen_oneWriter (real : RealPath) :
    server.ReachedWhen SparesWriters (oneWriterServer real 2) := by
  have h₁ : server.ReachedWhen SparesWriters { Server.new with sessions := [Session.new] } :=
    .step (.init rfl) (a := .connect) trivial (Step.connect rfl (by decide))
  have h₂ := h₁.step (sparesWriters_of_none (i := 0) (fun st _ id h => by cases h) fun _ => rfl)
    (Step.session rfl (by simp) (.openWrite Session.ready_new (by decide) real))
  have h₃ := h₂.step (sparesWriters_of_none (i := 0) (fun st _ id h => by cases h) fun _ => rfl)
    (Step.session rfl (by simp) (.reserve (Or.inl rfl) rfl))
  refine h₃.step (sparesWriters_of_none (i := 0) (l := .store 1) ?_ fun _ => rfl)
    (Step.session rfl (by simp) (.opened rfl))
  intro st hst id _ e he
  obtain rfl := Option.some.inj hst
  exact absurd he List.not_mem_nil

/-- Every failing OPEN takes a handle number. -/
theorem reached_oneWriter (real : RealPath) (failed : Nat) :
    server.Reached (oneWriterServer real (2 + BitVec.ofNat 32 failed)) := by
  induction failed with
  | zero => exact (reachedWhen_oneWriter real).mono fun _ _ _ => trivial
  | succ n ih =>
      have hn : 2 + BitVec.ofNat 32 (n + 1) = 2 + BitVec.ofNat 32 n + 1 := by
        rw [BitVec.ofNat_add, ← BitVec.add_assoc]
        rfl
      rw [hn]
      apply ih.step
      exact Step.session (i := 0) rfl (by simp)
        (.openFailed (ready_oneWriter _ _) (by simp [oneWriter, maxHandles]))

/-! ## A path opened while the handle on it leaves -/

/-- One peer closes the file, and between the release and the deletion another peer opens it. -/
theorem reached_twoWriters (real : RealPath) : ∃ s, server.Reached s ∧
    s.openWriters real.1 = 2 ∧ s.writers.count real.1 = 1 := by
  have h₁ : server.Reached (oneWriterServer real 2) :=
    (reachedWhen_oneWriter real).mono fun _ _ _ => trivial
  have h₂ := h₁.step (Step.connect rfl (by simp [oneWriterServer, oneWriter, Session.new]))
  have h₃ := h₂.step (Step.session (i := 0) rfl (by simp)
    (.close (ready_oneWriter _ _) (show (1 : HandleId) ≠ 0 by decide)))
  have h₄ := h₃.step (Step.session (i := 0) rfl (by simp)
    (.tear rfl (.release (h := ⟨true, real, false, false⟩) List.mem_cons_self rfl)))
  have h₅ := h₄.step (Step.session (i := 1) rfl (by simp)
    (.openWrite Session.ready_new (by decide) real))
  have hfree : (releaseWrite (oneWriterServer real 2).writers ⟨true, real, false, false⟩).count
      real.1 = 0 := by
    rw [releaseWrite, if_neg (by simp [real.2]), count_releaseWriter, if_pos rfl]
    simp [oneWriterServer, Writers.count]
  have h₆ := h₅.step (Step.session (i := 1) rfl (by simp)
    (.reserve (Or.inl rfl) (reserveWriter_free hfree)))
  have h₇ := h₆.step (Step.session (i := 1) rfl (by simp) (.opened rfl))
  refine ⟨_, h₇, ?_, ?_⟩
  · simp [Server.openWriters, total, Handles.holding, Handles.markClosing, Handles.store,
      Handles.delete, Handle.holds, oneWriterServer, oneWriter, Session.new]
  · simp [Writers.count]

/-- In every interleaving that spares the writers, every reservation is accounted for and no path
has two writers. -/
theorem singleWriter_of_sparesWriters {s : Server} (h : server.ReachedWhen SparesWriters s) :
    SingleWriter s :=
  (Server.Inv.of_reached h).singleWriter

/-- One peer with one file open for writing. -/
theorem singleWriter_oneWriter :
    server.ReachedWhen SparesWriters (oneWriterServer ⟨"/srv/DVD/card.vmc", by decide⟩ 2) ∧
      SingleWriter (oneWriterServer ⟨"/srv/DVD/card.vmc", by decide⟩ 2) :=
  ⟨reachedWhen_oneWriter _, singleWriter_of_sparesWriters (reachedWhen_oneWriter _)⟩

/-- After `2 ^ 32 - 1` failing OPENs the next OPEN for reading takes the number of the writable
handle: the handle is gone and its reservation stays. And a path that is opened while the handle
on it leaves has two writable handles. -/
theorem not_singleWriter_of_reached :
    (¬ ∀ s, server.Reached s → ∀ p, s.leaving p = 0 →
      s.writers.count p = s.openWriters p + s.reservations p) ∧
    ¬ ∀ s, server.Reached s → ∀ p, s.openWriters p ≤ 1 := by
  let real : RealPath := ⟨"/srv/DVD/card.vmc", by decide⟩
  constructor
  · intro hall
    have hr := reached_oneWriter real (2 ^ 32 - 1)
    have hr' := hr.step (Step.session (i := 0) rfl (by simp)
      (.openRead (ready_oneWriter _ _) (by decide)))
    have hc := hall _ hr' real.1 (by decide)
    revert hc
    decide
  · intro hall
    obtain ⟨s, hs, htwo, -⟩ := reached_twoWriters real
    have hle := hall s hs real.1
    omega

end Ps2Servers.Edge
