import Ps2Servers.Edge.Session
import Mathlib.Data.List.Nodup

/-!
# Accounting of the single-writer reservations

Every reservation is held by exactly one holder: a writable handle that has not been
released, or an OPEN between its `reserveWriter` and the handle it stores or the
release of a failed `os.OpenFile`. A handle stays in its table until it is deleted,
and `releaseWrite` is the first action of every teardown: in between it leaves, open
and without a reservation. The accounting is local: one action of one session changes
the counter of a path by as much as it changes the number of holders in that session.
-/

namespace Ps2Servers.Edge

/-- A writable handle on `p`. -/
def Handle.holds (h : Handle) (p : String) : Bool := h.writer && h.realPath == p

/-- A writable handle on `p` that `releaseWrite` has not run for. -/
def Handle.reserves (h : Handle) (p : String) : Bool := h.holds p && !h.closing

/-- A writable handle on `p` between its `releaseWrite` and its deletion. -/
def Handle.leaves (h : Handle) (p : String) : Bool := h.holds p && h.closing

def Handles.holding (hs : Handles) (p : String) : Nat := hs.countP fun e => e.2.holds p

def Handles.reserving (hs : Handles) (p : String) : Nat := hs.countP fun e => e.2.reserves p

def Handles.leaving (hs : Handles) (p : String) : Nat := hs.countP fun e => e.2.leaves p

theorem Handles.holding_eq (hs : Handles) (p : String) :
    hs.holding p = hs.reserving p + hs.leaving p := by
  induction hs with
  | nil => rfl
  | cons e rest ih =>
      unfold Handles.holding Handles.reserving Handles.leaving at *
      rw [List.countP_cons, List.countP_cons, List.countP_cons, ih]
      unfold Handle.reserves Handle.leaves
      cases e.2.holds p
      · simp
      · cases e.2.closing
        · simp only [Bool.not_false, Bool.and_true, Bool.and_false, if_true, Bool.false_eq_true,
            if_false]
          omega
        · simp only [Bool.not_true, Bool.and_true, Bool.and_false, if_true, Bool.false_eq_true,
            if_false]
          omega

/-- The path a worker has reserved and neither stored nor released. -/
def Phase.reservation : Phase → Option String
  | .reserved _ real => some real
  | .failed real => some real
  | _ => none

def Phase.holding (ph : Phase) (p : String) : Nat := if ph.reservation = some p then 1 else 0

/-- The reservations of `p` that a session accounts for. -/
def Session.reserving (st : Session) (p : String) : Nat :=
  st.handles.reserving p + st.worker.holding p

/-! ## The reservation table -/

/-- Every entry of the table is a single reservation. -/
def Writers.Flag (w : Writers) : Prop := ∀ p, w p = none ∨ w p = some 1

theorem Writers.Flag.count_le_one {w : Writers} (hw : w.Flag) (p : String) : w.count p ≤ 1 := by
  rcases hw p with h | h <;> simp [Writers.count, h]

theorem Writers.Flag.absent {w : Writers} (hw : w.Flag) {p : String} (h : w.count p = 0) :
    w p = none := by
  rcases hw p with h' | h'
  · exact h'
  · simp [Writers.count, h'] at h

theorem Writers.Flag.update {w : Writers} (hw : w.Flag) (p : String) {v : Option Nat}
    (hv : v = none ∨ v = some 1) : Writers.Flag (Function.update w p v) := by
  intro q
  by_cases hq : q = p
  · subst hq
    simpa using hv
  · simpa [Function.update_of_ne hq] using hw q

theorem Writers.count_update (w : Writers) (p q : String) (v : Option Nat) :
    Writers.count (Function.update w p v) q = if q = p then v.getD 0 else w.count q := by
  by_cases hq : q = p
  · subst hq
    simp [Writers.count]
  · simp [Writers.count, hq]

theorem reserveWriter_eq_some {w w' : Writers} {p : String} (h : reserveWriter w p = some w') :
    w.count p = 0 ∧ w' = Function.update w p (some 1) := by
  unfold reserveWriter at h
  split at h
  · simp at h
  · exact ⟨by omega, by simpa using h.symm⟩

theorem count_releaseWriter (w : Writers) (p q : String) :
    (releaseWriter w p).count q = if q = p then w.count p - 1 else w.count q := by
  unfold releaseWriter
  split
  · rw [Writers.count_update]
    split
    · simp only [Option.getD_none]
      omega
    · rfl
  · rw [Writers.count_update]
    simp

theorem Writers.Flag.releaseWriter {w : Writers} (hw : w.Flag) (p : String) :
    (releaseWriter w p).Flag := by
  have hc := hw.count_le_one p
  simpa [Edge.releaseWriter, hc] using hw.update p (Or.inl rfl)

theorem Writers.Flag.releaseWrite {w : Writers} (hw : w.Flag) (h : Handle) :
    (releaseWrite w h).Flag := by
  unfold Edge.releaseWrite
  split
  · exact hw
  · exact hw.releaseWriter _

/-! ## Handle tables -/

/-- The table of a session in which the teardown `dropping` is between its two actions. -/
structure Handles.Ok (hs : Handles) (dropping : Option HandleId) : Prop where
  nodup : hs.keys.Nodup
  named : ∀ e ∈ hs, e.2.writer = true → e.2.realPath ≠ ""
  closing : ∀ e ∈ hs, e.2.closing = true ↔ dropping = some e.1

theorem Handles.mem_of_lookup {hs : Handles} {id : HandleId} {h : Handle}
    (hl : hs.lookup id = some h) : (id, h) ∈ hs := by
  obtain ⟨l₁, l₂, rfl, -⟩ := List.lookup_eq_some_iff.mp hl
  simp

theorem Handles.mem_delete {hs : Handles} {id : HandleId} {e : HandleId × Handle} :
    e ∈ hs.delete id ↔ e ∈ hs ∧ e.1 ≠ id := by
  simp [Handles.delete]

theorem Handles.reserving_cons (e : HandleId × Handle) (hs : Handles) (p : String) :
    Handles.reserving (e :: hs) p = hs.reserving p + if e.2.reserves p then 1 else 0 := by
  rw [Handles.reserving, List.countP_cons]
  rfl

theorem Handles.reserving_delete {hs : Handles} {id : HandleId} {p : String}
    (h : ∀ e ∈ hs, e.1 = id → e.2.reserves p = false) :
    (hs.delete id).reserving p = hs.reserving p := by
  unfold Handles.reserving Handles.delete
  rw [List.countP_filter]
  apply List.countP_congr
  intro e he
  by_cases hid : e.1 = id
  · simp [h e he hid]
  · simp [hid]

theorem Handles.reserving_store {hs : Handles} {id : HandleId} {p : String}
    (hid : ∀ e ∈ hs, e.1 = id → e.2.reserves p = false) (h : Handle) :
    (hs.store id h).reserving p = hs.reserving p + if h.reserves p then 1 else 0 := by
  rw [Handles.store, Handles.reserving_cons, Handles.reserving_delete hid]

theorem Handles.reserving_markInherited (hs : Handles) (p : String) :
    hs.markInherited.reserving p = hs.reserving p := by
  unfold Handles.reserving Handles.markInherited
  rw [List.countP_map]
  rfl

theorem Handles.keys_markClosing (hs : Handles) (id : HandleId) :
    (hs.markClosing id).keys = hs.keys := by
  simp only [Handles.keys, Handles.markClosing, List.map_map]
  apply List.map_congr_left
  intro e _
  by_cases he : e.1 = id <;> simp [he]

theorem Handles.markClosing_of_notMem {hs : Handles} {id : HandleId} (h : id ∉ hs.keys) :
    hs.markClosing id = hs := by
  refine (List.map_congr_left fun e he => ?_).trans (List.map_id hs)
  have hne : e.1 ≠ id := fun hk => h (List.mem_map.mpr ⟨e, he, hk⟩)
  rw [if_neg hne]
  rfl

theorem Handles.keys_nodup_delete {hs : Handles} (h : hs.keys.Nodup) (id : HandleId) :
    (hs.delete id).keys.Nodup :=
  List.Nodup.sublist (List.Sublist.map _ List.filter_sublist) h

/-- Marking the one entry under `id` takes that entry out of the open handles. -/
theorem Handles.reserving_markClosing {hs : Handles} {id : HandleId} {h : Handle} {p : String}
    (hn : hs.keys.Nodup) (hl : (id, h) ∈ hs) :
    hs.reserving p = (hs.markClosing id).reserving p + if h.reserves p then 1 else 0 := by
  induction hs with
  | nil => simp at hl
  | cons e rest ih =>
      simp only [Handles.keys, List.map_cons, List.nodup_cons] at hn
      change _ = Handles.reserving ((if e.1 = id then _ else e) :: Handles.markClosing rest id) p + _
      rw [Handles.reserving_cons, Handles.reserving_cons]
      rcases List.mem_cons.mp hl with rfl | hmem
      · rw [Handles.markClosing_of_notMem hn.1]
        simp [Handle.reserves]
      · have hne : e.1 ≠ id := by
          rintro rfl
          exact hn.1 (List.mem_map.mpr ⟨_, hmem, rfl⟩)
        rw [if_neg hne, ih hn.2 hmem]
        omega

theorem Handles.Ok.store {hs : Handles} {id : HandleId} (hok : hs.Ok none) {h : Handle}
    (hw : h.writer = true → h.realPath ≠ "") (hc : h.closing = false) :
    (hs.store id h).Ok none := by
  refine ⟨?_, ?_, ?_⟩
  · simp only [Handles.keys, Handles.store, List.map_cons, List.nodup_cons]
    refine ⟨?_, Handles.keys_nodup_delete hok.nodup id⟩
    intro hk
    obtain ⟨e, he, hid⟩ := List.mem_map.mp hk
    exact (Handles.mem_delete.mp he).2 hid
  · intro e he hwr
    rcases List.mem_cons.mp he with rfl | he
    · exact hw hwr
    · exact hok.named e (Handles.mem_delete.mp he).1 hwr
  · intro e he
    rcases List.mem_cons.mp he with rfl | he
    · simp [hc]
    · exact hok.closing e (Handles.mem_delete.mp he).1

theorem Handles.Ok.markInherited {hs : Handles} {d : Option HandleId} (hok : hs.Ok d) :
    hs.markInherited.Ok d := by
  refine ⟨?_, ?_, ?_⟩
  · have hk : hs.markInherited.keys = hs.keys := by
      simp [Handles.keys, Handles.markInherited]
    exact hk ▸ hok.nodup
  · intro e he
    obtain ⟨f, hf, rfl⟩ := List.mem_map.mp he
    exact hok.named f hf
  · intro e he
    obtain ⟨f, hf, rfl⟩ := List.mem_map.mp he
    exact hok.closing f hf

/-! ## Teardown -/

theorem TearStep.flag {w w' : Writers} {hs hs' : Handles} {t t' : Teardown}
    (h : TearStep w hs t w' hs' t') (hw : w.Flag) : w'.Flag := by
  cases h with
  | absent => exact hw
  | release => exact hw.releaseWrite _
  | drop => exact hw

theorem TearStep.ok {w w' : Writers} {hs hs' : Handles} {t t' : Teardown}
    (h : TearStep w hs t w' hs' t') (hok : hs.Ok t.dropping) : hs'.Ok t'.dropping := by
  cases h with
  | absent => exact hok
  | @release ids id h hid hl =>
      refine ⟨?_, ?_, ?_⟩
      · exact (Handles.keys_markClosing hs id).symm ▸ hok.nodup
      · intro e he
        obtain ⟨f, hf, rfl⟩ := List.mem_map.mp he
        by_cases hk : f.1 = id
        · simpa [hk] using hok.named f hf
        · simpa [hk] using hok.named f hf
      · intro e he
        obtain ⟨f, hf, rfl⟩ := List.mem_map.mp he
        have hfc : f.2.closing = false := by simpa using (hok.closing f hf)
        by_cases hk : f.1 = id
        · simp [hk]
        · simp [hk, hfc, Ne.symm hk]
  | @drop ids id =>
      refine ⟨?_, ?_, ?_⟩
      · exact Handles.keys_nodup_delete hok.nodup id
      · intro e he
        exact hok.named e (Handles.mem_delete.mp he).1
      · intro e he
        obtain ⟨hmem, hne⟩ := Handles.mem_delete.mp he
        have hc := hok.closing e hmem
        simp only [Option.some.injEq] at hc
        simp only [reduceCtorEq, iff_false, Bool.not_eq_true]
        by_contra hcl
        exact hne (hc.mp (by simpa using hcl)).symm

/-- A teardown action changes the counter of a path by as much as the handles that reserve it. -/
theorem TearStep.balanced {w w' : Writers} {hs hs' : Handles} {t t' : Teardown}
    (h : TearStep w hs t w' hs' t') (hok : hs.Ok t.dropping)
    (hle : ∀ p, hs.reserving p ≤ w.count p) (p : String) :
    w'.count p + hs.reserving p = w.count p + hs'.reserving p := by
  cases h with
  | absent => rfl
  | @release ids id h hid hl =>
      have hmem := Handles.mem_of_lookup hl
      have hclose := Handles.reserving_markClosing (p := p) hok.nodup hmem
      have hopen : h.closing = false := by simpa using hok.closing _ hmem
      have hp := hle p
      unfold releaseWrite
      by_cases hw : h.writer = true
      · have hne : h.realPath ≠ "" := hok.named _ hmem hw
        have hh : h.reserves p = true ↔ p = h.realPath := by
          simp only [Handle.reserves, Handle.holds, hw, hopen, Bool.not_false, Bool.and_true,
            Bool.true_and, beq_iff_eq]
          exact eq_comm
        rw [if_neg (by simp [hw, hne]), count_releaseWriter]
        by_cases hpe : p = h.realPath
        · rw [if_pos (hh.mpr hpe)] at hclose
          rw [if_pos hpe, ← hpe]
          omega
        · rw [if_neg (fun hp' => hpe (hh.mp hp'))] at hclose
          rw [if_neg hpe]
          omega
      · have hh : h.reserves p = false := by simp [Handle.reserves, Handle.holds, hw]
        rw [if_pos (Or.inl (by simpa using hw))]
        simp only [hh, Bool.false_eq_true, if_false] at hclose
        omega
  | @drop ids id =>
      rw [Handles.reserving_delete]
      intro e he hk
      have hc : e.2.closing = true := (hok.closing e he).mpr (by rw [hk])
      simp [Handle.reserves, hc]

/-! ## One action of one session -/

def Phase.dropping : Phase → Option HandleId
  | .tearing t _ => t.dropping
  | _ => none

/-- The handle whose teardown is between its two actions. -/
def Session.dropping (st : Session) : Option HandleId :=
  st.worker.dropping.or (st.closer.bind fun c => c.1.dropping)

/-- What every session keeps. `busy` is why a `Reset`, which needs a session that is not
streaming, never meets a worker inside a request. -/
structure Session.Ok (st : Session) : Prop where
  table : st.handles.Ok st.dropping
  busy : st.worker = .idle ∨ (st.streaming = true ∧ st.exited = false)
  exclusive : st.closer = none ∨ st.worker = .idle

theorem Session.Ok.closer_none {st : Session} (hok : st.Ok) (hw : st.worker ≠ .idle) :
    st.closer = none :=
  hok.exclusive.resolve_right hw

theorem Session.dropping_of_closer_none {st : Session} (hc : st.closer = none) :
    st.dropping = st.worker.dropping := by
  simp [Session.dropping, hc]

theorem Session.Ok.table_of_worker {st : Session} {ph : Phase} (hok : st.Ok)
    (hw : st.worker = ph) (hne : ph ≠ .idle) : st.handles.Ok ph.dropping := by
  have hc := hok.closer_none (hw ▸ hne)
  exact hw ▸ Session.dropping_of_closer_none hc ▸ hok.table

theorem Session.Ok.table_of_ready {st : Session} (hok : st.Ok) (hr : st.Ready) :
    st.handles.Ok none := by
  have hd : st.dropping = none := by simp [Session.dropping, hr.1, hr.2.1, Phase.dropping]
  exact hd ▸ hok.table

theorem Session.Ok.table_of_closer {st : Session} {t : Teardown} {kind : CloseKind}
    (hok : st.Ok) (hc : st.closer = some (t, kind)) :
    st.worker = .idle ∧ st.handles.Ok t.dropping := by
  have hw : st.worker = .idle := hok.exclusive.resolve_left (by simp [hc])
  have hd : st.dropping = t.dropping := by simp [Session.dropping, hw, hc, Phase.dropping]
  exact ⟨hw, hd ▸ hok.table⟩

/-- A worker that goes on with no teardown of its own keeps the session in order. -/
theorem Session.Ok.of_worker {st : Session} {hs : Handles} {ph : Phase} {n : HandleId} {b : Bool}
    (hc : st.closer = none) (ht : hs.Ok ph.dropping)
    (hb : ph = .idle ∨ (b = true ∧ st.exited = false)) :
    Session.Ok { st with handles := hs, worker := ph, nextHandle := n, streaming := b } :=
  ⟨by simpa [Session.dropping, hc] using ht, hb, Or.inl hc⟩

/-- A worker inside a request goes on, with the handle table `hs`. -/
theorem Session.Ok.continue {st : Session} {hs : Handles} {ph ph' : Phase} (hok : st.Ok)
    (hw : st.worker = ph) (hne : ph ≠ .idle) (ht : hs.Ok ph'.dropping) :
    Session.Ok { st with handles := hs, worker := ph' } := by
  have hi : st.worker ≠ .idle := hw ▸ hne
  exact .of_worker (hok.closer_none hi) ht (Or.inr (hok.busy.resolve_left hi))

theorem Session.Ok.advance {st : Session} {ph ph' : Phase} (hok : st.Ok) (hw : st.worker = ph)
    (hne : ph ≠ .idle) (hd : ph.dropping = ph'.dropping) :
    Session.Ok { st with worker := ph' } :=
  hok.continue hw hne (hd ▸ hok.table_of_worker hw hne)

theorem Session.Ok.idle_of_not_streaming {st : Session} (hok : st.Ok)
    (hs : st.streaming = false) : st.worker = .idle := by
  rcases hok.busy with h | ⟨h, -⟩
  · exact h
  · simp [h] at hs

theorem Session.Ok.idle_of_exited {st : Session} (hok : st.Ok) (he : st.exited = true) :
    st.worker = .idle := by
  rcases hok.busy with h | ⟨-, h⟩
  · exact h
  · simp [h] at he

/-- A `Reset` or `Close` starts on a session whose worker is outside any request. -/
theorem Session.Ok.closing {st : Session} {ids : List HandleId} {kind : CloseKind}
    (hok : st.Ok) (hw : st.worker = .idle) (hc : st.closer = none) :
    Session.Ok { st with closer := some (⟨none, ids⟩, kind) } := by
  have hd : st.dropping = none := by simp [Session.dropping, hw, hc, Phase.dropping]
  exact ⟨by simpa [Session.dropping, hw, Phase.dropping] using hd ▸ hok.table, Or.inl hw, Or.inr hw⟩

theorem Session.Ok.stopping {st : Session} (hok : st.Ok) :
    Session.Ok { st with stopping := true } :=
  ⟨hok.table, hok.busy, hok.exclusive⟩

theorem After.phase_dropping (a : After) : a.phase.dropping = none := by
  cases a <;> rfl

theorem After.phase_reservation (a : After) : a.phase.reservation = none := by
  cases a <;> rfl

theorem Phase.holding_of_reservation_none {ph : Phase} (h : ph.reservation = none) (p : String) :
    ph.holding p = 0 := by
  simp [Phase.holding, h]

theorem Phase.holding_tearing (t : Teardown) (next : After) (p : String) :
    (Phase.tearing t next).holding p = 0 :=
  Phase.holding_of_reservation_none rfl p

theorem LocalStep.flag {w w' : Writers} {st st' : Session} {l : Label}
    (h : LocalStep w st l w' st') (hw : w.Flag) : w'.Flag := by
  cases h with
  | reserve _ hr =>
      obtain ⟨-, rfl⟩ := reserveWriter_eq_some hr
      exact hw.update _ (Or.inr rfl)
  | openRelease => exact hw.releaseWriter _
  | tear _ ht => exact ht.flag hw
  | closerTear _ ht => exact ht.flag hw
  | _ => exact hw

theorem LocalStep.ok {w w' : Writers} {st st' : Session} {l : Label}
    (h : LocalStep w st l w' st') (hok : st.Ok) : st'.Ok := by
  cases h with
  | request hr => exact .of_worker hr.2.1 (hr.1 ▸ hok.table_of_ready hr) (Or.inl hr.1)
  | handOff hr =>
      exact .of_worker hr.2.1 (hr.1 ▸ (hok.table_of_ready hr).markInherited) (Or.inl hr.1)
  | openFailed hr => exact .of_worker hr.2.1 (hr.1 ▸ hok.table_of_ready hr) (Or.inl hr.1)
  | openRead hr =>
      exact .of_worker hr.2.1 (hr.1 ▸ (hok.table_of_ready hr).store (by simp) rfl) (Or.inl hr.1)
  | openWrite hr => exact .of_worker hr.2.1 (hok.table_of_ready hr) (Or.inr ⟨rfl, hr.2.2⟩)
  | close hr => exact .of_worker hr.2.1 (hok.table_of_ready hr) (Or.inr ⟨rfl, hr.2.2⟩)
  | remove hr => exact .of_worker hr.2.1 (hok.table_of_ready hr) (Or.inr ⟨rfl, hr.2.2⟩)
  | reserve hw =>
      rcases hw with hw | hw
      · exact hok.advance hw (by simp) rfl
      · exact hok.advance hw (by simp) rfl
  | takeOver hw => exact hok.advance hw (by simp) rfl
  | busy hw => exact hok.advance hw (by simp) rfl
  | opened hw =>
      rename_i id real
      have ht := hok.table_of_worker hw (by simp)
      exact hok.continue hw (by simp) (ht.store (fun _ => real.2) rfl)
  | openError hw => exact hok.advance hw (by simp) rfl
  | openRelease hw => exact hok.advance hw (by simp) rfl
  | unlink hw =>
      rcases hw with hw | hw
      · exact hok.advance hw (by simp) rfl
      · exact hok.advance hw (by simp) rfl
  | removeBusy hw => exact hok.advance hw (by simp) rfl
  | removeRefused hw => exact hok.advance hw (by simp) rfl
  | tear hw ht =>
      exact hok.continue hw (by simp) (ht.ok (hok.table_of_worker hw (by simp)))
  | torn hw => exact hok.advance hw (by simp) (After.phase_dropping _).symm
  | reset hs hc => exact hok.closing (hok.idle_of_not_streaming hs) hc
  | closeSession he hc => exact hok.closing (hok.idle_of_exited he) hc
  | closerTear hc ht =>
      obtain ⟨hw, htab⟩ := hok.table_of_closer hc
      exact ⟨by simpa [Session.dropping, hw, Phase.dropping] using ht.ok htab, Or.inl hw, Or.inr hw⟩
  | resetDone hc =>
      obtain ⟨hw, htab⟩ := hok.table_of_closer hc
      exact ⟨by simpa [Session.dropping, hw, Phase.dropping] using htab, Or.inl hw, Or.inl rfl⟩
  | closeDone hc =>
      obtain ⟨hw, htab⟩ := hok.table_of_closer hc
      exact ⟨by simpa [Session.dropping, hw, Phase.dropping] using htab, Or.inl hw, Or.inl rfl⟩
  | stop => exact hok.stopping
  | exit hw => exact ⟨hok.table, Or.inl hw, hok.exclusive⟩

/-- The label stores no handle over a writable one. -/
def Label.Spares (l : Label) (hs : Handles) : Prop :=
  ∀ id, l = .store id → ∀ e ∈ hs, e.1 = id → e.2.writer = false

theorem Label.Spares.reserves {id : HandleId} {hs : Handles} (h : (Label.store id).Spares hs)
    (p : String) : ∀ e ∈ hs, e.1 = id → e.2.reserves p = false := by
  intro e he hid
  simp [Handle.reserves, Handle.holds, h id rfl e he hid]

theorem Handles.reserving_le {st : Session} {w : Writers}
    (hle : ∀ p, st.reserving p ≤ w.count p) (p : String) : st.handles.reserving p ≤ w.count p :=
  Nat.le_trans (Nat.le_add_right _ _) (hle p)

/-- A worker that keeps its reservation keeps the number of holders. -/
theorem Session.reserving_advance {st st' : Session} {ph : Phase} (w : Writers) (p : String)
    (hw : st.worker = ph) (hr : ph.reservation = st'.worker.reservation)
    (hh : st'.handles = st.handles) : w.count p + st.reserving p = w.count p + st'.reserving p := by
  simp only [Session.reserving, Phase.holding, hw, hr, hh]

theorem Phase.holding_of_reservation {ph : Phase} {q : String} (h : ph.reservation = some q)
    (p : String) : ph.holding p = if p = q then 1 else 0 := by
  simp [Phase.holding, h, eq_comm]

/-- A reservation is taken by a worker that had none. -/
theorem reserveWriter_balanced {w w' : Writers} {st : Session} {id : HandleId} {real : RealPath}
    {ph : Phase} (hw : st.worker = ph) (hn : ph.reservation = none)
    (hr : reserveWriter w real = some w') (p : String) :
    w'.count p + st.reserving p =
      w.count p + Session.reserving { st with worker := .reserved id real } p := by
  obtain ⟨hz, rfl⟩ := reserveWriter_eq_some hr
  have hnew : (Phase.reserved id real).holding p = if p = real.1 then 1 else 0 :=
    Phase.holding_of_reservation rfl p
  have hold : ph.holding p = 0 := Phase.holding_of_reservation_none hn p
  rw [Writers.count_update]
  simp only [Session.reserving, hw, hold, hnew]
  by_cases hp : p = real.1
  · simp only [hp, if_true, Option.getD_some, hz]
    omega
  · simp only [hp, if_false, Nat.add_zero]

/-- One action changes the counter of a path by as much as the session's holders of it. -/
theorem LocalStep.balanced {w w' : Writers} {st st' : Session} {l : Label}
    (h : LocalStep w st l w' st') (hok : st.Ok) (hf : l.Spares st.handles)
    (hle : ∀ p, st.reserving p ≤ w.count p) (p : String) :
    w'.count p + st.reserving p = w.count p + st'.reserving p := by
  cases h with
  | handOff => simp only [Session.reserving, Handles.reserving_markInherited]
  | openRead hr =>
      simp [Session.reserving, Handles.reserving_store (hf.reserves p), Handle.reserves,
        Handle.holds]
  | openWrite hr => exact Session.reserving_advance w p hr.1 rfl rfl
  | close hr => exact Session.reserving_advance w p hr.1 rfl rfl
  | remove hr => exact Session.reserving_advance w p hr.1 rfl rfl
  | reserve hw hr =>
      rcases hw with hw | hw
      · exact reserveWriter_balanced hw rfl hr p
      · exact reserveWriter_balanced hw rfl hr p
  | takeOver hw => exact Session.reserving_advance w p hw rfl rfl
  | busy hw => exact Session.reserving_advance w p hw rfl rfl
  | opened hw =>
      rename_i id real
      have hold : (Phase.reserved id real).holding p = if p = real.1 then 1 else 0 :=
        Phase.holding_of_reservation rfl p
      have hnew : Phase.idle.holding p = 0 := Phase.holding_of_reservation_none rfl p
      have hh : Handle.reserves ⟨true, real, false, false⟩ p = decide (p = real.1) := by
        simp [Handle.reserves, Handle.holds, beq_eq_decide, eq_comm]
      simp only [Session.reserving, hw, hold, hnew, Handles.reserving_store (hf.reserves p), hh,
        decide_eq_true_eq]
      omega
  | openError hw => exact Session.reserving_advance w p hw rfl rfl
  | openRelease hw =>
      rename_i real
      have hold : (Phase.failed real).holding p = if p = real.1 then 1 else 0 :=
        Phase.holding_of_reservation rfl p
      have hnew : Phase.idle.holding p = 0 := Phase.holding_of_reservation_none rfl p
      have hp := hle p
      rw [count_releaseWriter]
      simp only [Session.reserving, hw, hold, hnew] at hp ⊢
      by_cases hpr : p = real.1
      · simp only [hpr, if_true] at hp ⊢
        omega
      · simp only [hpr, if_false]
  | unlink hw =>
      rcases hw with hw | hw
      · exact Session.reserving_advance w p hw rfl rfl
      · exact Session.reserving_advance w p hw rfl rfl
  | removeBusy hw => exact Session.reserving_advance w p hw rfl rfl
  | removeRefused hw => exact Session.reserving_advance w p hw rfl rfl
  | tear hw ht =>
      have hb := ht.balanced (hok.table_of_worker hw (by simp)) (Handles.reserving_le hle) p
      simpa only [Session.reserving, hw, Phase.holding_tearing, Nat.add_zero] using hb
  | torn hw => exact Session.reserving_advance w p hw (After.phase_reservation _).symm rfl
  | closerTear hc ht =>
      have hb := ht.balanced (hok.table_of_closer hc).2 (Handles.reserving_le hle) p
      simp only [Session.reserving]
      omega
  | _ => rfl

/-! ## Handles between their release and their deletion -/

theorem Handles.leaving_delete_le (hs : Handles) (id : HandleId) (p : String) :
    (hs.delete id).leaving p ≤ hs.leaving p :=
  List.filter_sublist.countP_le

theorem Handles.leaving_store_le (hs : Handles) (id : HandleId) {h : Handle}
    (hc : h.closing = false) (p : String) : (hs.store id h).leaving p ≤ hs.leaving p := by
  have hnew : h.leaves p = false := by simp [Handle.leaves, hc]
  unfold Handles.store Handles.leaving
  rw [List.countP_cons, hnew]
  exact hs.leaving_delete_le id p

theorem Handles.leaving_markInherited (hs : Handles) (p : String) :
    hs.markInherited.leaving p = hs.leaving p := by
  unfold Handles.leaving Handles.markInherited
  rw [List.countP_map]
  rfl

theorem Handles.holding_markClosing (hs : Handles) (id : HandleId) (p : String) :
    (hs.markClosing id).holding p = hs.holding p := by
  unfold Handles.holding Handles.markClosing
  rw [List.countP_map]
  apply List.countP_congr
  intro e _
  by_cases he : e.1 = id <;> simp [he, Handle.holds]

/-- Of the counter and the handles that leave, a teardown action adds to one only what it takes
from the other. -/
theorem TearStep.leaving_le {w w' : Writers} {hs hs' : Handles} {t t' : Teardown}
    (h : TearStep w hs t w' hs' t') (hok : hs.Ok t.dropping)
    (hle : ∀ p, hs.reserving p ≤ w.count p) (p : String) :
    w'.count p + hs'.leaving p ≤ w.count p + hs.leaving p := by
  cases h with
  | absent => exact Nat.le_refl _
  | @release ids id h hid hl =>
      have hb := TearStep.balanced (TearStep.release hid hl) hok hle p
      have hall := hs.holding_markClosing id p
      rw [Handles.holding_eq, Handles.holding_eq] at hall
      omega
  | drop => exact Nat.add_le_add_left (hs.leaving_delete_le _ p) _

/-- Only a reservation brings a path closer to its limit. -/
theorem LocalStep.leaving_le {w w' : Writers} {st st' : Session} {l : Label}
    (h : LocalStep w st l w' st') (hok : st.Ok) (hle : ∀ p, st.reserving p ≤ w.count p)
    (p : String) :
    w'.count p + st'.handles.leaving p ≤ w.count p + st.handles.leaving p ∨
      l = .reserve p ∧ w.count p = 0 ∧ w'.count p = 1 ∧ st'.handles = st.handles := by
  cases h with
  | handOff => exact Or.inl (Nat.le_of_eq (by simp only [Handles.leaving_markInherited]))
  | openRead hr => exact Or.inl (Nat.add_le_add_left (Handles.leaving_store_le _ _ rfl p) _)
  | opened => exact Or.inl (Nat.add_le_add_left (Handles.leaving_store_le _ _ rfl p) _)
  | @reserve w' st id real hw hr =>
      obtain ⟨hz, rfl⟩ := reserveWriter_eq_some hr
      by_cases hp : p = real.1
      · subst hp
        refine Or.inr ⟨rfl, hz, ?_, rfl⟩
        rw [Writers.count_update, if_pos rfl]
        rfl
      · refine Or.inl (Nat.le_of_eq ?_)
        rw [Writers.count_update, if_neg hp]
  | openRelease hw =>
      rename_i real
      refine Or.inl (Nat.add_le_add_right ?_ _)
      rw [count_releaseWriter]
      split
      · rename_i hp
        subst hp
        exact Nat.sub_le _ _
      · exact Nat.le_refl _
  | tear hw ht =>
      exact Or.inl (ht.leaving_le (hok.table_of_worker hw (by simp)) (Handles.reserving_le hle) p)
  | closerTear hc ht =>
      exact Or.inl (ht.leaving_le (hok.table_of_closer hc).2 (Handles.reserving_le hle) p)
  | _ => exact Or.inl (Nat.le_refl _)

end Ps2Servers.Edge
