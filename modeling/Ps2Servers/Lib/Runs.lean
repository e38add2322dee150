import Mathlib.Data.List.Basic
import Mathlib.Order.WellFounded

/-!
# Runs of step relations and of reactive programs

Two shapes of system occur. A concurrent system is a step relation labelled by
actions, and its interleavings are the ways of firing one enabled action after
another. A reactive program is a function from a state and one input to the next
state, and its runs are the input lists. For both, a property of all reached
states is an invariant: one step lemma gives one run lemma. Runs may be restricted
to steps that meet a condition on the state they start from.
-/

namespace Ps2Servers.Runs

variable {σ α : Type*}

/-- A labelled step relation with its initial states. -/
structure System (σ α : Type*) where
  init : σ → Prop
  step : σ → α → σ → Prop

/-- The states reached by runs all of whose steps meet `ok` in the state before the step. -/
inductive System.ReachedWhen (S : System σ α) (ok : σ → α → Prop) : σ → Prop
  | init {s : σ} (h : S.init s) : S.ReachedWhen ok s
  | step {s t : σ} {a : α} (h : S.ReachedWhen ok s) (hok : ok s a) (hs : S.step s a t) :
      S.ReachedWhen ok t

/-- The states reached by any run. -/
def System.Reached (S : System σ α) : σ → Prop := S.ReachedWhen fun _ _ => True

/-- What holds initially and is kept by every step meeting `ok` holds in every state reached. -/
theorem System.ReachedWhen.invariant {S : System σ α} {ok : σ → α → Prop} {inv : σ → Prop}
    (hinit : ∀ s, S.init s → inv s)
    (hstep : ∀ s a t, inv s → ok s a → S.step s a t → inv t)
    {s : σ} (h : S.ReachedWhen ok s) : inv s := by
  induction h with
  | init h => exact hinit _ h
  | step _ hok hs ih => exact hstep _ _ _ ih hok hs

/-- A weaker condition on the steps allows more runs. -/
theorem System.ReachedWhen.mono {S : System σ α} {ok ok' : σ → α → Prop}
    (hok : ∀ s a, ok s a → ok' s a) {s : σ} (h : S.ReachedWhen ok s) : S.ReachedWhen ok' s := by
  induction h with
  | init h => exact .init h
  | step _ h hs ih => exact .step ih (hok _ _ h) hs

/-- One step extends an unrestricted run. -/
theorem System.Reached.step {S : System σ α} {s t : σ} {a : α} (h : S.Reached s)
    (hs : S.step s a t) : S.Reached t :=
  ReachedWhen.step h trivial hs

/-! ## Reactive programs -/

/-- The system that starts in `init` and follows a transition function. -/
def System.ofNext (init : σ) (next : σ → α → σ) : System σ α where
  init s := s = init
  step s a t := t = next s a

/-- Every input of the list meets `ok` in the state it is read in. -/
def Along (next : σ → α → σ) (ok : σ → α → Prop) (s : σ) : List α → Prop
  | [] => True
  | a :: rest => ok s a ∧ Along next ok (next s a) rest

instance Along.decidable (next : σ → α → σ) (ok : σ → α → Prop) [∀ s a, Decidable (ok s a)] :
    (s : σ) → (l : List α) → Decidable (Along next ok s l)
  | _, [] => inferInstanceAs (Decidable True)
  | s, a :: rest =>
      have := Along.decidable next ok (next s a) rest
      inferInstanceAs (Decidable (ok s a ∧ Along next ok (next s a) rest))

/-- A list of inputs extends a run. -/
theorem System.ReachedWhen.along {init : σ} {next : σ → α → σ} {ok : σ → α → Prop} {s : σ}
    (h : (System.ofNext init next).ReachedWhen ok s) {l : List α} (hl : Along next ok s l) :
    (System.ofNext init next).ReachedWhen ok (l.foldl next s) := by
  induction l generalizing s with
  | nil => exact h
  | cons a rest ih => exact ih (h.step hl.1 rfl) hl.2

theorem Along.of_forall {next : σ → α → σ} {ok : σ → α → Prop} (h : ∀ s a, ok s a) (s : σ)
    (l : List α) : Along next ok s l := by
  induction l generalizing s with
  | nil => trivial
  | cons a rest ih => exact ⟨h s a, ih _⟩

theorem Along.concat {next : σ → α → σ} {ok : σ → α → Prop} {s : σ} {l : List α} {a : α}
    (hl : Along next ok s l) (ha : ok (l.foldl next s) a) : Along next ok s (l ++ [a]) := by
  induction l generalizing s with
  | nil => exact ⟨ha, trivial⟩
  | cons b rest ih => exact ⟨hl.1, ih hl.2 ha⟩

/-- Some input of the list started something, and all those after it let it stay. -/
def Since (next : σ → α → σ) (starts stays : σ → α → Prop) (s : σ) (l : List α) : Prop :=
  ∃ before a after, l = before ++ a :: after ∧ starts (before.foldl next s) a ∧
    Along next stays (next (before.foldl next s) a) after

theorem Since.start {next : σ → α → σ} {starts : σ → α → Prop} (stays : σ → α → Prop) {s : σ} {l : List α}
    {a : α} (h : starts (l.foldl next s) a) : Since next starts stays s (l ++ [a]) :=
  ⟨l, a, [], rfl, h, trivial⟩

theorem Since.stay {next : σ → α → σ} {starts stays : σ → α → Prop} {s : σ} {l : List α} {a : α}
    (h : Since next starts stays s l) (ha : stays (l.foldl next s) a) :
    Since next starts stays s (l ++ [a]) := by
  obtain ⟨before, b, after, rfl, hb, hafter⟩ := h
  refine ⟨before, b, after ++ [a], by rw [List.append_assoc, List.cons_append], hb, hafter.concat ?_⟩
  rw [List.foldl_append] at ha
  exact ha

/-! ## One program in terms of another -/

/-- What the inputs of a run stand for, each in the state it is read in. -/
def emitted {β : Type*} (next : σ → α → σ) (emit : σ → α → List β) (s : σ) : List α → List β
  | [] => []
  | a :: rest => emit s a ++ emitted next emit (next s a) rest

/-- A relation that a step keeps, when the other program reads what the input stands for, holds
after every run. -/
theorem simulates {β τ : Type*} {next : σ → α → σ} {next' : τ → β → τ} {emit : σ → α → List β}
    {rel : σ → τ → Prop} (hstep : ∀ s t a, rel s t → rel (next s a) ((emit s a).foldl next' t))
    {s : σ} {t : τ} (h : rel s t) (l : List α) :
    rel (l.foldl next s) ((emitted next emit s l).foldl next' t) := by
  induction l generalizing s t with
  | nil => exact h
  | cons a rest ih =>
      rw [List.foldl_cons, emitted, List.foldl_append]
      exact ih (hstep s t a h)

/-! ## Fair runs -/

/-- From every time on it happens again. -/
def Often (p : ℕ → Prop) : Prop := ∀ n, ∃ m, n ≤ m ∧ p m

/-- Every step leaves what is seen as it is or lowers its rank; what is not at rest needs a kind of
step that lowers its rank. If every kind comes again and again, it comes to rest. -/
theorem comes_to_rest {κ W : Type*} [Preorder W] [WellFoundedLT W] {seen : ℕ → σ} {rank : σ → W}
    {rest : σ → Prop} {needs : σ → κ} {occurs : κ → ℕ → Prop} (hoften : ∀ k, Often (occurs k))
    {start : ℕ} (hstep : ∀ n, start ≤ n → seen (n + 1) = seen n ∨ rank (seen (n + 1)) < rank (seen n))
    (hneeds : ∀ n, start ≤ n → ¬ rest (seen n) → occurs (needs (seen n)) n →
      rank (seen (n + 1)) < rank (seen n)) :
    ∃ n, start ≤ n ∧ rest (seen n) := by
  have hrun : ∀ w n, start ≤ n → rank (seen n) = w → ∃ m, start ≤ m ∧ rest (seen m) := by
    intro w
    induction w using WellFoundedLT.induction with
    | ind w ih =>
        intro n hn hw
        by_cases hrest : rest (seen n)
        · exact ⟨n, hn, hrest⟩
        obtain ⟨m, hm, hoccurs⟩ := hoften (needs (seen n)) n
        -- until then nothing has changed, or the rank is lower already
        have hsame : ∀ j, seen (n + j) = seen n ∨ ∃ i, start ≤ i ∧ rank (seen i) < rank (seen n) := by
          intro j
          induction j with
          | zero => exact Or.inl rfl
          | succ j hj =>
              rcases hj with hj | hj
              · rcases hstep (n + j) (Nat.le_add_right_of_le hn) with h | h
                · exact Or.inl (h.trans hj)
                · exact Or.inr ⟨n + j + 1, Nat.le_add_right_of_le (Nat.le_add_right_of_le hn), hj ▸ h⟩
              · exact Or.inr hj
        have hlower : ∃ i, start ≤ i ∧ rank (seen i) < rank (seen n) := by
          rcases hsame (m - n) with h | h
          · rw [Nat.add_sub_cancel' hm] at h
            refine ⟨m + 1, Nat.le_add_right_of_le (hn.trans hm), ?_⟩
            rw [← h]
            exact hneeds m (hn.trans hm) (h ▸ hrest) (h ▸ hoccurs)
          · exact h
        obtain ⟨i, hi, hlt⟩ := hlower
        exact ih _ (hw ▸ hlt) i hi rfl
  exact hrun _ start (Nat.le_refl _) rfl

/-! ## Guarded programs -/

/-- The system that starts in `init` and follows a transition function that not every input is
open to. -/
def System.ofGuarded (init : σ) (next : σ → α → Option σ) : System σ α where
  init s := s = init
  step s a t := next s a = some t

/-- The state after a list of inputs, where each is open and meets `ok`. -/
def fire (next : σ → α → Option σ) (ok : σ → α → Prop) [∀ s a, Decidable (ok s a)] (s : σ) :
    List α → Option σ
  | [] => some s
  | a :: rest => if ok s a then (next s a).bind fun t => fire next ok t rest else none

theorem System.ReachedWhen.fire {init : σ} {next : σ → α → Option σ} {ok : σ → α → Prop}
    [∀ s a, Decidable (ok s a)] {s t : σ} (h : (System.ofGuarded init next).ReachedWhen ok s)
    {l : List α} (hl : fire next ok s l = some t) :
    (System.ofGuarded init next).ReachedWhen ok t := by
  induction l generalizing s with
  | nil => exact Option.some.inj hl ▸ h
  | cons a rest ih =>
      simp only [Runs.fire, Option.ite_none_right_eq_some, Option.bind_eq_some_iff] at hl
      obtain ⟨hok, u, hs, hrest⟩ := hl
      exact ih (h.step hok hs) hrest

end Ps2Servers.Runs
