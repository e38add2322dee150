import Mathlib.Data.List.Basic

/-!
# Programs with state and exceptions

`EStateM` keeps the state when an exception is raised, as an imperative program
does. The lemmas run a program on a state, say which programs keep an invariant of
the state, and which programs cannot tell related states apart.
-/

namespace Ps2Servers.Effects

universe u

variable {σ ε α β : Type u}

@[simp] theorem pure_apply (a : α) (s : σ) : (pure a : EStateM ε σ α) s = .ok a s := rfl

@[simp] theorem throw_apply (e : ε) (s : σ) : (throw e : EStateM ε σ α) s = .error e s := rfl

@[simp] theorem modify_apply (f : σ → σ) (s : σ) :
    (modify f : EStateM ε σ PUnit) s = .ok .unit (f s) := rfl

@[simp] theorem set_apply (s' s : σ) : (set s' : EStateM ε σ PUnit) s = .ok .unit s' := rfl

/-- Sequencing goes on after a value and stops at an exception. -/
theorem bind_apply (x : EStateM ε σ α) (f : α → EStateM ε σ β) (s : σ) :
    (x >>= f) s = match x s with
      | .ok a s' => f a s'
      | .error e s' => .error e s' := by
  change EStateM.bind x f s = _
  unfold EStateM.bind
  cases x s <;> rfl

theorem bind_ok {x : EStateM ε σ α} {f : α → EStateM ε σ β} {s s' : σ} {a : α}
    (h : x s = .ok a s') : (x >>= f) s = f a s' := by
  rw [bind_apply, h]

theorem bind_error {x : EStateM ε σ α} {f : α → EStateM ε σ β} {s s' : σ} {e : ε}
    (h : x s = .error e s') : (x >>= f) s = .error e s' := by
  rw [bind_apply, h]

/-- A sequence that ends has two parts that end. -/
theorem bind_ok_iff {x : EStateM ε σ α} {f : α → EStateM ε σ β} {s s'' : σ} {b : β} :
    (x >>= f) s = .ok b s'' ↔ ∃ a s', x s = .ok a s' ∧ f a s' = .ok b s'' := by
  rw [bind_apply]
  cases x s with
  | error e s' => exact iff_of_false (fun h => by cases h) fun ⟨_, _, h, _⟩ => by cases h
  | ok a s' =>
      constructor
      · exact fun h => ⟨a, s', rfl, h⟩
      · rintro ⟨_, _, hx, h⟩
        cases hx
        exact h

theorem map_ok {x : EStateM ε σ α} {g : α → β} {s s' : σ} {a : α} (h : x s = .ok a s') :
    (g <$> x) s = .ok (g a) s' := by
  change EStateM.map g x s = _
  rw [EStateM.map, h]

theorem map_error {x : EStateM ε σ α} {g : α → β} {s s' : σ} {e : ε} (h : x s = .error e s') :
    (g <$> x) s = .error e s' := by
  change EStateM.map g x s = _
  rw [EStateM.map, h]

theorem get_bind (f : σ → EStateM ε σ β) (s : σ) : (get >>= f) s = f s s := rfl

/-- `try` and `except`: what the body did before it raised stays done. -/
def rescue (body : EStateM ε σ α) (caught : ε → Bool) (handle : ε → EStateM ε σ α) :
    EStateM ε σ α := fun s =>
  match body s with
  | .ok a s' => .ok a s'
  | .error e s' => if caught e then handle e s' else .error e s'

theorem rescue_ok {x : EStateM ε σ α} {caught : ε → Bool} {handle : ε → EStateM ε σ α} {s s' : σ}
    {a : α} (h : x s = .ok a s') : rescue x caught handle s = .ok a s' := by
  rw [rescue, h]

theorem rescue_caught {x : EStateM ε σ α} {caught : ε → Bool} {handle : ε → EStateM ε σ α}
    {s s' : σ} {e : ε} (h : x s = .error e s') (hc : caught e) :
    rescue x caught handle s = handle e s' := by
  rw [rescue, h]
  exact if_pos hc

theorem rescue_passed {x : EStateM ε σ α} {caught : ε → Bool} {handle : ε → EStateM ε σ α}
    {s s' : σ} {e : ε} (h : x s = .error e s') (hc : ¬ caught e) :
    rescue x caught handle s = .error e s' := by
  rw [rescue, h]
  exact if_neg hc

/-! ## Invariants -/

/-- What a program leaves behind, whether or not it raised. -/
def final : EStateM.Result ε σ α → σ
  | .ok _ s => s
  | .error _ s => s

/-- From a state with `inv` the program leads to one, whether it ends or raises. -/
def Keeps (inv : σ → Prop) (x : EStateM ε σ α) : Prop := ∀ s, inv s → inv (final (x s))

variable {inv : σ → Prop} {x : EStateM ε σ α} {f : α → EStateM ε σ β}

theorem Keeps.pure (a : α) : Keeps inv (pure a : EStateM ε σ α) := fun _ hs => hs

theorem Keeps.throw (e : ε) : Keeps inv (throw e : EStateM ε σ α) := fun _ hs => hs

theorem Keeps.set {s : σ} (hs : inv s) : Keeps inv (set s : EStateM ε σ PUnit) := fun _ _ => hs

theorem Keeps.modify {g : σ → σ} (hg : ∀ s, inv s → inv (g s)) :
    Keeps inv (modify g : EStateM ε σ PUnit) := hg

theorem Keeps.ite {c : Prop} [Decidable c] {x y : EStateM ε σ α} (hx : Keeps inv x) (hy : Keeps inv y) :
    Keeps inv (if c then x else y) := by
  split
  · exact hx
  · exact hy

/-- From this state the program leads to one with `inv`. -/
def KeepsFrom (inv : σ → Prop) (s : σ) (x : EStateM ε σ α) : Prop := inv (final (x s))

theorem Keeps.from (h : ∀ s, inv s → KeepsFrom inv s x) : Keeps inv x := h

theorem KeepsFrom.get {s : σ} {f : σ → EStateM ε σ β} (hf : KeepsFrom inv s (f s)) :
    KeepsFrom inv s (get >>= f) := hf

theorem KeepsFrom.set_bind {s s' : σ} {f : PUnit → EStateM ε σ β}
    (hf : KeepsFrom inv s' (f .unit)) : KeepsFrom inv s (set s' >>= f) := hf

theorem KeepsFrom.pure_bind {s : σ} {a : α} (hf : KeepsFrom inv s (f a)) :
    KeepsFrom inv s ((pure a : EStateM ε σ α) >>= f) := hf

/-- The first part from here, and a rest that always keeps the invariant. -/
theorem KeepsFrom.bind {s : σ} (hx : KeepsFrom inv s x) (hf : ∀ a, Keeps inv (f a)) :
    KeepsFrom inv s (x >>= f) := by
  unfold KeepsFrom at hx ⊢
  rw [bind_apply]
  cases hr : x s with
  | ok a s' =>
      rw [hr] at hx
      exact hf a s' hx
  | error e s' =>
      rw [hr] at hx
      exact hx

theorem Keeps.bind (hx : Keeps inv x) (hf : ∀ a, Keeps inv (f a)) : Keeps inv (x >>= f) :=
  fun s hs => KeepsFrom.bind (hx s hs) hf

theorem Keeps.map {g : α → β} (hx : Keeps inv x) : Keeps inv (g <$> x) :=
  hx.bind fun a => Keeps.pure (g a)

/-- What is read is a state with the invariant. -/
theorem Keeps.get {f : σ → EStateM ε σ β} (hf : ∀ s, inv s → Keeps inv (f s)) :
    Keeps inv (get >>= f) := fun s hs => hf s hs s hs

theorem KeepsFrom.rescue {caught : ε → Bool} {handle : ε → EStateM ε σ α} {s : σ}
    (hx : KeepsFrom inv s x) (hh : ∀ e, Keeps inv (handle e)) :
    KeepsFrom inv s (rescue x caught handle) := by
  unfold KeepsFrom at hx ⊢
  unfold Effects.rescue
  cases hr : x s with
  | ok a s' =>
      rw [hr] at hx
      exact hx
  | error e s' =>
      rw [hr] at hx
      dsimp only
      split
      · exact hh e s' hx
      · exact hx

theorem Keeps.rescue {caught : ε → Bool} {handle : ε → EStateM ε σ α} (hx : Keeps inv x)
    (hh : ∀ e, Keeps inv (handle e)) : Keeps inv (rescue x caught handle) :=
  fun s hs => KeepsFrom.rescue (hx s hs) hh

/-! ## Programs that read -/

/-- From this state the program changes nothing, and its values meet `P`. -/
def Observes (x : EStateM ε σ α) (s : σ) (P : α → Prop) : Prop :=
  final (x s) = s ∧ ∀ a s', x s = .ok a s' → P a

theorem Observes.pure {s : σ} {P : α → Prop} {a : α} (ha : P a) : Observes (pure a : EStateM ε σ α) s P := by
  constructor
  · rfl
  · intro b s' h
    cases h
    exact ha

theorem Observes.throw {s : σ} {P : α → Prop} (e : ε) : Observes (throw e : EStateM ε σ α) s P :=
  ⟨rfl, fun _ _ h => by cases h⟩

theorem Observes.ite {s : σ} {P : α → Prop} {c : Prop} [Decidable c] {x y : EStateM ε σ α}
    (hx : c → Observes x s P) (hy : ¬ c → Observes y s P) : Observes (if c then x else y) s P := by
  split
  · exact hx ‹_›
  · exact hy ‹_›

theorem Observes.bind {s : σ} {P : α → Prop} {Q : β → Prop} (hx : Observes x s P)
    (hf : ∀ a, P a → Observes (f a) s Q) : Observes (x >>= f) s Q := by
  obtain ⟨hfinal, hvalue⟩ := hx
  unfold Observes
  rw [bind_apply]
  cases hr : x s with
  | error e s' =>
      rw [hr] at hfinal
      exact ⟨hfinal, fun _ _ h => by cases h⟩
  | ok a s' =>
      rw [hr] at hfinal
      cases hfinal
      exact hf a (hvalue a _ hr)

theorem Observes.get {s : σ} {P : β → Prop} {f : σ → EStateM ε σ β} (hf : Observes (f s) s P) :
    Observes (get >>= f) s P := hf

/-- A program that changes nothing keeps what holds. -/
theorem Observes.keepsFrom {s : σ} {P : α → Prop} (hx : Observes x s P) (hs : inv s) : KeepsFrom inv s x :=
  Eq.subst (motive := inv) hx.1.symm hs

theorem Observes.keeps {P : σ → α → Prop} (hx : ∀ s, Observes x s (P s)) : Keeps inv x :=
  fun s hs => (hx s).keepsFrom hs

/-- What follows starts from the same state, with a value that meets `P`. -/
theorem KeepsFrom.observes {s : σ} {P : α → Prop} (hx : Observes x s P) (hs : inv s)
    (hf : ∀ a, P a → KeepsFrom inv s (f a)) : KeepsFrom inv s (x >>= f) := by
  obtain ⟨hfinal, hvalue⟩ := hx
  unfold KeepsFrom
  rw [bind_apply]
  cases hr : x s with
  | error e s' =>
      rw [hr] at hfinal
      cases hfinal
      exact hs
  | ok a s' =>
      rw [hr] at hfinal
      cases hfinal
      exact hf a (hvalue a _ hr)

/-- From a state with `inv` the program leads to one, and its values meet `P`. -/
def Produces (inv : σ → Prop) (P : α → Prop) (x : EStateM ε σ α) : Prop :=
  ∀ s, inv s → inv (final (x s)) ∧ ∀ a s', x s = .ok a s' → P a

theorem Produces.pure {P : α → Prop} {a : α} (ha : P a) : Produces inv P (pure a : EStateM ε σ α) := by
  intro s hs
  refine ⟨hs, fun b s' h => ?_⟩
  cases h
  exact ha

theorem Produces.keeps_bind {P : α → Prop} (hx : Produces inv P x) (hf : ∀ a, P a → Keeps inv (f a)) :
    Keeps inv (x >>= f) := by
  intro s hs
  obtain ⟨hinv, hvalue⟩ := hx s hs
  rw [bind_apply]
  cases hr : x s with
  | error e s' =>
      rw [hr] at hinv
      exact hinv
  | ok a s' =>
      rw [hr] at hinv
      exact hf a (hvalue a s' hr) s' hinv

/-! ## Two runs -/

/-- The same value or exception, in related states. -/
inductive Similar (R : σ → σ → Prop) :
    EStateM.Result ε σ α → EStateM.Result ε σ α → Prop
  | ok (a : α) {s t : σ} (h : R s t) : Similar R (.ok a s) (.ok a t)
  | error (e : ε) {s t : σ} (h : R s t) : Similar R (.error e s) (.error e t)

/-- From related states the two programs end alike. -/
def Agree (R : σ → σ → Prop) (x y : EStateM ε σ α) : Prop := ∀ s t, R s t → Similar R (x s) (y t)

variable {R : σ → σ → Prop} {y : EStateM ε σ α} {g : α → EStateM ε σ β}

theorem Similar.final {a b : EStateM.Result ε σ α} (h : Similar R a b) :
    R (Effects.final a) (Effects.final b) := by
  cases h with
  | ok a h => exact h
  | error e h => exact h

theorem Agree.pure (a : α) : Agree R (pure a : EStateM ε σ α) (pure a) := fun _ _ h => .ok a h

theorem Agree.throw (e : ε) : Agree R (throw e : EStateM ε σ α) (throw e) := fun _ _ h => .error e h

theorem Agree.set {s t : σ} (h : R s t) : Agree R (set s : EStateM ε σ PUnit) (set t) :=
  fun _ _ _ => .ok _ h

theorem Agree.modify {f : σ → σ} (hf : ∀ s t, R s t → R (f s) (f t)) :
    Agree R (modify f : EStateM ε σ PUnit) (modify f) :=
  fun s t h => .ok _ (hf s t h)

theorem Agree.bind (hx : Agree R x y) (hf : ∀ a, Agree R (f a) (g a)) :
    Agree R (x >>= f) (y >>= g) := by
  intro s t h
  have hx := hx s t h
  rw [bind_apply, bind_apply]
  generalize x s = r at hx ⊢
  generalize y t = q at hx ⊢
  cases hx with
  | ok a h => exact hf a _ _ h
  | error e h => exact .error e h

theorem Agree.map {m : α → β} (hx : Agree R x y) : Agree R (m <$> x) (m <$> y) :=
  hx.bind fun a => Agree.pure (m a)

theorem Agree.get {f g : σ → EStateM ε σ β} (hf : ∀ s t, R s t → Agree R (f s) (g t)) :
    Agree R (get >>= f) (get >>= g) := fun s t h => hf s t h s t h

theorem Agree.rescue {caught : ε → Bool} {handle : ε → EStateM ε σ α} (hx : Agree R x y)
    (hh : ∀ e, Agree R (handle e) (handle e)) :
    Agree R (rescue x caught handle) (rescue y caught handle) := by
  intro s t h
  have hx := hx s t h
  unfold Effects.rescue
  generalize x s = r at hx ⊢
  generalize y t = q at hx ⊢
  cases hx with
  | ok a h => exact .ok a h
  | error e h =>
      dsimp only
      split
      · exact hh e _ _ h
      · exact .error e h

/-! ## Programs that end -/

/-- From this state the program ends without an exception, with a value that meets `P`. -/
def Yields (x : EStateM ε σ α) (s : σ) (P : α → Prop) : Prop := ∃ a s', x s = .ok a s' ∧ P a

variable {P : α → Prop} {Q : β → Prop} {s : σ}

@[simp] theorem yields_pure {a : α} : Yields (pure a : EStateM ε σ α) s P ↔ P a := by
  constructor
  · rintro ⟨a', s', h, hP⟩
    cases h
    exact hP
  · exact fun hP => ⟨a, s, rfl, hP⟩

@[simp] theorem yields_throw {e : ε} : ¬ Yields (throw e : EStateM ε σ α) s P := by
  rintro ⟨a, s', h, -⟩
  cases h

/-- What follows a value decides. -/
theorem yields_bind_ok {s' : σ} {a : α} (h : x s = .ok a s') :
    Yields (x >>= f) s Q ↔ Yields (f a) s' Q := by
  rw [Yields, bind_ok h]
  rfl

theorem yields_bind_error {s' : σ} {e : ε} (h : x s = .error e s') : ¬ Yields (x >>= f) s Q := by
  rintro ⟨a, t, hr, -⟩
  rw [bind_error h] at hr
  cases hr

@[simp] theorem yields_get_bind {f : σ → EStateM ε σ β} :
    Yields (get >>= f) s Q ↔ Yields (f s) s Q := Iff.rfl

@[simp] theorem yields_set_bind {s' : σ} {f : PUnit → EStateM ε σ β} :
    Yields (set s' >>= f) s Q ↔ Yields (f .unit) s' Q := Iff.rfl

@[simp] theorem yields_modify_bind {g : σ → σ} {f : PUnit → EStateM ε σ β} :
    Yields (modify g >>= f) s Q ↔ Yields (f .unit) (g s) Q := Iff.rfl

/-! ## Exceptions alone -/

section

variable {ε α β : Type u}

theorem ok_bind (a : α) (f : α → Except ε β) : ((Except.ok a : Except ε α) >>= f) = f a := rfl

theorem bind_eq_ok {x : Except ε α} {f : α → Except ε β} {b : β} :
    x >>= f = .ok b ↔ ∃ a, x = .ok a ∧ f a = .ok b := by
  cases x with
  | error e => exact iff_of_false (fun h => by cases h) fun ⟨a, h, _⟩ => by cases h
  | ok a =>
      constructor
      · exact fun h => ⟨a, rfl, h⟩
      · rintro ⟨a', ha, h⟩
        cases ha
        exact h

theorem forM_eq_ok {ε α : Type} {f : α → Except ε Unit} {l : List α}
    (h : l.forM f = .ok ()) : ∀ a ∈ l, f a = .ok () := by
  induction l with
  | nil => exact fun _ ha => by cases ha
  | cons a rest ih =>
      obtain ⟨⟨⟩, ha, hrest⟩ := bind_eq_ok.mp h
      exact List.forall_mem_cons.mpr ⟨ha, ih hrest⟩

end

end Ps2Servers.Effects
