import Ps2Servers.Lib.Bytes

/-!
# Decoders

A decoder takes a value from the front of its input. `Reads` says that an encoding is read as a value
whatever follows it, so that decoders compose as the encodings are put together.
-/

namespace Ps2Servers.Decoding

abbrev Decoder (σ α : Type) := StateT (List σ) Option α

variable {σ α β : Type}

def Reads (d : Decoder σ α) (enc : List σ) (a : α) : Prop :=
  ∀ rest, d.run (enc ++ rest) = some (a, rest)

/-- The next `n` symbols. -/
def take (n : Nat) : Decoder σ (List σ) := fun input =>
  if n ≤ input.length then some (input.take n, input.drop n) else none

/-- Nothing is decoded unless the condition holds. -/
def check (p : Prop) [Decidable p] : Decoder σ Unit := fun input =>
  if p then some ((), input) else none

def many : Nat → Decoder σ α → Decoder σ (List α)
  | 0, _ => pure []
  | n + 1, d => do
      let a ← d
      let as ← many n d
      return a :: as

/-- The value of a whole input. -/
def decode (d : Decoder σ α) (input : List σ) : Option α :=
  (d.run input).bind fun result => if result.2.isEmpty then some result.1 else none

variable {d : Decoder σ α} {f : α → Decoder σ β} {e e' : List σ} {a : α} {b : β}

theorem Reads.pure (a : α) : Reads (Pure.pure a : Decoder σ α) [] a := fun _ => rfl

theorem Reads.bind (hd : Reads d e a) (hf : Reads (f a) e' b) : Reads (d >>= f) (e ++ e') b := by
  intro rest
  rw [List.append_assoc, StateT.run_bind, hd]
  exact hf rest

/-- What comes behind reads nothing. -/
theorem Reads.bind_nil (hd : Reads d e a) (hf : Reads (f a) [] b) : Reads (d >>= f) e b := by
  have hread := hd.bind hf
  rwa [List.append_nil] at hread

theorem Reads.bind_pure {g : α → β} (hd : Reads d e a) :
    Reads (d >>= fun a => Pure.pure (g a)) e (g a) :=
  hd.bind_nil (Reads.pure (g a))

theorem reads_take {e : List σ} {n : Nat} (h : e.length = n) : Reads (take n) e e := by
  intro rest
  subst h
  show (if e.length ≤ (e ++ rest).length then _ else _) = _
  rw [if_pos (by rw [List.length_append]; exact Nat.le_add_right _ _), List.take_left, List.drop_left]

theorem reads_check {p : Prop} [Decidable p] (hp : p) : Reads (check p : Decoder σ Unit) [] () := by
  intro rest
  show (if p then some ((), rest) else none) = _
  rw [if_pos hp]

theorem Reads.check_bind {p : Prop} [Decidable p] {g : Unit → Decoder σ β} (hp : p)
    (hg : Reads (g ()) e b) : Reads (check p >>= g) e b :=
  (reads_check hp).bind hg

theorem reads_many_nil (d : Decoder σ α) : Reads (many 0 d) [] [] := Reads.pure []

theorem reads_many_cons {n : Nat} {as : List α} (hd : Reads d e a) (hrest : Reads (many n d) e' as) :
    Reads (many (n + 1) d) (e ++ e') (a :: as) :=
  hd.bind hrest.bind_pure

variable {ι : Type} {k : ι → Decoder σ α}

theorem reads_mapM_nil : Reads (List.mapM k []) [] [] := Reads.pure []

theorem reads_mapM_cons {i : ι} {is : List ι} {as : List α} (hi : Reads (k i) e a)
    (his : Reads (is.mapM k) e' as) : Reads ((i :: is).mapM k) (e ++ e') (a :: as) := by
  rw [List.mapM_cons]
  exact hi.bind his.bind_pure

theorem reads_mapM_concat {i : ι} {is : List ι} {as : List α} (his : Reads (is.mapM k) e as)
    (hi : Reads (k i) e' a) : Reads ((is ++ [i]).mapM k) (e ++ e') (as ++ [a]) := by
  rw [List.mapM_append]
  refine his.bind ?_
  have hone : Reads ([i].mapM k) (e' ++ []) [a] := reads_mapM_cons hi reads_mapM_nil
  rw [List.append_nil] at hone
  exact hone.bind_pure

theorem Reads.decode (hd : Reads d e a) : decode d e = some a := by
  have hrun := hd []
  rw [List.append_nil] at hrun
  rw [Decoding.decode, hrun]
  rfl

/-! ## Numbers -/

/-- A little-endian number. -/
def value (size : Nat) : Decoder UInt8 Nat := do
  let raw ← take size
  return Bytes.le raw

/-- A number that has to be this one. -/
def expect (size v : Nat) : Decoder UInt8 Unit := do
  let n ← value size
  check (n = v)

theorem reads_value {size v : Nat} (hv : v < 256 ^ size) :
    Reads (value size) (Bytes.ofNat size v) v := by
  have hread : Reads (value size) (Bytes.ofNat size v) (Bytes.le (Bytes.ofNat size v)) :=
    (reads_take (Bytes.length_ofNat size v)).bind_pure
  rwa [Bytes.le_ofNat, Nat.mod_eq_of_lt hv] at hread

theorem reads_expect {size v : Nat} (hv : v < 256 ^ size) :
    Reads (expect size v) (Bytes.ofNat size v) () :=
  (reads_value hv).bind_nil (reads_check rfl)

end Ps2Servers.Decoding
