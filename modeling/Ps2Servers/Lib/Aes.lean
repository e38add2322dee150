import Mathlib.Logic.Function.Iterate
import Ps2Servers.Lib.Bytes

/-!
# AES

The cipher with a key of 128 bits, in the terms of the standard: the field with 256 elements, a state of
four rows and four columns, and a key schedule of words.

## Implementation notes

A byte is the polynomial whose coefficients are its bits. `times` and `sboxNat` are the product and the
substitution once more, on numbers, and in a form where each value is computed before it is used: they
are what a table is compared with.
-/

namespace Ps2Servers.Aes

/-! ## The field -/

/-- The product of two polynomials over the field with two elements. -/
def product (a b : Nat) : Nat :=
  [0, 1, 2, 3, 4, 5, 6, 7].foldr (fun i p => b / 2 ^ i % 2 * (a * 2 ^ i) ^^^ p) 0

/-- The remainder of a polynomial of degree 14 or less by `x ^ 8 + x ^ 4 + x ^ 3 + x + 1`. -/
def remainder (p : Nat) : Nat :=
  [8, 9, 10, 11, 12, 13, 14].foldr (fun i p => p ^^^ p / 2 ^ i % 2 * (0x11b * 2 ^ (i - 8))) p

def mul (a b : UInt8) : UInt8 := UInt8.ofNat (remainder (product a.toNat b.toNat))

/-- The square of the first, and with it the product of the squares so far. -/
def squareStep (s : UInt8 × UInt8) : UInt8 × UInt8 := (mul s.1 s.1, mul s.2 (mul s.1 s.1))

/-- The inverse, which is `a ^ 254 = a ^ 2 * a ^ 4 * ⋯ * a ^ 128`, and `0` for `0`. -/
def inverse (a : UInt8) : UInt8 := (squareStep^[7] (a, 1)).2

/-- The affine map of the substitution: bit `i` becomes the sum of the bits `i`, `i + 4`, `i + 5`, `i + 6`
and `i + 7` modulo 8, and of bit `i` of `0x63`. -/
def affine (b : UInt8) : UInt8 :=
  let b := b.toBitVec
  ⟨b ^^^ b.rotateRight 4 ^^^ b.rotateRight 5 ^^^ b.rotateRight 6 ^^^ b.rotateRight 7 ^^^ 0x63⟩

def sbox (a : UInt8) : UInt8 := affine (inverse a)

/-- `x ^ n`. -/
def power : Nat → UInt8
  | 0 => 1
  | n + 1 => mul 2 (power n)

/-! ## The cipher -/

abbrev Word := Fin 4 → UInt8

/-- The bytes by row and column. -/
abbrev State := Fin 4 → Fin 4 → UInt8

def subBytes (s : State) : State := fun r c => sbox (s r c)

/-- Row `r` moves by `r` columns to the left. -/
def shiftRows (s : State) : State := fun r c => s r (c + r)

def mixColumns (s : State) : State := fun r c =>
  mul 2 (s r c) ^^^ mul 3 (s (r + 1) c) ^^^ s (r + 2) c ^^^ s (r + 3) c

def addRoundKey (w : Nat → Word) (round : Nat) (s : State) : State := fun r c =>
  s r c ^^^ w (4 * round + c) r

def rotWord (w : Word) : Word := fun i => w (i + 1)

def subWord (w : Word) : Word := fun i => sbox (w i)

def rcon (j : Nat) : Word := fun i => if i = 0 then power (j - 1) else 0

/-- The words of the key schedule. -/
def keyWord (key : Bytes) (i : Nat) : Word :=
  if i < 4 then fun r => key.getD (4 * i + r) 0
  else if i % 4 = 0 then fun r =>
    keyWord key (i - 4) r ^^^ (subWord (rotWord (keyWord key (i - 1))) r ^^^ rcon (i / 4) r)
  else fun r => keyWord key (i - 4) r ^^^ keyWord key (i - 1) r
termination_by i

theorem keyWord_of_lt (key : Bytes) {i : Nat} (h : i < 4) (r : Fin 4) :
    keyWord key i r = key.getD (4 * i + r) 0 := by
  rw [keyWord, if_pos h]

/-- The first word of a round key. -/
theorem keyWord_first (key : Bytes) {n : Nat} (h : n % 4 = 0) (r : Fin 4) :
    keyWord key (n + 4) r =
      keyWord key n r ^^^ (sbox (keyWord key (n + 3) (r + 1)) ^^^ rcon (n / 4 + 1) r) := by
  rw [keyWord, if_neg (by omega), if_pos (by omega), Nat.add_div_right n (by decide)]
  rfl

/-- The other words of a round key. -/
theorem keyWord_other (key : Bytes) {n : Nat} (h : n % 4 ≠ 0) (r : Fin 4) :
    keyWord key (n + 4) r = keyWord key n r ^^^ keyWord key (n + 3) r := by
  rw [keyWord, if_neg (by omega), if_neg (by omega)]
  rfl

/-- A round that is not the last. -/
def round (w : Nat → Word) (s : State) (n : Nat) : State :=
  addRoundKey w n (mixColumns (shiftRows (subBytes s)))

def finalRound (w : Nat → Word) (s : State) : State := addRoundKey w 10 (shiftRows (subBytes s))

def input (block : Bytes) : State := fun r c => block.getD (4 * c + r) 0

def output (s : State) : Bytes := (List.finRange 4).flatMap fun c => (List.finRange 4).map fun r => s r c

def cipher (key block : Bytes) : Bytes :=
  let w := keyWord key
  output (finalRound w ((List.range' 1 9).foldl (round w) (addRoundKey w 0 (input block))))

@[simp] theorem length_cipher (key block : Bytes) : (cipher key block).length = 16 := rfl

/-! ## Evaluation -/

/-- `f n`, where `n` is computed first. -/
def seq {α : Type} (n : Nat) (f : Nat → α) : α :=
  match n with
  | 0 => f 0
  | n + 1 => f (n + 1)

theorem seq_eq {α : Type} (n : Nat) (f : Nat → α) : seq n f = f n := by
  cases n with
  | zero => rfl
  | succ n => rfl

/-- `mul` on numbers. -/
def times (a b : Nat) : Nat :=
  seq a fun a => seq b fun b => seq (product a b) fun p =>
    [8, 9, 10, 11, 12, 13, 14].foldr
      (fun i p => seq p fun p => p ^^^ p / 2 ^ i % 2 * (0x11b * 2 ^ (i - 8))) p % 256

theorem toNat_mul (a b : UInt8) : (mul a b).toNat = times a.toNat b.toNat := by
  unfold mul times remainder
  simp only [seq_eq]
  rfl

/-- `squareStep` on numbers. -/
def timesStep (s : Nat × Nat) : Nat × Nat :=
  seq (times s.1 s.1) fun q => seq (times s.2 q) fun p => (q, p)

theorem toNat_squareStep (s : UInt8 × UInt8) :
    ((squareStep s).1.toNat, (squareStep s).2.toNat) = timesStep (s.1.toNat, s.2.toNat) := by
  unfold squareStep timesStep
  simp only [seq_eq, toNat_mul]

/-- `sbox` on numbers. -/
def sboxNat (a : Nat) : Nat :=
  seq (timesStep^[7] (a, 1)).2 fun b => (affine (UInt8.ofNat b)).toNat

theorem toNat_iterate (n : Nat) (s : UInt8 × UInt8) :
    ((squareStep^[n] s).1.toNat, (squareStep^[n] s).2.toNat) =
      timesStep^[n] (s.1.toNat, s.2.toNat) := by
  induction n generalizing s with
  | zero => rfl
  | succ n ih => exact (ih (squareStep s)).trans (congrArg (timesStep^[n]) (toNat_squareStep s))

theorem toNat_inverse (a : UInt8) : (inverse a).toNat = (timesStep^[7] (a.toNat, 1)).2 :=
  congrArg Prod.snd (toNat_iterate 7 (a, 1))

theorem toNat_sbox (a : UInt8) : (sbox a).toNat = sboxNat a.toNat := by
  unfold sboxNat
  rw [seq_eq, ← toNat_inverse, UInt8.ofNat_toNat]
  rfl

/-- What holds of all numbers below 256 holds of all bytes. -/
theorem forall_byte {p : Nat → Bool} (h : (List.range 256).all p = true) (a : UInt8) : p a.toNat = true :=
  List.all_eq_true.mp h a.toNat (List.mem_range.mpr a.toNat_lt)

end Ps2Servers.Aes
