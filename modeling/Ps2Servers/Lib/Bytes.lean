import Mathlib.Algebra.Ring.Nat
import Mathlib.Data.List.Basic

/-!
# Byte strings

Little-endian fields and slices of byte strings, as a `struct` reader sees them.
A field that reaches past the end reads the bytes that are there; programs check
lengths before they read.
-/

namespace Ps2Servers

abbrev Bytes := List UInt8

namespace Bytes

/-- A little-endian number. -/
def le (bytes : Bytes) : Nat := bytes.foldr (fun b n => b.toNat + 256 * n) 0

/-- `bytes[offset : offset + size]`. -/
def sub (bytes : Bytes) (offset size : Nat) : Bytes := (bytes.drop offset).take size

/-- The little-endian field of `size` bytes at `offset`. -/
def field (bytes : Bytes) (offset size : Nat) : Nat := le (bytes.sub offset size)

/-- The big-endian field of `size` bytes at `offset`. -/
def fieldBE (bytes : Bytes) (offset size : Nat) : Nat := le (bytes.sub offset size).reverse

/-- The `size` bytes that read `n`. -/
def ofNat : (size n : Nat) → Bytes
  | 0, _ => []
  | size + 1, n => UInt8.ofNat (n % 256) :: ofNat size (n / 256)

/-- The `size` bytes that read `n`, the most significant one first. -/
def ofNatBE (size n : Nat) : Bytes := (ofNat size n).reverse

@[simp] theorem sub_zero (bytes : Bytes) (offset : Nat) : bytes.sub offset 0 = [] := by
  simp [sub]

theorem sub_length_le (bytes : Bytes) (offset size : Nat) :
    (bytes.sub offset size).length ≤ size :=
  List.length_take_le size _

/-- Consecutive slices join. -/
theorem sub_append (bytes : Bytes) (offset a b : Nat) :
    bytes.sub offset a ++ bytes.sub (offset + a) b = bytes.sub offset (a + b) := by
  unfold sub
  rw [← List.drop_drop, List.take_add]

/-- A slice of the first of two strings. -/
theorem sub_append_left {a : Bytes} (b : Bytes) {offset size : Nat}
    (h : offset + size ≤ a.length) : (a ++ b).sub offset size = a.sub offset size := by
  unfold sub
  rw [List.drop_append_of_le_length (by omega),
    List.take_append_of_le_length (by rw [List.length_drop]; omega)]

/-- A slice of the second of two strings. -/
theorem sub_append_right {a : Bytes} (b : Bytes) {offset : Nat} (size : Nat)
    (h : a.length ≤ offset) : (a ++ b).sub offset size = b.sub (offset - a.length) size := by
  unfold sub
  rw [List.drop_append, List.drop_eq_nil_of_le h, List.nil_append]

theorem sub_of_length {bytes : Bytes} {size : Nat} (h : bytes.length = size) :
    bytes.sub 0 size = bytes := by
  subst h
  exact List.take_length

theorem take_sub (bytes : Bytes) (offset : Nat) {k size : Nat} (hk : k ≤ size) :
    (bytes.sub offset size).take k = bytes.sub offset k := by
  unfold sub
  rw [List.take_take, Nat.min_eq_left hk]

theorem sub_length (bytes : Bytes) (offset size : Nat) :
    bytes.sub offset (bytes.sub offset size).length = bytes.sub offset size := by
  rw [← bytes.take_sub offset (bytes.sub_length_le offset size), List.take_length]

@[simp] theorem length_ofNat (size n : Nat) : (ofNat size n).length = size := by
  induction size generalizing n with
  | zero => rfl
  | succ size ih => rw [ofNat, List.length_cons, ih]

theorem le_ofNat (size n : Nat) : le (ofNat size n) = n % 256 ^ size := by
  induction size generalizing n with
  | zero => simp [ofNat, le, Nat.mod_one]
  | succ size ih =>
      have hcons : le (ofNat (size + 1) n) = n % 256 % 256 + 256 * le (ofNat size (n / 256)) := by
        simp [ofNat, le]
      rw [hcons, ih, Nat.mod_mod, Nat.pow_succ, Nat.mul_comm (256 ^ size), Nat.mod_mul]

@[simp] theorem length_ofNatBE (size n : Nat) : (ofNatBE size n).length = size := by
  rw [ofNatBE, List.length_reverse, length_ofNat]

theorem ofNat_mod (size n : Nat) : ofNat size (n % 256 ^ size) = ofNat size n := by
  induction size generalizing n with
  | zero => rfl
  | succ size ih =>
      have hlow : n % 256 ^ (size + 1) % 256 = n % 256 :=
        Nat.mod_mod_of_dvd n (Nat.dvd_mul_left 256 (256 ^ size))
      have hhigh : n % 256 ^ (size + 1) / 256 = n / 256 % 256 ^ size := by
        rw [Nat.pow_succ, Nat.mul_comm, Nat.mod_mul_right_div_self]
      rw [ofNat, ofNat, hlow, hhigh, ih]

theorem ofNat_append (a b n : Nat) :
    ofNat (a + b) n = ofNat a n ++ ofNat b (n / 256 ^ a) := by
  induction a generalizing n with
  | zero => rw [Nat.zero_add, Nat.pow_zero, Nat.div_one, ofNat, List.nil_append]
  | succ a ih =>
      rw [Nat.succ_add, ofNat, ofNat, ih, Nat.div_div_eq_div_mul, Nat.pow_succ, Nat.mul_comm 256,
        List.cons_append]

theorem ofNatBE_succ (size n : Nat) :
    ofNatBE (size + 1) n = ofNatBE size (n / 256) ++ [UInt8.ofNat (n % 256)] :=
  List.reverse_cons

/-- The number of a byte string gives the byte string back. -/
theorem ofNat_le (bytes : Bytes) : ofNat bytes.length (le bytes) = bytes := by
  induction bytes with
  | nil => rfl
  | cons b rest ih =>
      have hb : b.toNat < 256 := b.toNat_lt
      have hvalue : le (b :: rest) = b.toNat + 256 * le rest := rfl
      have hlow : (b.toNat + 256 * le rest) % 256 = b.toNat := by omega
      have hhigh : (b.toNat + 256 * le rest) / 256 = le rest := by omega
      rw [List.length_cons, ofNat, hvalue, hlow, hhigh, ih, UInt8.ofNat_toNat]

theorem le_lt (bytes : Bytes) : le bytes < 256 ^ bytes.length := by
  induction bytes with
  | nil => exact Nat.one_pos
  | cons b rest ih =>
      have hcons : le (b :: rest) = b.toNat + 256 * le rest := rfl
      have hb : b.toNat < 256 := b.toNat_lt
      rw [hcons, List.length_cons, Nat.pow_succ]
      omega

/-- A field of `size` bytes holds what they can. -/
theorem field_lt (bytes : Bytes) (offset size : Nat) : bytes.field offset size < 256 ^ size :=
  Nat.lt_of_lt_of_le (le_lt _) (Nat.pow_le_pow_right (by decide) (bytes.sub_length_le offset size))

theorem fieldBE_lt (bytes : Bytes) (offset size : Nat) :
    bytes.fieldBE offset size < 256 ^ size := by
  apply Nat.lt_of_lt_of_le (le_lt _)
  rw [List.length_reverse]
  exact Nat.pow_le_pow_right (by decide) (sub_length_le bytes offset size)

theorem field_sub (bytes : Bytes) {start size offset n : Nat} (h : offset + n ≤ size) :
    (bytes.sub start size).field offset n = bytes.field (start + offset) n := by
  unfold field sub
  rw [List.drop_take, List.take_take, List.drop_drop, Nat.min_eq_left (by omega)]

/-- A number at the front of a byte string. -/
theorem field_ofNat (size n : Nat) (rest : Bytes) :
    (ofNat size n ++ rest).field 0 size = n % 256 ^ size := by
  rw [field, sub, List.drop_zero, List.take_left' (length_ofNat size n), le_ofNat]

theorem field_append (front rest : Bytes) (offset size : Nat) :
    (front ++ rest).field (front.length + offset) size = rest.field offset size := by
  rw [field, sub, List.drop_append, List.drop_eq_nil_of_le (by omega)]
  simp [field, sub]

end Bytes

end Ps2Servers
