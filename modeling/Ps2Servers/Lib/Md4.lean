import Ps2Servers.Lib.Bytes

/-!
# MD4

The digest of a string of bits, in the terms of the memo that specifies it: padding, words, three rounds
of sixteen operations on four registers.

## Implementation notes

A byte string is the string of the bits of its bytes, the most significant one first; a word is read from
four bytes, the least significant one first.
-/

namespace Ps2Servers.Md4

abbrev Word := BitVec 32

def byteBits (byte : UInt8) : List Bool := [7, 6, 5, 4, 3, 2, 1, 0].map byte.toNat.testBit

def bits (data : Bytes) : List Bool := data.flatMap byteBits

/-- The bytes of a word. -/
def wordBytes (w : Word) : Bytes := Bytes.ofNat 4 w.toNat

/-! ## Padding -/

/-- A bit that is set, and as few others as make the length 448 modulo 512. -/
def padding (n : Nat) : List Bool := true :: List.replicate ((959 - n % 512) % 512) false

/-- The length, as two words. -/
def lengthBits (n : Nat) : List Bool :=
  bits (wordBytes (BitVec.ofNat 32 n) ++ wordBytes (BitVec.ofNat 32 (n / 2 ^ 32)))

def padded (m : List Bool) : List Bool := m ++ padding m.length ++ lengthBits m.length

/-- The number of eight bits. -/
def byteOf (m : List Bool) : Nat := m.foldl (fun n bit => 2 * n + bit.toNat) 0

/-- Word `t` of a message. -/
def wordAt (m : List Bool) (t : Nat) : Word :=
  let byte (j : Nat) := byteOf ((m.drop (32 * t + 8 * j)).take 8)
  BitVec.ofNat 32 (byte 0 + 256 * (byte 1 + 256 * (byte 2 + 256 * byte 3)))

/-! ## Rounds -/

def F (x y z : Word) : Word := x &&& y ||| ~~~x &&& z

def G (x y z : Word) : Word := x &&& y ||| x &&& z ||| y &&& z

def H (x y z : Word) : Word := x ^^^ y ^^^ z

/-- The registers `A`, `B`, `C` and `D`. -/
abbrev Regs := Vector Word 4

local instance nonzero : NeZero 4 := ⟨by decide⟩

/-- `[abcd k s]`, where `a` is register `i`, and `b`, `c` and `d` are those after it, in a circle. -/
structure Op where
  i : Fin 4
  k : Nat
  s : Nat

/-- `a = (a + f(b,c,d) + X[k] + t) <<< s`. -/
def operate (f : Word → Word → Word → Word) (t : Word) (X : Nat → Word) (r : Regs) (o : Op) : Regs :=
  r.set o.i
    ((r.get o.i + f (r.get (o.i + 1)) (r.get (o.i + 2)) (r.get (o.i + 3)) + X o.k + t).rotateLeft o.s)

def round1 : List Op :=
  [⟨0, 0, 3⟩, ⟨3, 1, 7⟩, ⟨2, 2, 11⟩, ⟨1, 3, 19⟩, ⟨0, 4, 3⟩, ⟨3, 5, 7⟩, ⟨2, 6, 11⟩, ⟨1, 7, 19⟩,
    ⟨0, 8, 3⟩, ⟨3, 9, 7⟩, ⟨2, 10, 11⟩, ⟨1, 11, 19⟩, ⟨0, 12, 3⟩, ⟨3, 13, 7⟩, ⟨2, 14, 11⟩, ⟨1, 15, 19⟩]

def round2 : List Op :=
  [⟨0, 0, 3⟩, ⟨3, 4, 5⟩, ⟨2, 8, 9⟩, ⟨1, 12, 13⟩, ⟨0, 1, 3⟩, ⟨3, 5, 5⟩, ⟨2, 9, 9⟩, ⟨1, 13, 13⟩,
    ⟨0, 2, 3⟩, ⟨3, 6, 5⟩, ⟨2, 10, 9⟩, ⟨1, 14, 13⟩, ⟨0, 3, 3⟩, ⟨3, 7, 5⟩, ⟨2, 11, 9⟩, ⟨1, 15, 13⟩]

def round3 : List Op :=
  [⟨0, 0, 3⟩, ⟨3, 8, 9⟩, ⟨2, 4, 11⟩, ⟨1, 12, 15⟩, ⟨0, 2, 3⟩, ⟨3, 10, 9⟩, ⟨2, 6, 11⟩, ⟨1, 14, 15⟩,
    ⟨0, 1, 3⟩, ⟨3, 9, 9⟩, ⟨2, 5, 11⟩, ⟨1, 13, 15⟩, ⟨0, 3, 3⟩, ⟨3, 11, 9⟩, ⟨2, 7, 11⟩, ⟨1, 15, 15⟩]

def rounds (r : Regs) (X : Nat → Word) : Regs :=
  round3.foldl (operate H 0x6ED9EBA1 X)
    (round2.foldl (operate G 0x5A827999 X) (round1.foldl (operate F 0 X) r))

def add (r q : Regs) : Regs :=
  #v[r.get 0 + q.get 0, r.get 1 + q.get 1, r.get 2 + q.get 2, r.get 3 + q.get 3]

/-- A block of sixteen words. -/
def compress (r : Regs) (X : Nat → Word) : Regs := add (rounds r X) r

/-- `A`, `B`, `C` and `D`, from their bytes `01 23 45 67 ⋯`. -/
def initial : Regs := #v[0x67452301, 0xefcdab89, 0x98badcfe, 0x10325476]

def digest (data : Bytes) : Bytes :=
  let m := padded (bits data)
  let r := (List.range (m.length / 512)).foldl (fun r i => compress r fun j => wordAt m (16 * i + j)) initial
  wordBytes (r.get 0) ++ wordBytes (r.get 1) ++ wordBytes (r.get 2) ++ wordBytes (r.get 3)

theorem foldl_operate_congr {f : Word → Word → Word → Word} {t : Word} {X Y : Nat → Word}
    (h : ∀ k, k < 16 → X k = Y k) {l : List Op} (hl : ∀ o ∈ l, o.k < 16) (r : Regs) :
    l.foldl (operate f t X) r = l.foldl (operate f t Y) r := by
  induction l generalizing r with
  | nil => rfl
  | cons o rest ih =>
      have hstep : operate f t X r o = operate f t Y r o := by
        rw [operate, operate, h o.k (hl o List.mem_cons_self)]
      rw [List.foldl_cons, List.foldl_cons, hstep]
      exact ih (fun o' ho' => hl o' (List.mem_cons_of_mem o ho')) _

/-- A block has sixteen words. -/
theorem compress_congr {X Y : Nat → Word} (h : ∀ k, k < 16 → X k = Y k) (r : Regs) :
    compress r X = compress r Y := by
  have h1 := @foldl_operate_congr F 0 X Y h round1 (by decide)
  have h2 := @foldl_operate_congr G 0x5A827999 X Y h round2 (by decide)
  have h3 := @foldl_operate_congr H 0x6ED9EBA1 X Y h round3 (by decide)
  rw [compress, compress, rounds, rounds, h1, h2, h3]

/-! ## Bits of bytes -/

theorem bits_append (a b : Bytes) : bits (a ++ b) = bits a ++ bits b := List.flatMap_append

@[simp] theorem length_byteBits (byte : UInt8) : (byteBits byte).length = 8 := rfl

@[simp] theorem length_bits (data : Bytes) : (bits data).length = 8 * data.length := by
  induction data with
  | nil => rfl
  | cons byte rest ih =>
      change (byteBits byte ++ bits rest).length = _
      rw [List.length_append, ih, length_byteBits, List.length_cons]
      omega

theorem bits_zeros (n : Nat) : bits (List.replicate n 0) = List.replicate (8 * n) false := by
  induction n with
  | zero => rfl
  | succ n ih =>
      have hzero : byteBits 0 = List.replicate 8 false := rfl
      change byteBits 0 ++ bits (List.replicate n 0) = _
      rw [ih, hzero, List.replicate_append_replicate]
      congr 1
      omega

theorem drop_bits (data : Bytes) (k : Nat) : (bits data).drop (8 * k) = bits (data.drop k) := by
  induction k generalizing data with
  | zero => rfl
  | succ k ih =>
      cases data with
      | nil => rfl
      | cons byte rest =>
          change (byteBits byte ++ bits rest).drop (8 * k + 8) = _
          rw [Nat.add_comm, ← List.drop_drop, List.drop_left' (length_byteBits byte), ih]
          rfl

theorem two_mul_div_add (n i : Nat) : 2 * (n / 2 ^ (i + 1)) + n / 2 ^ i % 2 = n / 2 ^ i := by
  rw [Nat.pow_succ, ← Nat.div_div_eq_div_mul, Nat.div_add_mod]

theorem byteOf_byteBits (byte : UInt8) : byteOf (byteBits byte) = byte.toNat := by
  have hbyte : byte.toNat < 256 := byte.toNat_lt
  have hfirst : 2 * 0 + byte.toNat / 2 ^ 7 % 2 = byte.toNat / 2 ^ 7 := by omega
  unfold byteOf byteBits
  simp only [List.map_cons, List.map_nil, List.foldl_cons, List.foldl_nil, Nat.toNat_testBit]
  rw [hfirst, two_mul_div_add _ 6, two_mul_div_add _ 5, two_mul_div_add _ 4, two_mul_div_add _ 3,
    two_mul_div_add _ 2, two_mul_div_add _ 1, two_mul_div_add _ 0, Nat.pow_zero, Nat.div_one]

theorem byteOf_bits (data : Bytes) (k : Nat) :
    byteOf (((bits data).drop (8 * k)).take 8) = (data.getD k 0).toNat := by
  rw [drop_bits, List.getD_eq_getElem?_getD, ← Nat.add_zero k, ← List.getElem?_drop, Nat.add_zero]
  cases data.drop k with
  | nil => rfl
  | cons byte rest =>
      change byteOf ((byteBits byte ++ bits rest).take 8) = _
      rw [List.take_left' (length_byteBits byte), byteOf_byteBits]
      rfl

theorem le_take_four (data : Bytes) :
    Bytes.le (data.take 4) = (data.getD 0 0).toNat + 256 * ((data.getD 1 0).toNat +
      256 * ((data.getD 2 0).toNat + 256 * (data.getD 3 0).toNat)) := by
  rcases data with _ | ⟨a, _ | ⟨b, _ | ⟨c, _ | ⟨d, rest⟩⟩⟩⟩
  · rfl
  · rfl
  · rfl
  · rfl
  · rfl

/-- A word of a byte string is a little-endian field. -/
theorem wordAt_bits (data : Bytes) (t : Nat) :
    wordAt (bits data) t = BitVec.ofNat 32 (data.field (4 * t) 4) := by
  have hbyte (j : Nat) : byteOf (((bits data).drop (32 * t + 8 * j)).take 8) =
      ((data.drop (4 * t)).getD j 0).toNat := by
    have hindex : 32 * t + 8 * j = 8 * (4 * t + j) := by omega
    rw [hindex, byteOf_bits, List.getD_eq_getElem?_getD, List.getD_eq_getElem?_getD, List.getElem?_drop]
  unfold wordAt
  dsimp only
  rw [hbyte, hbyte, hbyte, hbyte, Bytes.field, Bytes.sub, le_take_four]

/-! ## Bytes of padded bits -/

theorem wordBytes_ofNat (n : Nat) : wordBytes (BitVec.ofNat 32 n) = Bytes.ofNat 4 n := by
  rw [wordBytes, BitVec.toNat_ofNat]
  exact Bytes.ofNat_mod 4 n

/-- The length in bits, in eight bytes. -/
theorem lengthBits_eq (n : Nat) : lengthBits n = bits (Bytes.ofNat 8 n) := by
  rw [lengthBits, wordBytes_ofNat, wordBytes_ofNat]
  exact congrArg bits (Bytes.ofNat_append 4 4 n).symm

/-- A byte string that is padded is the padded string of its bits. -/
theorem padded_bits (data : Bytes) {zeros : Nat} (hzeros : (data.length + 1 + zeros) % 64 = 56)
    (hfew : zeros < 64) :
    padded (bits data) =
      bits (data ++ [0x80] ++ List.replicate zeros 0 ++ Bytes.ofNat 8 (8 * data.length)) := by
  have hcount : (959 - 8 * data.length % 512) % 512 = 7 + 8 * zeros := by omega
  have hfirst : bits [0x80] = true :: List.replicate 7 false := rfl
  rw [padded, padding, length_bits, hcount, lengthBits_eq, bits_append, bits_append, bits_append, hfirst,
    bits_zeros, ← List.replicate_append_replicate]
  simp only [List.append_assoc, List.cons_append]

end Ps2Servers.Md4
