import Mathlib.Data.List.GetD
import Ps2Servers.Lib.Bytes

/-!
# CMAC

The message authentication code over a cipher on blocks of 16 bytes.

## Implementation notes

`E` is the cipher with its key. A block is read as a string of 128 bits where it is doubled, with the
first bit of the first byte as the most significant one.
-/

namespace Ps2Servers.Cmac

/-- The exclusive or of two byte strings. -/
def xor (a b : Bytes) : Bytes := List.zipWith (· ^^^ ·) a b

def zeroBlock : Bytes := List.replicate 16 0

def bits (block : Bytes) : BitVec 128 := BitVec.ofNat 128 (Bytes.le block.reverse)

def ofBits (v : BitVec 128) : Bytes := Bytes.ofNatBE 16 v.toNat

/-- `const_Rb`. -/
def Rb : BitVec 128 := 0x87

/-- One step of the generation of the subkeys. -/
def double (v : BitVec 128) : BitVec 128 := if v.msb then v <<< 1 ^^^ Rb else v <<< 1

/-- A block that is not complete is padded with a bit that is set and with bits that are not. -/
def pad (m : Bytes) : Bytes := m ++ 0x80 :: List.replicate (15 - m.length) 0

variable (E : Bytes → Bytes)

def subkey1 : Bytes := ofBits (double (bits (E zeroBlock)))

def subkey2 : Bytes := ofBits (double (double (bits (E zeroBlock))))

/-- The last block of a message, with the subkey that it goes with. -/
def lastBlock (m : Bytes) : Bytes :=
  if m.length = 16 then xor m (subkey1 E) else xor (pad m) (subkey2 E)

/-- The code of what is left of a message, from the value of the blocks before it. -/
def chain (x m : Bytes) : Bytes :=
  if 16 < m.length then chain (E (xor x (m.take 16))) (m.drop 16) else E (xor x (lastBlock E m))
termination_by m.length
decreasing_by
  rw [List.length_drop]
  omega

def mac (m : Bytes) : Bytes := chain E zeroBlock m

/-! ## Blocks one after another -/

theorem length_xor {a b : Bytes} (h : a.length = b.length) : (xor a b).length = a.length := by
  rw [xor, List.length_zipWith, h, Nat.min_self]

@[simp] theorem length_ofBits (v : BitVec 128) : (ofBits v).length = 16 := Bytes.length_ofNatBE 16 _

theorem length_pad {m : Bytes} (h : m.length < 16) : (pad m).length = 16 := by
  rw [pad, List.length_append, List.length_cons, List.length_replicate]
  omega

variable {E}

theorem length_lastBlock {m : Bytes} (h : m.length ≤ 16) : (lastBlock E m).length = 16 := by
  unfold lastBlock
  split
  · rename_i hwhole
    exact (length_xor (hwhole.trans (length_ofBits _).symm)).trans hwhole
  · rename_i hpart
    have hpad := length_pad (Nat.lt_of_le_of_ne h hpart)
    exact (length_xor (hpad.trans (length_ofBits _).symm)).trans hpad

theorem chain_of_le {x m : Bytes} (h : m.length ≤ 16) : chain E x m = E (xor x (lastBlock E m)) := by
  rw [chain, if_neg (Nat.not_lt.mpr h)]

/-- A code has the length of a block of the cipher. -/
theorem length_chain {n : Nat} (hE : ∀ block, (E block).length = n) (x m : Bytes) :
    (chain E x m).length = n := by
  fun_induction chain E x m with
  | case1 x m hlong ih => exact ih
  | case2 x m hshort => exact hE _

/-- The value after `n` whole blocks. -/
def blocks (E : Bytes → Bytes) (x m : Bytes) (n : Nat) : Bytes :=
  (List.range n).foldl (fun x i => E (xor x (m.sub (16 * i) 16))) x

theorem blocks_succ (x m : Bytes) (n : Nat) :
    blocks E x m (n + 1) = blocks E (E (xor x (m.take 16))) (m.drop 16) n := by
  unfold blocks
  rw [List.range_succ_eq_map, List.foldl_cons, List.foldl_map]
  congr 1
  funext y i
  rw [Bytes.sub, Bytes.sub, List.drop_drop, Nat.mul_succ, Nat.add_comm 16]

/-- The code is that of the whole blocks but the last, and then of the last one. -/
theorem chain_blocks {n : Nat} {x m : Bytes} (hlow : n = 0 ∨ 16 * n < m.length)
    (hhigh : m.length ≤ 16 * (n + 1)) :
    chain E x m = E (xor (blocks E x m n) (lastBlock E (m.drop (16 * n)))) := by
  induction n generalizing x m with
  | zero => exact chain_of_le hhigh
  | succ n ih =>
      have hlong : 16 * (n + 1) < m.length := hlow.resolve_left (Nat.succ_ne_zero n)
      have hlength : (m.drop 16).length = m.length - 16 := List.length_drop
      rw [chain, if_pos (by omega), blocks_succ, ih, List.drop_drop, Nat.mul_succ, Nat.add_comm 16]
      · exact Or.inr (by omega)
      · omega

/-! ## Subkeys by bytes -/

/-- The bits of a block that are shifted, as a number, and whether one was shifted out. -/
theorem toNat_bits {block : Bytes} (h : block.length = 16) :
    (bits block).toNat = Bytes.le block.reverse := by
  have hlt := Bytes.le_lt block.reverse
  rw [List.length_reverse, h] at hlt
  exact Nat.mod_eq_of_lt hlt

theorem bits_ofBits (v : BitVec 128) : bits (ofBits v) = v := by
  apply BitVec.eq_of_toNat_eq
  rw [toNat_bits (length_ofBits v), ofBits, Bytes.ofNatBE, List.reverse_reverse, Bytes.le_ofNat]
  exact Nat.mod_eq_of_lt v.isLt

theorem ofBits_bits {block : Bytes} (h : block.length = 16) : ofBits (bits block) = block := by
  have hvalue := Bytes.ofNat_le block.reverse
  rw [List.length_reverse, h] at hvalue
  rw [ofBits, toNat_bits h, Bytes.ofNatBE, hvalue, List.reverse_reverse]

theorem msb_bits (v : BitVec 128) : v.msb = (v.toNat <<< 1 >>> 128 != 0) := by
  have hlt := v.isLt
  rw [BitVec.msb_eq_decide, Nat.shiftLeft_eq, Nat.shiftRight_eq_div_pow]
  by_cases h : 2 ^ 127 ≤ v.toNat
  · rw [decide_eq_true h]
    symm
    rw [bne_iff_ne]
    omega
  · rw [decide_eq_false h]
    symm
    rw [bne_eq_false_iff_eq]
    omega

theorem toNat_shift (v : BitVec 128) : (v <<< 1).toNat = v.toNat <<< 1 &&& 2 ^ 128 - 1 := by
  rw [BitVec.toNat_shiftLeft, Nat.and_two_pow_sub_one_eq_mod]

/-- The exclusive or with one byte changes the last byte. -/
theorem ofBits_xor (v : BitVec 128) {n : Nat} (hn : n < 256) :
    ofBits (v ^^^ BitVec.ofNat 128 n) =
      (ofBits v).dropLast ++ [(ofBits v).getLastD 0 ^^^ UInt8.ofNat n] := by
  have hvalue : (v ^^^ BitVec.ofNat 128 n).toNat = v.toNat ^^^ n := by
    rw [BitVec.toNat_xor, BitVec.toNat_ofNat, Nat.mod_eq_of_lt (by omega)]
  have hlow : (v.toNat ^^^ n) % 256 = v.toNat % 256 ^^^ n := by
    have hmod := @Nat.xor_mod_two_pow v.toNat n 8
    rw [Nat.mod_eq_of_lt (show n < 2 ^ 8 from hn)] at hmod
    exact hmod
  have hhigh : (v.toNat ^^^ n) / 256 = v.toNat / 256 := by
    have hdiv := @Nat.xor_div_two_pow v.toNat n 8
    rw [Nat.div_eq_of_lt (show n < 2 ^ 8 from hn), Nat.xor_zero] at hdiv
    exact hdiv
  have hbyte : UInt8.ofNat (v.toNat % 256 ^^^ n) = UInt8.ofNat (v.toNat % 256) ^^^ UInt8.ofNat n :=
    UInt8.ofNat_xor _ _
  unfold ofBits
  rw [hvalue, Bytes.ofNatBE_succ 15 (v.toNat ^^^ n), Bytes.ofNatBE_succ 15 v.toNat, hlow, hhigh,
    List.dropLast_concat, List.getLastD_concat, hbyte]

end Ps2Servers.Cmac
