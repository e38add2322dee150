import Mathlib.Data.Nat.Bitwise
import Ps2Servers.Lib.Md4

/-!
# MD4

The pure-Python digest that the NT hash of a password is made with, and that it is MD4.

## Implementation notes

The registers are numbers without a bound, as Python's are, and are masked where the code masks them.
`none` is a `struct.error`.
-/

namespace Ps2Servers.Smb2

/-- The registers of `md4`. -/
structure Registers where
  a : Nat
  b : Nat
  c : Nat
  d : Nat

def mask : Nat := 0xFFFFFFFF

def rol (x n : Nat) : Nat :=
  let x := x &&& mask
  (x <<< n ||| x >>> (32 - n)) &&& mask

/-- `~b & d`. -/
def andNot (b d : Nat) : Nat := Nat.ldiff d b

/-! ## Rounds -/

/-- `F = (x AND y) OR (NOT x AND z)`. -/
def roundF (x y z : Nat) : Nat := (x &&& y ||| andNot x z) &&& mask

/-- The majority. -/
def roundG (x y z : Nat) : Nat := (x &&& y ||| x &&& z ||| y &&& z) &&& mask

def roundH (x y z : Nat) : Nat := (x ^^^ y ^^^ z) &&& mask

/-- One turn of the loop of a round: four words, a constant, and four rotations. -/
def turn (f : Nat → Nat → Nat → Nat) (t x0 x1 x2 x3 s0 s1 s2 s3 : Nat) (r : Registers) : Registers :=
  let a := rol (r.a + f r.b r.c r.d + x0 + t) s0
  let d := rol (r.d + f a r.b r.c + x1 + t) s1
  let c := rol (r.c + f d a r.b + x2 + t) s2
  let b := rol (r.b + f c d a + x3 + t) s3
  ⟨a, b, c, d⟩

def firstRound (x : Nat → Nat) (r : Registers) : Registers :=
  [0, 4, 8, 12].foldl (fun r i => turn roundF 0 (x i) (x (i + 1)) (x (i + 2)) (x (i + 3)) 3 7 11 19 r) r

def secondRound (x : Nat → Nat) (r : Registers) : Registers :=
  [0, 1, 2, 3].foldl
    (fun r i => turn roundG 0x5A827999 (x i) (x (i + 4)) (x (i + 8)) (x (i + 12)) 3 5 9 13 r) r

def thirdRound (x : Nat → Nat) (r : Registers) : Registers :=
  [0, 2, 1, 3].foldl
    (fun r i => turn roundH 0x6ED9EBA1 (x i) (x (i + 8)) (x (i + 4)) (x (i + 12)) 3 9 11 15 r) r

/-- `struct.unpack("<16I", chunk)`. -/
def unpackWords (chunk : Bytes) : Option (Nat → Nat) :=
  if chunk.length = 64 then some fun i => chunk.field (4 * i) 4 else none

/-- One turn of the loop over the chunks. -/
def nextChunk (r : Registers) (chunk : Bytes) : Option Registers := do
  let x ← unpackWords chunk
  let r' := thirdRound x (secondRound x (firstRound x r))
  return ⟨(r'.a + r.a) &&& mask, (r'.b + r.b) &&& mask, (r'.c + r.c) &&& mask, (r'.d + r.d) &&& mask⟩

/-- `md4`. -/
def md4 (data : Bytes) : Option Bytes := do
  let bitLen := data.length * 8 &&& 0xFFFFFFFFFFFFFFFF
  let data := data ++ [0x80]
  let data := data ++ List.replicate ((56 - (data.length % 64 : Int)) % 64).toNat 0
  let data := data ++ Bytes.ofNat 8 bitLen
  let r ← (List.range ((data.length + 63) / 64)).foldlM (fun r i => nextChunk r (Bytes.sub data (64 * i) 64))
    ⟨0x67452301, 0xEFCDAB89, 0x98BADCFE, 0x10325476⟩
  return Bytes.ofNat 4 r.a ++ Bytes.ofNat 4 r.b ++ Bytes.ofNat 4 r.c ++ Bytes.ofNat 4 r.d

/-! ## Words -/

/-- The word that a number is. -/
def word (n : Nat) : Md4.Word := BitVec.ofNat 32 n

theorem word_add (m n : Nat) : word (m + n) = word m + word n := BitVec.ofNat_add m n

theorem word_mask (n : Nat) : word (n &&& mask) = word n := by
  unfold word mask
  rw [BitVec.ofNat_and]
  exact BitVec.and_allOnes

theorem word_andNot (b d : Nat) : word (andNot b d) = ~~~word b &&& word d := by
  apply BitVec.eq_of_getLsbD_eq
  intro i hi
  unfold word andNot
  rw [BitVec.getLsbD_and, BitVec.getLsbD_not, BitVec.getLsbD_ofNat, BitVec.getLsbD_ofNat,
    BitVec.getLsbD_ofNat, Nat.testBit_ldiff, decide_eq_true hi]
  cases d.testBit i with
  | false => simp
  | true => simp

theorem word_roundF (x y z : Nat) : word (roundF x y z) = Md4.F (word x) (word y) (word z) := by
  rw [roundF, word_mask, word, BitVec.ofNat_or, BitVec.ofNat_and]
  exact congrArg _ (word_andNot x z)

theorem word_roundG (x y z : Nat) : word (roundG x y z) = Md4.G (word x) (word y) (word z) := by
  rw [roundG, word_mask, word, BitVec.ofNat_or, BitVec.ofNat_or, BitVec.ofNat_and, BitVec.ofNat_and,
    BitVec.ofNat_and]
  rfl

theorem word_roundH (x y z : Nat) : word (roundH x y z) = Md4.H (word x) (word y) (word z) := by
  rw [roundH, word_mask, word, BitVec.ofNat_xor, BitVec.ofNat_xor]
  rfl

theorem testBit_mask (x i : Nat) : (x &&& mask).testBit i = (decide (i < 32) && x.testBit i) := by
  have hmask : mask.testBit i = decide (i < 32) := Nat.testBit_two_pow_sub_one 32 i
  rw [Nat.testBit_and, hmask, Bool.and_comm]

theorem word_rol (x : Nat) {n : Nat} (hn : n < 32) : word (rol x n) = (word x).rotateLeft n := by
  apply BitVec.eq_of_getLsbD_eq
  intro i hi
  rw [rol, word_mask, word, word, BitVec.getLsbD_rotateLeft_of_le hn, BitVec.getLsbD_ofNat,
    BitVec.getLsbD_ofNat, BitVec.getLsbD_ofNat, Nat.testBit_or, Nat.testBit_shiftLeft, Nat.testBit_shiftRight,
    testBit_mask, testBit_mask, decide_eq_true hi, Bool.true_and]
  by_cases hlow : i < n
  · rw [decide_eq_false (Nat.not_le.mpr hlow), decide_eq_true hlow]
    exact Bool.false_or _
  · rw [decide_eq_true (Nat.le_of_not_lt hlow), decide_eq_false hlow,
      decide_eq_false (show ¬ 32 - n + i < 32 by omega), Bool.false_and, Bool.or_false]
    rfl

/-! ## Registers -/

def Registers.words (r : Registers) : Md4.Regs := #v[word r.a, word r.b, word r.c, word r.d]

section

variable {f : Nat → Nat → Nat → Nat} {f' : Md4.Word → Md4.Word → Md4.Word → Md4.Word}

theorem word_step (hf : ∀ x y z, word (f x y z) = f' (word x) (word y) (word z)) (p q r s x t : Nat) {n : Nat}
    (hn : n < 32) : word (rol (p + f q r s + x + t) n) =
      (word p + f' (word q) (word r) (word s) + word x + word t).rotateLeft n := by
  rw [word_rol _ hn, word_add, word_add, word_add, hf]

/-- A turn is four operations. -/
theorem words_turn (hf : ∀ x y z, word (f x y z) = f' (word x) (word y) (word z)) (t : Nat) (x : Nat → Nat)
    (k0 k1 k2 k3 : Nat) {s0 s1 s2 s3 : Nat} (h0 : s0 < 32) (h1 : s1 < 32) (h2 : s2 < 32) (h3 : s3 < 32)
    (r : Registers) :
    (turn f t (x k0) (x k1) (x k2) (x k3) s0 s1 s2 s3 r).words =
      [⟨0, k0, s0⟩, ⟨3, k1, s1⟩, ⟨2, k2, s2⟩, ⟨1, k3, s3⟩].foldl
        (Md4.operate f' (word t) fun k => word (x k)) r.words := by
  have ha := word_step hf r.a r.b r.c r.d (x k0) t h0
  generalize hra : rol (r.a + f r.b r.c r.d + x k0 + t) s0 = a at ha
  have hd := word_step hf r.d a r.b r.c (x k1) t h1
  generalize hrd : rol (r.d + f a r.b r.c + x k1 + t) s1 = d at hd
  have hc := word_step hf r.c d a r.b (x k2) t h2
  generalize hrc : rol (r.c + f d a r.b + x k2 + t) s2 = c at hc
  have hb := word_step hf r.b c d a (x k3) t h3
  generalize hrb : rol (r.b + f c d a + x k3 + t) s3 = b at hb
  have hturn : turn f t (x k0) (x k1) (x k2) (x k3) s0 s1 s2 s3 r = ⟨a, b, c, d⟩ := by
    rw [turn, hra, hrd, hrc, hrb]
  rw [hturn, List.foldl_cons, List.foldl_cons, List.foldl_cons, List.foldl_cons, List.foldl_nil]
  have hfirst : Md4.operate f' (word t) (fun k => word (x k)) r.words ⟨0, k0, s0⟩ =
      #v[word a, word r.b, word r.c, word r.d] := by
    rw [ha]
    rfl
  have hsecond : Md4.operate f' (word t) (fun k => word (x k)) #v[word a, word r.b, word r.c, word r.d]
      ⟨3, k1, s1⟩ = #v[word a, word r.b, word r.c, word d] := by
    rw [hd]
    rfl
  have hthird : Md4.operate f' (word t) (fun k => word (x k)) #v[word a, word r.b, word r.c, word d]
      ⟨2, k2, s2⟩ = #v[word a, word r.b, word c, word d] := by
    rw [hc]
    rfl
  have hfourth : Md4.operate f' (word t) (fun k => word (x k)) #v[word a, word r.b, word c, word d]
      ⟨1, k3, s3⟩ = #v[word a, word b, word c, word d] := by
    rw [hb]
    rfl
  rw [hfirst, hsecond, hthird, hfourth]
  rfl

/-- The turns of a round are its operations. -/
theorem words_turns (hf : ∀ x y z, word (f x y z) = f' (word x) (word y) (word z)) (t : Nat) (x : Nat → Nat)
    (o1 o2 o3 : Nat) {s0 s1 s2 s3 : Nat} (h0 : s0 < 32) (h1 : s1 < 32) (h2 : s2 < 32) (h3 : s3 < 32)
    (l : List Nat) (r : Registers) :
    (l.foldl (fun r i => turn f t (x i) (x (i + o1)) (x (i + o2)) (x (i + o3)) s0 s1 s2 s3 r) r).words =
      (l.flatMap fun i => [⟨0, i, s0⟩, ⟨3, i + o1, s1⟩, ⟨2, i + o2, s2⟩, ⟨1, i + o3, s3⟩]).foldl
        (Md4.operate f' (word t) fun k => word (x k)) r.words := by
  induction l generalizing r with
  | nil => rfl
  | cons i rest ih =>
      rw [List.foldl_cons, ih, List.flatMap_cons, List.foldl_append,
        words_turn hf t x i (i + o1) (i + o2) (i + o3) h0 h1 h2 h3]

end

variable (x : Nat → Nat) (r : Registers)

theorem words_firstRound :
    (firstRound x r).words = Md4.round1.foldl (Md4.operate Md4.F 0 fun k => word (x k)) r.words :=
  words_turns word_roundF 0 x 1 2 3 (by decide) (by decide) (by decide) (by decide) [0, 4, 8, 12] r

theorem words_secondRound :
    (secondRound x r).words =
      Md4.round2.foldl (Md4.operate Md4.G 0x5A827999 fun k => word (x k)) r.words :=
  words_turns word_roundG 0x5A827999 x 4 8 12 (by decide) (by decide) (by decide) (by decide) [0, 1, 2, 3] r

theorem words_thirdRound :
    (thirdRound x r).words =
      Md4.round3.foldl (Md4.operate Md4.H 0x6ED9EBA1 fun k => word (x k)) r.words :=
  words_turns word_roundH 0x6ED9EBA1 x 8 4 12 (by decide) (by decide) (by decide) (by decide) [0, 2, 1, 3] r

theorem words_rounds :
    (thirdRound x (secondRound x (firstRound x r))).words = Md4.rounds r.words fun k => word (x k) := by
  rw [words_thirdRound, words_secondRound, words_firstRound]
  rfl

/-- The sums of the registers, masked. -/
theorem words_add (r' : Registers) :
    Registers.words ⟨(r'.a + r.a) &&& mask, (r'.b + r.b) &&& mask, (r'.c + r.c) &&& mask,
      (r'.d + r.d) &&& mask⟩ = Md4.add r'.words r.words := by
  rw [Registers.words]
  simp only [word_mask, word_add]
  rfl

/-- A chunk is a block of sixteen words. -/
theorem nextChunk_eq {chunk : Bytes} (h : chunk.length = 64) :
    ∃ r', nextChunk r chunk = some r' ∧
      r'.words = Md4.compress r.words fun k => word (chunk.field (4 * k) 4) := by
  have hwords : unpackWords chunk = some fun i => chunk.field (4 * i) 4 := if_pos h
  have hrounds := words_rounds (fun i => chunk.field (4 * i) 4) r
  unfold nextChunk
  rw [hwords]
  simp only [Option.bind_eq_bind, Option.bind_some]
  generalize thirdRound (fun i => chunk.field (4 * i) 4) (secondRound (fun i => chunk.field (4 * i) 4)
    (firstRound (fun i => chunk.field (4 * i) 4) r)) = r' at hrounds
  refine ⟨_, rfl, ?_⟩
  rw [words_add, hrounds]
  rfl

/-- The chunks of a byte string are its blocks. -/
theorem foldlM_nextChunk {data : Bytes} {n : Nat} (hn : 64 * n ≤ data.length) :
    ∃ r', (List.range n).foldlM (fun r i => nextChunk r (data.sub (64 * i) 64)) r = some r' ∧
      r'.words = (List.range n).foldl
        (fun r i => Md4.compress r fun j => Md4.wordAt (Md4.bits data) (16 * i + j)) r.words := by
  induction n with
  | zero => exact ⟨r, rfl, rfl⟩
  | succ n ih =>
      obtain ⟨r1, hfold, hr1⟩ := ih (by omega)
      have hlength : (data.sub (64 * n) 64).length = 64 := by
        rw [Bytes.sub, List.length_take, List.length_drop]
        omega
      obtain ⟨r2, hnext, hr2⟩ := nextChunk_eq r1 hlength
      refine ⟨r2, ?_, ?_⟩
      · rw [List.range_succ, List.foldlM_append, hfold]
        simp only [Option.bind_eq_bind, Option.bind_some, List.foldlM_cons, List.foldlM_nil, hnext]
        rfl
      · rw [List.range_succ, List.foldl_append, ← hr1, hr2]
        apply Md4.compress_congr
        intro k hk
        have hindex : 64 * n + 4 * k = 4 * (16 * n + k) := by omega
        rw [Bytes.field_sub data (by omega), hindex, Md4.wordAt_bits]
        rfl

/-- The digest of every byte string is the MD4 digest. -/
theorem md4_eq_digest (data : Bytes) : md4 data = some (Md4.digest data) := by
  have hmask : data.length * 8 &&& 0xFFFFFFFFFFFFFFFF = 8 * data.length % 256 ^ 8 := by
    rw [Nat.mul_comm]
    exact Nat.and_two_pow_sub_one_eq_mod (8 * data.length) 64
  have hone : (data ++ [0x80]).length = data.length + 1 := List.length_append
  generalize hzeros : ((56 - (((data.length + 1 : Nat) : Int) % 64)) % 64).toNat = zeros
  have hpadded := @Md4.padded_bits data zeros (by omega) (by omega)
  generalize hall : data ++ [0x80] ++ List.replicate zeros 0 ++ Bytes.ofNat 8 (8 * data.length) = all at hpadded
  have hlength : all.length = data.length + 1 + zeros + 8 := by
    rw [← hall, List.length_append, List.length_append, hone, List.length_replicate, Bytes.length_ofNat]
  have hblocks : (all.length + 63) / 64 = 8 * all.length / 512 := by omega
  obtain ⟨r, hfold, hr⟩ := @foldlM_nextChunk ⟨0x67452301, 0xEFCDAB89, 0x98BADCFE, 0x10325476⟩ all
    ((all.length + 63) / 64) (by omega)
  unfold md4
  dsimp only
  rw [hone, hmask, Bytes.ofNat_mod, hzeros, hall]
  simp only [Option.bind_eq_bind, hfold, Option.bind_some]
  unfold Md4.digest
  dsimp only
  rw [hpadded, Md4.length_bits, ← hblocks]
  have hinitial : Registers.words ⟨0x67452301, 0xEFCDAB89, 0x98BADCFE, 0x10325476⟩ = Md4.initial := rfl
  rw [← hinitial, ← hr, ← Md4.wordBytes_ofNat, ← Md4.wordBytes_ofNat, ← Md4.wordBytes_ofNat,
    ← Md4.wordBytes_ofNat]
  rfl

end Ps2Servers.Smb2
