import Mathlib.Data.Fin.Tuple.Basic
import Mathlib.Data.List.FinRange
import Ps2Servers.Lib.Aes
import Ps2Servers.Lib.Cmac

/-!
# AES and its CMAC

The pure-Python cipher and message code that SMB 3 messages are signed with, and that they are AES-128
and AES-CMAC.

## Implementation notes

The tables, the state and the round keys are vectors, so that no index is out of range. `none` is a
`ValueError`.
-/

namespace Ps2Servers.Smb2

/-! ## Tables -/

set_option maxRecDepth 4000 in
/-- `_SBOX`. -/
def SBOX : Vector UInt8 256 := #v[
  0x63, 0x7c, 0x77, 0x7b, 0xf2, 0x6b, 0x6f, 0xc5, 0x30, 0x01, 0x67, 0x2b, 0xfe, 0xd7, 0xab, 0x76,
  0xca, 0x82, 0xc9, 0x7d, 0xfa, 0x59, 0x47, 0xf0, 0xad, 0xd4, 0xa2, 0xaf, 0x9c, 0xa4, 0x72, 0xc0,
  0xb7, 0xfd, 0x93, 0x26, 0x36, 0x3f, 0xf7, 0xcc, 0x34, 0xa5, 0xe5, 0xf1, 0x71, 0xd8, 0x31, 0x15,
  0x04, 0xc7, 0x23, 0xc3, 0x18, 0x96, 0x05, 0x9a, 0x07, 0x12, 0x80, 0xe2, 0xeb, 0x27, 0xb2, 0x75,
  0x09, 0x83, 0x2c, 0x1a, 0x1b, 0x6e, 0x5a, 0xa0, 0x52, 0x3b, 0xd6, 0xb3, 0x29, 0xe3, 0x2f, 0x84,
  0x53, 0xd1, 0x00, 0xed, 0x20, 0xfc, 0xb1, 0x5b, 0x6a, 0xcb, 0xbe, 0x39, 0x4a, 0x4c, 0x58, 0xcf,
  0xd0, 0xef, 0xaa, 0xfb, 0x43, 0x4d, 0x33, 0x85, 0x45, 0xf9, 0x02, 0x7f, 0x50, 0x3c, 0x9f, 0xa8,
  0x51, 0xa3, 0x40, 0x8f, 0x92, 0x9d, 0x38, 0xf5, 0xbc, 0xb6, 0xda, 0x21, 0x10, 0xff, 0xf3, 0xd2,
  0xcd, 0x0c, 0x13, 0xec, 0x5f, 0x97, 0x44, 0x17, 0xc4, 0xa7, 0x7e, 0x3d, 0x64, 0x5d, 0x19, 0x73,
  0x60, 0x81, 0x4f, 0xdc, 0x22, 0x2a, 0x90, 0x88, 0x46, 0xee, 0xb8, 0x14, 0xde, 0x5e, 0x0b, 0xdb,
  0xe0, 0x32, 0x3a, 0x0a, 0x49, 0x06, 0x24, 0x5c, 0xc2, 0xd3, 0xac, 0x62, 0x91, 0x95, 0xe4, 0x79,
  0xe7, 0xc8, 0x37, 0x6d, 0x8d, 0xd5, 0x4e, 0xa9, 0x6c, 0x56, 0xf4, 0xea, 0x65, 0x7a, 0xae, 0x08,
  0xba, 0x78, 0x25, 0x2e, 0x1c, 0xa6, 0xb4, 0xc6, 0xe8, 0xdd, 0x74, 0x1f, 0x4b, 0xbd, 0x8b, 0x8a,
  0x70, 0x3e, 0xb5, 0x66, 0x48, 0x03, 0xf6, 0x0e, 0x61, 0x35, 0x57, 0xb9, 0x86, 0xc1, 0x1d, 0x9e,
  0xe1, 0xf8, 0x98, 0x11, 0x69, 0xd9, 0x8e, 0x94, 0x9b, 0x1e, 0x87, 0xe9, 0xce, 0x55, 0x28, 0xdf,
  0x8c, 0xa1, 0x89, 0x0d, 0xbf, 0xe6, 0x42, 0x68, 0x41, 0x99, 0x2d, 0x0f, 0xb0, 0x54, 0xbb, 0x16]

/-- `_xtime`. -/
def xtime (a : Nat) : Nat :=
  let a := a <<< 1
  let a := if a &&& 0x100 ≠ 0 then a ^^^ 0x11b else a
  a &&& 0xff

/-- `_MUL2`. -/
def MUL2 : Vector UInt8 256 := Vector.ofFn fun i => UInt8.ofNat (xtime i)

/-- `_MUL3`. -/
def MUL3 : Vector UInt8 256 := Vector.ofFn fun i => MUL2.get i ^^^ UInt8.ofNat i

/-- The entry of a table at a byte. -/
def entry (table : Vector UInt8 256) (byte : UInt8) : UInt8 := table.get byte.toFin

/-! ## The cipher -/

local instance nonzero : NeZero 4 := ⟨by decide⟩

/-- The loop of `_expand_key`, after `n` words: the bytes so far, and `rcon`. -/
def expandWords (key : Vector UInt8 16) : (n : Nat) → Vector UInt8 (16 + 4 * n) × Nat
  | 0 => (key, 1)
  | n + 1 =>
      let (w, rcon) := expandWords key n
      let i := 16 + 4 * n
      let t : Vector UInt8 4 := Vector.ofFn fun j => w.get ⟨i - 4 + j, by omega⟩
      let (t, rcon) := if i % 16 = 0 then
          (#v[entry SBOX (t.get 1) ^^^ UInt8.ofNat rcon, entry SBOX (t.get 2), entry SBOX (t.get 3),
            entry SBOX (t.get 0)], xtime rcon)
        else (t, rcon)
      (w ++ Vector.ofFn fun j : Fin 4 => w.get ⟨i - 16 + j, by omega⟩ ^^^ t.get j, rcon)

/-- `_expand_key`. -/
def expandKey (key : Bytes) : Option (Vector UInt8 176) :=
  if h : key.length = 16 then some (expandWords ⟨key.toArray, h⟩ 40).1 else none

structure AES128 where
  roundKeys : Vector UInt8 176

def AES128.init (key : Bytes) : Option AES128 := (expandKey key).map AES128.mk

/-- The bytes of the block, with those of a round key. -/
def addRoundKey (rk : Vector UInt8 176) (s : Vector UInt8 16) (rnd : Fin 11) : Vector UInt8 16 :=
  Vector.ofFn fun i => s.get i ^^^ rk.get ⟨16 * rnd + i, by omega⟩

/-- SubBytes and ShiftRows. -/
def subShift (s : Vector UInt8 16) : Vector UInt8 16 :=
  Vector.ofFn fun i => entry SBOX (s.get ⟨(i + 4 * (i % 4)) % 16, Nat.mod_lt _ (by decide)⟩)

def mixColumn (a0 a1 a2 a3 : UInt8) : Vector UInt8 4 :=
  #v[entry MUL2 a0 ^^^ entry MUL3 a1 ^^^ a2 ^^^ a3,
    a0 ^^^ entry MUL2 a1 ^^^ entry MUL3 a2 ^^^ a3,
    a0 ^^^ a1 ^^^ entry MUL2 a2 ^^^ entry MUL3 a3,
    entry MUL3 a0 ^^^ a1 ^^^ a2 ^^^ entry MUL2 a3]

def mixColumns (s : Vector UInt8 16) : Vector UInt8 16 :=
  (Vector.ofFn fun c : Fin 4 => mixColumn (s.get ⟨4 * c, by omega⟩) (s.get ⟨4 * c + 1, by omega⟩)
    (s.get ⟨4 * c + 2, by omega⟩) (s.get ⟨4 * c + 3, by omega⟩)).flatten

/-- One turn of the loop of `encrypt_block`. -/
def AES128.round (cipher : AES128) (s : Vector UInt8 16) (rnd : Fin 11) : Vector UInt8 16 :=
  let s := subShift s
  let s := if rnd ≠ 10 then mixColumns s else s
  addRoundKey cipher.roundKeys s rnd

/-- `AES128.encrypt_block`. -/
def AES128.encryptBlock (cipher : AES128) (block : Bytes) : Option Bytes :=
  if h : block.length = 16 then
    let s := addRoundKey cipher.roundKeys ⟨block.toArray, h⟩ 0
    some (((List.finRange 10).map Fin.succ).foldl cipher.round s).toList
  else none

/-! ## The code -/

/-- `_shift_left_one`. -/
def shiftLeftOne (block : Bytes) : Bytes × Bool :=
  let n := Bytes.le block.reverse <<< 1
  (Bytes.ofNatBE 16 (n &&& 2 ^ 128 - 1), n >>> 128 != 0)

/-- A subkey, from the block before it. -/
def nextKey (block : Bytes) : Bytes :=
  let (k, carry) := shiftLeftOne block
  if carry then k.dropLast ++ [k.getLastD 0 ^^^ 0x87] else k

/-- `bytes(a ^ b for a, b in zip(x, y))`. -/
def xorBytes (x y : Bytes) : Bytes := List.zipWith (· ^^^ ·) x y

/-- `aes_cmac_pure`. -/
def aesCmacPure (key message : Bytes) : Option Bytes := do
  let cipher ← AES128.init key
  let lBlock ← cipher.encryptBlock (List.replicate 16 0)
  let k1 := nextKey lBlock
  let k2 := nextKey k1
  let n := (message.length + 15) / 16
  let (n, complete) := if n = 0 then (1, false) else (n, message.length % 16 = 0)
  let last := message.drop ((n - 1) * 16)
  let last := if complete then xorBytes last k1
    else xorBytes (last ++ [0x80] ++ List.replicate (15 - last.length) 0) k2
  let x ← (List.range (n - 1)).foldlM
    (fun x i => cipher.encryptBlock (xorBytes x (message.sub (i * 16) 16))) (List.replicate 16 0)
  cipher.encryptBlock (xorBytes x last)

/-! ## The tables -/

theorem get_ofFn {α : Type} {n : Nat} (f : Fin n → α) (i : Fin n) : (Vector.ofFn f).get i = f i :=
  Vector.getElem_ofFn i.isLt

theorem entry_SBOX (b : UInt8) : entry SBOX b = Aes.sbox b := by
  have htable : SBOX.toList.map UInt8.toNat = (List.range 256).map Aes.sboxNat := by decide +kernel
  have hb : b.toNat < 256 := b.toNat_lt
  have hentry : SBOX.toList[b.toNat]? = some (entry SBOX b) := by
    rw [Vector.getElem?_toList]
    exact Vector.getElem?_eq_getElem hb
  have hbyte := congrArg (fun l => l[b.toNat]?) htable
  rw [List.getElem?_map, hentry, List.getElem?_map, List.getElem?_range hb, Option.map_some, Option.map_some,
    ← Aes.toNat_sbox] at hbyte
  exact UInt8.toNat_inj.mp (Option.some.inj hbyte)
theorem entry_MUL2 (b : UInt8) : entry MUL2 b = Aes.mul 2 b := by
  have hall : (List.range 256).all fun n => (UInt8.ofNat (xtime n)).toNat == Aes.times 2 n := by
    decide +kernel
  have hbyte := Aes.forall_byte hall b
  rw [beq_iff_eq] at hbyte
  rw [entry, MUL2, get_ofFn]
  exact UInt8.toNat_inj.mp (hbyte.trans (Aes.toNat_mul 2 b).symm)

theorem entry_MUL3 (b : UInt8) : entry MUL3 b = Aes.mul 3 b := by
  have hall : (List.range 256).all fun n => Aes.times 3 n == Aes.times 2 n ^^^ n := by decide +kernel
  have hbyte := Aes.forall_byte hall b
  rw [beq_iff_eq] at hbyte
  have hmul : entry MUL3 b = entry MUL2 b ^^^ UInt8.ofNat b.toNat := by
    rw [entry, MUL3, get_ofFn]
    rfl
  rw [hmul, entry_MUL2, UInt8.ofNat_toNat]
  apply UInt8.toNat_inj.mp
  rw [UInt8.toNat_xor, Aes.toNat_mul, Aes.toNat_mul]
  exact hbyte.symm

/-- The state that the bytes are, column by column. -/
def stateOf (s : Vector UInt8 16) : Aes.State := fun r c => s.get ⟨4 * c + r, by omega⟩

theorem stateOf_subShift (s : Vector UInt8 16) :
    stateOf (subShift s) = Aes.shiftRows (Aes.subBytes (stateOf s)) := by
  funext r c
  unfold stateOf subShift Aes.shiftRows Aes.subBytes
  rw [get_ofFn, entry_SBOX]
  congr 2
  apply Fin.ext
  have hcolumn : (c + r).val = (c.val + r.val) % 4 := Fin.val_add c r
  dsimp only
  omega

theorem get_flatten {α : Type} {m n : Nat} (xss : Vector (Vector α n) m) (c : Fin m) (r : Fin n)
    (h : n * c + r < m * n) : xss.flatten.get ⟨n * c + r, h⟩ = (xss.get c).get r := by
  change xss.flatten[n * c.val + r.val] = _
  rw [Vector.getElem_flatten]
  have hdiv : (n * c.val + r.val) / n = c := by
    rw [Nat.mul_add_div (Nat.zero_lt_of_lt r.isLt), Nat.div_eq_of_lt r.isLt, Nat.add_zero]
  have hmod : (n * c.val + r.val) % n = r := by
    rw [Nat.mul_add_mod, Nat.mod_eq_of_lt r.isLt]
  simp only [hdiv, hmod]
  rfl

theorem stateOf_mixColumns (s : Vector UInt8 16) :
    stateOf (mixColumns s) = Aes.mixColumns (stateOf s) := by
  funext r c
  have hcolumn : stateOf (mixColumns s) r c =
      (mixColumn (stateOf s 0 c) (stateOf s 1 c) (stateOf s 2 c) (stateOf s 3 c)).get r := by
    unfold stateOf mixColumns
    rw [get_flatten, get_ofFn]
    rfl
  rw [hcolumn]
  unfold Aes.mixColumns mixColumn
  simp only [entry_MUL2, entry_MUL3]
  generalize stateOf s = t
  have hrow (i : Fin 4) : i = 0 ∨ i = 1 ∨ i = 2 ∨ i = 3 := by omega
  rcases hrow r with rfl | rfl | rfl | rfl
  · rfl
  · change t 0 c ^^^ Aes.mul 2 (t 1 c) ^^^ Aes.mul 3 (t 2 c) ^^^ t 3 c =
      Aes.mul 2 (t 1 c) ^^^ Aes.mul 3 (t 2 c) ^^^ t 3 c ^^^ t 0 c
    ac_rfl
  · change t 0 c ^^^ t 1 c ^^^ Aes.mul 2 (t 2 c) ^^^ Aes.mul 3 (t 3 c) =
      Aes.mul 2 (t 2 c) ^^^ Aes.mul 3 (t 3 c) ^^^ t 0 c ^^^ t 1 c
    ac_rfl
  · change Aes.mul 3 (t 0 c) ^^^ t 1 c ^^^ t 2 c ^^^ Aes.mul 2 (t 3 c) =
      Aes.mul 2 (t 3 c) ^^^ Aes.mul 3 (t 0 c) ^^^ t 1 c ^^^ t 2 c
    ac_rfl

/-- The round keys are those of the key schedule. -/
def Scheduled (key : Bytes) (rk : Vector UInt8 176) : Prop :=
  ∀ (i : Fin 44) (r : Fin 4), rk.get ⟨4 * i + r, by omega⟩ = Aes.keyWord key i r

theorem stateOf_addRoundKey {key : Bytes} {rk : Vector UInt8 176} (hrk : Scheduled key rk)
    (s : Vector UInt8 16) (rnd : Fin 11) :
    stateOf (addRoundKey rk s rnd) = Aes.addRoundKey (Aes.keyWord key) rnd (stateOf s) := by
  funext r c
  unfold stateOf addRoundKey Aes.addRoundKey
  rw [get_ofFn, ← hrk ⟨4 * rnd + c, by omega⟩ r]
  congr 2
  apply Fin.ext
  dsimp only
  omega

theorem stateOf_round {key : Bytes} {cipher : AES128} (hrk : Scheduled key cipher.roundKeys)
    (s : Vector UInt8 16) {rnd : Fin 11} (hrnd : rnd ≠ 10) :
    stateOf (cipher.round s rnd) = Aes.round (Aes.keyWord key) (stateOf s) rnd := by
  unfold AES128.round
  dsimp only
  rw [if_pos hrnd, stateOf_addRoundKey hrk, stateOf_mixColumns, stateOf_subShift]
  rfl

theorem stateOf_finalRound {key : Bytes} {cipher : AES128} (hrk : Scheduled key cipher.roundKeys)
    (s : Vector UInt8 16) :
    stateOf (cipher.round s 10) = Aes.finalRound (Aes.keyWord key) (stateOf s) := by
  unfold AES128.round
  dsimp only
  rw [if_neg (fun h => h rfl), stateOf_addRoundKey hrk, stateOf_subShift]
  rfl

/-- Rounds one after another, none of them the last. -/
theorem stateOf_rounds {key : Bytes} {cipher : AES128} (hrk : Scheduled key cipher.roundKeys)
    {rounds : List (Fin 11)} (hrounds : ∀ rnd ∈ rounds, rnd ≠ 10) (s : Vector UInt8 16) :
    stateOf (rounds.foldl cipher.round s) =
      (rounds.map Fin.val).foldl (Aes.round (Aes.keyWord key)) (stateOf s) := by
  induction rounds generalizing s with
  | nil => rfl
  | cons rnd rest ih =>
      rw [List.foldl_cons, ih fun r hr => hrounds r (List.mem_cons_of_mem rnd hr),
        stateOf_round hrk s (hrounds rnd List.mem_cons_self)]
      rfl

theorem stateOf_mk {block : Bytes} (h : block.length = 16) :
    stateOf ⟨block.toArray, h⟩ = Aes.input block := by
  funext r c
  unfold stateOf Aes.input
  rw [List.getD_eq_getElem block 0 (by omega)]
  rfl

theorem output_stateOf (s : Vector UInt8 16) : Aes.output (stateOf s) = s.toList := by
  have hlist : s.toList = List.ofFn s.get := by
    apply List.ext_getElem
    · rw [List.length_ofFn, Vector.length_toList]
    · intro i hi hi'
      rw [List.getElem_ofFn, Vector.getElem_toList]
      rfl
  rw [hlist]
  rfl

/-! ## The key schedule -/

theorem get_append_left {α : Type} {m n : Nat} (v : Vector α m) (w : Vector α n) {i : Nat} (hi : i < m) :
    (v ++ w).get ⟨i, by omega⟩ = v.get ⟨i, hi⟩ :=
  Vector.getElem_append_left hi

theorem get_append_right {α : Type} {m n : Nat} (v : Vector α m) (w : Vector α n) (i : Fin n) :
    (v ++ w).get ⟨m + i, by omega⟩ = w.get i := by
  change (v ++ w)[m + i.val] = w[i.val]
  rw [Vector.getElem_append_right (by omega) (Nat.le_add_right m i)]
  simp only [Nat.add_sub_cancel_left]

theorem ofNat_xtime {n : Nat} (h : n < 256) : UInt8.ofNat (xtime n) = Aes.mul 2 (UInt8.ofNat n) := by
  rw [← entry_MUL2, entry, MUL2, get_ofFn]
  congr 2
  exact (Nat.mod_eq_of_lt h).symm

theorem xtime_lt (n : Nat) : xtime n < 256 := Nat.lt_succ_of_le Nat.and_le_right

/-- What the loop of `_expand_key` has made after `n` words. -/
structure Expanded (key : Bytes) (n : Nat) (w : Vector UInt8 (16 + 4 * n)) (rcon : Nat) : Prop where
  word : ∀ (k : Nat) (hk : k < 4 + n) (r : Fin 4), w.get ⟨4 * k + r, by omega⟩ = Aes.keyWord key k r
  power : UInt8.ofNat rcon = Aes.power ((n + 3) / 4)
  small : rcon < 256

/-- A word that is the sum of the fourth before it and of `t`. -/
theorem Expanded.append {key : Bytes} {n : Nat} {w : Vector UInt8 (16 + 4 * n)} {rcon : Nat}
    (h : Expanded key n w rcon) {t : Vector UInt8 4}
    (ht : ∀ r : Fin 4, Aes.keyWord key (n + 4) r = Aes.keyWord key n r ^^^ t.get r) (k : Nat)
    (hk : k < 4 + (n + 1)) (r : Fin 4) :
    (w ++ Vector.ofFn fun j : Fin 4 => w.get ⟨16 + 4 * n - 16 + j, by omega⟩ ^^^ t.get j).get
      ⟨4 * k + r, by omega⟩ = Aes.keyWord key k r := by
  by_cases hlast : k = n + 4
  · subst hlast
    have hindex : (⟨4 * (n + 4) + r, by omega⟩ : Fin (16 + 4 * n + 4)) = ⟨16 + 4 * n + r, by omega⟩ :=
      Fin.ext (by dsimp only; omega)
    rw [hindex, get_append_right, get_ofFn, ht, ← h.word n (by omega) r]
    congr 2
    exact Fin.ext (by dsimp only; omega)
  · rw [get_append_left w _ (by omega)]
    exact h.word k (by omega) r

theorem expanded_expandWords {key : Bytes} (hkey : key.length = 16) (n : Nat) :
    Expanded key n (expandWords ⟨key.toArray, hkey⟩ n).1 (expandWords ⟨key.toArray, hkey⟩ n).2 := by
  induction n with
  | zero =>
      constructor
      · intro k hk r
        rw [Aes.keyWord_of_lt key hk, List.getD_eq_getElem key 0 (by omega)]
        rfl
      · rfl
      · exact Nat.lt_of_sub_eq_succ rfl
  | succ n ih =>
      rw [expandWords]
      generalize expandWords ⟨key.toArray, hkey⟩ n = p at ih ⊢
      obtain ⟨w, rcon⟩ := p
      dsimp only at ih ⊢
      have hlast (j : Fin 4) : w.get ⟨16 + 4 * n - 4 + j, by omega⟩ = Aes.keyWord key (n + 3) j := by
        rw [← ih.word (n + 3) (by omega) j]
        congr 1
        exact Fin.ext (by dsimp only; omega)
      by_cases hround : (16 + 4 * n) % 16 = 0
      · rw [if_pos hround]
        refine ⟨ih.append ?_, ?_, xtime_lt rcon⟩
        · intro r
          rw [Aes.keyWord_first key (by omega)]
          congr 1
          have hrcon : Aes.rcon (n / 4 + 1) 0 = UInt8.ofNat rcon := by
            rw [ih.power]
            change Aes.power (n / 4) = _
            congr 1
            omega
          simp only [get_ofFn, hlast, entry_SBOX]
          have hrow : r = 0 ∨ r = 1 ∨ r = 2 ∨ r = 3 := by omega
          rcases hrow with rfl | rfl | rfl | rfl
          · rw [hrcon]
            rfl
          · exact UInt8.xor_zero
          · exact UInt8.xor_zero
          · exact UInt8.xor_zero
        · rw [ofNat_xtime ih.small, ih.power]
          have hnext : (n + 1 + 3) / 4 = (n + 3) / 4 + 1 := by omega
          rw [hnext]
          rfl
      · rw [if_neg hround]
        refine ⟨ih.append ?_, ?_, ih.small⟩
        · intro r
          rw [get_ofFn, hlast]
          exact Aes.keyWord_other key (by omega) r
        · rw [ih.power]
          congr 1
          omega

theorem init_eq {key : Bytes} (hkey : key.length = 16) :
    ∃ cipher, AES128.init key = some cipher ∧ Scheduled key cipher.roundKeys := by
  refine ⟨⟨(expandWords ⟨key.toArray, hkey⟩ 40).1⟩, ?_, ?_⟩
  · rw [AES128.init, expandKey, dif_pos hkey]
    rfl
  · intro i r
    exact (expanded_expandWords hkey 40).word i i.isLt r

theorem encryptBlock_eq {key : Bytes} {cipher : AES128} (hrk : Scheduled key cipher.roundKeys)
    {block : Bytes} (hblock : block.length = 16) :
    cipher.encryptBlock block = some (Aes.cipher key block) := by
  have hrounds : (List.finRange 10).map Fin.succ = [1, 2, 3, 4, 5, 6, 7, 8, 9] ++ [10] := rfl
  have hmiddle : ∀ rnd ∈ ([1, 2, 3, 4, 5, 6, 7, 8, 9] : List (Fin 11)), rnd ≠ 10 := by decide
  rw [AES128.encryptBlock, dif_pos hblock, hrounds]
  dsimp only
  rw [List.foldl_append, ← output_stateOf]
  change some (Aes.output (stateOf (cipher.round _ 10))) = _
  rw [stateOf_finalRound hrk, stateOf_rounds hrk hmiddle, stateOf_addRoundKey hrk, stateOf_mk hblock]
  rfl

/-! ## The code -/

theorem shiftLeftOne_ofBits (v : BitVec 128) :
    shiftLeftOne (Cmac.ofBits v) = (Cmac.ofBits (v <<< 1), v.msb) := by
  have hvalue : Bytes.le (Cmac.ofBits v).reverse = v.toNat := by
    rw [← Cmac.toNat_bits (Cmac.length_ofBits v), Cmac.bits_ofBits]
  rw [shiftLeftOne, hvalue, Cmac.msb_bits, Cmac.ofBits, Cmac.toNat_shift]

theorem nextKey_ofBits (v : BitVec 128) : nextKey (Cmac.ofBits v) = Cmac.ofBits (Cmac.double v) := by
  unfold nextKey Cmac.double
  rw [shiftLeftOne_ofBits]
  dsimp only
  split
  · exact (Cmac.ofBits_xor (v <<< 1) (by decide)).symm
  · rfl

/-- The whole blocks are enciphered one after another. -/
theorem foldlM_blocks {key : Bytes} {cipher : AES128} (hrk : Scheduled key cipher.roundKeys)
    {message x : Bytes} (hx : x.length = 16) {n : Nat} (hn : 16 * n ≤ message.length) :
    (List.range n).foldlM (fun x i => cipher.encryptBlock (xorBytes x (message.sub (i * 16) 16))) x =
      some (Cmac.blocks (Aes.cipher key) x message n) ∧
    (Cmac.blocks (Aes.cipher key) x message n).length = 16 := by
  induction n with
  | zero => exact ⟨rfl, hx⟩
  | succ n ih =>
      obtain ⟨hfold, hlength⟩ := ih (by omega)
      have hblock : (message.sub (16 * n) 16).length = 16 := by
        rw [Bytes.sub, List.length_take, List.length_drop]
        omega
      have hxor : (Cmac.xor (Cmac.blocks (Aes.cipher key) x message n) (message.sub (16 * n) 16)).length = 16 :=
        (Cmac.length_xor (hlength.trans hblock.symm)).trans hlength
      have hblocks : Cmac.blocks (Aes.cipher key) x message (n + 1) =
          Aes.cipher key (Cmac.xor (Cmac.blocks (Aes.cipher key) x message n) (message.sub (16 * n) 16)) := by
        unfold Cmac.blocks
        rw [List.range_succ, List.foldl_append]
        rfl
      constructor
      · rw [List.range_succ, List.foldlM_append, hfold, hblocks]
        simp only [Option.bind_eq_bind, Option.bind_some, List.foldlM_cons, List.foldlM_nil]
        rw [Nat.mul_comm n, ← encryptBlock_eq hrk hxor]
        exact Option.bind_fun_some _
      · rw [hblocks]
        exact Aes.length_cipher key _

/-- The blocks of a message that `aes_cmac_pure` counts, and whether the last is complete. -/
theorem count_blocks (message : Bytes) :
    ∃ q complete, (if (message.length + 15) / 16 = 0 then (1, false)
        else ((message.length + 15) / 16, decide (message.length % 16 = 0))) = (q + 1, complete) ∧
      (q = 0 ∨ 16 * q < message.length) ∧ message.length ≤ 16 * (q + 1) ∧
      (complete = true ↔ (message.drop (q * 16)).length = 16) := by
  by_cases hempty : (message.length + 15) / 16 = 0
  · refine ⟨0, false, if_pos hempty, Or.inl rfl, by omega, ?_⟩
    rw [List.length_drop]
    exact iff_of_false Bool.false_ne_true (by omega)
  · refine ⟨(message.length + 15) / 16 - 1, decide (message.length % 16 = 0), ?_, by omega, by omega, ?_⟩
    · rw [if_neg hempty, Nat.sub_add_cancel (Nat.pos_of_ne_zero hempty)]
    · rw [decide_eq_true_iff, List.length_drop]
      omega

theorem aesCmacPure_mac {key : Bytes} (hkey : key.length = 16) (message : Bytes) :
    aesCmacPure key message = some (Cmac.mac (Aes.cipher key) message) := by
  obtain ⟨cipher, hinit, hrk⟩ := init_eq hkey
  have hzero : cipher.encryptBlock (List.replicate 16 0) = some (Aes.cipher key Cmac.zeroBlock) :=
    encryptBlock_eq hrk rfl
  have hkey1 : nextKey (Aes.cipher key Cmac.zeroBlock) = Cmac.subkey1 (Aes.cipher key) := by
    have hnext := nextKey_ofBits (Cmac.bits (Aes.cipher key Cmac.zeroBlock))
    rw [Cmac.ofBits_bits (Aes.length_cipher key Cmac.zeroBlock)] at hnext
    exact hnext
  have hkey2 : nextKey (Cmac.subkey1 (Aes.cipher key)) = Cmac.subkey2 (Aes.cipher key) := nextKey_ofBits _
  obtain ⟨q, complete, hcount, hlow, hhigh, hcomplete⟩ := count_blocks message
  have hlast : (if complete = true then xorBytes (message.drop (q * 16)) (Cmac.subkey1 (Aes.cipher key))
      else xorBytes (message.drop (q * 16) ++ [0x80] ++
        List.replicate (15 - (message.drop (q * 16)).length) 0) (Cmac.subkey2 (Aes.cipher key))) =
      Cmac.lastBlock (Aes.cipher key) (message.drop (16 * q)) := by
    rw [Nat.mul_comm 16, List.append_assoc]
    exact if_congr hcomplete rfl rfl
  obtain ⟨hblocks, hlength⟩ := @foldlM_blocks key cipher hrk message Cmac.zeroBlock rfl q (by omega)
  have hwhole : (Cmac.lastBlock (Aes.cipher key) (message.drop (16 * q))).length = 16 := by
    apply Cmac.length_lastBlock
    rw [List.length_drop]
    omega
  unfold aesCmacPure
  rw [hinit]
  simp only [Option.bind_eq_bind, Option.bind_some]
  rw [hzero]
  simp only [Option.bind_some]
  rw [hkey1, hkey2, hcount]
  simp only [Nat.add_sub_cancel]
  rw [hlast]
  have hfold := hblocks
  rw [Cmac.zeroBlock] at hfold
  rw [hfold, Option.bind_some, Cmac.mac, Cmac.chain_blocks hlow hhigh]
  exact encryptBlock_eq hrk ((Cmac.length_xor (hlength.trans hwhole.symm)).trans hlength)

/-- Where there is a code, it has 16 bytes. -/
theorem length_aesCmacPure {key message code : Bytes} (h : aesCmacPure key message = some code) :
    code.length = 16 := by
  by_cases hkey : key.length = 16
  · rw [aesCmacPure_mac hkey message] at h
    cases h
    exact Cmac.length_chain (Aes.length_cipher key) _ _
  · unfold aesCmacPure at h
    rw [AES128.init, expandKey, dif_neg hkey] at h
    cases h

/-- For a key of 16 bytes, the cipher is AES-128 and the code is its CMAC, whatever the message. -/
theorem aesCmacPure_eq {key : Bytes} (hkey : key.length = 16) :
    (∀ block : Bytes, block.length = 16 → ∃ cipher, AES128.init key = some cipher ∧
      cipher.encryptBlock block = some (Aes.cipher key block)) ∧
    ∀ message, aesCmacPure key message = some (Cmac.mac (Aes.cipher key) message) := by
  obtain ⟨cipher, hinit, hrk⟩ := init_eq hkey
  exact ⟨fun block hblock => ⟨cipher, hinit, encryptBlock_eq hrk hblock⟩, aesCmacPure_mac hkey⟩

/-- The key that is all zero. -/
theorem aesCmacPure_zero :
    (List.replicate 16 (0 : UInt8)).length = 16 ∧
      ∀ message, aesCmacPure (List.replicate 16 0) message =
        some (Cmac.mac (Aes.cipher (List.replicate 16 0)) message) :=
  ⟨rfl, (aesCmacPure_eq rfl).2⟩

end Ps2Servers.Smb2
