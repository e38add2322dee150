import Ps2Servers.Lib.Effects
import Ps2Servers.Compression.Lz4

/-!
# The LZ4 decoder with 32-bit integers

In the router builds an `int` has 32 bits, and its arithmetic wraps around. The decoder is given
with the arithmetic as a parameter: what a machine makes of the exact result of an operation. The
machine of the builds wraps it around, and a checked one stops where the exact result is no `int`.
As long as nothing overflows, the two and the decoder with unbounded integers agree.

A length goes on for as many bytes as there are, so some lengths that stand in a block are no `int`.
They are all that overflows.
-/

namespace Ps2Servers.Compression.Word

open Lz4
open Effects (ok_bind bind_eq_ok)

inductive Fault
  | decode (e : DecodeError)
  /-- The exact result of an operation is no `int`. -/
  | overflow
  deriving DecidableEq, Repr

def Fault.failed (message : String) : Fault := .decode (.failed message)

def Fault.panic : Fault := .decode .panic

/-- What a machine makes of the exact result of an operation. -/
abbrev Arith := Int → Except Fault Int

/-- The 32-bit `int`. -/
def int32 : Arith := fun x => .ok (x.bmod 0x100000000)

def checked : Arith := fun x =>
  if -0x80000000 ≤ x ∧ x < 0x80000000 then .ok x else .error .overflow

/-- `bytes[i]`. -/
def get (bytes : Bytes) (i : Int) : Except Fault UInt8 :=
  if i < 0 then .error .panic
  else
    match bytes[i.toNat]? with
    | some b => .ok b
    | none => .error .panic

/-- `bytes[lo:hi]`. -/
def slice (bytes : Bytes) (lo hi : Int) : Except Fault Bytes :=
  if 0 ≤ lo ∧ lo ≤ hi ∧ hi ≤ bytes.length then .ok (bytes.sub lo.toNat (hi - lo).toNat)
  else .error .panic

section

variable (w : Arith)

/-- The loop of `readLen`. -/
def extendLen (src : Bytes) : Nat → Int → Int → Except Fault (Int × Int)
  | 0, _, _ => .error (.decode .noReturn)
  | fuel + 1, i, n =>
      if src.length ≤ i then .error (.failed "truncated length")
      else do
        let v ← get src i
        let i ← w (i + 1)
        let n ← w (n + v.toNat)
        if v.toNat ≠ 255 then .ok (n, i) else extendLen src fuel i n

/-- `readLen`: a length and the index behind it. -/
def readLen (src : Bytes) (i : Int) (base : Nat) : Except Fault (Int × Int) :=
  if base ≠ 15 then .ok (base, i) else extendLen w src (src.length + 1) i base

/-- The loop that copies a match byte by byte. -/
def copyMatch (start : Int) : Nat → Int → Bytes → Except Fault Bytes
  | 0, _, dst => .ok dst
  | count + 1, j, dst => do
      let k ← w (start + j)
      let b ← get dst k
      let j ← w (j + 1)
      copyMatch start count j (dst ++ [b])

/-- The match behind the literals: its offset, its length and its bytes. -/
def decodeMatch (src : Bytes) (dstSize : Int) (base : Nat) (i : Int) (dst : Bytes) :
    Except Fault (Bytes × Int) := do
  let behind ← w (i + 2)
  if src.length < behind then .error (.failed "truncated match offset")
  else do
    let low ← get src i
    let next ← w (i + 1)
    let high ← get src next
    let off := low.toNat ||| high.toNat <<< 8
    if off = 0 ∨ dst.length < off then .error (.failed "invalid match offset")
    else do
      let read ← readLen w src behind base
      let length ← w (read.1 + 4)
      let room ← w (dstSize - dst.length)
      if room < length then .error (.failed "match exceeds output")
      else do
        let start ← w (dst.length - off)
        let dst ← copyMatch w start length.toNat 0 dst
        .ok (dst, read.2)

def decodeLoop (src : Bytes) (dstSize : Int) : Nat → Int → Bytes → Except Fault Bytes
  | 0, _, _ => .error (.decode .noReturn)
  | fuel + 1, i, dst =>
      if src.length ≤ i then .ok dst
      else do
        let token ← get src i
        let i ← w (i + 1)
        let read ← readLen w src i (token.toNat >>> 4)
        let left ← w (src.length - read.2)
        let room ← w (dstSize - dst.length)
        if left < read.1 ∨ room < read.1 then .error (.failed "invalid literal length")
        else do
          let stop ← w (read.2 + read.1)
          let literals ← slice src read.2 stop
          if stop = src.length then .ok (dst ++ literals)
          else do
            let done ← decodeMatch w src dstSize (token.toNat &&& 0xf) stop (dst ++ literals)
            decodeLoop src dstSize fuel done.2 done.1

def decodeLZ4Block (src : Bytes) (dstSize : Int) : Except Fault Bytes :=
  if dstSize < 0 then .error (.failed "negative output size")
  else do
    let dst ← decodeLoop w src dstSize (src.length + 1) 0 []
    if (dst.length : Int) ≠ dstSize then
      .error (.failed
        ("decoded " ++ toString dst.length ++ " bytes, expected " ++ toString dstSize))
    else .ok dst

end

/-! ## The two machines -/

/-- A checked run that does not overflow is the run of the wrapping machine. -/
def Agrees {α : Type} (a b : Except Fault α) : Prop := a = .error .overflow ∨ a = b

section

variable {α β : Type}

theorem Agrees.refl (a : Except Fault α) : Agrees a a := .inr rfl

theorem agrees_word (x : Int) : Agrees (checked x) (int32 x) := by
  unfold checked int32
  split
  · rename_i h
    right
    rw [Int.bmod_eq_of_le (by omega) (by omega)]
  · exact .inl rfl

theorem Agrees.bind {a b : Except Fault α} {f g : α → Except Fault β} (h : Agrees a b)
    (hf : ∀ x, Agrees (f x) (g x)) : Agrees (a >>= f) (b >>= g) := by
  rcases h with rfl | rfl
  · exact .inl rfl
  · cases a with
    | error e => exact .inr rfl
    | ok x => exact hf x

theorem Agrees.ite {c : Prop} [Decidable c] {a b a' b' : Except Fault α} (h : Agrees a b)
    (h' : Agrees a' b') : Agrees (if c then a else a') (if c then b else b') := by
  split
  · exact h
  · exact h'

theorem agrees_extendLen (src : Bytes) (fuel : Nat) (i n : Int) :
    Agrees (extendLen checked src fuel i n) (extendLen int32 src fuel i n) := by
  induction fuel generalizing i n with
  | zero => exact .refl _
  | succ fuel ih =>
      unfold extendLen
      apply Agrees.ite (.refl _)
      apply Agrees.bind (.refl _)
      intro v
      apply Agrees.bind (agrees_word _)
      intro i
      apply Agrees.bind (agrees_word _)
      intro n
      exact Agrees.ite (.refl _) (ih i n)

theorem agrees_readLen (src : Bytes) (i : Int) (base : Nat) :
    Agrees (readLen checked src i base) (readLen int32 src i base) :=
  Agrees.ite (.refl _) (agrees_extendLen src _ i base)

theorem agrees_copyMatch (start : Int) (count : Nat) (j : Int) (dst : Bytes) :
    Agrees (copyMatch checked start count j dst) (copyMatch int32 start count j dst) := by
  induction count generalizing j dst with
  | zero => exact .refl _
  | succ count ih =>
      apply Agrees.bind (agrees_word _)
      intro k
      apply Agrees.bind (.refl _)
      intro b
      apply Agrees.bind (agrees_word _)
      intro j
      exact ih j _

theorem agrees_decodeMatch (src : Bytes) (dstSize : Int) (base : Nat) (i : Int) (dst : Bytes) :
    Agrees (decodeMatch checked src dstSize base i dst)
      (decodeMatch int32 src dstSize base i dst) := by
  apply Agrees.bind (agrees_word _)
  intro behind
  apply Agrees.ite (.refl _)
  apply Agrees.bind (.refl _)
  intro low
  apply Agrees.bind (agrees_word _)
  intro next
  apply Agrees.bind (.refl _)
  intro high
  apply Agrees.ite (.refl _)
  apply Agrees.bind (agrees_readLen src behind base)
  intro read
  apply Agrees.bind (agrees_word _)
  intro length
  apply Agrees.bind (agrees_word _)
  intro room
  apply Agrees.ite (.refl _)
  apply Agrees.bind (agrees_word _)
  intro start
  apply Agrees.bind (agrees_copyMatch start _ 0 dst)
  exact fun _ => .refl _

theorem agrees_decodeLoop (src : Bytes) (dstSize : Int) (fuel : Nat) (i : Int) (dst : Bytes) :
    Agrees (decodeLoop checked src dstSize fuel i dst)
      (decodeLoop int32 src dstSize fuel i dst) := by
  induction fuel generalizing i dst with
  | zero => exact .refl _
  | succ fuel ih =>
      unfold decodeLoop
      apply Agrees.ite (.refl _)
      apply Agrees.bind (.refl _)
      intro token
      apply Agrees.bind (agrees_word _)
      intro i
      apply Agrees.bind (agrees_readLen src i _)
      intro read
      apply Agrees.bind (agrees_word _)
      intro left
      apply Agrees.bind (agrees_word _)
      intro room
      apply Agrees.ite (.refl _)
      apply Agrees.bind (agrees_word _)
      intro stop
      apply Agrees.bind (.refl _)
      intro literals
      apply Agrees.ite (.refl _)
      apply Agrees.bind (agrees_decodeMatch src dstSize _ stop _)
      exact fun done => ih done.2 done.1

/-- As long as nothing overflows, wrapping around is not seen. -/
theorem agrees_decodeLZ4Block (src : Bytes) (dstSize : Int) :
    Agrees (decodeLZ4Block checked src dstSize) (decodeLZ4Block int32 src dstSize) := by
  apply Agrees.ite (.refl _)
  apply Agrees.bind (agrees_decodeLoop src dstSize _ 0 [])
  exact fun _ => Agrees.ite (.refl _) (.refl _)

end

/-! ## Lengths -/

/-- The bytes that a length goes on in, of which the first ones make it reach a limit. -/
def Overruns (limit n : Nat) (bytes : Bytes) : Prop :=
  ∃ (k : Nat) (v : UInt8), List.replicate k 255 ++ [v] <+: bytes ∧ limit ≤ n + 255 * k + v.toNat

theorem not_overruns_nil (limit n : Nat) : ¬ Overruns limit n [] := by
  rintro ⟨k, v, h, -⟩
  exact absurd (List.prefix_nil.mp h) (by simp)

theorem overruns_cons {limit n : Nat} {v : UInt8} {bytes : Bytes} :
    Overruns limit n (v :: bytes) ↔
      limit ≤ n + v.toNat ∨ v.toNat = 255 ∧ Overruns limit (n + v.toNat) bytes := by
  constructor
  · rintro ⟨k, u, h, hlimit⟩
    cases k with
    | zero =>
        obtain rfl : u = v := (List.cons_prefix_cons.mp h).1
        exact .inl (by omega)
    | succ k =>
        rw [List.replicate_succ, List.cons_append] at h
        obtain ⟨rfl, hrest⟩ := List.cons_prefix_cons.mp h
        exact .inr ⟨rfl, k, u, hrest, by simp; omega⟩
  · rintro (h | ⟨hv, k, u, h, hlimit⟩)
    · exact ⟨0, v, by simp, by omega⟩
    · obtain rfl : v = 255 := UInt8.toNat_inj.mp hv
      refine ⟨k + 1, u, ?_, by omega⟩
      rw [List.replicate_succ, List.cons_append]
      exact List.cons_prefix_cons.mpr ⟨rfl, h⟩

theorem checked_nat {n : Nat} (h : n < 0x80000000) : checked (n : Int) = .ok (n : Int) :=
  if_pos ⟨by omega, by omega⟩

theorem get_nat {bytes : Bytes} {i : Nat} {b : UInt8} (h : bytes[i]? = some b) :
    get bytes (i : Int) = .ok b := by
  rw [get, if_neg (by omega), Int.toNat_natCast, h]

/-- What is read with unbounded integers, as an `int`. -/
def ofNats (r : Except DecodeError (Nat × Nat)) : Except Fault (Int × Int) :=
  match r with
  | .ok (n, i) => .ok (n, i)
  | .error e => .error (.decode e)

/-- The loop overflows where the length reaches the limit, and else reads it. -/
theorem extendLen_checked {src : Bytes} (hsrc : src.length < 0x7fffffff) {fuel i n : Nat}
    (hn : n < 0x80000000) (hfuel : src.length < fuel + i) :
    (Overruns 0x80000000 n (src.drop i) →
      extendLen checked src fuel i n = .error .overflow) ∧
    (¬ Overruns 0x80000000 n (src.drop i) →
      extendLen checked src fuel i n = ofNats (Compression.extendLen src fuel i n)) := by
  induction fuel generalizing i n with
  | zero =>
      rw [List.drop_eq_nil_of_le (by omega)]
      exact ⟨fun h => absurd h (not_overruns_nil _ _), fun _ => rfl⟩
  | succ fuel ih =>
      rcases Nat.lt_or_ge i src.length with hlt | hge
      · have hbyte : src[i]? = some src[i] := List.getElem?_eq_getElem hlt
        have hdrop : src.drop i = src[i] :: src.drop (i + 1) := List.drop_eq_getElem_cons hlt
        have hi : checked ((i : Int) + 1) = .ok ((i + 1 : Nat) : Int) :=
          @checked_nat (i + 1) (by omega)
        have hstep : extendLen checked src (fuel + 1) i n =
            checked ((n + src[i].toNat : Nat) : Int) >>= fun n =>
              if src[i].toNat ≠ 255 then .ok (n, ((i + 1 : Nat) : Int))
              else extendLen checked src fuel ((i + 1 : Nat) : Int) n := by
          rw [extendLen, if_neg (by omega), get_nat hbyte, ok_bind, hi, ok_bind]
          rfl
        rw [hdrop, overruns_cons, hstep, Compression.extendLen, if_neg (by omega), hbyte]
        dsimp only
        by_cases hover : 0x80000000 ≤ n + src[i].toNat
        · refine ⟨fun _ => ?_, fun h => absurd (.inl hover) h⟩
          rw [checked, if_neg (by omega)]
          rfl
        · rw [checked_nat (by omega)]
          change (_ → (if _ then _ else _) = _) ∧ (_ → (if _ then _ else _) = _)
          by_cases hv : src[i].toNat = 255
          · rw [if_neg (not_not.mpr hv), if_neg (not_not.mpr hv)]
            obtain ⟨hlong, hshort⟩ := @ih (i + 1) (n + src[i].toNat) (by omega) (by omega)
            exact ⟨fun h => hlong (h.resolve_left hover).2, fun h => hshort fun h' => h (.inr ⟨hv, h'⟩)⟩
          · rw [if_pos hv, if_pos hv]
            exact ⟨fun h => absurd (h.resolve_left hover).1 hv, fun _ => rfl⟩
      · rw [List.drop_eq_nil_of_le hge, extendLen, if_pos (by omega), Compression.extendLen,
          if_pos hge]
        exact ⟨fun h => absurd h (not_overruns_nil _ _), fun _ => rfl⟩

theorem readLen_checked {src : Bytes} (hsrc : src.length < 0x7fffffff) {i base : Nat}
    (hbase : base ≤ 15) :
    (base = 15 ∧ Overruns 0x80000000 15 (src.drop i) →
      readLen checked src i base = .error .overflow) ∧
    (¬ (base = 15 ∧ Overruns 0x80000000 15 (src.drop i)) →
      readLen checked src i base = ofNats (Compression.readLen src i base)) := by
  unfold readLen Compression.readLen
  by_cases h : base = 15
  · subst h
    rw [if_neg (not_not.mpr rfl), if_neg (not_not.mpr rfl)]
    obtain ⟨hlong, hshort⟩ := @extendLen_checked src hsrc (src.length + 1) i 15 (by omega) (by omega)
    exact ⟨fun h => hlong h.2, fun h => hshort fun h' => h ⟨rfl, h'⟩⟩
  · rw [if_pos h, if_pos h]
    exact ⟨fun h' => absurd h'.1 h, fun _ => rfl⟩

/-- A length that stands in the input is read, or it is no `int`. -/
theorem readLen_extension {src : Bytes} (hsrc : src.length < 0x7fffffff) {i base n : Nat}
    (hhalf : half n = base) (hextension : At src i (extension n)) :
    readLen checked src i base = .error .overflow ∨
      readLen checked src i base = ofNats (.ok (n, i + (extension n).length)) := by
  have hbase : base ≤ 15 := hhalf ▸ half_le n
  obtain ⟨hover, hread⟩ := @readLen_checked src hsrc i base hbase
  rw [(Compression.readLen_ok hbase).mpr ⟨hhalf, hextension, rfl⟩] at hread
  by_cases h : base = 15 ∧ Overruns 0x80000000 15 (src.drop i)
  · exact .inl (hover h)
  · exact .inr (hread h)

/-- A length that stands in the input reaches every limit up to it. -/
theorem overruns_of_extension {bytes : Bytes} {limit n : Nat} (h : extension n <+: bytes)
    (hn : 15 ≤ n) (hlimit : limit ≤ n) : Overruns limit 15 bytes := by
  rw [extension_of_le hn] at h
  have hmod : (n - 15) % 255 < 255 := Nat.mod_lt _ (by decide)
  have hdiv := Nat.div_add_mod (n - 15) 255
  refine ⟨(n - 15) / 255, _, h, ?_⟩
  rw [UInt8.toNat_ofNat', Nat.mod_eq_of_lt (by omega)]
  omega

/-- A length near the limit either reaches it or stands in the input. -/
theorem Overruns.near {bytes : Bytes} (h : Overruns 0x7ffffffc 15 bytes) :
    Overruns 0x80000000 15 bytes ∨
      ∃ n, 0x7ffffffc ≤ n ∧ n < 0x80000000 ∧ extension n <+: bytes := by
  obtain ⟨k, v, hat, hlimit⟩ := h
  have hv := v.toNat_lt
  by_cases hover : 0x80000000 ≤ 15 + 255 * k + v.toNat
  · exact .inl ⟨k, v, hat, hover⟩
  · refine .inr ⟨15 + 255 * k + v.toNat, hlimit, by omega, ?_⟩
    have hsub : 15 + 255 * k + v.toNat - 15 = 255 * k + v.toNat := by omega
    have hshort : v.toNat < 255 := by omega
    rw [extension_of_le (by omega), hsub, Nat.mul_add_div (by decide), Nat.mul_add_mod,
      Nat.div_eq_of_lt hshort, Nat.mod_eq_of_lt hshort, Nat.add_zero, UInt8.ofNat_toNat]
    exact hat

/-! ## Matches -/

theorem checked_int {x : Int} (hlow : -0x80000000 ≤ x) (hhigh : x < 0x80000000) :
    checked x = .ok x := if_pos ⟨hlow, hhigh⟩

theorem copyMatch_checked {start count j : Nat} {dst : Bytes}
    (h : start + j + count < 0x7fffffff) :
    copyMatch checked start count j dst =
      (Compression.copyMatch start count j dst).mapError .decode := by
  induction count generalizing j dst with
  | zero => rfl
  | succ count ih =>
      have hk : checked ((start : Int) + j) = .ok ((start + j : Nat) : Int) :=
        @checked_nat (start + j) (by omega)
      have hj : checked ((j : Int) + 1) = .ok ((j + 1 : Nat) : Int) :=
        @checked_nat (j + 1) (by omega)
      rw [copyMatch, hk, ok_bind, Compression.copyMatch, get, if_neg (by omega), Int.toNat_natCast]
      cases hb : dst[start + j]? with
      | none => rfl
      | some b =>
          dsimp only
          rw [ok_bind, hj, ok_bind]
          exact ih (by omega)

def ofMatch (r : Except DecodeError (Bytes × Nat)) : Except Fault (Bytes × Int) :=
  match r with
  | .ok (dst, i) => .ok (dst, i)
  | .error e => .error (.decode e)

/-- The length of the match at an index is no `int`, or is none with the 4 that are added to it. -/
def LongMatch (src : Bytes) (base i : Nat) (dst : Bytes) : Prop :=
  base = 15 ∧ ∃ offset < 0x10000, At src i (Bytes.ofNat 2 offset) ∧
    (1 ≤ offset ∧ offset ≤ dst.length) ∧ Overruns 0x7ffffffc 15 (src.drop (i + 2))

theorem decodeMatch_checked {src : Bytes} (hsrc : src.length < 0x7ffffff0) {dstSize : Int}
    {base i : Nat} {dst : Bytes} (hbase : base ≤ 15) (hi : i ≤ src.length)
    (hsize : dstSize < 0x7ffffff0) (hdst : (dst.length : Int) ≤ dstSize) :
    (LongMatch src base i dst → decodeMatch checked src dstSize base i dst = .error .overflow) ∧
    (¬ LongMatch src base i dst → decodeMatch checked src dstSize base i dst =
      ofMatch (Compression.decodeMatch src dstSize base i dst)) := by
  have hbehind : checked ((i : Int) + 2) = .ok ((i + 2 : Nat) : Int) :=
    @checked_nat (i + 2) (by omega)
  have hnext : checked ((i : Int) + 1) = .ok ((i + 1 : Nat) : Int) :=
    @checked_nat (i + 1) (by omega)
  rw [decodeMatch, hbehind, ok_bind, Compression.decodeMatch]
  by_cases hend : src.length < i + 2
  · rw [if_pos (by omega), if_pos hend]
    refine ⟨?_, fun _ => rfl⟩
    rintro ⟨-, offset, -, hat, -⟩
    have hle := hat.le hi
    rw [Bytes.length_ofNat] at hle
    omega
  · have hlow : src[i]? = some src[i] := List.getElem?_eq_getElem (by omega)
    have hhigh : src[i + 1]? = some src[i + 1] := List.getElem?_eq_getElem (by omega)
    have hoffset {offset : Nat} (hlt : offset < 0x10000) : At src i (Bytes.ofNat 2 offset) ↔
        offset = (src[i].toNat ||| src[i + 1].toNat <<< 8) := at_offset hlow hhigh hlt
    have hoff16 : (src[i].toNat ||| src[i + 1].toNat <<< 8) < 0x10000 :=
      @Nat.or_lt_two_pow _ _ 16 (Nat.lt_trans src[i].toNat_lt (by decide))
        (by rw [Nat.shiftLeft_eq]; have := src[i + 1].toNat_lt; omega)
    have hlong : LongMatch src base i dst ↔ base = 15 ∧
        (1 ≤ (src[i].toNat ||| src[i + 1].toNat <<< 8) ∧
          (src[i].toNat ||| src[i + 1].toNat <<< 8) ≤ dst.length) ∧
        Overruns 0x7ffffffc 15 (src.drop (i + 2)) := by
      constructor
      · rintro ⟨hb, offset, hlt, hat, hvalid, hover⟩
        rw [(hoffset hlt).mp hat] at hvalid
        exact ⟨hb, hvalid, hover⟩
      · rintro ⟨hb, hvalid, hover⟩
        exact ⟨hb, _, hoff16, (hoffset hoff16).mpr rfl, hvalid, hover⟩
    rw [hlong, if_neg (by omega), if_neg hend, get_nat hlow, ok_bind, hnext, ok_bind, get_nat hhigh,
      ok_bind, hlow, hhigh]
    dsimp only
    generalize (src[i].toNat ||| src[i + 1].toNat <<< 8) = off at hoff16 ⊢
    by_cases hoff : off = 0 ∨ dst.length < off
    · rw [if_pos hoff, if_pos hoff]
      refine ⟨fun h => ?_, fun _ => rfl⟩
      have := h.2.1
      omega
    · rw [if_neg hoff, if_neg hoff]
      have hvalid : 1 ≤ off ∧ off ≤ dst.length := by omega
      obtain ⟨hover, hread⟩ := @readLen_checked src (by omega) (i + 2) base hbase
      by_cases hreach : base = 15 ∧ Overruns 0x80000000 15 (src.drop (i + 2))
      · refine ⟨fun _ => by rw [hover hreach]; rfl, fun h => absurd ⟨hreach.1, hvalid, ?_⟩ h⟩
        obtain ⟨-, k, v, hat, hlimit⟩ := hreach
        exact ⟨k, v, hat, by omega⟩
      · rw [hread hreach]
        constructor
        · rintro ⟨rfl, -, hnear⟩
          rcases hnear.near with hover' | ⟨n, hlow', hhigh', hat⟩
          · exact absurd ⟨rfl, hover'⟩ hreach
          · have hhalf : half n = 15 := Nat.min_eq_right (by omega)
            rw [(Compression.readLen_ok (Nat.le_refl 15)).mpr ⟨hhalf, hat, rfl⟩]
            have hbig : checked ((n : Int) + 4) = .error .overflow := if_neg (by omega)
            dsimp only [ofNats]
            rw [ok_bind, hbig]
            rfl
        · intro hshort
          cases hlen : Compression.readLen src (i + 2) base with
          | error e => rfl
          | ok p =>
              obtain ⟨n, next⟩ := p
              obtain ⟨hhalf, hat, -⟩ := (Compression.readLen_ok hbase).mp hlen
              have hn : n < 0x7ffffffc := by
                by_contra hge
                have hb : base = 15 := by
                  rw [← hhalf]
                  exact Nat.min_eq_right (by omega)
                exact hshort ⟨hb, hvalid, overruns_of_extension hat (by omega) (by omega)⟩
              have hlength : checked ((n : Int) + 4) = .ok ((n + 4 : Nat) : Int) :=
                @checked_nat (n + 4) (by omega)
              have hroom : checked (dstSize - dst.length) = .ok (dstSize - dst.length) :=
                checked_int (by omega) (by omega)
              have hstart : checked ((dst.length : Int) - off) = .ok ((dst.length - off : Nat) : Int) := by
                rw [← Int.natCast_sub hvalid.2]
                exact checked_nat (by omega)
              dsimp only [ofNats]
              rw [ok_bind, hlength, ok_bind, hroom, ok_bind]
              by_cases hfits : dstSize - dst.length < ((n + 4 : Nat) : Int)
              · rw [if_pos hfits, if_pos hfits]
                rfl
              · have hcopy : copyMatch checked ((dst.length - off : Nat) : Int) (n + 4) 0 dst =
                    (Compression.copyMatch (dst.length - off) (n + 4) 0 dst).mapError .decode :=
                  @copyMatch_checked (dst.length - off) (n + 4) 0 dst (by omega)
                rw [if_neg hfits, if_neg hfits, hstart, ok_bind, Int.toNat_natCast, hcopy]
                cases Compression.copyMatch (dst.length - off) (n + 4) 0 dst with
                | error e => rfl
                | ok out => rfl

/-! ## Blocks -/

/-- Decoding comes to a length in the block that is no `int`. -/
inductive Long (src : Bytes) (dstSize : Int) : Nat → Bytes → Prop
  | literals {i : Nat} {dst : Bytes} {t : UInt8} (ht : src[i]? = some t)
      (hhalf : t.toNat >>> 4 = 15) (hover : Overruns 0x80000000 15 (src.drop (i + 1))) :
      Long src dstSize i dst
  | match_ {i j : Nat} {dst literals : Bytes} {t : UInt8} (ht : src[i]? = some t)
      (hhalf : half literals.length = t.toNat >>> 4)
      (hat : At src (i + 1) (extension literals.length ++ literals))
      (hj : j = i + 1 + (extension literals.length ++ literals).length)
      (hfits : ((dst ++ literals).length : Int) ≤ dstSize)
      (hlong : LongMatch src (t.toNat &&& 0xf) j (dst ++ literals)) : Long src dstSize i dst
  | next {i : Nat} {dst dst' : Bytes} {s : Sequence} (hat : At src i s.encode)
      (hexpand : s.expand dst = some dst') (hfits : (dst'.length : Int) ≤ dstSize)
      (hlong : Long src dstSize (i + s.encode.length) dst') : Long src dstSize i dst

theorem slice_nat {bytes : Bytes} {i n : Nat} (h : i + n ≤ bytes.length) :
    slice bytes (i : Int) ((i + n : Nat) : Int) = .ok (bytes.sub i n) := by
  rw [slice, if_pos ⟨by omega, by omega, by omega⟩, Int.toNat_natCast]
  congr 2
  omega

/-- One round of the checked loop, where the literals are no problem. -/
theorem decodeLoop_literals {src : Bytes} (hsrc : src.length < 0x7ffffff0) {dstSize : Int}
    {fuel i lit next : Nat} {dst : Bytes} {t : UInt8} (ht : src[i]? = some t)
    (hsize : dstSize < 0x7ffffff0) (hdst : (dst.length : Int) ≤ dstSize)
    (hread : readLen checked src ((i + 1 : Nat) : Int) (t.toNat >>> 4) = .ok (lit, next))
    (hnext : next ≤ src.length) :
    decodeLoop checked src dstSize (fuel + 1) i dst =
      if (src.length : Int) - next < lit ∨ dstSize - dst.length < lit then
        .error (.failed "invalid literal length")
      else if next + lit = src.length then .ok (dst ++ src.sub next lit)
      else
        decodeMatch checked src dstSize (t.toNat &&& 0xf) ((next + lit : Nat) : Int)
          (dst ++ src.sub next lit) >>= fun done =>
            decodeLoop checked src dstSize fuel done.2 done.1 := by
  have hi : i < src.length := (List.getElem?_eq_some_iff.mp ht).1
  have hbehind : checked ((i : Int) + 1) = .ok ((i + 1 : Nat) : Int) :=
    @checked_nat (i + 1) (by omega)
  have hleft : checked ((src.length : Int) - next) = .ok (src.length - next) :=
    checked_int (by omega) (by omega)
  have hroom : checked (dstSize - dst.length) = .ok (dstSize - dst.length) :=
    checked_int (by omega) (by omega)
  rw [decodeLoop, if_neg (by omega), get_nat ht, ok_bind, hbehind, ok_bind, hread, ok_bind]
  dsimp only
  rw [hleft, ok_bind, hroom, ok_bind]
  by_cases hfits : (src.length : Int) - next < lit ∨ dstSize - dst.length < lit
  · rw [if_pos hfits, if_pos hfits]
  · have hstop : checked ((next : Int) + lit) = .ok ((next + lit : Nat) : Int) :=
      @checked_nat (next + lit) (by omega)
    rw [if_neg hfits, if_neg hfits, hstop, ok_bind, slice_nat (by omega), ok_bind]
    by_cases hend : next + lit = src.length
    · rw [if_pos hend, if_pos (by omega)]
    · rw [if_neg hend, if_neg (by omega)]

/-- What is a sequence where its literals and its match have been read. -/
theorem at_sequence_of {src : Bytes} {i lit offset length : Nat} {t : UInt8}
    (ht : src[i]? = some t) (hhalf : half lit = t.toNat >>> 4)
    (hextension : At src (i + 1) (extension lit))
    (hlit : i + 1 + (extension lit).length + lit ≤ src.length) (hoffset : offset < 0x10000)
    (hhalf' : half length = t.toNat &&& 0xf)
    (hat : At src (i + 1 + (extension lit).length + lit)
      (Bytes.ofNat 2 offset ++ extension length)) :
    ∃ s : Sequence, At src i s.encode ∧ s.literals = src.sub (i + 1 + (extension lit).length) lit ∧
      s.offset = offset ∧ s.matchLength = length + 4 ∧
      i + s.encode.length = i + 1 + (extension lit).length + lit + 2 + (extension length).length := by
  have hlength : (src.sub (i + 1 + (extension lit).length) lit).length = lit := by
    rw [Bytes.sub, List.length_take, List.length_drop]
    omega
  let s : Sequence := ⟨src.sub (i + 1 + (extension lit).length) lit, offset, length + 4, hoffset,
    Nat.le_add_left _ _⟩
  refine ⟨s, ?_, rfl, rfl, rfl, ?_⟩
  · rw [at_sequence ht, hlength]
    exact ⟨⟨hhalf, hextension, at_sub src _ lit⟩, hhalf', hat⟩
  · rw [s.encode_length, hlength, Nat.add_sub_cancel]
    omega

/-- Where decoding comes to no length but an `int`, the checked loop does what the loop with
unbounded integers does. -/
theorem decodeLoop_checked {src : Bytes} (hsrc : src.length < 0x7ffffff0) {dstSize : Int}
    (hsize : dstSize < 0x7ffffff0) {fuel i : Nat} {dst : Bytes}
    (h : ¬ Long src dstSize i dst) (hdst : (dst.length : Int) ≤ dstSize) (hi : i ≤ src.length)
    (hfuel : src.length < fuel + i) :
    decodeLoop checked src dstSize fuel i dst =
      (Compression.decodeLoop src dstSize fuel i dst).mapError .decode := by
  induction fuel generalizing i dst with
  | zero => omega
  | succ fuel ih =>
      rcases Nat.lt_or_ge i src.length with hlt | hge
      · have ht : src[i]? = some src[i] := List.getElem?_eq_getElem hlt
        have hhigh : src[i].toNat >>> 4 ≤ 15 := by
          have := src[i].toNat_lt
          rw [shiftRight_four]
          omega
        have hlow : src[i].toNat &&& 0xf ≤ 15 := Nat.and_le_right
        have hread := (@readLen_checked src (by omega) (i + 1) _ hhigh).2
          fun h' => h (.literals ht h'.1 h'.2)
        rw [Compression.decodeLoop, if_neg (Nat.not_le_of_lt hlt), ht]
        dsimp only
        cases hlen : Compression.readLen src (i + 1) (src[i].toNat >>> 4) with
        | error e =>
            have hbehind : checked ((i : Int) + 1) = .ok ((i + 1 : Nat) : Int) :=
              @checked_nat (i + 1) (by omega)
            rw [decodeLoop, if_neg (by omega), get_nat ht, ok_bind, hbehind, ok_bind, hread, hlen]
            rfl
        | ok p =>
            obtain ⟨lit, next⟩ := p
            rw [hlen] at hread
            obtain ⟨hhalf, hextension, hnext⟩ := (Compression.readLen_ok hhigh).mp hlen
            have hle : next ≤ src.length := hnext ▸ hextension.le hlt
            rw [decodeLoop_literals hsrc ht hsize hdst hread hle]
            dsimp only
            by_cases hfits : (src.length : Int) - next < lit ∨ dstSize - dst.length < lit
            · rw [if_pos hfits, if_pos hfits]
              rfl
            · have hin : ¬ src.length < next + lit := by omega
              rw [if_neg hfits, if_neg hfits, if_neg hin]
              by_cases hend : next + lit = src.length
              · rw [if_pos hend, if_pos hend]
                rfl
              · have hlength : (src.sub next lit).length = lit := by
                  rw [Bytes.sub, List.length_take, List.length_drop]
                  omega
                have hbytes : ((dst ++ src.sub next lit).length : Int) ≤ dstSize := by
                  rw [List.length_append, hlength]
                  omega
                have hmatch := (@decodeMatch_checked src hsrc dstSize _ (next + lit)
                  (dst ++ src.sub next lit) hlow (by omega) hsize hbytes).2 fun hlong => h
                    (@Long.match_ src dstSize i (next + lit) dst (src.sub next lit) _ ht
                      (by rw [hlength]; exact hhalf)
                      (by rw [hlength, at_append, ← hnext]; exact ⟨hextension, at_sub src _ lit⟩)
                      (by rw [List.length_append, hlength, hnext]; omega) hbytes hlong)
                rw [if_neg hend, if_neg hend, hmatch]
                cases hnat : Compression.decodeMatch src dstSize (src[i].toNat &&& 0xf) (next + lit)
                    (dst ++ src.sub next lit) with
                | error e => rfl
                | ok p =>
                    obtain ⟨dst', j⟩ := p
                    obtain ⟨offset, length, hoffset, hhalf', hat, hj, hvalid, hsize', hout⟩ :=
                      (Compression.decodeMatch_ok hlow (by omega)).mp hnat
                    obtain ⟨s, hs, hliterals, hsoffset, hsmatch, hslength⟩ :=
                      at_sequence_of ht hhalf hextension (by omega) hoffset hhalf' (hnext ▸ hat)
                    have hj' : j = i + s.encode.length := by omega
                    have hexpand : s.expand dst = some dst' := by
                      rw [Sequence.expand, hliterals, hsoffset, hsmatch, ← hnext, hout]
                      exact if_pos hvalid
                    have hjle := hat.le (by omega)
                    rw [List.length_append, Bytes.length_ofNat] at hjle
                    exact ih (fun hlong => h (.next hs hexpand hsize' (hj' ▸ hlong))) hsize'
                      (by omega) (by omega)
      · rw [decodeLoop, if_pos (by omega), Compression.decodeLoop, if_pos hge]
        rfl

/-- Literals whose number is no `int`. -/
theorem decodeLoop_overflow {src : Bytes} (hsrc : src.length < 0x7ffffff0) {dstSize : Int}
    {fuel i : Nat} {dst : Bytes} {t : UInt8} (ht : src[i]? = some t)
    (hover : readLen checked src ((i + 1 : Nat) : Int) (t.toNat >>> 4) = .error .overflow) :
    decodeLoop checked src dstSize (fuel + 1) i dst = .error .overflow := by
  have hi : i < src.length := (List.getElem?_eq_some_iff.mp ht).1
  have hbehind : checked ((i : Int) + 1) = .ok ((i + 1 : Nat) : Int) :=
    @checked_nat (i + 1) (by omega)
  rw [decodeLoop, if_neg (by omega), get_nat ht, ok_bind, hbehind, ok_bind, hover]
  rfl

/-- Where decoding comes to a length that is no `int`, the checked loop overflows. -/
theorem Long.overflow {src : Bytes} (hsrc : src.length < 0x7ffffff0) {dstSize : Int}
    (hsize : dstSize < 0x7ffffff0) {i : Nat} {dst : Bytes} (h : Long src dstSize i dst)
    (hdst : (dst.length : Int) ≤ dstSize) {fuel : Nat} (hfuel : src.length < fuel + i) :
    decodeLoop checked src dstSize fuel i dst = .error .overflow := by
  induction h generalizing fuel with
  | @literals i dst t ht hhalf hover =>
      obtain ⟨hi, -⟩ := List.getElem?_eq_some_iff.mp ht
      obtain ⟨fuel, rfl⟩ : ∃ n, fuel = n + 1 := ⟨fuel - 1, by omega⟩
      exact decodeLoop_overflow hsrc ht
        ((@readLen_checked src (by omega) (i + 1) _ (by omega)).1 ⟨hhalf, hover⟩)
  | @match_ i j dst literals t ht hhalf hat hj hfits hlong =>
      obtain ⟨hi, -⟩ := List.getElem?_eq_some_iff.mp ht
      obtain ⟨fuel, rfl⟩ : ∃ n, fuel = n + 1 := ⟨fuel - 1, by omega⟩
      obtain ⟨hextension, hliterals⟩ := at_append.mp hat
      rcases readLen_extension (by omega) hhalf hextension with hover | hread
      · exact decodeLoop_overflow hsrc ht hover
      · have hle := hextension.le hi
        have hle' := hliterals.le hle
        have hlen : i + 1 + (extension literals.length).length + literals.length = j := by
          rw [hj, List.length_append]
          omega
        have hmatch := (@decodeMatch_checked src hsrc dstSize _ j (dst ++ literals)
          Nat.and_le_right (by omega) hsize hfits).1 hlong
        obtain ⟨-, offset, -, hoffset, -⟩ := hlong
        have hbehind := hoffset.le (by omega)
        rw [Bytes.length_ofNat] at hbehind
        rw [List.length_append] at hfits
        have hfits' : ¬ ((src.length : Int) - (i + 1 + (extension literals.length).length : Nat) <
            literals.length ∨ dstSize - dst.length < literals.length) := by omega
        rw [decodeLoop_literals hsrc ht hsize hdst hread (by omega), if_neg hfits',
          if_neg (by omega), hliterals.eq_sub, hlen, hmatch]
        rfl
  | @next i dst dst' s hat hexpand hfits hlong ih =>
      have ht : src[i]? = some (token (half s.literals.length) (half (s.matchLength - 4))) := by
        have hat' := hat
        rw [Sequence.encode, List.append_assoc, List.append_assoc, List.cons_append] at hat'
        exact (at_cons.mp hat').1
      generalize token (half s.literals.length) (half (s.matchLength - 4)) = t at ht
      obtain ⟨hi, -⟩ := List.getElem?_eq_some_iff.mp ht
      obtain ⟨fuel, rfl⟩ : ∃ n, fuel = n + 1 := ⟨fuel - 1, by omega⟩
      obtain ⟨⟨hhalf, hextension, hliterals⟩, hhalf', hmatch⟩ := (at_sequence ht s).mp hat
      have hlow : t.toNat &&& 0xf ≤ 15 := Nat.and_le_right
      rcases readLen_extension (by omega) hhalf hextension with hover | hread
      · exact decodeLoop_overflow hsrc ht hover
      · have hle := hextension.le hi
        have hle' := hliterals.le hle
        have hbehind := hmatch.le hle'
        rw [List.length_append, Bytes.length_ofNat] at hbehind
        rw [Sequence.expand] at hexpand
        split at hexpand
        case isFalse => cases hexpand
        case isTrue hvalid =>
          have hout := (Option.some.inj hexpand).symm
          have hbytes : ((dst ++ s.literals).length : Int) ≤ dstSize := by
            rw [hout, List.length_append] at hfits
            omega
          have hroom := hbytes
          rw [List.length_append] at hroom
          have hfits' : ¬ ((src.length : Int) - (i + 1 + (extension s.literals.length).length : Nat) <
              s.literals.length ∨ dstSize - dst.length < s.literals.length) := by omega
          have hchecked := @decodeMatch_checked src hsrc dstSize _
            (i + 1 + (extension s.literals.length).length + s.literals.length)
            (dst ++ s.literals) hlow hle' hsize hbytes
          rw [decodeLoop_literals hsrc ht hsize hdst hread hle, if_neg hfits', if_neg (by omega),
            hliterals.eq_sub]
          by_cases hlong' : LongMatch src (t.toNat &&& 0xf)
            (i + 1 + (extension s.literals.length).length + s.literals.length) (dst ++ s.literals)
          · rw [hchecked.1 hlong']
            rfl
          · have hdecoded := (Compression.decodeMatch_ok hlow hle').mpr
              ⟨s.offset, s.matchLength - 4, s.offset_lt, hhalf', hmatch, rfl, hvalid, hfits,
                by rw [Nat.sub_add_cancel s.le_matchLength, hout]⟩
            rw [hchecked.2 hlong', hdecoded]
            have hnext : i + s.encode.length = i + 1 + (extension s.literals.length).length +
                s.literals.length + 2 + (extension (s.matchLength - 4)).length := by
              rw [s.encode_length]
              omega
            rw [← hnext]
            exact ih hfits (by rw [s.encode_length]; omega)

/-- Decoding the block comes to a length that is no `int`. -/
def LongBlock (src : Bytes) (dstSize : Int) : Prop := 0 ≤ dstSize ∧ Long src dstSize 0 []

theorem decodeLZ4Block_checked {src : Bytes} (hsrc : src.length < 0x7ffffff0) {dstSize : Int}
    (hsize : dstSize < 0x7ffffff0) :
    (LongBlock src dstSize → decodeLZ4Block checked src dstSize = .error .overflow) ∧
    (¬ LongBlock src dstSize → decodeLZ4Block checked src dstSize =
      (Compression.decodeLZ4Block src dstSize).mapError .decode) := by
  unfold decodeLZ4Block Compression.decodeLZ4Block
  by_cases hneg : dstSize < 0
  · rw [if_pos hneg, if_pos hneg]
    exact ⟨fun h => absurd h.1 (Int.not_le_of_gt hneg), fun _ => rfl⟩
  · rw [if_neg hneg, if_neg hneg]
    constructor
    · rintro ⟨-, h⟩
      have hloop := h.overflow hsrc hsize (Int.not_lt.mp hneg) (Nat.lt_succ_self src.length)
      rw [show decodeLoop checked src dstSize (src.length + 1) 0 [] = _ from hloop]
      rfl
    · intro h
      have hloop := decodeLoop_checked hsrc hsize (fun hlong => h ⟨Int.not_lt.mp hneg, hlong⟩)
        (Int.not_lt.mp hneg) (Nat.zero_le _) (Nat.lt_succ_self src.length)
      rw [show decodeLoop checked src dstSize (src.length + 1) 0 [] = _ from hloop]
      cases Compression.decodeLoop src dstSize (src.length + 1) 0 [] with
      | error e => rfl
      | ok dst =>
          change (if _ then _ else _) = Except.mapError _ (if _ then _ else _)
          split
          · rfl
          · rfl

/-! ## What a machine computes -/

/-- Nothing overflows, and no index or slice is out of range. -/
def Sound (src : Bytes) (dstSize : Int) : Prop :=
  decodeLZ4Block checked src dstSize ≠ .error .overflow ∧
    decodeLZ4Block checked src dstSize ≠ .error .panic

/-- The stored bytes of a block that the image reader admits, in an image with blocks of so many
bytes. -/
structure Admitted (blockSize : Nat) (src : Bytes) (dstSize : Int) : Prop where
  blockSize_le : blockSize ≤ 16777216
  length_le : src.length ≤ blockSize * 2 + 4096
  dstSize_le : dstSize ≤ blockSize

theorem Admitted.length_lt {blockSize : Nat} {src : Bytes} {dstSize : Int}
    (h : Admitted blockSize src dstSize) : src.length < 0x7ffffff0 := by
  have := h.blockSize_le
  have := h.length_le
  omega

theorem Admitted.dstSize_lt {blockSize : Nat} {src : Bytes} {dstSize : Int}
    (h : Admitted blockSize src dstSize) : dstSize < 0x7ffffff0 := by
  have := h.blockSize_le
  have := h.dstSize_le
  omega

/-- A sound run is the run of the machine of the builds, and decodes the block. -/
theorem Sound.int32_eq {blockSize : Nat} {src : Bytes} {dstSize : Int}
    (hadmitted : Admitted blockSize src dstSize) (h : Sound src dstSize) :
    decodeLZ4Block int32 src dstSize =
      (Compression.decodeLZ4Block src dstSize).mapError .decode := by
  obtain ⟨hlong, hshort⟩ := decodeLZ4Block_checked hadmitted.length_lt hadmitted.dstSize_lt
  rw [← (agrees_decodeLZ4Block src dstSize).resolve_left h.1]
  exact hshort fun hover => h.1 (hlong hover)

theorem sound_iff_not_longBlock {blockSize : Nat} {src : Bytes} {dstSize : Int}
    (h : Admitted blockSize src dstSize) : Sound src dstSize ↔ ¬ LongBlock src dstSize := by
  obtain ⟨hlong, hshort⟩ := decodeLZ4Block_checked h.length_lt h.dstSize_lt
  constructor
  · exact fun hsound hover => hsound.1 (hlong hover)
  · intro hno
    rw [Sound, hshort hno]
    cases hdecode : Compression.decodeLZ4Block src dstSize with
    | ok out => exact ⟨nofun, nofun⟩
    | error e =>
        obtain ⟨message, rfl⟩ := decodeLZ4Block_returns src dstSize e hdecode
        exact ⟨nofun, nofun⟩

/-- What a decoder returns has the size. -/
theorem length_of_decodeLZ4Block {w : Arith} {src block : Bytes} {dstSize : Int}
    (h : decodeLZ4Block w src dstSize = .ok block) : (block.length : Int) = dstSize := by
  unfold decodeLZ4Block at h
  split at h
  · cases h
  · obtain ⟨dst, -, hdst⟩ := bind_eq_ok.mp h
    split at hdst
    · cases hdst
    case isFalse hlength =>
      cases hdst
      exact not_not.mp hlength

/-- A block that is admitted decodes soundly if and only if its decoding comes to no length but an
`int`. -/
theorem sound_iff {blockSize : Nat} {src : Bytes} {dstSize : Int}
    (h : Admitted blockSize src dstSize) : Sound src dstSize ↔ ¬ LongBlock src dstSize :=
  sound_iff_not_longBlock h

/-! ## A length that wraps around -/

theorem drop_eq_cons {src rest : Bytes} {i : Nat} {b : UInt8} (h : src.drop i = b :: rest) :
    i < src.length ∧ src[i]? = some b ∧ src.drop (i + 1) = rest := by
  have hlt : i < src.length := by
    by_contra hge
    rw [List.drop_eq_nil_of_le (Nat.not_lt.mp hge)] at h
    cases h
  rw [List.drop_eq_getElem_cons hlt, List.cons.injEq] at h
  exact ⟨hlt, by rw [List.getElem?_eq_getElem hlt, h.1], h.2⟩

theorem int32_of_lt {x : Int} (hlow : -0x80000000 ≤ x) (hhigh : x < 0x80000000) :
    int32 x = .ok x := by
  rw [int32, Int.bmod_eq_of_le (by omega) (by omega)]

theorem extendLen_int32 {src : Bytes} {k fuel i : Nat} {n : Int}
    (hat : src.drop i = List.replicate k 255 ++ [0]) (hsrc : src.length < 0x7ffffff0)
    (hfuel : k < fuel) (hn : n.bmod 0x100000000 = n) :
    extendLen int32 src fuel i n =
      .ok ((n + 255 * k).bmod 0x100000000, ((i + k + 1 : Nat) : Int)) := by
  induction k generalizing fuel i n with
  | zero =>
      obtain ⟨fuel, rfl⟩ : ∃ m, fuel = m + 1 := ⟨fuel - 1, by omega⟩
      obtain ⟨hlt, hbyte, -⟩ := drop_eq_cons hat
      have hi : int32 ((i : Int) + 1) = .ok ((i + 1 : Nat) : Int) :=
        int32_of_lt (by omega) (by omega)
      have hn' : int32 (n + ((0 : UInt8).toNat : Int)) = .ok n := by
        rw [int32, show n + ((0 : UInt8).toNat : Int) = n from Int.add_zero n, hn]
      rw [extendLen, if_neg (by omega), get_nat hbyte, ok_bind, hi, ok_bind, hn', ok_bind,
        if_pos (by decide), show n + 255 * ((0 : Nat) : Int) = n by omega, hn]
  | succ k ih =>
      obtain ⟨fuel, rfl⟩ : ∃ m, fuel = m + 1 := ⟨fuel - 1, by omega⟩
      rw [List.replicate_succ, List.cons_append] at hat
      obtain ⟨hlt, hbyte, hrest⟩ := drop_eq_cons hat
      have hi : int32 ((i : Int) + 1) = .ok ((i + 1 : Nat) : Int) :=
        int32_of_lt (by omega) (by omega)
      have hn' : int32 (n + ((255 : UInt8).toNat : Int)) = .ok ((n + 255).bmod 0x100000000) := rfl
      have hsum : (n + 255).bmod 0x100000000 + 255 * k = 255 * k + (n + 255).bmod 0x100000000 :=
        Int.add_comm _ _
      rw [extendLen, if_neg (by omega), get_nat hbyte, ok_bind, hi, ok_bind, hn', ok_bind,
        if_neg (by decide), ih hrest (by omega) Int.bmod_bmod, Int.bmod_add_bmod]
      congr 2
      · congr 1
        push_cast
        omega
      · congr 1
        omega

/-- A token with 15 for its literals, whose number goes on in so many bytes. -/
def longBlock (k : Nat) : Bytes := 0xf0 :: (List.replicate k 255 ++ [0])

theorem length_longBlock (k : Nat) : (longBlock k).length = k + 2 := by
  rw [longBlock, List.length_cons, List.length_append, List.length_replicate,
    List.length_singleton]

/-- Where the number wraps around to a negative one, the slice of the literals panics. -/
theorem longBlock_panics {k : Nat} (hk : k < 0x7fffff00) {dstSize : Int} (hsize : 0 ≤ dstSize)
    (hsize' : dstSize < 0x80000000)
    (hneg : ((15 : Int) + 255 * k).bmod 0x100000000 < 0) :
    decodeLZ4Block int32 (longBlock k) dstSize = .error .panic := by
  have hlength := length_longBlock k
  have hread : readLen int32 (longBlock k) 1 15 =
      .ok (((15 : Int) + 255 * k).bmod 0x100000000, ((1 + k + 1 : Nat) : Int)) := by
    rw [readLen, if_neg (not_not.mpr rfl)]
    exact @extendLen_int32 (longBlock k) k _ 1 15 rfl (by omega) (by omega) (by decide)
  have hlow : -0x80000000 ≤ ((15 : Int) + 255 * k).bmod 0x100000000 := Int.le_bmod (by decide)
  generalize ((15 : Int) + 255 * k).bmod 0x100000000 = lit at hneg hread hlow
  have htoken : get (longBlock k) 0 = .ok 0xf0 := rfl
  have hone : int32 (0 + 1) = .ok 1 := int32_of_lt (by decide) (by decide)
  have hleft : int32 (((longBlock k).length : Int) - ((1 + k + 1 : Nat) : Int)) = .ok 0 := by
    rw [hlength, show ((k + 2 : Nat) : Int) - ((1 + k + 1 : Nat) : Int) = 0 by omega]
    exact int32_of_lt (by decide) (by decide)
  have hroom : int32 (dstSize - (([] : Bytes).length : Int)) = .ok dstSize := by
    rw [show dstSize - (([] : Bytes).length : Int) = dstSize from Int.sub_zero dstSize]
    exact int32_of_lt (by omega) hsize'
  have hstop : int32 (((1 + k + 1 : Nat) : Int) + lit) = .ok (((1 + k + 1 : Nat) : Int) + lit) :=
    int32_of_lt (by omega) (by omega)
  have hslice : slice (longBlock k) ((1 + k + 1 : Nat) : Int) (((1 + k + 1 : Nat) : Int) + lit) =
      .error .panic := if_neg (by omega)
  have hloop : decodeLoop int32 (longBlock k) dstSize ((longBlock k).length + 1) 0 [] =
      .error .panic := by
    rw [decodeLoop, if_neg (by omega), htoken, ok_bind, hone, ok_bind,
      show (0xf0 : UInt8).toNat >>> 4 = 15 from rfl, hread, ok_bind]
    dsimp only
    rw [hleft, ok_bind, hroom, ok_bind, if_neg (by omega), hstop, ok_bind, hslice]
    rfl
  rw [decodeLZ4Block, if_neg (by omega), hloop]
  rfl

/-- With 8421505 bytes the sum is 2147483790, and the block is one that the reader admits. -/
theorem longBlock_unsound :
    Admitted 16777216 (longBlock 8421505) 16777216 ∧ ¬ Sound (longBlock 8421505) 16777216 ∧
      decodeLZ4Block int32 (longBlock 8421505) 16777216 = .error .panic := by
  have hadmitted : Admitted 16777216 (longBlock 8421505) 16777216 := by
    refine ⟨Nat.le_refl _, ?_, Int.le_refl _⟩
    rw [length_longBlock]
    decide
  have hpanic := @longBlock_panics 8421505 (by decide) 16777216 (by decide) (by decide) (by decide)
  refine ⟨hadmitted, fun hsound => ?_, hpanic⟩
  have hagrees := (agrees_decodeLZ4Block (longBlock 8421505) 16777216).resolve_left hsound.1
  exact hsound.2 (hagrees.trans hpanic)

/-- Three literals are sound, so no length of the block is too long. -/
theorem literals_sound : ¬ LongBlock [0x30, 1, 2, 3] 3 ∧ Sound [0x30, 1, 2, 3] 3 := by
  have hadmitted : Admitted 2048 [0x30, 1, 2, 3] 3 := ⟨by decide, by decide, by decide⟩
  have hsound : Sound [0x30, 1, 2, 3] 3 := by
    unfold Sound
    decide +kernel
  exact ⟨(sound_iff hadmitted).mp hsound, hsound⟩

end Ps2Servers.Compression.Word
