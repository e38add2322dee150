import Ps2Servers.Lib.Lz4

/-!
# The LZ4 decoder

The decoder of ZSO blocks in the Go server: one index into the input and an output that grows up to
the size that is expected.

## Implementation notes

Integers are unbounded, and so is memory. An index or a slice out of range would be a panic, and a loop
that is given one step for each byte of the input and runs out of steps would not end; neither happens.
-/

namespace Ps2Servers.Compression

open Lz4

inductive DecodeError
  | failed (message : String)
  | panic
  | noReturn
  deriving DecidableEq, Repr

/-- The loop of `readLen`: the length so far is added to. -/
def extendLen (src : Bytes) : Nat → Nat → Nat → Except DecodeError (Nat × Nat)
  | 0, _, _ => .error .noReturn
  | fuel + 1, i, n =>
      if src.length ≤ i then .error (.failed "truncated length")
      else
        match src[i]? with
        | none => .error .panic
        | some v =>
            if v.toNat ≠ 255 then .ok (n + v.toNat, i + 1)
            else extendLen src fuel (i + 1) (n + v.toNat)

/-- `readLen`: a length and the index behind it. -/
def readLen (src : Bytes) (i base : Nat) : Except DecodeError (Nat × Nat) :=
  if base ≠ 15 then .ok (base, i) else extendLen src (src.length + 1) i base

/-- The loop that copies a match byte by byte. -/
def copyMatch (start : Nat) : Nat → Nat → Bytes → Except DecodeError Bytes
  | 0, _, dst => .ok dst
  | count + 1, j, dst =>
      match dst[start + j]? with
      | none => .error .panic
      | some b => copyMatch start count (j + 1) (dst ++ [b])

/-- The match behind the literals: its offset, its length and its bytes. -/
def decodeMatch (src : Bytes) (dstSize : Int) (base i : Nat) (dst : Bytes) :
    Except DecodeError (Bytes × Nat) :=
  if src.length < i + 2 then .error (.failed "truncated match offset")
  else
    match src[i]?, src[i + 1]? with
    | some low, some high =>
        let off := low.toNat ||| high.toNat <<< 8
        if off = 0 ∨ dst.length < off then .error (.failed "invalid match offset")
        else
          match readLen src (i + 2) base with
          | .error e => .error e
          | .ok (length, i) =>
              if dstSize - dst.length < (length + 4 : Nat) then .error (.failed "match exceeds output")
              else
                match copyMatch (dst.length - off) (length + 4) 0 dst with
                | .error e => .error e
                | .ok dst => .ok (dst, i)
    | _, _ => .error .panic

def decodeLoop (src : Bytes) (dstSize : Int) : Nat → Nat → Bytes → Except DecodeError Bytes
  | 0, _, _ => .error .noReturn
  | fuel + 1, i, dst =>
      if src.length ≤ i then .ok dst
      else
        match src[i]? with
        | none => .error .panic
        | some token =>
            match readLen src (i + 1) (token.toNat >>> 4) with
            | .error e => .error e
            | .ok (lit, i) =>
                if (src.length : Int) - i < lit ∨ dstSize - dst.length < lit then
                  .error (.failed "invalid literal length")
                else if src.length < i + lit then .error .panic
                else
                  let dst := dst ++ src.sub i lit
                  if i + lit = src.length then .ok dst
                  else
                    match decodeMatch src dstSize (token.toNat &&& 0xf) (i + lit) dst with
                    | .error e => .error e
                    | .ok (dst, i) => decodeLoop src dstSize fuel i dst

def decodeLZ4Block (src : Bytes) (dstSize : Int) : Except DecodeError Bytes :=
  if dstSize < 0 then .error (.failed "negative output size")
  else
    match decodeLoop src dstSize (src.length + 1) 0 [] with
    | .error e => .error e
    | .ok dst =>
        if (dst.length : Int) ≠ dstSize then
          .error (.failed ("decoded " ++ toString dst.length ++ " bytes, expected " ++ toString dstSize))
        else .ok dst

/-! ## Lengths -/

/-- The bytes stand at the index. -/
def At (src : Bytes) (i : Nat) (bytes : Bytes) : Prop := bytes <+: src.drop i

theorem at_append {src : Bytes} {i : Nat} {a b : Bytes} :
    At src i (a ++ b) ↔ At src i a ∧ At src (i + a.length) b := by
  unfold At
  rw [← List.drop_drop]
  constructor
  · rintro ⟨rest, hrest⟩
    rw [← hrest, List.append_assoc, List.drop_left]
    exact ⟨⟨_, rfl⟩, ⟨_, rfl⟩⟩
  · rintro ⟨⟨rest, hrest⟩, hb⟩
    rw [← hrest, List.drop_left] at hb
    obtain ⟨rest', rfl⟩ := hb
    rw [← hrest, ← List.append_assoc]
    exact ⟨rest', rfl⟩

theorem at_singleton {src : Bytes} {i : Nat} {b : UInt8} : At src i [b] ↔ src[i]? = some b := by
  unfold At
  rw [List.singleton_prefix_iff_head?_eq_some, List.head?_drop]

theorem at_cons {src : Bytes} {i : Nat} {b : UInt8} {bytes : Bytes} :
    At src i (b :: bytes) ↔ src[i]? = some b ∧ At src (i + 1) bytes := by
  rw [← List.singleton_append, at_append, at_singleton, List.length_singleton]

theorem At.le {src bytes : Bytes} {i : Nat} (h : At src i bytes) (hi : i ≤ src.length) :
    i + bytes.length ≤ src.length := by
  have hlength := h.length_le
  rw [List.length_drop] at hlength
  omega

/-- What stands at an index is the slice there. -/
theorem At.eq_sub {src bytes : Bytes} {i : Nat} (h : At src i bytes) :
    src.sub i bytes.length = bytes :=
  (List.prefix_iff_eq_take.mp h).symm

theorem at_sub (src : Bytes) (i n : Nat) : At src i (src.sub i n) := List.take_prefix n _

/-- Behind the end no length goes on. -/
theorem not_at_extension {src : Bytes} {i : Nat} (h : src.length ≤ i) (more : Nat) :
    ¬ At src i (extension (15 + more)) := by
  unfold At
  rw [List.drop_eq_nil_of_le h, List.prefix_nil, extension_of_le (Nat.le_add_right _ _)]
  exact List.append_ne_nil_of_right_ne_nil _ (List.cons_ne_nil _ _)

/-- The byte at an index says whether the length ends there. -/
theorem at_extension {src : Bytes} {i more : Nat} {v : UInt8} (hv : src[i]? = some v) :
    At src i (extension (15 + more)) ↔ if v.toNat ≠ 255 then more = v.toNat
      else ∃ less, more = 255 + less ∧ At src (i + 1) (extension (15 + less)) := by
  have hlt : v.toNat < 256 := v.toNat_lt
  rcases Nat.lt_or_ge more 255 with hshort | hlong
  · rw [extension_short hshort, at_singleton, hv]
    have hmore : (UInt8.ofNat more).toNat = more := by
      rw [UInt8.toNat_ofNat']
      exact Nat.mod_eq_of_lt (by omega)
    constructor
    · intro h
      rw [Option.some.inj h, hmore, if_pos (Nat.ne_of_lt hshort)]
    · intro h
      split at h
      · rw [h, UInt8.ofNat_toNat]
      · obtain ⟨less, rfl, -⟩ := h
        omega
  · obtain ⟨less, rfl⟩ := Nat.exists_eq_add_of_le hlong
    rw [extension_long, at_cons, hv]
    constructor
    · rintro ⟨h, hrest⟩
      rw [Option.some.inj h]
      exact ⟨less, rfl, hrest⟩
    · intro h
      split at h
      · omega
      · obtain ⟨less', hless, hrest⟩ := h
        rw [Nat.add_left_cancel hless]
        refine ⟨congrArg some (UInt8.toNat_inj.mp ?_), hrest⟩
        exact not_not.mp ‹_›

/-- A length that goes on in bytes of its own. -/
theorem extendLen_ok {src : Bytes} {fuel i n m i' : Nat} (hfuel : src.length < fuel + i) :
    extendLen src fuel i n = .ok (m, i') ↔ ∃ more, m = n + more ∧
      At src i (extension (15 + more)) ∧ i' = i + (extension (15 + more)).length := by
  induction fuel generalizing i n with
  | zero =>
      constructor
      · nofun
      · rintro ⟨more, -, hat, -⟩
        exact absurd hat (not_at_extension (by omega) more)
  | succ fuel ih =>
      unfold extendLen
      rcases Nat.lt_or_ge i src.length with hlt | hge
      · have hbyte : src[i]? = some src[i] := List.getElem?_eq_getElem hlt
        rw [if_neg (Nat.not_le_of_lt hlt), hbyte]
        simp only [at_extension hbyte]
        split
        case isTrue hv =>
          have hshort : src[i].toNat < 255 := by
            have := src[i].toNat_lt
            omega
          constructor
          · intro h
            obtain ⟨rfl, rfl⟩ := Prod.mk.inj (Except.ok.inj h)
            exact ⟨_, rfl, rfl, by rw [extension_short hshort, List.length_singleton]⟩
          · rintro ⟨more, rfl, rfl, rfl⟩
            rw [extension_short hshort, List.length_singleton]
        case isFalse hv =>
          rw [ih (by omega), not_not.mp hv]
          constructor
          · rintro ⟨more, rfl, hat, rfl⟩
            refine ⟨255 + more, Nat.add_assoc _ _ _, ⟨more, rfl, hat⟩, ?_⟩
            rw [extension_long, List.length_cons]
            omega
          · rintro ⟨more, rfl, ⟨less, rfl, hat⟩, rfl⟩
            refine ⟨less, (Nat.add_assoc _ _ _).symm, hat, ?_⟩
            rw [extension_long, List.length_cons]
            omega
      · rw [if_pos hge]
        constructor
        · nofun
        · rintro ⟨more, -, hat, -⟩
          exact absurd hat (not_at_extension hge more)

/-- `readLen` reads what `half` and `extension` write. -/
theorem readLen_ok {src : Bytes} {i base n i' : Nat} (hbase : base ≤ 15) :
    readLen src i base = .ok (n, i') ↔
      half n = base ∧ At src i (extension n) ∧ i' = i + (extension n).length := by
  unfold readLen half
  split
  case isTrue hne =>
    have hlt : base < 15 := Nat.lt_of_le_of_ne hbase hne
    constructor
    · intro h
      obtain ⟨rfl, rfl⟩ := Prod.mk.inj (Except.ok.inj h)
      rw [extension_of_lt hlt]
      exact ⟨Nat.min_eq_left hbase, List.nil_prefix, rfl⟩
    · rintro ⟨rfl, -, rfl⟩
      have hn : n < 15 := by omega
      rw [extension_of_lt hn, Nat.min_eq_left (Nat.le_of_lt hn)]
      rfl
  case isFalse heq =>
    rw [extendLen_ok (by omega), not_not.mp heq]
    constructor
    · rintro ⟨more, rfl, hat, rfl⟩
      exact ⟨Nat.min_eq_right (Nat.le_add_right _ _), hat, rfl⟩
    · rintro ⟨hn, hat, rfl⟩
      obtain ⟨more, rfl⟩ := Nat.exists_eq_add_of_le (show 15 ≤ n by omega)
      exact ⟨more, rfl, hat, rfl⟩

/-! ## Matches -/

/-- The bytes are copied one by one, also those that the match itself wrote. -/
theorem copyMatch_ok {output : Bytes} {offset : Nat} (hpos : 1 ≤ offset)
    (hle : offset ≤ output.length) (count j : Nat) :
    copyMatch (output.length - offset) count j (output ++ repeatFrom output offset j) =
      .ok (output ++ repeatFrom output offset (j + count)) := by
  induction count generalizing j with
  | zero => rfl
  | succ count ih =>
      unfold copyMatch
      rw [getElem?_repeatFrom hpos hle]
      dsimp only
      rw [List.append_assoc, ← repeatFrom_succ, ih, Nat.add_right_comm, Nat.add_assoc]

/-- The two bytes of an offset. -/
theorem at_offset {src : Bytes} {i : Nat} {low high : UInt8} (hlow : src[i]? = some low)
    (hhigh : src[i + 1]? = some high) {offset : Nat} (hoffset : offset < 0x10000) :
    At src i (Bytes.ofNat 2 offset) ↔ offset = (low.toNat ||| high.toNat <<< 8) := by
  have hll : low.toNat < 256 := low.toNat_lt
  have hor : (low.toNat ||| high.toNat <<< 8) = high.toNat * 256 + low.toNat := by
    rw [Nat.or_comm, ← Nat.shiftLeft_add_eq_or_of_lt hll, Nat.shiftLeft_eq]
  have hcons : Bytes.ofNat 2 offset =
      UInt8.ofNat (offset % 256) :: [UInt8.ofNat (offset / 256 % 256)] := rfl
  rw [hcons, at_cons, at_singleton, hlow, hhigh, hor, Option.some.injEq, Option.some.injEq,
    ← UInt8.toNat_inj, ← UInt8.toNat_inj, UInt8.toNat_ofNat', UInt8.toNat_ofNat']
  omega

/-- A match is read if it stands there, its bytes are in the output and it fits. -/
theorem decodeMatch_ok {src : Bytes} {dstSize : Int} {base i : Nat} {dst out : Bytes} {i' : Nat}
    (hbase : base ≤ 15) (hi : i ≤ src.length) :
    decodeMatch src dstSize base i dst = .ok (out, i') ↔ ∃ offset length,
      offset < 0x10000 ∧ half length = base ∧
      At src i (Bytes.ofNat 2 offset ++ extension length) ∧
      i' = i + 2 + (extension length).length ∧
      (1 ≤ offset ∧ offset ≤ dst.length) ∧ (out.length : Int) ≤ dstSize ∧
      out = dst ++ repeatFrom dst offset (length + 4) := by
  unfold decodeMatch
  rcases Nat.lt_or_ge src.length (i + 2) with hshort | hlong
  · rw [if_pos hshort]
    constructor
    · nofun
    · rintro ⟨offset, length, -, -, hat, -⟩
      have hle := hat.le hi
      rw [List.length_append, Bytes.length_ofNat] at hle
      omega
  · have hlow : src[i]? = some src[i] := List.getElem?_eq_getElem (by omega)
    have hhigh : src[i + 1]? = some src[i + 1] := List.getElem?_eq_getElem (by omega)
    rw [if_neg (Nat.not_lt_of_le hlong), hlow, hhigh]
    dsimp only
    have hoff : (src[i].toNat ||| src[i + 1].toNat <<< 8) < 0x10000 :=
      Nat.or_lt_two_pow (n := 16) (Nat.lt_trans src[i].toNat_lt (by decide))
        (by rw [Nat.shiftLeft_eq]; have := src[i + 1].toNat_lt; omega)
    generalize hoffset : (src[i].toNat ||| src[i + 1].toNat <<< 8) = off at hoff ⊢
    have hread {length : Nat} : At src i (Bytes.ofNat 2 off ++ extension length) ↔
        At src (i + 2) (extension length) := by
      rw [at_append, at_offset hlow hhigh hoff, hoffset, Bytes.length_ofNat]
      exact and_iff_right rfl
    have heq {offset length : Nat} (hlt : offset < 0x10000)
        (hat : At src i (Bytes.ofNat 2 offset ++ extension length)) : offset = off := by
      rw [← hoffset]
      exact (at_offset hlow hhigh hlt).mp (at_append.mp hat).1
    split
    case isTrue hinvalid =>
      constructor
      · nofun
      · rintro ⟨offset, length, hlt, -, hat, -, hvalid, -⟩
        rw [heq hlt hat] at hvalid
        omega
    case isFalse hvalid =>
      have hpos : 1 ≤ off := by omega
      have hle : off ≤ dst.length := by omega
      constructor
      · intro h
        split at h
        case h_1 => cases h
        case h_2 length iNext hlength =>
          obtain ⟨hhalf, hat, rfl⟩ := (readLen_ok hbase).mp hlength
          split at h
          case isTrue => cases h
          case isFalse hfits =>
            have hcopy := copyMatch_ok hpos hle (length + 4) 0
            rw [show repeatFrom dst off 0 = [] from rfl, List.append_nil, Nat.zero_add] at hcopy
            rw [hcopy] at h
            obtain ⟨rfl, rfl⟩ := Prod.mk.inj (Except.ok.inj h)
            refine ⟨off, length, hoff, hhalf, hread.mpr hat, rfl, ⟨hpos, hle⟩, ?_, rfl⟩
            rw [List.length_append, repeatFrom_length]
            omega
      · rintro ⟨offset, length, hlt, hhalf, hat, rfl, -, hfits, rfl⟩
        have hoff' := heq hlt hat
        subst hoff'
        rw [(readLen_ok hbase).mpr ⟨hhalf, hread.mp hat, rfl⟩]
        dsimp only
        rw [List.length_append, repeatFrom_length] at hfits
        have hcopy := copyMatch_ok hpos hle (length + 4) 0
        rw [show repeatFrom dst offset 0 = [] from rfl, List.append_nil, Nat.zero_add] at hcopy
        rw [if_neg (by omega), hcopy]

/-! ## Blocks -/

theorem shiftRight_four (t : UInt8) : t.toNat >>> 4 = t.toNat / 16 :=
  Nat.shiftRight_eq_div_pow _ 4

theorem and_fifteen (t : UInt8) : t.toNat &&& 0xf = t.toNat % 16 :=
  Nat.and_two_pow_sub_one_eq_mod _ 4

/-- The halves of the token at an index. -/
theorem token_at {src : Bytes} {i : Nat} {t : UInt8} (h : src[i]? = some t) {a b : Nat}
    (ha : a ≤ 15) (hb : b ≤ 15) :
    src[i]? = some (token a b) ↔ a = t.toNat >>> 4 ∧ b = t.toNat &&& 0xf := by
  rw [h, Option.some.injEq, ← UInt8.toNat_inj, token_toNat (by omega) (by omega), shiftRight_four,
    and_fifteen]
  omega

/-- What fills the input from an index on is the rest of the input. -/
theorem At.eq_drop {src bytes : Bytes} {i : Nat} (h : At src i bytes)
    (hlength : i + bytes.length = src.length) : bytes = src.drop i := by
  apply h.eq_of_length
  rw [List.length_drop]
  omega

/-- A sequence at an index: its token and literals, and the match behind them. -/
theorem at_sequence {src : Bytes} {i : Nat} {t : UInt8} (ht : src[i]? = some t) (s : Sequence) :
    At src i s.encode ↔ (half s.literals.length = t.toNat >>> 4 ∧
        At src (i + 1) (extension s.literals.length) ∧
        At src (i + 1 + (extension s.literals.length).length) s.literals) ∧
      half (s.matchLength - 4) = t.toNat &&& 0xf ∧
      At src (i + 1 + (extension s.literals.length).length + s.literals.length)
        (Bytes.ofNat 2 s.offset ++ extension (s.matchLength - 4)) := by
  have hliterals : i + (extension s.literals.length).length.succ =
      i + 1 + (extension s.literals.length).length := by omega
  have hmatch : i + (extension s.literals.length ++ s.literals).length.succ =
      i + 1 + (extension s.literals.length).length + s.literals.length := by
    rw [List.length_append]
    omega
  unfold Sequence.encode
  rw [List.append_assoc, at_append, at_append, List.cons_append, at_cons,
    token_at ht (half_le _) (half_le _), List.length_cons, List.length_cons, hliterals, hmatch]
  tauto

/-- Literals alone at an index. -/
theorem at_literals {src : Bytes} {i : Nat} {t : UInt8} (ht : src[i]? = some t) (l : Literals) :
    At src i l.encode ↔ (half l.literals.length = t.toNat >>> 4 ∧
        At src (i + 1) (extension l.literals.length) ∧
        At src (i + 1 + (extension l.literals.length).length) l.literals) ∧
      l.unused.val = t.toNat &&& 0xf := by
  have hliterals : i + (extension l.literals.length).length.succ =
      i + 1 + (extension l.literals.length).length := by omega
  unfold Literals.encode
  rw [at_append, at_cons, token_at ht (half_le _) (Nat.le_of_lt_succ l.unused.isLt),
    List.length_cons, hliterals]
  tauto

/-- One round of the loop: the last literals, or a sequence and the rest. -/
theorem decodeLoop_step {src : Bytes} {dstSize : Int} {fuel i : Nat} {dst out : Bytes}
    (hi : i < src.length) :
    decodeLoop src dstSize (fuel + 1) i dst = .ok out ↔
      (∃ l : Literals, l.encode = src.drop i ∧ (out.length : Int) ≤ dstSize ∧
        out = dst ++ l.literals) ∨
      ∃ (s : Sequence) (dst' : Bytes), At src i s.encode ∧ s.expand dst = some dst' ∧
        (dst'.length : Int) ≤ dstSize ∧
        decodeLoop src dstSize fuel (i + s.encode.length) dst' = .ok out := by
  have ht : src[i]? = some src[i] := List.getElem?_eq_getElem hi
  have hhigh : src[i].toNat >>> 4 ≤ 15 := by
    have := src[i].toNat_lt
    rw [shiftRight_four]
    omega
  have hlow : src[i].toNat &&& 0xf ≤ 15 := Nat.and_le_right
  rw [decodeLoop, if_neg (Nat.not_le_of_lt hi), ht]
  dsimp only
  constructor
  · intro h
    split at h
    case h_1 => cases h
    case h_2 lit iLit hlit =>
      obtain ⟨hhalf, hextension, rfl⟩ := (readLen_ok hhigh).mp hlit
      have hbehind := hextension.le hi
      split at h
      case isTrue => cases h
      case isFalse hfits =>
        have hlength : (src.sub (i + 1 + (extension lit).length) lit).length = lit := by
          rw [Bytes.sub, List.length_take, List.length_drop]
          omega
        have hliterals := at_sub src (i + 1 + (extension lit).length) lit
        rw [if_neg (by omega)] at h
        split at h
        case isTrue hend =>
          left
          let l : Literals := ⟨src.sub (i + 1 + (extension lit).length) lit,
            ⟨src[i].toNat &&& 0xf, Nat.lt_succ_of_le hlow⟩⟩
          have hat : At src i l.encode := by
            rw [at_literals ht, hlength]
            exact ⟨⟨hhalf, hextension, hliterals⟩, rfl⟩
          refine ⟨l, hat.eq_drop ?_, ?_, (Except.ok.inj h).symm⟩
          · rw [l.encode_length, hlength]
            omega
          · rw [← Except.ok.inj h, List.length_append, hlength]
            omega
        case isFalse hend =>
          split at h
          case h_1 => cases h
          case h_2 dst' iNext hmatch =>
            right
            obtain ⟨offset, length, hoffset, hhalf', hat, rfl, hvalid, hsize, rfl⟩ :=
              (decodeMatch_ok hlow (by omega)).mp hmatch
            let s : Sequence := ⟨src.sub (i + 1 + (extension lit).length) lit, offset, length + 4,
              hoffset, Nat.le_add_left _ _⟩
            refine ⟨s, _, ?_, if_pos hvalid, hsize, ?_⟩
            · rw [at_sequence ht, hlength]
              exact ⟨⟨hhalf, hextension, hliterals⟩, hhalf', hat⟩
            · rw [s.encode_length, hlength, Nat.add_sub_cancel, ← h]
              have hnext : i + (1 + (extension lit).length + lit + 2 + (extension length).length) =
                  i + 1 + (extension lit).length + lit + 2 + (extension length).length := by omega
              rw [hnext]
  · rintro (⟨l, hl, hsize, rfl⟩ | ⟨s, dst', hat, hexpand, hsize, h⟩)
    · have hat : At src i l.encode := hl ▸ List.prefix_refl l.encode
      have hlength := congrArg List.length hl
      obtain ⟨⟨hhalf, hextension, hliterals⟩, -⟩ := (at_literals ht l).mp hat
      rw [l.encode_length, List.length_drop] at hlength
      rw [List.length_append] at hsize
      rw [(readLen_ok hhigh).mpr ⟨hhalf, hextension, rfl⟩]
      dsimp only
      rw [if_neg (by omega), if_neg (by omega), if_pos (by omega), hliterals.eq_sub]
    · obtain ⟨⟨hhalf, hextension, hliterals⟩, hhalf', hmatch⟩ := (at_sequence ht s).mp hat
      have hbehind := hliterals.le (hextension.le hi)
      have hoffset := hmatch.le hbehind
      rw [List.length_append, Bytes.length_ofNat] at hoffset
      unfold Sequence.expand at hexpand
      dsimp only at hexpand
      split at hexpand
      case isFalse => cases hexpand
      case isTrue hvalid =>
        have hdst := (Option.some.inj hexpand).symm
        have hlength : dst.length + s.literals.length ≤ dst'.length := by
          rw [hdst, List.length_append, List.length_append]
          omega
        rw [(readLen_ok hhigh).mpr ⟨hhalf, hextension, rfl⟩]
        dsimp only
        rw [if_neg (by omega), if_neg (by omega), if_neg (by omega), hliterals.eq_sub]
        rw [(decodeMatch_ok hlow hbehind).mpr ⟨s.offset, s.matchLength - 4, s.offset_lt, hhalf',
          hmatch, rfl, hvalid, hsize, by rw [Nat.sub_add_cancel s.le_matchLength, hdst]⟩]
        dsimp only
        rw [← h, s.encode_length]
        congr 1
        omega

/-- The loop ends with the expansion of the blocks that stand at the index. -/
theorem decodeLoop_ok {src : Bytes} {dstSize : Int} {fuel i : Nat} {dst out : Bytes}
    (hi : i ≤ src.length) (hfuel : src.length < fuel + i) (hdst : (dst.length : Int) ≤ dstSize) :
    decodeLoop src dstSize fuel i dst = .ok out ↔
      ∃ b : Block, b.encode = src.drop i ∧ b.expandFrom dst = some out ∧
        (out.length : Int) ≤ dstSize := by
  induction fuel generalizing i dst with
  | zero => omega
  | succ fuel ih =>
      rcases Nat.lt_or_eq_of_le hi with hlt | heq
      · rw [decodeLoop_step hlt]
        constructor
        · rintro (⟨l, hl, hsize, rfl⟩ | ⟨s, dst', hat, hexpand, hsize, h⟩)
          · exact ⟨⟨[], some l⟩, hl, rfl, hsize⟩
          · obtain ⟨b, hb, hout, hsize'⟩ := (ih (hat.le hi) (by rw [s.encode_length]; omega)
              hsize).mp h
            refine ⟨⟨s :: b.sequences, b.last⟩, ?_, ?_, hsize'⟩
            · obtain ⟨rest, hrest⟩ := hat
              rw [← List.drop_drop, ← hrest, List.drop_left] at hb
              rw [← hrest, ← hb, Block.encode, Block.encode, List.flatMap_cons, List.append_assoc]
            · rw [← hout, Block.expandFrom, Block.expandFrom, expandSequences, hexpand]
              rfl
        · rintro ⟨b, hb, hout, hsize⟩
          obtain ⟨sequences, last⟩ := b
          cases sequences with
          | nil =>
              cases last with
              | none =>
                  have hnil : src.drop i = [] := hb.symm
                  rw [List.drop_eq_nil_iff] at hnil
                  omega
              | some l => exact Or.inl ⟨l, hb, hsize, (Option.some.inj hout).symm⟩
          | cons s rest =>
              right
              rw [Block.encode, List.flatMap_cons, List.append_assoc] at hb
              have hat : At src i s.encode := ⟨_, hb⟩
              rw [Block.expandFrom, expandSequences] at hout
              cases hexpand : s.expand dst with
              | none =>
                  rw [hexpand] at hout
                  cases hout
              | some dst' =>
                  rw [hexpand] at hout
                  have hout' : Block.expandFrom ⟨rest, last⟩ dst' = some out := hout
                  have hsize' : (dst'.length : Int) ≤ dstSize :=
                    Int.le_trans (Int.ofNat_le.mpr (length_le_of_expandFrom hout')) hsize
                  refine ⟨s, dst', hat, hexpand, hsize', (ih (hat.le hi) ?_ hsize').mpr
                    ⟨⟨rest, last⟩, ?_, hout', hsize⟩⟩
                  · rw [s.encode_length]
                    omega
                  · rw [← List.drop_drop, ← hb, List.drop_left, Block.encode]
      · have hnil : src.drop i = [] := List.drop_eq_nil_of_le (Nat.le_of_eq heq.symm)
        unfold decodeLoop
        rw [if_pos (Nat.le_of_eq heq.symm), hnil, Except.ok.injEq]
        constructor
        · rintro rfl
          exact ⟨⟨[], none⟩, rfl, congrArg some (List.append_nil dst), hdst⟩
        · rintro ⟨b, hb, hout, -⟩
          rw [encode_eq_nil hb] at hout
          exact (List.append_nil dst).symm.trans (Option.some.inj hout)

/-! ## No panic -/

/-- The run ends, and without a panic. -/
def Returns {α : Type} (r : Except DecodeError α) : Prop :=
  ∀ e, r = .error e → ∃ message, e = .failed message

theorem returns_ok {α : Type} (a : α) : Returns (.ok a) := nofun

theorem returns_failed {α : Type} (message : String) :
    Returns (.error (.failed message) : Except DecodeError α) := by
  intro e h
  exact ⟨message, (Except.error.inj h).symm⟩

theorem extendLen_returns {src : Bytes} {fuel i : Nat} (hi : i ≤ src.length)
    (hfuel : src.length < fuel + i) (n : Nat) : Returns (extendLen src fuel i n) := by
  induction fuel generalizing i n with
  | zero => omega
  | succ fuel ih =>
      unfold extendLen
      split
      case isTrue => exact returns_failed _
      case isFalse hlt =>
        rw [List.getElem?_eq_getElem (Nat.lt_of_not_le hlt)]
        dsimp only
        split
        case isTrue => exact returns_ok _
        case isFalse => exact ih (by omega) (by omega) _

theorem readLen_returns {src : Bytes} {i : Nat} (hi : i ≤ src.length) (base : Nat) :
    Returns (readLen src i base) := by
  unfold readLen
  split
  case isTrue => exact returns_ok _
  case isFalse => exact extendLen_returns hi (by omega) _

theorem decodeMatch_returns {src : Bytes} (dstSize : Int) (base i : Nat) (dst : Bytes) :
    Returns (decodeMatch src dstSize base i dst) := by
  unfold decodeMatch
  split
  case isTrue => exact returns_failed _
  case isFalse hlong =>
    rw [List.getElem?_eq_getElem (show i < src.length by omega),
      List.getElem?_eq_getElem (show i + 1 < src.length by omega)]
    dsimp only
    split
    case isTrue => exact returns_failed _
    case isFalse hvalid =>
      have hlength := readLen_returns (show i + 2 ≤ src.length by omega) base
      split
      case h_1 e he =>
        obtain ⟨message, rfl⟩ := hlength e he
        exact returns_failed _
      case h_2 length iNext _ =>
        split
        case isTrue => exact returns_failed _
        case isFalse =>
          have hcopy := copyMatch_ok (show 1 ≤ _ by omega) (Nat.le_of_not_lt (not_or.mp hvalid).2)
            (length + 4) 0
          rw [show repeatFrom dst _ 0 = [] from rfl, List.append_nil] at hcopy
          rw [hcopy]
          exact returns_ok _

theorem decodeLoop_returns {src : Bytes} (dstSize : Int) {fuel i : Nat} (hi : i ≤ src.length)
    (hfuel : src.length < fuel + i) (dst : Bytes) :
    Returns (decodeLoop src dstSize fuel i dst) := by
  induction fuel generalizing i dst with
  | zero => omega
  | succ fuel ih =>
      unfold decodeLoop
      split
      case isTrue => exact returns_ok _
      case isFalse hlt =>
        rw [List.getElem?_eq_getElem (Nat.lt_of_not_le hlt)]
        dsimp only
        have hhigh : src[i].toNat >>> 4 ≤ 15 := by
          have := src[i].toNat_lt
          rw [shiftRight_four]
          omega
        have hlow : src[i].toNat &&& 0xf ≤ 15 := Nat.and_le_right
        have hread := readLen_returns (show i + 1 ≤ src.length by omega) (src[i].toNat >>> 4)
        split
        case h_1 e he =>
          obtain ⟨message, rfl⟩ := hread e he
          exact returns_failed _
        case h_2 lit iLit hlit =>
          obtain ⟨-, hextension, rfl⟩ := (readLen_ok hhigh).mp hlit
          have hbehind := hextension.le (by omega)
          split
          case isTrue => exact returns_failed _
          case isFalse hfits =>
            rw [if_neg (by omega)]
            split
            case isTrue => exact returns_ok _
            case isFalse =>
              have hmatch := @decodeMatch_returns src dstSize (src[i].toNat &&& 0xf)
                (i + 1 + (extension lit).length + lit)
                (dst ++ src.sub (i + 1 + (extension lit).length) lit)
              split
              case h_1 e he =>
                obtain ⟨message, rfl⟩ := hmatch e he
                exact returns_failed _
              case h_2 dst' iNext hnext =>
                obtain ⟨offset, length, -, -, hat, rfl, -⟩ :=
                  (decodeMatch_ok hlow (by omega)).mp hnext
                have hle := hat.le (by omega)
                rw [List.length_append, Bytes.length_ofNat] at hle
                exact ih (by omega) (by omega) _

/-! ## The decoder -/

/-- It decodes what is a block with the expected size, and to its expansion. -/
theorem decodeLZ4Block_ok {src : Bytes} {dstSize : Int} {out : Bytes} :
    decodeLZ4Block src dstSize = .ok out ↔
      ∃ b : Block, b.encode = src ∧ b.expand = some out ∧ (out.length : Int) = dstSize := by
  unfold decodeLZ4Block
  split
  case isTrue hneg =>
    constructor
    · nofun
    · rintro ⟨b, -, -, hsize⟩
      omega
  case isFalse hnonneg =>
    have hloop {o : Bytes} := @decodeLoop_ok src dstSize (src.length + 1) 0 [] o (Nat.zero_le _)
      (Nat.lt_succ_self _) (Int.not_lt.mp hnonneg)
    constructor
    · intro h
      split at h
      case h_1 => cases h
      case h_2 dst hdst =>
        split at h
        case isTrue => cases h
        case isFalse hsize =>
          cases h
          obtain ⟨b, hb, hout, -⟩ := hloop.mp hdst
          exact ⟨b, hb, hout, not_not.mp hsize⟩
    · rintro ⟨b, hb, hout, hsize⟩
      rw [hloop.mpr ⟨b, hb, hout, Int.le_of_eq hsize⟩]
      dsimp only
      rw [if_neg (not_not.mpr hsize)]

theorem decodeLZ4Block_returns (src : Bytes) (dstSize : Int) :
    Returns (decodeLZ4Block src dstSize) := by
  unfold decodeLZ4Block
  split
  case isTrue => exact returns_failed _
  case isFalse =>
    have hloop := @decodeLoop_returns src dstSize (src.length + 1) 0 (Nat.zero_le _)
      (Nat.lt_succ_self _) []
    split
    case h_1 e he =>
      obtain ⟨message, rfl⟩ := hloop e he
      exact returns_failed _
    case h_2 =>
      split
      case isTrue => exact returns_failed _
      case isFalse => exact returns_ok _

/-- The decoder and the blocks: it succeeds on the encoding of a block whose expansion has the
expected size, with that expansion, and on nothing else; and it neither panics nor runs on. -/
theorem decodeLZ4Block_correct (src : Bytes) (dstSize : Int) :
    ((∃ out, decodeLZ4Block src dstSize = .ok out) ↔ ∃ (b : Block) (out : Bytes),
      b.encode = src ∧ b.expand = some out ∧ (out.length : Int) = dstSize) ∧
    (∀ b : Block, b.encode = src → ∀ out, decodeLZ4Block src dstSize = .ok out ↔
      b.expand = some out ∧ (out.length : Int) = dstSize) ∧
    (∀ (b : Block) (out : Bytes), b.expand = some out →
      decodeLZ4Block b.encode out.length = .ok out) ∧
    ∀ e, decodeLZ4Block src dstSize = .error e → ∃ message, e = .failed message := by
  refine ⟨⟨?_, ?_⟩, ?_, ?_, decodeLZ4Block_returns src dstSize⟩
  · rintro ⟨out, h⟩
    obtain ⟨b, hb⟩ := decodeLZ4Block_ok.mp h
    exact ⟨b, out, hb⟩
  · rintro ⟨b, out, hb⟩
    exact ⟨out, decodeLZ4Block_ok.mpr ⟨b, hb⟩⟩
  · rintro b rfl out
    rw [decodeLZ4Block_ok]
    constructor
    · rintro ⟨b', hencode, hexpand⟩
      rw [encode_injective hencode] at hexpand
      exact hexpand
    · intro h
      exact ⟨b, rfl, h⟩
  · intro b out hout
    exact decodeLZ4Block_ok.mpr ⟨b, rfl, hout, rfl⟩

/-- Two literals and a match of five bytes that repeats them, then one literal. -/
example : decodeLZ4Block [0x21, 1, 2, 2, 0, 0x10, 3] 8 = .ok [1, 2, 1, 2, 1, 2, 1, 3] := by decide

end Ps2Servers.Compression
