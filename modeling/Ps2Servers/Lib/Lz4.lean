import Ps2Servers.Lib.Bytes

/-!
# LZ4 blocks

A block is a list of sequences. Each is some literal bytes and a match, which repeats bytes from a
given distance back in the output, and it may repeat what it has itself just written. Behind the
last match there may be literals alone. Lengths start in the two halves of a token and go on in
bytes of their own.
-/

namespace Ps2Servers.Lz4

structure Sequence where
  literals : Bytes
  offset : Nat
  matchLength : Nat
  offset_lt : offset < 0x10000
  le_matchLength : 4 ≤ matchLength
  deriving DecidableEq, Repr

/-- The literals at the end; the second half of their token has no meaning. -/
structure Literals where
  literals : Bytes
  unused : Fin 16
  deriving DecidableEq, Repr

structure Block where
  sequences : List Sequence
  last : Option Literals
  deriving DecidableEq, Repr

/-! ## Expansion -/

/-- So many bytes from a distance back: the last `offset` bytes over and over. -/
def repeatFrom (output : Bytes) (offset count : Nat) : Bytes :=
  (List.range count).map fun j => output.getD (output.length - offset + j % offset) 0

def Sequence.expand (s : Sequence) (output : Bytes) : Option Bytes :=
  let output := output ++ s.literals
  if 1 ≤ s.offset ∧ s.offset ≤ output.length then
    some (output ++ repeatFrom output s.offset s.matchLength)
  else none

/-- The output behind the sequences, when every match has its bytes. -/
def expandSequences : List Sequence → Bytes → Option Bytes
  | [], output => some output
  | s :: rest, output => (s.expand output).bind (expandSequences rest)

/-- The literals behind the last match. -/
def Block.tail (b : Block) : Bytes := (b.last.map Literals.literals).getD []

def Block.expandFrom (b : Block) (output : Bytes) : Option Bytes :=
  (expandSequences b.sequences output).map (· ++ b.tail)

def Block.expand (b : Block) : Option Bytes := b.expandFrom []

/-! ## Encoding -/

/-- What of a length goes into half a token. -/
def half (length : Nat) : Nat := min length 15

/-- The bytes of a length behind the token. -/
def extension (length : Nat) : Bytes :=
  if length < 15 then []
  else List.replicate ((length - 15) / 255) 255 ++ [UInt8.ofNat ((length - 15) % 255)]

def token (literals matches_ : Nat) : UInt8 := UInt8.ofNat (literals * 16 + matches_)

def Sequence.encode (s : Sequence) : Bytes :=
  token (half s.literals.length) (half (s.matchLength - 4)) :: extension s.literals.length ++
    s.literals ++ Bytes.ofNat 2 s.offset ++ extension (s.matchLength - 4)

def Literals.encode (l : Literals) : Bytes :=
  token (half l.literals.length) l.unused :: extension l.literals.length ++ l.literals

def Block.encode (b : Block) : Bytes :=
  b.sequences.flatMap Sequence.encode ++ (b.last.map Literals.encode).getD []

/-! ## Lemmas -/

theorem half_le (length : Nat) : half length ≤ 15 := Nat.min_le_right _ _

theorem token_toNat {literals matches_ : Nat} (hl : literals < 16) (hm : matches_ < 16) :
    (token literals matches_).toNat = literals * 16 + matches_ := by
  unfold token
  rw [UInt8.toNat_ofNat']
  exact Nat.mod_eq_of_lt (by omega)

theorem extension_of_lt {length : Nat} (h : length < 15) : extension length = [] := if_pos h

theorem extension_of_le {length : Nat} (h : 15 ≤ length) :
    extension length =
      List.replicate ((length - 15) / 255) 255 ++ [UInt8.ofNat ((length - 15) % 255)] :=
  if_neg (Nat.not_lt_of_le h)

/-- The byte 255 stands for 255 more. -/
theorem extension_add {length : Nat} (h : 15 ≤ length) :
    extension (length + 255) = 255 :: extension length := by
  rw [extension_of_le h, extension_of_le (Nat.le_trans h (Nat.le_add_right _ _)),
    Nat.sub_add_comm h, Nat.add_div_right _ (by decide), Nat.add_mod_right, List.replicate_succ,
    List.cons_append]

/-- A byte of 254 or less ends a length. -/
theorem extension_short {more : Nat} (h : more < 255) :
    extension (15 + more) = [UInt8.ofNat more] := by
  rw [extension_of_le (Nat.le_add_right _ _), Nat.add_sub_cancel_left, Nat.div_eq_of_lt h,
    Nat.mod_eq_of_lt h]
  rfl

theorem extension_long (more : Nat) :
    extension (15 + (255 + more)) = 255 :: extension (15 + more) := by
  rw [Nat.add_comm 255, ← Nat.add_assoc]
  exact extension_add (Nat.le_add_right _ _)

theorem repeatFrom_length (output : Bytes) (offset count : Nat) :
    (repeatFrom output offset count).length = count := by
  rw [repeatFrom, List.length_map, List.length_range]

/-- The byte behind a match is the one `offset` before it, also where the match wrote that one. -/
theorem getElem?_repeatFrom {output : Bytes} {offset : Nat} (hpos : 1 ≤ offset)
    (hle : offset ≤ output.length) (count : Nat) :
    (output ++ repeatFrom output offset count)[output.length - offset + count]? =
      some (output.getD (output.length - offset + count % offset) 0) := by
  rcases Nat.lt_or_ge count offset with hlt | hge
  · rw [List.getElem?_append_left (by omega), Nat.mod_eq_of_lt hlt, List.getD_eq_getElem?_getD,
      List.getElem?_eq_getElem (by omega), Option.getD_some]
  · rw [List.getElem?_append_right (by omega)]
    have hindex : output.length - offset + count - output.length = count - offset := by omega
    have hlt : count - offset < count := by omega
    have hmod : (count - offset) % offset = count % offset := by
      conv_rhs => rw [← Nat.sub_add_cancel hge]
      rw [Nat.add_mod_right]
    rw [hindex, repeatFrom, List.getElem?_map, List.getElem?_range hlt, Option.map_some, hmod]

theorem repeatFrom_succ (output : Bytes) (offset count : Nat) :
    repeatFrom output offset (count + 1) = repeatFrom output offset count ++
      [output.getD (output.length - offset + count % offset) 0] := by
  rw [repeatFrom, List.range_succ, List.map_append]
  rfl

theorem Sequence.encode_length (s : Sequence) : s.encode.length =
    1 + (extension s.literals.length).length + s.literals.length + 2 +
      (extension (s.matchLength - 4)).length := by
  rw [Sequence.encode, List.length_append, List.length_append, List.length_append,
    List.length_cons, Bytes.length_ofNat]
  omega

theorem Literals.encode_length (l : Literals) :
    l.encode.length = 1 + (extension l.literals.length).length + l.literals.length := by
  rw [Literals.encode, List.length_append, List.length_cons]
  omega

/-- Output only grows. -/
theorem length_le_of_expandSequences {sequences : List Sequence} {output out : Bytes}
    (h : expandSequences sequences output = some out) : output.length ≤ out.length := by
  induction sequences generalizing output with
  | nil => exact Nat.le_of_eq (congrArg List.length (Option.some.inj h))
  | cons s rest ih =>
      obtain ⟨next, hnext, hrest⟩ := Option.bind_eq_some_iff.mp h
      unfold Sequence.expand at hnext
      dsimp only at hnext
      split at hnext
      case isFalse => cases hnext
      case isTrue =>
        have hlength := congrArg List.length (Option.some.inj hnext)
        rw [List.length_append, List.length_append] at hlength
        have := ih hrest
        omega

theorem length_le_of_expandFrom {b : Block} {output out : Bytes}
    (h : b.expandFrom output = some out) : output.length ≤ out.length := by
  obtain ⟨next, hnext, rfl⟩ := Option.map_eq_some_iff.mp h
  rw [List.length_append]
  exact Nat.le_trans (length_le_of_expandSequences hnext) (Nat.le_add_right _ _)

/-- Only the empty block is encoded by nothing. -/
theorem encode_eq_nil {b : Block} (h : b.encode = []) : b = ⟨[], none⟩ := by
  obtain ⟨sequences, last⟩ := b
  cases sequences with
  | cons s rest =>
      rw [Block.encode, List.flatMap_cons, Sequence.encode] at h
      cases h
  | nil =>
      cases last with
      | none => rfl
      | some l => cases h

/-! ## One block for an encoding -/

/-- A length is read off its half and its bytes. -/
theorem extension_append_inj {n m : Nat} {r r' : Bytes} (hhalf : half n = half m)
    (h : extension n ++ r = extension m ++ r') : n = m ∧ r = r' := by
  unfold half at hhalf
  rcases Nat.lt_or_ge n 15 with hn | hn
  · have hnm : n = m := by omega
    subst hnm
    exact ⟨rfl, List.append_cancel_left h⟩
  · obtain ⟨a, rfl⟩ := Nat.exists_eq_add_of_le hn
    obtain ⟨b, rfl⟩ := Nat.exists_eq_add_of_le (show 15 ≤ m by omega)
    clear hn hhalf
    have hbyte {k : Nat} (hk : k < 255) : (UInt8.ofNat k).toNat = k := by
      rw [UInt8.toNat_ofNat']
      exact Nat.mod_eq_of_lt (by omega)
    induction a using Nat.strong_induction_on generalizing b with
    | _ a ih =>
        rcases Nat.lt_or_ge a 255 with ha | ha <;> rcases Nat.lt_or_ge b 255 with hb | hb
        · rw [extension_short ha, extension_short hb] at h
          obtain ⟨hab, hr⟩ := List.cons.inj h
          have hab' := congrArg UInt8.toNat hab
          rw [hbyte ha, hbyte hb] at hab'
          exact ⟨congrArg _ hab', hr⟩
        · obtain ⟨c, rfl⟩ := Nat.exists_eq_add_of_le hb
          rw [extension_short ha, extension_long] at h
          have hac := congrArg UInt8.toNat (List.cons.inj h).1
          rw [hbyte ha] at hac
          exact absurd hac (Nat.ne_of_lt ha)
        · obtain ⟨c, rfl⟩ := Nat.exists_eq_add_of_le ha
          rw [extension_short hb, extension_long] at h
          have hbc := congrArg UInt8.toNat (List.cons.inj h).1
          rw [hbyte hb] at hbc
          exact absurd hbc.symm (Nat.ne_of_lt hb)
        · obtain ⟨c, rfl⟩ := Nat.exists_eq_add_of_le ha
          obtain ⟨d, rfl⟩ := Nat.exists_eq_add_of_le hb
          rw [extension_long, extension_long] at h
          obtain ⟨hcd, hr⟩ := ih c (by omega) d (List.cons.inj h).2
          exact ⟨by omega, hr⟩

theorem token_inj {a b a' b' : Nat} (ha : a < 16) (hb : b < 16) (ha' : a' < 16) (hb' : b' < 16)
    (h : token a b = token a' b') : a = a' ∧ b = b' := by
  have hnat := congrArg UInt8.toNat h
  rw [token_toNat ha hb, token_toNat ha' hb'] at hnat
  omega

theorem half_lt (length : Nat) : half length < 16 := Nat.lt_succ_of_le (half_le length)

theorem Sequence.encode_append_inj {s s' : Sequence} {r r' : Bytes}
    (h : s.encode ++ r = s'.encode ++ r') : s = s' ∧ r = r' := by
  unfold Sequence.encode at h
  simp only [List.cons_append, List.append_assoc] at h
  obtain ⟨htoken, h⟩ := List.cons.inj h
  obtain ⟨hhalf, hhalf'⟩ := token_inj (half_lt _) (half_lt _) (half_lt _) (half_lt _) htoken
  obtain ⟨hlength, h⟩ := extension_append_inj hhalf h
  obtain ⟨hliterals, h⟩ := List.append_inj h hlength
  obtain ⟨hoffset, h⟩ := List.append_inj h (by rw [Bytes.length_ofNat, Bytes.length_ofNat])
  obtain ⟨hmatch, hr⟩ := extension_append_inj hhalf' h
  have hle := congrArg Bytes.le hoffset
  rw [Bytes.le_ofNat, Bytes.le_ofNat] at hle
  have hoffset' : s.offset = s'.offset := by
    have := s.offset_lt
    have := s'.offset_lt
    omega
  have hmatchLength : s.matchLength = s'.matchLength := by
    have := s.le_matchLength
    have := s'.le_matchLength
    omega
  obtain ⟨literals, offset, matchLength, _, _⟩ := s
  obtain ⟨literals', offset', matchLength', _, _⟩ := s'
  cases hliterals
  cases hoffset'
  cases hmatchLength
  exact ⟨rfl, hr⟩

/-- Literals alone are no sequence: no offset is behind them. -/
theorem Literals.encode_ne (l : Literals) (s : Sequence) (r : Bytes) :
    l.encode ≠ s.encode ++ r := by
  intro h
  unfold Literals.encode Sequence.encode at h
  simp only [List.cons_append, List.append_assoc] at h
  obtain ⟨htoken, h⟩ := List.cons.inj h
  obtain ⟨hhalf, -⟩ := token_inj (half_lt _) l.unused.isLt (half_lt _) (half_lt _) htoken
  obtain ⟨hlength, h⟩ := extension_append_inj hhalf h
  have hlengths := congrArg List.length h
  rw [List.length_append, List.length_append, Bytes.length_ofNat] at hlengths
  omega

theorem Literals.encode_inj {l l' : Literals} (h : l.encode = l'.encode) : l = l' := by
  unfold Literals.encode at h
  simp only [List.cons_append] at h
  obtain ⟨htoken, h⟩ := List.cons.inj h
  obtain ⟨hhalf, hunused⟩ :=
    token_inj (half_lt _) l.unused.isLt (half_lt _) l'.unused.isLt htoken
  obtain ⟨-, hliterals⟩ := extension_append_inj hhalf h
  obtain ⟨literals, unused⟩ := l
  obtain ⟨literals', unused'⟩ := l'
  cases hliterals
  cases Fin.val_inj.mp hunused
  rfl

theorem Block.encode_cons (s : Sequence) (rest : List Sequence) (last : Option Literals) :
    Block.encode ⟨s :: rest, last⟩ = s.encode ++ Block.encode ⟨rest, last⟩ := by
  rw [Block.encode, Block.encode, List.flatMap_cons, List.append_assoc]

theorem Block.encode_nil_ne (last : Option Literals) (s : Sequence) (r : Bytes) :
    Block.encode ⟨[], last⟩ ≠ s.encode ++ r := by
  cases last with
  | none => exact List.cons_ne_nil _ _ ∘ Eq.symm
  | some l => exact l.encode_ne s r

/-- No two blocks are encoded alike. -/
theorem encode_injective : Function.Injective Block.encode := by
  rintro ⟨sequences, last⟩ ⟨sequences', last'⟩ h
  induction sequences generalizing sequences' with
  | nil =>
      cases sequences' with
      | cons s' rest' =>
          rw [Block.encode_cons] at h
          exact absurd h (Block.encode_nil_ne last s' _)
      | nil =>
          cases last with
          | none => exact (encode_eq_nil h.symm).symm
          | some l =>
              cases last' with
              | none => exact encode_eq_nil h
              | some l' => rw [Literals.encode_inj (show l.encode = l'.encode from h)]
  | cons s rest ih =>
      rw [Block.encode_cons] at h
      cases sequences' with
      | nil => exact absurd h.symm (Block.encode_nil_ne last' s _)
      | cons s' rest' =>
          rw [Block.encode_cons] at h
          obtain ⟨rfl, hrest⟩ := Sequence.encode_append_inj h
          obtain ⟨rfl, rfl⟩ := Block.mk.inj (ih rest' hrest)
          rfl

end Ps2Servers.Lz4
