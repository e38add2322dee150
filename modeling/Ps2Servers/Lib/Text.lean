import Ps2Servers.Lib.Bytes
import Mathlib.Tactic.SplitIfs

/-!
# Text

Strings as a scripting language has them: sequences of code points, in which a
lone surrogate stands for a byte that could not be decoded. Encoding to UTF-8
fails on such a code point. Lower-casing leaves the non-ASCII part of Unicode's
tables open: any table does in which no character becomes a slash.
-/

namespace Ps2Servers

inductive CodePoint
  | char (c : Char)
  | surrogate (n : Fin 0x800)
  deriving DecidableEq, Repr

abbrev Str := List CodePoint

namespace CodePoint

def toNat : CodePoint → Nat
  | char c => c.toNat
  | surrogate n => 0xd800 + n

def isAscii (c : CodePoint) : Bool := c.toNat < 0x80

/-- The code point of a byte. -/
def ofByte (b : UInt8) : CodePoint := char (Char.ofNat b.toNat)

/-- The byte of an ASCII character. -/
def toByte (c : CodePoint) : UInt8 := UInt8.ofNat c.toNat

def asciiLower : CodePoint → CodePoint
  | char c => char c.toLower
  | surrogate n => surrogate n

def asciiUpper : CodePoint → CodePoint
  | char c => char c.toUpper
  | surrogate n => surrogate n

/-- UTF-8, where the code point has it. -/
def utf8 : CodePoint → Option Bytes
  | char c => some (String.utf8EncodeChar c)
  | surrogate _ => none

theorem isAscii_char {c : Char} : (char c).isAscii ↔ c.toNat < 0x80 := decide_eq_true_iff

theorem isAscii_surrogate (n : Fin 0x800) : (surrogate n).isAscii = false := by
  apply decide_eq_false
  simp only [toNat]
  omega

theorem toNat_ofByte (b : UInt8) : (ofByte b).toNat = b.toNat := by
  have hvalid : b.toNat.isValidChar := Or.inl (by have := b.toNat_lt; omega)
  unfold ofByte toNat Char.ofNat
  rw [dif_pos hvalid]
  rfl

theorem toByte_ofByte (b : UInt8) : (ofByte b).toByte = b := by
  rw [toByte, toNat_ofByte, UInt8.ofNat_toNat]

theorem ofByte_toByte {c : CodePoint} (hc : c.isAscii) : ofByte c.toByte = c := by
  cases c with
  | char c =>
      have hlt : c.toNat < 0x80 := isAscii_char.mp hc
      have hmod : c.toNat % 256 = c.toNat := Nat.mod_eq_of_lt (by omega)
      simp [ofByte, toByte, toNat, hmod]
  | surrogate n => simp [isAscii_surrogate] at hc

/-- An ASCII character is its own encoding. -/
theorem utf8_ascii {c : CodePoint} (hc : c.isAscii) : c.utf8 = some [c.toByte] := by
  cases c with
  | char c =>
      have hlt : c.toNat < 0x80 := isAscii_char.mp hc
      have hval : c.val.toNat ≤ 0x7f := Nat.le_of_lt_succ hlt
      simp only [utf8, String.utf8EncodeChar, hval, if_true]
      rfl
  | surrogate n => simp [isAscii_surrogate] at hc

/-- The bytes of every other character are not ASCII. -/
theorem le_of_mem_utf8 {c : CodePoint} (hc : c.isAscii = false) {bytes : Bytes}
    (hbytes : c.utf8 = some bytes) : ∀ b ∈ bytes, 0x80 ≤ b.toNat := by
  cases c with
  | surrogate n => simp [utf8] at hbytes
  | char c =>
      have hlt : ¬ c.val.toNat ≤ 0x7f := by
        intro hle
        exact Bool.false_ne_true (hc.symm.trans (isAscii_char.mpr (Nat.lt_succ_of_le hle)))
      intro b hb
      simp only [utf8, Option.some.injEq] at hbytes
      subst hbytes
      simp only [String.utf8EncodeChar, hlt, if_false] at hb
      split at hb
      · simp only [List.mem_cons, List.not_mem_nil, or_false] at hb
        rcases hb with rfl | rfl <;> simp only [UInt8.toNat_ofNat'] <;> omega
      · split at hb
        · simp only [List.mem_cons, List.not_mem_nil, or_false] at hb
          rcases hb with rfl | rfl | rfl <;> simp only [UInt8.toNat_ofNat'] <;> omega
        · simp only [List.mem_cons, List.not_mem_nil, or_false] at hb
          rcases hb with rfl | rfl | rfl | rfl <;> simp only [UInt8.toNat_ofNat'] <;> omega

theorem utf8_ne_nil {c : CodePoint} {bytes : Bytes} (h : c.utf8 = some bytes) : bytes ≠ [] := by
  cases c with
  | surrogate n => simp [utf8] at h
  | char c =>
      simp only [utf8, Option.some.injEq] at h
      subst h
      unfold String.utf8EncodeChar
      dsimp only
      split_ifs <;> simp

end CodePoint

namespace Text

/-- A literal. -/
def lit (s : String) : Str := s.toList.map CodePoint.char

def slash : CodePoint := .char '/'

def dot : CodePoint := .char '.'

/-- Strings are compared by their code points. -/
def le : Str → Str → Bool
  | [], _ => true
  | _ :: _, [] => false
  | a :: s, b :: t => a.toNat < b.toNat || (a.toNat = b.toNat && le s t)

/-- `s.strip(cs)`. -/
def strip (cs s : Str) : Str :=
  ((s.dropWhile cs.contains).reverse.dropWhile cs.contains).reverse

/-! ## Encodings -/

/-- `s.encode("utf-8")`. -/
def encode (s : Str) : Option Bytes := (s.mapM CodePoint.utf8).map List.flatten

/-- `s.encode("utf-8", "replace")`. -/
def encodeReplace (s : Str) : Bytes := s.flatMap fun c => c.utf8.getD [0x3f]

/-- `bytes.decode("utf-8")`. -/
def decode (bytes : Bytes) : Option Str :=
  bytes.toByteArray.utf8Decode?.map fun chars => chars.toList.map CodePoint.char

/-- How many bytes a UTF-8 sequence with this first byte has, and none if it starts none. -/
def sequenceLength (lead : UInt8) : Nat :=
  if lead < 0x80 then 1
  else if lead < 0xc2 then 0
  else if lead < 0xe0 then 2
  else if lead < 0xf0 then 3
  else if lead < 0xf5 then 4
  else 0

def isContinuation (b : UInt8) : Bool := 0x80 ≤ b && b ≤ 0xbf

/-- The second byte of a sequence: overlong forms, surrogates and numbers past the last code
point are excluded here. -/
def isSecond (lead b : UInt8) : Bool :=
  isContinuation b &&
    if lead = 0xe0 then 0xa0 ≤ b
    else if lead = 0xed then b ≤ 0x9f
    else if lead = 0xf0 then 0x90 ≤ b
    else if lead = 0xf4 then b ≤ 0x8f
    else true

/-- At most `n` bytes that continue a sequence, the first of which meets `ok`. -/
def continuing (ok : UInt8 → Bool) : Nat → Bytes → Bytes
  | n + 1, b :: rest => if ok b then b :: continuing isContinuation n rest else []
  | _, _ => []

/-- The code point of a complete sequence. -/
def sequenceValue (lead : UInt8) (tail : Bytes) : Nat :=
  tail.foldl (fun v b => v * 64 + b.toNat % 64)
    (lead.toNat % if tail.length = 0 then 128 else 64 >>> tail.length)

def decodeReplaceFrom : Nat → Bytes → Str
  | fuel + 1, lead :: rest =>
      let tail := continuing (isSecond lead) (sequenceLength lead - 1) rest
      let c := if tail.length + 1 = sequenceLength lead then sequenceValue lead tail else 0xfffd
      .char (Char.ofNat c) :: decodeReplaceFrom fuel (rest.drop tail.length)
  | _, _ => []

/-- `bytes.decode("utf-8", errors="replace")`: one replacement character for each longest start
of a sequence that is not completed. -/
def decodeReplace (bytes : Bytes) : Str := decodeReplaceFrom bytes.length bytes

/-- `bytes.decode("latin-1")`. -/
def latin1 (bytes : Bytes) : Str := bytes.map CodePoint.ofByte

@[simp] theorem encode_nil : encode [] = some [] := rfl

/-- Encoding goes from left to right. -/
theorem encode_cons_eq_some {c : CodePoint} {s : Str} {bytes : Bytes} :
    encode (c :: s) = some bytes ↔
      ∃ head tail, c.utf8 = some head ∧ encode s = some tail ∧ bytes = head ++ tail := by
  simp only [encode, List.mapM_cons]
  cases hc : c.utf8 with
  | none => simp
  | some head =>
      cases hs : s.mapM CodePoint.utf8 with
      | none => simp
      | some tails => simp [eq_comm]

theorem encodeReplace_append (s t : Str) :
    encodeReplace (s ++ t) = encodeReplace s ++ encodeReplace t := List.flatMap_append

/-- Where encoding succeeds nothing is replaced. -/
theorem encodeReplace_of_encode {s : Str} {bytes : Bytes} (h : encode s = some bytes) :
    encodeReplace s = bytes := by
  induction s generalizing bytes with
  | nil => simpa [encodeReplace] using h
  | cons c s ih =>
      obtain ⟨head, tail, hc, hs, rfl⟩ := encode_cons_eq_some.mp h
      rw [encodeReplace, List.flatMap_cons, hc, Option.getD_some]
      exact congrArg _ (ih hs)

/-- A string encodes when all its characters do. -/
theorem encode_isSome {s : Str} : (encode s).isSome ↔ ∀ c ∈ s, c.utf8.isSome := by
  induction s with
  | nil => simp
  | cons c s ih =>
      rw [List.forall_mem_cons, ← ih]
      constructor
      · intro h
        obtain ⟨bytes, hbytes⟩ := Option.isSome_iff_exists.mp h
        obtain ⟨head, tail, hc, hs, -⟩ := encode_cons_eq_some.mp hbytes
        simp [hc, hs]
      · rintro ⟨hc, hs⟩
        obtain ⟨head, hhead⟩ := Option.isSome_iff_exists.mp hc
        obtain ⟨tail, htail⟩ := Option.isSome_iff_exists.mp hs
        rw [encode_cons_eq_some.mpr ⟨head, tail, hhead, htail, rfl⟩]
        rfl

theorem encode_append {s t : Str} {a b : Bytes} (hs : encode s = some a)
    (ht : encode t = some b) : encode (s ++ t) = some (a ++ b) := by
  induction s generalizing a with
  | nil => simp_all
  | cons c s ih =>
      obtain ⟨head, tail, hc, htail, rfl⟩ := encode_cons_eq_some.mp hs
      exact encode_cons_eq_some.mpr ⟨head, tail ++ b, hc, ih htail, by simp⟩

theorem encode_ascii {s : Str} (hs : ∀ c ∈ s, c.isAscii) :
    encode s = some (s.map CodePoint.toByte) := by
  induction s with
  | nil => rfl
  | cons c s ih =>
      refine encode_cons_eq_some.mpr ⟨[c.toByte], s.map CodePoint.toByte, ?_, ?_, rfl⟩
      · exact CodePoint.utf8_ascii (hs c List.mem_cons_self)
      · exact ih fun d hd => hs d (List.mem_cons_of_mem _ hd)

/-- An ASCII byte of an encoding is a character of the string, or a replacement. -/
theorem mem_of_mem_encodeReplace {s : Str} {b : UInt8} (hb : b ∈ encodeReplace s)
    (hascii : b.toNat < 0x80) (hmark : b ≠ 0x3f) : CodePoint.ofByte b ∈ s := by
  obtain ⟨c, hc, hb⟩ := List.mem_flatMap.mp hb
  cases hutf : c.utf8 with
  | none =>
      rw [hutf] at hb
      exact absurd (List.mem_singleton.mp hb) hmark
  | some bytes =>
      rw [hutf, Option.getD_some] at hb
      cases ha : c.isAscii with
      | false => exact absurd (CodePoint.le_of_mem_utf8 ha hutf b hb) (by omega)
      | true =>
          obtain rfl : [c.toByte] = bytes := by
            have := (CodePoint.utf8_ascii ha).symm.trans hutf
            exact Option.some.inj this
          rw [List.mem_singleton.mp hb, CodePoint.ofByte_toByte ha]
          exact hc

/-- Decoding gives back what was encoded. -/
theorem decode_of_encode {s : Str} {bytes : Bytes} (h : encode s = some bytes) :
    decode bytes = some s := by
  have hchars : ∃ chars : List Char, s = chars.map CodePoint.char ∧
      bytes = chars.flatMap String.utf8EncodeChar := by
    induction s generalizing bytes with
    | nil => exact ⟨[], rfl, by simpa using h.symm⟩
    | cons c s ih =>
        obtain ⟨head, tail, hc, hs, rfl⟩ := encode_cons_eq_some.mp h
        obtain ⟨chars, rfl, rfl⟩ := ih hs
        cases c with
        | surrogate n => simp [CodePoint.utf8] at hc
        | char c =>
            simp only [CodePoint.utf8, Option.some.injEq] at hc
            exact ⟨c :: chars, rfl, by simp [hc]⟩
  obtain ⟨chars, rfl, rfl⟩ := hchars
  have hdecode : (chars.flatMap String.utf8EncodeChar).toByteArray.utf8Decode? =
      some chars.toArray := List.utf8Decode?_utf8Encode
  simp [decode, hdecode]

theorem map_toByte_latin1 (bytes : Bytes) : (latin1 bytes).map CodePoint.toByte = bytes := by
  simp only [latin1, List.map_map]
  exact (List.map_congr_left fun b _ => CodePoint.toByte_ofByte b).trans (List.map_id bytes)

/-! ## Letter case -/

/-- What Unicode's tables say of the characters that are not ASCII. -/
structure Casing where
  /-- Lower case of a character between what stands before and after it. -/
  lower : Str → CodePoint → Str → Str
  /-- A decimal digit. -/
  digit : CodePoint → Bool
  slash_notMem : ∀ before c after, slash ∉ lower before c after

variable (u : Casing)

def lowerFrom (before : Str) : Str → Str
  | [] => []
  | c :: after =>
      (if c.isAscii then [c.asciiLower] else u.lower before c after) ++
        lowerFrom (before ++ [c]) after

/-- `s.lower()`. -/
def lower (s : Str) : Str := lowerFrom u [] s

/-- `\d`. -/
def isDigit (c : CodePoint) : Bool :=
  if c.isAscii then 0x30 ≤ c.toNat && c.toNat ≤ 0x39 else u.digit c

theorem toLower_eq_slash {c : Char} : c.toLower = '/' ↔ c = '/' := by
  constructor
  · intro h
    unfold Char.toLower at h
    split at h
    · rename_i hup
      have hval := congrArg Char.toNat h
      simp only [Char.toNat, UInt32.le_iff_toNat_le, ge_iff_le, UInt32.toNat_add] at hup hval
      have h47 : ('/' : Char).val.toNat = 47 := rfl
      have h65 : ('A' : Char).val.toNat = 65 := rfl
      have h90 : ('Z' : Char).val.toNat = 90 := rfl
      have h32 : (('a' : Char).val - ('A' : Char).val).toNat = 32 := rfl
      omega
    · exact h
  · rintro rfl
    rfl

/-- Upper-casing makes nothing but capitals. -/
theorem eq_of_asciiUpper_eq {c d : CodePoint} (hd : ¬ (0x41 ≤ d.toNat ∧ d.toNat ≤ 0x5a))
    (h : c.asciiUpper = d) : c = d := by
  cases c with
  | surrogate n => exact h
  | char c =>
      subst h
      simp only [CodePoint.asciiUpper, CodePoint.toNat, CodePoint.char.injEq] at hd ⊢
      unfold Char.toUpper at hd ⊢
      split
      · rename_i hlow
        rw [dif_pos hlow] at hd
        refine absurd ?_ hd
        simp only [Char.toNat, UInt32.le_iff_toNat_le, UInt32.toNat_add] at hlow ⊢
        have h97 : ('a' : Char).val.toNat = 97 := rfl
        have h122 : ('z' : Char).val.toNat = 122 := rfl
        have h32 : (('A' : Char).val - ('a' : Char).val).toNat = 2 ^ 32 - 32 := rfl
        omega
      · rfl

theorem asciiLower_eq_slash {c : CodePoint} : c.asciiLower = slash ↔ c = slash := by
  cases c with
  | surrogate n => simp [CodePoint.asciiLower, slash]
  | char c => simp [CodePoint.asciiLower, slash, toLower_eq_slash]

theorem slash_mem_lowerFrom (before s : Str) : slash ∈ lowerFrom u before s ↔ slash ∈ s := by
  induction s generalizing before with
  | nil => simp [lowerFrom]
  | cons c after ih =>
      rw [lowerFrom, List.mem_append, ih, List.mem_cons]
      refine or_congr_left ?_
      split
      · rw [List.mem_singleton, eq_comm, asciiLower_eq_slash, eq_comm]
      · rename_i hc
        refine ⟨fun h => absurd h (u.slash_notMem _ _ _), ?_⟩
        rintro rfl
        exact absurd rfl hc

/-- Lower-casing neither makes nor removes slashes. -/
theorem slash_mem_lower (s : Str) : slash ∈ lower u s ↔ slash ∈ s :=
  slash_mem_lowerFrom u [] s

/-- An ASCII character is lower-cased wherever it stands. -/
theorem asciiLower_mem_lower {s : Str} {c : CodePoint} (hc : c ∈ s) (hascii : c.isAscii) :
    c.asciiLower ∈ lower u s := by
  obtain ⟨before, after, rfl⟩ := List.append_of_mem hc
  have hfrom (start : Str) : c.asciiLower ∈ lowerFrom u start (before ++ c :: after) := by
    clear hc
    induction before generalizing start with
    | nil => simp [lowerFrom, hascii]
    | cons b before ih =>
        rw [List.cons_append, lowerFrom]
        exact List.mem_append_right _ (ih _)
  exact hfrom []

theorem lowerFrom_append_ascii (before s : Str) {t : Str} (ht : ∀ c ∈ t, c.isAscii) :
    ∃ s', lowerFrom u before (s ++ t) = s' ++ t.map CodePoint.asciiLower := by
  induction s generalizing before with
  | nil =>
      refine ⟨[], ?_⟩
      induction t generalizing before with
      | nil => rfl
      | cons c t ih =>
          have hrest := ih (fun d hd => ht d (List.mem_cons_of_mem _ hd)) (before ++ [c])
          simp only [List.nil_append] at hrest ⊢
          rw [lowerFrom, if_pos (ht c List.mem_cons_self), hrest]
          rfl
  | cons c s ih =>
      obtain ⟨s', hs'⟩ := ih (before ++ [c])
      exact ⟨_, by rw [List.cons_append, lowerFrom, hs', ← List.append_assoc]⟩

/-- An ASCII ending is lower-cased by itself. -/
theorem lower_append_ascii (s : Str) {t : Str} (ht : ∀ c ∈ t, c.isAscii) :
    ∃ s', lower u (s ++ t) = s' ++ t.map CodePoint.asciiLower :=
  lowerFrom_append_ascii u [] s ht

end Text

end Ps2Servers
