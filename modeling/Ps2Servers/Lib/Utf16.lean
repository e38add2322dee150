import Ps2Servers.Lib.Text

/-!
# UTF-16

Little-endian UTF-16. Encoding fails on a lone surrogate; decoding puts a
replacement character where the bytes are none. What was encoded is decoded.
-/

namespace Ps2Servers.Text

def utf16Char (c : Char) : Bytes :=
  if c.toNat < 0x10000 then .ofNat 2 c.toNat
  else .ofNat 2 (0xd800 + (c.toNat - 0x10000) / 0x400) ++
    .ofNat 2 (0xdc00 + (c.toNat - 0x10000) % 0x400)

/-- `s.encode("utf-16-le")`. -/
def encodeUtf16 : Str → Option Bytes
  | [] => some []
  | .surrogate _ :: _ => none
  | .char c :: rest => (encodeUtf16 rest).map (utf16Char c ++ ·)

def replacement : CodePoint := .char (Char.ofNat 0xfffd)

/-- `bytes.decode("utf-16-le", "replace")`. A high surrogate at the end takes an odd last byte
with it. -/
def decodeUtf16 : Bytes → Str
  | a :: b :: rest =>
      let unit := a.toNat + 256 * b.toNat
      if unit < 0xd800 ∨ 0xe000 ≤ unit then .char (Char.ofNat unit) :: decodeUtf16 rest
      else if 0xdc00 ≤ unit then replacement :: decodeUtf16 rest
      else
        match rest with
        | c :: d :: rest' =>
            let low := c.toNat + 256 * d.toNat
            if 0xdc00 ≤ low ∧ low < 0xe000 then
              .char (Char.ofNat (0x10000 + (unit - 0xd800) * 0x400 + (low - 0xdc00))) ::
                decodeUtf16 rest'
            else replacement :: decodeUtf16 (c :: d :: rest')
        | _ => [replacement]
  | [_] => [replacement]
  | [] => []

/-- A unit as two bytes. -/
theorem unit_bytes (n : Nat) :
    (UInt8.ofNat (n % 256)).toNat + 256 * (UInt8.ofNat (n / 256 % 256)).toNat = n % 65536 := by
  have hlow : (UInt8.ofNat (n % 256)).toNat = n % 256 := by simp
  have hhigh : (UInt8.ofNat (n / 256 % 256)).toNat = n / 256 % 256 := by simp
  rw [hlow, hhigh]
  omega

theorem decodeUtf16_char (c : Char) (rest : Bytes) :
    decodeUtf16 (utf16Char c ++ rest) = .char c :: decodeUtf16 rest := by
  have hvalid : c.toNat < 0xd800 ∨ 0xdfff < c.toNat ∧ c.toNat < 0x110000 := c.valid
  unfold utf16Char
  split
  · rename_i hlow
    rw [Bytes.ofNat, Bytes.ofNat, Bytes.ofNat, List.cons_append, List.cons_append, List.nil_append,
      decodeUtf16.eq_def]
    dsimp only
    rw [unit_bytes, Nat.mod_eq_of_lt (by omega), if_pos (by omega), Char.ofNat_toNat]
  · rename_i hhigh
    have hcode : 0x10000 + (0xd800 + (c.toNat - 0x10000) / 0x400 - 0xd800) * 0x400 +
        (0xdc00 + (c.toNat - 0x10000) % 0x400 - 0xdc00) = c.toNat := by omega
    rw [Bytes.ofNat, Bytes.ofNat, Bytes.ofNat, Bytes.ofNat, Bytes.ofNat, Bytes.ofNat]
    simp only [List.cons_append, List.nil_append]
    rw [decodeUtf16.eq_def]
    dsimp only
    rw [unit_bytes, Nat.mod_eq_of_lt (by omega), if_neg (by omega), if_neg (by omega), unit_bytes,
      Nat.mod_eq_of_lt (by omega), if_pos (by omega), hcode, Char.ofNat_toNat]

/-- A text that is encoded starts with a character. -/
theorem encodeUtf16_cons {c : CodePoint} {rest : Str} {bytes : Bytes}
    (h : encodeUtf16 (c :: rest) = some bytes) :
    ∃ d tail, c = .char d ∧ encodeUtf16 rest = some tail ∧ utf16Char d ++ tail = bytes := by
  cases c with
  | surrogate n => cases h
  | char d =>
      rw [encodeUtf16, Option.map_eq_some_iff] at h
      obtain ⟨tail, htail, hbytes⟩ := h
      exact ⟨d, tail, rfl, htail, hbytes⟩

/-- What was encoded is decoded. -/
theorem decodeUtf16_encodeUtf16 {s : Str} {bytes : Bytes} (h : encodeUtf16 s = some bytes) :
    decodeUtf16 bytes = s := by
  induction s generalizing bytes with
  | nil =>
      cases h
      rfl
  | cons c rest ih =>
      obtain ⟨d, tail, rfl, htail, rfl⟩ := encodeUtf16_cons h
      rw [decodeUtf16_char, ih htail]

theorem length_utf16Char (c : Char) : (utf16Char c).length % 2 = 0 := by
  unfold utf16Char
  split
  · rw [Bytes.length_ofNat]
  · rw [List.length_append, Bytes.length_ofNat, Bytes.length_ofNat]

theorem length_encodeUtf16 {s : Str} {bytes : Bytes} (h : encodeUtf16 s = some bytes) :
    bytes.length % 2 = 0 := by
  induction s generalizing bytes with
  | nil =>
      cases h
      rfl
  | cons c rest ih =>
      obtain ⟨d, tail, rfl, htail, rfl⟩ := encodeUtf16_cons h
      have htail' := ih htail
      have hd := length_utf16Char d
      rw [List.length_append]
      omega

end Ps2Servers.Text
