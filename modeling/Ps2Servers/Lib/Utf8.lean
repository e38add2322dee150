import Ps2Servers.Lib.Utf16

/-!
# Decoding UTF-8 that was cut

Decoding with replacement characters gives back what was encoded, and a character that
is cut off at the end becomes one replacement character.
-/

namespace Ps2Servers.Text

/-! ## One sequence -/

theorem decodeReplaceFrom_of_le {fuel more : Nat} {bytes : Bytes} (h : bytes.length ≤ fuel)
    (hmore : bytes.length ≤ more) : decodeReplaceFrom fuel bytes = decodeReplaceFrom more bytes := by
  induction fuel generalizing more bytes with
  | zero =>
      obtain rfl := List.length_eq_zero_iff.mp (Nat.le_zero.mp h)
      cases more <;> rfl
  | succ fuel ih =>
      cases bytes with
      | nil => cases more <;> rfl
      | cons lead rest =>
          cases more with
          | zero => cases hmore
          | succ more =>
              unfold decodeReplaceFrom
              rw [List.length_cons] at h hmore
              dsimp only
              rw [ih]
              · rw [List.length_drop]
                omega
              · rw [List.length_drop]
                omega

/-- What the first sequence of a byte string becomes. -/
theorem decodeReplace_cons (lead : UInt8) (rest : Bytes) :
    decodeReplace (lead :: rest) =
      let tail := continuing (isSecond lead) (sequenceLength lead - 1) rest
      let c := if tail.length + 1 = sequenceLength lead then sequenceValue lead tail else 0xfffd
      .char (Char.ofNat c) :: decodeReplace (rest.drop tail.length) := by
  unfold decodeReplace
  rw [List.length_cons, decodeReplaceFrom]
  dsimp only
  rw [decodeReplaceFrom_of_le (by rw [List.length_drop]; omega) (Nat.le_refl _)]

/-- Bytes that continue a sequence are taken up to the number asked for. -/
theorem continuing_append {ok : UInt8 → Bool} {b : UInt8} (hb : ok b = true) {tail : Bytes}
    (htail : ∀ b ∈ tail, isContinuation b = true) (rest : Bytes) :
    continuing ok (tail.length + 1) (b :: tail ++ rest) = b :: tail := by
  rw [List.cons_append, continuing, if_pos hb]
  congr 1
  clear hb
  induction tail with
  | nil => cases rest <;> rfl
  | cons c tail ih =>
      rw [List.length_cons, List.cons_append, continuing, if_pos (htail c List.mem_cons_self),
        ih fun b hb => htail b (List.mem_cons_of_mem c hb)]

/-- Where the bytes end early, all of them are taken. -/
theorem continuing_all {ok : UInt8 → Bool} {tail : Bytes} (hfirst : ∀ b ∈ tail.head?, ok b = true)
    (htail : ∀ b ∈ tail.tail, isContinuation b = true) {n : Nat} (hn : tail.length ≤ n) :
    continuing ok n tail = tail := by
  induction tail generalizing ok n with
  | nil => cases n <;> rfl
  | cons b tail ih =>
      cases n with
      | zero => cases hn
      | succ n =>
          rw [continuing, if_pos (hfirst b rfl)]
          congr 1
          apply ih
          · intro c hc
            exact htail c (List.mem_of_mem_head? hc)
          · intro c hc
            exact htail c (List.mem_of_mem_tail hc)
          · exact Nat.le_of_succ_le_succ hn

/-- A complete sequence: how long its first byte says it is, and its code point. -/
structure Sequence (lead : UInt8) (tail : Bytes) (c : Char) : Prop where
  length : sequenceLength lead = tail.length + 1
  second : ∀ b ∈ tail.head?, isSecond lead b = true
  rest : ∀ b ∈ tail.tail, isContinuation b = true
  value : sequenceValue lead tail = c.toNat

theorem isContinuation_iff {b : UInt8} :
    isContinuation b = true ↔ 0x80 ≤ b.toNat ∧ b.toNat ≤ 0xbf := by
  simp [isContinuation, UInt8.le_iff_toNat_le]

theorem sequenceLength_eq (lead : UInt8) : sequenceLength lead =
    if lead.toNat < 0x80 then 1
    else if lead.toNat < 0xc2 then 0
    else if lead.toNat < 0xe0 then 2
    else if lead.toNat < 0xf0 then 3
    else if lead.toNat < 0xf5 then 4
    else 0 := by
  simp [sequenceLength, UInt8.lt_iff_toNat_lt]

theorem isSecond_of {lead b : UInt8} (hb : isContinuation b = true)
    (he0 : lead.toNat = 0xe0 → 0xa0 ≤ b.toNat) (hed : lead.toNat = 0xed → b.toNat ≤ 0x9f)
    (hf0 : lead.toNat = 0xf0 → 0x90 ≤ b.toNat) (hf4 : lead.toNat = 0xf4 → b.toNat ≤ 0x8f) :
    isSecond lead b = true := by
  unfold isSecond
  rw [hb, Bool.true_and]
  split
  · rename_i h
    exact decide_eq_true (UInt8.le_iff_toNat_le.mpr (he0 (congrArg UInt8.toNat h)))
  split
  · rename_i h
    exact decide_eq_true (UInt8.le_iff_toNat_le.mpr (hed (congrArg UInt8.toNat h)))
  split
  · rename_i h
    exact decide_eq_true (UInt8.le_iff_toNat_le.mpr (hf0 (congrArg UInt8.toNat h)))
  split
  · rename_i h
    exact decide_eq_true (UInt8.le_iff_toNat_le.mpr (hf4 (congrArg UInt8.toNat h)))
  · rfl

/-- A continuation byte. -/
theorem isContinuation_ofNat (n : Nat) :
    isContinuation (UInt8.ofNat (n % 0x40 + 0x80)) = true := by
  rw [isContinuation_iff, UInt8.toNat_ofNat']
  omega

/-- The encoding of a character is one sequence. -/
theorem sequence_utf8EncodeChar (c : Char) : ∃ lead tail,
    String.utf8EncodeChar c = lead :: tail ∧ Sequence lead tail c := by
  have hvalid : c.val.toNat < 0xd800 ∨ 0xdfff < c.val.toNat ∧ c.val.toNat < 0x110000 := c.valid
  have htoNat : c.toNat = c.val.toNat := rfl
  unfold String.utf8EncodeChar
  dsimp only
  generalize c.val.toNat = v at hvalid htoNat
  split
  · refine ⟨_, _, rfl, ?_, ?_, ?_, ?_⟩
    · rw [sequenceLength_eq, UInt8.toNat_ofNat', if_pos (by omega)]
      rfl
    · rintro b ⟨⟩
    · rintro b ⟨⟩
    · simp [sequenceValue, htoNat]
      omega
  split
  · refine ⟨_, _, rfl, ?_, ?_, ?_, ?_⟩
    · rw [sequenceLength_eq, UInt8.toNat_ofNat', if_neg (by omega), if_neg (by omega),
        if_pos (by omega)]
      rfl
    · rintro b ⟨⟩
      apply isSecond_of (isContinuation_ofNat v) <;> rw [UInt8.toNat_ofNat'] <;> omega
    · rintro b ⟨⟩
    · simp [sequenceValue, htoNat]
      omega
  split
  · refine ⟨_, _, rfl, ?_, ?_, ?_, ?_⟩
    · rw [sequenceLength_eq, UInt8.toNat_ofNat', if_neg (by omega), if_neg (by omega),
        if_neg (by omega), if_pos (by omega)]
      rfl
    · rintro b ⟨⟩
      apply isSecond_of (isContinuation_ofNat (v / 64)) <;>
        rw [UInt8.toNat_ofNat', UInt8.toNat_ofNat'] <;> omega
    · intro b hb
      obtain rfl := List.mem_singleton.mp hb
      exact isContinuation_ofNat v
    · simp [sequenceValue, htoNat]
      omega
  · refine ⟨_, _, rfl, ?_, ?_, ?_, ?_⟩
    · rw [sequenceLength_eq, UInt8.toNat_ofNat', if_neg (by omega), if_neg (by omega),
        if_neg (by omega), if_neg (by omega), if_pos (by omega)]
      rfl
    · rintro b ⟨⟩
      apply isSecond_of (isContinuation_ofNat (v / 4096)) <;>
        rw [UInt8.toNat_ofNat', UInt8.toNat_ofNat'] <;> omega
    · intro b hb
      simp only [List.tail_cons, List.mem_cons, List.not_mem_nil, or_false] at hb
      rcases hb with rfl | rfl
      · exact isContinuation_ofNat (v / 64)
      · exact isContinuation_ofNat v
    · simp [sequenceValue, htoNat]
      omega

/-! ## Whole strings -/

theorem Sequence.decode {lead : UInt8} {tail : Bytes} {c : Char} (h : Sequence lead tail c)
    (rest : Bytes) : decodeReplace (lead :: tail ++ rest) = .char c :: decodeReplace rest := by
  have htaken : continuing (isSecond lead) (sequenceLength lead - 1) (tail ++ rest) = tail := by
    rw [h.length, Nat.add_sub_cancel]
    cases tail with
    | nil => cases rest <;> rfl
    | cons b tail => exact continuing_append (h.second b rfl) h.rest rest
  have hchar : Char.ofNat c.toNat = c := Char.ofNat_toNat c
  rw [List.cons_append, decodeReplace_cons]
  dsimp only
  rw [htaken, if_pos h.length.symm, h.value, hchar, List.drop_left]

/-- A sequence without its last bytes is replaced as a whole. -/
theorem Sequence.decode_cut {lead : UInt8} {tail : Bytes} {c : Char} (h : Sequence lead tail c)
    {n : Nat} (hn : n < tail.length) : decodeReplace (lead :: tail.take n) = [replacement] := by
  have htaken : continuing (isSecond lead) (sequenceLength lead - 1) (tail.take n) =
      tail.take n := by
    apply continuing_all
    · intro b hb
      apply h.second b
      cases tail with
      | nil => cases hn
      | cons d tail =>
          cases n with
          | zero => cases hb
          | succ n => exact hb
    · intro b hb
      apply h.rest b
      cases tail with
      | nil => cases hn
      | cons d tail =>
          cases n with
          | zero => cases hb
          | succ n => exact List.mem_of_mem_take hb
    · rw [h.length, Nat.add_sub_cancel]
      exact List.length_take_le' n tail
  have hlength : (tail.take n).length = n := List.length_take_of_le (Nat.le_of_lt hn)
  rw [decodeReplace_cons]
  dsimp only
  rw [htaken, if_neg (by rw [h.length, hlength]; omega), List.drop_length]
  rfl

/-- What an encoding that replaces makes of a code point. -/
def replaced : CodePoint → CodePoint
  | .char c => .char c
  | .surrogate _ => .char '?'

theorem sequence_replaced (c : CodePoint) : ∃ lead tail d,
    c.utf8.getD [0x3f] = lead :: tail ∧ Sequence lead tail d ∧ replaced c = .char d := by
  cases c with
  | char c =>
      obtain ⟨lead, tail, hcons, hsequence⟩ := sequence_utf8EncodeChar c
      exact ⟨lead, tail, c, hcons, hsequence, rfl⟩
  | surrogate n =>
      obtain ⟨lead, tail, hcons, hsequence⟩ := sequence_utf8EncodeChar '?'
      exact ⟨lead, tail, '?', hcons, hsequence, rfl⟩

theorem encodeReplace_cons (c : CodePoint) (s : Str) :
    encodeReplace (c :: s) = c.utf8.getD [0x3f] ++ encodeReplace s := List.flatMap_cons

/-- Of an encoding that is cut, the characters that are whole come back, and one replacement
character if there is a part of another. -/
theorem decodeReplace_take (s : Str) (n : Nat) : ∃ k ≤ s.length,
    (encodeReplace (s.take k)).length ≤ n ∧
    (k < s.length → n < (encodeReplace (s.take (k + 1))).length) ∧
    decodeReplace ((encodeReplace s).take n) = (s.take k).map replaced ++
      if k < s.length ∧ (encodeReplace (s.take k)).length < n then [replacement] else [] := by
  induction s generalizing n with
  | nil =>
      refine ⟨0, Nat.le_refl 0, Nat.zero_le n, fun h => absurd h (Nat.lt_irrefl 0), ?_⟩
      rw [if_neg fun h => absurd h.1 (Nat.lt_irrefl 0)]
      change decodeReplace (([] : Bytes).take n) = []
      rw [List.take_nil]
      rfl
  | cons c s ih =>
      obtain ⟨lead, tail, d, hcons, hsequence, hd⟩ := sequence_replaced c
      have hlength : ∀ t : Str, (encodeReplace (c :: t)).length =
          (lead :: tail).length + (encodeReplace t).length := by
        intro t
        rw [encodeReplace_cons, hcons, List.length_append]
      by_cases hfits : (lead :: tail).length ≤ n
      · obtain ⟨k, hk, hshort, hnext, hdecode⟩ := ih (n - (lead :: tail).length)
        refine ⟨k + 1, Nat.succ_le_succ hk, ?_, ?_, ?_⟩
        · rw [List.take_succ_cons, hlength]
          omega
        · intro h
          have := hnext (Nat.lt_of_succ_lt_succ h)
          rw [List.take_succ_cons, hlength]
          omega
        · have hsplit : (encodeReplace (c :: s)).take n =
              lead :: tail ++ (encodeReplace s).take (n - (lead :: tail).length) := by
            rw [encodeReplace_cons, hcons, List.take_append, List.take_of_length_le hfits]
          rw [hsplit, hsequence.decode, hdecode, List.take_succ_cons, List.map_cons, hd, hlength,
            List.length_cons, List.length_cons, List.cons_append]
          congr 2
          rw [List.length_cons] at hfits
          exact if_congr (by omega) rfl rfl
      · refine ⟨0, Nat.zero_le _, Nat.zero_le n, ?_, ?_⟩
        · intro _
          rw [List.take_succ_cons, hlength]
          omega
        · have hsplit : (encodeReplace (c :: s)).take n = (lead :: tail).take n := by
            rw [encodeReplace_cons, hcons, List.take_append_of_le_length (by omega)]
          rw [hsplit, List.take_zero, List.map_nil, List.nil_append]
          cases n with
          | zero => rfl
          | succ n =>
              rw [List.length_cons] at hfits
              rw [List.take_succ_cons, hsequence.decode_cut (by omega),
                if_pos ⟨Nat.succ_pos _, Nat.succ_pos n⟩]

/-- Encoding gives back what was decoded. -/
theorem encode_of_decode {s : Str} {bytes : Bytes} (h : decode bytes = some s) :
    encode s = some bytes := by
  obtain ⟨chars, hchars, rfl⟩ := Option.map_eq_some_iff.mp h
  have hbytes : chars.toList.utf8Encode = bytes.toByteArray := by
    have hget := @ByteArray.utf8Encode_get_utf8Decode? bytes.toByteArray (by rw [hchars]; rfl)
    rwa [Option.get_of_eq_some _ hchars] at hget
  have hencode (l : List Char) :
      encode (l.map CodePoint.char) = some (l.flatMap String.utf8EncodeChar) := by
    induction l with
    | nil => rfl
    | cons c rest ih => exact encode_cons_eq_some.mpr ⟨_, _, rfl, ih, List.flatMap_cons⟩
  rw [hencode]
  exact congrArg some (List.toByteArray_inj.mp hbytes)

end Ps2Servers.Text
