import Ps2Servers.Lib.Text
import Mathlib.Data.List.DropRight
import Mathlib.Data.List.SplitBy
import Mathlib.Tactic.IntervalCases

/-!
# Paths and percent-encoding

POSIX paths as `posixpath` handles them, and the percent-encoding of request
paths. `normpath` leaves a path alone whose segments are all ordinary, and
`unquote` undoes an encoding that leaves no escape of its own.
-/

namespace Ps2Servers.Text

/-! ## Paths -/

/-- `"/".join`. -/
def joinSlash (segments : List Str) : Str := [slash].intercalate segments

/-- What `posixpath.normpath` does with one segment. -/
def normStep (rooted : Bool) (comps : List Str) (comp : Str) : List Str :=
  if comp = [] ∨ comp = lit "." then comps
  else if comp ≠ lit ".." ∨ (!rooted ∧ comps = []) ∨ comps.getLast? = some (lit "..") then
    comps ++ [comp]
  else comps.dropLast

/-- The leading slashes that are kept: none, one, or exactly two. -/
def rootOf (path : Str) : Str :=
  if path.head? ≠ some slash then []
  else if path[1]? ≠ some slash ∨ path[2]? = some slash then [slash]
  else [slash, slash]

/-- `posixpath.normpath`. -/
def normpath (path : Str) : Str :=
  let root := rootOf path
  let comps := ((path.drop root.length).splitOn slash).foldl (normStep (root ≠ [])) []
  let joined := root ++ joinSlash comps
  if joined = [] then lit "." else joined

/-- `path.lstrip("/")`. -/
def lstripSlash (path : Str) : Str := path.dropWhile (· = slash)

/-- `posixpath.basename`. -/
def basename (path : Str) : Str := path.rtakeWhile (· ≠ slash)

/-- `posixpath.join` of two parts. -/
def join (a b : Str) : Str :=
  if b.head? = some slash then b
  else if a = [] ∨ a.getLast? = some slash then a ++ b
  else a ++ [slash] ++ b

/-- A segment that `normpath` keeps as it is. -/
def Ordinary (segment : Str) : Prop := segment ≠ [] ∧ segment ≠ lit "." ∧ segment ≠ lit ".."

instance (segment : Str) : Decidable (Ordinary segment) := inferInstanceAs (Decidable (_ ∧ _))

/-- A relative path all of whose segments are ordinary. -/
def Regular (path : Str) : Prop := ∀ segment ∈ path.splitOn slash, Ordinary segment

instance (path : Str) : Decidable (Regular path) := inferInstanceAs (Decidable (∀ _ ∈ _, _))

theorem foldl_normStep {rooted : Bool} {segments : List Str} (h : ∀ s ∈ segments, Ordinary s)
    (comps : List Str) : segments.foldl (normStep rooted) comps = comps ++ segments := by
  induction segments generalizing comps with
  | nil => simp
  | cons s segments ih =>
      obtain ⟨hne, hdot, hdots⟩ := h s List.mem_cons_self
      have hstep : normStep rooted comps s = comps ++ [s] := by
        rw [normStep, if_neg (by simp [hne, hdot]), if_pos (Or.inl hdots)]
      rw [List.foldl_cons, hstep, ih fun t ht => h t (List.mem_cons_of_mem _ ht)]
      simp

/-- A regular path has a first segment, so it starts with no slash. -/
theorem Regular.head {path : Str} (h : Regular path) : ∃ c rest, path = c :: rest ∧ c ≠ slash := by
  cases path with
  | nil => exact absurd rfl (h [] (by simp)).1
  | cons c rest =>
      refine ⟨c, rest, rfl, ?_⟩
      rintro rfl
      refine (h [] ?_).1 rfl
      have hsplit := List.splitOn_append_cons_self (a := slash) [] rest
      rw [List.nil_append] at hsplit
      rw [hsplit]
      simp

theorem Regular.lstripSlash {path : Str} (h : Regular path) : lstripSlash path = path := by
  obtain ⟨c, rest, rfl, hc⟩ := h.head
  simp [Text.lstripSlash, hc]

theorem Regular.normpath {path : Str} (h : Regular path) : normpath path = path := by
  obtain ⟨c, rest, rfl, hc⟩ := h.head
  have hroot : rootOf (c :: rest) = [] := by simp [rootOf, hc]
  simp only [Text.normpath, hroot, List.length_nil, List.drop_zero, foldl_normStep h,
    List.nil_append, joinSlash, List.intercalate_splitOn]
  simp

/-- Under a root a regular path stays as well. -/
theorem Regular.normpath_slash {path : Str} (h : Regular path) :
    Text.normpath (slash :: path) = slash :: path := by
  obtain ⟨c, rest, rfl, hc⟩ := h.head
  have hroot : rootOf (slash :: c :: rest) = [slash] := by simp [rootOf, hc]
  simp only [Text.normpath, hroot, List.length_singleton, List.drop_succ_cons, List.drop_zero,
    foldl_normStep h, List.nil_append, joinSlash, List.intercalate_splitOn]
  simp

/-- A single ordinary segment is a regular path. -/
theorem Ordinary.regular {segment : Str} (h : Ordinary segment) (hslash : slash ∉ segment) :
    Regular segment := by
  unfold Regular
  rw [List.splitOn_eq_singleton hslash]
  intro s hs
  rwa [List.mem_singleton.mp hs]

theorem basename_of_notMem {path : Str} (h : slash ∉ path) : basename path = path := by
  apply List.rtakeWhile_eq_self_iff.mpr
  intro c hc
  simp only [ne_eq, decide_not, Bool.not_eq_true', decide_eq_false_iff_not]
  rintro rfl
  exact h hc

theorem basename_append_slash (a : Str) {b : Str} (h : slash ∉ b) :
    basename (a ++ slash :: b) = b := by
  have hall : ∀ c ∈ b.reverse, decide (c ≠ slash) = true := by
    intro c hc
    simp only [ne_eq, decide_not, Bool.not_eq_true', decide_eq_false_iff_not]
    rintro rfl
    exact h (List.mem_reverse.mp hc)
  rw [basename, List.rtakeWhile, List.reverse_append, List.reverse_cons, List.append_assoc,
    List.takeWhile_append_of_pos hall, List.singleton_append,
    List.takeWhile_cons_of_neg (by simp), List.append_nil, List.reverse_reverse]

/-! ## Percent-encoding -/

def PERCENT : UInt8 := 0x25

def hexDigit (n : Nat) : UInt8 := if n < 10 then UInt8.ofNat (0x30 + n) else UInt8.ofNat (0x37 + n)

def hexVal (b : UInt8) : Option Nat :=
  if 0x30 ≤ b ∧ b ≤ 0x39 then some (b.toNat - 0x30)
  else if 0x41 ≤ b ∧ b ≤ 0x46 then some (b.toNat - 0x37)
  else if 0x61 ≤ b ∧ b ≤ 0x66 then some (b.toNat - 0x57)
  else none

/-- The byte that two hexadecimal digits at the head stand for. -/
def escaped : Bytes → Option UInt8
  | a :: b :: _ =>
      match hexVal a, hexVal b with
      | some x, some y => some (UInt8.ofNat (16 * x + y))
      | _, _ => none
  | _ => none

/-- `unquote_to_bytes`. -/
def unquoteBytes : Bytes → Bytes
  | [] => []
  | [a] => [a]
  | [a, b] => [a, b]
  | a :: b :: c :: rest =>
      if a = PERCENT then
        match escaped [b, c] with
        | some byte => byte :: unquoteBytes rest
        | none => a :: unquoteBytes (b :: c :: rest)
      else a :: unquoteBytes (b :: c :: rest)

/-- `unquote(s, errors="strict")`: runs of ASCII are decoded, the rest stays. -/
def unquote (s : Str) : Option Str :=
  if CodePoint.ofByte PERCENT ∈ s then
    ((s.splitBy fun a b : CodePoint => a.isAscii == b.isAscii).mapM fun run : Str =>
      if run.all CodePoint.isAscii then decode (unquoteBytes (run.map CodePoint.toByte))
      else some run).map List.flatten
  else some s

/-- Percent-encoding of the bytes outside `safe`. -/
def percentEncode (safe : UInt8 → Bool) (bytes : Bytes) : Bytes :=
  bytes.flatMap fun b =>
    if safe b then [b] else [PERCENT, hexDigit (b.toNat / 16), hexDigit (b.toNat % 16)]

/-- Some `%` stands before two hexadecimal digits. -/
def hasEscape : Bytes → Bool
  | [] => false
  | b :: rest => (b = PERCENT && (escaped rest).isSome) || hasEscape rest

theorem hexVal_hexDigit {n : Nat} (hn : n < 16) : hexVal (hexDigit n) = some n := by
  interval_cases n <;> rfl

theorem escaped_hexDigits (b : UInt8) (rest : Bytes) :
    escaped (hexDigit (b.toNat / 16) :: hexDigit (b.toNat % 16) :: rest) = some b := by
  have hb := b.toNat_lt
  rw [escaped, hexVal_hexDigit (by omega), hexVal_hexDigit (by omega)]
  simp only [Nat.div_add_mod, UInt8.ofNat_toNat]

/-- An escape is replaced by its byte. -/
theorem unquoteBytes_escape (b : UInt8) (rest : Bytes) :
    unquoteBytes (PERCENT :: hexDigit (b.toNat / 16) :: hexDigit (b.toNat % 16) :: rest) =
      b :: unquoteBytes rest := by
  rw [unquoteBytes, if_pos rfl, escaped_hexDigits]

/-- Everything else stays. -/
theorem unquoteBytes_cons {b : UInt8} {rest : Bytes} (h : b = PERCENT → escaped rest = none) :
    unquoteBytes (b :: rest) = b :: unquoteBytes rest := by
  match rest with
  | [] => rfl
  | [c] => rfl
  | c :: d :: rest =>
      rw [unquoteBytes]
      split
      · rename_i hb
        have hnone : escaped [c, d] = none := h hb
        rw [hnone]
      · rfl

theorem percentEncode_cons (safe : UInt8 → Bool) (b : UInt8) (bytes : Bytes) :
    percentEncode safe (b :: bytes) =
      (if safe b then [b] else [PERCENT, hexDigit (b.toNat / 16), hexDigit (b.toNat % 16)]) ++
        percentEncode safe bytes := rfl

theorem hexVal_percent : hexVal PERCENT = none := rfl

/-- Encoding does not put two digits where there were none. -/
theorem escaped_percentEncode {safe : UInt8 → Bool} {bytes : Bytes} (h : escaped bytes = none) :
    escaped (percentEncode safe bytes) = none := by
  cases bytes with
  | nil => rfl
  | cons b bytes =>
      rw [percentEncode_cons]
      cases hb : safe b with
      | false => rfl
      | true =>
          cases bytes with
          | nil => rfl
          | cons c bytes =>
              rw [percentEncode_cons]
              cases hc : safe c with
              | false =>
                  simp only [if_true, Bool.false_eq_true, if_false, List.cons_append,
                    List.nil_append, escaped, hexVal_percent]
                  cases hexVal b <;> rfl
              | true => exact h

/-- Unquoting undoes an encoding, unless an escape was there before it. -/
theorem unquoteBytes_percentEncode {safe : UInt8 → Bool} {bytes : Bytes}
    (h : safe PERCENT = false ∨ hasEscape bytes = false) :
    unquoteBytes (percentEncode safe bytes) = bytes := by
  induction bytes with
  | nil => rfl
  | cons b bytes ih =>
      have hrest : safe PERCENT = false ∨ hasEscape bytes = false := by
        refine h.imp_right fun h => ?_
        simp only [hasEscape, Bool.or_eq_false_iff] at h
        exact h.2
      rw [percentEncode_cons]
      cases hb : safe b with
      | false =>
          have hesc := unquoteBytes_escape b (percentEncode safe bytes)
          simpa [ih hrest] using hesc
      | true =>
          have hcons : unquoteBytes (b :: percentEncode safe bytes) =
              b :: unquoteBytes (percentEncode safe bytes) := by
            apply unquoteBytes_cons
            rintro rfl
            apply escaped_percentEncode
            obtain h | h := h
            · exact absurd (hb.symm.trans h) (by decide)
            · simp only [hasEscape, Bool.or_eq_false_iff] at h
              simpa using h.1
          simpa [ih hrest] using hcons

theorem unquoteBytes_of_notMem {bytes : Bytes} (h : PERCENT ∉ bytes) :
    unquoteBytes bytes = bytes := by
  induction bytes with
  | nil => rfl
  | cons b bytes ih =>
      have hb : b ≠ PERCENT := fun hb => h (hb ▸ List.mem_cons_self)
      rw [unquoteBytes_cons fun h => absurd h hb, ih fun hm => h (List.mem_cons_of_mem _ hm)]

/-- An ASCII string is one run. -/
theorem unquote_ascii {s : Str} (hs : ∀ c ∈ s, c.isAscii) :
    unquote s = decode (unquoteBytes (s.map CodePoint.toByte)) := by
  unfold unquote
  split
  · rename_i hmem
    have hne : s ≠ [] := List.ne_nil_of_mem hmem
    have hchain : s.IsChain fun a b : CodePoint => a.isAscii == b.isAscii := by
      apply List.Pairwise.isChain
      exact List.pairwise_of_forall_mem_list fun a ha b hb => by simp [hs a ha, hs b hb]
    rw [List.splitBy_of_isChain hne hchain]
    rw [List.mapM_cons, List.mapM_nil, if_pos (List.all_eq_true.mpr hs)]
    cases decode (unquoteBytes (s.map CodePoint.toByte)) <;> simp
  · rename_i hmem
    have hbytes : PERCENT ∉ s.map CodePoint.toByte := by
      intro h
      obtain ⟨c, hc, hb⟩ := List.mem_map.mp h
      refine hmem ?_
      rw [← hb, CodePoint.ofByte_toByte (hs c hc)]
      exact hc
    rw [unquoteBytes_of_notMem hbytes, decode_of_encode (encode_ascii hs)]

/-- The bytes of an encoding are safe bytes of the original, or belong to an escape. -/
theorem forall_mem_percentEncode {safe : UInt8 → Bool} {bytes : Bytes} {P : UInt8 → Prop}
    (hpercent : P PERCENT) (hhex : ∀ n < 16, P (hexDigit n))
    (hsafe : ∀ b ∈ bytes, safe b → P b) : ∀ b ∈ percentEncode safe bytes, P b := by
  intro b hb
  obtain ⟨a, ha, hb⟩ := List.mem_flatMap.mp hb
  have hlt := a.toNat_lt
  split at hb
  · rename_i hs
    rw [List.mem_singleton.mp hb]
    exact hsafe a ha hs
  · simp only [List.mem_cons, List.not_mem_nil, or_false] at hb
    rcases hb with rfl | rfl | rfl
    · exact hpercent
    · exact hhex _ (by omega)
    · exact hhex _ (by omega)

theorem latin1_ascii {bytes : Bytes} (h : ∀ b ∈ bytes, b.toNat < 0x80) :
    ∀ c ∈ latin1 bytes, c.isAscii := by
  intro c hc
  obtain ⟨b, hb, rfl⟩ := List.mem_map.mp hc
  rw [CodePoint.isAscii, CodePoint.toNat_ofByte]
  exact decide_eq_true (h b hb)

/-- An encoded string is unquoted to the string. -/
theorem unquote_percentEncode {safe : UInt8 → Bool} {s : Str} {bytes : Bytes}
    (hs : encode s = some bytes) (h : safe PERCENT = false ∨ hasEscape bytes = false)
    (hascii : ∀ b ∈ percentEncode safe bytes, b.toNat < 0x80) :
    unquote (latin1 (percentEncode safe bytes)) = some s := by
  rw [unquote_ascii (latin1_ascii hascii), map_toByte_latin1, unquoteBytes_percentEncode h,
    decode_of_encode hs]

/-- An encoding starts with a safe byte only if the original does. -/
theorem head_percentEncode {safe : UInt8 → Bool} {bytes : Bytes} {b : UInt8}
    (hb : b ≠ PERCENT) (h : (percentEncode safe bytes).head? = some b) : bytes.head? = some b := by
  cases bytes with
  | nil => exact h
  | cons a bytes =>
      rw [percentEncode_cons] at h
      split at h
      · exact h
      · exact absurd (Option.some.inj h).symm hb

end Ps2Servers.Text
