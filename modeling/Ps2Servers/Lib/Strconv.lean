import Ps2Servers.Lib.Bytes

/-!
# Decimal numbers

64-bit integers and their decimal texts, as `strconv.Itoa` writes and `strconv.Atoi` reads them.
-/

namespace Ps2Servers.Strconv

def isDigit (b : UInt8) : Bool := 0x30 ≤ b && b ≤ 0x39

/-- The digits of a number. -/
def digits (n : Nat) : Bytes := (Nat.toDigits 10 n).map fun c => UInt8.ofNat c.toNat

def itoa (n : Int64) : Bytes :=
  if n.toInt < 0 then 0x2d :: digits n.toInt.natAbs else digits n.toInt.natAbs

def value (text : Bytes) : Nat := text.foldl (fun n b => 10 * n + (b.toNat - 0x30)) 0

/-- At least one digit and nothing else. -/
def unsigned (text : Bytes) : Option Nat :=
  if text ≠ [] ∧ text.all isDigit = true then some (value text) else none

/-- A number that an `int` holds. -/
def inRange (n : Int) : Option Int64 :=
  if -0x8000000000000000 ≤ n ∧ n < 0x8000000000000000 then some (Int64.ofInt n) else none

def atoi : Bytes → Option Int64
  | 0x2d :: text => (unsigned text).bind fun n => inRange (-n)
  | 0x2b :: text => (unsigned text).bind fun n => inRange n
  | text => (unsigned text).bind fun n => inRange n

theorem toNat_of_isDigit {c : Char} (h : c.isDigit = true) :
    (UInt8.ofNat c.toNat).toNat = c.toNat ∧ 0x30 ≤ c.toNat ∧ c.toNat ≤ 0x39 := by
  obtain ⟨hle, hge⟩ : 0x30 ≤ c.toNat ∧ c.toNat ≤ 0x39 := Char.isDigit_iff_toNat.mp h
  refine ⟨?_, hle, hge⟩
  rw [UInt8.toNat_ofNat']
  omega

theorem isDigit_of_mem_digits {n : Nat} {b : UInt8} (h : b ∈ digits n) : isDigit b = true := by
  obtain ⟨c, hc, rfl⟩ := List.mem_map.mp h
  obtain ⟨htoNat, hle, hge⟩ :=
    toNat_of_isDigit (Nat.isDigit_of_mem_toDigits (by decide) (by decide) hc)
  simp only [isDigit, Bool.and_eq_true, decide_eq_true_eq, UInt8.le_iff_toNat_le, htoNat]
  exact ⟨hle, hge⟩

theorem length_digits_le {n k : Nat} (hk : 0 < k) (h : n < 10 ^ k) : (digits n).length ≤ k := by
  rw [digits, List.length_map]
  exact (Nat.length_toDigits_le_iff (by decide) hk).mpr h

theorem digits_ne_nil (n : Nat) : digits n ≠ [] :=
  fun h => Nat.toDigits_ne_nil (List.map_eq_nil_iff.mp h)

theorem value_digits (n : Nat) : value (digits n) = n := by
  have hfold : ∀ (l : List Char) (init : Nat), (∀ c ∈ l, c.isDigit = true) →
      (l.map fun c => UInt8.ofNat c.toNat).foldl (fun n b => 10 * n + (b.toNat - 0x30)) init =
        Nat.ofDigitChars 10 l init := by
    intro l
    induction l with
    | nil => exact fun _ _ => rfl
    | cons c l ih =>
        intro init hall
        have hc := toNat_of_isDigit (hall c List.mem_cons_self)
        rw [List.map_cons, List.foldl_cons, ih _ fun d hd => hall d (List.mem_cons_of_mem _ hd),
          Nat.ofDigitChars_cons, hc.1]
        rfl
  rw [value, digits, hfold _ 0 fun c hc => Nat.isDigit_of_mem_toDigits (by decide) (by decide) hc]
  exact Nat.ofDigitChars_ten_toDigits

theorem unsigned_digits (n : Nat) : unsigned (digits n) = some n := by
  unfold unsigned
  rw [if_pos ⟨digits_ne_nil n, List.all_eq_true.mpr fun _ => isDigit_of_mem_digits⟩, value_digits]

theorem inRange_toInt (n : Int64) : inRange n.toInt = some n := by
  unfold inRange
  rw [if_pos ⟨n.le_toInt, n.toInt_lt⟩, Int64.ofInt_toInt]

/-- Without a sign. -/
theorem atoi_cons {b : UInt8} (hminus : b ≠ 0x2d) (hplus : b ≠ 0x2b) (rest : Bytes) :
    atoi (b :: rest) = (unsigned (b :: rest)).bind fun n => inRange n := by
  unfold atoi
  split
  · rename_i heq
    exact absurd (List.cons.inj heq).1 hminus
  · rename_i heq
    exact absurd (List.cons.inj heq).1 hplus
  · rfl

/-- What is written is read back. -/
theorem atoi_itoa (n : Int64) : atoi (itoa n) = some n := by
  unfold itoa
  split
  · rename_i hneg
    change (unsigned (digits n.toInt.natAbs)).bind (fun m => inRange (-m)) = some n
    have habs : -(n.toInt.natAbs : Int) = n.toInt := by omega
    rw [unsigned_digits, Option.bind_some, habs, inRange_toInt]
  · rename_i hpos
    have habs : (n.toInt.natAbs : Int) = n.toInt := by omega
    have hread : ∀ text, text = digits n.toInt.natAbs →
        atoi text = (unsigned text).bind fun m => inRange m := by
      intro text htext
      match text with
      | [] => rfl
      | b :: rest =>
          have hdigit : isDigit b = true :=
            isDigit_of_mem_digits (htext ▸ List.mem_cons_self)
          have hminus : b ≠ 0x2d := by
            rintro rfl
            exact absurd hdigit (by decide)
          have hplus : b ≠ 0x2b := by
            rintro rfl
            exact absurd hdigit (by decide)
          exact atoi_cons hminus hplus rest
    rw [hread _ rfl, unsigned_digits, Option.bind_some, habs, inRange_toInt]

theorem itoa_ne_nil (n : Int64) : itoa n ≠ [] := by
  unfold itoa
  split
  · exact List.cons_ne_nil _ _
  · exact digits_ne_nil _

theorem mem_itoa {n : Int64} {b : UInt8} (h : b ∈ itoa n) : b = 0x2d ∨ isDigit b = true := by
  unfold itoa at h
  split at h
  · rcases List.mem_cons.mp h with h | h
    · exact .inl h
    · exact .inr (isDigit_of_mem_digits h)
  · exact .inr (isDigit_of_mem_digits h)

end Ps2Servers.Strconv
