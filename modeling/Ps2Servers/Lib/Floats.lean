import Mathlib.Algebra.Ring.Nat
/-!
# Whole numbers as floats

The float with 53 significant bits that is nearest to a whole number.

## Implementation notes

Such a float is a whole number again. A quotient by a power of two is rounded like its numerator.
-/

namespace Ps2Servers.Floats

/-- The quotient that is nearest, and of two that are as near the even one. -/
def nearest (n d : Nat) : Nat :=
  if 2 * (n % d) < d ∨ 2 * (n % d) = d ∧ n / d % 2 = 0 then n / d else n / d + 1

/-- The bits of a number beyond the first 53. -/
def excess (n : Nat) : Nat := n.log2 - 52

/-- The float that is nearest to a number. -/
def ofNat (n : Nat) : Nat := nearest n (2 ^ excess n) * 2 ^ excess n

variable {m n d k : Nat}

theorem le_nearest (n d : Nat) : n / d ≤ nearest n d := by
  unfold nearest
  split
  · exact Nat.le_refl _
  · exact Nat.le_succ _

theorem nearest_le (n d : Nat) : nearest n d ≤ n / d + 1 := by
  unfold nearest
  split
  · exact Nat.le_succ _
  · exact Nat.le_refl _

theorem nearest_mono (h : m ≤ n) : nearest m d ≤ nearest n d := by
  rcases Nat.lt_or_ge (m / d) (n / d) with hlt | hge
  · exact Nat.le_trans (nearest_le m d) (Nat.le_trans hlt (le_nearest n d))
  · have hdiv : m / d = n / d := Nat.le_antisymm (Nat.div_le_div_right h) hge
    have hmod : m % d ≤ n % d := by
      have hm := Nat.div_add_mod m d
      have hn := Nat.div_add_mod n d
      rw [hdiv] at hm
      omega
    unfold nearest
    rw [hdiv]
    split
    · split
      · exact Nat.le_refl _
      · exact Nat.le_succ _
    · split
      · rename_i hm hn
        omega
      · exact Nat.le_refl _

/-- A number with at most 53 bits is a float. -/
theorem ofNat_eq (h : n ≤ 2 ^ 53) : ofNat n = n := by
  rcases Nat.lt_or_eq_of_le h with hlt | rfl
  · have hexcess : excess n = 0 := by
      unfold excess
      rcases Nat.eq_zero_or_pos n with rfl | hpos
      · rfl
      · have hlog : n.log2 < 53 := (Nat.log2_lt (Nat.ne_of_gt hpos)).mpr hlt
        omega
    rw [ofNat, hexcess, nearest, Nat.pow_zero, Nat.mod_one, Nat.div_one, if_pos (by omega), Nat.mul_one]
  · rfl

/-- Rounding stays between the powers of two that the number is between. -/
theorem pow_log2_le_ofNat (h : n ≠ 0) : 2 ^ n.log2 ≤ ofNat n := by
  rcases Nat.lt_or_ge n.log2 53 with hshort | hlong
  · have hsmall : n ≤ 2 ^ 53 := Nat.le_of_lt ((Nat.log2_lt h).mp hshort)
    rw [ofNat_eq hsmall]
    exact Nat.log2_self_le h
  · have hsplit : 2 ^ n.log2 = 2 ^ 52 * 2 ^ excess n := by
      rw [← Nat.pow_add, excess, Nat.add_sub_cancel' (by omega)]
    have hquotient : 2 ^ 52 ≤ n / 2 ^ excess n := by
      rw [Nat.le_div_iff_mul_le (Nat.two_pow_pos _), ← hsplit]
      exact Nat.log2_self_le h
    rw [hsplit, ofNat]
    exact Nat.mul_le_mul_right _ (Nat.le_trans hquotient (le_nearest n _))

theorem ofNat_le_pow (n : Nat) : ofNat n ≤ 2 ^ (n.log2 + 1) := by
  rcases Nat.lt_or_ge n.log2 53 with hshort | hlong
  · rcases Nat.eq_zero_or_pos n with rfl | hpos
    · exact Nat.zero_le _
    · have hsmall : n ≤ 2 ^ 53 := Nat.le_of_lt ((Nat.log2_lt (Nat.ne_of_gt hpos)).mp hshort)
      rw [ofNat_eq hsmall]
      exact Nat.le_of_lt Nat.lt_log2_self
  · have hsplit : 2 ^ (n.log2 + 1) = 2 ^ 53 * 2 ^ excess n := by
      rw [← Nat.pow_add, excess]
      congr 1
      omega
    have hquotient : n / 2 ^ excess n < 2 ^ 53 := by
      rw [Nat.div_lt_iff_lt_mul (Nat.two_pow_pos _), ← hsplit]
      exact Nat.lt_log2_self
    rw [hsplit, ofNat]
    exact Nat.mul_le_mul_right _ (Nat.le_trans (nearest_le n _) hquotient)

theorem ofNat_mono (h : m ≤ n) : ofNat m ≤ ofNat n := by
  rcases Nat.eq_zero_or_pos m with rfl | hpos
  · exact Nat.zero_le _
  · have hm : m ≠ 0 := Nat.ne_of_gt hpos
    have hn : n ≠ 0 := Nat.ne_of_gt (Nat.lt_of_lt_of_le hpos h)
    have hlog : m.log2 ≤ n.log2 := (Nat.le_log2 hn).mpr (Nat.le_trans (Nat.log2_self_le hm) h)
    rcases Nat.lt_or_eq_of_le hlog with hlt | heq
    · calc
        ofNat m ≤ 2 ^ (m.log2 + 1) := ofNat_le_pow m
        _ ≤ 2 ^ n.log2 := Nat.pow_le_pow_right (by decide) hlt
        _ ≤ ofNat n := pow_log2_le_ofNat hn
    · have hexcess : excess m = excess n := by rw [excess, excess, heq]
      rw [ofNat, ofNat, hexcess]
      exact Nat.mul_le_mul_right _ (nearest_mono h)

/-- Rounding at most doubles. -/
theorem ofNat_le (n : Nat) : ofNat n ≤ 2 * n := by
  rcases Nat.eq_zero_or_pos n with rfl | hpos
  · exact Nat.zero_le _
  · calc
      ofNat n ≤ 2 ^ (n.log2 + 1) := ofNat_le_pow n
      _ = 2 * 2 ^ n.log2 := by rw [Nat.pow_succ, Nat.mul_comm]
      _ ≤ 2 * n := Nat.mul_le_mul_left 2 (Nat.log2_self_le (Nat.ne_of_gt hpos))

end Ps2Servers.Floats
