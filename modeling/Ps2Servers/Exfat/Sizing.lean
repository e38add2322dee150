import Ps2Servers.Exfat.Clusters
import Ps2Servers.Lib.Floats

/-!
# The size of the allocation bitmap

The loop that sizes the bitmap against the clusters that it has to describe, its own ones included, with
the quotients as the code computes them.

## Implementation notes

`solve` is the loop on exact quotients. The code divides in floats, which are exact up to `2 ^ 53`, and
a quotient that no float can hold is an `OverflowError`.
-/

namespace Ps2Servers.Exfat

/-- `math.ceil(n / 2 ** k)`. The exponent of a float is below 1024. -/
@[irreducible] def ceilQuotient (n k : Nat) : Option Nat :=
  if 1024 + k ≤ (Floats.ofNat n).log2 then none else some (ceilDiv (Floats.ofNat n) (2 ^ k))

/-- `math.ceil(math.ceil(cluster_count / 8) / CLUSTER)`. -/
def neededClusters (clusterCount : Nat) : Option Nat := do ceilQuotient (← ceilQuotient clusterCount 3) 15

def countOf (payload upcaseClusters bitmapClusters : Nat) : Nat :=
  max 64 (payload + bitmapClusters + upcaseClusters + 16)

inductive Sizing
  | overflow
  | done (clusterCount bitmapClusters : Nat)
  deriving DecidableEq, Repr

/-- The loop of the constructor, for so many turns. -/
def sizing (payload upcaseClusters : Nat) : Nat → Nat → Option Sizing
  | 0, _ => none
  | turns + 1, bitmapClusters =>
      let clusterCount := countOf payload upcaseClusters bitmapClusters
      match neededClusters clusterCount with
      | none => some .overflow
      | some needed =>
          if needed = bitmapClusters then some (.done clusterCount bitmapClusters)
          else sizing payload upcaseClusters turns needed

/-! ## Quotients -/

theorem ceilDiv_mono {m n d : Nat} (h : m ≤ n) : ceilDiv m d ≤ ceilDiv n d :=
  Nat.div_le_div_right (by omega)

theorem ceilQuotient_eq_some {n k q : Nat} (h : ceilQuotient n k = some q) :
    q = ceilDiv (Floats.ofNat n) (2 ^ k) := by
  unfold ceilQuotient at h
  split at h
  · cases h
  · exact (Option.some.inj h).symm

/-- Up to `2 ^ 53` the quotient is exact. -/
theorem ceilQuotient_exact {n : Nat} (h : n ≤ 2 ^ 53) (k : Nat) :
    ceilQuotient n k = some (ceilDiv n (2 ^ k)) := by
  have hlog : n.log2 < 54 := by
    rcases Nat.eq_zero_or_pos n with rfl | hpos
    · decide
    · exact (Nat.log2_lt (Nat.ne_of_gt hpos)).mpr (Nat.lt_of_le_of_lt h (by decide))
  rw [ceilQuotient, Floats.ofNat_eq h, if_neg (by omega)]

theorem neededClusters_eq_some {n q : Nat} (h : neededClusters n = some q) :
    q = ceilDiv (Floats.ofNat (ceilDiv (Floats.ofNat n) (2 ^ 3))) (2 ^ 15) := by
  obtain ⟨length, hlength, hq⟩ := Option.bind_eq_some_iff.mp h
  rw [ceilQuotient_eq_some hq, ceilQuotient_eq_some hlength]

theorem neededClusters_mono {m n q r : Nat} (hm : neededClusters m = some q) (hn : neededClusters n = some r)
    (h : m ≤ n) : q ≤ r := by
  rw [neededClusters_eq_some hm, neededClusters_eq_some hn]
  exact ceilDiv_mono (Floats.ofNat_mono (ceilDiv_mono (Floats.ofNat_mono h)))

/-- A bitmap is far smaller than what it describes. -/
theorem neededClusters_le {n q : Nat} (h : neededClusters n = some q) : q ≤ n / 2 + 3 := by
  have hfirst := Floats.ofNat_le n
  have hsecond := Floats.ofNat_le (ceilDiv (Floats.ofNat n) (2 ^ 3))
  rw [neededClusters_eq_some h]
  unfold ceilDiv at hsecond ⊢
  omega

theorem neededClusters_pos {n q : Nat} (hn : 0 < n) (h : neededClusters n = some q) : 0 < q := by
  have hpos (k : Nat) (hk : 0 < k) : 0 < Floats.ofNat k :=
    Nat.lt_of_lt_of_le (Nat.two_pow_pos _) (Floats.pow_log2_le_ofNat (Nat.ne_of_gt hk))
  rw [neededClusters_eq_some h]
  exact ceilDiv_pos (hpos _ (ceilDiv_pos (hpos n hn) (by decide))) (by decide)

/-! ## The loop -/

variable {payload upcaseClusters : Nat}

/-- The bitmap only grows, and stays small, so the loop ends. -/
theorem sizing_isSome {bound turns bitmapClusters : Nat} (hbound : payload + upcaseClusters + 64 = bound)
    (hsmall : bitmapClusters ≤ bound) (hturns : bound + 1 ≤ turns + bitmapClusters)
    (hgrows : ∀ q, neededClusters (countOf payload upcaseClusters bitmapClusters) = some q →
      bitmapClusters ≤ q) : (sizing payload upcaseClusters turns bitmapClusters).isSome := by
  induction turns generalizing bitmapClusters with
  | zero => omega
  | succ turns ih =>
      rw [sizing]
      cases hneeded : neededClusters (countOf payload upcaseClusters bitmapClusters) with
      | none => rfl
      | some q =>
          dsimp only
          split
          · rfl
          · rename_i hne
            have hle := hgrows q hneeded
            have hfew := neededClusters_le hneeded
            apply ih
            · unfold countOf at hfew
              omega
            · omega
            · intro r hr
              apply neededClusters_mono hneeded hr
              unfold countOf
              omega

/-- What the loop ends with. -/
theorem sizing_eq_done {turns start clusterCount bitmapClusters : Nat}
    (h : sizing payload upcaseClusters turns start = some (.done clusterCount bitmapClusters)) :
    clusterCount = countOf payload upcaseClusters bitmapClusters ∧
      neededClusters clusterCount = some bitmapClusters := by
  induction turns generalizing start with
  | zero => cases h
  | succ turns ih =>
      rw [sizing] at h
      cases hneeded : neededClusters (countOf payload upcaseClusters start) with
      | none =>
          rw [hneeded] at h
          cases h
      | some q =>
          rw [hneeded] at h
          dsimp only at h
          split at h
          · rename_i hfixed
            cases h
            exact ⟨rfl, hneeded.trans (congrArg some hfixed)⟩
          · exact ih h

/-- What a bitmap of so many bytes in so many clusters has to do. -/
structure Suffices (clusterCount bitmapLength bitmapClusters : Nat) : Prop where
  bits : clusterCount ≤ 8 * bitmapLength
  clusters : bitmapLength ≤ bitmapClusters * CLUSTER

/-- The loop ends for every payload, with an error of the division or with a count that all clusters
fit below; up to `2 ^ 53` clusters the bitmap has a bit for each. -/
theorem sizing_ends (payload upcaseClusters : Nat) :
    ∃ turns result, sizing payload upcaseClusters turns 1 = some result ∧
      ∀ clusterCount bitmapClusters, result = .done clusterCount bitmapClusters →
        bitmapClusters + upcaseClusters + payload ≤ clusterCount ∧
        (clusterCount ≤ 2 ^ 53 → ∃ bitmapLength, ceilQuotient clusterCount 3 = some bitmapLength ∧
          Suffices clusterCount bitmapLength bitmapClusters) := by
  have hsome : (sizing payload upcaseClusters (payload + upcaseClusters + 64) 1).isSome := by
    apply sizing_isSome rfl
    · omega
    · omega
    · intro q hq
      exact neededClusters_pos (by unfold countOf; omega) hq
  obtain ⟨result, hresult⟩ := Option.isSome_iff_exists.mp hsome
  refine ⟨_, result, hresult, ?_⟩
  rintro clusterCount bitmapClusters rfl
  obtain ⟨hcount, hneeded⟩ := sizing_eq_done hresult
  constructor
  · rw [hcount, countOf]
    omega
  · intro hexact
    have hlength := ceilQuotient_exact hexact 3
    have hless : ceilDiv clusterCount (2 ^ 3) ≤ 2 ^ 53 := by
      unfold ceilDiv
      omega
    obtain ⟨length, hlength', hclusters⟩ := Option.bind_eq_some_iff.mp hneeded
    rw [hlength] at hlength'
    cases hlength'
    rw [ceilQuotient_exact hless] at hclusters
    refine ⟨_, hlength, ?_, ?_⟩
    · have hbits := le_ceilDiv_mul clusterCount (show 0 < 2 ^ 3 by decide)
      omega
    · rw [← Option.some.inj hclusters]
      exact le_ceilDiv_mul _ (by decide)

/-- Beyond `2 ^ 53` clusters the float below the count loses the bit of the last cluster. -/
theorem last_cluster_without_bit :
    ∃ clusterCount bitmapClusters bitmapLength,
      sizing 9007164895264751 1 3 1 = some (.done clusterCount bitmapClusters) ∧
      ceilQuotient clusterCount 3 = some bitmapLength ∧ 8 * bitmapLength < clusterCount ∧
      8 * (bitmapClusters * CLUSTER) < clusterCount :=
  ⟨9007199255003137, 34359738369, 1125899906875392, by decide +kernel, by decide +kernel, by decide,
    by decide⟩

/-! ## The disks that are served -/

/-- While no count passes `2 ^ 53` the quotients are those of `solve`. -/
theorem sizing_eq_solve {turns start : Nat} (hpayload : payload + upcaseClusters + 64 ≤ 2 ^ 52)
    (hstart : start ≤ payload + upcaseClusters + 64) :
    sizing payload upcaseClusters turns start =
      (solve payload upcaseClusters turns start).map fun found => .done found.1 found.2 := by
  induction turns generalizing start with
  | zero => rfl
  | succ turns ih =>
      have hcount : countOf payload upcaseClusters start ≤ 2 ^ 53 := by
        unfold countOf
        omega
      have hneeded : neededClusters (countOf payload upcaseClusters start) =
          some (needed (countOf payload upcaseClusters start)) := by
        unfold neededClusters
        rw [ceilQuotient_exact hcount]
        apply ceilQuotient_exact
        unfold ceilDiv
        omega
      rw [sizing, hneeded, solve]
      dsimp only
      change (ite (needed (countOf payload upcaseClusters start) = start) _ _) =
        Option.map _ (ite (needed (countOf payload upcaseClusters start) = start) _ _)
      split
      · rfl
      · apply ih
        unfold needed ceilDiv CLUSTER countOf
        omega

/-- The clusters of the nodes of a folder. -/
def payloadOf (contents : Contents) : Nat :=
  ceilDiv (contents.dirSize true) CLUSTER + contents.clusters

/-- The loop ends as `build` has it on every disk that the sector capacity lets through. -/
theorem sizing_of_build {upper : Nat → Nat} {found : Contents} {v : Volume}
    (h : build upper found = some v) :
    ∃ turns, sizing (payloadOf found.sorted) (ceilDiv v.upcase.length CLUSTER) turns 1 =
      some (.done v.clusterCount v.bitmapClusters) := by
  have hbuilt := built_of_build h
  have hcount := hbuilt.clusterCount_lt
  unfold build at h
  simp only [Option.bind_eq_bind, Option.bind_eq_some_iff] at h
  obtain ⟨-, -, ⟨clusterCount, bitmapClusters⟩, hsolve, h⟩ := h
  dsimp only at h
  split at h
  · cases h
  · cases h
    obtain ⟨heq, -⟩ := solve_eq_some hsolve
    dsimp only at hcount
    refine ⟨_, (sizing_eq_solve ?_ ?_).trans (congrArg (Option.map _) hsolve)⟩
    · unfold payloadOf
      dsimp only
      omega
    · omega

theorem sizing_smallFolder : ∃ v turns, build id smallFolder = some v ∧
    sizing (payloadOf smallFolder.sorted) (ceilDiv v.upcase.length CLUSTER) turns 1 =
      some (.done v.clusterCount v.bitmapClusters) := by
  obtain ⟨v, hbuild⟩ := build_smallFolder
  obtain ⟨turns, hturns⟩ := sizing_of_build hbuild
  exact ⟨v, turns, hbuild, hturns⟩

end Ps2Servers.Exfat
