import Mathlib.Algebra.BigOperators.Group.List.Basic
import Mathlib.Algebra.Order.Ring.Nat
import Mathlib.Data.List.Basic

/-!
# Shared counters and the shares of components

A system keeps one counter per key, and each of its components holds a share of
every counter. The accounting is exact when each counter is the total of the
shares. An action of a single component that moves a counter by as much as it
moves the component's own share keeps the accounting exact.
-/

namespace Ps2Servers.Accounting

variable {σ κ ε : Type*}

/-- The total of the shares that the components hold of the counter `k`. -/
def total (share : σ → κ → Nat) (components : List σ) (k : κ) : Nat :=
  (components.map fun c => share c k).sum

@[simp] theorem total_nil (share : σ → κ → Nat) (k : κ) : total share [] k = 0 := rfl

@[simp] theorem total_cons (share : σ → κ → Nat) (c : σ) (rest : List σ) (k : κ) :
    total share (c :: rest) k = share c k + total share rest k := by
  simp [total]

theorem total_append (share : σ → κ → Nat) (cs ds : List σ) (k : κ) :
    total share (cs ++ ds) k = total share cs k + total share ds k := by
  simp [total]

theorem total_add (share share' : σ → κ → Nat) (cs : List σ) (k : κ) :
    total (fun c k => share c k + share' c k) cs k = total share cs k + total share' cs k := by
  simp [total, List.sum_map_add]

theorem total_map (share : σ → κ → Nat) {f : σ → σ} (hf : ∀ c k, share (f c) k = share c k)
    (cs : List σ) (k : κ) : total share (cs.map f) k = total share cs k := by
  simp [total, Function.comp_def, hf]

theorem share_le_total (share : σ → κ → Nat) {cs : List σ} {i : Nat} {c : σ}
    (hi : cs[i]? = some c) (k : κ) : share c k ≤ total share cs k := by
  induction cs generalizing i with
  | nil => simp at hi
  | cons d rest ih =>
      cases i with
      | zero =>
          obtain rfl : d = c := by simpa using hi
          simp
      | succ i =>
          have hr := ih (by simpa using hi)
          rw [total_cons]
          omega

/-- Replacing one component moves the total by as much as that component's share. -/
theorem total_set (share : σ → κ → Nat) {cs : List σ} {i : Nat} {c : σ} (c' : σ)
    (hi : cs[i]? = some c) (k : κ) :
    total share (cs.set i c') k + share c k = total share cs k + share c' k := by
  induction cs generalizing i with
  | nil => simp at hi
  | cons d rest ih =>
      cases i with
      | zero =>
          obtain rfl : d = c := by simpa using hi
          simp only [List.set_cons_zero, total_cons]
          omega
      | succ i =>
          have hr := ih (by simpa using hi)
          simp only [List.set_cons_succ, total_cons]
          omega

/-- An action of the component at `i` that is balanced keeps an exact accounting exact. -/
theorem exact_set (share : σ → κ → Nat) {counter counter' : κ → Nat} {cs : List σ} {i : Nat}
    {c c' : σ} (hi : cs[i]? = some c) (hexact : ∀ k, counter k = total share cs k)
    (hbal : ∀ k, counter' k + share c k = counter k + share c' k) (k : κ) :
    counter' k = total share (cs.set i c') k := by
  have hset := total_set share c' hi k
  have hk := hexact k
  have hb := hbal k
  omega

private theorem eq_of_mem_of_length_le_one {l : List ε} (h : l.length ≤ 1) {x y : ε}
    (hx : x ∈ l) (hy : y ∈ l) : x = y := by
  match l with
  | [] => simp at hx
  | [e] =>
      rw [List.mem_singleton] at hx hy
      rw [hx, hy]
  | _ :: _ :: _ => simp at h

/-- When each component's share counts items of its own, a total of at most one
leaves a single item in a single component. -/
theorem unique_of_total_le_one (items : σ → List ε) (holds : ε → κ → Bool) {cs : List σ} {k : κ}
    (hle : total (fun c k => (items c).countP (holds · k)) cs k ≤ 1)
    {i j : Nat} {c d : σ} {x y : ε} (hi : cs[i]? = some c) (hj : cs[j]? = some d)
    (hx : x ∈ items c) (hy : y ∈ items d) (hxk : holds x k = true) (hyk : holds y k = true) :
    i = j ∧ x = y := by
  let all : List (Nat × ε) :=
    cs.zipIdx.flatMap fun e => ((items e.1).filter (holds · k)).map fun x => (e.2, x)
  have hlen : all.length ≤ 1 := by
    have hfst : (cs.zipIdx.map fun e => ((items e.1).filter (holds · k)).length)
        = cs.map fun c => ((items c).filter (holds · k)).length := by
      conv_rhs => rw [← List.zipIdx_map_fst 0 cs, List.map_map]
      rfl
    simpa [all, List.length_flatMap, hfst, total, List.countP_eq_length_filter] using hle
  have hmem : ∀ {i : Nat} {c : σ} {x : ε}, cs[i]? = some c → x ∈ items c → holds x k = true →
      (i, x) ∈ all := by
    intro i c x hi hx hxk
    refine List.mem_flatMap.mpr ⟨(c, i), List.mem_zipIdx_iff_getElem?.mpr hi, ?_⟩
    exact List.mem_map.mpr ⟨x, List.mem_filter.mpr ⟨hx, hxk⟩, rfl⟩
  have heq : (i, x) = (j, y) := eq_of_mem_of_length_le_one hlen (hmem hi hx hxk) (hmem hj hy hyk)
  exact ⟨congrArg Prod.fst heq, congrArg Prod.snd heq⟩

end Ps2Servers.Accounting
