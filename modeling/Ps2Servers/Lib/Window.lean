import Mathlib.Data.List.Basic
import Mathlib.Data.Int.ModEq

/-!
# A sliding window over an endless sequence

A sender numbers its packets without end and puts only the number modulo `m` on the
wire. It holds what has not been acknowledged yet. An acknowledgement carries such a
number; as long as fewer than `m` packets are outstanding, it stands for at most
one of them.
-/

namespace Ps2Servers.Sliding

variable {α : Type}

/-- The position of the next packet, the position up to which packets are acknowledged, and the
packets held for another transmission with their positions. -/
structure Window (α : Type) where
  next : Int
  acked : Int
  held : List (Int × α)
  deriving DecidableEq, Repr

/-- How many packets behind the acknowledged one have been numbered. -/
def Window.outstanding (w : Window α) : Int := w.next - 1 - w.acked

/-- The first position from the acknowledged one on that has the number `r`. -/
def Window.position (m : Int) (w : Window α) (r : Int) : Int := w.acked + (r - w.acked) % m

/-- What an acknowledgement with the number `r` may do: it moves the acknowledged position forward
to a packet of that number that is there, or not at all; and only packets up to that position are
dropped. -/
structure Window.Acknowledges (m r : Int) (w w' : Window α) : Prop where
  next : w'.next = w.next
  forward : w.acked ≤ w'.acked
  /-- A position that moved is that of a packet with the number. -/
  moved : w'.acked ≠ w.acked → w'.acked < w.next ∧ w'.acked % m = r % m
  /-- A packet that is there and has the number is acknowledged. -/
  reached : ∀ q, w.acked ≤ q → q < w.next → q % m = r % m → w'.acked = q
  held : w'.held.Sublist w.held
  /-- What is dropped is covered by a packet with the number. -/
  covered : ∀ e ∈ w.held, e ∉ w'.held → e.1 ≤ w'.acked ∧ w'.acked < w.next ∧ w'.acked % m = r % m

/-! ## Numbers on the ring -/

theorem sub_emod_of_emod_eq {m a q r : Int} (hle : a ≤ q) (hlt : q - a < m) (hq : q % m = r % m) :
    (r - a) % m = q - a := by
  have hmod : (r - a) % m = (q - a) % m := Int.ModEq.sub_right a (Eq.symm hq)
  rw [hmod]
  exact Int.emod_eq_of_lt (by omega) hlt

variable {m : Int} {w : Window α}

theorem Window.position_emod (r : Int) : w.position m r % m = r % m := by
  unfold Window.position
  rw [Int.add_emod, Int.emod_emod, ← Int.add_emod]
  congr 1
  omega

theorem Window.acked_le_position (hm : 0 < m) (r : Int) : w.acked ≤ w.position m r := by
  have := Int.emod_nonneg (r - w.acked) (Int.ne_of_gt hm)
  unfold Window.position
  omega

/-- Fewer than `m` packets are outstanding: the number says which one is meant. -/
theorem Window.position_eq {q r : Int} (hout : w.outstanding < m) (hle : w.acked ≤ q)
    (hlt : q < w.next) (hq : q % m = r % m) : w.position m r = q := by
  unfold Window.outstanding at hout
  unfold Window.position
  rw [sub_emod_of_emod_eq hle (by omega) hq]
  omega

/-! ## Acknowledgements -/

/-- The acknowledgement of the first position with the number `r`, if that packet is there: what
`keep` refuses is dropped. -/
def Window.settle (m : Int) (keep : Int × α → Bool) (w : Window α) (r : Int) : Window α :=
  if w.position m r < w.next then ⟨w.next, w.position m r, w.held.filter keep⟩ else w

/-- Fewer than `m` packets outstanding, and all that are not acknowledged kept: that is an
acknowledgement. -/
theorem Window.acknowledges_settle {r : Int} {keep : Int × α → Bool} (hm : 0 < m)
    (hout : w.outstanding < m)
    (hkeep : w.position m r < w.next → ∀ e ∈ w.held, w.position m r < e.1 → keep e) :
    w.Acknowledges m r (w.settle m keep r) := by
  unfold Window.settle
  split
  · rename_i hnext
    constructor
    · rfl
    · exact w.acked_le_position hm r
    · intro _
      exact ⟨hnext, w.position_emod r⟩
    · intro q hle hlt hq
      exact Window.position_eq hout hle hlt hq
    · exact List.filter_sublist
    · intro e he hdropped
      refine ⟨?_, hnext, w.position_emod r⟩
      by_contra hbehind
      exact hdropped (List.mem_filter.mpr ⟨he, hkeep hnext e he (not_le.mp hbehind)⟩)
  · rename_i hnext
    constructor
    · rfl
    · exact le_refl _
    · intro hne
      exact absurd rfl hne
    · intro q hle hlt hq
      rw [Window.position_eq hout hle hlt hq] at hnext
      exact absurd hlt hnext
    · exact List.Sublist.refl _
    · intro e he hdropped
      exact absurd he hdropped

end Ps2Servers.Sliding
