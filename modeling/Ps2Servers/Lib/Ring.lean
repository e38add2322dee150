import Mathlib.Data.List.DropRight
import Mathlib.Data.List.Rotate

/-!
# Ring buffers

A ring has a fixed number of slots, the slot that is written next, and the number of slots that
have been written. Once all of them have, the slot written next is the oldest one. Read from the
oldest slot on, the ring is the last values pushed, as many as it has slots.
-/

namespace Ps2Servers

variable {α : Type*}

/-- A ring buffer. A ring with a slot left free has written the slots before `head`. -/
structure Ring (α : Type*) where
  slots : List α
  head : Nat
  count : Nat
  head_lt : head < slots.length
  count_le : count ≤ slots.length
  written : count = slots.length ∨ head = count

namespace Ring

/-- A ring with nothing written yet. -/
def empty (n : Nat) (hn : 0 < n) (fill : α) : Ring α where
  slots := List.replicate n fill
  head := 0
  count := 0
  head_lt := by rwa [List.length_replicate]
  count_le := Nat.zero_le _
  written := .inr rfl

def capacity (r : Ring α) : Nat := r.slots.length

theorem capacity_pos (r : Ring α) : 0 < r.capacity := Nat.zero_lt_of_lt r.head_lt

def push (r : Ring α) (a : α) : Ring α where
  slots := r.slots.set r.head a
  head := (r.head + 1) % r.slots.length
  count := if r.count < r.slots.length then r.count + 1 else r.count
  head_lt := by
    rw [List.length_set]
    exact Nat.mod_lt _ r.capacity_pos
  count_le := by
    rw [List.length_set]
    have := r.count_le
    split <;> omega
  written := by
    rw [List.length_set]
    rcases r.written with hfull | hpart
    · exact .inl (by rw [hfull, if_neg (Nat.lt_irrefl _)])
    · by_cases hlast : r.head + 1 = r.slots.length
      · exact .inl (by rw [if_pos (by omega)]; omega)
      · have hlt := r.head_lt
        exact .inr (by rw [if_pos (by omega), Nat.mod_eq_of_lt (by omega), hpart])

/-- The slot of the oldest value. -/
def start (r : Ring α) : Nat := if r.count = r.slots.length then r.head else 0

/-- The values from the oldest on. -/
def toList (r : Ring α) : List α :=
  (List.range r.count).map fun i =>
    r.slots.get ⟨(r.start + i) % r.slots.length, Nat.mod_lt _ r.capacity_pos⟩

@[simp] theorem toList_empty (n : Nat) (hn : 0 < n) (fill : α) : (empty n hn fill).toList = [] :=
  rfl

@[simp] theorem capacity_push (r : Ring α) (a : α) : (r.push a).capacity = r.capacity :=
  List.length_set

@[simp] theorem length_toList (r : Ring α) : r.toList.length = r.count := by
  rw [toList, List.length_map, List.length_range]

theorem toList_eq (r : Ring α) : r.toList = (r.slots.rotate r.start).take r.count := by
  have hle := r.count_le
  apply List.ext_getElem
  · rw [length_toList, List.length_take, List.length_rotate, Nat.min_eq_left hle]
  · intro i h _
    rw [List.getElem_take, List.getElem_rotate]
    simp only [toList, List.getElem_map, List.getElem_range, List.get_eq_getElem, Nat.add_comm]

theorem toList_of_full {r : Ring α} (h : r.count = r.slots.length) :
    r.toList = r.slots.rotate r.head := by
  rw [toList_eq, start, if_pos h, h]
  exact List.take_of_length_le (List.length_rotate r.slots r.head).le

theorem toList_of_part {r : Ring α} (h : r.count ≠ r.slots.length) :
    r.toList = r.slots.take r.count := by
  rw [toList_eq, start, if_neg h, List.rotate_zero]

/-- A ring with a free slot takes the next value after the others. -/
theorem toList_push_of_part {r : Ring α} (h : r.count ≠ r.slots.length) (a : α) :
    (r.push a).toList = r.toList ++ [a] := by
  have hlt : r.count < r.slots.length := Nat.lt_of_le_of_ne r.count_le h
  have hhead : r.head = r.count := r.written.resolve_left h
  have hcount : (r.push a).count = r.count + 1 := if_pos hlt
  have htake : (r.push a).slots.take (r.count + 1) = r.toList ++ [a] := by
    change (r.slots.set r.head a).take (r.count + 1) = _
    rw [toList_of_part h, hhead, List.take_add_one, List.take_set_of_le (Nat.le_refl _),
      List.getElem?_set_self hlt, Option.toList_some]
  by_cases hfull : (r.push a).count = (r.push a).slots.length
  · have hzero : (r.push a).head = 0 := by
      have hlen : r.count + 1 = r.slots.length := by
        rw [← hcount, hfull]
        exact List.length_set
      change (r.head + 1) % r.slots.length = 0
      rw [hhead, hlen, Nat.mod_self]
    rw [toList_of_full hfull, hzero, List.rotate_zero, ← htake, ← hcount, hfull, List.take_length]
  · rw [toList_of_part hfull, hcount, htake]

/-- A full ring loses its oldest value. -/
theorem toList_push_of_full {r : Ring α} (h : r.count = r.slots.length) (a : α) :
    (r.push a).toList = (r.toList ++ [a]).drop 1 := by
  have hfull : (r.push a).count = (r.push a).slots.length := by
    change (if r.count < r.slots.length then _ else _) = (r.slots.set r.head a).length
    rw [if_neg (by omega), h, List.length_set]
  obtain ⟨front, old, back, hslots, hlen⟩ :
      ∃ front old back, r.slots = front ++ old :: back ∧ front.length = r.head :=
    ⟨r.slots.take r.head, r.slots.get ⟨r.head, r.head_lt⟩, r.slots.drop (r.head + 1),
      by rw [List.get_eq_getElem, ← List.drop_eq_getElem_cons r.head_lt, List.take_append_drop],
      List.length_take_of_le r.head_lt.le⟩
  have hset : (r.push a).slots = (front ++ [a]) ++ back := by
    change r.slots.set r.head a = _
    rw [hslots, ← hlen, List.set_append_right _ _ (Nat.le_refl _), Nat.sub_self, List.set_cons_zero,
      List.append_assoc, List.singleton_append]
  have hnext : (r.push a).head = (r.head + 1) % (r.push a).slots.length :=
    congrArg ((r.head + 1) % ·) List.length_set.symm
  have hpush : (r.push a).toList = back ++ (front ++ [a]) := by
    rw [toList_of_full hfull, hnext, List.rotate_mod, hset, ← hlen,
      show front.length + 1 = (front ++ [a]).length by rw [List.length_append, List.length_singleton],
      List.rotate_append_length_eq]
  have hold : r.toList = old :: back ++ front := by
    rw [toList_of_full h, hslots, ← hlen, List.rotate_append_length_eq]
  rw [hpush, hold, List.append_assoc, List.cons_append, List.drop_succ_cons, List.drop_zero]

/-- The ring holds the last values of a log. -/
def Holds (r : Ring α) (log : List α) : Prop := r.toList = log.rtake r.capacity

theorem holds_empty (n : Nat) (hn : 0 < n) (fill : α) : (empty n hn fill).Holds [] := by
  rw [Holds, toList_empty, List.rtake_nil]

theorem Holds.count {r : Ring α} {log : List α} (h : r.Holds log) :
    r.count = min r.capacity log.length := by
  rw [← length_toList, h, List.rtake, List.length_drop]
  omega

theorem Holds.push {r : Ring α} {log : List α} (h : r.Holds log) (a : α) :
    (r.push a).Holds (log ++ [a]) := by
  have hcount := h.count
  have hlist : r.toList = log.drop (log.length - r.capacity) := h
  rw [Holds, capacity_push, List.rtake, List.length_append, List.length_singleton]
  by_cases hfull : r.count = r.slots.length
  · have hle : r.capacity ≤ log.length := by
      have : r.slots.length = r.capacity := rfl
      omega
    rw [toList_push_of_full hfull, hlist, ← List.drop_append_of_le_length (Nat.sub_le _ _),
      List.drop_drop]
    congr 1
    omega
  · have hlt : log.length < r.capacity := by
      have : r.slots.length = r.capacity := rfl
      omega
    rw [toList_push_of_part hfull, hlist, Nat.sub_eq_zero_of_le hlt.le, List.drop_zero,
      Nat.sub_eq_zero_of_le hlt, List.drop_zero]

end Ring

end Ps2Servers
