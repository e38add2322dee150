import Ps2Servers.Lib.Bytes

/-!
# Chained records

Records in a row, each of which begins with the offset of the next one in four bytes. The last one has
the offset zero.
-/

namespace Ps2Servers.Chained

/-- The record with this offset in its first four bytes. -/
def withNext (next : Nat) (record : Bytes) : Bytes := Bytes.ofNat 4 next ++ record.drop 4

/-- The records with their offsets. -/
def linked : List Bytes → List Bytes
  | [] => []
  | [record] => [withNext 0 record]
  | record :: next :: rest => withNext record.length record :: linked (next :: rest)

/-- The records that are found by following the offsets. -/
def unlink : Nat → Bytes → Option (List Bytes)
  | 0, _ => none
  | fuel + 1, buffer =>
      let next := buffer.field 0 4
      if next = 0 then some [buffer]
      else if buffer.length < next then none
      else (unlink fuel (buffer.drop next)).map (buffer.take next :: ·)

theorem length_withNext (next : Nat) {record : Bytes} (h : 4 ≤ record.length) :
    (withNext next record).length = record.length := by
  rw [withNext, List.length_append, Bytes.length_ofNat, List.length_drop]
  omega

theorem field_withNext {next : Nat} (hnext : next < 256 ^ 4) (record rest : Bytes) :
    Bytes.field (withNext next record ++ rest) 0 4 = next := by
  rw [withNext, List.append_assoc, Bytes.field_ofNat, Nat.mod_eq_of_lt hnext]

/-- Behind its offset a record is as it was. -/
theorem field_withNext_of_le (next : Nat) (record : Bytes) {offset : Nat} (h : 4 ≤ offset) (size : Nat) :
    (withNext next record).field offset size = record.field offset size := by
  rw [Bytes.field, Bytes.field, withNext, Bytes.sub_append_right _ _ (by rw [Bytes.length_ofNat]; exact h),
    Bytes.length_ofNat, Bytes.sub, Bytes.sub, List.drop_drop, Nat.add_sub_cancel' h]

theorem sub_withNext_of_le (next : Nat) (record : Bytes) {offset : Nat} (h : 4 ≤ offset) (size : Nat) :
    (withNext next record).sub offset size = record.sub offset size := by
  rw [withNext, Bytes.sub_append_right _ _ (by rw [Bytes.length_ofNat]; exact h), Bytes.length_ofNat,
    Bytes.sub, Bytes.sub, List.drop_drop, Nat.add_sub_cancel' h]

theorem length_flatten_linked {records : List Bytes} (h : ∀ r ∈ records, 4 ≤ r.length) :
    (linked records).flatten.length = (records.map List.length).sum := by
  induction records with
  | nil => rfl
  | cons record rest ih =>
      have hrecord := h record List.mem_cons_self
      have hrest := ih fun r hr => h r (List.mem_cons_of_mem record hr)
      cases rest with
      | nil =>
          rw [linked, List.flatten_cons, List.flatten_nil, List.append_nil, length_withNext 0 hrecord]
          exact (Nat.add_zero _).symm
      | cons next rest =>
          rw [linked, List.flatten_cons, List.length_append, length_withNext _ hrecord, hrest]
          rfl

/-- There are no more records than bytes. -/
theorem length_le_length_flatten {records : List Bytes} (h : ∀ r ∈ records, 4 ≤ r.length) :
    records.length ≤ (linked records).flatten.length := by
  rw [length_flatten_linked h]
  induction records with
  | nil => exact Nat.le_refl 0
  | cons record rest ih =>
      have hrecord := h record List.mem_cons_self
      have hrest := ih fun r hr => h r (List.mem_cons_of_mem record hr)
      rw [List.length_cons, List.map_cons, List.sum_cons]
      omega

/-- What was linked is found again. -/
theorem unlink_linked {records : List Bytes} (hne : records ≠ [])
    (h : ∀ r ∈ records, 4 ≤ r.length ∧ r.length < 256 ^ 4) {fuel : Nat} (hfuel : records.length ≤ fuel) :
    unlink fuel (linked records).flatten = some (linked records) := by
  induction records generalizing fuel with
  | nil => exact absurd rfl hne
  | cons record rest ih =>
      have hrecord := h record List.mem_cons_self
      cases fuel with
      | zero => cases hfuel
      | succ fuel =>
          cases rest with
          | nil =>
              have hfield := field_withNext (by decide : 0 < 256 ^ 4) record []
              rw [linked, List.flatten_cons, List.flatten_nil, unlink, hfield, if_pos rfl,
                List.append_nil]
          | cons next rest =>
              have hrest := ih (List.cons_ne_nil next rest) (fun r hr => h r (List.mem_cons_of_mem record hr))
                (Nat.le_of_succ_le_succ hfuel)
              have hlength := length_withNext record.length hrecord.1
              rw [linked, List.flatten_cons, unlink, field_withNext hrecord.2, if_neg (by omega),
                if_neg (by rw [List.length_append, hlength]; omega), List.drop_left' hlength,
                List.take_left' hlength, hrest]
              rfl

end Ps2Servers.Chained
