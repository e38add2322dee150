import Ps2Servers.Lib.Bytes
import Mathlib.Data.List.TakeDrop

/-!
# Writes into byte strings

A write replaces the bytes at an offset, behind zeros where the string was shorter.
Inside the string it changes those bytes and no others, writes one behind the other
are one write, and a part of a block is written by rewriting the block.
-/

namespace Ps2Servers.Bytes

/-- What a write at an offset leaves. -/
def splice (old : Bytes) (offset : Nat) (data : Bytes) : Bytes :=
  if data = [] then old
  else
    old.take offset ++ List.replicate (offset - old.length) 0 ++ data ++
      old.drop (offset + data.length)

variable {old data : Bytes} {offset : Nat}

theorem splice_of_le (h : offset ≤ old.length) :
    old.splice offset data = old.take offset ++ data ++ old.drop (offset + data.length) := by
  unfold splice
  split
  · rename_i hnil
    rw [hnil, List.append_nil, List.length_nil, Nat.add_zero, List.take_append_drop]
  · rw [Nat.sub_eq_zero_of_le h, List.replicate_zero, List.append_nil]

theorem length_splice (h : offset + data.length ≤ old.length) :
    (old.splice offset data).length = old.length := by
  rw [splice_of_le (by omega), List.length_append, List.length_append, List.length_take,
    List.length_drop]
  omega

/-- A write inside the string changes the bytes it covers and no others. -/
theorem getElem?_splice (h : offset + data.length ≤ old.length) (i : Nat) :
    (old.splice offset data)[i]? =
      if offset ≤ i ∧ i < offset + data.length then data[i - offset]? else old[i]? := by
  have htake : (old.take offset).length = offset := List.length_take_of_le (by omega)
  rw [splice_of_le (by omega)]
  split
  · rename_i hin
    rw [List.getElem?_append_left (by rw [List.length_append, htake]; exact hin.2),
      List.getElem?_append_right (by omega), htake]
  · rename_i hout
    by_cases hlt : i < offset
    · rw [List.getElem?_append_left (by rw [List.length_append, htake]; omega),
        List.getElem?_append_left (by omega), List.getElem?_take_of_lt hlt]
    · have hge : offset + data.length ≤ i := by omega
      have hlen : (old.take offset ++ data).length = offset + data.length := by
        rw [List.length_append, htake]
      rw [List.getElem?_append_right (by omega), hlen, List.getElem?_drop,
        Nat.add_sub_cancel' hge]

theorem getElem?_sub (bytes : Bytes) (start size i : Nat) :
    (bytes.sub start size)[i]? = if i < size then bytes[start + i]? else none := by
  unfold sub
  split
  · rw [List.getElem?_take_of_lt ‹_›, List.getElem?_drop]
  · rw [List.getElem?_take_eq_none (by omega)]

theorem length_sub (bytes : Bytes) {start size : Nat} (h : start + size ≤ bytes.length) :
    (bytes.sub start size).length = size := by
  unfold sub
  rw [List.length_take, List.length_drop]
  omega

/-- A slice goes as far as there are bytes. -/
theorem sub_min (bytes : Bytes) (start size : Nat) :
    bytes.sub start (min size (bytes.length - start)) = bytes.sub start size := by
  have hlength : (bytes.drop start).length = bytes.length - start := List.length_drop
  unfold sub
  by_cases h : size ≤ bytes.length - start
  · rw [Nat.min_eq_left h]
  · rw [List.take_of_length_le (by omega), List.take_of_length_le (by omega)]

/-- A slice of a slice. -/
theorem sub_sub (bytes : Bytes) {start size shift n : Nat} (h : shift + n ≤ size) :
    (bytes.sub start size).sub shift n = bytes.sub (start + shift) n := by
  apply List.ext_getElem?
  intro i
  rw [getElem?_sub, getElem?_sub, getElem?_sub]
  by_cases hi : i < n
  · rw [if_pos hi, if_pos hi, if_pos (by omega), Nat.add_assoc]
  · rw [if_neg hi, if_neg hi]

/-- Consecutive writes are one write. -/
theorem splice_splice {a b : Bytes} (h : offset + a.length + b.length ≤ old.length) :
    (old.splice offset a).splice (offset + a.length) b = old.splice offset (a ++ b) := by
  have hab : (a ++ b).length = a.length + b.length := List.length_append
  have hlen : (old.splice offset a).length = old.length := length_splice (by omega)
  apply List.ext_getElem?
  intro i
  rw [getElem?_splice (by omega), getElem?_splice (by omega), getElem?_splice (by omega)]
  by_cases hin : offset + a.length ≤ i ∧ i < offset + a.length + b.length
  · rw [if_pos hin, if_pos (by omega), List.getElem?_append_right (by omega)]
    congr 1
    omega
  · rw [if_neg hin]
    by_cases hleft : offset ≤ i ∧ i < offset + a.length
    · rw [if_pos hleft, if_pos (by omega), List.getElem?_append_left (by omega)]
    · rw [if_neg hleft, if_neg (by omega)]

/-- Rewriting a block with a part of it replaced writes that part. -/
theorem splice_block {start size shift : Nat} (hblock : start + size ≤ old.length)
    (hpart : shift + data.length ≤ size) :
    old.splice start ((old.sub start size).splice shift data) =
      old.splice (start + shift) data := by
  have hsub : (old.sub start size).length = size := length_sub old hblock
  have hpatched : ((old.sub start size).splice shift data).length = size := by
    rw [length_splice (by omega), hsub]
  have hwhole : start + ((old.sub start size).splice shift data).length ≤ old.length := by omega
  have hpiece : start + shift + data.length ≤ old.length := by omega
  apply List.ext_getElem?
  intro i
  rw [getElem?_splice hwhole, getElem?_splice hpiece, hpatched]
  by_cases hin : start ≤ i ∧ i < start + size
  · rw [if_pos hin, getElem?_splice (by omega)]
    by_cases hd : shift ≤ i - start ∧ i - start < shift + data.length
    · rw [if_pos hd, if_pos (by omega)]
      congr 1
      omega
    · rw [if_neg hd, if_neg (by omega), getElem?_sub, if_pos (by omega),
        Nat.add_sub_cancel' hin.1]
  · rw [if_neg hin, if_neg (by omega)]

/-- What was written is read back. -/
theorem sub_splice (old : Bytes) (offset : Nat) (data : Bytes) :
    (old.splice offset data).sub offset data.length = data := by
  unfold splice sub
  split
  · rename_i hnil
    rw [hnil, List.length_nil, List.take_zero]
  · have hfront : (old.take offset ++ List.replicate (offset - old.length) 0).length = offset := by
      rw [List.length_append, List.length_take, List.length_replicate]
      omega
    rw [List.append_assoc (old.take offset ++ _), List.drop_left' hfront, List.take_left]

/-- A write leaves what lies before it. -/
theorem sub_splice_of_le {start size : Nat} (hbefore : start + size ≤ offset)
    (hin : start + size ≤ old.length) : (old.splice offset data).sub start size =
      old.sub start size := by
  unfold splice
  split
  · rfl
  · have htake : (old.take offset).length = min offset old.length := List.length_take
    rw [List.append_assoc, List.append_assoc, sub_append_left _ (by omega)]
    unfold sub
    rw [List.drop_take, List.take_take, Nat.min_eq_left (by omega)]

end Ps2Servers.Bytes
